import TolerantSyntax.Grammar.Enter
import TolerantSyntax.Grammar.Lookahead

/-!
# Types

A type is a primary type with suffixes and operators behind it. Array dimensions and `?` bind
tightest, then `&`, then `|`; both operators associate to the left.
-/

namespace TolerantSyntax

/-- How the tokens behind a type are read, depending on where it stands. -/
structure TypeOptions where
  /-- A bracket with `=`, `;` or `in` behind it is a list binding pattern, not a dimension. -/
  binding : Bool := false
  /-- `?` before an expression begins a conditional. -/
  typeTest : Bool := false
deriving DecidableEq, Repr, Inhabited

/-- The options of a position. -/
def TypeOptions.ofContext (context : Context) : TypeOptions :=
  { binding := context == .typedBindingPattern, typeTest := context == .typeTestExpression }

namespace ParseM

/-! ## Suffixes and operators -/

/-- `[ length ]`, the length being optional. -/
def arrayDimension : ParseM Node :=
  within .arrayDimension do
    let opening ← consumeNode
    let kind ← nextKind
    let length ←
      if kind == .asterisk then some <$> consumeNode
      else if kind.isNumericLiteral then some <$> basicLiteral
      else if kind == .identifier then some <$> typeReference
      else pure none
    let close ← expect .closeBracket .arrayDimension
    return .ofSlots .arrayDimension [some opening, length, some close]

/-- Array dimensions and `?` behind a type. -/
def typeSuffixes (type : Node) (options : TypeOptions) : ParseM Node :=
  loop type fun type => do
    match ← nextKind with
    | .openBracket =>
      if options.binding && Lookahead.bindsBracket (← upcoming) then return .inr type
      return .inl (.of .arrayTypeDescriptor [type, ← arrayDimension])
    | .questionMark =>
      if options.typeTest && Starts.expression (← kindAt 1) then return .inr type
      return .inl (.of .optionalTypeDescriptor [type, ← consumeNode])
    | _ => return .inr type

/-- A primary type in any position. -/
def primaryType (context : Context) : ParseM Node :=
  parse (.primaryType context)

/-- An operand of a type operator, with its suffixes. -/
def typeOperand (options : TypeOptions) : ParseM Node := do
  typeSuffixes (← primaryType .typeDescriptor) options

/-- Intersections behind a type. -/
def intersectionsAfter (type : Node) (options : TypeOptions) : ParseM Node :=
  loop type fun type => do
    if ← isNext .bitwiseAnd then
      let operator ← consumeNode
      return .inl (.of .intersectionTypeDescriptor [type, operator, ← typeOperand options])
    else return .inr type

/-- Unions behind a type. -/
def unionsAfter (type : Node) (options : TypeOptions) : ParseM Node :=
  loop type fun type => do
    if ← isNext .pipe then
      let operator ← consumeNode
      let operand ← typeOperand options
      return .inl
        (.of .unionTypeDescriptor [type, operator, ← intersectionsAfter operand options])
    else return .inr type

/-- All that can follow a primary type. -/
def typeAfter (primary : Node) (options : TypeOptions) : ParseM Node := do
  let suffixed ← typeSuffixes primary options
  let intersection ← intersectionsAfter suffixed options
  unionsAfter intersection options

/-- A type in some position; `kind` is what the next token is taken for. -/
def typeDescriptorAs (kind : Kind) (context : Context) : ParseM Node := do
  let primary ← parseAs (.primaryType context) kind
  typeAfter primary (.ofContext context)

/-! ## Primary types -/

/-- `< type >`. -/
def typeParameter : ParseM Node :=
  within .typeParameter do
    let opening ← consumeNode
    let type ← typeDescriptor .typeParameter
    let close ← expect .gt .typeParameter
    return .of .typeParameter [opening, type, close]

/-- A keyword with an optional type parameter. -/
def parameterizedType : ParseM Node := do
  let keyword ← consumeNode
  let parameter ← ifNext .lt typeParameter
  return .ofSlots .parameterizedTypeDescriptor [some keyword, parameter]

/-- `< value, completion >`, the completion being optional. -/
def streamParameters : ParseM Node :=
  within .streamTypeParams do
    let opening ← consumeNode
    let value ← typeDescriptor .streamTypeParams
    let (comma, completion) ←
      if ← isNext .comma then
        let comma ← consumeNode
        pure (some comma, some (← typeDescriptor .streamTypeParams))
      else pure (none, none)
    let close ← expect .gt .streamTypeParams
    return .ofSlots .streamTypeParams [some opening, some value, comma, completion, some close]

/-- `stream` with its parameters. -/
def streamType : ParseM Node := do
  let keyword ← consumeNode
  let parameters ← ifNext .lt streamParameters
  return .ofSlots .streamTypeDescriptor [some keyword, parameters]

/-- `()` or `(type)`. -/
def parenthesisedType : ParseM Node :=
  within .parenthesisedTypeDescriptor do
    let opening ← consumeNode
    if ← isNext .closeParen then return .of .nilTypeDescriptor [opening, ← consumeNode]
    else
      let type ← typeDescriptor .parenthesisedTypeDescriptor
      let close ← expect .closeParen .parenthesisedTypeDescriptor
      return .of .parenthesisedTypeDescriptor [opening, type, close]

/-- A type with `...` behind it, if that comes next. -/
def restTypeAfter (type : Node) : ParseM Node := do
  if ← isNext .ellipsis then return .of .restTypeDescriptor [type, ← consumeNode]
  else return type

/-- A member of a tuple type. -/
def tupleMember : ParseM Node := do
  restTypeAfter (← typeDescriptor .tupleTypeDescriptor)

/-- The rest of a tuple type behind its opening bracket and some members. -/
def tupleTypeAfter (opening : Node) (items : List Node) : ParseM Node := do
  let (members, close) ←
    delimitedAfter items .tupleTypeDescriptor .closeBracket .typeDescriptor tupleMember
  return .of .tupleTypeDescriptor [opening, members, close]

/-- A literal as a type. -/
def singletonType : ParseM Node := do
  let literal ← if ← isNext .minus then negativeLiteral else basicLiteral
  return .of .singletonTypeDescriptor [literal]

/-! ## Records and objects -/

/-- Does `readonly` qualify the field that comes next? It does if a type follows it; in
`readonly x;` it is the type itself. -/
def qualifiesReadonly : ParseM Bool := do
  if ← isNext .readonlyKeyword then
    let second ← kindAt 1
    if second == .identifier then
      return !([.semicolon, .equal, .questionMark] : List Kind).contains (← kindAt 2)
    else return Starts.type second
  else return false

/-- `* type ;`, which includes the members of another type. -/
def typeInclusion (context : Context) : ParseM Node := do
  let asterisk ← consumeNode
  let type ← typeReference
  let semicolon ← expect .semicolon context
  return .of .typeReference [asterisk, type, semicolon]

/-- A field of a record type with its metadata. -/
def recordField : ParseM Node := do
  let metadata ← metadata
  resume (.recordField metadata)

/-- `record { fields }` or `record {| fields |}`. -/
def recordType : ParseM Node :=
  within .recordTypeDescriptor do
    let keyword ← consumeNode
    let closed ← isNext .openBracePipe
    let opening ← if closed then consumeNode else expect .openBrace .recordTypeDescriptor
    let fields ←
      manyUntil (fun kind => kind == .closeBrace || kind == .closePipeBrace) recordField
    let close ← expect (if closed then .closePipeBrace else .closeBrace) .recordTypeDescriptor
    return .of .recordTypeDescriptor [keyword, opening, fields, close]

/-- Keywords that qualify any member of a class or an object type. -/
def memberQualifiers : List Kind :=
  [.publicKeyword, .privateKeyword, .remoteKeyword, .resourceKeyword, .transactionalKeyword,
   .finalKeyword]

/-- Does a qualifier of a member come next? -/
def qualifiesMember : ParseM Bool := do
  let kind ← nextKind
  if kind == .isolatedKeyword then return !(← isSecond .objectKeyword)
  else if kind == .readonlyKeyword then qualifiesReadonly
  else return memberQualifiers.contains kind

/-- Consumes tokens as long as `more` holds. -/
def consumeWhile (more : ParseM Bool) : ParseM (List Node) :=
  loop [] fun items => do
    if ← more then return .inl (items ++ [← consumeNode]) else return .inr items

/-- A member of a class or, if `objectType` holds, of an object type. -/
def classMember (objectType : Bool) : ParseM Node :=
  within (if objectType then .objectMember else .classMember) do
    let metadata ← metadata
    let qualifiers ← consumeWhile qualifiesMember
    resume (.classMember metadata qualifiers objectType)

/-- `object { members }` behind its qualifiers. -/
def objectTypeAfter (qualifiers : Node) : ParseM Node :=
  within .objectTypeDescriptor do
    let keyword ← expect .objectKeyword .objectTypeDescriptor
    let opening ← expect .openBrace .objectTypeDescriptor
    let members ← manyUntil (· == .closeBrace) (classMember true)
    let close ← expect .closeBrace .objectTypeDescriptor
    return .of .objectTypeDescriptor [qualifiers, keyword, opening, members, close]

/-- `function` with its signature, behind its qualifiers. -/
def functionTypeAfter (qualifiers : Node) : ParseM Node :=
  within .functionTypeDescriptor do
    let keyword ← consumeNode
    let signature ← ifNext .openParen functionSignature
    return .ofSlots .functionTypeDescriptor [some qualifiers, some keyword, signature]

/-- Keywords that can stand before `object` and `function`. -/
def typeQualifiers : List Kind :=
  [.isolatedKeyword, .clientKeyword, .transactionalKeyword]

/-- Qualifiers and an object or function type. -/
def qualifiedType : ParseM Node := do
  let qualifiers ← many typeQualifiers.contains consumeNode
  if ← isNext .functionKeyword then
    functionTypeAfter (Qualifiers.check [.isolatedKeyword, .transactionalKeyword] qualifiers)
  else
    objectTypeAfter
      (Qualifiers.check [.isolatedKeyword, .clientKeyword, .serviceKeyword] qualifiers)

/-! ## All together -/

/-- A primary type; `kind` is what the next token is taken for. -/
def primaryTypeAs (kind : Kind) (context : Context) : ParseM Node := do
  if kind.isParameterizedTypeKeyword then parameterizedType
  else if kind.isSimpleTypeKeyword then
    return .of .builtinSimpleTypeDescriptor [← consumeNode]
  else if kind.isLiteral || kind == .minus then singletonType
  else
    match kind with
    | .streamKeyword => streamType
    | .recordKeyword => recordType
    | .objectKeyword | .functionKeyword | .isolatedKeyword | .clientKeyword => qualifiedType
    | .distinctKeyword =>
      let keyword ← consumeNode
      return .of .distinctTypeDescriptor [keyword, ← primaryType context]
    | .identifier => typeReference
    | .openParen => parenthesisedType
    | .openBracket => tupleTypeAfter (← consumeNode) []
    | _ =>
      recoverAs (.primaryType context) (.typeDescriptor context) fun token =>
        pure (simpleName token)

/-- Misplaced annotations in front of what follows them. -/
def rejectAnnotations (node : Node) : Option Node → Node
  | some annotations => node.withLeadingInvalid annotations .annotationsNotAllowed
  | none => node

/-- The end of a field of a record type behind its metadata, `readonly`, type and name. -/
def recordFieldAfter (metadata isReadonly : Option Node) (type name : Node) : ParseM Node := do
  if ← isNext .equal then
    let equal ← consumeNode
    let value ← value
    let semicolon ← expect .semicolon .recordField
    return .ofSlots .recordFieldWithDefault
      [metadata, isReadonly, some type, some name, some equal, some value, some semicolon]
  else
    let question ← optional .questionMark
    let semicolon ← expect .semicolon .recordField
    return .ofSlots .recordField
      [metadata, isReadonly, some type, some name, question, some semicolon]

/-- A field of a record type behind its metadata; `kind` is what the next token is taken for. The
type of all other fields keeps neither metadata nor `readonly`. -/
def recordFieldAs (kind : Kind) (metadata : Option Node) : ParseM Node := do
  if kind == .asterisk then return rejectAnnotations (← typeInclusion .recordField) metadata
  else if Starts.type kind then
    within .recordField do
      let isReadonly ← if ← qualifiesReadonly then some <$> consumeNode else pure none
      let type ← typeDescriptor .recordField
      if ← isNext .ellipsis then
        let ellipsis ← consumeNode
        let semicolon ← expect .semicolon .recordField
        return .of .recordRestDescriptor [type, ellipsis, semicolon]
      else
        let name ← expect .identifier .recordField
        recordFieldAfter metadata isReadonly type name
  else recoverOver (.recordField metadata)

end ParseM

end TolerantSyntax
