import TolerantSyntax.Grammar.Member
import TolerantSyntax.Grammar.Variable

/-!
# Declarations of a module

Imports, and the declarations that begin with a keyword. Metadata and qualifiers come before the
keyword, so each declaration gets them as they were read and says which qualifiers it allows.
-/

namespace TolerantSyntax

namespace Qualifiers

/-- Qualifiers that a function may have. -/
def ofFunction : List Kind :=
  [.publicKeyword, .isolatedKeyword, .transactionalKeyword]

/-- Qualifiers that a variable of a module may have. -/
def ofVariable : List Kind :=
  [.publicKeyword, .finalKeyword, .configurableKeyword, .isolatedKeyword]

/-- Qualifiers that a class may have. -/
def ofClass : List Kind :=
  [.publicKeyword, .isolatedKeyword, .readonlyKeyword, .distinctKeyword, .clientKeyword,
   .serviceKeyword]

/-- Qualifiers that a service may have. -/
def ofService : List Kind :=
  [.isolatedKeyword]

/-- The qualifier that any other declaration may have. -/
def publicOnly : List Kind :=
  [.publicKeyword]

end Qualifiers

namespace ParseM

/-! ## Imports -/

/-- `organisation /`, if it comes next. -/
def importOrganisation : ParseM (Option Node) := do
  if (← isNext .identifier) && (← isSecond .slash) then
    let name ← consumeNode
    return some (.of .importOrgName [name, ← consumeNode])
  else return none

/-- `as name`. -/
def importAlias : ParseM Node := do
  let keyword ← consumeNode
  return .of .importPrefix [keyword, ← expect .identifier .importPrefix]

/-- `import organisation/module as name;`. Between the keyword and the semicolon, words are names
even where they are keywords elsewhere. -/
def importDeclaration : ParseM Node :=
  within .importDeclaration do
    let keyword ← expect .importKeyword .importDeclaration
    let (organisation, names, importedAs) ←
      withMode .importPath do
        let organisation ← importOrganisation
        let names ← separated .dot (expect .identifier .importModuleName)
        return (organisation, names, ← ifNext .asKeyword importAlias)
    let semicolon ← expect .semicolon .importDeclaration
    return .ofSlots .importDeclaration
      [some keyword, organisation, some (.list names), importedAs, some semicolon]

/-! ## Functions, constants and types -/

/-- `function name` with its signature and body. -/
def functionAfter (metadata : Option Node) (qualifiers : List Node) : ParseM Node :=
  within .functionDefinition do
    let checked := Qualifiers.check Qualifiers.ofFunction qualifiers
    let keyword ← consumeNode
    let name ← expect .identifier .functionDefinition
    let signature ← functionSignature
    let body ← functionBody
    return .ofSlots .functionDefinition
      [metadata, some checked, some keyword, some name, some signature, some body]

/-- Does a name come next with `=` behind it? -/
def isNameEqual : ParseM Bool := do
  return (← isNext .identifier) && (← isSecond .equal)

/-- `const type name = value;`, the type being optional. -/
def constantAfter (metadata : Option Node) (qualifiers : List Node) : ParseM Node :=
  within .constantDeclaration do
    let checked := Qualifiers.check Qualifiers.publicOnly qualifiers
    let keyword ← consumeNode
    let isTyped ← pure (!(← isNameEqual) && Starts.type (← nextKind))
    let type ← if isTyped then some <$> typeDescriptor .constantDeclaration else pure none
    let name ← expect .identifier .constantDeclaration
    let equal ← expect .equal .constantDeclaration
    let value ← value
    let semicolon ← expect .semicolon .constantDeclaration
    return .ofSlots .constantDeclaration
      [metadata, some checked, some keyword, type, some name, some equal, some value,
        some semicolon]

/-- `type name type;`. -/
def typeDefinitionAfter (metadata : Option Node) (qualifiers : List Node) : ParseM Node :=
  within .typeDefinition do
    let checked := Qualifiers.check Qualifiers.publicOnly qualifiers
    let keyword ← consumeNode
    let name ← expect .identifier .typeDefinition
    let type ← typeDescriptor .typeDefinition
    let semicolon ← expect .semicolon .typeDefinition
    return .ofSlots .typeDefinition
      [metadata, some checked, some keyword, some name, some type, some semicolon]

/-- `class name { members }`. -/
def classAfter (metadata : Option Node) (qualifiers : List Node) : ParseM Node :=
  within .classDefinition do
    let checked := Qualifiers.check Qualifiers.ofClass qualifiers
    let keyword ← consumeNode
    let name ← expect .identifier .classDefinition
    let opening ← expect .openBrace .classDefinition
    let members ← classMembers
    let close ← expect .closeBrace .classDefinition
    return .ofSlots .classDefinition
      [metadata, some checked, some keyword, some name, some opening, some members, some close]

/-! ## Enumerations -/

/-- `name` or `name = value` in an enumeration. -/
def enumMember : ParseM Node :=
  within .enumMember do
    let metadata ← metadata
    let name ← expect .identifier .enumMember
    let (equal, value) ← fieldValue
    return .ofSlots .enumMember [metadata, some name, equal, value]

/-- `enum name { members }`. -/
def enumAfter (metadata : Option Node) (qualifiers : List Node) : ParseM Node :=
  within .enumDeclaration do
    let checked := Qualifiers.check Qualifiers.publicOnly qualifiers
    let keyword ← consumeNode
    let name ← expect .identifier .enumDeclaration
    let opening ← expect .openBrace .enumDeclaration
    let (members, close) ← delimited .enumDeclaration .closeBrace .identifier enumMember
    return .ofSlots .enumDeclaration
      [metadata, some checked, some keyword, some name, some opening, some members, some close]

/-! ## Annotations -/

/-- `source` and the words for what an annotation can be attached to. -/
def attachPoint : ParseM Node := do
  let source ← optional .sourceKeyword
  let words ← many (fun kind => kind == .identifier || kind.isKeywordToken) consumeNode
  let words ←
    if words.isEmpty then pure [← expect .identifier .annotationAttachPoints] else pure words
  return .ofSlots .annotationAttachPoint [source, some (.list words)]

/-- `on` and what an annotation can be attached to, if that comes next. -/
def attachPoints : ParseM (Option Node × Option Node) := do
  if ← isNext .onKeyword then
    let keyword ← consumeNode
    let points ← within .annotationAttachPoints (separated .comma attachPoint)
    return (some keyword, some (.list points))
  else return (none, none)

/-- `annotation type name on points;`, the type and the points being optional. -/
def annotationAfter (metadata : Option Node) (qualifiers : List Node) : ParseM Node :=
  within .annotationDeclaration do
    let checked := Qualifiers.check Qualifiers.publicOnly qualifiers
    let keyword ← consumeNode
    let second ← kindAt 1
    let isUntyped ←
      pure ((← isNext .identifier) && (second == .semicolon || second == .onKeyword))
    let type ← if isUntyped then pure none else some <$> typeDescriptor .annotationDeclaration
    let name ← expect .identifier .annotationDeclaration
    let (onKeyword, points) ← attachPoints
    let semicolon ← expect .semicolon .annotationDeclaration
    return .ofSlots .annotationDeclaration
      [metadata, some checked, some keyword, type, some name, onKeyword, points, some semicolon]

/-! ## Listeners and services -/

/-- `listener type name = value;`, the type being optional. -/
def listenerAfter (metadata : Option Node) (qualifiers : List Node) : ParseM Node :=
  within .listenerDeclaration do
    let checked := Qualifiers.check Qualifiers.publicOnly qualifiers
    let keyword ← consumeNode
    let type ←
      if ← isNameEqual then pure none else some <$> typeDescriptor .listenerDeclaration
    let name ← expect .identifier .listenerDeclaration
    let equal ← expect .equal .listenerDeclaration
    let value ← value
    let semicolon ← expect .semicolon .listenerDeclaration
    return .ofSlots .listenerDeclaration
      [metadata, some checked, some keyword, type, some name, some equal, some value,
        some semicolon]

/-- `/` with or without a name behind it, as often as it comes next. -/
def serviceSegments : ParseM (List Node) :=
  loop [] fun segments => do
    if ← isNext .slash then
      let slash ← consumeNode
      let name ← optional .identifier
      return .inl (segments ++ slash :: name.toList)
    else return .inr segments

/-- The path of a service, or a string in place of it. -/
def servicePath : ParseM (Option Node) := do
  match ← nextKind with
  | .stringLiteral => return some (.list [← consumeNode])
  | .slash => within .servicePath do return some (.list (← serviceSegments))
  | _ => return none

/-- The type of a service, unless its path comes next. -/
def serviceType : ParseM (Option Node) := do
  let kind ← nextKind
  if kind != .stringLiteral && Starts.type kind then some <$> typeDescriptor .serviceDeclaration
  else pure none

/-- `service type path on listeners { members }`, the type and the path being optional. -/
def serviceAfter (metadata : Option Node) (qualifiers : List Node) : ParseM Node :=
  within .serviceDeclaration do
    let checked := Qualifiers.check Qualifiers.ofService qualifiers
    let keyword ← consumeNode
    let type ← serviceType
    let path ← servicePath
    let onKeyword ← expect .onKeyword .serviceDeclaration
    let listeners ← separated .comma value
    let opening ← expect .openBrace .serviceDeclaration
    let members ← classMembers
    let close ← expect .closeBrace .serviceDeclaration
    return .ofSlots .serviceDeclaration
      [metadata, some checked, some keyword, type, path, some onKeyword, some (.list listeners),
        some opening, some members, some close]

/-! ## Members of a module -/

/-- Keywords that qualify any declaration. -/
def moduleQualifiers : List Kind :=
  [.publicKeyword, .isolatedKeyword, .transactionalKeyword, .finalKeyword, .configurableKeyword,
   .privateKeyword, .remoteKeyword, .resourceKeyword]

/-- Does a qualifier of a declaration come next? Keywords that qualify only classes do so only if
`class` follows. -/
def qualifiesDeclaration : ParseM Bool := do
  let kind ← nextKind
  if moduleQualifiers.contains kind then return true
  else if Lookahead.classQualifiers.contains kind then
    return Lookahead.qualifiesClass (← upcoming)
  else return false

/-- A declaration with its metadata and qualifiers. -/
def moduleMember : ParseM Node :=
  within .moduleMember do
    let metadata ← metadata
    let qualifiers ← consumeWhile qualifiesDeclaration
    resume (.moduleMember metadata qualifiers)

/-- The declaration that a keyword begins. -/
def keywordDeclaration? : Kind → Option (Option Node → List Node → ParseM Node)
  | .constKeyword => some constantAfter
  | .typeKeyword => some typeDefinitionAfter
  | .classKeyword => some classAfter
  | .enumKeyword => some enumAfter
  | .annotationKeyword => some annotationAfter
  | .listenerKeyword => some listenerAfter
  | .serviceKeyword => some serviceAfter
  | _ => none

/-- An import behind a declaration, where it is misplaced. It takes neither metadata nor
qualifiers. -/
def lateImport (metadata : Option Node) (qualifiers : List Node) : ParseM Node := do
  let late := (← importDeclaration).withDiagnostic .importAfterDeclaration
  return rejectAnnotations (Qualifiers.reject late qualifiers) metadata

/-- A variable of a module behind its metadata and qualifiers. -/
def moduleVariable (metadata : Option Node) (qualifiers : List Node) : ParseM Node :=
  within .moduleVariableDeclaration do
    let checked := (Qualifiers.check Qualifiers.ofVariable qualifiers).children
    let binding ← typedBinding
    resume (.variableRhs metadata checked binding true)

/-- A declaration behind its metadata and qualifiers; `kind` is what the next token is taken for. -/
def moduleMemberAs (kind : Kind) (metadata : Option Node) (qualifiers : List Node) :
    ParseM Node := do
  if kind == .functionKeyword && (← isSecond .identifier) then functionAfter metadata qualifiers
  else if kind == .importKeyword then lateImport metadata qualifiers
  else
    match keywordDeclaration? kind with
    | some declaration => declaration metadata qualifiers
    | none =>
      if Starts.type kind then moduleVariable metadata qualifiers
      else recoverOver (.moduleMember metadata qualifiers)

end ParseM

end TolerantSyntax
