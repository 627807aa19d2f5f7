import TolerantSyntax.Grammar.Function

/-!
# Members of classes and object types

Fields, methods and inclusions. A method of a class has a body, one of an object type ends with a
semicolon. A resource method has an accessor and a path in place of a name.
-/

namespace TolerantSyntax

namespace Qualifiers

/-- Qualifiers that a field may have. -/
def ofField : List Kind :=
  [.publicKeyword, .privateKeyword, .finalKeyword, .readonlyKeyword]

/-- Qualifiers that a method may have. -/
def ofMethod : List Kind :=
  [.publicKeyword, .privateKeyword, .remoteKeyword, .resourceKeyword, .isolatedKeyword,
   .transactionalKeyword]

/-- Misplaced qualifiers in front of what follows them, in their order. -/
def reject (node : Node) (qualifiers : List Node) : Node :=
  qualifiers.foldr (fun qualifier node => node.withLeadingInvalid qualifier .qualifierNotAllowed)
    node

end Qualifiers

namespace ParseM

/-! ## Resource paths -/

/-- `[type name]` or `[type... name]`, the name being optional. -/
def pathParameter : ParseM Node := do
  let opening ← consumeNode
  let type ← restTypeAfter (← typeDescriptor .resourcePath)
  let name ← optional .identifier
  let close ← expect .closeBracket .resourcePath
  return .ofSlots .resourcePathParameter [some opening, some type, name, some close]

/-- A name or a parameter in a path. -/
def pathSegment : ParseM Node := do
  if ← isNext .openBracket then pathParameter else expect .identifier .resourcePath

/-- The segments of a path: `.`, nothing, or segments with slashes between them. -/
def pathSegments : ParseM (List Node) := do
  match ← nextKind with
  | .dot => return [← consumeNode]
  | .openParen => return []
  | _ => separated .slash pathSegment

/-- The accessor and the path of a resource method. -/
def resourcePath : ParseM Node :=
  within .resourcePath do
    let accessor ← expect .identifier .resourcePath
    return .of .resourcePath [accessor, .list (← pathSegments)]

/-! ## Members -/

/-- A method behind its metadata and qualifiers. -/
def methodAfter (metadata : Option Node) (qualifiers : List Node) (objectType : Bool) :
    ParseM Node :=
  within .functionDefinition do
    let isResource := qualifiers.any fun qualifier => qualifier.kind == .resourceKeyword
    let checked := Qualifiers.check Qualifiers.ofMethod qualifiers
    let keyword ← consumeNode
    let name ← if isResource then resourcePath else expect .identifier .functionDefinition
    let signature ← functionSignature
    let head := [metadata, some checked, some keyword, some name, some signature]
    if objectType then
      return .ofSlots .methodDeclaration (head ++ [some (← expect .semicolon .objectMember)])
    else return .ofSlots .functionDefinition (head ++ [some (← functionBody)])

/-- `= value`, if it comes next. -/
def fieldValue : ParseM (Option Node × Option Node) := do
  if ← isNext .equal then
    let equal ← consumeNode
    return (some equal, some (← value))
  else return (none, none)

/-- A field behind its metadata and qualifiers. -/
def objectFieldAfter (metadata : Option Node) (qualifiers : List Node) : ParseM Node :=
  within .objectField do
    let checked := Qualifiers.check Qualifiers.ofField qualifiers
    let type ← typeDescriptor .objectField
    let name ← expect .identifier .objectField
    let (equal, value) ← fieldValue
    let semicolon ← expect .semicolon .objectField
    return .ofSlots .objectField
      [metadata, some checked, some type, some name, equal, value, some semicolon]

/-- A member behind its metadata and qualifiers; `kind` is what the next token is taken for. An
inclusion takes neither. -/
def classMemberAs (kind : Kind) (metadata : Option Node) (qualifiers : List Node)
    (objectType : Bool) : ParseM Node := do
  if kind == .asterisk then
    let inclusion ← typeInclusion .classMember
    return rejectAnnotations (Qualifiers.reject inclusion qualifiers) metadata
  else if kind == .functionKeyword then methodAfter metadata qualifiers objectType
  else if Starts.type kind then objectFieldAfter metadata qualifiers
  else recoverOver (.classMember metadata qualifiers objectType)

/-- Members up to a closing brace. -/
def classMembers : ParseM Node :=
  manyUntil (· == .closeBrace) (classMember false)

end ParseM

end TolerantSyntax
