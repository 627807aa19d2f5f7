import TolerantSyntax.Grammar.Type

/-!
# Parameters and bodies

What functions of all sorts are made of: their parameters and their bodies.
-/

namespace TolerantSyntax.ParseM

/-! ## Parameters -/

/-- A parameter behind its annotations and its type. -/
def parameterAfter (annotations : Option Node) (type : Node) : ParseM Node := do
  if ← isNext .ellipsis then
    let ellipsis ← consumeNode
    let name ← optional .identifier
    return .ofSlots .restParameter [annotations, some type, some ellipsis, name]
  else
    let name ← optional .identifier
    if name.isSome && (← isNext .equal) then
      replaceContext .defaultableParameter
      let equal ← consumeNode
      let value ← value
      return .ofSlots .defaultableParameter [annotations, some type, name, some equal, some value]
    else return .ofSlots .requiredParameter [annotations, some type, name]

/-- A parameter behind its annotations; `kind` is what the next token is taken for. In the type of a
function the name may be left out. -/
def parameterAs (kind : Kind) (annotations : Option Node) : ParseM Node := do
  if Starts.type kind then
    within .parameter do
      parameterAfter annotations (← typeDescriptor .parameter)
  else recoverOver (.parameter annotations)

/-! ## Bodies -/

/-- `=> expression ;`. -/
def expressionBody : ParseM Node :=
  within .expressionFunctionBody do
    let arrow ← consumeNode
    let result ← value
    let semicolon ← expect .semicolon .expressionFunctionBody
    return .of .expressionFunctionBody [arrow, result, semicolon]

/-- `= external ;`. -/
def externalBody : ParseM Node :=
  within .externalFunctionBody do
    let equal ← consumeNode
    let annotations ← metadata
    let external ← expect .externalKeyword .externalFunctionBody
    let semicolon ← expect .semicolon .externalFunctionBody
    return .ofSlots .externalFunctionBody [some equal, annotations, some external, some semicolon]

/-- The body of a function; `kind` is what the next token is taken for. -/
def functionBodyAs (kind : Kind) : ParseM Node := do
  match kind with
  | .openBrace => functionBlock
  | .rightDoubleArrow => expressionBody
  | .equal => externalBody
  | _ =>
    recoverAs (.request .functionBody) .functionBody fun opening =>
      within .functionBodyBlock (functionBlockAfter opening)

/-- The body of a function. -/
def functionBody : ParseM Node :=
  resume .functionBody

/-! ## Qualifiers -/

/-- Keywords that can qualify a function without a name, and a worker. -/
def functionQualifiers : List Kind :=
  [.isolatedKeyword, .transactionalKeyword]

/-- Those keywords, as many as come next, checked for repetition. -/
def checkedFunctionQualifiers : ParseM Node := do
  return Qualifiers.check functionQualifiers (← many functionQualifiers.contains consumeNode)

end TolerantSyntax.ParseM
