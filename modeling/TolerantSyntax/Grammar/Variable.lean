import TolerantSyntax.Grammar.Enter

/-!
# Variable declarations

The end of a variable declaration: its initial value, if it has one, and the semicolon. Variables of
a module and variables of a block end alike; they differ in the qualifiers that they keep.
-/

namespace TolerantSyntax.ParseM

/-- A declaration behind its type and name. A variable of a module has a list of qualifiers; one of
a block has only `final`, or nothing. -/
def variableOf (moduleLevel : Bool) (metadata : Option Node) (qualifiers : List Node)
    (binding : Node) (equal initial : Option Node) (semicolon : Node) : Node :=
  if moduleLevel then
    .ofSlots .moduleVariableDeclaration
      [metadata, some (.list qualifiers), some binding, equal, initial, some semicolon]
  else
    .ofSlots .localVariableDeclaration
      [metadata, qualifiers.head?, some binding, equal, initial, some semicolon]

/-- The initial value of a variable. A variable of a module may have `?` for a value that has to be
given from outside. -/
def initialValue (moduleLevel : Bool) : ParseM Node := do
  if moduleLevel && (← isNext .questionMark) then
    return .of .requiredExpression [← consumeNode]
  else valueOrAction

/-- The initial value or the end of a variable declaration; `kind` is what the next token is taken
for. -/
def variableRhsAs (kind : Kind) (metadata : Option Node) (qualifiers : List Node) (binding : Node)
    (moduleLevel : Bool) : ParseM Node := do
  let finish := variableOf moduleLevel metadata qualifiers binding
  let context :=
    if moduleLevel then Context.moduleVariableDeclaration else Context.localVariableDeclaration
  match kind with
  | .equal =>
    let equal ← consumeNode
    let initial ← initialValue moduleLevel
    return finish (some equal) (some initial) (← expect .semicolon context)
  | .semicolon => return finish none none (← consumeNode)
  | _ =>
    let request := .variableRhs metadata qualifiers binding moduleLevel
    recoverAs (.request request) request fun semicolon => pure (finish none none semicolon)

/-- A variable of a block with its type, behind its annotations and qualifiers. -/
def localVariable (annotations : Option Node) (qualifiers : List Node) : ParseM Node := do
  let binding ← typedBinding
  resume (.variableRhs annotations qualifiers binding false)

end TolerantSyntax.ParseM
