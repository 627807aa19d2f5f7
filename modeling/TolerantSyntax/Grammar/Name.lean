import TolerantSyntax.Grammar.Lists

/-!
# Names and literals

The leaves of the grammar: names, with or without the module they come from, and literals.
-/

namespace TolerantSyntax.ParseM

/-! ## Names -/

/-- A name on its own, given its token. -/
def simpleName (name : Node) : Node :=
  .of .simpleNameReference [name]

/-- A name with the module it comes from. -/
def qualifiedName (module colon name : Node) : Node :=
  .of .qualifiedNameReference [module, colon, name]

/-- Does a colon with a name behind it come next? -/
def isColonName : ParseM Bool := do
  return (← isNext .colon) && (← isSecond .identifier)

/-- Does the colon that comes next go on a name? In the middle of a conditional it does so only if
another colon follows the name. -/
def isQualifierColon (inConditional : Bool) : ParseM Bool := do
  if ← isColonName then
    if inConditional then return (← kindAt 2) == .colon else return true
  else return false

/-- `name` or `module:name` in an expression. -/
def nameReference (inConditional : Bool) : ParseM Node := do
  let name ← expect .identifier .expression
  if ← isQualifierColon inConditional then
    let colon ← consumeNode
    return qualifiedName name colon (← expect .identifier .expression)
  else return simpleName name

/-- `name` or `module:name` in a type. -/
def typeReference : ParseM Node := do
  let name ← expect .identifier .typeDescriptor
  if ← isColonName then
    let colon ← consumeNode
    return qualifiedName name colon (← consumeNode)
  else return simpleName name

/-- A type keyword used as a module, as in `int:max`; the keyword stays a keyword. -/
def keywordModuleReference : ParseM Node := do
  let module ← consumeNode
  let colon ← expect .colon .expression
  return qualifiedName module colon (← expect .identifier .expression)

/-! ## Literals -/

/-- The next token as a literal. -/
def basicLiteral : ParseM Node := do
  return .of .basicLiteral [← consumeNode]

/-- A number. -/
def numericLiteral : ParseM Node := do
  if (← nextKind).isNumericLiteral then basicLiteral
  else return .of .basicLiteral [← expect .decimalIntegerLiteral .typeDescriptor]

/-- A minus sign and a number. -/
def negativeLiteral : ParseM Node := do
  let minus ← consumeNode
  return .of .unaryExpression [minus, ← numericLiteral]

end TolerantSyntax.ParseM
