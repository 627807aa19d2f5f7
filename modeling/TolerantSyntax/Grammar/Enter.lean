import TolerantSyntax.Grammar.Name
import TolerantSyntax.Grammar.Order

/-!
# Entering rules

The rules that other rules refer to by name. Each of them runs through the environment, so modules
of the grammar can use them without depending on the module that defines the rule.
-/

namespace TolerantSyntax.ParseM

/-- An expression whose operators bind tighter than `floor`. -/
def expression (floor : Precedence) (flags : ExpressionFlags) : ParseM Node :=
  resume (.expression floor flags)

/-- A whole expression on the right of something, without actions. -/
def value : ParseM Node :=
  expression .default .rhs

/-- A whole expression on the right of something, or an action. -/
def valueOrAction : ParseM Node :=
  expression .default (ExpressionFlags.rhs.withActions true)

/-- A type in some position. -/
def typeDescriptor (context : Context) : ParseM Node :=
  resume (.typeDescriptor context)

/-- A binding pattern. -/
def bindingPattern : ParseM Node :=
  resume .bindingPattern

/-- A binding pattern behind its type. -/
def typedBindingAfter (type : Node) : ParseM Node := do
  return .of .typedBindingPattern [type, ← bindingPattern]

/-- A type and a binding pattern. -/
def typedBinding : ParseM Node :=
  within .typedBindingPattern do
    typedBindingAfter (← typeDescriptor .typedBindingPattern)

/-- A match pattern. -/
def matchPattern : ParseM Node :=
  resume .matchPattern

/-- A field of a mapping constructor. -/
def mappingField (context : Context) : ParseM Node :=
  resume (.mappingField context)

/-- `{ fields }` as an expression. -/
def mappingConstructor : ParseM Node := do
  let opening ← expect .openBrace .mappingConstructor
  let (fields, close) ←
    delimited .mappingConstructor .closeBrace .mappingField (mappingField .mappingConstructor)
  return .of .mappingConstructor [opening, fields, close]

/-! ## Annotations -/

/-- `@name` with or without a mapping. -/
def annotationEntry : ParseM Node := do
  let sign ← consumeNode
  let reference ← typeReference
  let mapping ← ifNext .openBrace mappingConstructor
  return .ofSlots .annotationNode [some sign, some reference, mapping]

/-- The annotations ahead, if there are any. -/
def metadata : ParseM (Option Node) := do
  if ← isNext .atSign then
    within .annotations do
      let entries ← many (· == .atSign) annotationEntry
      return some (.of .metadata [.list entries])
  else return none

/-! ## Arguments -/

/-- An argument of a call. -/
def argument : ParseM Node :=
  resume .argument

/-- `( arguments )`, as opening, list and closing. -/
def arguments : ParseM (Node × Node × Node) := do
  let opening ← expect .openParen .argumentList
  let (items, close) ← delimited .argumentList .closeParen .argument argument
  return (opening, ItemOrder.arguments.check items, close)

/-- `( arguments )` as one node. -/
def argumentList : ParseM Node := do
  let (opening, items, close) ← arguments
  return .of .parenthesizedArgList [opening, items, close]

/-! ## Statements and blocks -/

/-- A statement with its annotations. -/
def statement : ParseM Node := do
  let annotations ← metadata
  resume (.statement annotations)

/-- Statements up to a closing brace or a keyword that begins a declaration. -/
def statements : ParseM Node :=
  manyUntil (fun kind => kind == .closeBrace || Starts.moduleOnly kind) statement

/-- `{ statements }`. -/
def block : ParseM Node :=
  within .blockStatement do
    let opening ← expect .openBrace .blockStatement
    let body ← statements
    let close ← expect .closeBrace .blockStatement
    return .of .blockStatement [opening, body, close]

/-- The rest of the body of a function behind its opening brace. -/
def functionBlockAfter (opening : Node) : ParseM Node := do
  let body ← statements
  let close ← expect .closeBrace .functionBodyBlock
  return .of .functionBodyBlock [opening, body, close]

/-- `{ statements }` as the body of a function. -/
def functionBlock : ParseM Node :=
  within .functionBodyBlock do
    functionBlockAfter (← expect .openBrace .functionBodyBlock)

/-! ## Signatures -/

/-- A parameter with its annotations. -/
def parameter : ParseM Node := do
  let annotations ← metadata
  resume (.parameter annotations)

/-- `returns` and a type. -/
def returnType : ParseM Node :=
  within .returnTypeDescriptor do
    let keyword ← expect .returnsKeyword .returnTypeDescriptor
    let annotations ← metadata
    let type ← typeDescriptor .returnTypeDescriptor
    return .ofSlots .returnTypeDescriptor [some keyword, annotations, some type]

/-- `( parameters )` and what the function returns. -/
def functionSignature : ParseM Node :=
  within .functionSignature do
    let opening ← expect .openParen .functionSignature
    let (parameters, close) ← delimited .parameterList .closeParen .parameter parameter
    let result ← ifNext .returnsKeyword returnType
    return .ofSlots .functionSignature
      [some opening, some (ItemOrder.parameters.check parameters), some close, result]

end TolerantSyntax.ParseM
