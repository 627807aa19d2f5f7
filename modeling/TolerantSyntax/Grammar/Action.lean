import TolerantSyntax.Grammar.Enter

/-!
# Actions

Actions stand wherever an expression can. Where the surroundings forbid them, the action is kept and
flagged.
-/

namespace TolerantSyntax.ParseM

/-- An action, flagged unless it is allowed. -/
def checkAction (action : Node) (flags : ExpressionFlags) : Node :=
  if flags.allowActions then action else action.withDiagnostic .actionNotAllowed

/-- The name of a worker, or `function` for that of the surrounding function. -/
def peerWorker (context : Context) : ParseM Node := do
  let name ← if ← isNext .functionKeyword then consumeNode else expect .identifier context
  return simpleName name

/-! ## Behind an operand -/

/-- `operand -> method(arguments)`. -/
def remoteCallAfter (target arrow : Node) : ParseM Node :=
  within .remoteCallAction do
    let name := simpleName (← consumeNode)
    let (opening, items, close) ← arguments
    return .of .remoteMethodCallAction [target, arrow, name, opening, items, close]

/-- `operand -> method(arguments)`, or `operand -> worker`. -/
def remoteCallOrSend (target : Node) (flags : ExpressionFlags) : ParseM Node := do
  let isCall ← pure ((← kindAt 1) == .identifier && (← kindAt 2) == .openParen)
  let arrow ← consumeNode
  let action ←
    if isCall then remoteCallAfter target arrow
    else pure (.of .asyncSendAction [target, arrow, ← peerWorker .sendAction])
  return checkAction action flags

/-- `operand ->> worker`. -/
def syncSend (message : Node) (flags : ExpressionFlags) : ParseM Node := do
  let arrow ← consumeNode
  let peer ← peerWorker .sendAction
  return checkAction (.of .syncSendAction [message, arrow, peer]) flags

/-! ## From their first token -/

/-- `<- worker`. -/
def receiveAction (flags : ExpressionFlags) : ParseM Node := do
  let arrow ← consumeNode
  let peer ← peerWorker .receiveAction
  return checkAction (.of .receiveAction [arrow, peer]) flags

/-- `start call` behind its annotations. -/
def startActionAfter (annotations : Option Node) (flags : ExpressionFlags) : ParseM Node :=
  within .startAction do
    let keyword ← expect .startKeyword .startAction
    let call ← expression .unary .rhs
    return checkAction (.ofSlots .startAction [annotations, some keyword, some call]) flags

/-- `start call` with its annotations. -/
def startAction (flags : ExpressionFlags) : ParseM Node := do
  startActionAfter (← metadata) flags

/-- `name` or `name: future`. -/
def waitField : ParseM Node := do
  let name := simpleName (← expect .identifier .waitFields)
  if ← isNext .colon then
    let colon ← consumeNode
    return .of .waitField [name, colon, ← value]
  else return .ofSlots .waitField [some name, none, none]

/-- `{ fields }` to wait for. -/
def waitFields : ParseM Node := do
  let opening ← consumeNode
  let (fields, close) ← delimited .waitFields .closeBrace .waitField waitField
  return .of .waitFieldsList [opening, fields, close]

/-- One future to wait for, or any of several with `|` between them. -/
def waitAlternates : ParseM Node := do
  match ← separated .pipe (expression .bitwiseOr .rhs) with
  | [future] => return future
  | futures => return .of .alternateWaitExpression [.list futures]

/-- `wait` and what to wait for. -/
def waitAction (flags : ExpressionFlags) : ParseM Node :=
  within .waitAction do
    let keyword ← consumeNode
    let futures ← if ← isNext .openBrace then waitFields else waitAlternates
    return checkAction (.of .waitAction [keyword, futures]) flags

/-- `flush`, with or without the name of a worker. -/
def flushAction (flags : ExpressionFlags) : ParseM Node := do
  let keyword ← consumeNode
  let kind ← nextKind
  let peer ←
    if kind == .identifier || kind == .functionKeyword then some <$> peerWorker .flushAction
    else pure none
  return checkAction (.ofSlots .flushAction [some keyword, peer]) flags

/-- `commit`. -/
def commitAction (flags : ExpressionFlags) : ParseM Node := do
  return checkAction (.of .commitAction [← consumeNode]) flags

end TolerantSyntax.ParseM
