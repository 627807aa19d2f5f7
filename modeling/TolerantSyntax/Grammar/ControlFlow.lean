import TolerantSyntax.Grammar.Function

/-!
# Control flow

Statements that begin with a keyword: conditionals, loops, matches, transactions, workers, and
jumps. Most of those with a block may have an `on fail` clause behind it.
-/

namespace TolerantSyntax.ParseM

/-! ## Conditionals -/

/-- What follows `else`. -/
def elseBody : ParseM Node :=
  resume .elseBody

/-- `else` and its body. -/
def elseBlock : ParseM Node :=
  within .elseBlock do
    let keyword ← consumeNode
    return .of .elseBlock [keyword, ← elseBody]

/-- `if condition { ... }`, with or without `else`. -/
def ifStatement : ParseM Node :=
  within .ifBlock do
    let keyword ← consumeNode
    let condition ← value
    let body ← block
    let otherwise ← ifNext .elseKeyword elseBlock
    return .ofSlots .ifElseStatement [some keyword, some condition, some body, otherwise]

/-- What follows `else`; `kind` is what the next token is taken for. -/
def elseBodyAs (kind : Kind) : ParseM Node := do
  match kind with
  | .ifKeyword => ifStatement
  | .openBrace => block
  | _ => recoverOver .elseBody

/-! ## Blocks that may fail -/

/-- `on fail binding { ... }`, the binding being optional. -/
def onFailAfter : ParseM Node :=
  within .onFailClause do
    let onKeyword ← consumeNode
    let fail ← consumeNode
    let binding ← if ← isNext .openBrace then pure none else some <$> typedBinding
    let body ← block
    return .ofSlots .onFailClause [some onKeyword, some fail, binding, some body]

/-- An `on fail` clause, if one comes next. -/
def onFail : ParseM (Option Node) := do
  if (← isNext .onKeyword) && (← isSecond .failKeyword) then some <$> onFailAfter else pure none

/-- A keyword with a block, and `on fail`. -/
def guardedBlock (kind : Kind) (context : Context) : ParseM Node :=
  within context do
    let keyword ← consumeNode
    let body ← block
    return .ofSlots kind [some keyword, some body, ← onFail]

/-- `transaction { ... }`. -/
def transaction : ParseM Node :=
  guardedBlock .transactionStatement .transactionStatement

/-- `retry<manager>(arguments)` with a block or a transaction. -/
def retryStatement : ParseM Node :=
  within .retryStatement do
    let keyword ← consumeNode
    let manager ← ifNext .lt typeParameter
    let arguments ← ifNext .openParen argumentList
    let body ← if ← isNext .transactionKeyword then transaction else block
    return .ofSlots .retryStatement [some keyword, manager, arguments, some body, ← onFail]

/-! ## Loops and matches -/

/-- `while condition { ... }`. -/
def whileStatement : ParseM Node :=
  within .whileBlock do
    let keyword ← consumeNode
    let condition ← value
    let body ← block
    return .ofSlots .whileStatement [some keyword, some condition, some body, ← onFail]

/-- `foreach binding in iterable { ... }`. -/
def foreachStatement : ParseM Node :=
  within .foreachStatement do
    let keyword ← consumeNode
    let binding ← typedBinding
    let inKeyword ← expect .inKeyword .foreachStatement
    let iterable ← value
    let body ← block
    return .ofSlots .foreachStatement
      [some keyword, some binding, some inKeyword, some iterable, some body, ← onFail]

/-- `if condition` in a clause of a match. -/
def matchGuard : ParseM Node :=
  within .matchGuard do
    let keyword ← consumeNode
    return .of .matchGuard [keyword, ← expression .default ExpressionFlags.rhs.withMatchGuard]

/-- `pattern | pattern if guard => { ... }`. -/
def matchClause : ParseM Node :=
  within .matchClause do
    let patterns ← separated .pipe matchPattern
    let guard ← ifNext .ifKeyword matchGuard
    let arrow ← expect .rightDoubleArrow .matchClause
    let body ← block
    return .ofSlots .matchClause [some (.list patterns), guard, some arrow, some body]

/-- `{ clauses }`, as opening, clauses and closing. -/
def matchBody : ParseM (Node × Node × Node) :=
  within .matchBody do
    let opening ← expect .openBrace .matchBody
    let clauses ← manyUntil (· == .closeBrace) matchClause
    return (opening, clauses, ← expect .closeBrace .matchBody)

/-- `match subject { clauses }`. -/
def matchStatement : ParseM Node :=
  within .matchStatement do
    let keyword ← consumeNode
    let subject ← value
    let (opening, clauses, close) ← matchBody
    return .ofSlots .matchStatement
      [some keyword, some subject, some opening, some clauses, some close, ← onFail]

/-! ## Jumps -/

/-- A keyword with a value, which may be left out unless it is required. -/
def valueStatement (kind : Kind) (context : Context) (required : Bool) : ParseM Node :=
  within context do
    let keyword ← consumeNode
    let value ←
      if !required && (← isNext .semicolon) then pure none else some <$> valueOrAction
    let semicolon ← expect .semicolon context
    return .ofSlots kind [some keyword, value, some semicolon]

/-- A keyword alone. -/
def keywordStatement (kind : Kind) (context : Context) : ParseM Node :=
  within context do
    let keyword ← consumeNode
    return .of kind [keyword, ← expect .semicolon context]

/-! ## Workers -/

/-- `worker name returns type { ... }` with its qualifiers, behind its annotations. -/
def workerAfter (annotations : Option Node) : ParseM Node :=
  within .namedWorkerDeclaration do
    let qualifiers ← checkedFunctionQualifiers
    let keyword ← expect .workerKeyword .namedWorkerDeclaration
    let name ← expect .identifier .namedWorkerDeclaration
    let result ← ifNext .returnsKeyword returnType
    let body ← block
    return .ofSlots .namedWorkerDeclaration
      [annotations, some qualifiers, some keyword, some name, result, some body]

/-- A worker with its annotations. -/
def worker : ParseM Node := do
  workerAfter (← metadata)

/-- `fork { workers }`. -/
def forkStatement : ParseM Node :=
  within .forkStatement do
    let keyword ← consumeNode
    let opening ← expect .openBrace .forkStatement
    let workers ← manyUntil (· == .closeBrace) worker
    let close ← expect .closeBrace .forkStatement
    return .of .forkStatement [keyword, opening, workers, close]

end TolerantSyntax.ParseM
