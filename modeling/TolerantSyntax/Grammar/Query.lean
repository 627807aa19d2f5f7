import TolerantSyntax.Grammar.Action

/-!
# Queries

A query is a pipeline of clauses and an end: `select` makes it an expression, `do` an action.
-/

namespace TolerantSyntax.ParseM

/-- An expression within a clause. -/
def clauseValue : ParseM Node :=
  expression .query .rhs

/-! ## Clauses -/

/-- `from type pattern in source`. -/
def fromClause : ParseM Node :=
  within .fromClause do
    let keyword ← expect .fromKeyword .fromClause
    let binding ← typedBinding
    let inKeyword ← expect .inKeyword .fromClause
    let source ← clauseValue
    return .of .fromClause [keyword, binding, inKeyword, source]

/-- `where condition`. -/
def whereClause : ParseM Node :=
  within .whereClause do
    let keyword ← consumeNode
    return .of .whereClause [keyword, ← clauseValue]

/-- `type pattern = value` with its annotations. -/
def letVariable : ParseM Node :=
  within .letVariableDeclaration do
    let annotations ← metadata
    let binding ← typedBinding
    let equal ← expect .equal .letVariableDeclaration
    let initial ← expression .anonFuncOrLet .rhs
    return .ofSlots .letVariableDeclaration [annotations, some binding, some equal, some initial]

/-- `let` and its declarations. -/
def letClause : ParseM Node :=
  within .letClause do
    let keyword ← consumeNode
    let declarations ← separated .comma letVariable
    return .of .letClause [keyword, .list declarations]

/-- `on lhs equals rhs`. -/
def onClause : ParseM Node :=
  within .onClause do
    let keyword ← expect .onKeyword .onClause
    let lhs ← clauseValue
    let equals ← expect .equalsKeyword .onClause
    let rhs ← clauseValue
    return .of .onClause [keyword, lhs, equals, rhs]

/-- `outer join type pattern in source on ...`, `outer` being optional. -/
def joinClause : ParseM Node :=
  within .joinClause do
    let outer ← optional .outerKeyword
    let join ← expect .joinKeyword .joinClause
    let binding ← typedBinding
    let inKeyword ← expect .inKeyword .joinClause
    let source ← clauseValue
    let on ← onClause
    return .ofSlots .joinClause
      [outer, some join, some binding, some inKeyword, some source, some on]

/-- A key to order by, with or without a direction. -/
def orderKey : ParseM Node := do
  let key ← clauseValue
  let kind ← nextKind
  let direction ←
    if kind == .ascendingKeyword || kind == .descendingKeyword then some <$> consumeNode
    else pure none
  return .ofSlots .orderKey [some key, direction]

/-- `order by` and its keys. -/
def orderByClause : ParseM Node :=
  within .orderByClause do
    let order ← consumeNode
    let byKeyword ← expect .byKeyword .orderByClause
    let keys ← separated .comma orderKey
    return .of .orderByClause [order, byKeyword, .list keys]

/-- `limit count`. -/
def limitClause : ParseM Node :=
  within .limitClause do
    let keyword ← consumeNode
    return .of .limitClause [keyword, ← clauseValue]

/-- A clause in the middle of a query. -/
def intermediateClause : ParseM Node := do
  match ← nextKind with
  | .whereKeyword => whereClause
  | .letKeyword => letClause
  | .joinKeyword | .outerKeyword => joinClause
  | .orderKeyword => orderByClause
  | .limitKeyword => limitClause
  | _ => fromClause

/-! ## Pipelines -/

/-- The pipeline of a first clause and those that follow it. -/
def queryPipeline (first : Option Node) (clauses : List Node) : Node :=
  .ofSlots .queryPipeline [first, some (.list clauses)]

/-- A pipeline with one more clause. -/
def appendClause (pipeline clause : Node) : Node :=
  queryPipeline (pipeline.slot? 0) (((pipeline.slot? 1).map Node.children).getD [] ++ [clause])

/-- What is selected, behind the keyword. -/
def selectAfter (pipeline keyword : Node) : ParseM Node := do
  let select := .of .selectClause [keyword, ← clauseValue]
  return .of .queryExpression [pipeline, select]

/-- `do` and a block behind a pipeline. -/
def queryActionAfter (pipeline : Node) (flags : ExpressionFlags) : ParseM Node :=
  within .queryAction do
    let keyword ← consumeNode
    let body ← block
    return checkAction (.of .queryAction [pipeline, keyword, body]) flags

/-- The end of a query; `kind` is what the next token is taken for. Clauses that come here are
appended to the pipeline. -/
def queryEndAs (kind : Kind) (pipeline : Node) (flags : ExpressionFlags) : ParseM Node := do
  if kind == .selectKeyword then selectAfter pipeline (← consumeNode)
  else if kind == .doKeyword then queryActionAfter pipeline flags
  else if Starts.intermediateClause kind then
    let clause ← intermediateClause
    resume (.queryEnd (appendClause pipeline clause) flags)
  else
    let request := .queryEnd pipeline flags
    recoverAs (.request request) request (selectAfter pipeline)

/-- `from ... select ...` or `from ... do ...`. -/
def query (flags : ExpressionFlags) : ParseM Node :=
  within .queryExpression do
    let first ← fromClause
    let clauses ← many Starts.intermediateClause intermediateClause
    resume (.queryEnd (queryPipeline (some first) clauses) flags)

end TolerantSyntax.ParseM
