import TolerantSyntax.Grammar.Assignment
import TolerantSyntax.Grammar.Bracketed.Resolve
import TolerantSyntax.Grammar.ControlFlow
import TolerantSyntax.Grammar.Variable

/-!
# Statements

What a statement is, is mostly said by its first token. A statement that begins with an identifier,
a parenthesis or a brace may be a declaration or not, which lookahead decides; one that begins with
a bracket is resolved member by member.
-/

namespace TolerantSyntax.ParseM

open Bracketed (Member patternOfTuple)

/-! ## Statements by their keyword -/

/-- The statement that a keyword begins, when it takes no annotations. -/
def keywordStatement? : Kind → Option (ParseM Node)
  | .ifKeyword => some ifStatement
  | .whileKeyword => some whileStatement
  | .foreachKeyword => some foreachStatement
  | .matchKeyword => some matchStatement
  | .doKeyword => some (guardedBlock .doStatement .doBlock)
  | .lockKeyword => some (guardedBlock .lockStatement .lockStatement)
  | .transactionKeyword => some transaction
  | .retryKeyword => some retryStatement
  | .forkKeyword => some forkStatement
  | .returnKeyword => some (valueStatement .returnStatement .returnStatement false)
  | .rollbackKeyword => some (valueStatement .rollbackStatement .rollbackStatement false)
  | .panicKeyword => some (valueStatement .panicStatement .panicStatement true)
  | .failKeyword => some (valueStatement .failStatement .failStatement true)
  | .breakKeyword => some (keywordStatement .breakStatement .breakStatement)
  | .continueKeyword => some (keywordStatement .continueStatement .continueStatement)
  | _ => none

/-! ## Declarations -/

/-- A variable without qualifiers. -/
def localDeclaration (annotations : Option Node) : ParseM Node :=
  within .localVariableDeclaration (localVariable annotations [])

/-- A variable behind `final`. -/
def finalDeclaration (annotations : Option Node) : ParseM Node :=
  within .localVariableDeclaration do
    localVariable annotations [← consumeNode]

/-- A variable behind the beginning of its type. -/
def localDeclarationAfter (annotations : Option Node) (type : Node) : ParseM Node :=
  within .localVariableDeclaration do
    let type ← typeAfter type (.ofContext .typedBindingPattern)
    let binding ← typedBindingAfter type
    resume (.variableRhs annotations [] binding false)

/-! ## Expressions and patterns -/

/-- A binding pattern with a value assigned to it. -/
def destructuring : ParseM Node := do
  statementRhs none (← bindingPattern)

/-- A mapping binding pattern with a value assigned to it, or a block. -/
def mappingOrBlock : ParseM Node := do
  if Lookahead.assignsAfterClose (← upcoming) then
    let pattern ← bindingPattern
    parseAs (.request (.statementRhs none pattern)) .equal
  else block

/-- A statement that begins with an expression. Annotations belong to `start` if it comes next. -/
def expressionStatement (annotations : Option Node) : ParseM Node := do
  let flags := ExpressionFlags.statementStart
  if annotations.isSome && (← isNext .startKeyword) then
    let action ← startActionAfter annotations flags
    statementRhs none (← operatorsAfter .default action flags)
  else
    let expression ← expression .default flags
    return rejectAnnotations (← statementRhs none expression) annotations

/-! ## Statements that begin with a bracket -/

/-- The rest of a statement behind a list constructor. -/
def statementAfterList (annotations : Option Node) (expression : Node) : ParseM Node := do
  let whole ← operatorsAfter .default expression .statementStart
  statementRhs annotations whole

/-- The rest of a statement behind a bracketed list in its grammar. -/
def statementAfterBracketed (annotations : Option Node) (grammar : Bracketed.Grammar)
    (node : Node) : ParseM Node := do
  match grammar with
  | .type => localDeclarationAfter annotations node
  | .pattern => statementRhs annotations node
  | .expression => statementAfterList annotations node

/-- A statement that begins with a bracketed list. A tuple type with `=` behind it was meant as a
binding pattern. -/
def bracketedStatement (annotations : Option Node) : ParseM Node := do
  match ← bracketed with
  | .decided .type type =>
    if ← isNext .equal then statementRhs annotations (patternOfTuple type)
    else localDeclarationAfter annotations type
  | .decided grammar node => statementAfterBracketed annotations grammar node
  | member =>
    let grammar ← grammarAhead
    statementAfterBracketed annotations grammar (member.toNode grammar)

/-! ## All together -/

/-- Does a declaration come next rather than an expression, if the next token is taken for
`kind`? -/
def declaresAs (kind : Kind) : ParseM Bool := do
  match kind with
  | .identifier => return Lookahead.declaresFromIdentifier (← upcoming)
  | .openParen => return Lookahead.declaresFromParen (← upcoming)
  | .clientKeyword => return true
  | .errorKeyword =>
    let second ← kindAt 1
    return second != .colon && second != .openParen
  | kind => return kind.isTypeKeyword && (← kindAt 1) != .colon

/-- Does a worker with qualifiers come next? -/
def isQualifiedWorker (kind : Kind) : ParseM Bool := do
  return functionQualifiers.contains kind && (← isSecond .workerKeyword)

/-- A statement behind its annotations that no keyword of its own begins. -/
def otherStatementAs (kind : Kind) (annotations : Option Node) : ParseM Node := do
  if kind == .workerKeyword || (← isQualifiedWorker kind) then workerAfter annotations
  else if ← declaresAs kind then localDeclaration annotations
  else if Starts.expression kind then expressionStatement annotations
  else recoverOver (.statement annotations)

/-- A statement behind its annotations; `kind` is what the next token is taken for. -/
def statementAs (kind : Kind) (annotations : Option Node) : ParseM Node := do
  match kind with
  | .finalKeyword => finalDeclaration annotations
  | .openBracket => bracketedStatement annotations
  | .openBrace => return rejectAnnotations (← mappingOrBlock) annotations
  | .underscore => return rejectAnnotations (← destructuring) annotations
  | .errorKeyword =>
    if Lookahead.destructuresError (← upcoming) then
      return rejectAnnotations (← destructuring) annotations
    else otherStatementAs kind annotations
  | kind =>
    match keywordStatement? kind with
    | some statement => return rejectAnnotations (← statement) annotations
    | none => otherStatementAs kind annotations

end TolerantSyntax.ParseM
