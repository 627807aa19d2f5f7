import TolerantSyntax.Grammar.Operator
import TolerantSyntax.Grammar.Type

/-!
# Assignments and expression statements

A statement that begins with an expression or a binding pattern goes on with `=`, with the operator
of a compound assignment, or with a semicolon. Only calls and actions may stand alone; any other
expression is kept and flagged, as is what cannot be assigned to.
-/

namespace TolerantSyntax

/-! ## What an expression may be used for -/

namespace Node

/-- Is the node a call, or a checked one? A checked call is known by its operand; for all else the
kind decides. -/
def isCall : Node → Bool
  | .composite .checkExpression (_ :: some operand :: _) _ => operand.isCall
  | node => [.functionCall, .methodCall].contains node.kind

/-- Can the node stand to the left of `=`? -/
def isAssignable (node : Node) : Bool :=
  [.simpleNameReference, .qualifiedNameReference, .fieldAccess, .optionalFieldAccess,
    .indexedExpression].contains node.kind || node.kind.isBindingPattern

end Node

namespace ParseM

/-! ## Ends of statements -/

/-- An expression as a statement. -/
def expressionStatementOf (expression semicolon : Node) : Node :=
  if expression.isCall then .of .callStatement [expression, semicolon]
  else if expression.kind.isAction then .of .actionStatement [expression, semicolon]
  else
    (Node.of .expressionStatement [expression, semicolon]).withDiagnostic
      .expressionStatementNotAllowed

/-- `operator= value ;` behind a left-hand side. -/
def compoundAssignmentAfter (lhs : Node) (shape : CompoundOperator) : ParseM Node :=
  within .compoundAssignmentStatement do
    let (operator, equal) ← compoundOperatorOf shape
    let value ← valueOrAction
    let semicolon ← expect .semicolon .compoundAssignmentStatement
    return .ofSlots .compoundAssignmentStatement
      [some lhs, some operator, equal, some value, some semicolon]

/-- `= value ;` behind a left-hand side. -/
def assignmentAfter (lhs : Node) : ParseM Node := do
  let (kind, context) :=
    if lhs.kind.isBindingPattern then
      (Kind.destructuringAssignmentStatement, Context.destructuringAssignment)
    else (Kind.assignmentStatement, Context.assignmentStatement)
  let target := if lhs.isAssignable then lhs else lhs.withDiagnostic .invalidAssignmentTarget
  within context do
    let equal ← expect .equal context
    let value ← valueOrAction
    let semicolon ← expect .semicolon context
    return .of kind [target, equal, value, semicolon]

/-- The operator of a compound assignment, if it comes next and `kind` is not what the next token is
merely taken for. -/
def compoundAheadAs? (kind : Kind) : ParseM (Option CompoundOperator) := do
  if ← isNext kind then compoundAhead? else pure none

/-- What follows the left-hand side of a statement; `kind` is what the next token is taken for. -/
def plainStatementRhsAs (kind : Kind) (lhs : Node) : ParseM Node := do
  match ← compoundAheadAs? kind with
  | some shape => compoundAssignmentAfter lhs shape
  | none =>
    match kind with
    | .equal => assignmentAfter lhs
    | .semicolon => return expressionStatementOf lhs (← consumeNode)
    | _ =>
      let request := .statementRhs none lhs
      recoverAs (.request request) request fun semicolon =>
        pure (expressionStatementOf lhs semicolon)

/-- What follows the left-hand side of a statement with annotations, which are misplaced. -/
def statementRhsAs (kind : Kind) (annotations : Option Node) (lhs : Node) : ParseM Node := do
  return rejectAnnotations (← plainStatementRhsAs kind lhs) annotations

/-- What follows the left-hand side of a statement. -/
def statementRhs (annotations : Option Node) (lhs : Node) : ParseM Node :=
  resume (.statementRhs annotations lhs)

end ParseM

end TolerantSyntax
