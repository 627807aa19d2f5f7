import TolerantSyntax.Proofs.Scope.Type

/-!
# Expressions

Operators, queries, operands and actions leave what is in force as it was. How many operators are
folded is known by induction on the turns of the loop, as it is for every list.
-/

namespace TolerantSyntax.ParseM.Restores

variable {depth : Nat}

/-! ## Actions -/

instance peerWorker (context : Context) : Restores depth (ParseM.peerWorker context) := by
  unfold ParseM.peerWorker
  infer_instance

instance remoteCallAfter (target arrow : Node) :
    Restores depth (ParseM.remoteCallAfter target arrow) := by
  unfold ParseM.remoteCallAfter
  infer_instance

instance remoteCallOrSend (target : Node) (flags : ExpressionFlags) :
    Restores depth (ParseM.remoteCallOrSend target flags) := by
  unfold ParseM.remoteCallOrSend
  infer_instance

instance syncSend (message : Node) (flags : ExpressionFlags) :
    Restores depth (ParseM.syncSend message flags) := by
  unfold ParseM.syncSend
  infer_instance

instance receiveAction (flags : ExpressionFlags) : Restores depth (ParseM.receiveAction flags) := by
  unfold ParseM.receiveAction
  infer_instance

instance startActionAfter (annotations : Option Node) (flags : ExpressionFlags) :
    Restores depth (ParseM.startActionAfter annotations flags) := by
  unfold ParseM.startActionAfter
  infer_instance

instance startAction (flags : ExpressionFlags) : Restores depth (ParseM.startAction flags) := by
  unfold ParseM.startAction
  infer_instance

instance waitField : Restores depth ParseM.waitField := by
  unfold ParseM.waitField
  infer_instance

instance waitFields : Restores depth ParseM.waitFields := by
  unfold ParseM.waitFields
  infer_instance

instance waitAlternates : Restores depth ParseM.waitAlternates := by
  unfold ParseM.waitAlternates
  refine behind fun futures => ?_
  split <;> infer_instance

instance waitAction (flags : ExpressionFlags) : Restores depth (ParseM.waitAction flags) := by
  unfold ParseM.waitAction
  infer_instance

instance flushAction (flags : ExpressionFlags) : Restores depth (ParseM.flushAction flags) := by
  unfold ParseM.flushAction
  infer_instance

instance commitAction (flags : ExpressionFlags) : Restores depth (ParseM.commitAction flags) := by
  unfold ParseM.commitAction
  infer_instance

/-! ## Operators -/

instance operatorAhead? : Restores depth ParseM.operatorAhead? := by
  unfold ParseM.operatorAhead?
  infer_instance

instance compoundAhead? : Restores depth ParseM.compoundAhead? := by
  unfold ParseM.compoundAhead?
  refine behind fun first => behind fun second => ?_
  repeat' split
  all_goals infer_instance

instance consumeTokens (count : Nat) : Restores depth (ParseM.consumeTokens count) := by
  induction count with
  | zero => exact pure []
  | succ count ih =>
    unfold ParseM.consumeTokens
    infer_instance

instance operatorOf (width : Nat) : Restores depth (ParseM.operatorOf width) := by
  unfold ParseM.operatorOf
  infer_instance

instance compoundOperatorOf (shape : CompoundOperator) :
    Restores depth (ParseM.compoundOperatorOf shape) := by
  unfold ParseM.compoundOperatorOf
  infer_instance

instance callAfter (callee : Node) : Restores depth (ParseM.callAfter callee) := by
  unfold ParseM.callAfter
  infer_instance

instance memberAfter (target : Node) : Restores depth (ParseM.memberAfter target) := by
  unfold ParseM.memberAfter
  infer_instance

instance optionalMemberAfter (target : Node) :
    Restores depth (ParseM.optionalMemberAfter target) := by
  unfold ParseM.optionalMemberAfter
  infer_instance

instance indexAfter (container : Node) : Restores depth (ParseM.indexAfter container) := by
  unfold ParseM.indexAfter
  infer_instance

instance typeTestAfter (operand : Node) : Restores depth (ParseM.typeTestAfter operand) := by
  unfold ParseM.typeTestAfter
  infer_instance

instance conditionalAfter (condition : Node) (flags : ExpressionFlags) :
    Restores depth (ParseM.conditionalAfter condition flags) := by
  unfold ParseM.conditionalAfter
  infer_instance

instance binaryAfter (lhs : Node) (width : Nat) (floor : Precedence) (flags : ExpressionFlags) :
    Restores depth (ParseM.binaryAfter lhs width floor flags) := by
  unfold ParseM.binaryAfter
  infer_instance

instance foldOperator (lhs : Node) (level : Precedence) (width : Nat) (flags : ExpressionFlags) :
    Restores depth (ParseM.foldOperator lhs level width flags) := by
  unfold ParseM.foldOperator
  refine behind fun kind => ?_
  split <;> infer_instance

instance operatorAbove? (floor : Precedence) (flags : ExpressionFlags) :
    Restores depth (ParseM.operatorAbove? floor flags) := by
  unfold ParseM.operatorAbove?
  infer_instance

instance operatorsAfter (floor : Precedence) (operand : Node) (flags : ExpressionFlags) :
    Restores depth (ParseM.operatorsAfter floor operand flags) := by
  unfold ParseM.operatorsAfter
  refine @loop _ _ _ _ _ fun lhs => behind fun operator? => ?_
  cases operator? <;> infer_instance

/-! ## Queries -/

instance clauseValue : Restores depth ParseM.clauseValue :=
  expression _ _

instance fromClause : Restores depth ParseM.fromClause := by
  unfold ParseM.fromClause
  infer_instance

instance whereClause : Restores depth ParseM.whereClause := by
  unfold ParseM.whereClause
  infer_instance

instance letVariable : Restores depth ParseM.letVariable := by
  unfold ParseM.letVariable
  infer_instance

instance letClause : Restores depth ParseM.letClause := by
  unfold ParseM.letClause
  infer_instance

instance onClause : Restores depth ParseM.onClause := by
  unfold ParseM.onClause
  infer_instance

instance joinClause : Restores depth ParseM.joinClause := by
  unfold ParseM.joinClause
  infer_instance

instance orderKey : Restores depth ParseM.orderKey := by
  unfold ParseM.orderKey
  infer_instance

instance orderByClause : Restores depth ParseM.orderByClause := by
  unfold ParseM.orderByClause
  infer_instance

instance limitClause : Restores depth ParseM.limitClause := by
  unfold ParseM.limitClause
  infer_instance

instance intermediateClause : Restores depth ParseM.intermediateClause := by
  unfold ParseM.intermediateClause
  refine behind fun kind => ?_
  split <;> infer_instance

instance selectAfter (pipeline keyword : Node) :
    Restores depth (ParseM.selectAfter pipeline keyword) := by
  unfold ParseM.selectAfter
  infer_instance

instance queryActionAfter (pipeline : Node) (flags : ExpressionFlags) :
    Restores depth (ParseM.queryActionAfter pipeline flags) := by
  unfold ParseM.queryActionAfter
  infer_instance

instance queryEndAs (kind : Kind) (pipeline : Node) (flags : ExpressionFlags) :
    Restores depth (ParseM.queryEndAs kind pipeline flags) := by
  unfold ParseM.queryEndAs
  infer_instance

instance query (flags : ExpressionFlags) : Restores depth (ParseM.query flags) := by
  unfold ParseM.query
  infer_instance

/-! ## Operands -/

instance unary (flags : ExpressionFlags) : Restores depth (ParseM.unary flags) := by
  unfold ParseM.unary
  infer_instance

instance typeofExpression (flags : ExpressionFlags) :
    Restores depth (ParseM.typeofExpression flags) := by
  unfold ParseM.typeofExpression
  infer_instance

instance trapExpression (flags : ExpressionFlags) :
    Restores depth (ParseM.trapExpression flags) := by
  unfold ParseM.trapExpression
  infer_instance

instance checkExpression (flags : ExpressionFlags) :
    Restores depth (ParseM.checkExpression flags) := by
  unfold ParseM.checkExpression
  infer_instance

instance typeCast (flags : ExpressionFlags) : Restores depth (ParseM.typeCast flags) := by
  unfold ParseM.typeCast
  infer_instance

instance arrowFunctionAfter (parameters : Node) (flags : ExpressionFlags) :
    Restores depth (ParseM.arrowFunctionAfter parameters flags) := by
  unfold ParseM.arrowFunctionAfter
  infer_instance

instance namedArrowFunction (flags : ExpressionFlags) :
    Restores depth (ParseM.namedArrowFunction flags) := by
  unfold ParseM.namedArrowFunction
  infer_instance

instance inferredNames : Restores depth ParseM.inferredNames := by
  unfold ParseM.inferredNames
  infer_instance

instance inferredArrowFunction (flags : ExpressionFlags) :
    Restores depth (ParseM.inferredArrowFunction flags) := by
  unfold ParseM.inferredArrowFunction
  infer_instance

instance anonymousBody : Restores depth ParseM.anonymousBody := by
  unfold ParseM.anonymousBody
  infer_instance

instance anonymousFunction : Restores depth ParseM.anonymousFunction := by
  unfold ParseM.anonymousFunction
  infer_instance

instance braced (flags : ExpressionFlags) : Restores depth (ParseM.braced flags) := by
  unfold ParseM.braced
  infer_instance

instance bracedOrArrowFunction (flags : ExpressionFlags) :
    Restores depth (ParseM.bracedOrArrowFunction flags) := by
  unfold ParseM.bracedOrArrowFunction
  infer_instance

instance listMember : Restores depth ParseM.listMember := by
  unfold ParseM.listMember
  infer_instance

instance listConstructorAfter (opening : Node) (items : List Node) :
    Restores depth (ParseM.listConstructorAfter opening items) := by
  unfold ParseM.listConstructorAfter
  infer_instance

instance listConstructor : Restores depth ParseM.listConstructor := by
  unfold ParseM.listConstructor
  infer_instance

instance errorConstructor : Restores depth ParseM.errorConstructor := by
  unfold ParseM.errorConstructor
  infer_instance

instance newExpression : Restores depth ParseM.newExpression := by
  unfold ParseM.newExpression
  refine @within _ _ _ _ (behind fun keyword => behind fun kind => ?_)
  split <;> infer_instance

instance letExpression (flags : ExpressionFlags) : Restores depth (ParseM.letExpression flags) := by
  unfold ParseM.letExpression
  infer_instance

instance nameOrArrowFunction (flags : ExpressionFlags) :
    Restores depth (ParseM.nameOrArrowFunction flags) := by
  unfold ParseM.nameOrArrowFunction
  infer_instance

instance operandAs (kind : Kind) (floor : Precedence) (flags : ExpressionFlags) :
    Restores depth (ParseM.operandAs kind floor flags) := by
  unfold ParseM.operandAs
  refine behind fun isTyped => ?_
  repeat' split
  all_goals infer_instance

instance expressionAs (kind : Kind) (floor : Precedence) (flags : ExpressionFlags) :
    Restores depth (ParseM.expressionAs kind floor flags) := by
  unfold ParseM.expressionAs
  infer_instance

instance namedArgument : Restores depth ParseM.namedArgument := by
  unfold ParseM.namedArgument
  infer_instance

instance argumentAs (kind : Kind) : Restores depth (ParseM.argumentAs kind) := by
  unfold ParseM.argumentAs
  infer_instance

instance specificField : Restores depth ParseM.specificField := by
  unfold ParseM.specificField
  infer_instance

instance computedField : Restores depth ParseM.computedField := by
  unfold ParseM.computedField
  infer_instance

instance mappingFieldAs (kind : Kind) (context : Context) :
    Restores depth (ParseM.mappingFieldAs kind context) := by
  unfold ParseM.mappingFieldAs
  split <;> infer_instance

end TolerantSyntax.ParseM.Restores
