import TolerantSyntax.Grammar.Statement
import TolerantSyntax.Proofs.Scope.Expression

/-!
# Statements

Statements leave what is in force as it was, those that begin with a bracket too: however deep its
members nest, each list, mapping and error takes off what it put on.
-/

namespace TolerantSyntax.ParseM.Restores

open Bracketed (ArgumentItem FieldItem Grammar Item Member)

variable {depth : Nat}

/-! ## Assignments -/

instance compoundAssignmentAfter (lhs : Node) (shape : CompoundOperator) :
    Restores depth (ParseM.compoundAssignmentAfter lhs shape) := by
  unfold ParseM.compoundAssignmentAfter
  infer_instance

instance assignmentAfter (lhs : Node) : Restores depth (ParseM.assignmentAfter lhs) := by
  unfold ParseM.assignmentAfter
  infer_instance

instance compoundAheadAs? (kind : Kind) : Restores depth (ParseM.compoundAheadAs? kind) := by
  unfold ParseM.compoundAheadAs?
  infer_instance

instance plainStatementRhsAs (kind : Kind) (lhs : Node) :
    Restores depth (ParseM.plainStatementRhsAs kind lhs) := by
  unfold ParseM.plainStatementRhsAs
  refine behind fun shape? => ?_
  repeat' split
  all_goals infer_instance

instance statementRhsAs (kind : Kind) (annotations : Option Node) (lhs : Node) :
    Restores depth (ParseM.statementRhsAs kind annotations lhs) := by
  unfold ParseM.statementRhsAs
  infer_instance

instance statementRhs (annotations : Option Node) (lhs : Node) :
    Restores depth (ParseM.statementRhs annotations lhs) :=
  resume _

/-! ## Control flow -/

instance elseBody : Restores depth ParseM.elseBody :=
  resume _

instance elseBlock : Restores depth ParseM.elseBlock := by
  unfold ParseM.elseBlock
  infer_instance

instance ifStatement : Restores depth ParseM.ifStatement := by
  unfold ParseM.ifStatement
  infer_instance

instance elseBodyAs (kind : Kind) : Restores depth (ParseM.elseBodyAs kind) := by
  unfold ParseM.elseBodyAs
  split <;> infer_instance

instance onFailAfter : Restores depth ParseM.onFailAfter := by
  unfold ParseM.onFailAfter
  infer_instance

instance onFail : Restores depth ParseM.onFail := by
  unfold ParseM.onFail
  infer_instance

instance guardedBlock (kind : Kind) (context : Context) :
    Restores depth (ParseM.guardedBlock kind context) := by
  unfold ParseM.guardedBlock
  infer_instance

instance transaction : Restores depth ParseM.transaction :=
  guardedBlock _ _

instance retryStatement : Restores depth ParseM.retryStatement := by
  unfold ParseM.retryStatement
  infer_instance

instance whileStatement : Restores depth ParseM.whileStatement := by
  unfold ParseM.whileStatement
  infer_instance

instance foreachStatement : Restores depth ParseM.foreachStatement := by
  unfold ParseM.foreachStatement
  infer_instance

instance matchGuard : Restores depth ParseM.matchGuard := by
  unfold ParseM.matchGuard
  infer_instance

instance matchClause : Restores depth ParseM.matchClause := by
  unfold ParseM.matchClause
  infer_instance

instance matchBody : Restores depth ParseM.matchBody := by
  unfold ParseM.matchBody
  infer_instance

instance matchStatement : Restores depth ParseM.matchStatement := by
  unfold ParseM.matchStatement
  infer_instance

instance valueStatement (kind : Kind) (context : Context) (required : Bool) :
    Restores depth (ParseM.valueStatement kind context required) := by
  unfold ParseM.valueStatement
  infer_instance

instance keywordStatement (kind : Kind) (context : Context) :
    Restores depth (ParseM.keywordStatement kind context) := by
  unfold ParseM.keywordStatement
  infer_instance

instance workerAfter (annotations : Option Node) :
    Restores depth (ParseM.workerAfter annotations) := by
  unfold ParseM.workerAfter
  infer_instance

instance worker : Restores depth ParseM.worker := by
  unfold ParseM.worker
  infer_instance

instance forkStatement : Restores depth ParseM.forkStatement := by
  unfold ParseM.forkStatement
  infer_instance

/-! ## Bracketed lists -/

instance isTypeSuffix (kind : Kind) : Restores depth (ParseM.isTypeSuffix kind) := by
  unfold ParseM.isTypeSuffix
  split <;> infer_instance

instance typeMember (type : Node) : Restores depth (ParseM.typeMember type) := by
  unfold ParseM.typeMember
  infer_instance

instance memberWithSuffix (member : Member) : Restores depth (ParseM.memberWithSuffix member) := by
  unfold ParseM.memberWithSuffix
  refine behind fun kind => ?_
  split
  · infer_instance
  · refine behind fun isSuffix => ?_
    repeat' split
    all_goals infer_instance

instance decidedList (grammar : Grammar) (opening : Node) (items : List Item) :
    Restores depth (ParseM.decidedList grammar opening items) := by
  cases grammar <;> (unfold ParseM.decidedList; infer_instance)

instance isErrorValue : Restores depth ParseM.isErrorValue := by
  unfold ParseM.isErrorValue
  refine behind fun kind => ?_
  split <;> infer_instance

instance isRestName : Restores depth ParseM.isRestName := by
  unfold ParseM.isRestName
  infer_instance

instance nameMember : Restores depth ParseM.nameMember := by
  unfold ParseM.nameMember
  infer_instance

instance restMember : Restores depth ParseM.restMember := by
  unfold ParseM.restMember
  infer_instance

instance keywordTypeMember : Restores depth ParseM.keywordTypeMember := by
  unfold ParseM.keywordTypeMember
  infer_instance

instance afterItem {α β : Type} (start : Nat) (items : List α) (separator : Node → α)
    (finish : Node → β) (token : Node) :
    Restores depth (ParseM.afterItem start items separator finish token) := by
  unfold ParseM.afterItem
  infer_instance

/-- The members of an undecided list leave what is in force as it was, by induction on how deep they
may nest. -/
theorem undecided (nesting : Nat) : ∀ depth,
    Restores depth (ParseM.ambiguousMember nesting) ∧
      (∀ opening, Restores depth (ParseM.bracketedList nesting opening)) ∧
      Restores depth (ParseM.ambiguousMapping nesting) ∧
      Restores depth (ParseM.ambiguousField nesting) ∧
      Restores depth (ParseM.ambiguousError nesting) ∧
      Restores depth (ParseM.ambiguousArgument nesting) := by
  induction nesting with
  | zero =>
    intro depth
    exact ⟨outOfFuel, fun _ => outOfFuel, outOfFuel, outOfFuel, outOfFuel, outOfFuel⟩
  | succ nesting ih =>
    intro depth
    have _ (depth : Nat) := (ih depth).1
    have _ (depth : Nat) := (ih depth).2.1
    have _ (depth : Nat) := (ih depth).2.2.1
    have _ (depth : Nat) := (ih depth).2.2.2.1
    have _ (depth : Nat) := (ih depth).2.2.2.2.1
    have _ (depth : Nat) := (ih depth).2.2.2.2.2
    refine ⟨?_, ?_, ?_, ?_, ?_, ?_⟩
    · unfold ParseM.ambiguousMember
      refine behind fun kind => ?_
      iterate 5 (split; · infer_instance)
      refine behind fun closes => ?_
      split <;> infer_instance
    · intro opening
      unfold ParseM.bracketedList
      refine @within _ _ _ _ (behind fun isEmpty => ?_)
      split
      · infer_instance
      · refine @loop _ _ _ _ _ fun items => behind fun start => behind fun member => ?_
        dsimp only
        split <;> infer_instance
    · unfold ParseM.ambiguousMapping
      infer_instance
    · unfold ParseM.ambiguousField
      infer_instance
    · unfold ParseM.ambiguousError
      infer_instance
    · unfold ParseM.ambiguousArgument
      infer_instance

instance bracketedList (nesting : Nat) (opening : Node) :
    Restores depth (ParseM.bracketedList nesting opening) :=
  (undecided nesting depth).2.1 opening

instance bracketed : Restores depth ParseM.bracketed := by
  unfold ParseM.bracketed
  infer_instance

instance grammarAhead : Restores depth ParseM.grammarAhead := by
  unfold ParseM.grammarAhead
  refine behind fun kind => ?_
  split <;> infer_instance

/-! ## Statements -/

instance localDeclaration (annotations : Option Node) :
    Restores depth (ParseM.localDeclaration annotations) := by
  unfold ParseM.localDeclaration
  infer_instance

instance finalDeclaration (annotations : Option Node) :
    Restores depth (ParseM.finalDeclaration annotations) := by
  unfold ParseM.finalDeclaration
  infer_instance

instance localDeclarationAfter (annotations : Option Node) (type : Node) :
    Restores depth (ParseM.localDeclarationAfter annotations type) := by
  unfold ParseM.localDeclarationAfter
  infer_instance

instance destructuring : Restores depth ParseM.destructuring := by
  unfold ParseM.destructuring
  infer_instance

instance mappingOrBlock : Restores depth ParseM.mappingOrBlock := by
  unfold ParseM.mappingOrBlock
  infer_instance

instance expressionStatement (annotations : Option Node) :
    Restores depth (ParseM.expressionStatement annotations) := by
  unfold ParseM.expressionStatement
  infer_instance

instance statementAfterList (annotations : Option Node) (expression : Node) :
    Restores depth (ParseM.statementAfterList annotations expression) := by
  unfold ParseM.statementAfterList
  infer_instance

instance statementAfterBracketed (annotations : Option Node) (grammar : Grammar) (node : Node) :
    Restores depth (ParseM.statementAfterBracketed annotations grammar node) := by
  unfold ParseM.statementAfterBracketed
  cases grammar <;> infer_instance

instance bracketedStatement (annotations : Option Node) :
    Restores depth (ParseM.bracketedStatement annotations) := by
  unfold ParseM.bracketedStatement
  refine behind fun member => ?_
  split <;> infer_instance

instance declaresAs (kind : Kind) : Restores depth (ParseM.declaresAs kind) := by
  unfold ParseM.declaresAs
  split <;> infer_instance

instance isQualifiedWorker (kind : Kind) : Restores depth (ParseM.isQualifiedWorker kind) := by
  unfold ParseM.isQualifiedWorker
  infer_instance

instance otherStatementAs (kind : Kind) (annotations : Option Node) :
    Restores depth (ParseM.otherStatementAs kind annotations) := by
  unfold ParseM.otherStatementAs
  infer_instance

theorem of_keywordStatement? {kind : Kind} {step : ParseM Node}
    (h : keywordStatement? kind = some step) : Restores depth step := by
  unfold keywordStatement? at h
  split at h <;> cases h <;> infer_instance

instance statementAs (kind : Kind) (annotations : Option Node) :
    Restores depth (ParseM.statementAs kind annotations) := by
  unfold ParseM.statementAs
  split
  case h_6 =>
    split
    · next h =>
      have _ := @of_keywordStatement? depth _ _ h
      infer_instance
    · infer_instance
  all_goals infer_instance

end TolerantSyntax.ParseM.Restores
