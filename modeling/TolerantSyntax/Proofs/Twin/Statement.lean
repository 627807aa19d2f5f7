import TolerantSyntax.Grammar.Statement
import TolerantSyntax.Proofs.Parse.Statement
import TolerantSyntax.Proofs.Twin.Assignment
import TolerantSyntax.Proofs.Twin.Bracketed.Resolve
import TolerantSyntax.Proofs.Twin.ControlFlow

/-!
# Statements in step
-/

namespace TolerantSyntax.ParseM

open Bracketed (Member Grammar patternOfTuple twin_patternOfTuple)
open Node (PartTwin Twins)

variable {a b : Node} {m m' : Option Node}

/-! ## Statements by their keyword -/

/-- Whatever statement a keyword begins, it is read in step. -/
theorem inStep_keywordStatement? {kind : Kind} {statement : ParseM Node}
    (h : keywordStatement? kind = some statement) : InStep Node.Twin statement statement := by
  unfold keywordStatement? at h
  split at h <;> cases h
  · exact inStep_ifStatement
  · exact inStep_whileStatement
  · exact inStep_foreachStatement
  · exact inStep_matchStatement
  iterate 2 exact inStep_guardedBlock rfl _
  · exact inStep_transaction
  · exact inStep_retryStatement
  · exact inStep_forkStatement
  iterate 4 exact inStep_valueStatement rfl _ _
  iterate 2 exact inStep_keywordStatement rfl _

/-! ## Declarations -/

theorem inStep_localDeclaration (hm : PartTwin m m') :
    InStep Node.Twin (localDeclaration m) (localDeclaration m') :=
  .within _ (inStep_localVariable hm .nil)

theorem inStep_finalDeclaration (hm : PartTwin m m') :
    InStep Node.Twin (finalDeclaration m) (finalDeclaration m') :=
  .within _ (inStep_consumeNode.bind fun _ _ hf => inStep_localVariable hm (.cons hf .nil))

theorem inStep_localDeclarationAfter (hm : PartTwin m m') (ht : a.TwinIn (some .type) b) :
    InStep Node.Twin (localDeclarationAfter m a) (localDeclarationAfter m' b) := by
  refine .within _ ((inStep_typeAfter _ ht).bind fun _ _ hw => ?_)
  refine (inStep_typedBindingAfter hw.toTwin).twin.bind fun _ _ hb => ?_
  exact (inStep_resume (.variableRhs hm .nil hb false)).twin

/-! ## Expressions and patterns -/

theorem inStep_destructuring : InStep Node.Twin destructuring destructuring :=
  inStep_bindingPattern.twin.bind fun _ _ hp => inStep_statementRhs .none hp

/-- A brace begins a pattern if `=` follows the brace that closes, which both parses see. -/
theorem inStep_mappingOrBlock : InStep Node.Twin mappingOrBlock mappingOrBlock := by
  refine inStep_upcoming.same fun kinds => .ite (fun _ => ?_) fun _ => inStep_block
  refine inStep_bindingPattern.twin.bind fun _ _ hp => ?_
  exact (InStep.parseAs (.request (.statementRhs .none hp)) .equal).twin

/-- A statement that begins with an expression, which `start` gets the annotations of. -/
theorem inStep_expressionStatement (hm : PartTwin m m') :
    InStep Node.Twin (expressionStatement m) (expressionStatement m') := by
  have hsome : m.isSome = m'.isSome := by cases hm <;> rfl
  unfold expressionStatement
  rw [hsome]
  refine (inStep_isNext _).same fun _ => .ite (fun _ => ?_) fun _ => ?_
  · refine (inStep_startActionAfter _ hm).bind fun _ _ ha => ?_
    exact (inStep_operatorsAfter _ _ ha).twin.bind fun _ _ hw => inStep_statementRhs .none hw
  · refine (inStep_expression _ _).twin.bind fun a _ he => ?_
    exact (inStep_statementRhs .none he).rejecting (reads_statementRhs none a) hm

/-! ## Statements that begin with a bracket -/

/-- A list constructor goes on as an expression, and this as a statement. -/
theorem inStep_statementAfterList (hm : PartTwin m m') (he : a.TwinIn (some .expression) b) :
    InStep Node.Twin (statementAfterList m a) (statementAfterList m' b) :=
  (inStep_operatorsAfter _ _ he).twin.bind fun _ _ hw => inStep_statementRhs hm hw

/-- What a bracketed list was decided to be tells how the statement goes on. -/
theorem inStep_statementAfterBracketed (hm : PartTwin m m') {grammar : Grammar}
    (h : a.TwinIn (some grammar) b) :
    InStep Node.Twin (statementAfterBracketed m grammar a)
      (statementAfterBracketed m' grammar b) := by
  cases grammar with
  | type => exact inStep_localDeclarationAfter hm h
  | pattern => exact inStep_statementRhs hm h.toTwin
  | expression => exact inStep_statementAfterList hm h

/-- A tuple type with `=` behind it becomes a pattern in both parses. -/
theorem inStep_bracketedStatement (hm : PartTwin m m') :
    InStep Node.Twin (bracketedStatement m) (bracketedStatement m') := by
  refine inStep_bracketed.bind fun member member' h => ?_
  have hnode (grammar : Grammar) := inStep_statementAfterBracketed hm (h.toNode grammar)
  cases h with
  | decided grammar h =>
    cases grammar with
    | type =>
      refine (inStep_isNext _).same fun _ => .ite (fun _ => ?_) fun _ => ?_
      · exact inStep_statementRhs hm (twin_patternOfTuple h.toTwin)
      · exact inStep_localDeclarationAfter hm h
    | _ => exact inStep_statementAfterBracketed hm h
  | _ => exact inStep_grammarAhead.same hnode

/-! ## All together -/

/-- Both parses look ahead without a bound and see the same kinds. -/
theorem inStep_declaresAs (kind : Kind) : InStep Eq (declaresAs kind) (declaresAs kind) := by
  unfold declaresAs
  split
  iterate 2 exact inStep_upcoming.same fun _ => .pure rfl
  · exact .pure rfl
  iterate 2 exact (inStep_kindAt _).same fun _ => .pure rfl

/-- A worker may have a qualifier in front of its keyword. -/
theorem inStep_isQualifiedWorker (kind : Kind) :
    InStep Eq (isQualifiedWorker kind) (isQualifiedWorker kind) :=
  (inStep_isSecond _).same fun _ => .pure rfl

/-- Every statement that no keyword begins. -/
theorem inStep_otherStatementAs (kind : Kind) (hm : PartTwin m m') :
    InStep Node.Twin (otherStatementAs kind m) (otherStatementAs kind m') := by
  refine (inStep_isQualifiedWorker kind).same fun _ => .ite (fun _ => inStep_workerAfter hm)
    fun _ => (inStep_declaresAs kind).same fun _ => .ite (fun _ => inStep_localDeclaration hm)
      fun _ => .ite (fun _ => inStep_expressionStatement hm) fun _ => ?_
  exact (inStep_recoverOver (.statement hm)).twin

/-- Every statement, by the kind of its first token. -/
theorem inStep_statementAs (kind : Kind) (hm : PartTwin m m') :
    InStep Node.Twin (statementAs kind m) (statementAs kind m') := by
  have hdestructuring := inStep_destructuring.rejecting accepts_destructuring.reads hm
  unfold statementAs
  split
  · exact inStep_finalDeclaration hm
  · exact inStep_bracketedStatement hm
  · exact inStep_mappingOrBlock.rejecting meets_mappingOrBlock hm
  · exact hdestructuring
  · refine inStep_upcoming.same fun _ => ?_
    exact .ite (fun _ => hdestructuring) fun _ => inStep_otherStatementAs _ hm
  · split
    · next statement hs =>
      exact (inStep_keywordStatement? hs).rejecting (begins_keywordStatement? hs) hm
    · exact inStep_otherStatementAs _ hm

end TolerantSyntax.ParseM
