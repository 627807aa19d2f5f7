import TolerantSyntax.Grammar.ControlFlow
import TolerantSyntax.Proofs.Twin.Function

/-!
# Control flow in step
-/

namespace TolerantSyntax.ParseM

open Node (PartTwin Twins)

variable {m m' : Option Node}

/-! ## Conditionals -/

/-- A reference to the rule for what follows `else`. -/
theorem inStep_elseBody : InStep Node.Twin elseBody elseBody :=
  (inStep_resume .elseBody).twin

theorem inStep_elseBlock : InStep Node.Twin elseBlock elseBlock :=
  .within _ (inStep_consumeNode.bind fun _ _ hk => inStep_elseBody.bind fun _ _ hb =>
    .of rfl (by simp [hk, hb]))

theorem inStep_ifStatement : InStep Node.Twin ifStatement ifStatement := by
  refine .within _ (inStep_consumeNode.bind fun _ _ hk => inStep_value.twin.bind fun _ _ hc => ?_)
  refine inStep_block.bind fun _ _ hb => (inStep_ifNext _ inStep_elseBlock).bind fun _ _ he => ?_
  exact .ofSlots rfl (by simp [hk, hc, hb, he])

/-- A block or another `if`, by the kind of the first token. -/
theorem inStep_elseBodyAs (kind : Kind) : InStep Node.Twin (elseBodyAs kind) (elseBodyAs kind) := by
  unfold elseBodyAs
  split
  · exact inStep_ifStatement
  · exact inStep_block
  · exact (inStep_recoverOver .elseBody).twin

/-! ## Blocks that may fail -/

theorem inStep_onFailAfter : InStep Node.Twin onFailAfter onFailAfter := by
  refine .within _ (inStep_consumeNode.bind fun _ _ ho => inStep_consumeNode.bind fun _ _ hf => ?_)
  refine (inStep_isNext _).same fun _ => .ite (fun _ => InStep.noPart.bind fun _ _ hb => ?_)
    fun _ => inStep_typedBinding.twin.part.bind fun _ _ hb => ?_
  all_goals exact inStep_block.bind fun _ _ hblock => .ofSlots rfl (by simp [ho, hf, hb, hblock])

/-- The clause comes next in both parses, or in neither. -/
theorem inStep_onFail : InStep PartTwin onFail onFail := by
  refine (inStep_isNext _).same fun _ => (inStep_isSecond _).same fun _ => ?_
  exact .ite (fun _ => inStep_onFailAfter.part) fun _ => .noPart

/-- A keyword, a block and `on fail`, in a node that has no items. -/
theorem inStep_guardedBlock {kind : Kind} (hk : kind.itemsSlot? = none) (context : Context) :
    InStep Node.Twin (guardedBlock kind context) (guardedBlock kind context) := by
  refine .within _ (inStep_consumeNode.bind fun _ _ hw => inStep_block.bind fun _ _ hb => ?_)
  exact inStep_onFail.bind fun _ _ hf => .ofSlots hk (by simp [hw, hb, hf])

theorem inStep_transaction : InStep Node.Twin transaction transaction :=
  inStep_guardedBlock rfl _

theorem inStep_retryStatement : InStep Node.Twin retryStatement retryStatement := by
  refine .within _ (inStep_consumeNode.bind fun _ _ hk => ?_)
  refine (inStep_ifNext _ inStep_typeParameter).bind fun _ _ hm => ?_
  refine (inStep_ifNext _ inStep_argumentList).bind fun _ _ ha => (inStep_isNext _).same fun _ => ?_
  refine .ite (fun _ => inStep_transaction.bind fun _ _ hb => ?_) fun _ =>
    inStep_block.bind fun _ _ hb => ?_
  all_goals exact inStep_onFail.bind fun _ _ hf => .ofSlots rfl (by simp [hk, hm, ha, hb, hf])

/-! ## Loops and matches -/

theorem inStep_whileStatement : InStep Node.Twin whileStatement whileStatement := by
  refine .within _ (inStep_consumeNode.bind fun _ _ hk => inStep_value.twin.bind fun _ _ hc => ?_)
  refine inStep_block.bind fun _ _ hb => inStep_onFail.bind fun _ _ hf => ?_
  exact .ofSlots rfl (by simp [hk, hc, hb, hf])

theorem inStep_foreachStatement : InStep Node.Twin foreachStatement foreachStatement := by
  refine .within _ (inStep_consumeNode.bind fun _ _ hk => ?_)
  refine inStep_typedBinding.twin.bind fun _ _ hp => (inStep_expect _ _).bind fun _ _ hi => ?_
  refine inStep_value.twin.bind fun _ _ hv => inStep_block.bind fun _ _ hb => ?_
  exact inStep_onFail.bind fun _ _ hf => .ofSlots rfl (by simp [hk, hp, hi, hv, hb, hf])

theorem inStep_matchGuard : InStep Node.Twin matchGuard matchGuard :=
  .within _ (inStep_consumeNode.bind fun _ _ hk => (inStep_expression _ _).twin.bind fun _ _ hc =>
    .of rfl (by simp [hk, hc]))

theorem inStep_matchClause : InStep Node.Twin matchClause matchClause := by
  refine .within _ ((inStep_separated _ inStep_matchPattern.twin).bind fun _ _ hp => ?_)
  refine (inStep_ifNext _ inStep_matchGuard).bind fun _ _ hg => ?_
  refine (inStep_expect _ _).bind fun _ _ ha => inStep_block.bind fun _ _ hb => ?_
  exact .ofSlots rfl (by simp [Node.Twin.list hp, hg, ha, hb])

theorem inStep_matchBody : InStep EnclosedTwin matchBody matchBody := by
  refine .within _ ((inStep_expect _ _).bind fun _ _ ho => ?_)
  refine (inStep_manyUntil _ inStep_matchClause).bind fun _ _ hm => ?_
  exact (inStep_expect _ _).bind fun _ _ hc => .pure ⟨ho, hm, hc⟩

theorem inStep_matchStatement : InStep Node.Twin matchStatement matchStatement := by
  refine .within _ (inStep_consumeNode.bind fun _ _ hk => inStep_value.twin.bind fun _ _ hv => ?_)
  refine inStep_matchBody.bind fun _ _ hm => inStep_onFail.bind fun _ _ hf => ?_
  exact .ofSlots rfl (by simp [hk, hv, hm.opening, hm.list, hm.close, hf])

/-! ## Jumps -/

/-- A keyword and a value, which is left out in both parses or in neither. -/
theorem inStep_valueStatement {kind : Kind} (hk : kind.itemsSlot? = none) (context : Context)
    (required : Bool) :
    InStep Node.Twin (valueStatement kind context required)
      (valueStatement kind context required) := by
  refine .within _ (inStep_consumeNode.bind fun _ _ hw => (inStep_isNext _).same fun _ => ?_)
  refine .ite (fun _ => InStep.noPart.bind fun _ _ hv => ?_) fun _ =>
    inStep_valueOrAction.twin.part.bind fun _ _ hv => ?_
  all_goals exact (inStep_expect _ _).bind fun _ _ hs => .ofSlots hk (by simp [hw, hv, hs])

theorem inStep_keywordStatement {kind : Kind} (hk : kind.itemsSlot? = none)
    (context : Context) :
    InStep Node.Twin (keywordStatement kind context) (keywordStatement kind context) :=
  .within _ (inStep_consumeNode.bind fun _ _ hw => (inStep_expect _ _).bind fun _ _ hs =>
    .of hk (by simp [hw, hs]))

/-! ## Workers -/

theorem inStep_workerAfter (hm : PartTwin m m') :
    InStep Node.Twin (workerAfter m) (workerAfter m') := by
  refine .within _ (inStep_checkedFunctionQualifiers.bind fun _ _ hq => ?_)
  refine (inStep_expect _ _).bind fun _ _ hk => (inStep_expect _ _).bind fun _ _ hn => ?_
  refine (inStep_ifNext _ inStep_returnType).bind fun _ _ hr => inStep_block.bind fun _ _ hb => ?_
  exact .ofSlots rfl (by simp [hm, hq, hk, hn, hr, hb])

theorem inStep_worker : InStep Node.Twin worker worker :=
  inStep_metadata.bind fun _ _ hm => inStep_workerAfter hm

theorem inStep_forkStatement : InStep Node.Twin forkStatement forkStatement := by
  refine .within _ (inStep_consumeNode.bind fun _ _ hk => (inStep_expect _ _).bind fun _ _ ho => ?_)
  refine (inStep_manyUntil _ inStep_worker).bind fun _ _ hw => ?_
  exact (inStep_expect _ _).bind fun _ _ hc => .of rfl (by simp [hk, ho, hw, hc])

end TolerantSyntax.ParseM
