import TolerantSyntax.Grammar.Query
import TolerantSyntax.Proofs.Twin.Type

/-!
# Queries in step

A pipeline that goes on behind an interruption is taken apart again. Its clauses are twins as long
as the pipelines are.
-/

namespace TolerantSyntax.ParseM

open Node (PartTwin Twins)

variable {a b a' b' : Node}

/-- The value of a clause, which ends before the next clause. -/
theorem inStep_clauseValue : InStep Node.Twin clauseValue clauseValue :=
  (inStep_expression _ _).twin

/-! ## Clauses -/

theorem inStep_fromClause : InStep Node.Twin fromClause fromClause := by
  refine .within _ ((inStep_expect _ _).bind fun _ _ hk => ?_)
  refine inStep_typedBinding.twin.bind fun _ _ hb => ?_
  refine (inStep_expect _ _).bind fun _ _ hi => inStep_clauseValue.bind fun _ _ hs => ?_
  exact .of rfl (by simp [hk, hb, hi, hs])

theorem inStep_whereClause : InStep Node.Twin whereClause whereClause :=
  .within _ (inStep_consumeNode.bind fun _ _ hk => inStep_clauseValue.bind fun _ _ hv =>
    .of rfl (by simp [hk, hv]))

/-- A declaration is an item of the list in a `let` expression. -/
theorem inStep_letVariable : InStep (Node.TwinIn none) letVariable letVariable := by
  refine .within _ (inStep_metadata.bind fun _ _ hm => ?_)
  refine inStep_typedBinding.twin.bind fun _ _ hb => ?_
  refine (inStep_expect _ _).bind fun _ _ he => (inStep_expression _ _).twin.bind fun _ _ hv => ?_
  exact .pure (.ofSlots rfl rfl (by simp [hm, hb, he, hv]))

theorem inStep_letClause : InStep Node.Twin letClause letClause := by
  refine .within _ (inStep_consumeNode.bind fun _ _ hk => ?_)
  refine (inStep_separated _ inStep_letVariable.twin).bind fun _ _ hd => ?_
  exact .of rfl (.cons hk (.cons (.list hd) .nil))

theorem inStep_onClause : InStep Node.Twin onClause onClause := by
  refine .within _ ((inStep_expect _ _).bind fun _ _ hk => inStep_clauseValue.bind fun _ _ hl => ?_)
  refine (inStep_expect _ _).bind fun _ _ he => inStep_clauseValue.bind fun _ _ hr => ?_
  exact .of rfl (by simp [hk, hl, he, hr])

theorem inStep_joinClause : InStep Node.Twin joinClause joinClause := by
  refine .within _ ((inStep_optional _).bind fun _ _ ho => ?_)
  refine (inStep_expect _ _).bind fun _ _ hj => ?_
  refine inStep_typedBinding.twin.bind fun _ _ hb => (inStep_expect _ _).bind fun _ _ hi => ?_
  refine inStep_clauseValue.bind fun _ _ hs => inStep_onClause.bind fun _ _ hc => ?_
  exact .ofSlots rfl (by simp [ho, hj, hb, hi, hs, hc])

/-- A key with or without its direction. -/
theorem inStep_orderKey : InStep Node.Twin orderKey orderKey := by
  refine inStep_clauseValue.bind fun _ _ hv => inStep_nextKind.same fun kind => ?_
  refine .ite (fun _ => inStep_consumeNode.part.bind fun _ _ hd => ?_) fun _ =>
    InStep.noPart.bind fun _ _ hd => ?_
  all_goals exact .ofSlots rfl (by simp [hv, hd])

theorem inStep_orderByClause : InStep Node.Twin orderByClause orderByClause := by
  refine .within _ (inStep_consumeNode.bind fun _ _ ho => (inStep_expect _ _).bind fun _ _ hb => ?_)
  refine (inStep_separated _ inStep_orderKey).bind fun _ _ hk => ?_
  exact .of rfl (.cons ho (.cons hb (.cons (.list hk) .nil)))

theorem inStep_limitClause : InStep Node.Twin limitClause limitClause :=
  .within _ (inStep_consumeNode.bind fun _ _ hk => inStep_clauseValue.bind fun _ _ hv =>
    .of rfl (by simp [hk, hv]))

/-- A clause of any sort, by the kind of its first token. -/
theorem inStep_intermediateClause :
    InStep Node.Twin intermediateClause intermediateClause := by
  refine inStep_nextKind.same fun kind => ?_
  split
  · exact inStep_whereClause
  · exact inStep_letClause
  iterate 2 exact inStep_joinClause
  · exact inStep_orderByClause
  · exact inStep_limitClause
  · exact inStep_fromClause

/-! ## Pipelines -/

/-- A pipeline of twins, with or without the clause that begins it. -/
theorem twin_queryPipeline {first first' : Option Node} {xs ys : List Node}
    (hf : PartTwin first first') (hx : Twins xs ys) :
    (queryPipeline first xs).Twin (queryPipeline first' ys) :=
  .ofSlots rfl (.cons hf (.cons (.some (.list hx)) .nil))

/-- A clause is put behind those that a pipeline has, which are as many in both. -/
theorem twin_appendClause (hp : a.Twin b) (hc : a'.Twin b') :
    (appendClause a a').Twin (appendClause b b') := by
  refine twin_queryPipeline (hp.slot? 0) ?_
  exact List.rel_append (Node.twins_children (hp.slot? 1)) (.cons hc .nil)

/-- What is selected, behind the keyword. -/
theorem inStep_selectAfter (hp : a.Twin b) (hk : a'.Twin b') :
    InStep (Node.TwinIn (some .expression)) (selectAfter a a') (selectAfter b b') := by
  refine inStep_clauseValue.bind fun _ _ hv => .pure (.of rfl rfl (.cons hp (.cons ?_ .nil)))
  exact .of rfl (.cons hk (.cons hv .nil))

theorem inStep_queryActionAfter (flags : ExpressionFlags) (hp : a.Twin b) :
    InStep (Node.TwinIn (some .expression)) (queryActionAfter a flags)
      (queryActionAfter b flags) := by
  refine .within _ (inStep_consumeNode.bind fun _ _ hk => inStep_block.bind fun _ _ hb => ?_)
  exact .pure (twinIn_checkAction flags (.of rfl rfl (by simp [hp, hk, hb])))

/-- A query ends with `select` or `do`, by the kind of the first token. -/
theorem inStep_queryEndAs (kind : Kind) (flags : ExpressionFlags) (hp : a.Twin b) :
    InStep (Node.TwinIn (some .expression)) (queryEndAs kind a flags)
      (queryEndAs kind b flags) := by
  refine .ite (fun _ => inStep_consumeNode.bind fun _ _ hk => inStep_selectAfter hp hk) fun _ =>
    .ite (fun _ => inStep_queryActionAfter flags hp) fun _ => .ite (fun _ => ?_) fun _ => ?_
  · refine inStep_intermediateClause.bind fun _ _ hc => ?_
    exact inStep_resume (.queryEnd (twin_appendClause hp hc) flags)
  · have hrequest := Request.Twin.queryEnd hp flags
    exact inStep_recoverAs (.request hrequest) hrequest rfl fun _ _ hk => inStep_selectAfter hp hk

/-- The clauses of a query up to its end, and that end. -/
theorem inStep_query (flags : ExpressionFlags) :
    InStep (Node.TwinIn (some .expression)) (query flags) (query flags) := by
  refine .within _ (inStep_fromClause.bind fun _ _ hf => ?_)
  refine (inStep_many _ inStep_intermediateClause).bind fun _ _ hc => ?_
  exact inStep_resume (.queryEnd (twin_queryPipeline (.some hf) hc) flags)

end TolerantSyntax.ParseM
