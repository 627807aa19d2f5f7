import TolerantSyntax.Grammar.Function
import TolerantSyntax.Proofs.Twin.Type

/-!
# Parameters and bodies in step
-/

namespace TolerantSyntax.ParseM

open Node (PartTwin Twins)

variable {a b : Node} {m m' : Option Node}

/-! ## Parameters -/

/-- A parameter behind its type: plain, with a default value, or with `...`. -/
theorem inStep_parameterAfter (hm : PartTwin m m') (ht : a.Twin b) :
    InStep (Node.TwinIn none) (parameterAfter m a) (parameterAfter m' b) := by
  refine (inStep_isNext _).same fun _ => .ite (fun _ => ?_) fun _ => ?_
  · refine inStep_consumeNode.bind fun _ _ he => (inStep_optional _).bind fun _ _ hn => ?_
    exact .pure (.ofSlots rfl rfl (by simp [hm, ht, he, hn]))
  · refine (inStep_optional _).bind fun name name' hn => (inStep_isNext _).same fun _ => ?_
    have hsome : name.isSome = name'.isSome := by cases hn <;> rfl
    rw [hsome]
    refine .ite (fun _ => ?_) fun _ => .pure (.ofSlots rfl rfl (by simp [hm, ht, hn]))
    refine (InStep.replaceContext _).same fun _ => inStep_consumeNode.bind fun _ _ he => ?_
    exact inStep_value.twin.bind fun _ _ hv =>
      .pure (.ofSlots rfl rfl (by simp [hm, ht, hn, he, hv]))

/-- A parameter with or without a name. -/
theorem inStep_parameterAs (kind : Kind) (hm : PartTwin m m') :
    InStep (Node.TwinIn none) (parameterAs kind m) (parameterAs kind m') := by
  refine .ite (fun _ => .within _ ?_) fun _ => inStep_recoverOver (.parameter hm)
  exact (inStep_typeDescriptor _).twin.bind fun _ _ ht => inStep_parameterAfter hm ht

/-! ## Bodies -/

theorem inStep_expressionBody : InStep Node.Twin expressionBody expressionBody := by
  refine .within _ (inStep_consumeNode.bind fun _ _ ha => inStep_value.twin.bind fun _ _ hv => ?_)
  exact (inStep_expect _ _).bind fun _ _ hs => .of rfl (by simp [ha, hv, hs])

theorem inStep_externalBody : InStep Node.Twin externalBody externalBody := by
  refine .within _ (inStep_consumeNode.bind fun _ _ he => inStep_metadata.bind fun _ _ hm => ?_)
  refine (inStep_expect _ _).bind fun _ _ hk => (inStep_expect _ _).bind fun _ _ hs => ?_
  exact .ofSlots rfl (by simp [he, hm, hk, hs])

/-- A body of any form, by the kind of its first token. -/
theorem inStep_functionBodyAs (kind : Kind) :
    InStep Node.Twin (functionBodyAs kind) (functionBodyAs kind) := by
  unfold functionBodyAs
  split
  · exact inStep_functionBlock
  · exact inStep_expressionBody
  · exact inStep_externalBody
  · refine (inStep_recoverAs (.request .functionBody) .functionBody rfl fun _ _ ho => ?_).twin
    exact .plain (.within _ (inStep_functionBlockAfter ho))

theorem inStep_functionBody : InStep Node.Twin functionBody functionBody :=
  (inStep_resume .functionBody).twin

/-! ## Qualifiers -/

/-- Repeated qualifiers are flagged alike. -/
theorem inStep_checkedFunctionQualifiers :
    InStep Node.Twin checkedFunctionQualifiers checkedFunctionQualifiers :=
  (inStep_many _ inStep_consumeNode).bind fun _ _ hq => .pure (Qualifiers.twin_check _ hq)

end TolerantSyntax.ParseM
