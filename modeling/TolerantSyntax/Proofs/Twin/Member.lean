import TolerantSyntax.Grammar.Member
import TolerantSyntax.Proofs.Parse.Member
import TolerantSyntax.Proofs.Twin.Function

/-!
# Members of classes in step
-/

namespace TolerantSyntax

open Node (PartTwin Twins)

/-- Qualifiers that are rejected are put before the first token in their order. -/
theorem Qualifiers.twin_reject {a b : Node} {xs ys : List Node} (h : a.Twin b) (ht : a.HasToken)
    (hx : Twins xs ys) : (reject a xs).Twin (reject b ys) := by
  induction hx with
  | nil => exact h
  | cons hq _ ih => exact ih.withLeadingInvalid (becomes_reject ht _).2 hq _

namespace ParseM

variable {a b : Node} {m m' : Option Node} {xs ys : List Node}

/-! ## Resource paths -/

theorem inStep_pathParameter : InStep Node.Twin pathParameter pathParameter := by
  refine inStep_consumeNode.bind fun _ _ ho => (inStep_typeDescriptor _).bind fun _ _ ht => ?_
  refine (inStep_restTypeAfter ht).twin.bind fun _ _ hr => (inStep_optional _).bind fun _ _ hn => ?_
  exact (inStep_expect _ _).bind fun _ _ hc => .ofSlots rfl (by simp [ho, hr, hn, hc])

theorem inStep_pathSegment : InStep Node.Twin pathSegment pathSegment :=
  (inStep_isNext _).same fun _ => .ite (fun _ => inStep_pathParameter) fun _ => inStep_expect _ _

/-- The segments of a path with the slashes between them. -/
theorem inStep_pathSegments : InStep Twins pathSegments pathSegments := by
  refine inStep_nextKind.same fun kind => ?_
  split
  · exact inStep_consumeNode.bind fun _ _ hd => .pure (.cons hd .nil)
  · exact .pure .nil
  · exact inStep_separated _ inStep_pathSegment

theorem inStep_resourcePath : InStep Node.Twin resourcePath resourcePath :=
  .within _ ((inStep_expect _ _).bind fun _ _ ha => inStep_pathSegments.bind fun _ _ hs =>
    .of rfl (.cons ha (.cons (.list hs) .nil)))

/-! ## Members -/

/-- Twins hold the same kinds, so a qualifier stands among both or neither. -/
theorem any_kind_eq (kind : Kind) (h : Twins xs ys) :
    (xs.any fun node => node.kind == kind) = ys.any fun node => node.kind == kind := by
  induction h with
  | nil => rfl
  | cons hx _ ih => rw [List.any_cons, List.any_cons, hx.kind_eq, ih]

/-- A method of a class or an object type; a resource method has a path. -/
theorem inStep_methodAfter (hm : PartTwin m m') (hq : Twins xs ys) (objectType : Bool) :
    InStep Node.Twin (methodAfter m xs objectType) (methodAfter m' ys objectType) := by
  have hchecked := Qualifiers.twin_check Qualifiers.ofMethod hq
  unfold methodAfter
  rw [any_kind_eq _ hq]
  refine .within _ (inStep_consumeNode.bind fun _ _ hk => ?_)
  refine .ite (fun _ => inStep_resourcePath.bind fun _ _ hn => ?_) fun _ =>
    (inStep_expect _ _).bind fun _ _ hn => ?_
  all_goals
    refine inStep_functionSignature.bind fun _ _ hs => .ite (fun _ => ?_) fun _ => ?_
    · exact (inStep_expect _ _).bind fun _ _ he =>
        .ofSlots rfl (by simp [hm, hchecked, hk, hn, hs, he])
    · exact inStep_functionBody.bind fun _ _ hb =>
        .ofSlots rfl (by simp [hm, hchecked, hk, hn, hs, hb])

/-- Two parts that are there or not. -/
abbrev PartsTwin (r r' : Option Node × Option Node) : Prop :=
  PartTwin r.1 r'.1 ∧ PartTwin r.2 r'.2

/-- `= value`, both parts or none. -/
theorem inStep_fieldValue : InStep PartsTwin fieldValue fieldValue := by
  refine (inStep_isNext _).same fun _ => .ite (fun _ => ?_) fun _ => .pure ⟨.none, .none⟩
  refine inStep_consumeNode.bind fun _ _ he => inStep_value.twin.bind fun _ _ hv => ?_
  exact .pure ⟨.some he, .some hv⟩

/-- A field, with its qualifiers checked alike. -/
theorem inStep_objectFieldAfter (hm : PartTwin m m') (hq : Twins xs ys) :
    InStep Node.Twin (objectFieldAfter m xs) (objectFieldAfter m' ys) := by
  have hchecked := Qualifiers.twin_check Qualifiers.ofField hq
  refine .within _ ((inStep_typeDescriptor _).twin.bind fun _ _ ht => ?_)
  refine (inStep_expect _ _).bind fun _ _ hn => inStep_fieldValue.bind fun _ _ hv => ?_
  refine (inStep_expect _ _).bind fun _ _ hs => ?_
  exact .ofSlots rfl (by simp [hm, hchecked, ht, hn, hv.1, hv.2, hs])

/-- A member by its first token: an inclusion, a method or a field. -/
theorem inStep_classMemberAs (kind : Kind) (hm : PartTwin m m') (hq : Twins xs ys)
    (objectType : Bool) :
    InStep Node.Twin (classMemberAs kind m xs objectType)
      (classMemberAs kind m' ys objectType) := by
  refine .ite (fun _ => ?_) fun _ => .ite (fun _ => inStep_methodAfter hm hq objectType) fun _ =>
    .ite (fun _ => inStep_objectFieldAfter hm hq) fun _ => ?_
  · refine ((inStep_typeInclusion _).knowing (opens_typeInclusion _).reads).bind fun _ _ h => ?_
    have hrejected := Qualifiers.twin_reject h.1 h.2 hq
    exact .pure (twin_rejectAnnotations hrejected (Qualifiers.becomes_reject h.2 _).2 hm)
  · exact (inStep_recoverOver (.classMember hm hq objectType)).twin

theorem inStep_classMembers : InStep Node.Twin classMembers classMembers :=
  inStep_manyUntil _ (inStep_classMember false)

end ParseM

end TolerantSyntax
