import TolerantSyntax.Grammar.Pattern
import TolerantSyntax.Proofs.Twin.Type

/-!
# Patterns in step

Whatever is read as a binding pattern suits the grammar of binding patterns.
-/

namespace TolerantSyntax.ParseM

open Bracketed (Grammar)
open Node (PartTwin Twins)

variable {a b : Node}

/-! ## Binding patterns -/

/-- `...name` suits the grammar of patterns. -/
theorem inStep_restBinding :
    InStep (Node.TwinIn (some .pattern)) restBinding restBinding :=
  inStep_consumeNode.bind fun _ _ he => (inStep_expect _ _).bind fun _ _ hn =>
    .pure (.of rfl rfl (by simp [he, hn]))

/-- Both parses see a type in front of the pattern, or neither does. -/
theorem inStep_isTypedMember : InStep Eq isTypedMember isTypedMember := by
  refine inStep_nextKind.same fun kind => ?_
  split
  · refine (inStep_kindAt _).same fun second => (inStep_kindAt _).same fun third => ?_
    exact (InStep.pure rfl).same fun _ => (inStep_kindAt _).same fun _ => .pure rfl
  · refine (inStep_kindAt _).same fun second => ?_
    split
    · exact (inStep_kindAt _).same fun _ => .pure rfl
    all_goals exact .pure rfl
  · exact .pure rfl

/-- A member of a list binding pattern is a binding pattern. -/
theorem inStep_listBindingMember :
    InStep (Node.TwinIn (some .pattern)) listBindingMember listBindingMember := by
  refine (inStep_isNext _).same fun _ => .ite (fun _ => inStep_restBinding) fun _ => ?_
  refine inStep_isTypedMember.same fun _ => ?_
  exact .ite (fun _ => inStep_typedBinding) fun _ => inStep_bindingPattern

/-- The members of a list pattern are patterns, if those that have been read are. -/
theorem inStep_listBindingAfter {last : Bool} {xs ys : List Node} (ho : a.Twin b)
    (hx : ItemTwins (some .pattern) false last xs ys) (hl : xs = [] ∨ last = true) :
    InStep (Node.TwinIn (some .pattern)) (listBindingAfter a xs) (listBindingAfter b ys) :=
  (inStep_delimitedAfter hx hl _ _ _ (by decide) inStep_listBindingMember).bind fun _ _ hm =>
    .pure (.bracketed rfl rfl ho hm.list hm.items (hm.joins _ rfl) hm.close)

/-- `name` or `name: pattern`, an item of the list of fields. -/
theorem inStep_fieldBinding : InStep (Node.TwinIn none) fieldBinding fieldBinding := by
  refine (inStep_isNext _).same fun _ => .ite (fun _ => inStep_restBinding.item) fun _ => ?_
  refine (inStep_expect _ _).bind fun _ _ hn => (inStep_isNext _).same fun _ => ?_
  have hname := (nameTwin_simpleName hn).1.toTwin
  refine .ite (fun _ => ?_) fun _ => .pure (.ofSlots rfl rfl (by simp [hname]))
  refine inStep_consumeNode.bind fun _ _ hc => inStep_bindingPattern.twin.bind fun _ _ hp => ?_
  exact .pure (.of rfl rfl (by simp [hname, hc, hp]))

theorem inStep_mappingBinding :
    InStep (Node.TwinIn (some .pattern)) mappingBinding mappingBinding := by
  refine inStep_consumeNode.bind fun _ _ ho => ?_
  refine (inStep_delimited _ _ _ (by decide) inStep_fieldBinding).bind fun _ _ hf => ?_
  exact .pure (.ofItems rfl rfl rfl rfl hf.items (by simp [ho, hf.list, hf.close]))

/-- An argument of an error binding pattern is an item, whatever it is. -/
theorem inStep_errorBindingArgument :
    InStep (Node.TwinIn none) errorBindingArgument errorBindingArgument := by
  refine (inStep_isNext _).same fun _ => .ite (fun _ => inStep_restBinding.item) fun _ => ?_
  refine (inStep_isNext _).same fun _ => (inStep_isSecond _).same fun _ => .ite (fun _ => ?_)
    fun _ => inStep_bindingPattern.item
  refine inStep_consumeNode.bind fun _ _ hn => inStep_consumeNode.bind fun _ _ he => ?_
  exact inStep_bindingPattern.twin.bind fun _ _ hp => .pure (.of rfl rfl (by simp [hn, he, hp]))

theorem inStep_errorBinding :
    InStep (Node.TwinIn (some .pattern)) errorBinding errorBinding := by
  refine .within _ (inStep_consumeNode.bind fun _ _ hk => ?_)
  refine (inStep_ifNext _ inStep_typeReference.name).bind fun _ _ ht => ?_
  refine (inStep_expect _ _).bind fun _ _ ho => ?_
  refine (inStep_delimited _ _ _ (by decide) inStep_errorBindingArgument).bind fun _ _ hi => ?_
  exact .pure (.ofItems rfl rfl rfl rfl hi.items (by simp [hk, ht, ho, hi.list, hi.close]))

/-- A binding pattern of any form, by the kind of its first token. -/
theorem inStep_bindingPatternAs (kind : Kind) :
    InStep (Node.TwinIn (some .pattern)) (bindingPatternAs kind) (bindingPatternAs kind) := by
  unfold bindingPatternAs
  split
  · exact (inStep_expect _ _).bind fun _ _ hn => .pure (.of rfl rfl (.cons hn .nil))
  · exact inStep_consumeNode.bind fun _ _ hn => .pure (.of rfl rfl (.cons hn .nil))
  · exact inStep_consumeNode.bind fun _ _ ho => inStep_listBindingAfter ho .nil (.inl rfl)
  · exact inStep_mappingBinding
  · exact inStep_errorBinding
  · exact inStep_recoverAs (.request .bindingPattern) .bindingPattern rfl fun _ _ ht =>
      .pure (Node.TwinIn.of rfl rfl (.cons ht .nil))

/-! ## Match patterns -/

theorem inStep_restMatch : InStep (Node.TwinIn none) restMatch restMatch := by
  refine inStep_consumeNode.bind fun _ _ he => (inStep_expect _ _).bind fun _ _ hv => ?_
  refine (inStep_expect _ _).bind fun _ _ hn =>
    .pure (.of rfl rfl (.cons he (.cons hv (.cons ?_ .nil))))
  exact .of rfl (.cons hn .nil)

theorem inStep_listMatchMember : InStep (Node.TwinIn none) listMatchMember listMatchMember :=
  (inStep_isNext _).same fun _ => .ite (fun _ => inStep_restMatch) fun _ => inStep_matchPattern

theorem inStep_listMatch : InStep (Node.TwinIn none) listMatch listMatch := by
  refine inStep_consumeNode.bind fun _ _ ho => ?_
  refine (inStep_delimited _ _ _ (by decide) inStep_listMatchMember).bind fun _ _ hm => ?_
  exact .pure (.ofItems rfl rfl rfl rfl hm.items (by simp [ho, hm.list, hm.close]))

theorem inStep_fieldMatch : InStep (Node.TwinIn none) fieldMatch fieldMatch := by
  refine (inStep_isNext _).same fun _ => .ite (fun _ => inStep_restMatch) fun _ => ?_
  refine (inStep_expect _ _).bind fun _ _ hn => (inStep_expect _ _).bind fun _ _ hc => ?_
  exact inStep_matchPattern.twin.bind fun _ _ hp => .pure (.of rfl rfl (by simp [hn, hc, hp]))

theorem inStep_mappingMatch : InStep (Node.TwinIn none) mappingMatch mappingMatch := by
  refine inStep_consumeNode.bind fun _ _ ho => ?_
  refine (inStep_delimited _ _ _ (by decide) inStep_fieldMatch).bind fun _ _ hf => ?_
  exact .pure (.ofItems rfl rfl rfl rfl hf.items (by simp [ho, hf.list, hf.close]))

theorem inStep_errorMatchArgument :
    InStep (Node.TwinIn none) errorMatchArgument errorMatchArgument := by
  refine (inStep_isNext _).same fun _ => .ite (fun _ => inStep_restMatch) fun _ => ?_
  refine (inStep_isNext _).same fun _ => (inStep_isSecond _).same fun _ => .ite (fun _ => ?_)
    fun _ => inStep_matchPattern
  refine inStep_consumeNode.bind fun _ _ hn => inStep_consumeNode.bind fun _ _ he => ?_
  exact inStep_matchPattern.twin.bind fun _ _ hp => .pure (.of rfl rfl (by simp [hn, he, hp]))

theorem inStep_errorMatch : InStep (Node.TwinIn none) errorMatch errorMatch := by
  refine .within _ (inStep_consumeNode.bind fun _ _ hk => ?_)
  refine (inStep_ifNext _ inStep_typeReference.name).bind fun _ _ ht => ?_
  refine (inStep_expect _ _).bind fun _ _ ho => ?_
  refine (inStep_delimited _ _ _ (by decide) inStep_errorMatchArgument).bind fun _ _ hi => ?_
  exact .pure (.ofItems rfl rfl rfl rfl hi.items (by simp [hk, ht, ho, hi.list, hi.close]))

/-- A match pattern of any form, by the kind of its first token. -/
theorem inStep_matchPatternAs (kind : Kind) :
    InStep (Node.TwinIn none) (matchPatternAs kind) (matchPatternAs kind) := by
  refine .ite (fun _ => inStep_basicLiteral.item) fun _ => ?_
  split
  · exact inStep_negativeLiteral.item
  · exact inStep_consumeNode.bind fun _ _ hn => .pure (.of rfl rfl (.cons hn .nil))
  · refine inStep_consumeNode.bind fun _ _ hv => (inStep_typedBindingAfter ?_).item
    exact .of rfl (.cons hv .nil)
  · exact (inStep_nameReference _).mono fun _ _ ht => ht.1.item
  · refine inStep_consumeNode.bind fun _ _ ho => (inStep_expect _ _).bind fun _ _ hc => ?_
    exact .pure (.of rfl rfl (by simp [ho, hc]))
  · exact inStep_listMatch
  · exact inStep_mappingMatch
  · exact inStep_errorMatch
  · exact inStep_recoverAs (.request .matchPattern) .matchPattern rfl fun _ _ ht =>
      .pure (nameTwin_simpleName ht).1.item

end TolerantSyntax.ParseM
