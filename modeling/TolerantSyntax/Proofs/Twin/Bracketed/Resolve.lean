import TolerantSyntax.Grammar.Bracketed.Resolve
import TolerantSyntax.Proofs.Twin.Bracketed.Lowering
import TolerantSyntax.Proofs.Twin.Operand
import TolerantSyntax.Proofs.Twin.Pattern

/-!
# Bracketed lists in step

Two parses read the same members and stop at the same one, as it is the first to decide in both.
How deep members may nest is bounded by the fuel, of which there may be more in one parse than in
the other.
-/

namespace TolerantSyntax.ParseM

open Bracketed
open Node (PartTwin Twins)

variable {a b : Node} {m m' : Member}

/-! ## What can follow a member -/

/-- Both parses see what makes the member a type. -/
theorem inStep_isTypeSuffix (kind : Kind) : InStep Eq (isTypeSuffix kind) (isTypeSuffix kind) := by
  unfold isTypeSuffix
  split
  iterate 2 exact (inStep_kindAt _).same fun _ => .pure rfl
  · exact inStep_isSecond _
  all_goals exact .pure rfl

/-- A member that has been read in a grammar. -/
theorem InStep.decided {grammar : Grammar} {n n' : ParseM Node}
    (h : InStep (Node.TwinIn (some grammar)) n n') :
    InStep Member.Twin (do return .decided grammar (← n)) (do return .decided grammar (← n')) :=
  h.bind fun _ _ ht => .pure (.decided grammar ht)

/-- A type decides the grammar, as does a typed binding where a pattern follows the type. -/
theorem inStep_typeMember (h : a.TwinIn (some .type) b) :
    InStep Member.Twin (typeMember a) (typeMember b) :=
  inStep_nextKind.same fun _ => .ite (fun _ => (inStep_typedBindingAfter h.toTwin).decided) fun _ =>
    (inStep_restTypeAfter h).decided

/-- A member with what follows it, which may decide its grammar. -/
theorem inStep_memberWithSuffix (h : m.Twin m') :
    InStep Member.Twin (memberWithSuffix m) (memberWithSuffix m') := by
  refine inStep_nextKind.same fun kind => .ite (fun _ => .pure h) fun _ => ?_
  refine (inStep_isTypeSuffix kind).same fun suffix => ?_
  rw [h.mayBeType_eq]
  refine .ite (fun _ => ?_) fun _ => .ite (fun _ => ?_) fun _ => ?_
  · exact (inStep_typeAfter _ h.toType).bind fun _ _ ht => inStep_typeMember ht
  · exact (inStep_typedBindingAfter h.toType.toTwin).decided
  · have hoperators := InStep.ite (c := (Precedence.ofOperator? kind).isSome = true)
      (fun _ => (inStep_operatorsAfter .default .rhs h.toExpression).decided) fun _ => .pure h
    cases h with
    | decided grammar ht =>
      cases grammar with
      | pattern => exact .pure (.decided .pattern ht)
      | _ => exact hoperators
    | _ => exact hoperators

/-- The rest of a list whose grammar is known is read by that grammar, behind the members lowered to
it. -/
theorem inStep_decidedList (grammar : Grammar) {xs ys : List Item} (ho : a.Twin b)
    (hx : Item.Twins false true xs ys) :
    InStep Member.Twin (decidedList grammar a xs) (decidedList grammar b ys) := by
  cases grammar with
  | type => exact (inStep_tupleTypeAfter ho hx.toTypes (.inr rfl)).decided
  | pattern => exact (inStep_listBindingAfter ho hx.toPatterns (.inr rfl)).decided
  | expression => exact (inStep_listConstructorAfter ho hx.toExpressions (.inr rfl)).decided

/-! ## Members -/

theorem inStep_isErrorValue : InStep Eq isErrorValue isErrorValue := by
  refine (inStep_kindAt _).same fun kind => ?_
  split
  · exact .pure rfl
  · exact (inStep_kindAt _).same fun _ => .pure rfl
  · exact .pure rfl

theorem inStep_isRestName : InStep Eq isRestName isRestName :=
  (inStep_isNext _).same fun _ => (inStep_isSecond _).same fun _ => (inStep_kindAt _).same fun _ =>
    .pure rfl

/-- A name, with its module or without, leaves the grammar open. -/
theorem inStep_nameMember : InStep Member.Twin nameMember nameMember := by
  refine (inStep_isSecond _).same fun _ => (inStep_kindAt _).same fun _ => .ite (fun _ => ?_)
    fun _ => inStep_consumeNode.bind fun _ _ hn => .pure (.name hn)
  refine inStep_consumeNode.bind fun _ _ hm => inStep_consumeNode.bind fun _ _ hc => ?_
  exact inStep_consumeNode.bind fun _ _ hn => .pure (.qualified hm hc hn)

/-- `...name`, or `...` in front of any other expression. -/
theorem inStep_restMember : InStep Member.Twin restMember restMember := by
  refine inStep_consumeNode.bind fun _ _ he => (inStep_isNext _).same fun _ => ?_
  refine (inStep_kindAt _).same fun _ => .ite (fun _ => ?_) fun _ => ?_
  · exact inStep_consumeNode.bind fun _ _ hn => .pure (.rest he hn)
  · refine inStep_value.twin.bind fun _ _ hv => .pure (.decided .expression ?_)
    exact .of rfl rfl (by simp [he, hv])

/-- A type that begins with a keyword or a parenthesis. -/
theorem inStep_keywordTypeMember : InStep Member.Twin keywordTypeMember keywordTypeMember :=
  (inStep_typeDescriptor _).bind fun _ _ ht => inStep_typeMember ht

/-! ## Nested members -/

section Nested

variable {α : Type} {R : List α → List α → Prop} {depth depth' : Nat}

/-- Another item, or the end. -/
theorem inStep_afterItem (start start' : Nat) {xs ys : List α} {separator : Node → α}
    {finish finish' : Node → Member}
    (hs : ∀ a b, a.LeafTwin b → a.kind = .comma → R (xs ++ [separator a]) (ys ++ [separator b]))
    (hf : ∀ a b, a.Twin b → (finish a).Twin (finish' b)) (h : a.LeafTwin b) :
    InStepWhere (Since start start') (Sum.LiftRel R Member.Twin)
      (afterItem start xs separator finish a) (afterItem start' ys separator finish' b) := by
  unfold afterItem
  rw [← h.kind_eq]
  refine .ite (fun hc => ?_) fun _ => (InStep.pure (.inr (hf _ _ h.toTwin))).anywhere
  have hmore := hs _ _ h (beq_iff_eq.mp hc)
  exact .ifStill (inStep_discard.bind fun _ _ _ => .pure (.inl hmore)) (.pure (.inl hmore))

/-- Members, fields and arguments that nest no deeper than the depths are read in step. -/
structure ReadsInStep (depth depth' : Nat) : Prop where
  member : InStep Member.Twin (ambiguousMember depth) (ambiguousMember depth')
  list : ∀ a b : Node, a.Twin b →
    InStep Member.Twin (bracketedList depth a) (bracketedList depth' b)
  mapping : InStep Member.Twin (ambiguousMapping depth) (ambiguousMapping depth')
  field : InStep (fun f f' => FieldItem.Twins false true [f] [f']) (ambiguousField depth)
    (ambiguousField depth')
  error : InStep Member.Twin (ambiguousError depth) (ambiguousError depth')
  argument : InStep (fun i i' => ArgumentItem.Twins false true [i] [i']) (ambiguousArgument depth)
    (ambiguousArgument depth')

namespace ReadsInStep

/-- A member at a depth is read by the loops of the depth below. -/
theorem member_succ (h : ReadsInStep depth depth') :
    InStep Member.Twin (ambiguousMember (depth + 1)) (ambiguousMember (depth' + 1)) := by
  refine inStep_nextKind.same fun kind => .ite (fun _ => ?_) fun _ => .ite (fun _ => ?_) fun _ =>
    .ite (fun _ => inStep_restMember) fun _ => .ite (fun _ => ?_) fun _ => .ite (fun _ => ?_)
      fun _ => (inStep_isSecond _).same fun _ => .ite (fun _ => ?_) fun _ => ?_
  · exact inStep_nameMember.bind fun _ _ hm => inStep_memberWithSuffix hm
  · exact inStep_consumeNode.bind fun _ _ hw => .pure (.wildcard hw)
  · refine inStep_consumeNode.bind fun a b ho => ?_
    exact (h.list a b ho).bind fun _ _ hm => inStep_memberWithSuffix hm
  · exact h.mapping.bind fun _ _ hm => inStep_memberWithSuffix hm
  · refine inStep_consumeNode.bind fun _ _ ho => inStep_consumeNode.bind fun _ _ hc => ?_
    exact inStep_memberWithSuffix (.nil ho hc)
  -- what is neither in brackets nor a name
  refine (inStep_kindAt _).same fun _ => (inStep_kindAt _).same fun _ =>
    .ite (fun _ => inStep_keywordTypeMember) fun _ => inStep_isErrorValue.same fun _ =>
      .ite (fun _ => ?_) fun _ => .ite (fun _ => ?_) fun _ => (inStep_isSecond _).same fun _ =>
        .ite (fun _ => inStep_keywordTypeMember) fun _ => inStep_value.decided
  · exact h.error.bind fun _ _ hm => inStep_memberWithSuffix hm
  · exact inStep_consumeNode.bind fun _ _ ht => inStep_memberWithSuffix (.literal ht)

/-- A list inside a list. -/
theorem list_succ (h : ReadsInStep depth depth') (ho : a.Twin b) :
    InStep Member.Twin (bracketedList (depth + 1) a) (bracketedList (depth' + 1) b) := by
  refine .within _ ((inStep_isNext _).same fun _ => .ite (fun _ => ?_) fun _ => ?_)
  · exact inStep_consumeNode.bind fun _ _ hc => .pure (.list ho .nil (.inl rfl) hc)
  refine .loop (R := Item.Twins false false) .nil fun xs ys hx => ?_
  refine InStep.noting fun start start' => ?_
  refine h.member.since fun m m' hm => ?_
  have hmore := hx.append (.member hm .nil)
  dsimp only
  rw [hm.decides?_eq]
  split
  · exact ((inStep_decidedList _ ho hmore).bind fun _ _ hr => .pure (.inr hr)).anywhere
  · refine (inStep_listEnd _ _ _).since fun _ _ ht => inStep_afterItem start start' ?_ ?_ ht
    · exact fun _ _ hs hc => hmore.append (.separator hs hc .nil)
    · exact fun _ _ hc => .list ho hmore (.inr rfl) hc

/-- Fields up to the closing brace, one more with each turn. -/
theorem mapping_succ (h : ReadsInStep depth depth') :
    InStep Member.Twin (ambiguousMapping (depth + 1)) (ambiguousMapping (depth' + 1)) := by
  refine inStep_consumeNode.bind fun _ _ ho => .within _ ((inStep_isNext _).same fun _ => ?_)
  refine .ite
    (fun _ => inStep_consumeNode.bind fun _ _ hc => .pure (.mapping ho .nil (.inl rfl) hc))
    fun _ => ?_
  refine .loop (R := FieldItem.Twins false false) .nil fun xs ys hx => ?_
  refine InStep.noting fun start start' => ?_
  refine h.field.since fun f f' hf => ?_
  have hmore := hx.append hf
  refine (inStep_listEnd _ _ _).since fun _ _ ht => inStep_afterItem start start' ?_ ?_ ht
  · exact fun _ _ hs hc => hmore.append (.separator hs hc .nil)
  · exact fun _ _ hc => .mapping ho hmore (.inr rfl) hc

/-- A field, whose value is a member. -/
theorem field_succ (h : ReadsInStep depth depth') :
    InStep (fun f f' => FieldItem.Twins false true [f] [f']) (ambiguousField (depth + 1))
      (ambiguousField (depth' + 1)) := by
  refine (inStep_isNext _).same fun _ => .ite (fun _ => ?_) fun _ => ?_
  · refine inStep_consumeNode.bind fun _ _ hn => (inStep_isNext _).same fun _ => ?_
    refine .ite (fun _ => inStep_consumeNode.bind fun _ _ hc => ?_) fun _ => .pure (.name hn .nil)
    exact h.member.bind fun _ _ hm => .pure (.field hn hc hm .nil)
  · refine inStep_isRestName.same fun _ => .ite (fun _ => ?_) fun _ => ?_
    · refine inStep_consumeNode.bind fun _ _ he => inStep_consumeNode.bind fun _ _ hn => ?_
      exact .pure (.rest he hn .nil)
    · exact (inStep_mappingField _).bind fun _ _ hf => .pure (.expression hf .nil)

/-- Arguments up to the closing parenthesis, one more with each turn. -/
theorem error_succ (h : ReadsInStep depth depth') :
    InStep Member.Twin (ambiguousError (depth + 1)) (ambiguousError (depth' + 1)) := by
  refine inStep_consumeNode.bind fun _ _ hk => ?_
  refine (inStep_ifNext _ inStep_typeReference.name).bind fun _ _ ht => ?_
  refine (inStep_expect _ _).bind fun _ _ ho => .within _ ((inStep_isNext _).same fun _ => ?_)
  refine .ite
    (fun _ => inStep_consumeNode.bind fun _ _ hc => .pure (.error hk ht ho .nil (.inl rfl) hc))
    fun _ => ?_
  refine .loop (R := ArgumentItem.Twins false false) .nil fun xs ys hx => ?_
  refine InStep.noting fun start start' => ?_
  refine h.argument.since fun i i' hi => ?_
  have hmore := hx.append hi
  refine (inStep_listEnd _ _ _).since fun _ _ hs => inStep_afterItem start start' ?_ ?_ hs
  · exact fun _ _ hs hc => hmore.append (.separator hs hc .nil)
  · exact fun _ _ hc => .error hk ht ho hmore (.inr rfl) hc

/-- An argument, whose value is a member. -/
theorem argument_succ (h : ReadsInStep depth depth') :
    InStep (fun i i' => ArgumentItem.Twins false true [i] [i']) (ambiguousArgument (depth + 1))
      (ambiguousArgument (depth' + 1)) := by
  refine (inStep_isNext _).same fun _ => (inStep_isSecond _).same fun _ => .ite (fun _ => ?_)
    fun _ => inStep_isRestName.same fun _ => .ite (fun _ => ?_) fun _ => ?_
  · refine inStep_consumeNode.bind fun _ _ hn => inStep_consumeNode.bind fun _ _ he => ?_
    exact h.member.bind fun _ _ hm => .pure (.named hn he hm .nil)
  · refine inStep_consumeNode.bind fun _ _ he => inStep_consumeNode.bind fun _ _ hn => ?_
    exact .pure (.rest he hn .nil)
  · exact h.member.bind fun _ _ hm => .pure (.positional hm .nil)

end ReadsInStep

/-- By induction on the depth of one parse: a member reads what nests in it one level down. -/
theorem readsInStep (depth depth' : Nat) : ReadsInStep depth depth' := by
  induction depth generalizing depth' with
  | zero =>
    exact ⟨.outOfFuel, fun _ _ _ => .outOfFuel, .outOfFuel, .outOfFuel, .outOfFuel, .outOfFuel⟩
  | succ depth ih =>
    cases depth' with
    | zero =>
      exact ⟨.outOfFuel_right, fun _ _ _ => .outOfFuel_right, .outOfFuel_right, .outOfFuel_right,
        .outOfFuel_right, .outOfFuel_right⟩
    | succ depth' =>
      have h := ih depth'
      exact ⟨h.member_succ, fun _ _ ho => h.list_succ ho, h.mapping_succ, h.field_succ,
        h.error_succ, h.argument_succ⟩

end Nested

/-- At every depth the fuel of the two parses may differ. -/
theorem inStep_bracketed : InStep Member.Twin bracketed bracketed := by
  refine inStep_consumeNode.bind fun a b ho => ?_
  constructor
  intro env env' _ _ _ _ _ _ _ he hp hrun hrun'
  exact ((readsInStep env.fuel env'.fuel).list a b ho).run he hp hrun hrun'

/-- What follows the closing bracket decides alike. -/
theorem inStep_grammarAhead : InStep Eq grammarAhead grammarAhead := by
  refine inStep_nextKind.same fun kind => ?_
  split
  all_goals first | exact .pure rfl | exact (inStep_isSecond _).same fun _ => .pure rfl

end TolerantSyntax.ParseM
