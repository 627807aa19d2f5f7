import TolerantSyntax.Proofs.Tree.Seated

/-!
# Items and commas

Between delimiters stand items with a comma between each two. Items are interior nodes and commas
are leaves, so what a list looks like can be told from the kinds of the leaves among its parts.
A tree is tidy if all such lists in it alternate, and all members of bracketed lists suit them.

Edits of a tree touch the trivia of a token and keep what is seen of lists, so a tidy tree stays
tidy.
-/

namespace TolerantSyntax

/-! ## Lists that alternate -/

/-- The slot in which a node of this kind has items with commas between them. -/
def Kind.itemsSlot? : Kind → Option Nat
  | .functionSignature | .inferParamList | .parenthesizedArgList | .listConstructor
  | .mappingConstructor | .tupleTypeDescriptor | .listBindingPattern | .mappingBindingPattern
  | .listMatchPattern | .mappingMatchPattern | .letExpression | .waitFieldsList => some 1
  | .functionCall | .indexedExpression => some 2
  | .errorConstructor | .errorBindingPattern | .errorMatchPattern => some 3
  | .methodCall | .remoteMethodCallAction => some 4
  | .enumDeclaration => some 5
  | _ => none

theorem Kind.memberGrammar?_eq_none {kind : Kind} (h : kind.itemsSlot? = none) :
    kind.memberGrammar? = none := by
  unfold memberGrammar?
  split <;> first | rfl | cases h

theorem Kind.itemsSlot?_of_memberGrammar? {kind : Kind} {grammar : Bracketed.Grammar}
    (h : kind.memberGrammar? = some grammar) : kind.itemsSlot? = some 1 := by
  unfold memberGrammar? at h
  split at h <;> first | rfl | cases h

/-- Items and commas by turns, as seen by the kinds of leaves; an item is no leaf. The flags tell
whether an item stands before them and whether an item stands last. -/
inductive Alternating : Bool → Bool → List (Option Kind) → Prop where
  | nil {last : Bool} : Alternating last last []
  | item {last : Bool} {kinds : List (Option Kind)} (h : Alternating true last kinds) :
      Alternating false last (none :: kinds)
  | comma {last : Bool} {kinds : List (Option Kind)} (h : Alternating false last kinds) :
      Alternating true last (some .comma :: kinds)

/-- Two runs that alternate make one if the second goes on where the first ends. -/
theorem Alternating.append {before middle last : Bool} {xs ys : List (Option Kind)}
    (hx : Alternating before middle xs) (hy : Alternating middle last ys) :
    Alternating before last (xs ++ ys) := by
  induction hx with
  | nil => exact hy
  | item _ ih => exact .item (ih hy)
  | comma _ ih => exact .comma (ih hy)

theorem odd_succ (n : Nat) : ((n + 1) % 2 == 1) = !(n % 2 == 1) := by
  rcases Nat.mod_two_eq_zero_or_one n with h | h <;> simp [Nat.add_mod, h]

/-- What is at a place can be told from whether the place is odd. -/
theorem Alternating.getElem? {before last : Bool} {kinds : List (Option Kind)}
    (h : Alternating before last kinds) {index : Nat} (hi : index < kinds.length) :
    kinds[index]? = some (if (index % 2 == 1) = before then none else some .comma) := by
  induction h generalizing index with
  | nil => exact absurd hi (Nat.not_lt_zero _)
  | item _ ih | comma _ ih =>
    cases index with
    | zero => rfl
    | succ index =>
      rw [List.getElem?_cons_succ, ih (Nat.lt_of_succ_lt_succ hi), odd_succ]
      cases index % 2 == 1 <;> rfl

/-- Each place after the other changes whether an item stands last. -/
theorem Alternating.last_eq {before last : Bool} {kinds : List (Option Kind)}
    (h : Alternating before last kinds) : last = (before != (kinds.length % 2 == 1)) := by
  induction h with
  | nil => exact (Bool.bne_false _).symm
  | @item last kinds _ ih | @comma last kinds _ ih =>
    rw [ih, List.length_cons, odd_succ]
    cases kinds.length % 2 == 1 <;> rfl

namespace Node

/-- The kind of a leaf. -/
def leafKind? (node : Node) : Option Kind :=
  node.token?.map Token.kind

/-- The kind of a leaf is all that a list of items is judged by. -/
theorem leafKind?_eq (node : Node) :
    node.leafKind? = if node.isToken then some node.kind else none := by
  cases node <;> rfl

/-- There are no items, or they have commas between them and an item stands last. -/
def Alternates (items : List Node) : Prop :=
  items = [] ∨ Alternating false true (items.map leafKind?)

/-- The node is a list of items with commas between them. -/
structure IsItemList (list : Node) : Prop where
  kind : list.kind = .list
  interior : list.isToken = false
  /-- There is a part in each slot. -/
  filled : none ∉ list.slots
  alternates : Alternates list.children

/-- If the node has items, they stand in their slot with commas between them. -/
def ListsItems (node : Node) : Prop :=
  ∀ index ∈ node.kind.itemsSlot?, node.isToken = false →
    ∃ list, node.slot? index = some list ∧ list.IsItemList

theorem leafKind?_eq_none_iff {node : Node} : node.leafKind? = none ↔ node.isToken = false := by
  cases node <;> simp [leafKind?, token?, isToken]

theorem leafKind?_eq_some_iff {node : Node} {kind : Kind} :
    node.leafKind? = some kind ↔ node.isToken = true ∧ node.kind = kind := by
  cases node <;> simp [leafKind?, token?, isToken]

/-- Items may be changed as long as the tokens among them stay. -/
theorem alternates_of_leafKinds {xs ys : List Node}
    (h : ys.map leafKind? = xs.map leafKind?) (hx : Alternates xs) : Alternates ys := by
  rcases hx with rfl | hx
  · exact .inl (List.map_eq_nil_iff.mp h)
  · exact .inr (h ▸ hx)

theorem isItemList_list {items : List Node} (h : Alternates items) : (list items).IsItemList := by
  refine ⟨rfl, rfl, by simp [list, of, slots], ?_⟩
  rw [children_list]
  exact h

/-- The parts of the list are its slots. -/
theorem IsItemList.slots_eq {list : Node} (h : list.IsItemList) :
    list.slots = list.children.map some := by
  have hfilled := h.filled
  rw [children]
  generalize list.slots = slots at hfilled ⊢
  induction slots with
  | nil => rfl
  | cons slot rest ih =>
    rw [List.mem_cons, not_or] at hfilled
    cases slot with
    | none => exact absurd rfl hfilled.1
    | some part => exact congrArg (some part :: ·) (ih hfilled.2)

theorem none_mem_labels {slots : List (Option Node)} :
    none ∈ slots.map (Option.map label) ↔ none ∈ slots := by
  simp

/-- Whether a node is a list of items can be told from its sketch. -/
theorem IsItemList.of_sketch_eq {a b : Node} (h : b.sketch = a.sketch) (ha : a.IsItemList) :
    b.IsItemList := by
  have hlabel : b.label = a.label := congrArg Prod.fst h
  refine ⟨(congrArg Label.kind hlabel).trans ha.kind,
    (congrArg Label.isToken hlabel).trans ha.interior, fun hnone => ha.filled ?_,
    alternates_of_leafKinds ?_ ha.alternates⟩
  · rw [← none_mem_labels] at hnone ⊢
    rwa [← show b.slots.map _ = a.slots.map _ from congrArg Prod.snd h]
  have hkinds (xs : List Node) : xs.map leafKind? =
      (xs.map label).map fun label => if label.isToken then some label.kind else none := by
    rw [List.map_map]
    exact List.map_congr_left fun item _ => leafKind?_eq item
  rw [hkinds, hkinds, labels_children h]

instance : Sketched ListsItems where
  leaf _ _ _ hinterior := nomatch hinterior
  congr h hp := by
    intro index hi hinterior
    obtain ⟨list, hl, hlist⟩ := hp index hi hinterior
    obtain ⟨other, hother, hsketch⟩ := exists_slot_of_sketches h (Option.join_eq_some_iff.mp hl)
    exact ⟨other, Option.join_eq_some_iff.mpr hother, hlist.of_sketch_eq hsketch⟩

/-! ## Tidy trees -/

/-- The members of the node suit it, and its items have commas between them. -/
def InOrder (node : Node) : Prop :=
  node.SeatsMembers ∧ node.ListsItems

instance : Sketched InOrder :=
  inferInstanceAs (Sketched fun node => node.SeatsMembers ∧ node.ListsItems)

/-- All parts of the tree are in order. -/
def Tidy (node : Node) : Prop :=
  node.Everywhere InOrder

/-- All nodes of a row of slots are tidy. -/
def SlotsTidy (slots : List (Option Node)) : Prop :=
  SlotsEverywhere InOrder slots

end Node

/-- All that was set aside is tidy. -/
def Trivia.Tidy (pieces : List Trivia) : Prop :=
  Everywhere Node.InOrder pieces

namespace Trivia

variable {xs ys : List Trivia}

theorem tidy_nil : Tidy [] :=
  everywhere_nil

theorem tidy_append : Tidy (xs ++ ys) ↔ Tidy xs ∧ Tidy ys :=
  everywhere_append

theorem tidy_of_isPlain (h : ∀ piece ∈ xs, piece.IsPlain) : Tidy xs :=
  everywhere_of_isPlain h

end Trivia

namespace Node

variable {kind : Kind} {slots : List (Option Node)} {diagnostics : List Diagnostic}

theorem tidy_leaf {token : Token} :
    (leaf token).Tidy ↔ Trivia.Tidy (token.leading ++ token.trailing) :=
  everywhere_leaf

theorem tidy_composite :
    (composite kind slots diagnostics).Tidy ↔
      (composite kind slots diagnostics).InOrder ∧ SlotsTidy slots :=
  everywhere_composite

theorem slotsTidy_nil : SlotsTidy [] :=
  slotsEverywhere_nil

theorem slotsTidy_cons {slot : Option Node} :
    SlotsTidy (slot :: slots) ↔ (∀ node ∈ slot, node.Tidy) ∧ SlotsTidy slots :=
  slotsEverywhere_cons

/-- What stands in a slot of a tidy tree is tidy. -/
theorem SlotsTidy.of_slot? {node part : Node} {index : Nat} (h : SlotsTidy node.slots)
    (hp : node.slot? index = some part) : part.Tidy :=
  h part (List.mem_of_getElem? (Option.join_eq_some_iff.mp hp))

theorem Tidy.slotsTidy {node : Node} (h : node.Tidy) : SlotsTidy node.slots := by
  cases node with
  | leaf token => exact slotsTidy_nil
  | composite kind slots diagnostics => exact (tidy_composite.mp h).2

theorem Tidy.children {node : Node} (h : node.Tidy) : ∀ part ∈ node.children, part.Tidy := by
  intro part hp
  obtain ⟨slot, hm, hs⟩ := List.mem_filterMap.mp hp
  cases hs
  exact h.slotsTidy part hm

/-- A token that is put in is tidy. -/
theorem tidy_missing (kind : Kind) (offset : Nat) (code : DiagnosticCode) :
    (missing kind offset code).Tidy :=
  everywhere_missing kind offset code

/-! ## Nodes in order -/

/-- A node without items has nothing to keep in order. -/
theorem inOrder_of_slots (hk : kind.itemsSlot? = none) :
    (composite kind slots diagnostics).InOrder := by
  refine ⟨fun grammar hg => ?_, fun index hi => ?_⟩
  · rw [kind_composite, Kind.memberGrammar?_eq_none hk] at hg
    cases hg
  · rw [kind_composite, hk] at hi
    cases hi

/-- It is enough to look at the one slot that holds items. -/
theorem listsItems_of_slot {index : Nat} {list : Node} (hk : kind.itemsSlot? = some index)
    (hl : slots[index]? = some (some list)) (h : list.IsItemList) :
    (composite kind slots diagnostics).ListsItems := by
  intro other ho _
  rw [kind_composite, hk] at ho
  cases ho
  exact ⟨list, Option.join_eq_some_iff.mpr hl, h⟩

/-- A node of which no more is asked than that its items have commas between them. -/
theorem inOrder_of_items {index : Nat} {list : Node} (hk : kind.itemsSlot? = some index)
    (hm : kind.memberGrammar? = none) (hl : slots[index]? = some (some list))
    (h : list.IsItemList) : (composite kind slots diagnostics).InOrder := by
  refine ⟨fun grammar hg => ?_, listsItems_of_slot hk hl h⟩
  rw [kind_composite, hm] at hg
  cases hg

/-! ## Edits -/

theorem Tidy.withDiagnostic {node : Node} (h : node.Tidy) (code : DiagnosticCode) :
    (node.withDiagnostic code).Tidy :=
  Everywhere.withDiagnostic h code

theorem Tidy.setAside {node : Node} (h : node.Tidy) (code : DiagnosticCode) :
    Trivia.Tidy [node.setAside code] :=
  Everywhere.setAside h code

/-- Trivia before a node that has a token leaves it tidy. -/
theorem Tidy.withLeading {node : Node} {trivia : List Trivia} (h : node.Tidy)
    (ht : node.HasToken) (hs : Trivia.Tidy trivia) : (node.withLeading trivia).Tidy :=
  Everywhere.withLeading h ht hs

/-- Trivia behind a node that has a token leaves it tidy. -/
theorem Tidy.withTrailing {node : Node} {trivia : List Trivia} (h : node.Tidy)
    (ht : node.HasToken) (hs : Trivia.Tidy trivia) : (node.withTrailing trivia).Tidy :=
  Everywhere.withTrailing h ht hs

/-! ## Nodes with a diagnostic -/

/-- A flagged item is an item, and a flagged comma a comma. -/
@[simp] theorem leafKind?_withDiagnostic (node : Node) (code : DiagnosticCode) :
    (node.withDiagnostic code).leafKind? = node.leafKind? := by
  cases node <;> rfl

@[simp] theorem isToken_withDiagnostic (node : Node) (code : DiagnosticCode) :
    (node.withDiagnostic code).isToken = node.isToken := by
  cases node <;> rfl

end Node

/-- Whether an item or a comma stands at a place can be told from whether the place is even. -/
theorem Alternating.leafKind?_eq {last : Bool} {items : List Node} {place : Nat} {item : Node}
    (h : Alternating false last (items.map Node.leafKind?)) (hi : items[place]? = some item) :
    item.leafKind? = if place % 2 = 0 then none else some .comma := by
  have hlt : place < (items.map Node.leafKind?).length := by
    rw [List.length_map]
    exact (List.getElem?_eq_some_iff.mp hi).1
  have hplace := h.getElem? hlt
  rw [List.getElem?_map, hi, Option.map_some, Option.some.injEq] at hplace
  rw [hplace]
  simp

end TolerantSyntax
