import Mathlib.Data.List.Forall2
import TolerantSyntax.Proofs.Tree.Bare
import TolerantSyntax.Proofs.Tree.Items

/-!
# Twins

Two trees are twins if they are the same without layout and tidy. What is built from twins in the
same way, or edited in the same way, are twins again. This is what the nodes of two parses are
compared by that read the same tokens in another layout. What a node is to become a part of can ask
more of it: to be a token, or an item of a list.
-/

namespace TolerantSyntax

open Bracketed (Grammar)

namespace Node

/-- The trees are the same without layout, and tidy. -/
structure Twin (a b : Node) : Prop where
  bare : a.bare = b.bare
  tidy : a.Tidy

/-- What is asked of a node by the one that it becomes a part of. -/
inductive Role where
  /-- Nothing. -/
  | part
  /-- To be a token. -/
  | leaf
  /-- To be an item of a list, and to suit a grammar if there is one. -/
  | item (grammar? : Option Grammar)

/-- The node can play the role. -/
def Role.Fits : Role → Node → Prop
  | part, _ => True
  | leaf, node => node.isToken = true
  | item grammar?, node => node.isToken = false ∧ ∀ grammar ∈ grammar?, grammar.Suits node

/-- Twins that can play a role. -/
structure TwinAs (role : Role) (a b : Node) : Prop extends Twin a b where
  fits : role.Fits a

/-- Twins that are tokens. -/
abbrev LeafTwin (a b : Node) : Prop :=
  a.TwinAs .leaf b

/-- Twins that can be items of a list, and suit a grammar if there is one. -/
abbrev TwinIn (grammar? : Option Grammar) (a b : Node) : Prop :=
  a.TwinAs (.item grammar?) b

/-- Slots with twins in them. -/
abbrev Twins (xs ys : List Node) : Prop :=
  List.Forall₂ Twin xs ys

/-- Two parts that are there or not, and twins. -/
abbrev PartTwin (a b : Option Node) : Prop :=
  Option.Rel Twin a b

variable {a b : Node} {xs ys : List Node} {kind : Kind} {grammar? : Option Grammar}

namespace Twin

/-- Whatever the tree holds, members of bracketed lists suit them. -/
theorem seated (h : a.Twin b) : a.Seated :=
  fun part hp => (h.tidy part hp).1

/-- And all lists in it alternate. -/
theorem listsItems (h : a.Twin b) : ∀ part : Node, part.PartOf a → part.ListsItems :=
  fun part hp => (h.tidy part hp).2

/-- The kind is no layout. -/
theorem kind_eq (h : a.Twin b) : a.kind = b.kind := by
  rw [← kind_bare a, h.bare, kind_bare]

/-- Nor is whether something is missing. -/
theorem isMissing_eq (h : a.Twin b) : a.isMissing = b.isMissing := by
  rw [← isMissing_bare a, h.bare, isMissing_bare]

/-- Lists of tidy nodes are twins if they are the same without layout. -/
theorem twins_of_map (h : xs.map Node.bare = ys.map Node.bare) (hs : ∀ x ∈ xs, x.Tidy) :
    Twins xs ys := by
  induction xs generalizing ys with
  | nil =>
    cases ys with
    | nil => exact .nil
    | cons => cases h
  | cons x xs ih =>
    cases ys with
    | nil => cases h
    | cons y ys =>
      rw [List.map_cons, List.map_cons, List.cons.injEq] at h
      exact .cons ⟨h.1, hs x (List.mem_cons_self ..)⟩
        (ih h.2 fun z hz => hs z (List.mem_cons_of_mem _ hz))

/-- The parts of twins are twins. -/
theorem children (h : a.Twin b) : Twins a.children b.children := by
  refine twins_of_map ?_ h.tidy.children
  rw [← children_bare, ← children_bare, h.bare]

/-- In each slot stand twins, or nothing. -/
theorem slot? (h : a.Twin b) (index : Nat) : PartTwin (a.slot? index) (b.slot? index) := by
  have hbare : (a.slot? index).map Node.bare = (b.slot? index).map Node.bare := by
    rw [← slot?_bare, ← slot?_bare, h.bare]
  cases ha : a.slot? index with
  | none =>
    rw [ha, Option.map_none, eq_comm, Option.map_eq_none_iff] at hbare
    rw [hbare]
    exact .none
  | some x =>
    rw [ha, Option.map_some, eq_comm, Option.map_eq_some_iff] at hbare
    obtain ⟨y, hy, heq⟩ := hbare
    rw [hy]
    exact .some ⟨heq.symm, h.tidy.slotsTidy.of_slot? ha⟩

end Twin

/-! ## Parts that may be left out -/

/-- The parts of a list that may be left out. -/
theorem twins_children {list list' : Option Node} (h : PartTwin list list') :
    Twins ((list.map children).getD []) ((list'.map children).getD []) := by
  cases h with
  | none => exact .nil
  | some hl => exact hl.children

/-- A part that may be left out, as a list. -/
theorem twins_toList {part part' : Option Node} (h : PartTwin part part') :
    Twins part.toList part'.toList := by
  cases h with
  | none => exact .nil
  | some h => exact .cons h .nil

/-- Parts that are all there. -/
theorem partTwins_of_twins (h : Twins xs ys) :
    List.Forall₂ PartTwin (xs.map some) (ys.map some) :=
  List.forall₂_map_left_iff.mpr (List.forall₂_map_right_iff.mpr (h.imp fun _ _ hx => .some hx))

/-! ## Building -/

namespace Twin

/-- A node that is in order, made of twins. -/
theorem ofOrder {xs ys : List (Option Node)} (ho : (Node.ofSlots kind xs).InOrder)
    (h : List.Forall₂ PartTwin xs ys) : (Node.ofSlots kind xs).Twin (.ofSlots kind ys) := by
  have hparts : xs.map (Option.map Node.bare) = ys.map (Option.map Node.bare) ∧
      SlotsTidy xs := by
    clear ho
    induction h with
    | nil => exact ⟨rfl, slotsTidy_nil⟩
    | cons hx _ ih =>
      rw [List.map_cons, List.map_cons, ih.1, slotsTidy_cons]
      cases hx with
      | none => exact ⟨rfl, fun _ hm => (nomatch hm), ih.2⟩
      | some hx =>
        refine ⟨by rw [Option.map_some, Option.map_some, hx.bare], fun node hm => ?_, ih.2⟩
        exact Option.some.inj hm ▸ hx.tidy
  exact ⟨by rw [bare_ofSlots, bare_ofSlots, hparts.1], tidy_composite.mpr ⟨ho, hparts.2⟩⟩

/-- A node that has no items is tidy if its parts are. -/
theorem ofSlots {xs ys : List (Option Node)} (hk : kind.itemsSlot? = none)
    (h : List.Forall₂ PartTwin xs ys) : (Node.ofSlots kind xs).Twin (.ofSlots kind ys) :=
  ofOrder (inOrder_of_slots hk) h

/-- The same where all parts are there. -/
theorem of (hk : kind.itemsSlot? = none) (h : Twins xs ys) :
    (Node.of kind xs).Twin (.of kind ys) :=
  ofSlots hk (partTwins_of_twins h)

/-- A node with items in one of its slots. -/
theorem ofItems {xs ys : List (Option Node)} {index : Nat} {list : Node}
    (hk : kind.itemsSlot? = some index) (hm : kind.memberGrammar? = none)
    (hl : xs[index]? = some (some list)) (hi : list.IsItemList)
    (h : List.Forall₂ PartTwin xs ys) : (Node.ofSlots kind xs).Twin (.ofSlots kind ys) :=
  ofOrder (inOrder_of_items hk hm hl hi) h

/-- A list on its own; whether it alternates is asked of the node that it belongs to. -/
theorem list (h : Twins xs ys) : (Node.list xs).Twin (.list ys) :=
  of rfl h

/-! ## Edits -/

/-- A diagnostic is no layout, and is put on both. -/
theorem withDiagnostic (h : a.Twin b) (code : DiagnosticCode) :
    (a.withDiagnostic code).Twin (b.withDiagnostic code) :=
  ⟨by rw [bare_withDiagnostic, bare_withDiagnostic b, h.bare], h.tidy.withDiagnostic code⟩

/-- If one has a token, so has the other. -/
theorem hasToken (h : a.Twin b) (ht : a.HasToken) : b.HasToken := by
  rw [HasToken, ← hasToken_bare, ← h.bare, hasToken_bare]
  exact ht

/-- Trivia that is the same without layout goes before twins. -/
theorem withLeading {xs ys : List Trivia} (h : a.Twin b) (ht : a.HasToken)
    (hx : Trivia.bareAll xs = Trivia.bareAll ys) (hs : Trivia.Tidy xs) :
    (a.withLeading xs).Twin (b.withLeading ys) := by
  refine ⟨Option.some.inj ?_, h.tidy.withLeading ht hs⟩
  rw [bare_withLeading ht, bare_withLeading (h.hasToken ht), h.bare, hx]

/-- Trivia put behind the last token: it may differ in its layout. -/
theorem withTrailing {xs ys : List Trivia} (h : a.Twin b) (ht : a.HasToken)
    (hx : Trivia.bareAll xs = Trivia.bareAll ys) (hs : Trivia.Tidy xs) :
    (a.withTrailing xs).Twin (b.withTrailing ys) := by
  refine ⟨Option.some.inj ?_, h.tidy.withTrailing ht hs⟩
  rw [bare_withTrailing ht, bare_withTrailing (h.hasToken ht), h.bare, hx]

/-- A twin that is discarded becomes trivia of the first token, with its diagnostics. -/
theorem withLeadingInvalid {i j : Node} (h : a.Twin b) (ht : a.HasToken) (hi : i.Twin j)
    (code : DiagnosticCode) : (a.withLeadingInvalid i code).Twin (b.withLeadingInvalid j code) := by
  refine h.withLeading ht ?_ (hi.tidy.setAside code)
  rw [bareAll_setAside, bareAll_setAside, (hi.withDiagnostic code).bare]

end Twin

/-- Tokens put in for the same reason are twins wherever they stand. -/
theorem LeafTwin.missing (kind : Kind) (i j : Nat) (code : DiagnosticCode) :
    (Node.missing kind i code).LeafTwin (.missing kind j code) :=
  ⟨⟨rfl, tidy_missing kind i code⟩, rfl⟩

namespace TwinIn

/-- What suits a list is no token. -/
theorem interior (h : a.TwinIn grammar? b) : a.isToken = false :=
  h.fits.1

/-- It suits the grammar that is asked for. -/
theorem suits {grammar : Grammar} (h : a.TwinIn (some grammar) b) : grammar.Suits a :=
  h.fits.2 grammar rfl

/-- A member of a list in a grammar can be an item of any list. -/
theorem item (h : a.TwinIn grammar? b) : a.TwinIn none b :=
  ⟨h.toTwin, h.interior, fun _ hg => nomatch hg⟩

/-- A diagnostic does not change whether a node suits. -/
theorem withDiagnostic (h : a.TwinIn grammar? b) (code : DiagnosticCode) :
    (a.withDiagnostic code).TwinIn grammar? (b.withDiagnostic code) :=
  ⟨h.toTwin.withDiagnostic code, (isToken_withDiagnostic a code).trans h.interior,
    fun grammar hg => (h.fits.2 grammar hg).withDiagnostic code⟩

/-! ### Building -/

/-- A node that is in order, of a kind that the grammar has. -/
theorem ofOrder {xs ys : List (Option Node)} (ho : (Node.ofSlots kind xs).InOrder)
    (hg : grammar?.all (·.seats kind) = true) (h : List.Forall₂ PartTwin xs ys) :
    (Node.ofSlots kind xs).TwinIn grammar? (.ofSlots kind ys) := by
  refine ⟨.ofOrder ho h, rfl, fun grammar hm => ?_⟩
  cases hm
  exact Grammar.suits_ofSlots hg

/-- A node of a kind that has a seat in the grammar suits it. -/
theorem ofSlots {xs ys : List (Option Node)} (hk : kind.itemsSlot? = none)
    (hg : grammar?.all (·.seats kind) = true) (h : List.Forall₂ PartTwin xs ys) :
    (Node.ofSlots kind xs).TwinIn grammar? (.ofSlots kind ys) :=
  ofOrder (inOrder_of_slots hk) hg h

theorem of (hk : kind.itemsSlot? = none) (hg : grammar?.all (·.seats kind) = true)
    (h : Twins xs ys) : (Node.of kind xs).TwinIn grammar? (.of kind ys) :=
  ofSlots hk hg (partTwins_of_twins h)

/-- A node with items in one of its slots. -/
theorem ofItems {xs ys : List (Option Node)} {index : Nat} {list : Node}
    (hk : kind.itemsSlot? = some index) (hm : kind.memberGrammar? = none)
    (hg : grammar?.all (·.seats kind) = true) (hl : xs[index]? = some (some list))
    (hi : list.IsItemList) (h : List.Forall₂ PartTwin xs ys) :
    (Node.ofSlots kind xs).TwinIn grammar? (.ofSlots kind ys) :=
  ofOrder (inOrder_of_items hk hm hl hi) hg h

/-- A bracketed list whose members suit it. -/
theorem bracketed {grammar : Grammar} {o o' list list' c c' : Node}
    (hk : kind.memberGrammar? = some grammar) (hg : grammar?.all (·.seats kind) = true)
    (ho : o.Twin o') (hl : list.Twin list') (hi : list.IsItemList)
    (hj : ∀ x ∈ list.children, grammar.Joins x) (hc : c.Twin c') :
    (Node.of kind [o, list, c]).TwinIn grammar? (.of kind [o', list', c']) := by
  refine ofOrder ⟨fun other ho _ => ?_, ?_⟩ hg (partTwins_of_twins ?_)
  · cases hk.symm.trans ho
    exact ⟨list, rfl, hi.kind, hj⟩
  · exact listsItems_of_slot (Kind.itemsSlot?_of_memberGrammar? hk) rfl hi
  · exact .cons ho (.cons hl (.cons hc .nil))

end TwinIn

end Node

/-! ## Items and qualifiers in order -/

open Node

/-- The same items are flagged for standing behind a late one. -/
theorem ItemOrder.twins_flag (order : ItemOrder) {xs ys : List Node} (h : Twins xs ys)
    (afterLate afterLast : Bool) :
    Twins (order.flag afterLate afterLast xs) (order.flag afterLate afterLast ys) := by
  induction h generalizing afterLate afterLast with
  | nil => exact .nil
  | @cons x y _ _ hx _ ih =>
    rw [flag, flag, hx.kind_eq]
    split
    · exact .cons hx (ih _ _)
    · refine .cons ?_ (ih _ _)
      split
      · exact hx.withDiagnostic _
      · exact hx

/-- Checking the order of twins gives twins. -/
theorem ItemOrder.twin_check (order : ItemOrder) {a b : Node} (h : a.Twin b) :
    (order.check a).Twin (order.check b) :=
  .list (order.twins_flag h.children false false)

/-- Items that are flagged stay items, and commas are passed over. -/
theorem ItemOrder.leafKinds_flag (order : ItemOrder) (afterLate afterLast : Bool)
    (items : List Node) :
    (order.flag afterLate afterLast items).map leafKind? = items.map leafKind? := by
  induction items generalizing afterLate afterLast with
  | nil => rfl
  | cons item rest ih =>
    rw [flag]
    split
    · rw [List.map_cons, List.map_cons, ih]
    · rw [List.map_cons, List.map_cons, ih]
      split
      · rw [leafKind?_withDiagnostic]
      · rfl

/-- It leaves commas between the items. -/
theorem ItemOrder.isItemList_check (order : ItemOrder) {list : Node} (h : list.IsItemList) :
    (order.check list).IsItemList := by
  have hkinds := order.leafKinds_flag false false list.children
  exact isItemList_list (alternates_of_leafKinds hkinds h.alternates)

/-- The same qualifiers are flagged as repeated or misplaced. -/
theorem Qualifiers.twins_flag (allowed : List Kind) {xs ys : List Node} (h : Twins xs ys)
    (seen : List Kind) : Twins (flag allowed seen xs) (flag allowed seen ys) := by
  induction h generalizing seen with
  | nil => exact .nil
  | @cons x y _ _ hx _ ih =>
    rw [flag, flag, hx.kind_eq]
    refine .cons ?_ (ih _)
    split
    · exact hx.withDiagnostic _
    · split
      · exact hx
      · exact hx.withDiagnostic _

/-- Checking qualifiers that are twins gives twins. -/
theorem Qualifiers.twin_check (allowed : List Kind) {xs ys : List Node} (h : Twins xs ys) :
    (check allowed xs).Twin (check allowed ys) :=
  .list (twins_flag allowed h [])

end TolerantSyntax
