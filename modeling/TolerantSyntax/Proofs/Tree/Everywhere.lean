import TolerantSyntax.Proofs.Tree.Edit

/-!
# What holds of all parts of a tree

Many properties of a tree are a condition on each of its nodes. If the condition sees of a node no
more than its kind and a sketch of its slots, which is the kinds and diagnostics of its parts and of
their parts, then it cannot tell a node from the same node after an edit: edits of a tree touch the
trivia of a token and keep all that is sketched. So what holds of all parts of a tree, and of what
is put next to a token of it, holds of all parts of the edited tree.
-/

namespace TolerantSyntax

namespace Node

/-! ## Sketches -/

/-- What a sketch shows of a node itself. -/
structure Label where
  kind : Kind
  isToken : Bool
  codes : List DiagnosticCode

def label (node : Node) : Label :=
  ⟨node.kind, node.isToken, node.ownDiagnostics.map Diagnostic.code⟩

/-- What is seen of a part: its label and those of the parts in its own slots. -/
def sketch (node : Node) : Label × List (Option Label) :=
  (node.label, node.slots.map (Option.map label))

/-- What is seen of a row of slots. -/
def sketches (slots : List (Option Node)) : List (Option (Label × List (Option Label))) :=
  slots.map (Option.map sketch)

theorem labels_slots {slots slots' : List (Option Node)} (h : sketches slots' = sketches slots) :
    slots'.map (Option.map label) = slots.map (Option.map label) := by
  have hlabels (slots : List (Option Node)) :
      slots.map (Option.map label) = (sketches slots).map (Option.map Prod.fst) := by
    simp [sketches, sketch, Function.comp_def]
  rw [hlabels, hlabels, h]

theorem labels_children {a b : Node} (h : a.sketch = b.sketch) :
    a.children.map label = b.children.map label := by
  have hlabels (node : Node) :
      node.children.map label = (node.slots.map (Option.map label)).filterMap id := by
    simp [children, List.map_filterMap, List.filterMap_map]
  rw [hlabels, hlabels, show a.slots.map _ = b.slots.map _ from congrArg Prod.snd h]

/-- What is seen of a slot that has a part in it. -/
theorem exists_slot_of_sketches {slots slots' : List (Option Node)} {index : Nat} {part : Node}
    (h : sketches slots' = sketches slots) (hp : slots[index]? = some (some part)) :
    ∃ other, slots'[index]? = some (some other) ∧ other.sketch = part.sketch := by
  have hslot : (sketches slots')[index]? = some (some part.sketch) := by
    rw [h, sketches, List.getElem?_map, hp]
    rfl
  rw [sketches, List.getElem?_map, Option.map_eq_some_iff] at hslot
  obtain ⟨slot, hslot, hsketch⟩ := hslot
  obtain ⟨other, rfl, heq⟩ := Option.map_eq_some_iff.mp hsketch
  exact ⟨other, hslot, heq⟩

/-- A condition that says nothing of leaves, and sees no more of an interior node than its kind and
the sketches of its slots. -/
class Sketched (P : Node → Prop) : Prop where
  leaf (token : Token) : P (.leaf token)
  congr {kind : Kind} {slots slots' : List (Option Node)}
    {diagnostics diagnostics' : List Diagnostic}
    (h : sketches slots' = sketches slots) (hp : P (.composite kind slots diagnostics)) :
    P (.composite kind slots' diagnostics')

instance {P Q : Node → Prop} [Sketched P] [Sketched Q] : Sketched fun node => P node ∧ Q node where
  leaf token := ⟨Sketched.leaf token, Sketched.leaf token⟩
  congr h hp := ⟨Sketched.congr h hp.1, Sketched.congr h hp.2⟩

/-! ## Conditions on all parts -/

/-- The condition holds of all parts of the tree. -/
def Everywhere (P : Node → Prop) (node : Node) : Prop :=
  ∀ part : Node, part.PartOf node → P part

/-- The condition holds of all parts of the nodes in a row of slots. -/
def SlotsEverywhere (P : Node → Prop) (slots : List (Option Node)) : Prop :=
  ∀ node, some node ∈ slots → node.Everywhere P

end Node

/-- The condition holds of all parts of what was set aside. -/
def Trivia.Everywhere (P : Node → Prop) (pieces : List Trivia) : Prop :=
  ∀ invalid, .invalid invalid ∈ pieces → invalid.Everywhere P

variable {P : Node → Prop}

namespace Trivia

variable {xs ys : List Trivia}

theorem everywhere_nil : Everywhere P [] :=
  fun _ hm => absurd hm List.not_mem_nil

theorem everywhere_append : Everywhere P (xs ++ ys) ↔ Everywhere P xs ∧ Everywhere P ys := by
  simp only [Everywhere, List.mem_append, or_imp, forall_and]

/-- Blanks and comments hold no node. -/
theorem everywhere_of_isPlain (h : ∀ piece ∈ xs, piece.IsPlain) : Everywhere P xs :=
  fun _ hm => (h _ hm).elim

theorem everywhere_singleton {invalid : Node} (h : invalid.Everywhere P) :
    Everywhere P [.invalid invalid] := by
  intro other hm
  rw [List.mem_singleton, Trivia.invalid.injEq] at hm
  exact hm ▸ h

end Trivia

namespace Node

variable {kind : Kind} {slots : List (Option Node)} {diagnostics : List Diagnostic}

/-- A condition holds everywhere if it holds of the node and everywhere in its slots. -/
theorem everywhere_composite :
    (composite kind slots diagnostics).Everywhere P ↔
      P (composite kind slots diagnostics) ∧ SlotsEverywhere P slots := by
  constructor
  · exact fun h => ⟨h _ .self, fun node hm part hp => h part (.slot hm hp)⟩
  · rintro ⟨hself, hslots⟩ part hp
    cases hp with
    | self => exact hself
    | slot hm hp => exact hslots _ hm part hp

theorem slotsEverywhere_nil : SlotsEverywhere P [] :=
  fun _ hm => absurd hm List.not_mem_nil

theorem slotsEverywhere_cons {slot : Option Node} :
    SlotsEverywhere P (slot :: slots) ↔
      (∀ node ∈ slot, node.Everywhere P) ∧ SlotsEverywhere P slots := by
  simp only [SlotsEverywhere, List.mem_cons, or_imp, forall_and, Option.mem_def, eq_comm]

theorem slotsEverywhere_append {xs ys : List (Option Node)} :
    SlotsEverywhere P (xs ++ ys) ↔ SlotsEverywhere P xs ∧ SlotsEverywhere P ys := by
  simp only [SlotsEverywhere, List.mem_append, or_imp, forall_and]

theorem slotsEverywhere_singleton {node : Node} :
    SlotsEverywhere P [some node] ↔ node.Everywhere P := by
  simp only [SlotsEverywhere, List.mem_singleton, Option.some.injEq, forall_eq]

theorem slotsEverywhere_none : SlotsEverywhere P [none] :=
  fun _ hm => absurd (List.mem_singleton.mp hm) (Option.some_ne_none _)

section Sketched

variable [Sketched P]

/-- A token has no parts but what is set aside at it. -/
theorem everywhere_leaf {token : Token} :
    (leaf token).Everywhere P ↔ Trivia.Everywhere P (token.leading ++ token.trailing) := by
  constructor
  · exact fun h invalid hm part hp => h part (.aside hm hp)
  · intro h part hp
    cases hp with
    | self => exact Sketched.leaf token
    | aside hm hp => exact h _ hm part hp

/-- A token that is put in has no trivia. -/
theorem everywhere_missing (kind : Kind) (offset : Nat) (code : DiagnosticCode) :
    (missing kind offset code).Everywhere P :=
  everywhere_leaf.mpr Trivia.everywhere_nil

/-- A sketched condition does not see the diagnostics that are put on a node. -/
theorem Everywhere.withDiagnostic {node : Node} (h : node.Everywhere P) (code : DiagnosticCode) :
    (node.withDiagnostic code).Everywhere P := by
  cases node with
  | leaf token =>
    have htoken := everywhere_leaf.mp h
    exact everywhere_leaf.mpr htoken
  | composite kind slots diagnostics =>
    obtain ⟨hself, hslots⟩ := everywhere_composite.mp h
    exact everywhere_composite.mpr ⟨Sketched.congr rfl hself, hslots⟩

theorem Everywhere.setAside {node : Node} (h : node.Everywhere P) (code : DiagnosticCode) :
    Trivia.Everywhere P [node.setAside code] :=
  Trivia.everywhere_singleton (h.withDiagnostic code)

end Sketched

/-! ## Edits -/

/-- After an edit the condition holds of all parts of the row as before, and a sketch shows the same
of it. -/
structure Keeps (P : Node → Prop) (before after : List (Option Node)) : Prop where
  everywhere : SlotsEverywhere P before → SlotsEverywhere P after
  sketches : sketches after = sketches before

/-- An edit of tokens that keeps the condition of leaves. -/
def Keeping (P : Node → Prop) (edit : Token → Token) : Prop :=
  ∀ token, Keeps P [some (leaf token)] [some (leaf (edit token))]

namespace Keeps

variable {before after : List (Option Node)}

theorem cons (h : Keeps P before after) (slot : Option Node) :
    Keeps P (slot :: before) (slot :: after) where
  everywhere hs :=
    slotsEverywhere_cons.mpr ((slotsEverywhere_cons.mp hs).imp_right h.everywhere)
  sketches := congrArg (slot.map sketch :: ·) h.sketches

/-- A node that is edited by itself satisfies the condition as before. -/
theorem node {node changed : Node} (h : Keeps P [some node] [some changed])
    (hs : node.Everywhere P) : changed.Everywhere P :=
  slotsEverywhere_singleton.mp (h.everywhere (slotsEverywhere_singleton.mpr hs))

theorem append {node changed : Node} (h : Keeps P [some node] [some changed])
    (rest : List (Option Node)) : Keeps P (some node :: rest) (some changed :: rest) where
  everywhere hs := by
    obtain ⟨hnode, hrest⟩ := slotsEverywhere_cons.mp hs
    have hchanged := h.node (hnode node rfl)
    exact slotsEverywhere_cons.mpr ⟨fun other ho => Option.some.inj ho ▸ hchanged, hrest⟩
  sketches := by
    have hs : some changed.sketch = some node.sketch := List.singleton_inj.mp h.sketches
    exact congrArg (· :: Node.sketches rest) hs

variable [Sketched P]

theorem leaf {token changed : Token} (hkind : changed.kind = token.kind)
    (hown : changed.diagnostics = token.diagnostics)
    (h : Trivia.Everywhere P (token.leading ++ token.trailing) →
      Trivia.Everywhere P (changed.leading ++ changed.trailing)) :
    Keeps P [some (.leaf token)] [some (.leaf changed)] where
  everywhere hs := by
    rw [slotsEverywhere_singleton, everywhere_leaf] at hs ⊢
    exact h hs
  sketches := by
    simp [Node.sketches, sketch, label, isToken, ownDiagnostics, hkind, hown, slots]

theorem composite (h : Keeps P before after) (kind : Kind) (diagnostics : List Diagnostic) :
    Keeps P [some (.composite kind before diagnostics)]
      [some (.composite kind after diagnostics)] where
  everywhere hs := by
    rw [slotsEverywhere_singleton, everywhere_composite] at hs ⊢
    exact ⟨Sketched.congr h.sketches hs.1, h.everywhere hs.2⟩
  sketches := by
    have hlabels := labels_slots h.sketches
    exact congrArg (fun labels => [some (Label.mk kind false _, labels)]) hlabels

end Keeps

mutual

/-- By induction down to the first token. All nodes on the way keep their sketch, so the condition
holds of them as before. -/
theorem keeps_mapFirstToken? [Sketched P] {edit : Token → Token}
    (hedit : Keeping P edit) :
    (node : Node) → {changed : Node} →
    node.mapFirstToken? edit = some changed → Keeps P [some node] [some changed]
  | .leaf token, _, h => by
    cases h
    exact hedit token
  | .composite kind slots diagnostics, _, h => by
    rw [mapFirstToken?, Option.map_eq_some_iff] at h
    obtain ⟨others, h, rfl⟩ := h
    exact (keeps_slotsMapFirstToken? hedit slots h).composite kind diagnostics

theorem keeps_slotsMapFirstToken? [Sketched P] {edit : Token → Token}
    (hedit : Keeping P edit) :
    (slots : List (Option Node)) → {changed : List (Option Node)} →
      slotsMapFirstToken? edit slots = some changed →
      Keeps P slots changed
  | [], _, h => nomatch h
  | none :: rest, _, h => by
    rw [slotsMapFirstToken?, Option.map_eq_some_iff] at h
    obtain ⟨others, h, rfl⟩ := h
    exact (keeps_slotsMapFirstToken? hedit rest h).cons none
  | some node :: rest, _, h => by
    rw [slotsMapFirstToken?] at h
    split at h
    · next first hn =>
      cases h
      exact (keeps_mapFirstToken? hedit node hn).append rest
    · rw [Option.map_eq_some_iff] at h
      obtain ⟨others, h, rfl⟩ := h
      exact (keeps_slotsMapFirstToken? hedit rest h).cons (some node)

end

mutual

/-- Down to the last token, in the same way. -/
theorem keeps_mapLastToken? [Sketched P] {edit : Token → Token}
    (hedit : Keeping P edit) :
    (node : Node) → {changed : Node} →
    node.mapLastToken? edit = some changed → Keeps P [some node] [some changed]
  | .leaf token, _, h => by
    cases h
    exact hedit token
  | .composite kind slots diagnostics, _, h => by
    rw [mapLastToken?, Option.map_eq_some_iff] at h
    obtain ⟨others, h, rfl⟩ := h
    exact (keeps_slotsMapLastToken? hedit slots h).composite kind diagnostics

theorem keeps_slotsMapLastToken? [Sketched P] {edit : Token → Token}
    (hedit : Keeping P edit) :
    (slots : List (Option Node)) → {changed : List (Option Node)} →
      slotsMapLastToken? edit slots = some changed →
      Keeps P slots changed
  | [], _, h => nomatch h
  | none :: rest, _, h => by
    rw [slotsMapLastToken?, Option.map_eq_some_iff] at h
    obtain ⟨others, h, rfl⟩ := h
    exact (keeps_slotsMapLastToken? hedit rest h).cons none
  | some node :: rest, _, h => by
    rw [slotsMapLastToken?] at h
    split at h
    · next changed hn =>
      cases h
      exact (keeps_slotsMapLastToken? hedit rest hn).cons (some node)
    · rw [Option.map_eq_some_iff] at h
      obtain ⟨last, h, rfl⟩ := h
      exact (keeps_mapLastToken? hedit node h).append rest

end

variable [Sketched P]

/-- Trivia before a node that has a token keeps the condition. -/
theorem Everywhere.withLeading {node : Node} {trivia : List Trivia} (h : node.Everywhere P)
    (ht : node.HasToken) (hs : Trivia.Everywhere P trivia) :
    (node.withLeading trivia).Everywhere P := by
  have hedit : Keeping P (·.withLeading trivia) := by
    refine fun token => .leaf rfl rfl fun htoken => ?_
    rw [show (token.withLeading trivia).leading = trivia ++ token.leading from rfl,
      List.append_assoc]
    exact Trivia.everywhere_append.mpr ⟨hs, htoken⟩
  unfold Node.withLeading
  split
  · next changed hc =>
    exact (keeps_mapFirstToken? hedit _ hc).node h
  · next hn =>
    rw [HasToken, firstToken?_of_mapFirstToken?_eq_none _ hn] at ht
    cases ht
  · exact h

/-- Trivia behind a node that has a token keeps the condition. -/
theorem Everywhere.withTrailing {node : Node} {trivia : List Trivia} (h : node.Everywhere P)
    (ht : node.HasToken) (hs : Trivia.Everywhere P trivia) :
    (node.withTrailing trivia).Everywhere P := by
  have hedit : Keeping P (·.withTrailing trivia) := by
    refine fun token => .leaf rfl rfl fun htoken => ?_
    rw [show (token.withTrailing trivia).trailing = token.trailing ++ trivia from rfl,
      ← List.append_assoc]
    exact Trivia.everywhere_append.mpr ⟨htoken, hs⟩
  unfold Node.withTrailing
  split
  · exact h
  · split
    · next changed hc =>
      exact (keeps_mapLastToken? hedit _ hc).node h
    · next hn =>
      rw [HasToken, firstToken?_of_mapLastToken?_eq_none _ hn] at ht
      cases ht
    · exact h

end Node

end TolerantSyntax
