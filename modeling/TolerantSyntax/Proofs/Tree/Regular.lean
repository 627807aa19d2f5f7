import TolerantSyntax.Proofs.Tree.Layout
import TolerantSyntax.Proofs.Tree.Leaves

/-!
# Regular trees

What every part of a tree is like, whatever recovery did, and what was set aside is not left out. An
interior node has the slots of its kind. A token that is not in the source has no text and says why
it was put in, and a node that was set aside says why.

So nothing in a regular tree is repaired silently: without diagnostics, there is no token that was
put in and nothing that was set aside.
-/

namespace TolerantSyntax

/-! ## Parts of a tree -/

/-- A node that stands anywhere in a tree, be it in text that was set aside. -/
inductive Node.PartOf (node : Node) : Node → Prop where
  | self : PartOf node node
  | slot {kind : Kind} {slots : List (Option Node)} {diagnostics : List Diagnostic} {part : Node}
      (hm : some part ∈ slots) (h : PartOf node part) :
      PartOf node (.composite kind slots diagnostics)
  | aside {token : Token} {invalid : Node} (hm : .invalid invalid ∈ token.leading ++ token.trailing)
      (h : PartOf node invalid) : PartOf node (.leaf token)

theorem Trivia.mem_collectAll {diagnostic : Diagnostic} {pieces : List Trivia} {invalid : Node}
    (hm : .invalid invalid ∈ pieces) (hd : diagnostic ∈ invalid.collect) :
    diagnostic ∈ collectAll pieces := by
  induction pieces with
  | nil => cases hm
  | cons piece rest ih =>
    rw [collectAll, List.mem_append]
    rcases List.mem_cons.mp hm with rfl | hm
    · exact Or.inl hd
    · exact Or.inr (ih hm)

namespace Node

theorem mem_collectSlots {diagnostic : Diagnostic} {slots : List (Option Node)} {part : Node}
    (hm : some part ∈ slots) (hd : diagnostic ∈ part.collect) :
    diagnostic ∈ collectSlots slots := by
  induction slots with
  | nil => cases hm
  | cons slot rest ih =>
    rcases List.mem_cons.mp hm with rfl | hrest
    · rw [collectSlots, List.mem_append]
      exact Or.inl hd
    · cases slot with
      | none => exact ih hrest
      | some first =>
        rw [collectSlots, List.mem_append]
        exact Or.inr (ih hrest)

/-- Parts of parts are parts. -/
theorem PartOf.trans {part node tree : Node} (h : part.PartOf node) (h' : node.PartOf tree) :
    part.PartOf tree := by
  induction h' with
  | self => exact h
  | slot hm _ ih => exact .slot hm ih
  | aside hm _ ih => exact .aside hm ih

theorem partOf_of_slot? {node part : Node} {index : Nat} (h : node.slot? index = some part) :
    part.PartOf node := by
  cases node with
  | leaf token => simp [slot?, slots] at h
  | composite kind slots diagnostics =>
    rw [slot?, Option.join_eq_some_iff] at h
    exact .slot (List.mem_of_getElem? h) .self

/-- What any part of a tree says is among the diagnostics of the tree. -/
theorem PartOf.mem_collect {part tree : Node} (h : part.PartOf tree) {diagnostic : Diagnostic}
    (hd : diagnostic ∈ part.ownDiagnostics) : diagnostic ∈ tree.collect := by
  induction h with
  | self =>
    cases part with
    | leaf token => simp [collect, Token.collect_eq, show diagnostic ∈ token.diagnostics from hd]
    | composite kind slots diagnostics => exact List.mem_append_left _ hd
  | slot hm _ ih => exact List.mem_append_right _ (mem_collectSlots hm ih)
  | @aside token invalid hm _ ih =>
    rw [collect, Token.collect_eq, List.append_assoc, ← Trivia.collectAll_append]
    exact List.mem_append_right _ (Trivia.mem_collectAll hm ih)

end Node

/-! ## Regularity -/

/-- A token that is not in the source has no text and says why it is there, and every node that was
set aside next to a token says why. -/
def Token.Accounted (token : Token) : Prop :=
  (token.missing = true →
    token.text = "" ∧ token.span.isEmpty = true ∧ token.diagnostics ≠ []) ∧
  ∀ invalid, .invalid invalid ∈ token.leading ++ token.trailing → invalid.ownDiagnostics ≠ []

/-- A leaf accounts for what was repaired, and an interior node has the slots of its kind. -/
def Node.Regular : Node → Prop
  | .leaf token => token.Accounted
  | .composite kind slots _ => kind.admits slots = true

/-- All that was set aside says why, and its parts are regular. -/
def Trivia.Regular (pieces : List Trivia) : Prop :=
  ∀ invalid, .invalid invalid ∈ pieces →
    invalid.ownDiagnostics ≠ [] ∧ ∀ part : Node, part.PartOf invalid → part.Regular

/-- All parts of a row of slots are regular. -/
def Node.SlotsRegular (slots : List (Option Node)) : Prop :=
  ∀ node, some node ∈ slots → ∀ part : Node, part.PartOf node → part.Regular

namespace Trivia

variable {xs ys : List Trivia}

theorem regular_append : Regular (xs ++ ys) ↔ Regular xs ∧ Regular ys := by
  constructor
  · exact fun h => ⟨fun invalid hm => h invalid (List.mem_append_left _ hm),
      fun invalid hm => h invalid (List.mem_append_right _ hm)⟩
  · rintro ⟨hx, hy⟩ invalid hm
    exact (List.mem_append.mp hm).elim (hx invalid) (hy invalid)

/-- Trivia in which nothing was set aside. -/
theorem regular_of_forall (h : ∀ invalid, .invalid invalid ∉ xs) : Regular xs :=
  fun invalid hm => absurd hm (h invalid)

theorem regular_singleton {invalid : Node} (hd : invalid.ownDiagnostics ≠ [])
    (h : Node.SlotsRegular [some invalid]) : Regular [.invalid invalid] := by
  intro other hm
  rw [List.mem_singleton, Trivia.invalid.injEq] at hm
  exact hm ▸ ⟨hd, h invalid (List.mem_singleton_self _)⟩

end Trivia

namespace Node

variable {xs ys : List (Option Node)}

theorem slotsRegular_append : SlotsRegular (xs ++ ys) ↔ SlotsRegular xs ∧ SlotsRegular ys := by
  simp only [SlotsRegular, List.mem_append, or_imp, forall_and]

theorem slotsRegular_nil : SlotsRegular [] :=
  fun _ hm => absurd hm List.not_mem_nil

theorem slotsRegular_none : SlotsRegular [none] :=
  fun _ hm => absurd (List.mem_singleton.mp hm) (Option.some_ne_none _)

theorem slotsRegular_singleton {node : Node} :
    SlotsRegular [some node] ↔ ∀ part : Node, part.PartOf node → part.Regular := by
  simp only [SlotsRegular, List.mem_singleton, Option.some.injEq, forall_eq]

/-- A leaf is regular if its trivia is, and if it is empty and has a diagnostic where it is missing.
-/
theorem slotsRegular_leaf {token : Token} :
    SlotsRegular [some (.leaf token)] ↔
      (token.missing = true →
        token.text = "" ∧ token.span.isEmpty = true ∧ token.diagnostics ≠ []) ∧
      Trivia.Regular (token.leading ++ token.trailing) := by
  rw [slotsRegular_singleton]
  constructor
  · intro h
    refine ⟨(h _ .self).1, fun invalid hm => ⟨(h _ .self).2 invalid hm, fun part hp => ?_⟩⟩
    exact h part (.aside hm hp)
  · rintro ⟨hmissing, htrivia⟩ part hp
    cases hp with
    -- a part of a leaf is the leaf itself or a part of what was set aside
    | self => exact ⟨hmissing, fun invalid hm => (htrivia invalid hm).1⟩
    | aside hm hp => exact (htrivia _ hm).2 part hp

/-- A node is regular if its layout admits its slots, and they are regular. -/
theorem slotsRegular_composite {kind : Kind} {slots : List (Option Node)}
    {diagnostics : List Diagnostic} :
    SlotsRegular [some (.composite kind slots diagnostics)] ↔
      kind.admits slots = true ∧ SlotsRegular slots := by
  rw [slotsRegular_singleton]
  constructor
  · exact fun h => ⟨h _ .self, fun node hm part hp => h part (.slot hm hp)⟩
  · rintro ⟨hkind, hslots⟩ part hp
    cases hp with
    | self => exact hkind
    | slot hm hp => exact hslots _ hm part hp

/-- A diagnostic more makes nothing irregular. -/
theorem slotsRegular_withDiagnostic {node : Node} (code : DiagnosticCode)
    (h : SlotsRegular [some node]) : SlotsRegular [some (node.withDiagnostic code)] := by
  cases node with
  | leaf token =>
    rw [slotsRegular_leaf] at h
    refine slotsRegular_leaf.mpr ⟨fun hm => ?_, h.2⟩
    obtain ⟨htext, hspan, -⟩ := h.1 hm
    exact ⟨htext, hspan, by simp [Token.withDiagnostic]⟩
  | composite kind slots diagnostics =>
    exact slotsRegular_composite.mpr (slotsRegular_composite.mp h)

/-- A token that is put in is empty and carries its diagnostic. -/
theorem slotsRegular_missing (kind : Kind) (offset : Nat) (code : DiagnosticCode) :
    SlotsRegular [some (.missing kind offset code)] :=
  slotsRegular_leaf.mpr ⟨fun _ => ⟨rfl, Span.isEmpty_empty offset, List.cons_ne_nil _ _⟩,
    Trivia.regular_of_forall fun _ => List.not_mem_nil⟩

/-- What is set aside says why. -/
theorem regular_setAside {node : Node} (code : DiagnosticCode) (h : SlotsRegular [some node]) :
    Trivia.Regular [node.setAside code] :=
  Trivia.regular_singleton (by cases node <;> simp [withDiagnostic, ownDiagnostics,
    Token.withDiagnostic]) (slotsRegular_withDiagnostic code h)

/-- A regular tree without diagnostics has been read without recovery. -/
theorem unrepaired_of_diagnostics_eq_nil {tree : Node} (h : SlotsRegular [some tree])
    (hd : tree.diagnostics = []) {token : Token} (ht : (leaf token).PartOf tree) :
    token.missing = false ∧ ∀ invalid, .invalid invalid ∉ token.leading ++ token.trailing := by
  have hnone {part : Node} (hp : part.PartOf tree) : part.ownDiagnostics = [] := by
    have hcollect : tree.collect = [] := (hd ▸ tree.diagnostics_perm).symm.eq_nil
    refine List.eq_nil_iff_forall_not_mem.mpr fun diagnostic hm => ?_
    have := hp.mem_collect hm
    rw [hcollect] at this
    exact List.not_mem_nil this
  obtain ⟨hmissing, haside⟩ := slotsRegular_singleton.mp h _ ht
  -- a repair would have to say why, and what any part says is a diagnostic of the tree
  refine ⟨Bool.eq_false_iff.mpr fun hm => (hmissing hm).2.2 (hnone ht), fun invalid hm => ?_⟩
  refine haside invalid hm (hnone ?_)
  exact PartOf.trans (.aside hm .self) ht

end Node

end TolerantSyntax
