import TolerantSyntax.Proofs.Tree.Edit
import TolerantSyntax.Proofs.Tree.Tokens

/-!
# Edits conserve text, shape and diagnostics

Trivia that is put at the first or the last token of a node adds its text and its diagnostics to the
node and changes nothing else. A node without tokens gets a token to carry the trivia: it has one
part more then, and still its text and its diagnostics gain the same (`edits_conserve`).
-/

namespace TolerantSyntax.Node

/-! ## What an edit conserves -/

/-- `after` is `before` with text in front and behind and with more diagnostics, of the same kind,
and of the same shape too if there was a token. -/
structure Conserves (front back : String) (gained : List Diagnostic) (before after : Node) :
    Prop where
  source : after.source = front ++ before.source ++ back
  kind : after.kind = before.kind
  isIsomorphic : before.tokens ≠ [] → after.isIsomorphic before = true
  diagnostics : after.diagnostics.Perm (before.diagnostics ++ gained)

/-- What is collected anyhow is listed in order. -/
theorem diagnostics_perm_of_collect {before after : Node} {gained : List Diagnostic}
    (h : after.collect.Perm (before.collect ++ gained)) :
    after.diagnostics.Perm (before.diagnostics ++ gained) :=
  (after.diagnostics_perm.trans h).trans (before.diagnostics_perm.symm.append_right gained)

namespace Conserves

variable {front back : List Trivia} {before after : Node}

/-- A node with a token gains what its row of slots gains. -/
theorem of_gains (h : Gains front back [some before] [some after]) :
    Conserves (Trivia.sources front) (Trivia.sources back)
      (Trivia.collectAll front ++ Trivia.collectAll back) before after := by
  have hsource := h.source
  have hcollect := h.collect
  have hiso := h.isomorphic
  simp only [slotsSource, String.append_empty] at hsource
  simp only [collectSlots, List.append_nil, List.append_assoc] at hcollect
  simp only [isomorphicSlots, Bool.and_true] at hiso
  constructor
  · exact hsource
  · exact kind_eq_of_isIsomorphic hiso
  · intro _
    exact hiso
  · apply diagnostics_perm_of_collect
    apply hcollect.trans
    rw [← List.append_assoc, ← List.append_assoc]
    exact List.perm_append_comm.append_right _

theorem of_perm {front back : String} {gained gained' : List Diagnostic}
    (h : Conserves front back gained before after) (hperm : gained.Perm gained') :
    Conserves front back gained' before after :=
  { h with diagnostics := h.diagnostics.trans (hperm.append_left _) }

end Conserves

/-! ## Trivia in front and behind -/

theorem source_carrier (offset : Nat) (front back : List Trivia) :
    (((carrier offset).withLeading front).withTrailing back).source =
      Trivia.sources front ++ Trivia.sources back := by
  simp [carrier, Token.absent, Token.withLeading, Token.withTrailing, Token.source_eq]

theorem collect_carrier (offset : Nat) (front back : List Trivia) :
    (((carrier offset).withLeading front).withTrailing back).collect =
      Trivia.collectAll front ++ Trivia.collectAll back := by
  simp [carrier, Token.absent, Token.withLeading, Token.withTrailing, Token.collect_eq]

/-- A node without tokens that gets a carrier in one of its slots. -/
theorem conserves_carrier (xs ys : List (Option Node)) {kind : Kind}
    {diagnostics : List Diagnostic} (h : slotsFirstToken? (xs ++ ys) = none) (offset : Nat)
    (front back : List Trivia) :
    Conserves (Trivia.sources front) (Trivia.sources back)
      (Trivia.collectAll front ++ Trivia.collectAll back)
      (composite kind (xs ++ ys) diagnostics)
      (composite kind
        (xs ++ some (leaf (((carrier offset).withLeading front).withTrailing back)) :: ys)
        diagnostics) := by
  obtain ⟨hxs, hys⟩ : slotsFirstToken? xs = none ∧ slotsFirstToken? ys = none := by
    rwa [slotsFirstToken?_append, Option.or_eq_none_iff] at h
  constructor
  · simp [source, slotsSource_append, slotsSource, source_carrier,
      (leaves_of_slotsFirstToken?_eq_none xs hxs).1, (leaves_of_slotsFirstToken?_eq_none ys hys).1]
  · rfl
  · intro htokens
    rw [← hasToken_iff, HasToken, firstToken?, h] at htokens
    cases htokens
  · apply diagnostics_perm_of_collect
    simp only [collect, collectSlots_append, collectSlots, collect_carrier, List.append_assoc]
    refine .append_left _ (.append_left _ ?_)
    rw [← List.append_assoc]
    exact List.perm_append_comm

theorem conserves_withLeading (node : Node) (trivia : List Trivia) :
    Conserves (Trivia.sources trivia) "" (Trivia.collectAll trivia) node
      (node.withLeading trivia) := by
  unfold withLeading
  split
  · next changed hm =>
    simpa [Trivia.collectAll, Trivia.sources] using Conserves.of_gains (gains_mapFirstToken? _ hm)
  · next kind slots diagnostics hm =>
    have hnone := firstToken?_of_mapFirstToken?_eq_none _ hm
    simpa [Trivia.collectAll, Trivia.sources, Token.withTrailing_nil] using
      conserves_carrier [] slots hnone _ trivia []
  · next hm => simp [mapFirstToken?] at hm

theorem conserves_withTrailing (node : Node) (trivia : List Trivia) :
    Conserves "" (Trivia.sources trivia) (Trivia.collectAll trivia) node
      (node.withTrailing trivia) := by
  unfold withTrailing
  split
  · next hempty =>
    rw [List.isEmpty_iff.mp hempty]
    constructor
    · simp [Trivia.sources]
    · rfl
    · intro _
      exact node.isIsomorphic_self
    · rw [Trivia.collectAll, List.append_nil]
  · split
    · next changed hm =>
      simpa [Trivia.collectAll, Trivia.sources] using Conserves.of_gains (gains_mapLastToken? _ hm)
    · next kind slots diagnostics hm =>
      have hnone := firstToken?_of_mapLastToken?_eq_none _ hm
      rw [firstToken?, ← List.append_nil slots] at hnone
      simpa [Trivia.collectAll, Trivia.sources, Token.withLeading_nil] using
        conserves_carrier slots [] hnone _ [] trivia
    · next hm => simp [mapLastToken?] at hm

/-! ## Diagnostics and text set aside -/

theorem source_withDiagnostic (node : Node) (code : DiagnosticCode) :
    (node.withDiagnostic code).source = node.source := by
  simpa [slotsSource] using slotsSource_withDiagnostic node code

theorem collect_withDiagnostic (node : Node) (code : DiagnosticCode) :
    (node.withDiagnostic code).collect.Perm (⟨code, node.span⟩ :: node.collect) := by
  simpa [collectSlots] using collectSlots_withDiagnostic node code

theorem conserves_withDiagnostic (node : Node) (code : DiagnosticCode) :
    Conserves "" "" [⟨code, node.span⟩] node (node.withDiagnostic code) := by
  constructor
  · simp [source_withDiagnostic]
  · exact kind_withDiagnostic node code
  · intro _
    exact isIsomorphic_withDiagnostic node code
  · apply diagnostics_perm_of_collect
    exact (collect_withDiagnostic node code).trans (List.perm_append_singleton _ _).symm

/-- The edits of a node conserve its text and its diagnostics, its kind, and its shape if it has a
token. To text and diagnostics they add those of what they put in front or behind. -/
theorem edits_conserve (node invalid : Node) (trivia : List Trivia) (code : DiagnosticCode) :
    Conserves invalid.source "" (⟨code, invalid.span⟩ :: invalid.diagnostics) node
        (node.withLeadingInvalid invalid code) ∧
      Conserves "" invalid.source (⟨code, invalid.span⟩ :: invalid.diagnostics) node
        (node.withTrailingInvalid invalid code) ∧
      Conserves "" (Trivia.sources trivia) (Trivia.collectAll trivia) node
        (node.withTrailing trivia) ∧
      Conserves "" "" [⟨code, node.span⟩] node (node.withDiagnostic code) := by
  have haside : Trivia.sources [invalid.setAside code] = invalid.source := by
    rw [Trivia.sources, Trivia.sources, String.append_empty, setAside, Trivia.source,
      source_withDiagnostic]
  have hgained : (Trivia.collectAll [invalid.setAside code]).Perm
      (⟨code, invalid.span⟩ :: invalid.diagnostics) := by
    rw [Trivia.collectAll, Trivia.collectAll, List.append_nil, setAside, Trivia.collect]
    exact (collect_withDiagnostic invalid code).trans (invalid.diagnostics_perm.symm.cons _)
  have hleading := conserves_withLeading node [invalid.setAside code]
  have htrailing := conserves_withTrailing node [invalid.setAside code]
  rw [haside] at hleading htrailing
  exact ⟨hleading.of_perm hgained, htrailing.of_perm hgained, conserves_withTrailing node trivia,
    conserves_withDiagnostic node code⟩

end TolerantSyntax.Node
