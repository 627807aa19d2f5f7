import TolerantSyntax.Parse
import TolerantSyntax.Proofs.Parse.Fragment

/-!
# Positions are truthful

Each leaf of a tree says where it stands. A token of the source stands where it says, whatever was
made of it: set aside in trivia, waiting for a later token, or taken for one of another kind. A
token that was put in stands between two characters and takes no room. And leaves stand in the order
in which the tree lists them.

What carries this through a parse is that the leaves read so far and those that wait are one ordered
row, with `lastEnd` between the two, which is where a token is put in.
-/

namespace TolerantSyntax

/-! ## Leaves in order -/

/-- The leaf stands in the source where it says, or was put in between two characters. -/
structure Mark.IsTrue (source : String) (mark : Mark) : Prop where
  within : mark.span.Within source
  spells : mark.missing = false → mark.span.Spells source mark.text
  empty : mark.missing = true → mark.span.stop = mark.span.start

/-- One leaf ends before another begins. -/
def Mark.Before (first second : Mark) : Prop :=
  first.span.stop ≤ second.span.start

namespace Trivia

/-- Text between tokens has no leaves. -/
theorem marks_of_isPlain {pieces : List Trivia} (h : ∀ piece ∈ pieces, piece.IsPlain) :
    marks pieces = [] := by
  induction pieces with
  | nil => rfl
  | cons piece rest ih =>
    obtain ⟨hpiece, hrest⟩ := List.forall_mem_cons.mp h
    have hleaves : piece.leaves = [] := by
      cases piece with
      | invalid node => exact hpiece.elim
      | _ => rfl
    rw [marks, leavesAll, hleaves, List.nil_append]
    exact ih hrest

end Trivia

namespace Front

open Node

/-- The leaves so far: those of the row, and behind them those of the text that waits. -/
def places (front : Front) (row : Row) : List Mark :=
  marks row ++ Trivia.marks front.pending

/-- All that has been found so far. -/
def found (front : Front) (row : Row) : List Diagnostic :=
  collectSlots row ++ Trivia.collectAll front.pending

/-- What a parse of the source says about places is true. -/
structure IsTrue (source : String) (front : Front) (row : Row) : Prop where
  source_eq : front.source = source.toList
  valid : (front.scanner .code).Valid
  places : ∀ mark ∈ front.places row, mark.IsTrue source
  ordered : (front.places row).Pairwise Mark.Before
  reached : ∀ mark ∈ front.places row, mark.span.stop ≤ front.offset
  /-- What was read ends by `lastEnd`, and what waits begins behind it. -/
  read : ∀ mark ∈ marks row, mark.span.stop ≤ front.lastEnd
  waits : ∀ mark ∈ Trivia.marks front.pending, front.lastEnd ≤ mark.span.start
  lastEnd : IsBoundary source front.lastEnd
  lastEnd_le : front.lastEnd ≤ front.offset
  found : ∀ diagnostic ∈ front.found row, diagnostic.span.Within source

variable {source : String} {front : Front} {row : Row}

/-- Nothing has been read. -/
theorem isTrue_start (source : String) : IsTrue source (Parser.ofSource source).front [] := by
  refine ⟨rfl, ⟨[], rfl, rfl⟩, ?_, .nil, ?_, ?_, ?_, isBoundary_zero source, Nat.le_refl _, ?_⟩
  all_goals simp [Front.places, Front.found, Parser.front_ofSource, collectSlots, Trivia.collectAll]

/-! ## One token further -/

/-- The only leaf of a token of the source is the token. -/
theorem marks_next (front : Front) (mode : LexerMode) :
    marks [some (.leaf (front.next mode))] = [(front.next mode).mark] := by
  have hplain := (Scanner.isStep_next (front.scanner mode)).plain
  rw [List.forall_mem_append] at hplain
  rw [marks_leaf, next, Trivia.marks_of_isPlain hplain.1, Trivia.marks_of_isPlain hplain.2]
  rfl

theorem collectSlots_next (front : Front) (mode : LexerMode) :
    collectSlots [some (.leaf (front.next mode))] = (front.next mode).diagnostics := by
  have hplain := (Scanner.isStep_next (front.scanner mode)).plain
  rw [List.forall_mem_append] at hplain
  simp only [collectSlots, collect, Token.collect_eq, next, Trivia.collectAll_of_isPlain hplain.1,
    Trivia.collectAll_of_isPlain hplain.2, List.append_nil]

theorem marks_front_leaf (front : Front) (mode : LexerMode) (kind : Kind) :
    marks [some (front.leaf mode kind)] =
      Trivia.marks front.pending ++ [(front.next mode).mark] := by
  rw [← marks_next, marks_leaf, leaf, marks_leaf]
  simp [Token.withKind, Token.withLeading, Token.mark]

theorem collectSlots_leaf (front : Front) (mode : LexerMode) (kind : Kind) :
    (collectSlots [some (front.leaf mode kind)]).Perm
      (Trivia.collectAll front.pending ++ (front.next mode).diagnostics) := by
  rw [← collectSlots_next]
  simp only [leaf, collectSlots, collect, Token.collect_eq, Token.withKind, Token.withLeading,
    Trivia.collectAll_append, List.append_nil, ← List.append_assoc]
  exact .append_right _ (.append_right _ List.perm_append_comm)

namespace IsTrue

/-- What the token ahead says is true. -/
theorem next (h : IsTrue source front row) (mode : LexerMode) :
    (front.next mode).mark.IsTrue source ∧ front.offset ≤ (front.next mode).span.start ∧
      (front.next mode).span.stop ≤ (front.scanner mode).next.2.offset := by
  have hstep := Scanner.isStep_next (front.scanner mode)
  have hvalid : (front.scanner mode).Valid := h.valid
  have hspells := hvalid.spells_next
  rw [show (front.scanner mode).source = source.toList from h.source_eq, String.ofList_toList]
    at hspells
  refine ⟨⟨hspells.within, fun _ => hspells, fun hm => ?_⟩, ?_, ?_⟩
  · exact absurd (hstep.present.symm.trans hm) Bool.false_ne_true
  · exact hstep.start ▸ Nat.le_add_right _ _
  · exact hstep.offset ▸ Nat.le_add_right _ _

theorem next_found (h : IsTrue source front row) (mode : LexerMode) :
    ∀ diagnostic ∈ (front.next mode).diagnostics, diagnostic.span.Within source := by
  intro diagnostic hd
  rw [(Scanner.isStep_next (front.scanner mode)).findings diagnostic hd]
  exact (h.next mode).1.within

/-- The token ahead is put behind all leaves so far, be it read or discarded. -/
theorem advance (h : IsTrue source front row) (mode : LexerMode) {row' : Row}
    {pending : List Trivia} {lastEnd : Nat}
    (hplaces : marks row' ++ Trivia.marks pending = front.places row ++ [(front.next mode).mark])
    (hread : ∀ mark ∈ marks row', mark.span.stop ≤ lastEnd)
    (hwaits : ∀ mark ∈ Trivia.marks pending, lastEnd ≤ mark.span.start)
    (hlastEnd : IsBoundary source lastEnd ∧ lastEnd ≤ (front.next mode).span.stop)
    (hfound : ∀ diagnostic ∈ collectSlots row' ++ Trivia.collectAll pending,
      diagnostic.span.Within source) :
    IsTrue source (front.advance mode pending lastEnd) row' := by
  obtain ⟨htrue, hstart, hstop⟩ := h.next mode
  have hvalid : (front.scanner mode).Valid := h.valid
  have hsame := (Scanner.isStep_next (front.scanner mode)).same
  have hafter : (front.advance mode pending lastEnd).places row' =
      front.places row ++ [(front.next mode).mark] := hplaces
  refine ⟨h.source_eq, ?_, ?_, ?_, ?_, hread, hwaits, hlastEnd.1, hlastEnd.2.trans hstop, hfound⟩
  · obtain ⟨before, hs, ho⟩ := hvalid.next
    exact ⟨before, hsame.1.symm.trans hs, ho⟩
  · rw [hafter, List.forall_mem_append]
    exact ⟨h.places, List.forall_mem_singleton.mpr htrue⟩
  · rw [hafter, List.pairwise_append]
    refine ⟨h.ordered, List.pairwise_singleton _ _, fun mark hm token ht => ?_⟩
    rw [List.mem_singleton.mp ht]
    exact (h.reached mark hm).trans hstart
  · rw [hafter, List.forall_mem_append]
    refine ⟨fun mark hm => ?_, List.forall_mem_singleton.mpr hstop⟩
    exact (h.reached mark hm).trans (hstart.trans (htrue.within.start_le_stop.trans hstop))

theorem shift (h : IsTrue source front row) (mode : LexerMode) (kind : Kind) :
    IsTrue source (front.shift mode) (row ++ [some (front.leaf mode kind)]) := by
  obtain ⟨htrue, hstart, hstop⟩ := h.next mode
  have hmarks : marks (row ++ [some (front.leaf mode kind)]) =
      front.places row ++ [(front.next mode).mark] := by
    rw [marks_append, marks_front_leaf, ← List.append_assoc, Front.places]
  refine h.advance mode (by rw [hmarks, Trivia.marks_nil, List.append_nil]) ?_ (by simp)
    ⟨htrue.within.stop, Nat.le_refl _⟩ ?_
  · rw [hmarks, List.forall_mem_append]
    refine ⟨fun mark hm => ?_, List.forall_mem_singleton.mpr (Nat.le_refl _)⟩
    exact (h.reached mark hm).trans (hstart.trans htrue.within.start_le_stop)
  · intro diagnostic hd
    rw [Trivia.collectAll, List.append_nil, collectSlots_append, List.mem_append,
      (collectSlots_leaf front mode kind).mem_iff, ← List.mem_append, ← List.append_assoc,
      List.mem_append] at hd
    exact hd.elim (h.found diagnostic) (h.next_found mode diagnostic)

theorem discard (h : IsTrue source front row) (mode : LexerMode) :
    IsTrue source (front.discard mode) row := by
  obtain ⟨htrue, hstart, hstop⟩ := h.next mode
  have hmarks := (marks_withDiagnostic (.leaf (front.next mode))
    (.invalidToken (front.next mode).kind)).trans (marks_next front mode)
  have hpending : Trivia.marks (front.pending ++
        [(Node.leaf (front.next mode)).setAside (.invalidToken (front.next mode).kind)]) =
      Trivia.marks front.pending ++ [(front.next mode).mark] := by
    rw [Trivia.marks_append, ← hmarks]
    simp [Trivia.marks, marks, Trivia.leavesAll, Trivia.leaves, setAside, slotsLeaves]
  refine h.advance mode ?_ h.read ?_
    ⟨h.lastEnd, h.lastEnd_le.trans (hstart.trans htrue.within.start_le_stop)⟩ ?_
  · rw [Front.places, List.append_assoc, hpending]
  · rw [hpending, List.forall_mem_append]
    exact ⟨h.waits, List.forall_mem_singleton.mpr (h.lastEnd_le.trans hstart)⟩
  · intro diagnostic hd
    -- what is set aside has one diagnostic more than the token, about the token itself
    have hflagged := collectSlots_withDiagnostic (.leaf (front.next mode))
      (.invalidToken (front.next mode).kind)
    rw [collectSlots_next] at hflagged
    rw [Trivia.collectAll_append, ← List.append_assoc, List.mem_append] at hd
    rcases hd with hd | hd
    · exact h.found diagnostic hd
    · have hmem : diagnostic ∈ collectSlots [some ((Node.leaf (front.next mode)).withDiagnostic
          (.invalidToken (front.next mode).kind))] := by
        simpa [Trivia.collectAll, Trivia.collect, setAside, collectSlots] using hd
      rw [hflagged.mem_iff, List.mem_cons] at hmem
      rcases hmem with rfl | hmem
      · exact htrue.within.cover htrue.within
      · exact h.next_found mode diagnostic hmem

/-! ## Without the token ahead -/

theorem insert (h : IsTrue source front row) (kind : Kind) (code : DiagnosticCode) :
    IsTrue source front (row ++ [some (.missing kind front.lastEnd code)]) := by
  have hmarks : marks [some (.missing kind front.lastEnd code)] =
      [⟨"", .empty front.lastEnd, true⟩] := by
    rw [missing, marks_leaf]
    rfl
  have hwithin := h.lastEnd.within_empty
  have hread : ∀ mark ∈ marks (row ++ [some (.missing kind front.lastEnd code)]),
      mark.span.stop ≤ front.lastEnd := by
    rw [marks_append, hmarks, List.forall_mem_append]
    exact ⟨h.read, List.forall_mem_singleton.mpr (Nat.le_refl _)⟩
  -- the leaf put in stands between what was read and what waits
  have hplaces : front.places (row ++ [some (.missing kind front.lastEnd code)]) =
      marks row ++ ⟨"", .empty front.lastEnd, true⟩ :: Trivia.marks front.pending := by
    rw [Front.places, marks_append, hmarks, List.append_assoc, List.singleton_append]
  have hordered := h.ordered
  rw [Front.places, List.pairwise_append] at hordered
  obtain ⟨hrow, hpending, hacross⟩ := hordered
  refine ⟨h.source_eq, h.valid, ?_, ?_, ?_, hread, h.waits, h.lastEnd, h.lastEnd_le, ?_⟩
  · rw [hplaces]
    intro mark hm
    rcases List.mem_append.mp hm with hm | hm
    · exact h.places mark (List.mem_append_left _ hm)
    · rcases List.mem_cons.mp hm with rfl | hm
      · exact ⟨hwithin, fun hm => absurd hm.symm Bool.false_ne_true, fun _ => rfl⟩
      · exact h.places mark (List.mem_append_right _ hm)
  · rw [hplaces, List.pairwise_append, List.pairwise_cons]
    refine ⟨hrow, ⟨h.waits, hpending⟩, fun mark hm => ?_⟩
    rw [List.forall_mem_cons]
    exact ⟨h.read mark hm, hacross mark hm⟩
  · rw [Front.places, List.forall_mem_append]
    exact ⟨fun mark hm => (hread mark hm).trans h.lastEnd_le,
      fun mark hm => h.reached mark (List.mem_append_right _ hm)⟩
  · intro diagnostic hd
    rw [Front.found, collectSlots_append, List.mem_append, List.mem_append] at hd
    rcases hd with (hd | hd) | hd
    · exact h.found diagnostic (List.mem_append_left _ hd)
    · have hmissing : diagnostic = ⟨code, .empty front.lastEnd⟩ := by
        simpa [collectSlots, collect, missing, Token.absent, Token.collect_eq, Trivia.collectAll]
          using hd
      exact hmissing ▸ hwithin
    · exact h.found diagnostic (List.mem_append_right _ hd)

theorem become (h : IsTrue source front row) {row' : Row} (hb : row.Becomes row') :
    IsTrue source front row' := by
  -- no leaf is new, and those that are left keep their order
  have hsub : (front.places row').Sublist (front.places row) := hb.marks.append (.refl _)
  have hwithin : Row.Within source row :=
    ⟨fun mark hm => (h.places mark (List.mem_append_left _ hm)).within,
      fun diagnostic hd => h.found diagnostic (List.mem_append_left _ hd)⟩
  refine ⟨h.source_eq, h.valid, fun mark hm => h.places mark (hsub.subset hm),
    h.ordered.sublist hsub, fun mark hm => h.reached mark (hsub.subset hm),
    fun mark hm => h.read mark (hb.marks.subset hm), h.waits, h.lastEnd, h.lastEnd_le, ?_⟩
  rw [Front.found, List.forall_mem_append]
  exact ⟨(hb.within hwithin).findings, fun diagnostic hd =>
    h.found diagnostic (List.mem_append_right _ hd)⟩

end IsTrue

/-- **A run of a parse keeps places true.** -/
theorem Steps.isTrue {start : Front} {before : Row} (h : Steps start before front row)
    (hstart : IsTrue source start before) : IsTrue source front row := by
  induction h with
  | refl => exact hstart
  | shift _ mode kind ih => exact ih.shift mode kind
  | discard _ mode _ ih => exact ih.discard mode
  | insert _ kind code ih => exact ih.insert kind code
  | become _ hb ih => exact ih.become hb

end Front

/-! ## Whole parses -/

/-- What a tree says about places in the source is true. -/
structure Node.StandsIn (source : String) (tree : Node) : Prop where
  /-- A token that is there has the text that stands at its span. -/
  spells : ∀ token ∈ tree.leaves, token.missing = false → token.span.Spells source token.text
  /-- A token that was put in takes no room. -/
  empty : ∀ token ∈ tree.leaves, token.missing = true → token.span.stop = token.span.start
  /-- Each token begins where those before it end, or later. -/
  ordered : tree.leaves.Pairwise fun first second => first.span.stop ≤ second.span.start
  /-- A diagnostic is about a part of the source, from one character boundary to another. -/
  found : ∀ diagnostic ∈ tree.diagnostics,
    diagnostic.span.Within source ∧ diagnostic.span.stop ≤ source.utf8ByteSize

/-- **Positions are truthful**, in the tree of a fragment of any kind, whatever the strategy answers
and however much fuel there is. -/
theorem standsIn_of_fragment {strategy : Strategy} {fuel : Nat} {kind : FragmentKind}
    {source : String} {tree : Node} {after : Parser}
    (hrun : ParseM.fragment kind (.ofFuel strategy fuel) (.ofSource source) = some (tree, after)) :
    tree.StandsIn source := by
  obtain ⟨hl, -⟩ := (ParseM.finishes_fragment kind).leads (Env.sound_ofFuel strategy fuel)
    (Parser.valid_ofSource source) hrun
  have h := hl.steps.isTrue (Front.isTrue_start source)
  have hmark {token : Token} (ht : token ∈ tree.leaves) : token.mark ∈ Node.marks [some tree] := by
    rw [Node.marks, Node.slotsLeaves, Node.slotsLeaves, List.append_nil]
    exact List.mem_map_of_mem ht
  have htrue {token : Token} (ht : token ∈ tree.leaves) : token.mark.IsTrue source :=
    h.places _ (List.mem_append_left _ (hmark ht))
  refine ⟨fun token ht => (htrue ht).spells, fun token ht => (htrue ht).empty, ?_, ?_⟩
  · have hordered := (List.pairwise_append.mp h.ordered).1
    rw [Node.marks, Node.slotsLeaves, Node.slotsLeaves, List.append_nil,
      List.pairwise_map] at hordered
    exact hordered
  · intro diagnostic hd
    rw [tree.diagnostics_perm.mem_iff] at hd
    have hmem : diagnostic ∈ Node.collectSlots [some tree] := by simpa [Node.collectSlots] using hd
    have hwithin := h.found diagnostic (List.mem_append_left _ hmem)
    exact ⟨hwithin, hwithin.stop.le⟩

/-- Where all that cannot be read is discarded, and tokens are taken for what is missing. -/
theorem standsIn_of_fragment_mixed :
    ∃ tree after, ParseM.fragment .statement
      (.ofFuel (fun asked request _ => if asked % 2 = 0 then .remove else .keep request.primary) 60)
      (.ofSource ") ä = (;") = some (tree, after) ∧ tree.StandsIn ") ä = (;" := by
  have hsome : (ParseM.fragment .statement
      (.ofFuel (fun asked request _ => if asked % 2 = 0 then .remove else .keep request.primary) 60)
      (.ofSource ") ä = (;")).isSome := by
    decide +kernel
  obtain ⟨⟨tree, after⟩, hrun⟩ := Option.isSome_iff_exists.mp hsome
  exact ⟨tree, after, hrun, standsIn_of_fragment hrun⟩

end TolerantSyntax
