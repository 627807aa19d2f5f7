import TolerantSyntax.Proofs.Place
import TolerantSyntax.Proofs.Tree.Target

/-!
# Rows of pieces

A rule of the grammar reads pieces from left to right and then makes one node of them. Between its
first and its last token it holds a row of pieces: the parts of a node that is not finished, with
the parts that are not there among them. `Becomes` lists all that rules do with such a row, and what
all of it has in common: the text of the row is kept, its leaves keep their order and their places,
no diagnostic lies outside the source, nodes have the slots of their kind, and what is assigned to
can be assigned to or is flagged. The one exception is the rest descriptor of a record type, before
which pieces may be dropped.
-/

namespace TolerantSyntax

/-- Pieces that have been read, in source order, for slots of a node. -/
abbrev Row := List (Option Node)

namespace Row

/-! ## What rules do with a row -/

/-- What can be made of a row of pieces without reading on. -/
inductive Becomes : Row → Row → Prop where
  | refl (xs : Row) : Becomes xs xs
  | trans {xs ys zs : Row} : Becomes xs ys → Becomes ys zs → Becomes xs zs
  | append {xs ys xs' ys' : Row} : Becomes xs ys → Becomes xs' ys' → Becomes (xs ++ xs') (ys ++ ys')
  /-- A slot stays empty. -/
  | gap : Becomes [] [none]
  /-- An empty slot is given up. -/
  | skip : Becomes [none] []
  /-- The row is what a node is made of. -/
  | group (kind : Kind) (row : Row) (ha : kind.composes row = true) :
      Becomes row [some (.ofSlots kind row)]
  /-- A node is taken apart again. -/
  | ungroup {kind : Kind} (row : Row) (diagnostics : List Diagnostic)
      (h : kind ≠ .recordRestDescriptor) : Becomes [some (.composite kind row diagnostics)] row
  /-- A node becomes one of another kind, and its parts with it. -/
  | relabel {kind : Kind} (other : Kind) {row row' : Row} (diagnostics : List Diagnostic)
      (h : kind ≠ .recordRestDescriptor)
      (ha : kind.admits row = true → other.admits row' = true) (hr : other.aims row' = true) :
      Becomes row row' →
      Becomes [some (.composite kind row diagnostics)] [some (.composite other row' diagnostics)]
  | flag (node : Node) (code : DiagnosticCode) :
      Becomes [some node] [some (node.withDiagnostic code)]
  /-- A token put in is given up. -/
  | forget (kind : Kind) (offset : Nat) (code : DiagnosticCode) :
      Becomes [some (.missing kind offset code)] []
  /-- A node is set aside in front of the next one. -/
  | setAside {node : Node} (invalid : Node) (code : DiagnosticCode) (h : node.HasToken) :
      Becomes [some invalid, some node] [some (node.withLeadingInvalid invalid code)]
  /-- What was discarded before the end of input goes behind a node. -/
  | finish {node : Node} {eof : Token} (h : node.HasToken) (he : eof.text = "") :
      Becomes [some node, some (.leaf eof)] [some (node.withTrailing (eof.leading ++ eof.trailing))]
  /-- The rest descriptor of a record type keeps none of the pieces before its type. -/
  | rest (dropped row : Row) (ha : Kind.recordRestDescriptor.admits row = true) :
      Becomes (dropped ++ row) [some (.ofSlots .recordRestDescriptor row)]

namespace Becomes

variable {xs ys zs : Row}

theorem append_left (h : Becomes xs ys) (front : Row) : Becomes (front ++ xs) (front ++ ys) :=
  .append (.refl front) h

theorem append_right (h : Becomes xs ys) (back : Row) : Becomes (xs ++ back) (ys ++ back) :=
  .append h (.refl back)

/-- A slot behind the row stays empty. -/
theorem withGap (xs : Row) : Becomes xs (xs ++ [none]) := by
  simpa using Becomes.gap.append_left xs

theorem cons (slot : Option Node) (h : Becomes xs ys) : Becomes (slot :: xs) (slot :: ys) :=
  h.append_left [slot]

/-- Empty slots are given up. -/
theorem present (xs : Row) : Becomes xs ((xs.filterMap id).map some) := by
  induction xs with
  | nil => exact .refl []
  | cons slot rest ih =>
    cases slot with
    | none => exact Becomes.skip.append ih
    | some node => exact ih.cons (some node)

end Becomes

/-! ## Text -/

open Node

/-- Text is kept, unless the row has the rest descriptor of a record type. -/
theorem Becomes.source {xs ys : Row} (h : Becomes xs ys) :
    slotsContain .recordRestDescriptor ys = true ∨
      (slotsSource ys = slotsSource xs ∧
        slotsContain .recordRestDescriptor ys = slotsContain .recordRestDescriptor xs) := by
  induction h with
  | refl => exact Or.inr ⟨rfl, rfl⟩
  | trans _ _ ih ih' =>
    -- the second step keeps a rest descriptor that the first one made, so one at the end is enough
    rcases ih' with h' | ⟨hs', hc'⟩
    · exact Or.inl h'
    · rcases ih with h | ⟨hs, hc⟩
      · exact Or.inl (hc'.trans h)
      · exact Or.inr ⟨hs'.trans hs, hc'.trans hc⟩
  | append _ _ ih ih' =>
    simp only [slotsContain_append, slotsSource_append]
    rcases ih with h | ⟨hs, hc⟩
    · exact Or.inl (by rw [h, Bool.true_or])
    · rcases ih' with h' | ⟨hs', hc'⟩
      · exact Or.inl (by rw [h', Bool.or_true])
      · exact Or.inr ⟨by rw [hs, hs'], by rw [hc, hc']⟩
  | gap => exact Or.inr ⟨rfl, rfl⟩
  | skip => exact Or.inr ⟨rfl, rfl⟩
  | group kind row _ =>
    by_cases hk : kind = .recordRestDescriptor
    · exact Or.inl (by simp [slotsContain, contains, ofSlots, hk])
    · exact Or.inr (by simp [slotsContain, contains, slotsSource, Node.source, ofSlots, hk])
  | ungroup row diagnostics hk =>
    exact Or.inr (by simp [slotsContain, contains, slotsSource, Node.source, hk])
  | relabel other diagnostics hk _ _ _ ih =>
    -- the old kind is none of a rest descriptor, but the new one may be
    by_cases ho : other = .recordRestDescriptor
    · exact Or.inl (by simp [slotsContain, contains, ho])
    · simpa [slotsContain, contains, slotsSource, Node.source, beq_eq_false_iff_ne.mpr hk,
        beq_eq_false_iff_ne.mpr ho] using ih
  | flag node code =>
    exact Or.inr ⟨slotsSource_withDiagnostic node code, slotsContain_withDiagnostic node code _⟩
  | forget kind offset code =>
    exact Or.inr (by
      simp [slotsContain, contains, slotsSource, Node.source, Node.missing, Token.contains_eq,
        Token.source_eq, Token.absent, Trivia.sources, Trivia.anyContains])
  | @setAside node invalid code h =>
    have hg := gains_withLeading h [invalid.setAside code]
    refine Or.inr ⟨?_, ?_⟩
    · rw [withLeadingInvalid, hg.source]
      have := slotsSource_withDiagnostic invalid code
      simp only [slotsSource, String.append_empty] at this
      simp [slotsSource, Trivia.sources, Trivia.source, Node.setAside, this]
    · rw [withLeadingInvalid, hg.contains]
      have := slotsContain_withDiagnostic invalid code .recordRestDescriptor
      simp only [slotsContain, Bool.or_false] at this
      simp [slotsContain, Trivia.anyContains, Trivia.contains, Node.setAside, this]
  | @finish node eof h he =>
    have hg := gains_withTrailing h (eof.leading ++ eof.trailing)
    refine Or.inr ⟨?_, ?_⟩
    · rw [hg.source]
      simp [slotsSource, Trivia.sources, Node.source, Token.source_eq, he]
    · rw [hg.contains]
      simp [slotsContain, Trivia.anyContains, contains, Token.contains_eq]
  | rest dropped row _ => exact Or.inl (by simp [slotsContain, contains, ofSlots])

/-! ## Leaves -/

/-- The leaves of a row keep their order and their places, though some may be given up. -/
theorem Becomes.marks {xs ys : Row} (h : Becomes xs ys) : (marks ys).Sublist (marks xs) := by
  induction h with
  | refl => exact .refl _
  | trans _ _ ih ih' => exact ih'.trans ih
  | append _ _ ih ih' =>
    simp only [marks_append]
    exact ih.append ih'
  | gap => exact .refl _
  | skip => exact .refl _
  | group kind row _ => simp [ofSlots, marks_composite]
  | ungroup row diagnostics _ => simp [marks_composite]
  | relabel other diagnostics _ _ _ _ ih =>
    rw [marks_composite, marks_composite]
    exact ih
  | flag node code => simp [marks_withDiagnostic]
  | forget kind offset code =>
    rw [marks_nil]
    exact List.nil_sublist _
  | @setAside node invalid code h =>
    have hm := marks_withDiagnostic invalid code
    have hg := (gains_withLeading h [invalid.setAside code]).marks
    rw [withLeadingInvalid, hg,
      show [some invalid, some node] = [some invalid] ++ [some node] from rfl,
      marks_append, ← hm]
    simp [Node.marks, Trivia.marks, Trivia.leavesAll, Trivia.leaves, Node.setAside, slotsLeaves]
  | @finish node eof h he =>
    have hg := (gains_withTrailing h (eof.leading ++ eof.trailing)).marks
    rw [hg, show [some node, some (.leaf eof)] = [some node] ++ [some (.leaf eof)] from rfl,
      marks_append, marks_leaf]
    simp only [Trivia.marks_nil, List.nil_append, Trivia.marks_append]
    exact .append_left (.append_left (List.sublist_cons_self _ _) _) _
  | rest dropped row _ =>
    rw [ofSlots, marks_composite, marks_append]
    exact List.sublist_append_right _ _

/-! ## Diagnostics -/

/-- A node whose leaves lie within the source lies within it. -/
theorem within_span {source : String} {node : Node}
    (h : ∀ mark ∈ marks [some node], mark.span.Within source) : node.span.Within source := by
  have hmem {token : Token} (ht : token ∈ node.leaves) : token.span.Within source := by
    refine h token.mark ?_
    simp only [Node.marks, slotsLeaves, List.append_nil]
    exact List.mem_map_of_mem ht
  unfold Node.span
  split
  · next first last hf hl =>
    exact (hmem (mem_leaves_of_firstToken? node hf)).cover (hmem (mem_leaves_of_lastToken? node hl))
  · exact (isBoundary_zero source).within_empty

/-- All that a row says about places lies within the source. -/
structure Within (source : String) (xs : Row) : Prop where
  marks : ∀ mark ∈ marks xs, mark.span.Within source
  findings : ∀ diagnostic ∈ collectSlots xs, diagnostic.span.Within source

namespace Within

variable {source : String} {xs ys : Row}

theorem left (h : Within source (xs ++ ys)) : Within source xs :=
  ⟨fun mark hm => h.marks mark (by rw [marks_append]; exact List.mem_append_left _ hm),
    fun diagnostic hd =>
      h.findings diagnostic (by rw [collectSlots_append]; exact List.mem_append_left _ hd)⟩

theorem right (h : Within source (xs ++ ys)) : Within source ys :=
  ⟨fun mark hm => h.marks mark (by rw [marks_append]; exact List.mem_append_right _ hm),
    fun diagnostic hd =>
      h.findings diagnostic (by rw [collectSlots_append]; exact List.mem_append_right _ hd)⟩

/-- A node that is flagged is flagged where it lies. -/
theorem findings_withDiagnostic {node : Node} (h : Within source [some node])
    (code : DiagnosticCode) :
    ∀ diagnostic ∈ collectSlots [some (node.withDiagnostic code)],
      diagnostic.span.Within source := by
  intro diagnostic hd
  rw [(collectSlots_withDiagnostic node code).mem_iff, List.mem_cons] at hd
  rcases hd with rfl | hd
  · exact within_span h.marks
  · exact h.findings diagnostic hd

end Within

/-- Whatever becomes of a row, its places stay within the source. -/
theorem Becomes.within {source : String} {xs ys : Row} (h : Becomes xs ys)
    (hw : Within source xs) : Within source ys := by
  refine ⟨fun mark hm => hw.marks mark (h.marks.subset hm), ?_⟩
  induction h with
  | refl => exact hw.findings
  | trans h _ ih ih' =>
    exact ih' ⟨fun mark hm => hw.marks mark (h.marks.subset hm), ih hw⟩
  | append _ _ ih ih' =>
    intro diagnostic hd
    rw [collectSlots_append, List.mem_append] at hd
    exact hd.elim (ih hw.left diagnostic) (ih' hw.right diagnostic)
  | gap => simp [collectSlots]
  | skip => simp [collectSlots]
  | group kind row _ => simpa [collectSlots, collect, ofSlots] using hw.findings
  | ungroup row diagnostics _ =>
    intro diagnostic hd
    exact hw.findings diagnostic (by simp [collectSlots, collect, hd])
  | relabel other diagnostics _ _ _ _ ih =>
    have hrow := ih ⟨by simpa [marks_composite] using hw.marks, fun diagnostic hd =>
      hw.findings diagnostic (by simp [collectSlots, collect, hd])⟩
    intro diagnostic hd
    simp only [collectSlots, collect, List.append_nil, List.mem_append] at hd
    rcases hd with hd | hd
    · exact hw.findings diagnostic (by simp [collectSlots, collect, hd])
    · exact hrow diagnostic hd
  | flag node code => exact hw.findings_withDiagnostic code
  | forget => simp [collectSlots]
  | @setAside node invalid code h =>
    -- what is found in the new node is found in one of the two, or is the reason
    have hboth : Within source ([some invalid] ++ [some node]) := hw
    intro diagnostic hd
    rw [withLeadingInvalid, (gains_withLeading h _).collect.mem_iff] at hd
    simp only [Trivia.collectAll, Trivia.collect, Node.setAside, List.append_nil,
      List.mem_append] at hd
    rcases hd with hd | hd
    · exact hboth.left.findings_withDiagnostic code diagnostic (by simpa [collectSlots] using hd)
    · exact hboth.right.findings diagnostic hd
  | @finish node eof h he =>
    intro diagnostic hd
    rw [(gains_withTrailing h _).collect.mem_iff] at hd
    refine hw.findings diagnostic ?_
    simp only [Trivia.collectAll, Trivia.collectAll_append, collectSlots, collect,
      Token.collect_eq, List.append_nil, List.nil_append, List.mem_append] at hd ⊢
    rcases hd with hd | hd | hd
    · exact Or.inl hd
    · exact Or.inr (Or.inl (Or.inr hd))
    · exact Or.inr (Or.inr hd)
  | rest dropped row _ => simpa [collectSlots, collect, ofSlots] using hw.right.findings

/-! ## Layouts and reasons -/

/-- Whatever becomes of a regular row is regular. -/
theorem Becomes.regular {xs ys : Row} (h : Becomes xs ys) (hr : SlotsRegular xs) :
    SlotsRegular ys := by
  induction h with
  | refl => exact hr
  | trans _ _ ih ih' => exact ih' (ih hr)
  | append _ _ ih ih' => exact slotsRegular_append.mpr ((slotsRegular_append.mp hr).imp ih ih')
  | gap => exact slotsRegular_none
  | skip => exact slotsRegular_nil
  | group kind row ha =>
    exact slotsRegular_composite.mpr ⟨(Kind.composes_iff.mp ha).1, hr⟩
  | ungroup row diagnostics _ => exact (slotsRegular_composite.mp hr).2
  | relabel other diagnostics _ ha _ _ ih =>
    exact slotsRegular_composite.mpr ((slotsRegular_composite.mp hr).imp ha ih)
  | flag node code => exact slotsRegular_withDiagnostic code hr
  | forget => exact slotsRegular_nil
  | @setAside node invalid code h =>
    have hparts : SlotsRegular ([some invalid] ++ [some node]) := hr
    obtain ⟨hinvalid, hnode⟩ := slotsRegular_append.mp hparts
    exact (gains_withLeading h _).regular (regular_setAside code hinvalid) hnode
      (Trivia.regular_of_forall fun _ => List.not_mem_nil)
  | @finish node eof h he =>
    have hparts : SlotsRegular ([some node] ++ [some (.leaf eof)]) := hr
    obtain ⟨hnode, heof⟩ := slotsRegular_append.mp hparts
    exact (gains_withTrailing h _).regular (Trivia.regular_of_forall fun _ => List.not_mem_nil)
      hnode (slotsRegular_leaf.mp heof).2
  | rest dropped row ha => exact slotsRegular_composite.mpr ⟨ha, (slotsRegular_append.mp hr).2⟩

/-! ## Targets -/

/-- Whatever becomes of a row, its assignments are to what can be assigned to, or is flagged. -/
theorem Becomes.aimed {xs ys : Row} (h : Becomes xs ys) (ha : SlotsEverywhere Aimed xs) :
    SlotsEverywhere Aimed ys := by
  induction h with
  | refl => exact ha
  | trans _ _ ih ih' => exact ih' (ih ha)
  | append _ _ ih ih' =>
    exact slotsEverywhere_append.mpr ((slotsEverywhere_append.mp ha).imp ih ih')
  | gap => exact slotsEverywhere_none
  | skip => exact slotsEverywhere_nil
  | group kind row hc =>
    exact slotsEverywhere_singleton.mpr
      (everywhere_composite.mpr ⟨(Kind.composes_iff.mp hc).2, ha⟩)
  | ungroup row diagnostics _ =>
    exact (everywhere_composite.mp (slotsEverywhere_singleton.mp ha)).2
  | relabel other diagnostics _ _ hr _ ih =>
    have hparts := everywhere_composite.mp (slotsEverywhere_singleton.mp ha)
    exact slotsEverywhere_singleton.mpr (everywhere_composite.mpr ⟨hr, ih hparts.2⟩)
  | flag node code =>
    exact slotsEverywhere_singleton.mpr ((slotsEverywhere_singleton.mp ha).withDiagnostic code)
  | forget => exact slotsEverywhere_nil
  | @setAside node invalid code h =>
    obtain ⟨hinvalid, hnode⟩ := slotsEverywhere_cons.mp ha
    rw [slotsEverywhere_singleton] at hnode ⊢
    exact hnode.withLeading h ((hinvalid invalid rfl).setAside code)
  | @finish node eof h he =>
    obtain ⟨hnode, heof⟩ := slotsEverywhere_cons.mp ha
    rw [slotsEverywhere_singleton] at heof ⊢
    exact (hnode node rfl).withTrailing h (everywhere_leaf.mp heof)
  | rest dropped row _ =>
    have hrow := (slotsEverywhere_append.mp ha).2
    exact slotsEverywhere_singleton.mpr (everywhere_composite.mpr ⟨rfl, hrow⟩)

end Row

end TolerantSyntax
