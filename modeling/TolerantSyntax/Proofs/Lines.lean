import Mathlib.Data.List.DropRight
import Mathlib.Data.Prod.Lex
import Mathlib.Order.Monotone.Basic
import TolerantSyntax.Proofs.Positions
import TolerantSyntax.Report.Finding

/-!
# Lines and columns are exact

The place of an offset is looked up among the offsets at which lines begin, and then counted in
characters. It is what one finds by reading the source up to the offset: as many lines as there are
line breaks, and as many columns as there are characters behind the last one (`lineCol_eq`). Reading
on leads to later places, so places are in the order of their offsets (`strictMonoOn_lineCol`), and
a report that lists diagnostics by their spans lists them by their places (`places_pairwise`).
-/

namespace TolerantSyntax

/-! ## The order of places -/

namespace LineCol

/-- Places are ordered as they are read: by line, then by column. -/
instance : PartialOrder LineCol :=
  PartialOrder.lift (fun place => toLex (place.line, place.col)) fun place other h => by
    obtain ⟨hline, hcol⟩ := Prod.mk.inj (toLex.injective h)
    cases place
    cases other
    cases hline
    cases hcol
    rfl

theorem lt_iff {place other : LineCol} :
    place < other ↔ place.line < other.line ∨ place.line = other.line ∧ place.col < other.col :=
  Prod.Lex.lt_iff

/-- The characters behind the last line break. -/
def lastLine (before : List Char) : List Char :=
  before.rtakeWhile (· ≠ '\n')

/-- Where one is behind some characters. -/
def behind (before : List Char) : LineCol :=
  { line := before.count '\n', col := (lastLine before).length }

/-- Reading on leads to a later place. -/
theorem behind_lt_append (before : List Char) {more : List Char} (h : more ≠ []) :
    behind before < behind (before ++ more) := by
  rw [lt_iff]
  by_cases hbreak : '\n' ∈ more
  · refine .inl ?_
    have hpos := List.count_pos_iff.mpr hbreak
    simp only [behind, List.count_append]
    omega
  · refine .inr ⟨?_, ?_⟩
    · simp only [behind, List.count_append, List.count_eq_zero.mpr hbreak, Nat.add_zero]
    · have hall : ∀ c ∈ more.reverse, decide (c ≠ '\n') = true := by
        intro c hc
        rw [decide_eq_true_eq]
        rintro rfl
        exact hbreak (List.mem_reverse.mp hc)
      have hpos := List.length_pos_iff.mpr h
      simp only [behind, lastLine, List.rtakeWhile, List.reverse_append,
        List.takeWhile_append_of_pos hall,
        List.length_reverse, List.length_append]
      omega

end LineCol

/-! ## Where lines begin -/

namespace LineIndex

theorem breaksFrom_append (offset : Nat) (before after : List Char) :
    breaksFrom offset (before ++ after) =
      breaksFrom offset before ++ breaksFrom (offset + Scanner.byteLength before) after := by
  induction before generalizing offset with
  | nil => rfl
  | cons c before ih =>
    rw [List.cons_append, breaksFrom, breaksFrom, Scanner.byteLength_cons, ← Nat.add_assoc]
    split
    · rw [ih, List.cons_append]
    · exact ih _

/-- A line begins behind the break, and within the characters that are read. -/
theorem mem_breaksFrom {offset start : Nat} {chars : List Char}
    (h : start ∈ breaksFrom offset chars) :
    offset < start ∧ start ≤ offset + Scanner.byteLength chars := by
  induction chars generalizing offset with
  | nil => cases h
  | cons c chars ih =>
    have hpos := c.utf8Size_pos
    rw [breaksFrom] at h
    rw [Scanner.byteLength_cons]
    split at h
    · rcases List.mem_cons.mp h with rfl | h
      · omega
      · have hbounds := ih h
        omega
    · have hbounds := ih h
      omega

theorem length_breaksFrom (offset : Nat) (chars : List Char) :
    (breaksFrom offset chars).length = chars.count '\n' := by
  induction chars generalizing offset with
  | nil => rfl
  | cons c chars ih =>
    rw [breaksFrom]
    split
    · next hbreak => rw [hbreak, List.count_cons_self, List.length_cons, ih]
    · next hbreak => rw [List.count_cons_of_ne hbreak, ih]

/-- Of the lines of a source, those begin up to an offset that begin in what stands before it. -/
theorem takeWhile_starts {source : String} {before after : List Char}
    (h : source.toList = before ++ after) :
    (ofSource source).starts.takeWhile (· ≤ Scanner.byteLength before) =
      0 :: breaksFrom 0 before := by
  have hbefore : ∀ start ∈ 0 :: breaksFrom 0 before,
      decide (start ≤ Scanner.byteLength before) = true := by
    intro start hmem
    rw [decide_eq_true_eq]
    rcases List.mem_cons.mp hmem with rfl | hmem
    · exact Nat.zero_le _
    · have hbounds := mem_breaksFrom hmem
      omega
  have hafter : (breaksFrom (0 + Scanner.byteLength before) after).takeWhile
      (· ≤ Scanner.byteLength before) = [] := by
    cases hstarts : breaksFrom (0 + Scanner.byteLength before) after with
    | nil => rfl
    | cons start others =>
      have hbounds := mem_breaksFrom (hstarts ▸ List.mem_cons_self : start ∈ _)
      exact List.takeWhile_cons_of_neg (by rw [decide_eq_true_eq]; omega)
  rw [ofSource, h, breaksFrom_append, ← List.cons_append, List.takeWhile_append_of_pos hbefore,
    hafter, List.append_nil]

theorem breaksFrom_lastLine (offset : Nat) (before : List Char) :
    breaksFrom offset (LineCol.lastLine before) = [] := by
  rw [← List.length_eq_zero_iff, length_breaksFrom, List.count_eq_zero]
  intro hbreak
  simpa using List.mem_rtakeWhile_imp hbreak

/-- The last line that has begun begins behind the last line break. -/
theorem exists_eq_append_lastLine (before : List Char) :
    ∃ above, before = above ++ LineCol.lastLine before ∧
      (0 :: breaksFrom 0 before).getLastD 0 = Scanner.byteLength above := by
  have hsplit : before = before.rdropWhile (· ≠ '\n') ++ LineCol.lastLine before :=
    List.rdropWhile_append_rtakeWhile.symm
  refine ⟨_, hsplit, ?_⟩
  have hbreaks := congrArg (breaksFrom 0) hsplit
  rw [breaksFrom_append, breaksFrom_lastLine, List.append_nil] at hbreaks
  rw [hbreaks]
  have hlast := List.rdropWhile_last_not (· ≠ '\n') before
  generalize before.rdropWhile (· ≠ '\n') = above at hlast
  rcases List.eq_nil_or_concat' above with rfl | ⟨others, c, rfl⟩
  · rfl
  · obtain rfl : c = '\n' := by simpa using hlast
    have hbreak (offset : Nat) :
        breaksFrom offset ['\n'] = [offset + Scanner.byteLength ['\n']] := rfl
    rw [breaksFrom_append, hbreak, Scanner.byteLength_append, ← List.cons_append,
      List.getLastD_concat, Nat.zero_add]

/-! ## Columns -/

theorem charsIn?_append (before after : List Char) :
    charsIn? (Scanner.byteLength before) (before ++ after) = some before.length := by
  induction before with
  | nil => cases after <;> rfl
  | cons c before ih =>
    have hpos := c.utf8Size_pos
    rw [Scanner.byteLength_cons, List.cons_append, charsIn?, if_neg (by omega), if_neg (by omega),
      Nat.add_sub_cancel_left, ih, Option.map_some, List.length_cons]

/-! ## Places -/

/-- The place of an offset is where one is behind the characters before it. -/
theorem lineCol_eq {source : String} {before after : List Char}
    (h : source.toList = before ++ after) :
    (ofSource source).lineCol source (Scanner.byteLength before) = .behind before := by
  obtain ⟨above, hbefore, hstart⟩ := exists_eq_append_lastLine before
  have hsize : Scanner.byteLength before ≤ source.utf8ByteSize :=
    IsBoundary.le (Scanner.isBoundary_iff.mpr ⟨before, after, h, rfl⟩)
  have hbytes := congrArg Scanner.byteLength hbefore
  rw [Scanner.byteLength_append] at hbytes
  have hline : Scanner.dropBytes (Scanner.byteLength above) source.toList =
      LineCol.lastLine before ++ after := by
    have hsource := h
    rw [hbefore, List.append_assoc] at hsource
    rw [hsource, Scanner.dropBytes_append]
  rw [lineCol, Nat.min_eq_left hsize, takeWhile_starts h]
  simp only [hstart, hline, LineCol.behind, List.length_cons, length_breaksFrom,
    Nat.add_sub_cancel, LineCol.mk.injEq, true_and]
  rw [show Scanner.byteLength before - Scanner.byteLength above =
    Scanner.byteLength (LineCol.lastLine before) by omega, charsIn?_append, Option.getD_some]

/-- An offset behind the end of a source has the place of its end. -/
theorem lineCol_of_le {source : String} {offset : Nat} (h : source.utf8ByteSize ≤ offset) :
    (ofSource source).lineCol source offset = .behind source.toList := by
  have hsize : source.utf8ByteSize = Scanner.byteLength source.toList := by
    rw [Scanner.byteLength_eq_utf8ByteSize, String.ofList_toList]
  have hend := @lineCol_eq source source.toList [] (List.append_nil _).symm
  rw [← hsize] at hend
  rw [← hend, lineCol, lineCol, Nat.min_eq_right h, Nat.min_self]

/-- Of two characters of a source, the later one has the later place. -/
theorem strictMonoOn_lineCol (source : String) :
    StrictMonoOn ((ofSource source).lineCol source) {offset | IsBoundary source offset} := by
  intro offset hoffset other hother hlt
  obtain ⟨before, after, hsource, rfl⟩ := Scanner.isBoundary_iff.mp hoffset
  obtain ⟨before', after', hsource', rfl⟩ := Scanner.isBoundary_iff.mp hother
  rw [lineCol_eq hsource, lineCol_eq hsource']
  have hprefix : before <+: source.toList := ⟨after, hsource.symm⟩
  have hprefix' : before' <+: source.toList := ⟨after', hsource'.symm⟩
  rcases List.prefix_or_prefix_of_prefix hprefix hprefix' with ⟨more, rfl⟩ | ⟨more, rfl⟩
  · refine LineCol.behind_lt_append before ?_
    rintro rfl
    rw [List.append_nil] at hlt
    exact Nat.lt_irrefl _ hlt
  · rw [Scanner.byteLength_append] at hlt
    omega

end LineIndex

/-! ## Reports -/

namespace Report

/-- The places that a report gives for some diagnostics. -/
def places (source : String) (diagnostics : List Diagnostic) : List LineCol :=
  diagnostics.map fun diagnostic => (LineIndex.ofSource source).lineCol source diagnostic.span.start

theorem findings_eq (painter : Painter) (file source : String) (diagnostics : List Diagnostic) :
    findings painter file source diagnostics =
      String.join ((places source diagnostics).zipWith (findingAt painter file) diagnostics) := by
  rw [findings, places, List.zipWith_map_left, List.zipWith_self]

/-- Diagnostics in the order of their spans are in the order of their places. -/
theorem places_pairwise {source : String} {diagnostics : List Diagnostic}
    (hsorted : diagnostics.Pairwise fun a b => a.le b = true)
    (hwithin : ∀ diagnostic ∈ diagnostics, IsBoundary source diagnostic.span.start) :
    (places source diagnostics).Pairwise (· ≤ ·) := by
  rw [places, List.pairwise_map]
  refine hsorted.imp_of_mem fun {a b} ha hb hle => ?_
  refine (LineIndex.strictMonoOn_lineCol source).monotoneOn (hwithin a ha) (hwithin b hb) ?_
  simp only [Diagnostic.le, Span.le, Bool.or_eq_true, Bool.and_eq_true, decide_eq_true_eq,
    beq_iff_eq] at hle
  omega

end Report

/-- What is reported of a tree is reported from the beginning of the source to its end. -/
theorem Node.StandsIn.places_pairwise {source : String} {tree : Node} (h : tree.StandsIn source) :
    (Report.places source tree.diagnostics).Pairwise (· ≤ ·) :=
  Report.places_pairwise tree.diagnostics_pairwise fun diagnostic hd =>
    (h.found diagnostic hd).1.start

/-- **Places are exact and in order.** The place of an offset between two characters counts the line
breaks before it and the characters behind the last of them, an offset behind the end has the place
of the end, and of two such offsets the later one has the later place. So a report lists the
diagnostics that it is given in the order of their spans with places in order. -/
theorem places_exact (source : String) :
    (∀ before after, source = before ++ after →
      (LineIndex.ofSource source).lineCol source before.utf8ByteSize = .behind before.toList) ∧
    (∀ offset, source.utf8ByteSize ≤ offset →
      (LineIndex.ofSource source).lineCol source offset = .behind source.toList) ∧
    StrictMonoOn ((LineIndex.ofSource source).lineCol source)
      {offset | IsBoundary source offset} ∧
    Set.InjOn ((LineIndex.ofSource source).lineCol source) {offset | IsBoundary source offset} ∧
    ∀ (painter : Painter) (file : String) (diagnostics : List Diagnostic),
      (diagnostics.Pairwise fun a b => a.le b = true) →
      (∀ diagnostic ∈ diagnostics, diagnostic.span.Within source) →
      Report.findings painter file source diagnostics =
          String.join ((Report.places source diagnostics).zipWith
            (Report.findingAt painter file) diagnostics) ∧
        (Report.places source diagnostics).Pairwise (· ≤ ·) := by
  refine ⟨?_, fun offset h => LineIndex.lineCol_of_le h, LineIndex.strictMonoOn_lineCol source,
    (LineIndex.strictMonoOn_lineCol source).injOn, fun painter file diagnostics hsorted hwithin =>
      ⟨Report.findings_eq painter file source diagnostics,
        Report.places_pairwise hsorted fun diagnostic hd => (hwithin diagnostic hd).start⟩⟩
  rintro before after rfl
  have hplace := LineIndex.lineCol_eq (@String.toList_append before after)
  rwa [Scanner.byteLength_eq_utf8ByteSize, String.ofList_toList] at hplace

/-- Three lines, with a character of two bytes before the second break. -/
theorem places_exact_lines :
    (LineIndex.ofSource "ab\ncdé\nf").lineCol "ab\ncdé\nf" 7 = ⟨1, 3⟩ ∧
      (LineIndex.ofSource "ab\ncdé\nf").lineCol "ab\ncdé\nf" 12 = ⟨2, 1⟩ ∧
      (Report.places "ab\ncdé\nf" [⟨.missingSemicolon, .empty 7⟩, ⟨.invalidNode, ⟨8, 9⟩⟩]).Pairwise
        (· ≤ ·) := by
  obtain ⟨hplace, hbehind, -, -, hreport⟩ := places_exact "ab\ncdé\nf"
  have hbreak : Span.Within "ab\ncdé\nf" (.empty 7) :=
    IsBoundary.within_empty ⟨"ab\ncdé", "\nf", rfl, rfl⟩
  have hlast : Span.Within "ab\ncdé\nf" ⟨8, 9⟩ :=
    ⟨by decide, ⟨"ab\ncdé\n", "f", rfl, rfl⟩, ⟨"ab\ncdé\nf", "", rfl, rfl⟩⟩
  refine ⟨(hplace "ab\ncdé" "\nf" rfl).trans (by decide),
    (hbehind 12 (by decide)).trans (by decide),
    (hreport ⟨false⟩ "main.bal" _ (by decide) ?_).2⟩
  exact List.forall_mem_cons.mpr ⟨hbreak, List.forall_mem_singleton.mpr hlast⟩

end TolerantSyntax
