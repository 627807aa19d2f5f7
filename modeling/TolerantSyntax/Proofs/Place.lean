import TolerantSyntax.Lexer.Scanner

/-!
# Places in a source

A source is a text, and all offsets count its UTF-8 bytes. Not every offset is the beginning of a
character. Here stands what it means for an offset to lie between two characters of a source, and
for a span to hold a given text.
-/

namespace TolerantSyntax

/-! ## Boundaries and spans -/

/-- The offset lies between two characters of the source, or at one of its ends. -/
def IsBoundary (source : String) (offset : Nat) : Prop :=
  ∃ before after, source = before ++ after ∧ offset = before.utf8ByteSize

/-- The span lies on character boundaries of the source, and `text` is what stands there. -/
def Span.Spells (span : Span) (source text : String) : Prop :=
  ∃ before after, source = before ++ text ++ after ∧ span.start = before.utf8ByteSize ∧
    span.stop = span.start + text.utf8ByteSize

/-- The span lies on character boundaries of the source, its end not before its beginning. -/
structure Span.Within (source : String) (span : Span) : Prop where
  start_le_stop : span.start ≤ span.stop
  start : IsBoundary source span.start
  stop : IsBoundary source span.stop

theorem isBoundary_zero (source : String) : IsBoundary source 0 :=
  ⟨"", source, by rw [String.empty_append], by simp⟩

/-- No boundary is beyond the end. -/
theorem IsBoundary.le {source : String} {offset : Nat} (h : IsBoundary source offset) :
    offset ≤ source.utf8ByteSize := by
  obtain ⟨before, after, rfl, rfl⟩ := h
  simp

namespace Span.Spells

variable {span : Span} {source text : String}

/-- Where a text begins, a character begins or the source ends. -/
theorem start_isBoundary (h : span.Spells source text) : IsBoundary source span.start := by
  obtain ⟨before, after, hs, hstart, _⟩ := h
  exact ⟨before, text ++ after, by rw [hs, String.append_assoc], hstart⟩

theorem stop_isBoundary (h : span.Spells source text) : IsBoundary source span.stop := by
  obtain ⟨before, after, hs, hstart, hstop⟩ := h
  exact ⟨before ++ text, after, hs, by rw [hstop, hstart, String.utf8ByteSize_append]⟩

theorem start_le_stop (h : span.Spells source text) : span.start ≤ span.stop := by
  obtain ⟨_, _, _, _, hstop⟩ := h
  omega

theorem within (h : span.Spells source text) : span.Within source :=
  ⟨h.start_le_stop, h.start_isBoundary, h.stop_isBoundary⟩

end Span.Spells

theorem IsBoundary.within_empty {source : String} {offset : Nat} (h : IsBoundary source offset) :
    (Span.empty offset).Within source :=
  ⟨Nat.le_refl _, h, h⟩

/-- A span that covers two others is within the source where they are. -/
theorem Span.Within.cover {source : String} {a b : Span} (ha : a.Within source)
    (hb : b.Within source) : (a.cover b).Within source := by
  refine ⟨?_, ?_, ?_⟩
  · have h := ha.start_le_stop
    simp only [Span.cover]
    omega
  · rcases Nat.le_total a.start b.start with h | h
    · simpa [Span.cover, Nat.min_eq_left h] using ha.start
    · simpa [Span.cover, Nat.min_eq_right h] using hb.start
  · rcases Nat.le_total a.stop b.stop with h | h
    · simpa [Span.cover, Nat.max_eq_right h] using hb.stop
    · simpa [Span.cover, Nat.max_eq_left h] using ha.stop

theorem Span.eq_empty {span : Span} {offset : Nat} (hstart : span.start = offset)
    (hstop : span.stop = offset) : span = .empty offset := by
  cases span with
  | mk start stop =>
    cases hstart
    cases hstop
    rfl

/-! ## Characters and bytes -/

namespace Scanner

@[simp] theorem byteLength_cons (c : Char) (chars : List Char) :
    byteLength (c :: chars) = c.utf8Size + byteLength chars := rfl

/-- Characters are as long as the text that they make. -/
theorem byteLength_eq_utf8ByteSize (chars : List Char) :
    byteLength chars = (String.ofList chars).utf8ByteSize := by
  induction chars with
  | nil => rfl
  | cons c rest ih =>
    rw [String.ofList_cons, String.utf8ByteSize_append, ← ih]
    simp

/-- Dropping what comes first leaves the rest. -/
theorem dropBytes_append (before rest : List Char) :
    dropBytes (byteLength before) (before ++ rest) = rest := by
  induction before with
  | nil => cases rest <;> simp [byteLength, dropBytes]
  | cons c before ih =>
    have hc := c.utf8Size_pos
    rw [byteLength_cons, List.cons_append, dropBytes, if_neg (by omega), Nat.add_sub_cancel_left,
      ih]

@[simp] theorem byteLength_append (before after : List Char) :
    byteLength (before ++ after) = byteLength before + byteLength after := by
  simp only [byteLength_eq_utf8ByteSize, String.ofList_append, String.utf8ByteSize_append]

theorem byteLength_reverse (chars : List Char) :
    byteLength chars.reverse = byteLength chars := by
  induction chars with
  | nil => rfl
  | cons c chars ih =>
    rw [List.reverse_cons, byteLength_append, ih, byteLength_cons, byteLength_cons, Nat.add_comm]
    rfl

/-- A boundary is behind so many bytes of characters. -/
theorem isBoundary_iff {source : String} {offset : Nat} :
    IsBoundary source offset ↔
      ∃ before after, source.toList = before ++ after ∧ offset = byteLength before := by
  constructor
  · rintro ⟨before, after, rfl, rfl⟩
    refine ⟨before.toList, after.toList, String.toList_append, ?_⟩
    rw [byteLength_eq_utf8ByteSize, String.ofList_toList]
  · rintro ⟨before, after, hsource, rfl⟩
    refine ⟨String.ofList before, String.ofList after, ?_, byteLength_eq_utf8ByteSize before⟩
    rw [← String.ofList_append, ← hsource, String.ofList_toList]

/-! ## Cutting a text at a byte -/

theorem behind?_append (before after : List Char) :
    behind? (byteLength before) (before ++ after) = some after := by
  induction before with
  | nil => cases after <;> rfl
  | cons c before ih =>
    have hpos := c.utf8Size_pos
    rw [byteLength_cons, List.cons_append, behind?, if_neg (by omega), if_neg (by omega),
      Nat.add_sub_cancel_left, ih]

/-- No text begins within a character. -/
theorem behind?_within {c : Char} {bytes : Nat} (hpos : 0 < bytes) (hlt : bytes < c.utf8Size)
    (before after : List Char) :
    behind? (byteLength before + bytes) (before ++ c :: after) = none := by
  induction before with
  | nil =>
    rw [List.nil_append, show byteLength [] = 0 from rfl, Nat.zero_add, behind?,
      if_neg (by omega), if_pos hlt]
  | cons d before ih =>
    rw [byteLength_cons, List.cons_append, behind?, if_neg (by omega), if_neg (by omega),
      Nat.add_assoc, Nat.add_sub_cancel_left, ih]

/-- A text has something behind a byte just where the byte lies between two characters. -/
theorem isSome_behind?_iff {bytes : Nat} {text : List Char} :
    (behind? bytes text).isSome ↔ IsBoundary (String.ofList text) bytes := by
  rw [isBoundary_iff, String.toList_ofList]
  constructor
  · intro h
    fun_induction behind? bytes text with
    | case1 => exact ⟨[], [], rfl, rfl⟩
    | case2 => cases h
    | case3 c rest => exact ⟨[], c :: rest, rfl, rfl⟩
    | case4 => cases h
    | case5 bytes c rest hzero hle ih =>
      obtain ⟨before, after, rfl, hbytes⟩ := ih h
      exact ⟨c :: before, after, rfl, by rw [byteLength_cons]; omega⟩
  · rintro ⟨before, after, rfl, rfl⟩
    rw [behind?_append, Option.isSome_some]

/-! ## Valid scanners -/

/-- The scanner is at a place of its source: so many bytes stand before the characters ahead. -/
def Valid (scanner : Scanner) : Prop :=
  ∃ before, scanner.source = before ++ scanner.rest ∧ scanner.offset = byteLength before

/-- At the beginning of a source nothing has been scanned. -/
theorem valid_ofSource (source : String) : (ofSource source).Valid :=
  ⟨[], rfl, rfl⟩

/-- A place is the beginning of what its scanner reads back from the offset alone. -/
theorem Valid.reset_eq {scanner : Scanner} (h : scanner.Valid) (mode : LexerMode) :
    scanner.reset scanner.offset mode = { scanner with mode } := by
  obtain ⟨before, hs, ho⟩ := h
  have hle : scanner.offset ≤ byteLength scanner.source := by
    rw [hs, ho, byteLength_eq_utf8ByteSize, byteLength_eq_utf8ByteSize, String.ofList_append,
      String.utf8ByteSize_append]
    omega
  have hd : dropBytes scanner.offset scanner.source = scanner.rest := by
    rw [hs, ho, dropBytes_append]
  simp only [reset, hd, Nat.min_eq_left hle]

end Scanner

end TolerantSyntax
