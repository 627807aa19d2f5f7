import Mathlib.Data.List.Chain
import TolerantSyntax.Proofs.Lexer.Lexeme
import TolerantSyntax.Proofs.Lexer.Trivia
import TolerantSyntax.Proofs.Place

/-!
# The scanner cuts its source into tokens

A step of the scanner takes a token with its trivia off the characters ahead. The facts about one
step come first; a whole scan is a row of steps up to the end of input, so what the tokens of a scan
have in common follows by induction on the scan: they tile the source.
-/

namespace TolerantSyntax

namespace Token

/-- Where the trivia behind a token ends. -/
def fullStop (token : Token) : Nat :=
  token.span.stop + Trivia.widths token.trailing

/-- The trivia of `second` begins where that of `first` ends. -/
def Abuts (first second : Token) : Prop :=
  second.span.start = first.fullStop + second.leadingWidth

/-- The text of a row of tokens, trivia included. -/
def sources : List Token → String
  | [] => ""
  | token :: rest => token.source ++ sources rest

/-- A token without its layout and its place. -/
structure Spelling where
  kind : Kind
  text : String
  codes : List DiagnosticCode
deriving DecidableEq, Repr

def spelling (token : Token) : Spelling :=
  ⟨token.kind, token.text, token.diagnostics.map Diagnostic.code⟩

end Token

namespace Scanner

/-! ## One step -/

/-- Where nothing but trivia is ahead, the next token is the end of input. -/
theorem next_of_nil {scanner : Scanner} (h : (Trivia.leading scanner.rest).2 = []) :
    scanner.next =
      (.ofText .eof "" (scanner.offset + Trivia.widths (Trivia.leading scanner.rest).1)
          (Trivia.leading scanner.rest).1 [],
        { scanner with
          rest := []
          offset := scanner.offset + Trivia.widths (Trivia.leading scanner.rest).1 }) := by
  simp only [next]
  split
  · rfl
  · next h' => rw [h] at h'; simp at h'

theorem spelling_of_leading_nil {scanner : Scanner} (h : (Trivia.leading scanner.rest).2 = []) :
    scanner.next.1.spelling = ⟨.eof, "", []⟩ := by
  simp [next_of_nil h, Token.spelling, Token.ofText]

/-- Behind the end of input there is the end of input again. -/
theorem spelling_of_rest_nil {s : Scanner} (h : s.rest = []) :
    s.next.1.spelling = ⟨.eof, "", []⟩ := by
  have hle := Trivia.length_leading_le s.rest
  rw [h, List.length_nil, Nat.le_zero, List.length_eq_zero_iff] at hle
  exact spelling_of_leading_nil (by rw [h, hle])

/-- What one step of the scanner comes to. -/
structure IsStep (scanner : Scanner) (token : Token) (behind : Scanner) : Prop where
  source : token.source ++ String.ofList behind.rest = String.ofList scanner.rest
  start : token.span.start = scanner.offset + token.leadingWidth
  stop : token.span.stop = token.span.start + token.text.utf8ByteSize
  offset : behind.offset = token.fullStop
  same : behind.source = scanner.source ∧ behind.mode = scanner.mode
  present : token.missing = false
  findings : ∀ d ∈ token.diagnostics, d.span = token.span
  plain : ∀ piece ∈ token.leading ++ token.trailing, piece.IsPlain
  lineEnd : ∀ piece ∈ token.trailing.dropLast, piece.isEndOfLine = false
  lineRest : token.hasTrailingNewline = false → Trivia.piece? behind.rest = none
  leading : token.leading = (Trivia.leading scanner.rest).1
  kind_eq_eof_iff : token.kind = .eof ↔ (Trivia.leading scanner.rest).2 = []
  text_eq_empty_iff : token.text = "" ↔ token.kind = .eof
  rest_of_eof : token.kind = .eof → behind.rest = []

theorem isStep_next (scanner : Scanner) : IsStep scanner scanner.next.1 scanner.next.2 := by
  have hl := Trivia.source_leading scanner.rest
  have hp := Trivia.isPlain_of_mem_leading scanner.rest
  -- behind the leading trivia there is a lexeme, or the end of input
  cases h : (Trivia.leading scanner.rest).2 with
  | nil =>
    rw [next_of_nil h]
    refine ⟨?_, rfl, rfl, ?_, ⟨rfl, rfl⟩, rfl, by simp [Token.ofText], by simpa [Token.ofText],
      by simp [Token.ofText], fun _ => by simp [Trivia.piece?, Trivia.inLine?, Trivia.lineBreak?],
      rfl, by simp [Token.ofText, h], by simp [Token.ofText], fun _ => rfl⟩
    · rw [h] at hl
      simpa [Token.source_eq, Token.ofText, Trivia.sources] using hl
    · simp [Token.fullStop, Token.ofText, Trivia.widths]
  | cons c rest =>
    have hfit := Lexeme.fits_next scanner.mode c rest
    have ht := Trivia.source_trailing (rest.drop (Lexeme.next scanner.mode c rest).more)
    simp only [next, h]
    refine ⟨?_, rfl, rfl, rfl, ⟨rfl, rfl⟩, rfl, by simp [Token.ofText], ?_,
      Trivia.isEndOfLine_of_mem_dropLast_trailing _, ?_, rfl,
        by simp [Token.ofText, hfit.kind_ne, h],
      by simp [Token.ofText, hfit.kind_ne, String.ofList_eq_empty_iff],
      fun hk => absurd hk hfit.kind_ne⟩
    · rw [h] at hl
      simp only [Token.source_eq, Token.ofText]
      rw [String.append_assoc, ht, String.append_assoc, ← String.ofList_append, List.cons_append,
        List.take_append_drop, hl]
    · intro piece hmem
      rcases List.mem_append.mp hmem with hmem | hmem
      · exact hp piece hmem
      · exact Trivia.isPlain_of_mem_trailing _ piece hmem
    · intro hn
      rw [Token.hasTrailingNewline_eq] at hn
      exact Trivia.piece?_trailing _ hn

theorem Valid.next {scanner : Scanner} (h : scanner.Valid) : scanner.next.2.Valid := by
  obtain ⟨before, hs, ho⟩ := h
  have hstep := isStep_next scanner
  refine ⟨before ++ scanner.next.1.source.toList, ?_, ?_⟩
  · have hrest : scanner.rest = scanner.next.1.source.toList ++ scanner.next.2.rest := by
      rw [← String.ofList_inj, String.ofList_append, String.ofList_toList, hstep.source]
    rw [hstep.same.1, hs, List.append_assoc, ← hrest]
  · rw [hstep.offset, Token.fullStop, hstep.stop, hstep.start, ho, byteLength_eq_utf8ByteSize,
      byteLength_eq_utf8ByteSize, String.ofList_append, String.ofList_toList, Token.source_eq]
    simp only [String.utf8ByteSize_append, Token.leadingWidth, Trivia.widths_eq_utf8ByteSize]
    omega

/-- The text of a token is what stands in the source at its span. -/
theorem Valid.spells_next {scanner : Scanner} (h : scanner.Valid) :
    scanner.next.1.span.Spells (String.ofList scanner.source) scanner.next.1.text := by
  obtain ⟨before, hs, ho⟩ := h
  have hstep := isStep_next scanner
  refine ⟨String.ofList before ++ Trivia.sources scanner.next.1.leading,
    Trivia.sources scanner.next.1.trailing ++ String.ofList scanner.next.2.rest, ?_, ?_, hstep.stop⟩
  · rw [hs, String.ofList_append, ← hstep.source, Token.source_eq]
    simp only [String.append_assoc]
  · rw [hstep.start, ho, byteLength_eq_utf8ByteSize, String.utf8ByteSize_append, Token.leadingWidth,
      Trivia.widths_eq_utf8ByteSize]

theorem take_add (scanner : Scanner) (m n : Nat) :
    scanner.take (m + n) =
      ((scanner.take m).1 ++ ((scanner.take m).2.take n).1, ((scanner.take m).2.take n).2) := by
  induction m generalizing scanner with
  | zero => simp [take]
  | succ m ih => rw [Nat.succ_add, take, ih, take, List.cons_append]

/-! ## A whole scan -/

theorem tokens_of_eof {scanner : Scanner} (h : scanner.next.1.kind = .eof) :
    scanner.tokens = [scanner.next.1] := by
  rw [tokens, drain, dif_pos h]

theorem tokens_of_ne_eof {scanner : Scanner} (h : scanner.next.1.kind ≠ .eof) :
    scanner.tokens = scanner.next.1 :: scanner.next.2.tokens := by
  rw [tokens, drain, dif_neg h, tokens]

theorem head?_tokens (scanner : Scanner) : scanner.tokens.head? = some scanner.next.1 := by
  by_cases h : scanner.next.1.kind = .eof
  · rw [tokens_of_eof h, List.head?_cons]
  · rw [tokens_of_ne_eof h, List.head?_cons]

/-- Induction along a scan: at the end of input, and a step before it. -/
theorem scan_induction {motive : Scanner → Prop}
    (eof : ∀ scanner, scanner.next.1.kind = .eof → motive scanner)
    (step : ∀ scanner, scanner.next.1.kind ≠ .eof → motive scanner.next.2 → motive scanner)
    (scanner : Scanner) : motive scanner := by
  induction h : scanner.rest.length using Nat.strongRecOn generalizing scanner with
  | _ length ih =>
    by_cases hk : scanner.next.1.kind = .eof
    · exact eof scanner hk
    · exact step scanner hk (ih _ (h ▸ scanner.length_rest_next_lt hk) _ rfl)

/-- A scan is as many single steps as it has tokens. -/
theorem take_length_tokens (scanner : Scanner) :
    scanner.take scanner.tokens.length = scanner.drain := by
  induction scanner using scan_induction with
  | eof scanner h =>
    rw [tokens_of_eof h, drain, dif_pos h]
    rfl
  | step scanner h ih =>
    have hd : scanner.drain =
        (scanner.next.1 :: scanner.next.2.drain.1, scanner.next.2.drain.2) := by
      rw [drain, dif_neg h]
    rw [tokens_of_ne_eof h, List.length_cons, take, ih, hd]

/-- The end of input comes last and only there. -/
theorem exists_tokens_eq_append (scanner : Scanner) :
    ∃ words eof, scanner.tokens = words ++ [eof] ∧ eof.kind = .eof ∧
      ∀ token ∈ words, token.kind ≠ .eof := by
  induction scanner using scan_induction with
  | eof scanner h => exact ⟨[], _, tokens_of_eof h, h, by simp⟩
  | step scanner h ih =>
    obtain ⟨words, eof, ht, heof, hwords⟩ := ih
    refine ⟨scanner.next.1 :: words, eof, by rw [tokens_of_ne_eof h, ht, List.cons_append], heof,
      ?_⟩
    intro token hmem
    rcases List.mem_cons.mp hmem with rfl | hmem
    · exact h
    · exact hwords token hmem

theorem sources_tokens (scanner : Scanner) :
    Token.sources scanner.tokens = String.ofList scanner.rest := by
  induction scanner using scan_induction with
  | eof scanner h =>
    have hstep := isStep_next scanner
    have hs := hstep.source
    rw [hstep.rest_of_eof h] at hs
    rw [tokens_of_eof h, ← hs]
    rfl
  | step scanner h ih =>
    rw [tokens_of_ne_eof h, Token.sources, ih, (isStep_next scanner).source]

/-- What each step of a scan has, each token of the scan has. -/
theorem forall_mem_tokens {source : List Char} (property : Token → Prop)
    (hstep : ∀ scanner : Scanner, scanner.Valid → scanner.source = source →
      property scanner.next.1)
    (scanner : Scanner) (hv : scanner.Valid) (hs : scanner.source = source) :
    ∀ token ∈ scanner.tokens, property token := by
  induction scanner using scan_induction with
  | eof scanner h =>
    intro token hmem
    rw [tokens_of_eof h, List.mem_singleton] at hmem
    exact hmem ▸ hstep scanner hv hs
  | step scanner h ih =>
    intro token hmem
    rw [tokens_of_ne_eof h] at hmem
    rcases List.mem_cons.mp hmem with rfl | hmem
    · exact hstep scanner hv hs
    · exact ih hv.next ((isStep_next scanner).same.1.trans hs) token hmem

/-- What two steps in a row have, each two tokens in a row have. -/
theorem isChain_tokens (relation : Token → Token → Prop)
    (hstep : ∀ scanner : Scanner, relation scanner.next.1 scanner.next.2.next.1)
    (scanner : Scanner) : scanner.tokens.IsChain relation := by
  induction scanner using scan_induction with
  | eof scanner h => rw [tokens_of_eof h]; exact .singleton _
  | step scanner h ih =>
    rw [tokens_of_ne_eof h]
    refine ih.cons ?_
    intro second hmem
    rw [head?_tokens, Option.mem_some_iff] at hmem
    exact hmem ▸ hstep scanner

theorem abuts_next (scanner : Scanner) : scanner.next.1.Abuts scanner.next.2.next.1 := by
  rw [Token.Abuts, (isStep_next scanner.next.2).start, (isStep_next scanner).offset]

theorem leading_next_next (scanner : Scanner)
    (h : scanner.next.1.hasTrailingNewline = false) : scanner.next.2.next.1.leading = [] := by
  rw [(isStep_next scanner.next.2).leading,
    Trivia.leading_of_piece?_eq_none ((isStep_next scanner).lineRest h)]

end Scanner

/-! ## Tilings -/

/-- Each piece of a run of trivia that begins at `offset` stands in the source, between characters,
where the widths of the pieces before it put it. -/
def Trivia.SpelledFrom (source : String) : Nat → List Trivia → Prop
  | _, [] => True
  | offset, piece :: rest =>
    Span.Spells ⟨offset, offset + piece.width⟩ source piece.source ∧
      SpelledFrom source (offset + piece.width) rest

theorem Trivia.spelledFrom_of_eq_append {source : String} (pieces : List Trivia)
    {before : String} (after : String) (h : source = before ++ sources pieces ++ after) :
    SpelledFrom source before.utf8ByteSize pieces := by
  induction pieces generalizing before with
  | nil => trivial
  | cons piece rest ih =>
    rw [sources] at h
    refine ⟨⟨before, sources rest ++ after, ?_, rfl, by rw [width_eq_utf8ByteSize]⟩, ?_⟩
    · rw [h]
      simp only [String.append_assoc]
    · rw [width_eq_utf8ByteSize, ← String.utf8ByteSize_append]
      exact ih (by rw [h]; simp only [String.append_assoc])

/-- How a token of a scan lies in the source: its text and each piece of its trivia stand there, one
behind the other and between characters; a line break ends the trivia behind it; and the end of
input is where the source ends. -/
structure Token.LiesIn (source : String) (token : Token) : Prop where
  text : token.span.Spells source token.text
  leading : Trivia.SpelledFrom source token.fullStart token.leading
  start : token.span.start = token.fullStart + token.leadingWidth
  trailing : Trivia.SpelledFrom source token.span.stop token.trailing
  lineEnd : ∀ piece ∈ token.trailing.dropLast, piece.isEndOfLine = false
  text_eq_empty_iff : token.text = "" ↔ token.kind = .eof
  span_of_eof : token.kind = .eof → token.span = .empty source.utf8ByteSize

/-- A row of words and the end of input that tiles a source: no byte is left out and none is taken
twice, and trivia belongs to the token before it as far as the line goes. -/
structure Tiling (source : String) (words : List Token) (eof : Token) : Prop where
  word : ∀ token ∈ words, token.kind ≠ .eof ∧ token.text ≠ ""
  last : eof.kind = .eof ∧ eof.text = "" ∧ eof.span = .empty source.utf8ByteSize
  lies : ∀ token ∈ words ++ [eof], token.LiesIn source
  first : ∀ token ∈ (words ++ [eof]).head?, token.fullStart = 0
  abut : (words ++ [eof]).IsChain Token.Abuts
  source_eq : Token.sources (words ++ [eof]) = source
  sameLine : (words ++ [eof]).IsChain fun first second =>
    first.hasTrailingNewline = false → second.leading = []

namespace Scanner

/-! ## Looking ahead by bytes -/

/-- Does `is` come next at an offset, and end there as a word? The source is cut at bytes only, and
there is no answer if one of the cuts is within a character. -/
def endsWithIs? (source : List Char) (offset : Nat) : Option Bool := do
  let ahead ← behind? offset source
  if ['i', 's'].isPrefixOf ahead then
    let more ← behind? 2 ahead
    return !Lexeme.continuesWord more
  else return false

/-- Length of the exponent whose mark has the characters behind it, cut at bytes only. -/
def exponentBehind? (marked : List Char) : Option Nat := do
  let sign := if marked.head?.any (['+', '-'].contains ·) then 1 else 0
  let digits ← behind? sign marked
  return if Lexeme.startsWithDigit digits then 1 + sign + Lexeme.digitCount digits else 0

/-- Length of the exponent at an offset. The source is cut at bytes only, and there is no answer if
one of the cuts is within a character. -/
def exponentLength? (source : List Char) (offset : Nat) : Option Nat := do
  let ahead ← behind? offset source
  if ahead.head?.any (['e', 'E'].contains ·) then
    exponentBehind? (← behind? (offset + 1) source)
  else return 0

/-- Behind `!`, all cuts are between characters, and they tell whether the operator is `!is`. -/
theorem endsWithIs?_append (before ahead : List Char) :
    endsWithIs? (before ++ ahead) (byteLength before) =
      some (Lexeme.afterBang ahead == .clean .notIs 2) := by
  rw [endsWithIs?, behind?_append, Option.bind_eq_bind, Option.bind_some]
  split
  · next his =>
    obtain ⟨more, rfl⟩ := List.isPrefixOf_iff_prefix.mp his
    have hcut : behind? 2 (['i', 's'] ++ more) = some more := behind?_append ['i', 's'] more
    rw [hcut]
    show some (!Lexeme.continuesWord more) =
      some ((if Lexeme.continuesWord more then Lexeme.clean .exclamation 0
        else .clean .notIs 2) == .clean .notIs 2)
    cases Lexeme.continuesWord more <;> rfl
  · next his =>
    refine congrArg some (beq_eq_false_iff_ne.mpr ?_).symm
    unfold Lexeme.afterBang
    split <;> simp_all [Lexeme.clean]

/-- Behind one character of one byte, the next cut is between characters too. -/
theorem behind?_append_cons {c : Char} (hsize : c.utf8Size = 1) (before after : List Char) :
    behind? (byteLength before + 1) (before ++ c :: after) = some after := by
  have hcut := behind?_append (before ++ [c]) after
  rwa [byteLength_append, byteLength_cons, hsize, ← List.append_cons] at hcut

/-- A sign takes one byte, so the digits begin between characters, with it and without. -/
theorem exponentBehind?_eq {c : Char} (hc : (c == 'e' || c == 'E') = true) (marked : List Char) :
    exponentBehind? marked = some (Lexeme.exponentLength (c :: marked)) := by
  cases marked with
  | nil => rfl
  | cons sign digits =>
    rw [exponentBehind?, List.head?_cons, Option.any_some, Lexeme.exponentLength, if_pos hc]
    split
    · next hsign =>
      have hsigned := List.mem_pair.mp (List.contains_iff_mem.mp hsign)
      have hsize : sign.utf8Size = 1 := by rcases hsigned with rfl | rfl <;> rfl
      have hs : (sign == '+' || sign == '-') = true := by rcases hsigned with rfl | rfl <;> rfl
      have hcut : behind? 1 (sign :: digits) = some digits := behind?_append_cons hsize [] digits
      show (behind? 1 (sign :: digits)).bind _ = _
      rw [if_pos hs, hcut]
      rfl
    · next hsign =>
      have hs : ¬(sign == '+' || sign == '-') = true := fun hs => hsign (by simpa using hs)
      rw [if_neg hs]
      rfl

/-- Behind a number, all cuts are between characters, and they measure the exponent. -/
theorem exponentLength?_append (before ahead : List Char) :
    exponentLength? (before ++ ahead) (byteLength before) =
      some (Lexeme.exponentLength ahead) := by
  rw [exponentLength?, behind?_append, Option.bind_eq_bind, Option.bind_some]
  cases ahead with
  | nil => rfl
  | cons c marked =>
    rw [List.head?_cons, Option.any_some]
    split
    · next hmark =>
      have hletter := List.mem_pair.mp (List.contains_iff_mem.mp hmark)
      have hsize : c.utf8Size = 1 := by rcases hletter with rfl | rfl <;> rfl
      rw [behind?_append_cons hsize, Option.bind_some]
      exact exponentBehind?_eq (by rcases hletter with rfl | rfl <;> rfl) marked
    · next hmark =>
      have hc : ¬(c == 'e' || c == 'E') = true := fun hc => hmark (by simpa using hc)
      cases marked with
      | nil => rfl
      | cons sign digits =>
        rw [Lexeme.exponentLength, if_neg hc]
        rfl

theorem fullStart_next (scanner : Scanner) : scanner.next.1.fullStart = scanner.offset := by
  rw [Token.fullStart, (isStep_next scanner).start, Nat.add_sub_cancel]

theorem trailing_of_eof {scanner : Scanner} (h : scanner.next.1.kind = .eof) :
    scanner.next.1.trailing = [] := by
  rw [next_of_nil ((isStep_next scanner).kind_eq_eof_iff.mp h)]
  rfl

/-- The end of input is found where the source ends. -/
theorem Valid.span_of_eof {scanner : Scanner} (h : scanner.Valid)
    (hk : scanner.next.1.kind = .eof) :
    scanner.next.1.span = .empty (String.ofList scanner.source).utf8ByteSize := by
  have hstep := isStep_next scanner
  obtain ⟨before, hs, ho⟩ := h.next
  have hstop : scanner.next.1.span.stop = (String.ofList scanner.source).utf8ByteSize := by
    have hfull := hstep.offset
    rw [Token.fullStop, trailing_of_eof hk, Trivia.widths, Nat.add_zero] at hfull
    rw [hstep.rest_of_eof hk, List.append_nil, hstep.same.1] at hs
    rw [← hfull, ho, hs, byteLength_eq_utf8ByteSize]
  have hstart := hstep.stop
  rw [hstep.text_eq_empty_iff.mpr hk, String.utf8ByteSize_empty, Nat.add_zero] at hstart
  exact Span.eq_empty (hstart.symm.trans hstop) hstop

theorem Valid.liesIn_next {scanner : Scanner} (h : scanner.Valid) :
    scanner.next.1.LiesIn (String.ofList scanner.source) := by
  have hspells := h.spells_next
  have heof := h.span_of_eof
  have hstep := isStep_next scanner
  obtain ⟨before, hs, ho⟩ := h
  -- the source, cut at the token: what is before it, its trivia and text, and what is behind it
  have hsource : String.ofList scanner.source = String.ofList before ++
      (Trivia.sources scanner.next.1.leading ++ (scanner.next.1.text ++
        (Trivia.sources scanner.next.1.trailing ++ String.ofList scanner.next.2.rest))) := by
    rw [hs, String.ofList_append, ← hstep.source, Token.source_eq]
    simp only [String.append_assoc]
  have hoff : scanner.offset = (String.ofList before).utf8ByteSize := by
    rw [ho, byteLength_eq_utf8ByteSize]
  have hstop : scanner.next.1.span.stop = (String.ofList before ++
      Trivia.sources scanner.next.1.leading ++ scanner.next.1.text).utf8ByteSize := by
    rw [hstep.stop, hstep.start, hoff, Token.leadingWidth, Trivia.widths_eq_utf8ByteSize]
    simp only [String.utf8ByteSize_append]
  refine ⟨hspells, ?_, ?_, ?_, hstep.lineEnd, hstep.text_eq_empty_iff, heof⟩
  · rw [fullStart_next, hoff]
    refine Trivia.spelledFrom_of_eq_append _ (scanner.next.1.text ++
      (Trivia.sources scanner.next.1.trailing ++ String.ofList scanner.next.2.rest)) ?_
    rw [hsource, String.append_assoc]
  · rw [fullStart_next]
    exact hstep.start
  · rw [hstop]
    refine Trivia.spelledFrom_of_eq_append _ (String.ofList scanner.next.2.rest) ?_
    rw [hsource]
    simp only [String.append_assoc]

/-- A scan from the beginning of a source tiles it. -/
theorem exists_tiling {scanner : Scanner} {source : String} (hs : scanner.source = source.toList)
    (hr : scanner.rest = source.toList) (ho : scanner.offset = 0) :
    ∃ words eof, scanner.tokens = words ++ [eof] ∧ Tiling source words eof := by
  have hv : scanner.Valid := ⟨[], by rw [hs, hr, List.nil_append], ho⟩
  obtain ⟨words, eof, ht, heof, hwords⟩ := exists_tokens_eq_append scanner
  have hlies := forall_mem_tokens (fun token => token.LiesIn source)
    (fun other hother hs => by simpa [hs] using hother.liesIn_next) scanner hv hs
  have hchain := isChain_tokens Token.Abuts abuts_next scanner
  have hline := isChain_tokens
    (fun first second => first.hasTrailingNewline = false → second.leading = [])
    leading_next_next scanner
  have hfirst := head?_tokens scanner
  have hsource := sources_tokens scanner
  rw [hr, String.ofList_toList] at hsource
  rw [ht] at hlies hchain hline hfirst hsource
  refine ⟨words, eof, ht, ?_, ⟨heof, ?_, ?_⟩, hlies, ?_, hchain, hsource, hline⟩
  · intro token hmem
    have htext := (hlies token (by simp [hmem])).text_eq_empty_iff
    exact ⟨hwords token hmem, fun he => hwords token hmem (htext.mp he)⟩
  · exact (hlies eof (by simp)).text_eq_empty_iff.mpr heof
  · exact (hlies eof (by simp)).span_of_eof heof
  · intro token hmem
    rw [hfirst, Option.mem_some_iff] at hmem
    rw [← hmem, fullStart_next, ho]

/-- **The tokens of a scan tile its source**, in either mode: the scan reaches the end of input in
as many steps as it has tokens, and no lexeme on the way counts further than the source goes. Nor is
the source cut within a character by what looks ahead at bytes, of `!is` and of an exponent. -/
theorem tokens_tile (source : String) (mode : LexerMode) :
    ∃ words eof,
      ((ofSource source).reset 0 mode).tokens = words ++ [eof] ∧
      (((ofSource source).reset 0 mode).take (words.length + 1)).1 = words ++ [eof] ∧
      Tiling source words eof ∧
      (∀ c rest, c :: rest <:+ source.toList →
        (Lexeme.next mode c rest).more ≤ rest.length) ∧
      ∀ before ahead, source.toList = before ++ ahead →
        behind? (byteLength before) source.toList = some ahead ∧
        endsWithIs? source.toList (byteLength before) =
          some (Lexeme.afterBang ahead == .clean .notIs 2) ∧
        exponentLength? source.toList (byteLength before) =
          some (Lexeme.exponentLength ahead) := by
  have hreset : (ofSource source).reset 0 mode = { ofSource source with mode } :=
    (valid_ofSource source).reset_eq mode
  rw [hreset]
  obtain ⟨words, eof, ht, htiling⟩ :=
    @exists_tiling { ofSource source with mode } source rfl rfl rfl
  have htake := take_length_tokens { ofSource source with mode }
  rw [ht, List.length_append, List.length_singleton] at htake
  refine ⟨words, eof, ht, by rw [htake, ← ht, tokens], htiling, fun c rest _ => ?_,
    fun before ahead hsource => ?_⟩
  · exact (Lexeme.fits_next mode c rest).more_le
  · rw [hsource]
    exact ⟨behind?_append before ahead, endsWithIs?_append before ahead,
      exponentLength?_append before ahead⟩

end Scanner

end TolerantSyntax
