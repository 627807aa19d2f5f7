import TolerantSyntax.Kind.Text
import TolerantSyntax.Proofs.Lexer.Scan
import TolerantSyntax.Proofs.Tree.Leaves

/-!
# Words

A row of words is written with single spaces between them, except where two words have to touch.
If each word is one lexeme before what is written behind it, the scanner gives the words of the row
back one by one. Here is what makes a word one lexeme in such a row: a name, an integer or a symbol
is read as a token of its kind, with its text, when a space or the end of input follows.
-/

namespace TolerantSyntax

/-! ## Writing words -/

/-- A token to be written. -/
structure Word where
  kind : Kind
  text : List Char
  /-- Does the word behind it touch it? -/
  tight : Bool

namespace Word

/-- What is written behind a word: nothing at the end, nor where the next word touches. -/
def gap (word : Word) (rest : List Word) : List Char :=
  if word.tight || rest.isEmpty then [] else [' ']

/-- A row of words as it is written. -/
def spell : List Word → List Char
  | [] => []
  | word :: rest => word.text ++ (word.gap rest ++ spell rest)

/-- What may be written behind a word: a space or nothing, or a `>` that touches it. -/
def Follows (word : Word) (after : List Char) : Prop :=
  if word.tight then after.head? = some '>' else after = [] ∨ after.head? = some ' '

/-- Symbols of expressions and of the statements around them; each is always written the same
way. -/
def symbols : List Kind :=
  [.equal, .semicolon, .openParen, .closeParen, .openBracket, .closeBracket, .comma, .dot, .plus,
   .minus, .exclamation, .tilde, .asterisk, .slash, .percent, .doubleLt, .ellipsis, .doubleDotLt,
   .lt, .gt, .ltEqual, .gtEqual, .doubleEqual, .tripleEqual, .notEqual, .notDoubleEqual,
   .bitwiseAnd, .caret, .pipe, .logicalAnd, .logicalOr, .elvis]

/-- Kinds of the words of expressions and statements. -/
def kinds : List Kind :=
  .identifier :: .decimalIntegerLiteral :: .hexIntegerLiteral :: symbols

/-- The word is one lexeme of its kind, whatever may be written behind it. -/
structure IsLexeme (word : Word) : Prop where
  visible : ∀ after, word.Follows after → Trivia.piece? (word.text ++ after) = none
  lexeme : ∃ first more, word.text = first :: more ∧
    ∀ after, word.Follows after →
      Lexeme.next .code first (more ++ after) = .clean word.kind more.length

/-- Every word of the row is one lexeme of an expression or a statement, and words touch only where
a `>` follows. -/
def InRow : List Word → Prop
  | [] => True
  | word :: rest =>
    (word.kind ∈ kinds ∧ word.IsLexeme) ∧
      (word.tight = true → rest.head?.map Word.text = some ['>']) ∧ InRow rest

theorem InRow.mem_kinds {words : List Word} (h : InRow words) :
    ∀ word ∈ words, word.kind ∈ kinds := by
  induction words with
  | nil => exact List.forall_mem_nil _
  | cons word rest ih => exact List.forall_mem_cons.mpr ⟨h.1.1, ih h.2.2⟩

/-- Before what is written behind it, the word is one lexeme of its kind. -/
structure IsLexemeBefore (word : Word) (after : List Char) : Prop where
  visible : Trivia.piece? (word.text ++ after) = none
  lexeme : ∃ first more, word.text = first :: more ∧
    Lexeme.next .code first (more ++ after) = .clean word.kind more.length

theorem IsLexeme.before {word : Word} {after : List Char} (h : word.IsLexeme)
    (hfollows : word.Follows after) : word.IsLexemeBefore after := by
  obtain ⟨first, more, htext, hlexeme⟩ := h.lexeme
  exact ⟨h.visible after hfollows, first, more, htext, hlexeme after hfollows⟩

/-- Every word of the row is one lexeme before what is written behind it. -/
def IsRow : List Word → Prop
  | [] => True
  | word :: rest => word.IsLexemeBefore (word.gap rest ++ spell rest) ∧ IsRow rest

/-- A row does not begin with trivia. -/
theorem piece?_spell {words : List Word} (h : IsRow words) :
    Trivia.piece? (spell words) = none := by
  cases words with
  | nil => rfl
  | cons word rest => exact h.1.visible

/-- A word behind which there is a space can be written before any row. -/
theorem isRow_cons {word : Word} {rest : List Word} (hword : word.IsLexeme)
    (hloose : word.tight = false) (hrest : IsRow rest) : IsRow (word :: rest) := by
  refine ⟨hword.before ?_, hrest⟩
  cases rest with
  | nil => simp [Follows, gap, spell, hloose]
  | cons => simp [Follows, gap, hloose]

/-- Words of expressions and statements can be written before any row. -/
theorem isRow_append {words rest : List Word} (h : InRow words) (hrest : IsRow rest) :
    IsRow (words ++ rest) := by
  induction words with
  | nil => exact hrest
  | cons word words ih =>
    obtain ⟨⟨-, hword⟩, htight, hwords⟩ := h
    have hrow := ih hwords
    cases ht : word.tight with
    | false => exact isRow_cons hword ht hrow
    | true =>
      refine ⟨hword.before ?_, hrow⟩
      -- the word that touches is one of the same row
      cases words with
      | nil => exact absurd (htight ht) (by simp)
      | cons other more =>
        have hother : other.text = ['>'] := by simpa using htight ht
        simp [Follows, gap, spell, ht, hother]

end Word

/-! ## Scanning words -/

namespace Trivia

theorem trailing_of_piece?_eq_none {input : List Char} (h : piece? input = none) :
    trailing input = ([], input) := by
  rw [piece?, Option.or_eq_none_iff] at h
  rw [trailing]
  split
  · next h' => rw [h.1] at h'; simp at h'
  · split
    · next h' => rw [h.2] at h'; simp at h'
    · rfl

/-- A space behind a word is all the trivia there. -/
theorem trailing_space {input : List Char} (h : piece? input = none) :
    trailing (' ' :: input) = ([.whitespace " "], input) := by
  have hspan : span .whitespace isBlank (' ' :: input) = (.whitespace " ", input) := by
    cases input with
    | nil => rfl
    | cons c rest =>
      have hblank : isBlank c = false := by
        rw [piece?, Option.or_eq_none_iff, inLine?] at h
        by_contra hb
        rw [if_pos (by simpa using hb)] at h
        exact absurd h.1 (by simp)
      rw [span, List.takeWhile_cons_of_pos (by decide),
        List.takeWhile_cons_of_neg (by simp [hblank]),
        List.dropWhile_cons_of_pos (by decide), List.dropWhile_cons_of_neg (by simp [hblank])]
  have hline : inLine? (' ' :: input) = some (.whitespace " ", input) := by
    rw [inLine?, if_pos (by decide), hspan]
  rw [trailing]
  split
  · next piece rest h' =>
    rw [hline, Option.some.injEq, Prod.mk.injEq] at h'
    rw [← h'.1, ← h'.2, trailing_of_piece?_eq_none h]
  · next h' => rw [hline] at h'; cases h'

end Trivia

/-- The token is the word, and nothing is wrong with it. -/
structure Word.IsToken (word : Word) (token : Token) : Prop where
  kind : token.kind = word.kind
  text : token.text = String.ofList word.text
  clean : token.collect = []
  present : token.missing = false

/-- Blank space and comments around a token have nothing to say, so it is the word if it has its
kind and text and no diagnostic. -/
theorem Scanner.isToken_next {scanner : Scanner} {word : Word}
    (hkind : scanner.next.1.kind = word.kind)
    (htext : scanner.next.1.text = String.ofList word.text)
    (hclean : scanner.next.1.diagnostics = []) : word.IsToken scanner.next.1 := by
  have hstep := isStep_next scanner
  obtain ⟨hleading, htrailing⟩ := List.forall_mem_append.mp hstep.plain
  refine ⟨hkind, htext, ?_, hstep.present⟩
  rw [Token.collect_eq, hclean, Trivia.collectAll_of_isPlain hleading,
    Trivia.collectAll_of_isPlain htrailing]
  rfl

/-- A lexeme is the next token, and the trivia on its line belongs to it. -/
theorem Scanner.next_of_isLexemeBefore {scanner : Scanner} {word : Word}
    {after behind : List Char} {pieces : List Trivia} (hmode : scanner.mode = .code)
    (hrest : scanner.rest = word.text ++ after) (hword : word.IsLexemeBefore after)
    (hafter : Trivia.trailing after = (pieces, behind)) :
    word.IsToken scanner.next.1 ∧ scanner.next.1.leading = [] ∧
      scanner.next.1.trailing = pieces ∧ scanner.next.2.rest = behind := by
  obtain ⟨first, more, htext, hlexeme⟩ := hword.lexeme
  have hleading : Trivia.leading scanner.rest = ([], first :: (more ++ after)) := by
    rw [hrest, Trivia.leading_of_piece?_eq_none hword.visible, htext, List.cons_append]
  have htoken (hkind : scanner.next.1.kind = word.kind)
      (htext : scanner.next.1.text = String.ofList word.text)
      (hclean : scanner.next.1.diagnostics = []) := isToken_next hkind htext hclean
  simp only [Scanner.next, hleading, hmode, hlexeme, Lexeme.clean, List.take_left,
    List.drop_left, hafter] at htoken ⊢
  exact ⟨htoken rfl (by rw [htext]; rfl) rfl, rfl, rfl, trivial⟩

/-- A lexeme with a space or nothing behind it is the next token. -/
theorem Scanner.next_of_lexeme {scanner : Scanner} {word : Word} {first : Char}
    {more gap behind : List Char} (hmode : scanner.mode = .code)
    (hrest : scanner.rest = word.text ++ (gap ++ behind)) (htext : word.text = first :: more)
    (hvisible : Trivia.piece? scanner.rest = none)
    (hlexeme : Lexeme.next .code first (more ++ (gap ++ behind)) = .clean word.kind more.length)
    (hgap : gap = [] ∨ gap = [' ']) (hbehind : Trivia.piece? behind = none) :
    word.IsToken scanner.next.1 ∧ scanner.next.1.leading = [] ∧
      (gap = [] → scanner.next.1.trailing = []) ∧ scanner.next.2.rest = behind := by
  have hafter : Trivia.trailing (gap ++ behind) =
      (if gap = [] then [] else [.whitespace " "], behind) := by
    rcases hgap with rfl | rfl
    · exact Trivia.trailing_of_piece?_eq_none hbehind
    · exact Trivia.trailing_space hbehind
  obtain ⟨htoken, hleading, htrailing, hrest⟩ :=
    next_of_isLexemeBefore hmode hrest ⟨hrest ▸ hvisible, first, more, htext, hlexeme⟩ hafter
  exact ⟨htoken, hleading, fun hnil => htrailing.trans (if_pos hnil), hrest⟩

/-- **The first word of a row is the next token**, and behind it the rest of the row is ahead. -/
theorem Scanner.next_of_spell {scanner : Scanner} {word : Word} {rest : List Word}
    (hrow : Word.IsRow (word :: rest)) (hmode : scanner.mode = .code)
    (hrest : scanner.rest = Word.spell (word :: rest)) :
    word.IsToken scanner.next.1 ∧ scanner.next.1.leading = [] ∧
      (word.tight = true → scanner.next.1.trailing = []) ∧
      scanner.next.2.rest = Word.spell rest := by
  obtain ⟨first, more, htext, hlexeme⟩ := hrow.1.lexeme
  have hgap : word.gap rest = [] ∨ word.gap rest = [' '] := by
    unfold Word.gap
    split <;> simp
  obtain ⟨htoken, hleading, htrailing, hbehind⟩ :=
    next_of_lexeme hmode hrest htext (hrest ▸ Word.piece?_spell hrow) hlexeme hgap
      (Word.piece?_spell hrow.2)
  exact ⟨htoken, hleading, fun ht => htrailing (by rw [Word.gap, ht, Bool.true_or, if_pos rfl]),
    hbehind⟩

/-- Nothing stands before the first token of a row. -/
theorem Scanner.leading_next_of_spell {scanner : Scanner} {words : List Word}
    (hrow : Word.IsRow words) (hmode : scanner.mode = .code)
    (hrest : scanner.rest = Word.spell words) : scanner.next.1.leading = [] := by
  cases words with
  | nil =>
    have hnil : Trivia.leading scanner.rest = ([], []) := by
      rw [hrest, Word.spell, Trivia.leading_of_piece?_eq_none rfl]
    rw [next_of_nil (congrArg Prod.snd hnil), hnil]
    rfl
  | cons word rest => exact (next_of_spell hrow hmode hrest).2.1

/-! ## Characters -/

namespace Trivia

/-- Characters that can begin trivia. -/
def beginnings : List Char := [' ', '\t', '\x0c', '/', '#', '\n', '\r']

theorem piece?_of_notMem {c : Char} {rest : List Char} (h : c ∉ beginnings) :
    piece? (c :: rest) = none := by
  simp only [beginnings, List.mem_cons, List.not_mem_nil, or_false, not_or] at h
  have hbreak : lineBreak? (c :: rest) = none := by
    unfold lineBreak?
    split <;> simp_all
  have hblank : isBlank c = false := by simp [isBlank, h]
  rw [piece?, hbreak, inLine?, hblank]
  simp [h]

end Trivia

namespace Text

theorem inRanges_eq_false {ranges : List (Nat × Nat)} {c : Char} (bound : Nat)
    (hranges : ∀ range ∈ ranges, bound ≤ range.1) (hc : c.toNat < bound) :
    inRanges ranges c = false := by
  rw [inRanges, List.any_eq_false]
  intro range hmem
  have hle := hranges range hmem
  simp only [Bool.and_eq_true, decide_eq_true_eq, not_and]
  omega

/-- The tables hold no character of ASCII. -/
theorem isIdStart_ascii {c : Char} (h : c.toNat < 0x80) :
    isIdStart c = (c == '_' || c.isAlpha) := by
  rw [isIdStart, inRanges_eq_false 0x80 (by decide +kernel) h, Bool.or_false]

theorem isIdContinue_ascii {c : Char} (h : c.toNat < 0x80) :
    isIdContinue c = (c == '_' || c.isAlpha || c.isDigit) := by
  rw [isIdContinue, isIdStart_ascii h, inRanges_eq_false 0x80 (by decide +kernel) h, Bool.or_false]

theorem isDigit_eq_false_of_isIdStart {c : Char} (h : isIdStart c = true) : c.isDigit = false := by
  by_contra hd
  have hd : c.isDigit = true := by simpa using hd
  have hcode : 48 ≤ c.toNat ∧ c.toNat ≤ 57 := by
    simpa [Char.isDigit, Char.le_def, UInt32.le_iff_toNat_le] using hd
  rw [isIdStart_ascii (by omega), Bool.or_eq_true, beq_iff_eq] at h
  rcases h with rfl | h
  · exact absurd hcode (by decide)
  · rcases Bool.or_eq_true_iff.mp h with h | h
    · have h : 65 ≤ c.toNat := (of_decide_eq_true h).1
      omega
    · have h : 97 ≤ c.toNat := of_decide_eq_true (Bool.and_eq_true_iff.mp h).1
      omega

end Text

/-! ## Names -/

/-- A word that begins like an identifier, has no other character in it and is no keyword, or any
such characters behind a quote. -/
inductive IsName : List Char → Prop where
  | plain {first : Char} {rest : List Char} (hfirst : Text.isIdStart first = true)
      (hrest : ∀ c ∈ rest, Text.isIdContinue c = true) (hline : first :: rest ≠ ['_'])
      (hkeyword : Kind.keyword? (String.ofList (first :: rest)) = none) : IsName (first :: rest)
  | quoted {first : Char} {rest : List Char}
      (h : ∀ c ∈ first :: rest, Text.isIdContinue c = true) : IsName ('\'' :: first :: rest)

/-- The text of an integer: decimal digits, or hexadecimal ones behind `0x` or `0X`. -/
inductive IsInteger : Kind → List Char → Prop where
  | decimal {first : Char} {rest : List Char} (h : ∀ c ∈ first :: rest, c.isDigit = true) :
      IsInteger .decimalIntegerLiteral (first :: rest)
  | hexadecimal {mark first : Char} {rest : List Char} (hmark : mark = 'x' ∨ mark = 'X')
      (h : ∀ c ∈ first :: rest, Lexeme.isHexDigit c = true) :
      IsInteger .hexIntegerLiteral ('0' :: mark :: first :: rest)

namespace Lexeme

/-- What does not go on a word ends it. -/
theorem takeWhile_append_of_stops {p : Char → Bool} {word after : List Char}
    (hp : ∀ c ∈ word, p c = true) (hafter : ∀ c ∈ after.head?, p c = false) :
    (word ++ after).takeWhile p = word := by
  rw [List.takeWhile_append_of_pos hp]
  have hnil : after.takeWhile p = [] := by
    cases after with
    | nil => rfl
    | cons c rest => exact List.takeWhile_cons_of_neg (by simp [hafter c rfl])
  rw [hnil, List.append_nil]

/-- What can be written behind a word does not go on it. -/
theorem stops_of_follows {p : Char → Bool} {after : List Char} (hspace : p ' ' = false)
    (hafter : after = [] ∨ after.head? = some ' ') : ∀ c ∈ after.head?, p c = false := by
  rcases hafter with rfl | h
  · intro c hc
    cases hc
  · rw [h]
    intro c hc
    cases hc
    exact hspace

/-- A word begins with no other character than an identifier. -/
theorem next_of_isIdStart {first : Char} {rest : List Char} (h : Text.isIdStart first = true)
    (hline : first = '_' → continuesWord rest = true) :
    next .code first rest = word .code first rest := by
  unfold next
  split
  case h_28 =>
    rw [if_neg (by simp [Text.isDigit_eq_false_of_isIdStart h]), if_neg (by simp_all), if_pos h]
  all_goals
    rw [Text.isIdStart_ascii (by decide)] at h
    exact absurd h (by decide)

theorem next_of_isDigit {first : Char} {rest : List Char} (h : first.isDigit = true) :
    next .code first rest = number first rest := by
  unfold next
  split
  case h_28 => rw [if_pos h]
  all_goals exact absurd h (by decide)

/-- Nothing goes on a number behind its digits. -/
theorem afterDigit_of_follows {digits after : List Char} (hd : ∀ c ∈ digits, c.isDigit = true)
    (hafter : after = [] ∨ after.head? = some ' ') :
    afterDigit (digits ++ after) = clean .decimalIntegerLiteral digits.length := by
  have hcount : digitCount (digits ++ after) = digits.length := by
    rw [digitCount, takeWhile_append_of_stops hd (stops_of_follows (by decide) hafter)]
  have hrest : after.head? ≠ some '.' ∧ exponentLength after = 0 ∧ suffixLength after = 0 := by
    rcases hafter with rfl | h
    · exact ⟨by simp, rfl, rfl⟩
    · obtain ⟨rest, rfl⟩ := List.head?_eq_some_iff.mp h
      exact ⟨by simp, by cases rest <;> simp [exponentLength], by simp [suffixLength]⟩
  simp [afterDigit, hcount, hrest]

theorem afterHexMark_of_follows {digits after : List Char} (hne : digits ≠ [])
    (hd : ∀ c ∈ digits, isHexDigit c = true) (hafter : after = [] ∨ after.head? = some ' ') :
    afterHexMark (digits ++ after) = clean .hexIntegerLiteral (1 + digits.length) := by
  have hpos : digits.length ≠ 0 := by simpa using hne
  rw [afterHexMark, takeWhile_append_of_stops hd (stops_of_follows (by decide) hafter),
    if_neg hpos, clean]

end Lexeme

/-! ## Words that are one lexeme -/

namespace Word

/-- A word behind which there is a space. -/
def loose (kind : Kind) (text : List Char) : Word :=
  ⟨kind, text, false⟩

theorem isLexeme_loose {kind : Kind} {first : Char} {more : List Char}
    (hvisible : first ∉ Trivia.beginnings)
    (hread : ∀ after, after = [] ∨ after.head? = some ' ' →
      Lexeme.next .code first (more ++ after) = .clean kind more.length) :
    (loose kind (first :: more)).IsLexeme := by
  refine ⟨fun after _ => Trivia.piece?_of_notMem hvisible, first, more, rfl, fun after ha => ?_⟩
  exact hread after (by simpa [Follows, loose] using ha)

/-- It is enough to look at what follows a space, and at the end. -/
theorem isLexeme_of_space {kind : Kind} {first : Char} {more : List Char}
    (hvisible : first ∉ Trivia.beginnings)
    (hend : Lexeme.next .code first more = .clean kind more.length)
    (hspace : ∀ rest, Lexeme.next .code first (more ++ ' ' :: rest) = .clean kind more.length) :
    (loose kind (first :: more)).IsLexeme := by
  refine isLexeme_loose hvisible fun after ha => ?_
  rcases ha with rfl | h
  · rw [List.append_nil]
    exact hend
  · obtain ⟨rest, rfl⟩ := List.head?_eq_some_iff.mp h
    exact hspace rest

theorem isIdContinue_space : Text.isIdContinue ' ' = false := by
  rw [Text.isIdContinue_ascii (by decide)]
  decide

/-- What begins a name does not begin trivia. -/
theorem notMem_beginnings {first : Char} (h : Text.isIdStart first = true ∨ first = '\'') :
    first ∉ Trivia.beginnings := by
  rcases h with h | rfl
  · intro hm
    have hnone : Trivia.beginnings.all (!Text.isIdStart ·) = true := by decide +kernel
    have hfirst := List.all_eq_true.mp hnone first hm
    rw [h] at hfirst
    cases hfirst
  · decide

/-- Characters of a word are one lexeme wherever the last of them is the last one of the word. -/
theorem next_of_isIdContinue {first : Char} {rest : List Char}
    (hfirst : Text.isIdStart first = true) (hrest : ∀ c ∈ rest, Text.isIdContinue c = true)
    (hline : first :: rest ≠ ['_']) (after : List Char)
    (hafter : ∀ c ∈ after.head?, Text.isIdContinue c = false) :
    Lexeme.next .code first (rest ++ after) =
      .clean (Lexeme.wordKind .code (String.ofList (first :: rest))) rest.length := by
  have hlength : Lexeme.wordLength (rest ++ after) = rest.length := by
    rw [Lexeme.wordLength, Lexeme.takeWhile_append_of_stops hrest hafter]
  -- an underline alone would be a token of its own
  have hcontinues : first = '_' → Lexeme.continuesWord (rest ++ after) = true := by
    rintro rfl
    cases rest with
    | nil => exact absurd rfl hline
    | cons c more => exact hrest c List.mem_cons_self
  rw [Lexeme.next_of_isIdStart hfirst hcontinues, Lexeme.word, hlength, List.take_left]

/-- A name is one lexeme wherever its last character is the last one of a word. -/
theorem next_of_isName {text : List Char} (h : IsName text) :
    ∃ first more, text = first :: more ∧ (Text.isIdStart first = true ∨ first = '\'') ∧
      ∀ after : List Char, (∀ c ∈ after.head?, Text.isIdContinue c = false) →
        Lexeme.next .code first (more ++ after) = .clean .identifier more.length := by
  cases h with
  | @plain first rest hfirst hrest hline hkeyword =>
    refine ⟨first, rest, rfl, .inl hfirst, fun after ha => ?_⟩
    have hkind : Lexeme.wordKind .code (String.ofList (first :: rest)) = .identifier := by
      unfold Lexeme.wordKind
      rw [hkeyword]
    rw [next_of_isIdContinue hfirst hrest hline after ha, hkind]
  | @quoted first rest h =>
    refine ⟨_, _, rfl, .inr rfl, fun after ha => ?_⟩
    have hlength : Lexeme.wordLength (first :: rest ++ after) = (first :: rest).length := by
      rw [Lexeme.wordLength, Lexeme.takeWhile_append_of_stops h ha]
    show Lexeme.afterApostrophe _ = _
    rw [Lexeme.afterApostrophe, hlength, if_neg (by simp)]

theorem isLexeme_name {text : List Char} (h : IsName text) : (loose .identifier text).IsLexeme := by
  obtain ⟨first, more, rfl, hfirst, hnext⟩ := next_of_isName h
  exact isLexeme_loose (notMem_beginnings hfirst) fun after ha =>
    hnext after (Lexeme.stops_of_follows isIdContinue_space ha)

theorem isLexeme_integer {kind : Kind} {text : List Char} (h : IsInteger kind text) :
    (loose kind text).IsLexeme := by
  have hvisible {c : Char} (hc : c.isDigit = true) : c ∉ Trivia.beginnings := fun hm =>
    absurd hc (by
      have hnone : Trivia.beginnings.all (!·.isDigit) = true := by decide
      simpa using List.all_eq_true.mp hnone c hm)
  cases h with
  | @decimal first rest h =>
    obtain ⟨hfirst, hrest⟩ := List.forall_mem_cons.mp h
    refine isLexeme_loose (hvisible hfirst) fun after ha => ?_
    have hnumber : Lexeme.number first (rest ++ after) = Lexeme.afterDigit (rest ++ after) := by
      -- neither a digit nor a space is the mark of a hexadecimal number
      have hmark (mark : Char) (more : List Char) (hm : mark.isDigit = false) (hs : mark ≠ ' ') :
          rest ++ after ≠ mark :: more := by
        intro heq
        cases rest with
        | nil =>
          rcases ha with rfl | h
          · cases heq
          · rw [List.nil_append] at heq
            rw [heq, List.head?_cons, Option.some.injEq] at h
            exact hs h
        | cons c more =>
          have hc := hrest c List.mem_cons_self
          rw [(List.cons.inj heq).1, hm] at hc
          cases hc
      unfold Lexeme.number
      split
      · next heq => exact absurd heq (hmark _ _ (by decide) (by decide))
      · next heq => exact absurd heq (hmark _ _ (by decide) (by decide))
      · rfl
    rw [Lexeme.next_of_isDigit hfirst, hnumber,
      Lexeme.afterDigit_of_follows hrest ha]
  | @hexadecimal mark first rest hmark h =>
    refine isLexeme_loose (by decide) fun after ha => ?_
    have hread := Lexeme.afterHexMark_of_follows (List.cons_ne_nil first rest) h ha
    rw [Lexeme.next_of_isDigit (by decide)]
    rcases hmark with rfl | rfl
    · show Lexeme.afterHexMark (first :: rest ++ after) = _
      rw [hread, Nat.add_comm]
      rfl
    · show Lexeme.afterHexMark (first :: rest ++ after) = _
      rw [hread, Nat.add_comm]
      rfl

/-- A symbol that is always written the same way. -/
def symbol (kind : Kind) : Word :=
  loose kind ((Kind.punctuationText? kind).getD "").toList

theorem isLexeme_slash : (symbol .slash).IsLexeme := by
  refine ⟨fun after ha => ?_, '/', [], rfl, fun after _ => rfl⟩
  have ha : after = [] ∨ after.head? = some ' ' := by simpa [Follows, symbol, loose] using ha
  rcases ha with rfl | h
  · rfl
  · obtain ⟨rest, rfl⟩ := List.head?_eq_some_iff.mp h
    rfl

theorem isLexeme_symbol {kind : Kind} (h : kind ∈ symbols) : (symbol kind).IsLexeme := by
  simp only [symbols, List.mem_cons, List.not_mem_nil, or_false] at h
  rcases h with rfl | rfl | rfl | rfl | rfl | rfl | rfl | rfl | rfl | rfl | rfl | rfl | rfl | rfl |
    rfl | rfl | rfl | rfl | rfl | rfl | rfl | rfl | rfl | rfl | rfl | rfl | rfl | rfl | rfl | rfl |
    rfl | rfl
  -- a slash could begin a comment, so what follows it matters
  case inr.inr.inr.inr.inr.inr.inr.inr.inr.inr.inr.inr.inr.inl => exact isLexeme_slash
  all_goals exact isLexeme_of_space (by decide) rfl fun _ => rfl

/-- A `>` that the next one touches. -/
def tightGreater : Word :=
  ⟨.gt, ['>'], true⟩

theorem isLexeme_tightGreater : tightGreater.IsLexeme := by
  refine ⟨fun after _ => Trivia.piece?_of_notMem (by decide), _, _, rfl, fun after ha => ?_⟩
  obtain ⟨rest, rfl⟩ := List.head?_eq_some_iff.mp (show after.head? = some '>' from ha)
  rfl

/-! ## Rows -/

theorem inRow_cons {word : Word} {rest : List Word} (hmem : word.kind ∈ kinds)
    (hword : word.IsLexeme) (hloose : word.tight = false) (hrest : InRow rest) :
    InRow (word :: rest) :=
  ⟨⟨hmem, hword⟩, fun ht => absurd (hloose.symm.trans ht) Bool.false_ne_true, hrest⟩

theorem inRow_symbol {kind : Kind} {rest : List Word} (hk : kind ∈ symbols) (hrest : InRow rest) :
    InRow (symbol kind :: rest) :=
  inRow_cons (List.mem_cons_of_mem _ (List.mem_cons_of_mem _ (List.mem_cons_of_mem _ hk)))
    (isLexeme_symbol hk) rfl hrest

end Word

end TolerantSyntax
