import Mathlib.Data.List.TakeWhile
import TolerantSyntax.Kind.Classes
import TolerantSyntax.Proofs.Expression.Word
import TolerantSyntax.Proofs.Lexer.Line
import TolerantSyntax.Proofs.Twin.Scanner

/-!
# The lexicon

Two descriptions of the words of the language stand side by side: the table of the texts that kinds
are always written as, and the routines of the lexer, each of which takes as much as belongs to an
operator or a word. They agree. A lexeme is written as its kind is, or it is a number, a string, a
name or invalid text, which no kind is always written as (`isForm_next`); and no two kinds have one
text. So the kind of a token and a fixed text each decide the other (`spelled_tokens`).
-/

namespace TolerantSyntax

/-! ## Fixed texts -/

namespace Kind

/-- Characters with which operators and delimiters begin, the underscore apart. -/
def signs : List Char :=
  ['\x7b', '\x7d', '(', ')', '[', ']', ';', ',', ':', '.', '?', '@', '=', '!', '<', '>', '+', '-',
   '*', '/', '%', '~', '&', '|', '^']

theorem text?_of_mem_keywords {text : String} {kind : Kind} (h : (text, kind) ∈ keywords) :
    kind.text? = some text := by
  have hall : ∀ entry ∈ keywords, entry.2.text? = some entry.1 := by decide +kernel
  exact hall _ h

/-- No word is in the table twice. -/
theorem keyword?_of_mem_keywords {text : String} {kind : Kind} (h : (text, kind) ∈ keywords) :
    keyword? text = some kind := by
  have hall : ∀ entry ∈ keywords, keyword? entry.1 = some entry.2 := by decide +kernel
  exact hall _ h

theorem mem_keywords_of_keyword? {text : String} {kind : Kind} (h : keyword? text = some kind) :
    (text, kind) ∈ keywords := by
  obtain ⟨entry, hfind, rfl⟩ := Option.map_eq_some_iff.mp h
  have htext : entry.1 = text := by simpa using List.find?_some hfind
  exact htext ▸ List.mem_of_find?_eq_some hfind

/-- A fixed text is that of a keyword or that of punctuation. -/
theorem mem_keywords_or_of_text? {kind : Kind} {text : String} (h : kind.text? = some text) :
    (text, kind) ∈ keywords ∨ kind.punctuationText? = some text := by
  rcases Option.or_eq_some_iff.mp ((Option.orElse_eq_or ..).symm.trans h) with h | ⟨-, h⟩
  · obtain ⟨entry, hfind, rfl⟩ := Option.map_eq_some_iff.mp h
    have hkind : entry.2 = kind := by simpa using List.find?_some hfind
    exact .inl (hkind ▸ List.mem_of_find?_eq_some hfind)
  · exact .inr h

/-- Keywords begin like identifiers. -/
theorem isIdStart_of_mem_keywords {first : Char} {rest : List Char} {kind : Kind}
    (h : (String.ofList (first :: rest), kind) ∈ keywords) : Text.isIdStart first = true := by
  have hall : ∀ entry ∈ keywords, entry.1.toList.head?.all Text.isIdStart = true := by
    decide +kernel
  simpa using hall _ h

/-- Punctuation is an underscore, or it begins with a sign. -/
theorem sign_of_punctuationText? {kind : Kind} {first : Char} {rest : List Char}
    (h : kind.punctuationText? = some (String.ofList (first :: rest))) :
    first = '_' ∧ rest = [] ∨
      first ∈ signs ∧ (first = '.' → rest ∈ [[], ['.', '.'], ['.', '<']]) := by
  have hall : ∀ kind ∈ all, ∀ text ∈ kind.punctuationText?,
      text.toList.head? = some '_' ∧ text.toList.tail = [] ∨
        text.toList.head?.all (signs.contains ·) = true ∧
          (text.toList.head? = some '.' → text.toList.tail ∈ [[], ['.', '.'], ['.', '<']]) := by
    decide +kernel
  simpa using hall kind (mem_all kind) _ h

/-- How a fixed text begins. -/
theorem begins_of_text? {kind : Kind} {first : Char} {rest : List Char}
    (h : kind.text? = some (String.ofList (first :: rest))) :
    (keyword? (String.ofList (first :: rest)) = some kind ∧ Text.isIdStart first = true) ∨
      (first = '_' ∧ rest = []) ∨
      first ∈ signs ∧ (first = '.' → rest ∈ [[], ['.', '.'], ['.', '<']]) := by
  rcases mem_keywords_or_of_text? h with hk | hp
  · exact .inl ⟨keyword?_of_mem_keywords hk, isIdStart_of_mem_keywords hk⟩
  · exact .inr (sign_of_punctuationText? hp)

/-- No sign begins a word. -/
theorem isIdStart_of_mem_signs {c : Char} (h : c ∈ signs) : Text.isIdStart c = false := by
  have hall : signs.all (!Text.isIdStart ·) = true := by decide +kernel
  simpa using List.all_eq_true.mp hall c h

/-- No kind is written as nothing. -/
theorem text?_ne_empty (kind : Kind) : kind.text? ≠ some "" := by
  have hkeywords : ∀ entry ∈ keywords, entry.1 ≠ "" := by decide +kernel
  have hpunctuation : ∀ kind ∈ all, kind.punctuationText? ≠ some "" := by decide +kernel
  intro h
  rcases mem_keywords_or_of_text? h with h | h
  · exact hkeywords _ h rfl
  · exact hpunctuation kind (mem_all kind) h

/-- No two kinds have the same text. -/
theorem eq_of_text? {kind other : Kind} {text : String} (h : kind.text? = some text)
    (h' : other.text? = some text) : kind = other := by
  -- a keyword is no punctuation
  have hapart {kind other : Kind} (hk : (text, kind) ∈ keywords)
      (hp : other.punctuationText? = some text) : False := by
    have hall : ∀ kind ∈ all, ∀ text ∈ kind.punctuationText?, keyword? text = none := by
      decide +kernel
    have hnone := hall other (mem_all other) _ hp
    rw [keyword?_of_mem_keywords hk] at hnone
    cases hnone
  rcases mem_keywords_or_of_text? h, mem_keywords_or_of_text? h' with ⟨hk | hp, hk' | hp'⟩
  · exact Option.some.inj
      ((keyword?_of_mem_keywords hk).symm.trans (keyword?_of_mem_keywords hk'))
  · exact (hapart hk hp').elim
  · exact (hapart hk' hp).elim
  · have hall : ∀ kind ∈ all, ∀ text ∈ kind.punctuationText?,
        all.find? (·.punctuationText? == some text) = some kind := by
      decide +kernel
    exact Option.some.inj
      ((hall kind (mem_all kind) text hp).symm.trans (hall other (mem_all other) text hp'))

/-- A text whose first character begins neither a word nor an operator is not fixed. -/
theorem text?_ne_of_head {first : Char} (hstart : Text.isIdStart first = false)
    (hsign : first ∉ signs) (rest : List Char) (kind : Kind) :
    kind.text? ≠ some (String.ofList (first :: rest)) := by
  intro h
  rcases begins_of_text? h with ⟨-, hword⟩ | ⟨rfl, -⟩ | ⟨hmem, -⟩
  · rw [hstart] at hword
    cases hword
  · exact absurd hstart (by decide +kernel)
  · exact hsign hmem

end Kind

/-! ## What lexemes are made of -/

namespace Lexeme

/-- Characters of numbers; the letters of exponents and suffixes are hexadecimal digits. -/
def isNumeral (c : Char) : Bool :=
  isHexDigit c || ['.', '+', '-', 'x', 'X'].contains c

/-- What the lexeme is made of that begins with `first`. -/
inductive IsForm (first : Char) (input : List Char) : Lexeme → Prop where
  /-- A keyword, an operator or a delimiter. -/
  | fixed {kind : Kind} {more : Nat}
      (htext : kind.text? = some (String.ofList (first :: input.take more))) :
      IsForm first input (clean kind more)
  /-- A number begins with a digit, or with a dot and a digit. -/
  | number {lexeme : Lexeme} (hkind : lexeme.kind.isNumericLiteral = true)
      (hfirst : first.isDigit = true ∨
        first = '.' ∧ startsWithDigit (input.take lexeme.more) = true)
      (hmore : ∀ c ∈ input.take lexeme.more, isNumeral c = true) : IsForm first input lexeme
  | string (hfirst : first = '"') : IsForm first input (afterQuote input)
  | name {more : Nat} (hname : IsName (first :: input.take more)) :
      IsForm first input (clean .identifier more)
  /-- Two dots, or a character that begins nothing. -/
  | invalid {more : Nat} (hfirst : first ≠ '"')
      (hnone : ∀ kind : Kind, kind.text? ≠ some (String.ofList (first :: input.take more)))
      (hmore : first :: input.take more = ['.', '.'] ∨ more = 0) :
      IsForm first input (clean .invalid more)

/-! ### Numbers -/

/-- So many characters ahead belong to a number. -/
def Numerals (input : List Char) (count : Nat) : Prop :=
  ∀ c ∈ input.take count, isNumeral c = true

variable {input : List Char}

theorem numerals_zero : Numerals input 0 := by
  simp [Numerals]

/-- Numerals go on with numerals. -/
theorem Numerals.add {first second : Nat} (h : Numerals input first)
    (h' : Numerals (input.drop first) second) : Numerals input (first + second) := by
  rw [Numerals, List.take_add, List.forall_mem_append]
  exact ⟨h, h'⟩

theorem Numerals.cons {c : Char} {count : Nat} (hc : isNumeral c = true)
    (h : Numerals input count) : Numerals (c :: input) (1 + count) := by
  rw [Numerals, Nat.add_comm, List.take_succ_cons, List.forall_mem_cons]
  exact ⟨hc, h⟩

theorem numerals_takeWhile {p : Char → Bool} (hp : ∀ c, p c = true → isNumeral c = true)
    (input : List Char) : Numerals input (input.takeWhile p).length := by
  intro c hc
  rw [← List.prefix_iff_eq_take.mp (List.takeWhile_prefix p)] at hc
  exact hp c (List.mem_takeWhile_imp hc)

theorem numerals_digitCount (input : List Char) : Numerals input (digitCount input) :=
  numerals_takeWhile (fun c hc => by simp [isNumeral, isHexDigit, hc]) input

theorem numerals_exponentLength (input : List Char) : Numerals input (exponentLength input) := by
  have hmark {c : Char} (h : (c == 'e' || c == 'E') = true) : isNumeral c = true := by
    rcases Bool.or_eq_true_iff.mp h with h | h <;> rw [beq_iff_eq.mp h] <;> rfl
  fun_cases exponentLength input with
  | case1 c sign rest he hsign hdigit =>
    have hs : isNumeral sign = true := by
      rcases Bool.or_eq_true_iff.mp hsign with h | h <;> rw [beq_iff_eq.mp h] <;> rfl
    rw [show 2 + digitCount rest = 1 + (1 + digitCount rest) by omega]
    exact .cons (hmark he) (.cons hs (numerals_digitCount rest))
  | case3 c sign rest he hsign hdigit => exact .cons (hmark he) (numerals_digitCount _)
  | _ => exact numerals_zero

theorem numerals_suffixLength (input : List Char) : Numerals input (suffixLength input) := by
  fun_cases suffixLength input with
  | case1 c rest hsuffix =>
    have hall : ['f', 'F', 'd', 'D'].all isNumeral = true := by decide
    have hc := List.contains_iff_mem.mp (Bool.and_eq_true_iff.mp hsuffix).1
    exact .cons (List.all_eq_true.mp hall c hc) numerals_zero
  | _ => exact numerals_zero

/-- The signs of exponents are numerals as well. -/
theorem numerals_magnitudeLength (input : List Char) : Numerals input (magnitudeLength input) :=
  (numerals_exponentLength input).add (numerals_suffixLength _)

theorem numerals_fractionLength (input : List Char) : Numerals input (fractionLength input) := by
  rw [fractionLength_eq]
  exact (numerals_digitCount input).add (numerals_magnitudeLength _)

theorem numerals_afterDigit (input : List Char) : Numerals input (afterDigit input).more := by
  by_cases hpoint : ∃ tail, input.drop (digitCount input) = '.' :: tail ∧ startsWithDigit tail
  · obtain ⟨tail, hrest, hdigit⟩ := hpoint
    rw [afterDigit_of_point hrest hdigit]
    refine (numerals_digitCount input).add ?_
    rw [hrest]
    exact .cons rfl (numerals_fractionLength tail)
  · rw [afterDigit_of_noPoint fun tail htail => by
      by_contra hdigit
      exact hpoint ⟨tail, htail, by simpa using hdigit⟩]
    exact (numerals_digitCount input).add (numerals_magnitudeLength _)

theorem numerals_afterHexMark {mark : Char} (hmark : isNumeral mark = true) (input : List Char) :
    Numerals (mark :: input) (afterHexMark input).more :=
  .cons hmark (numerals_takeWhile (fun c hc => by simp [isNumeral, hc]) input)

/-- Whatever follows the digits, the literal is one of a number. -/
theorem isNumericLiteral_afterDigit (input : List Char) :
    (afterDigit input).kind.isNumericLiteral = true := by
  simp only [afterDigit]
  split
  · rfl
  · split <;> rfl

theorem isForm_number {first : Char} (h : first.isDigit = true) (input : List Char) :
    IsForm first input (number first input) := by
  fun_cases number first input with
  | case1 rest => exact .number rfl (.inl h) (numerals_afterHexMark rfl rest)
  | case2 rest => exact .number rfl (.inl h) (numerals_afterHexMark rfl rest)
  | case3 =>
    exact .number (isNumericLiteral_afterDigit input) (.inl h) (numerals_afterDigit input)

/-! ### Operators -/

/-- A point may begin a number. -/
theorem isForm_afterDot (input : List Char) : IsForm '.' input (afterDot input) := by
  by_cases hdigit : startsWithDigit input = true
  · rw [afterDot_of_digit hdigit]
    have hkeeps := @startsWithDigit_take_fraction input [] .input
    rw [List.append_nil, hdigit] at hkeeps
    exact .number rfl (.inr ⟨rfl, hkeeps⟩) (numerals_fractionLength input)
  · fun_cases afterDot input with
    | case1 => contradiction
    | case4 rest hdots hless =>
      refine .invalid (by decide) (fun kind htext => ?_) (.inl rfl)
      rcases Kind.begins_of_text? htext with ⟨-, hword⟩ | ⟨hline, -⟩ | ⟨-, hdot⟩
      · exact absurd hword (by decide +kernel)
      · cases hline
      · exact absurd (hdot rfl) (by simp)
    | _ => exact .fixed rfl

theorem isForm_afterBang (input : List Char) : IsForm '!' input (afterBang input) := by
  fun_cases afterBang input <;> exact .fixed rfl

theorem isForm_afterQuestion (input : List Char) : IsForm '?' input (afterQuestion input) := by
  fun_cases afterQuestion input <;> exact .fixed rfl

/-! ### Words -/

theorem forall_mem_take_wordLength (input : List Char) :
    ∀ c ∈ input.take (wordLength input), Text.isIdContinue c = true := by
  intro c hc
  rw [wordLength, ← List.prefix_iff_eq_take.mp (List.takeWhile_prefix _)] at hc
  exact List.mem_takeWhile_imp hc

/-- A quote alone begins nothing; with a word behind it, it begins a name. -/
theorem isForm_afterApostrophe (input : List Char) :
    IsForm '\'' input (afterApostrophe input) := by
  fun_cases afterApostrophe input with
  | case1 =>
    exact .invalid (by decide) (Kind.text?_ne_of_head (by decide +kernel) (by decide) _) (.inr rfl)
  | case2 hlength =>
    have hword := forall_mem_take_wordLength input
    cases htake : input.take (wordLength input) with
    | nil =>
      have hzero := congrArg List.length htake
      rw [List.length_take_of_le (wordLength_le input)] at hzero
      exact absurd hzero hlength
    | cons first rest =>
      rw [htake] at hword
      exact .name (htake ▸ .quoted hword)

theorem wordKind_code (text : String) :
    wordKind .code text = (Kind.keyword? text).getD .identifier := by
  unfold wordKind
  cases Kind.keyword? text <;> rfl

/-- A word has a fixed text or is a name; an underscore with nothing behind it is no word. -/
theorem isForm_word {first : Char} {input : List Char} (hstart : Text.isIdStart first = true)
    (hline : first = '_' → continuesWord input = true) :
    IsForm first input (word .code first input) := by
  rw [word, wordKind_code]
  cases hkeyword : Kind.keyword? (String.ofList (first :: input.take (wordLength input))) with
  | some kind =>
    exact .fixed (Kind.text?_of_mem_keywords (Kind.mem_keywords_of_keyword? hkeyword))
  | none =>
    refine .name (.plain hstart (forall_mem_take_wordLength input) (fun halone => ?_) hkeyword)
    obtain ⟨hfirst, htake⟩ := List.cons.inj halone
    have hpos := hline hfirst
    rw [continuesWord_eq, decide_eq_true_eq] at hpos
    have hzero := congrArg List.length htake
    rw [List.length_take_of_le (wordLength_le input), List.length_nil] at hzero
    omega

/-- Every lexeme is of one of the forms. -/
theorem isForm_next (first : Char) (input : List Char) :
    IsForm first input (next .code first input) := by
  unfold next
  split
  case h_16 => unfold afterBrace; split <;> exact .fixed rfl
  case h_17 => exact isForm_afterDot input
  case h_18 => unfold afterMinus; split <;> exact .fixed rfl
  case h_19 => unfold afterLess; split <;> exact .fixed rfl
  case h_20 => unfold afterGreater; split <;> exact .fixed rfl
  case h_21 => unfold afterEqual; split <;> exact .fixed rfl
  case h_22 => exact isForm_afterBang input
  case h_23 => unfold afterAmpersand; split <;> exact .fixed rfl
  case h_24 => unfold afterPipe; split <;> exact .fixed rfl
  case h_25 => exact isForm_afterQuestion input
  case h_26 => exact .string rfl
  case h_27 => exact isForm_afterApostrophe input
  case h_28 =>
    split
    · next hdigit => exact isForm_number hdigit input
    · split
      · next halone =>
        obtain ⟨rfl, -⟩ := halone
        exact .fixed rfl
      · next halone =>
        split
        · next hstart =>
          exact isForm_word hstart fun hline => by
            by_contra hword
            exact halone ⟨hline, hword⟩
        · next hstart =>
          refine .invalid (by assumption) (Kind.text?_ne_of_head (by simpa using hstart) ?_ _)
            (.inr rfl)
          simp only [Kind.signs, List.mem_cons, List.not_mem_nil, or_false, not_or]
          and_intros <;> assumption
  -- the other cases are the tokens of one character
  all_goals exact .fixed rfl

/-! ### Kinds and texts -/

/-- Names are quoted, or no reserved words, so no kind has their text. -/
theorem text?_ne_of_isName {word : List Char} (h : IsName word) (kind : Kind) :
    kind.text? ≠ some (String.ofList word) := by
  intro htext
  cases h with
  | plain hfirst hrest hline hkeyword =>
    rcases Kind.begins_of_text? htext with ⟨hkind, -⟩ | ⟨rfl, rfl⟩ | ⟨hsign, -⟩
    · rw [hkeyword] at hkind
      cases hkind
    · exact hline rfl
    · rw [Kind.isIdStart_of_mem_signs hsign] at hfirst
      cases hfirst
  | quoted => exact Kind.text?_ne_of_head (by decide +kernel) (by decide) _ kind htext

/-- A lexeme that is no fixed text is written as no kind is. -/
theorem text?_of_isForm {first : Char} {input : List Char} {lexeme : Lexeme}
    (h : IsForm first input lexeme) :
    lexeme.kind.text? = some (String.ofList (first :: input.take lexeme.more)) ∨
      lexeme.kind.text? = none ∧
        ∀ kind : Kind, kind.text? ≠ some (String.ofList (first :: input.take lexeme.more)) := by
  cases h with
  | fixed htext => exact .inl htext
  | number hkind hfirst =>
    have hall : ∀ kind ∈ Kind.numericLiterals, kind.text? = none := by decide
    refine .inr ⟨hall _ (List.contains_iff_mem.mp hkind), ?_⟩
    rcases hfirst with hdigit | ⟨rfl, hdigit⟩
    · refine Kind.text?_ne_of_head ?_ (fun hsign => ?_) _
      · by_contra hstart
        rw [Text.isDigit_eq_false_of_isIdStart (by simpa using hstart)] at hdigit
        cases hdigit
      · have hall : Kind.signs.all (!·.isDigit) = true := by decide
        have hnone := List.all_eq_true.mp hall first hsign
        rw [hdigit] at hnone
        cases hnone
    · intro kind htext
      rcases Kind.begins_of_text? htext with ⟨-, hword⟩ | ⟨hline, -⟩ | ⟨-, hdot⟩
      · exact absurd hword (by decide +kernel)
      · cases hline
      · have hall : ∀ rest ∈ [[], ['.', '.'], ['.', '<']], startsWithDigit rest = false := by decide
        rw [hall _ (hdot rfl)] at hdigit
        cases hdigit
  | string hfirst =>
    subst hfirst
    exact .inr ⟨rfl, Kind.text?_ne_of_head (by decide +kernel) (by decide) _⟩
  | name hname => exact .inr ⟨rfl, text?_ne_of_isName hname⟩
  | invalid _ hnone => exact .inr ⟨rfl, hnone⟩

end Lexeme

/-! ## Tokens -/

namespace Scanner

/-- The next token in regular source, or the end of input, is written as its kind is, or as no kind
is. -/
theorem text?_next {scanner : Scanner} (h : scanner.mode = .code) :
    scanner.next.1.kind.text? = some scanner.next.1.text ∨
      scanner.next.1.kind.text? = none ∧
        ∀ kind : Kind, kind.text? ≠ some scanner.next.1.text := by
  cases hleading : (Trivia.leading scanner.rest).2 with
  | nil =>
    have hspelling := spelling_of_leading_nil hleading
    have hkind : scanner.next.1.kind = .eof := congrArg Token.Spelling.kind hspelling
    have htext : scanner.next.1.text = "" := congrArg Token.Spelling.text hspelling
    rw [hkind, htext]
    exact .inr ⟨rfl, Kind.text?_ne_empty⟩
  | cons first rest =>
    obtain ⟨hspelling, -⟩ := next_of_cons hleading
    have hkind : scanner.next.1.kind = _ := congrArg Token.Spelling.kind hspelling
    have htext : scanner.next.1.text = _ := congrArg Token.Spelling.text hspelling
    rw [hkind, htext, h]
    exact Lexeme.text?_of_isForm (Lexeme.isForm_next first rest)

theorem text?_of_text?_kindOf {mode : LexerMode} {kind : Kind} {text : String}
    (h : (mode.kindOf kind).text? = some text) : kind.text? = some text := by
  cases mode with
  | code => exact h
  | importPath =>
    rw [LexerMode.kindOf] at h
    split at h
    · cases h
    · exact h

/-- The kind and the text of the next token, in any mode. -/
theorem spelled_next (scanner : Scanner) :
    (∀ text, scanner.next.1.kind.text? = some text → scanner.next.1.text = text) ∧
      ∀ kind : Kind, kind.text? = some scanner.next.1.text →
        scanner.next.1.kind = scanner.mode.kindOf kind := by
  have hnext := @next_withMode { scanner with mode := .code } rfl scanner.mode
  have hcode := @text?_next { scanner with mode := .code } rfl
  generalize ({ scanner with mode := .code } : Scanner).next = inCode at hnext hcode
  have htoken : scanner.next.1 = inCode.1.withKind (scanner.mode.kindOf inCode.1.kind) :=
    congrArg Prod.fst hnext
  rw [htoken]
  simp only [Token.withKind]
  rcases hcode with htext | ⟨hnone, hother⟩
  · constructor
    · intro text h
      exact Option.some.inj (htext.symm.trans (text?_of_text?_kindOf h))
    · intro kind h
      rw [Kind.eq_of_text? h htext]
  · constructor
    · intro text h
      rw [text?_of_text?_kindOf h] at hnone
      cases hnone
    · exact fun kind h => absurd h (hother kind)

/-- What every step of a scan has, in the mode of the scan, each token of the scan has. -/
theorem forall_mem_tokens_of_next {mode : LexerMode} {property : Token → Prop}
    (hnext : ∀ scanner : Scanner, scanner.mode = mode → property scanner.next.1)
    (scanner : Scanner) (hmode : scanner.mode = mode) :
    ∀ token ∈ scanner.tokens, property token := by
  induction scanner using scan_induction with
  | eof scanner h =>
    rw [tokens_of_eof h, List.forall_mem_singleton]
    exact hnext scanner hmode
  | step scanner h ih =>
    rw [tokens_of_ne_eof h, List.forall_mem_cons]
    exact ⟨hnext scanner hmode, ih ((isStep_next scanner).same.2.trans hmode)⟩

/-- **Kinds and fixed texts agree**, wherever and in whichever mode a scan begins. If the kind of a
token has a fixed text, the text of the token is this one. If the text of a token is that of some
kind, the token is of this kind, or of what becomes of it in the mode: inside an import path, all
keywords but `as` are identifiers. -/
theorem spelled_tokens (scanner : Scanner) :
    ∀ token ∈ scanner.tokens,
      (∀ text, token.kind.text? = some text → token.text = text) ∧
        ∀ kind : Kind, kind.text? = some token.text →
          token.kind = scanner.mode.kindOf kind := by
  refine forall_mem_tokens_of_next (fun other hmode => ?_) scanner rfl
  rw [← hmode]
  exact spelled_next other

/-- Inside an import path, a keyword among operators that look like parts of others. -/
theorem spelled_tokens_importPath :
    ∃ token ∈ ((ofSource "!is.._ import|\x7d?.5").reset 0 .importPath).tokens,
      token.text = "import" ∧ token.kind = .identifier := by
  have hexists : ∃ token ∈ ((ofSource "!is.._ import|\x7d?.5").reset 0 .importPath).tokens,
      token.text = "import" := by
    decide +kernel
  obtain ⟨token, hmem, htext⟩ := hexists
  refine ⟨token, hmem, htext, ?_⟩
  exact (spelled_tokens _ token hmem).2 .importKeyword (by rw [htext]; rfl)

end Scanner

end TolerantSyntax
