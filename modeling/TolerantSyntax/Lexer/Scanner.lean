import TolerantSyntax.Lexer.Lexeme
import TolerantSyntax.Tree.Source

/-!
# Scanner

The scanner cuts a source into tokens. It never fails: text that begins no token becomes a token of
kind `invalid`, and a malformed literal becomes a token with a diagnostic. Between tokens stands
trivia. Trivia up to and including the first line break belongs to the token before it, all other
trivia to the token after it. The last token, of kind `eof`, holds what is left at the end.

A scanner is at a place of its source: the characters from there on, and the byte offset.

## Termination

Every piece of trivia and every lexeme takes at least one character, so the characters ahead get
fewer with each step (`Trivia.length_leading_le`, `length_rest_next_lt`).
-/

namespace TolerantSyntax

/-! ## Trivia -/

namespace Trivia

/-- Blanks within a line. -/
def isBlank (c : Char) : Bool :=
  c == ' ' || c == '\t' || c == '\x0c'

/-- Does the character end a line? -/
def isLineEnd (c : Char) : Bool :=
  c == '\n' || c == '\r'

/-- A piece of trivia made of the characters ahead that satisfy `p`, and what follows it. -/
def span (make : String → Trivia) (p : Char → Bool) (input : List Char) : Trivia × List Char :=
  (make (String.ofList (input.takeWhile p)), input.dropWhile p)

/-- The piece of trivia ahead, line breaks apart, and what follows it. -/
def inLine? : List Char → Option (Trivia × List Char)
  | [] => none
  | c :: rest =>
    if isBlank c then some (span .whitespace isBlank (c :: rest))
    else if c = '/' ∧ rest.head? = some '/' then
      some (span .comment (fun c => !isLineEnd c) (c :: rest))
    else if c = '#' then some (span .documentation (fun c => !isLineEnd c) (c :: rest))
    else none

/-- The line break ahead and what follows it. -/
def lineBreak? : List Char → Option (Trivia × List Char)
  | '\n' :: rest => some (.endOfLine "\n", rest)
  | '\r' :: '\n' :: rest => some (.endOfLine "\r\n", rest)
  | '\r' :: rest => some (.endOfLine "\r", rest)
  | _ => none

theorem length_span_lt {make : String → Trivia} {p : Char → Bool} {c : Char} {rest : List Char}
    (h : p c = true) : (span make p (c :: rest)).2.length < (c :: rest).length := by
  have hle := (List.dropWhile_suffix (l := rest) p).length_le
  simp only [span, List.dropWhile_cons, h, ↓reduceIte, List.length_cons]
  omega

theorem length_lt_of_inLine? {input rest : List Char} {piece : Trivia}
    (h : inLine? input = some (piece, rest)) : rest.length < input.length := by
  cases input with
  | nil => simp [inLine?] at h
  | cons c cs =>
    have key {make : String → Trivia} {p : Char → Bool} (hp : p c = true)
        (hs : some (span make p (c :: cs)) = some (piece, rest)) :
        rest.length < (c :: cs).length := by
      have hlt := @length_span_lt make p c cs hp
      rwa [Option.some.inj hs] at hlt
    simp only [inLine?] at h
    split at h
    · rename_i hb
      exact key hb h
    · split at h
      · rename_i hc
        exact key (by simp [hc.1, isLineEnd]) h
      · split at h
        · rename_i hc
          exact key (by simp [hc, isLineEnd]) h
        · simp at h

theorem length_lt_of_lineBreak? {input rest : List Char} {piece : Trivia}
    (h : lineBreak? input = some (piece, rest)) : rest.length < input.length := by
  unfold lineBreak? at h
  split at h <;> grind

/-- The piece of trivia ahead, line breaks included, and what follows it. -/
def piece? (input : List Char) : Option (Trivia × List Char) :=
  (inLine? input).or (lineBreak? input)

theorem length_lt_of_piece? {input rest : List Char} {piece : Trivia}
    (h : piece? input = some (piece, rest)) : rest.length < input.length := by
  rw [piece?, Option.or_eq_some_iff] at h
  rcases h with h | h
  · exact length_lt_of_inLine? h
  · exact length_lt_of_lineBreak? h.2

/-- All trivia ahead and what follows it. -/
def leading (input : List Char) : List Trivia × List Char :=
  match _h : piece? input with
  | none => ([], input)
  | some (piece, rest) => (piece :: (leading rest).1, (leading rest).2)
termination_by input.length
decreasing_by all_goals exact length_lt_of_piece? _h

/-- The trivia ahead on the same line, with the line break that ends it, and what follows it. -/
def trailing (input : List Char) : List Trivia × List Char :=
  match _h : inLine? input with
  | some (piece, rest) => (piece :: (trailing rest).1, (trailing rest).2)
  | none =>
    match lineBreak? input with
    | some (piece, rest) => ([piece], rest)
    | none => ([], input)
termination_by input.length
decreasing_by all_goals exact length_lt_of_inLine? _h

theorem length_leading_le (input : List Char) : (leading input).2.length ≤ input.length := by
  fun_induction leading input with
  | case1 => exact Nat.le_refl _
  | case2 input piece rest h ih => exact Nat.le_trans ih (Nat.le_of_lt (length_lt_of_piece? h))

theorem length_trailing_le (input : List Char) : (trailing input).2.length ≤ input.length := by
  fun_induction trailing input with
  | case1 input piece rest h ih => exact Nat.le_trans ih (Nat.le_of_lt (length_lt_of_inLine? h))
  | case2 input h piece rest h' => exact Nat.le_of_lt (length_lt_of_lineBreak? h')
  | case3 => exact Nat.le_refl _

end Trivia

/-! ## Scanner -/

/-- A place in a source, and how words are read there. -/
structure Scanner where
  source : List Char
  /-- The characters from here on. -/
  rest : List Char
  /-- Bytes before `rest`. -/
  offset : Nat
  mode : LexerMode

namespace Scanner

/-- Bytes of a run of characters. -/
def byteLength (chars : List Char) : Nat :=
  chars.foldr (fun c length => c.utf8Size + length) 0

/-- The characters after the first `count` bytes. Where these end within a character, it is the next
one that comes first; see `behind?` for a cut that refuses such a place. -/
def dropBytes (count : Nat) : List Char → List Char
  | [] => []
  | c :: rest => if count = 0 then c :: rest else dropBytes (count - c.utf8Size) rest

/-- The characters behind the first `bytes` bytes, if these end between characters. -/
def behind? (bytes : Nat) : List Char → Option (List Char)
  | [] => if bytes = 0 then some [] else none
  | c :: rest =>
    if bytes = 0 then some (c :: rest)
    else if bytes < c.utf8Size then none
    else behind? (bytes - c.utf8Size) rest

/-- At the beginning of a source. -/
def ofSource (source : String) : Scanner :=
  { source := source.toList, rest := source.toList, offset := 0, mode := .code }

/-- At another place of the same source; an offset behind its end means its end. The offset is to be
between characters, where there is text to be cut off; from one within a character the next token
would begin at the character behind it. -/
def reset (scanner : Scanner) (offset : Nat) (mode : LexerMode) : Scanner :=
  { scanner with
    rest := dropBytes offset scanner.source
    offset := min offset (byteLength scanner.source)
    mode }

/-- The next token, and the scanner behind it. -/
def next (scanner : Scanner) : Token × Scanner :=
  let leading := Trivia.leading scanner.rest
  let start := scanner.offset + Trivia.widths leading.1
  match leading.2 with
  | [] => (.ofText .eof "" start leading.1 [], { scanner with rest := [], offset := start })
  | c :: rest =>
    let lexeme := Lexeme.next scanner.mode c rest
    let text := String.ofList (c :: rest.take lexeme.more)
    let trailing := Trivia.trailing (rest.drop lexeme.more)
    let token := Token.ofText lexeme.kind text start leading.1 trailing.1
    ({ token with diagnostics := lexeme.codes.map (⟨·, token.span⟩) },
      { scanner with rest := trailing.2, offset := token.span.stop + Trivia.widths trailing.1 })

theorem length_rest_next_lt (scanner : Scanner) (h : scanner.next.1.kind ≠ .eof) :
    scanner.next.2.rest.length < scanner.rest.length := by
  have hl := Trivia.length_leading_le scanner.rest
  unfold next at h ⊢
  cases hr : (Trivia.leading scanner.rest).2 with
  | nil => simp [hr, Token.ofText] at h
  | cons c rest =>
    have ht := Trivia.length_trailing_le (rest.drop (Lexeme.next scanner.mode c rest).more)
    simp only [hr, List.length_cons, List.length_drop] at hl ht ⊢
    omega

/-- All tokens up to and including the end of input, and the scanner behind them. -/
def drain (scanner : Scanner) : List Token × Scanner :=
  if _h : scanner.next.1.kind = .eof then ([scanner.next.1], scanner.next.2)
  else
    let others := scanner.next.2.drain
    (scanner.next.1 :: others.1, others.2)
termination_by scanner.rest.length
decreasing_by exact scanner.length_rest_next_lt _h

/-- All tokens up to and including the end of input. -/
def tokens (scanner : Scanner) : List Token :=
  scanner.drain.1

/-- The next `count` tokens, and the scanner behind them. -/
def take (scanner : Scanner) : Nat → List Token × Scanner
  | 0 => ([], scanner)
  | count + 1 =>
    let first := scanner.next
    let others := first.2.take count
    (first.1 :: others.1, others.2)

@[simp] theorem length_take (scanner : Scanner) (count : Nat) :
    (scanner.take count).1.length = count := by
  induction count generalizing scanner with
  | zero => rfl
  | succ count ih => simp [take, ih]

end Scanner

end TolerantSyntax
