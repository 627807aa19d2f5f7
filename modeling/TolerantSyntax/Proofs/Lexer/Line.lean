import TolerantSyntax.Proofs.Lexer.Scan

/-!
# Tokens on lines of their own

Every routine of the lexer looks a character or two past the lexeme that it reads: for the digit
that makes a dot part of a number, for the quote that ends a string, for the rest of a word. What it
finds there can only make the lexeme longer. So if a line ends behind the characters that were
taken, the same lexeme is read again, and a source can be cut up into its tokens, one to a line,
without any of them becoming another.

First this is shown of each routine, then of a step of the scanner, and by induction of a scan.
-/

namespace TolerantSyntax

/-! ## Ends of lines -/

/-- Nothing more is on the line: a line break is ahead, or the end of input. -/
inductive EndsLine : List Char → Prop
  | input : EndsLine []
  | line (rest : List Char) : EndsLine ('\n' :: rest)

namespace Lexeme

variable {input after : List Char} {count : Nat}

/-- The lexeme that `read` finds ahead is found again if the line ends behind the characters that it
takes. -/
def KeepsLine (read : List Char → Lexeme) (input : List Char) : Prop :=
  ∀ {after}, EndsLine after → read (input.take (read input).more ++ after) = read input

/-- If a character is ahead where the rest is cut off at the end of a line, it was ahead before. -/
theorem head?_of_take_append {c : Char} (h : EndsLine after) (hc : c ≠ '\n')
    (hhead : (input.take count ++ after).head? = some c) : input.head? = some c := by
  have hnone : after.head? ≠ some c := by cases h <;> simp [hc.symm]
  cases input with
  | nil => exact absurd (by simpa using hhead) hnone
  | cons first rest =>
    cases count with
    | zero => exact absurd hhead hnone
    | succ count => simpa using hhead

/-- A run of characters that no line break belongs to ends where it ended, if no less is kept of
what was ahead and the line ends behind it. -/
theorem takeWhile_take_append {p : Char → Bool} (hp : p '\n' = false) (h : EndsLine after)
    (hc : (input.takeWhile p).length ≤ count) :
    (input.take count ++ after).takeWhile p = input.takeWhile p := by
  induction input generalizing count with
  | nil => cases h <;> simp [hp]
  | cons c rest ih =>
    by_cases hpc : p c = true
    · rw [List.takeWhile_cons_of_pos hpc, List.length_cons] at hc
      obtain ⟨count, rfl⟩ := Nat.exists_eq_add_one_of_ne_zero (Nat.ne_zero_of_lt hc)
      rw [List.take_succ_cons, List.cons_append, List.takeWhile_cons_of_pos hpc,
        List.takeWhile_cons_of_pos hpc, ih (Nat.le_of_succ_le_succ hc)]
    · cases count with
      | zero => cases h <;> simp [hp, hpc]
      | succ count => simp [hpc]

/-- What is behind some characters that are kept is kept as well. -/
theorem drop_take_append {skipped : Nat} (h : skipped ≤ input.length) :
    (input.take (skipped + count) ++ after).drop skipped =
      (input.drop skipped).take count ++ after := by
  rw [List.drop_append_of_le_length (by simp; omega), List.drop_take, Nat.add_sub_cancel_left]

/-- An end of line goes on no word. -/
theorem continuesWord_of_endsLine (h : EndsLine after) : continuesWord after = false := by
  cases h with
  | input => rfl
  | line rest => exact (by decide +kernel : Text.isIdContinue '\n' = false)

theorem startsWithDigit_eq (input : List Char) :
    startsWithDigit input = decide (0 < digitCount input) := by
  cases input with
  | nil => rfl
  | cons c rest => by_cases hc : c.isDigit = true <;> simp [startsWithDigit, digitCount, hc]

/-- Digits are counted the same if the line ends anywhere behind them. -/
theorem digitCount_take_append (h : EndsLine after) (hc : digitCount input ≤ count) :
    digitCount (input.take count ++ after) = digitCount input :=
  congrArg List.length (takeWhile_take_append (by decide) h hc)

theorem startsWithDigit_take_append (h : EndsLine after) (hc : digitCount input ≤ count) :
    startsWithDigit (input.take count ++ after) = startsWithDigit input := by
  rw [startsWithDigit_eq, startsWithDigit_eq, digitCount_take_append h hc]

theorem wordLength_take_append (h : EndsLine after) (hc : wordLength input ≤ count) :
    wordLength (input.take count ++ after) = wordLength input :=
  congrArg List.length (takeWhile_take_append (by decide +kernel) h hc)

/-! ## Operators -/

theorem keepsLine_afterBrace (input : List Char) : KeepsLine afterBrace input := by
  intro after h
  fun_cases afterBrace input <;> cases h <;> rfl

theorem keepsLine_afterMinus (input : List Char) : KeepsLine afterMinus input := by
  intro after h
  fun_cases afterMinus input <;> cases h <;> rfl

theorem keepsLine_afterLess (input : List Char) : KeepsLine afterLess input := by
  intro after h
  fun_cases afterLess input <;> cases h <;> rfl

theorem keepsLine_afterGreater (input : List Char) : KeepsLine afterGreater input := by
  intro after h
  fun_cases afterGreater input <;> cases h <;> rfl

theorem keepsLine_afterEqual (input : List Char) : KeepsLine afterEqual input := by
  intro after h
  fun_cases afterEqual input <;> cases h <;> rfl

theorem keepsLine_afterBang (input : List Char) : KeepsLine afterBang input := by
  intro after h
  fun_cases afterBang input with
  | case4 rest hword =>
    -- behind the operator the line ends, and so does the word
    show (if continuesWord after then _ else _) = _
    rw [continuesWord_of_endsLine h, if_neg Bool.false_ne_true]
  | _ => cases h <;> rfl

theorem keepsLine_afterAmpersand (input : List Char) : KeepsLine afterAmpersand input := by
  intro after h
  fun_cases afterAmpersand input <;> cases h <;> rfl

theorem keepsLine_afterPipe (input : List Char) : KeepsLine afterPipe input := by
  intro after h
  fun_cases afterPipe input <;> cases h <;> rfl

theorem keepsLine_afterQuestion (input : List Char) : KeepsLine afterQuestion input := by
  intro after h
  fun_cases afterQuestion input <;> cases h <;> rfl

/-! ## Numbers -/

/-- What is cut off behind less than two characters is no exponent. -/
theorem exponentLength_of_length_le_one {kept : List Char} (h : EndsLine after)
    (hk : kept.length ≤ 1) : exponentLength (kept ++ after) = 0 := by
  match kept with
  | [] =>
    cases h with
    | input => rfl
    | line rest => cases rest <;> rfl
  | [c] =>
    cases h with
    | input => rfl
    | line rest => simp [exponentLength]
  | _ :: _ :: _ => simp at hk

/-- An exponent has its mark and a digit at least. -/
theorem exponentLength_eq_zero_of_le_one (h : exponentLength input ≤ 1) :
    exponentLength input = 0 := by
  revert h
  fun_cases exponentLength input with
  | case3 c sign rest _ _ hdigit =>
    intro h
    have hpos : startsWithDigit (sign :: rest) = true := hdigit
    rw [startsWithDigit_eq, decide_eq_true_eq] at hpos
    omega
  | _ => omega

/-- An exponent ends with a digit, so what is left of one that is cut off is none. -/
theorem exponentLength_take_append (h : EndsLine after) (hc : exponentLength input ≤ count) :
    exponentLength (input.take count ++ after) = exponentLength input := by
  rcases Nat.lt_or_ge count 2 with hlt | hge
  · have hzero : exponentLength input = 0 := exponentLength_eq_zero_of_le_one (by omega)
    rw [hzero, exponentLength_of_length_le_one h (by rw [List.length_take]; omega)]
  · obtain ⟨count, rfl⟩ := Nat.exists_eq_add_of_le' hge
    match input with
    | [] => exact @exponentLength_of_length_le_one after [] h (by simp)
    | [c] => exact @exponentLength_of_length_le_one after [c] h (by simp)
    | c :: sign :: rest =>
      simp only [List.take_succ_cons, List.cons_append, exponentLength] at hc ⊢
      by_cases he : (c == 'e' || c == 'E') = true
      · rw [if_pos he] at hc
        rw [if_pos he, if_pos he]
        by_cases hsign : (sign == '+' || sign == '-') = true
        · rw [if_pos hsign] at hc
          rw [if_pos hsign, if_pos hsign]
          have hle : digitCount rest ≤ count := by
            rw [startsWithDigit_eq] at hc
            split at hc
            · omega
            · next hnone => simp at hnone; omega
          rw [startsWithDigit_take_append h hle, digitCount_take_append h hle]
        · rw [if_neg hsign] at hc
          rw [if_neg hsign, if_neg hsign]
          split
          · next hdigit =>
            rw [if_pos hdigit] at hc
            exact congrArg (1 + ·)
              (@digitCount_take_append (sign :: rest) after (count + 1) h (by omega))
          · rfl
      · rw [if_neg he, if_neg he]

theorem suffixLength_take_append (h : EndsLine after) :
    suffixLength (input.take (suffixLength input) ++ after) = suffixLength input := by
  have hnone : suffixLength after = 0 := by cases h <;> rfl
  match input with
  | [] => exact hnone
  | c :: rest =>
    by_cases hs : (['f', 'F', 'd', 'D'].contains c && !continuesWord rest) = true
    · have hletter : ['f', 'F', 'd', 'D'].contains c = true := (Bool.and_eq_true_iff.mp hs).1
      have hone : suffixLength (c :: rest) = 1 := if_pos hs
      rw [hone, List.take_succ_cons, List.take_zero, List.cons_append, List.nil_append,
        suffixLength, hletter, continuesWord_of_endsLine h]
      rfl
    · have hzero : suffixLength (c :: rest) = 0 := if_neg hs
      rw [hzero, List.take_zero, List.nil_append, hnone]

/-- Length of an exponent and a suffix ahead. -/
def magnitudeLength (input : List Char) : Nat :=
  exponentLength input + suffixLength (input.drop (exponentLength input))

/-- Cut off behind an exponent and a suffix, a number has the same exponent and suffix. -/
theorem magnitudeLength_take_append (h : EndsLine after) :
    magnitudeLength (input.take (magnitudeLength input) ++ after) = magnitudeLength input := by
  have hle : exponentLength input ≤ magnitudeLength input := Nat.le_add_right _ _
  have he := exponentLength_take_append h hle
  rw [magnitudeLength, he, magnitudeLength, drop_take_append (exponentLength_le input),
    suffixLength_take_append h]

/-- A dot is neither an exponent nor a suffix. -/
theorem magnitudeLength_dot (tail : List Char) : magnitudeLength ('.' :: tail) = 0 := by
  cases tail <;> rfl

/-- A fraction is digits, and what gives its magnitude. -/
theorem fractionLength_eq (input : List Char) : fractionLength input =
    digitCount input + magnitudeLength (input.drop (digitCount input)) := by
  simp only [fractionLength, magnitudeLength, List.drop_drop]
  omega

theorem fractionLength_take_append (h : EndsLine after) :
    fractionLength (input.take (fractionLength input) ++ after) = fractionLength input := by
  rw [fractionLength_eq input, fractionLength_eq, digitCount_take_append h (Nat.le_add_right _ _),
    drop_take_append (digitCount_le input), magnitudeLength_take_append h]

theorem startsWithDigit_take_fraction (h : EndsLine after) :
    startsWithDigit (input.take (fractionLength input) ++ after) = startsWithDigit input :=
  startsWithDigit_take_append h (fractionLength_eq input ▸ Nat.le_add_right _ _)

/-- A point with a digit behind it belongs to the number. -/
theorem afterDigit_of_point {tail : List Char}
    (hd : input.drop (digitCount input) = '.' :: tail) (ht : startsWithDigit tail = true) :
    afterDigit input =
      clean .decimalFloatingPointLiteral (digitCount input + (1 + fractionLength tail)) := by
  simp only [afterDigit, hd]
  rw [if_pos ⟨rfl, ht⟩, Nat.add_assoc]
  rfl

/-- Any other point is a token of its own. -/
theorem afterDigit_of_noPoint
    (h : ∀ tail, input.drop (digitCount input) = '.' :: tail → startsWithDigit tail = false) :
    afterDigit input =
      clean (if magnitudeLength (input.drop (digitCount input)) = 0 then .decimalIntegerLiteral
          else .decimalFloatingPointLiteral)
        (digitCount input + magnitudeLength (input.drop (digitCount input))) := by
  have hpoint : ¬((input.drop (digitCount input)).head? = some '.' ∧
      startsWithDigit (input.drop (digitCount input)).tail) := by
    rintro ⟨hhead, hdigit⟩
    obtain ⟨tail, htail⟩ := List.head?_eq_some_iff.mp hhead
    rw [htail, List.tail_cons, h tail htail] at hdigit
    cases hdigit
  have heq : afterDigit input = if magnitudeLength (input.drop (digitCount input)) = 0
      then clean .decimalIntegerLiteral (digitCount input)
      else clean .decimalFloatingPointLiteral
        (digitCount input + exponentLength (input.drop (digitCount input)) + _) := if_neg hpoint
  rw [heq, Nat.add_assoc]
  by_cases hzero : magnitudeLength (input.drop (digitCount input)) = 0
  · rw [if_pos hzero, if_pos hzero, hzero, Nat.add_zero]
  · rw [if_neg hzero, if_neg hzero, magnitudeLength]

theorem keepsLine_afterDigit (input : List Char) : KeepsLine afterDigit input := by
  intro after h
  have hd {more : Nat} : digitCount (input.take (digitCount input + more) ++ after) =
      digitCount input := digitCount_take_append h (Nat.le_add_right _ _)
  have hr {more : Nat} : (input.take (digitCount input + more) ++ after).drop (digitCount input) =
      (input.drop (digitCount input)).take more ++ after := drop_take_append (digitCount_le input)
  by_cases hpoint : ∃ tail, input.drop (digitCount input) = '.' :: tail ∧ startsWithDigit tail
  · obtain ⟨tail, hrest, hdigit⟩ := hpoint
    rw [hrest] at hr
    rw [afterDigit_of_point hrest hdigit]
    simp only [clean]
    rw [@afterDigit_of_point _ (tail.take (fractionLength tail) ++ after), hd,
      fractionLength_take_append h]
    · rfl
    · rw [hd, hr, Nat.add_comm 1, List.take_succ_cons, List.cons_append]
    · rw [startsWithDigit_take_fraction h, hdigit]
  · have hnone (tail : List Char) (htail : input.drop (digitCount input) = '.' :: tail) :
        startsWithDigit tail = false := by
      by_contra hdigit
      exact hpoint ⟨tail, htail, by simpa using hdigit⟩
    rw [afterDigit_of_noPoint hnone]
    simp only [clean]
    generalize input.drop (digitCount input) = rest at *
    rw [afterDigit_of_noPoint, hd, hr, magnitudeLength_take_append h]
    · rfl
    · -- a dot that is still ahead was there before, so nothing of the rest is kept
      intro tail htail
      rw [hd, hr] at htail
      obtain ⟨others, rfl⟩ := List.head?_eq_some_iff.mp
        (head?_of_take_append h (by decide) (by rw [htail]; rfl) : rest.head? = some '.')
      rw [magnitudeLength_dot] at htail
      cases h <;> simp at htail

theorem afterHexMark_take_append (h : EndsLine after)
    (hc : (input.takeWhile isHexDigit).length ≤ count) :
    afterHexMark (input.take count ++ after) = afterHexMark input := by
  have htake : (input.take count ++ after).takeWhile isHexDigit = input.takeWhile isHexDigit :=
    takeWhile_take_append (by decide) h hc
  rw [afterHexMark, htake, afterHexMark]

/-- A zero and a mark begin a hexadecimal number, digits or not. -/
theorem number_of_hexMark {mark : Char} (hm : mark = 'x' ∨ mark = 'X') (input : List Char) :
    number '0' (mark :: input) = afterHexMark input := by
  rcases hm with rfl | rfl <;> rfl

/-- Any other number is decimal. -/
theorem number_of_noHexMark {first : Char}
    (h : first = '0' → input.head? ≠ some 'x' ∧ input.head? ≠ some 'X') :
    number first input = afterDigit input := by
  fun_cases number first input with
  | case1 rest => exact absurd rfl (h rfl).1
  | case2 rest => exact absurd rfl (h rfl).2
  | case3 => rfl

theorem keepsLine_number (first : Char) (input : List Char) : KeepsLine (number first) input := by
  intro after h
  by_cases hhex : first = '0' ∧ ∃ mark rest, (mark = 'x' ∨ mark = 'X') ∧ input = mark :: rest
  · obtain ⟨rfl, mark, rest, hm, rfl⟩ := hhex
    rw [number_of_hexMark hm]
    simp only [afterHexMark]
    rw [Nat.add_comm 1, List.take_succ_cons, List.cons_append, number_of_hexMark hm,
      afterHexMark_take_append h (Nat.le_refl _), afterHexMark, Nat.add_comm 1]
  · have hmark (hfirst : first = '0') : input.head? ≠ some 'x' ∧ input.head? ≠ some 'X' := by
      constructor <;> intro hhead <;> obtain ⟨rest, hrest⟩ := List.head?_eq_some_iff.mp hhead
      · exact hhex ⟨hfirst, 'x', rest, .inl rfl, hrest⟩
      · exact hhex ⟨hfirst, 'X', rest, .inr rfl, hrest⟩
    rw [number_of_noHexMark hmark, number_of_noHexMark, keepsLine_afterDigit input h]
    exact fun hfirst => ⟨mt (head?_of_take_append h (by decide)) (hmark hfirst).1,
      mt (head?_of_take_append h (by decide)) (hmark hfirst).2⟩

theorem afterDot_of_digit (h : startsWithDigit input = true) :
    afterDot input = clean .decimalFloatingPointLiteral (fractionLength input) :=
  if_pos h

theorem keepsLine_afterDot (input : List Char) : KeepsLine afterDot input := by
  intro after h
  by_cases hdigit : startsWithDigit input = true
  · have hdigit' := startsWithDigit_take_fraction h ▸ hdigit
    rw [afterDot_of_digit hdigit]
    simp only [clean]
    rw [afterDot_of_digit hdigit', fractionLength_take_append h, clean]
  · fun_cases afterDot input with
    | case1 => contradiction
    | _ => cases h <;> rfl

/-! ## Strings -/

/-- Behind `u` and a brace, the digits of a code point are taken, and the brace that closes. -/
theorem escape_of_mark {rest : List Char} :
    escape ('u' :: '\x7b' :: rest) =
      let digits := (rest.takeWhile isHexDigit).length
      if digits = 0 then (2, [.invalidEscapeSequence])
      else if (rest.drop digits).head? = some '\x7d' then (digits + 3, [])
      else (digits + 2, [.invalidEscapeSequence]) :=
  rfl

theorem escape_of_noMark {c : Char} {rest : List Char} (h : c = 'u' → rest.head? ≠ some '\x7b') :
    escape (c :: rest) =
      if simpleEscapes.contains c then (1, []) else (0, [.invalidEscapeSequence]) := by
  unfold escape
  split
  · next hmark =>
    obtain ⟨rfl, rfl⟩ := List.cons.inj hmark
    exact absurd rfl (h rfl)
  · next hmark => rw [(List.cons.inj hmark).1]
  · next hmark => cases hmark

/-- A backslash at the end of a line is a broken escape that takes nothing. -/
theorem escape_of_endsLine (h : EndsLine after) : escape after = (0, [.invalidEscapeSequence]) := by
  cases h <;> rfl

/-- The closing brace of an escape, if there is one, is kept with it. -/
theorem escape_mark_take_append {rest : List Char} (h : EndsLine after)
    (hc : (escape ('u' :: '\x7b' :: rest)).1 ≤ count + 2) :
    escape ('u' :: '\x7b' :: (rest.take count ++ after)) = escape ('u' :: '\x7b' :: rest) := by
  rw [escape_of_mark] at hc
  have hdl : (rest.takeWhile isHexDigit).length ≤ rest.length :=
    (List.takeWhile_prefix _).length_le
  generalize hd : (rest.takeWhile isHexDigit).length = digits at hc hdl
  have hle : digits ≤ count := by grind
  have htake : (rest.take count ++ after).takeWhile isHexDigit = rest.takeWhile isHexDigit :=
    takeWhile_take_append (by decide) h (hd ▸ hle)
  rw [escape_of_mark, escape_of_mark, htake, hd]
  by_cases hnone : digits = 0
  · simp only [hnone, if_true]
  · obtain ⟨kept, rfl⟩ := Nat.exists_eq_add_of_le hle
    have hbrace : ((rest.drop digits).take kept ++ after).head? = some '\x7d' ↔
        (rest.drop digits).head? = some '\x7d' := by
      refine ⟨head?_of_take_append h (by decide), fun hhead => ?_⟩
      have hpos : digits + 3 ≤ digits + kept + 2 := by
        simpa only [hnone, hhead, if_true, if_false] using hc
      obtain ⟨kept, rfl⟩ := Nat.exists_eq_add_of_le' (by omega : 1 ≤ kept)
      obtain ⟨others, hothers⟩ := List.head?_eq_some_iff.mp hhead
      rw [hothers, List.take_succ_cons, List.cons_append, List.head?_cons]
    simp only [hnone, drop_take_append hdl, hbrace]

/-- An escape is the same if no less is kept than belongs to it. -/
theorem escape_take_append (h : EndsLine after) (hc : (escape input).1 ≤ count) :
    escape (input.take count ++ after) = escape input := by
  match input with
  | [] => rw [List.take_nil, List.nil_append, escape_of_endsLine h, escape]
  | c :: rest =>
    by_cases hmark : c = 'u' ∧ ∃ others, rest = '\x7b' :: others
    · obtain ⟨rfl, others, rfl⟩ := hmark
      have htwo : 2 ≤ (escape ('u' :: '\x7b' :: others)).1 := by rw [escape_of_mark]; grind
      obtain ⟨count, rfl⟩ := Nat.exists_eq_add_of_le' (Nat.le_trans htwo hc)
      exact escape_mark_take_append h hc
    · have hnone (hfirst : c = 'u') : rest.head? ≠ some '\x7b' := fun hhead =>
        hmark ⟨hfirst, List.head?_eq_some_iff.mp hhead⟩
      rw [escape_of_noMark hnone] at hc ⊢
      cases count with
      | zero =>
        rw [List.take_zero, List.nil_append, escape_of_endsLine h]
        split at hc
        · cases hc
        · next hsimple => rw [if_neg hsimple]
      | succ count =>
        rw [List.take_succ_cons, List.cons_append, escape_of_noMark]
        exact fun hfirst => mt (head?_of_take_append h (by decide)) (hnone hfirst)

/-- By induction on the body: each turn takes an escape or one character. -/
theorem stringBody_take_append (h : EndsLine after) :
    stringBody (input.take (stringBody input).1 ++ after) = stringBody input := by
  have hend : stringBody after = (0, [.unterminatedString]) := by
    cases h <;> simp [stringBody]
  fun_induction stringBody input with
  | case1 => exact hend
  | case2 rest => simp [stringBody]
  | case3 c rest _ _ => simpa using hend
  | case4 rest escaped wrong hesc body codes hbody _ _ ih =>
    have hle : escaped ≤ rest.length := by
      have hle := escape_le rest
      rwa [hesc] at hle
    have hesc' : escape (rest.take (escaped + body) ++ after) = (escaped, wrong) := by
      rw [escape_take_append h (by rw [hesc]; exact Nat.le_add_right _ _), hesc]
    have hcons : ('\\' :: rest).take (1 + escaped + body) =
        '\\' :: rest.take (escaped + body) := by
      rw [Nat.add_assoc, Nat.add_comm 1, List.take_succ_cons]
    rw [hbody] at ih
    rw [hcons, List.cons_append, stringBody, if_neg (by decide), if_neg (by decide), if_pos rfl]
    simp only [hesc', drop_take_append hle, ih]
  | case5 c rest hq hl hb body codes hbody ih =>
    have hcons : (c :: rest).take (1 + body) = c :: rest.take body := by
      rw [Nat.add_comm 1, List.take_succ_cons]
    rw [hbody] at ih
    rw [hcons, List.cons_append, stringBody, if_neg hq, if_neg hl, if_neg hb, ih]

theorem keepsLine_afterQuote (input : List Char) : KeepsLine afterQuote input := by
  intro after h
  have hbody := @stringBody_take_append input after h
  simp only [afterQuote] at hbody ⊢
  rw [hbody]

/-! ## Words -/

theorem continuesWord_eq (input : List Char) :
    continuesWord input = decide (0 < wordLength input) := by
  cases input with
  | nil => rfl
  | cons c rest => by_cases hc : Text.isIdContinue c = true <;> simp [continuesWord, wordLength, hc]

theorem continuesWord_take_append (h : EndsLine after) (hc : wordLength input ≤ count) :
    continuesWord (input.take count ++ after) = continuesWord input := by
  rw [continuesWord_eq, continuesWord_eq, wordLength_take_append h hc]

theorem keepsLine_afterApostrophe (input : List Char) : KeepsLine afterApostrophe input := by
  intro after h
  have hmore : (afterApostrophe input).more = wordLength input := by
    unfold afterApostrophe
    split
    · next hzero => exact hzero.symm
    · rfl
  rw [hmore, afterApostrophe, wordLength_take_append h (Nat.le_refl _), afterApostrophe]

/-- The kind of a word hangs on the characters that are taken, and these are the same. -/
theorem keepsLine_word (mode : LexerMode) (first : Char) (input : List Char) :
    KeepsLine (word mode first) input := by
  intro after h
  simp only [word, clean]
  rw [wordLength_take_append h (Nat.le_refl _), List.take_left' (by simp [wordLength_le])]

/-! ## All together -/

/-- The decision whether an underscore is a word is the same, and a word takes what it goes on
with. -/
theorem keepsLine_next (mode : LexerMode) (first : Char) (input : List Char) :
    KeepsLine (next mode first) input := by
  intro after h
  unfold next
  split
  case h_16 => exact keepsLine_afterBrace input h
  case h_17 => exact keepsLine_afterDot input h
  case h_18 => exact keepsLine_afterMinus input h
  case h_19 => exact keepsLine_afterLess input h
  case h_20 => exact keepsLine_afterGreater input h
  case h_21 => exact keepsLine_afterEqual input h
  case h_22 => exact keepsLine_afterBang input h
  case h_23 => exact keepsLine_afterAmpersand input h
  case h_24 => exact keepsLine_afterPipe input h
  case h_25 => exact keepsLine_afterQuestion input h
  case h_26 => exact keepsLine_afterQuote input h
  case h_27 => exact keepsLine_afterApostrophe input h
  case h_28 =>
    by_cases hdigit : first.isDigit = true
    · simp only [if_pos hdigit]
      exact keepsLine_number first input h
    · simp only [if_neg hdigit]
      by_cases halone : first = '_' ∧ ¬continuesWord input = true
      · simp only [if_pos halone, clean]
        rw [List.take_zero, List.nil_append,
          if_pos ⟨halone.1, by rw [continuesWord_of_endsLine h]; exact Bool.false_ne_true⟩]
      · simp only [if_neg halone]
        by_cases hstart : Text.isIdStart first = true
        · have hword : continuesWord (input.take (wordLength input) ++ after) =
              continuesWord input := continuesWord_take_append h (Nat.le_refl _)
          simp only [if_pos hstart, word, clean]
          rw [hword, if_neg halone]
          exact keepsLine_word mode first input h
        · have hfirst : first ≠ '_' := by
            rintro rfl
            exact hstart (by decide +kernel)
          simp only [if_neg hstart, clean]
          rw [if_neg fun hboth => hfirst hboth.1]
  -- the other cases are the tokens of one character
  all_goals rfl

end Lexeme

/-! ## Words on lines -/

/-- Words one to a line, the last line without a break. -/
def lines : List Token → List Char
  | [] => []
  | [word] => word.text.toList
  | word :: next :: rest => word.text.toList ++ '\n' :: lines (next :: rest)

/-- What is behind a word that the words `rest` follow. -/
def linesBelow (rest : List Token) : List Char :=
  if rest.isEmpty then [] else '\n' :: lines rest

/-- The first word, and the others each on a line below. -/
theorem lines_cons (word : Token) (rest : List Token) :
    lines (word :: rest) = word.text.toList ++ linesBelow rest := by
  cases rest <;> simp [lines, linesBelow]

/-- What is below a word begins with the end of its line. -/
theorem endsLine_linesBelow (rest : List Token) : EndsLine (linesBelow rest) := by
  cases rest with
  | nil => exact .input
  | cons => exact .line _

theorem toList_intercalate_text (words : List Token) :
    ("\n".intercalate (words.map Token.text)).toList = lines words := by
  fun_induction lines words with
  | case1 => rfl
  | case2 word => simp
  | case3 word next rest ih =>
    rw [List.map_cons, List.map_cons, String.intercalate_cons_cons, String.toList_append,
      String.toList_append, ← List.map_cons, ih, List.append_assoc]
    rfl

namespace Trivia

/-- The trivia behind a word is the line break alone. -/
theorem rest_trailing_linesBelow (rest : List Token) :
    (trailing (linesBelow rest)).2 = lines rest := by
  cases rest with
  | nil => simp [linesBelow, lines, trailing, inLine?, lineBreak?]
  | cons word rest => simp [linesBelow, trailing, inLine?, lineBreak?, isBlank]

/-- Leading trivia goes on as long as there is a piece of it. -/
theorem piece?_leading (input : List Char) : piece? (leading input).2 = none := by
  fun_induction leading input with
  | case1 input h => exact h
  | case2 input piece rest h ih => exact ih

/-- A carriage return breaks a line without a line feed behind it. -/
theorem lineBreak?_cons_eq_none_iff (c : Char) (rest : List Char) :
    lineBreak? (c :: rest) = none ↔ c ≠ '\n' ∧ c ≠ '\r' := by
  constructor
  · intro h
    constructor <;> rintro rfl
    · cases h
    · cases rest with
      | nil => cases h
      | cons next rest =>
        by_cases hnext : next = '\n'
        · subst hnext
          cases h
        · simp [lineBreak?, hnext] at h
  · rintro ⟨hline, hreturn⟩
    simp [lineBreak?, hline, hreturn]

/-- A slash that is followed by no other begins no comment at the end of a line either. -/
theorem piece?_take_append {c : Char} {rest after : List Char} {count : Nat} (h : EndsLine after)
    (hp : piece? (c :: rest) = none) : piece? (c :: (rest.take count ++ after)) = none := by
  rw [piece?, Option.or_eq_none_iff] at hp ⊢
  refine ⟨?_, ?_⟩
  · have hslash : c = '/' → rest.head? ≠ some '/' := by
      rintro rfl hhead
      simp [inLine?, isBlank, hhead] at hp
    have hslash' (hc : c = '/') : (rest.take count ++ after).head? ≠ some '/' :=
      mt (Lexeme.head?_of_take_append h (by decide)) (hslash hc)
    grind [inLine?]
  · rw [lineBreak?_cons_eq_none_iff] at hp ⊢
    exact hp.2

end Trivia

namespace Scanner

/-- The token of which there are characters ahead, without its layout, and what is behind it. -/
theorem next_of_cons {scanner : Scanner} {c : Char} {rest : List Char}
    (h : (Trivia.leading scanner.rest).2 = c :: rest) :
    let lexeme := Lexeme.next scanner.mode c rest
    scanner.next.1.spelling =
        ⟨lexeme.kind, String.ofList (c :: rest.take lexeme.more), lexeme.codes⟩ ∧
      scanner.next.2.rest = (Trivia.trailing (rest.drop lexeme.more)).2 := by
  simp [next, h, Token.spelling, Token.ofText, Function.comp_def]

/-- A token is read again where a line consists of its text alone. -/
theorem next_of_line {s t : Scanner} {below : List Token} (hs : s.next.1.kind ≠ .eof)
    (hmode : t.mode = s.mode) (hrest : t.rest = s.next.1.text.toList ++ linesBelow below) :
    t.next.1.spelling = s.next.1.spelling ∧ t.next.2.rest = lines below := by
  obtain ⟨c, rest, hl⟩ : ∃ c rest, (Trivia.leading s.rest).2 = c :: rest :=
    List.exists_cons_of_ne_nil (mt (isStep_next s).kind_eq_eof_iff.mpr hs)
  obtain ⟨hspelling, -⟩ := next_of_cons hl
  have hline := endsLine_linesBelow below
  have hmore := (Lexeme.fits_next s.mode c rest).more_le
  have hkeeps := Lexeme.keepsLine_next s.mode c rest hline
  have hpiece : Trivia.piece? (c :: rest) = none := hl ▸ Trivia.piece?_leading s.rest
  generalize Lexeme.next s.mode c rest = lexeme at *
  have htext : s.next.1.text = String.ofList (c :: rest.take lexeme.more) :=
    congrArg Token.Spelling.text hspelling
  rw [htext, String.toList_ofList, List.cons_append] at hrest
  -- no trivia is before the text, and the lexeme takes all of it
  have hl' : (Trivia.leading t.rest).2 = c :: (rest.take lexeme.more ++ linesBelow below) := by
    rw [hrest, Trivia.leading_of_piece?_eq_none (Trivia.piece?_take_append hline hpiece)]
  have hlength : (rest.take lexeme.more).length = lexeme.more := List.length_take_of_le hmore
  obtain ⟨hspelling', hrest'⟩ := next_of_cons hl'
  rw [hmode, hkeeps] at hspelling' hrest'
  rw [List.take_left' hlength] at hspelling'
  rw [List.drop_left' hlength, Trivia.rest_trailing_linesBelow] at hrest'
  exact ⟨hspelling'.trans hspelling.symm, hrest'⟩

/-- The words of a scan, one to a line, are read again, by induction on the scan. -/
theorem spelling_tokens_of_lines (s t : Scanner) (hmode : t.mode = s.mode)
    (hrest : t.rest = lines (s.tokens.filter (·.kind ≠ .eof))) :
    t.tokens.map Token.spelling = s.tokens.map Token.spelling := by
  induction s using scan_induction generalizing t with
  | eof s h =>
    have hnil : t.rest = [] := by
      rw [hrest, tokens_of_eof h, List.filter_cons_of_neg (by simp [h]), List.filter_nil, lines]
    have ht := spelling_of_rest_nil hnil
    have hs := spelling_of_leading_nil ((isStep_next s).kind_eq_eof_iff.mp h)
    rw [tokens_of_eof h, tokens_of_eof (congrArg Token.Spelling.kind ht), List.map_singleton,
      List.map_singleton, ht, hs]
  | step s h ih =>
    rw [tokens_of_ne_eof h, List.filter_cons_of_pos (by simp [h]), lines_cons] at hrest
    obtain ⟨hspelling, hrest'⟩ := next_of_line h hmode hrest
    have hkind : t.next.1.kind = s.next.1.kind := congrArg Token.Spelling.kind hspelling
    have ht : t.next.1.kind ≠ .eof := hkind ▸ h
    have hmode' : t.next.2.mode = s.next.2.mode := by
      rw [(isStep_next t).same.2, (isStep_next s).same.2, hmode]
    rw [tokens_of_ne_eof h, tokens_of_ne_eof ht, List.map_cons, List.map_cons, hspelling,
      ih t.next.2 hmode' hrest']

/-- **Tokens do not depend on what is around them.** In either mode, a source that has the words of
another one each on a line of its own is scanned into the same tokens, their layout and places
apart. -/
theorem spelling_tokens_of_intercalate (source : String) (mode : LexerMode) :
    let words := ((ofSource source).reset 0 mode).tokens.filter (·.kind ≠ .eof)
    ((ofSource ("\n".intercalate (words.map Token.text))).reset 0 mode).tokens.map Token.spelling =
      ((ofSource source).reset 0 mode).tokens.map Token.spelling := by
  intro words
  refine spelling_tokens_of_lines _ _ rfl ?_
  rw [show (ofSource _).reset 0 mode = { ofSource _ with mode } from
    (valid_ofSource _).reset_eq mode]
  exact toList_intercalate_text words

end Scanner

end TolerantSyntax
