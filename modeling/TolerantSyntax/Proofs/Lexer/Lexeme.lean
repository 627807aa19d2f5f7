import TolerantSyntax.Lexer.Lexeme

/-!
# Lexemes lie within their source

Every routine of the lexer looks one or two characters ahead and answers with a count. Here each of
them is shown to count no further than the source goes, and to answer with a kind other than that of
the end of input: a lexeme that claimed to be the end would stop the scan in the middle of a source.
-/

namespace TolerantSyntax.Lexeme

/-- A lexeme whose characters behind the first one are all there, and which is not the end of
input. -/
structure Fits (lexeme : Lexeme) (input : List Char) : Prop where
  more_le : lexeme.more ≤ input.length
  kind_ne : lexeme.kind ≠ .eof

/-- A lexeme without diagnostics fits if it takes no more characters than there are. -/
theorem Fits.clean {kind : Kind} {more : Nat} {input : List Char} (hm : more ≤ input.length)
    (hk : kind ≠ .eof) : (clean kind more).Fits input :=
  ⟨hm, hk⟩

/-! ## Operators -/

theorem fits_afterBrace (input : List Char) : (afterBrace input).Fits input := by
  unfold afterBrace
  split <;> exact .clean (by simp) (by decide)

theorem fits_afterMinus (input : List Char) : (afterMinus input).Fits input := by
  unfold afterMinus
  split <;> exact .clean (by simp) (by decide)

theorem fits_afterLess (input : List Char) : (afterLess input).Fits input := by
  unfold afterLess
  split <;> exact .clean (by simp) (by decide)

theorem fits_afterGreater (input : List Char) : (afterGreater input).Fits input := by
  unfold afterGreater
  split <;> exact .clean (by simp) (by decide)

theorem fits_afterEqual (input : List Char) : (afterEqual input).Fits input := by
  unfold afterEqual
  split <;> exact .clean (by simp) (by decide)

theorem fits_afterBang (input : List Char) : (afterBang input).Fits input := by
  unfold afterBang
  split
  · exact .clean (by simp) (by decide)
  · exact .clean (by simp) (by decide)
  · split <;> exact .clean (by simp) (by decide)
  · exact .clean (by simp) (by decide)

theorem fits_afterAmpersand (input : List Char) : (afterAmpersand input).Fits input := by
  unfold afterAmpersand
  split <;> exact .clean (by simp) (by decide)

theorem fits_afterPipe (input : List Char) : (afterPipe input).Fits input := by
  unfold afterPipe
  split <;> exact .clean (by simp) (by decide)

theorem fits_afterQuestion (input : List Char) : (afterQuestion input).Fits input := by
  unfold afterQuestion
  split
  · split <;> exact .clean (by simp) (by decide)
  · exact .clean (by simp) (by decide)
  · exact .clean (by simp) (by decide)

/-! ## Numbers -/

/-- A run of digits lies within the input. -/
theorem digitCount_le (input : List Char) : digitCount input ≤ input.length :=
  (List.takeWhile_prefix _).length_le

/-- The manual arithmetic of an exponent, `e`, a sign and digits, stays within the source. -/
theorem exponentLength_le (input : List Char) : exponentLength input ≤ input.length := by
  unfold exponentLength
  split
  · next c sign rest =>
    have hd := digitCount_le rest
    have hs := digitCount_le (sign :: rest)
    simp only [List.length_cons] at hs ⊢
    repeat' split
    all_goals omega
  · simp

theorem suffixLength_le (input : List Char) : suffixLength input ≤ input.length := by
  unfold suffixLength
  split
  · split <;> simp
  · simp

/-- Digits, an exponent and a suffix lie within the input as well. -/
theorem fractionLength_le (input : List Char) : fractionLength input ≤ input.length := by
  have hd := digitCount_le input
  have he := exponentLength_le (input.drop (digitCount input))
  have hs := suffixLength_le
    (input.drop (digitCount input + exponentLength (input.drop (digitCount input))))
  simp only [List.length_drop] at he hs
  simp only [fractionLength]
  omega

/-- The mark is one character more; a number without digits still fits. -/
theorem fits_afterHexMark (mark : Char) (input : List Char) :
    (afterHexMark input).Fits (mark :: input) := by
  have hd : (input.takeWhile isHexDigit).length ≤ input.length :=
    (List.takeWhile_prefix _).length_le
  refine ⟨?_, by simp [afterHexMark]⟩
  simp only [afterHexMark, List.length_cons]
  omega

theorem fits_afterDigit (input : List Char) : (afterDigit input).Fits input := by
  have hd := digitCount_le input
  simp only [afterDigit]
  split
  · next h =>
    have hf := fractionLength_le (input.drop (digitCount input)).tail
    have hne : input.drop (digitCount input) ≠ [] := by
      intro he
      simp [he] at h
    have hpos := List.length_pos_iff.mpr hne
    simp only [List.length_tail, List.length_drop] at hf hpos
    exact .clean (by omega) (by decide)
  · have he := exponentLength_le (input.drop (digitCount input))
    have hs := suffixLength_le
      ((input.drop (digitCount input)).drop (exponentLength (input.drop (digitCount input))))
    simp only [List.length_drop] at he hs
    split
    · exact .clean hd (by decide)
    · exact .clean (by omega) (by decide)

theorem fits_number (first : Char) (input : List Char) : (number first input).Fits input := by
  unfold number
  split
  · exact fits_afterHexMark _ _
  · exact fits_afterHexMark _ _
  · exact fits_afterDigit _

theorem fits_afterDot (input : List Char) : (afterDot input).Fits input := by
  unfold afterDot
  split
  · exact .clean (fractionLength_le input) (by decide)
  · split <;> exact .clean (by simp) (by decide)

/-! ## Strings -/

/-- An escape that is broken off by the end of input takes what there is. -/
theorem escape_le (input : List Char) : (escape input).1 ≤ input.length := by
  unfold escape
  split
  · next rest =>
    have hd : (rest.takeWhile isHexDigit).length ≤ rest.length :=
      (List.takeWhile_prefix _).length_le
    simp only [List.length_cons]
    split
    · simp
    · split
      · next h =>
        -- the closing brace is one more character behind the digits
        have hne : rest.drop (rest.takeWhile isHexDigit).length ≠ [] := by
          intro he
          simp [he] at h
        have hpos := List.length_pos_iff.mpr hne
        simp only [List.length_drop] at hpos
        show _ + 3 ≤ _
        omega
      · show _ + 2 ≤ _
        omega
  · split <;> simp
  · simp

/-- A string that is not closed ends with its line or with the input. -/
theorem stringBody_le (input : List Char) : (stringBody input).1 ≤ input.length := by
  fun_induction stringBody input with
  | case1 => simp
  | case2 => simp
  | case3 => simp
  | case4 rest escaped wrong hesc body codes hbody _ _ ih =>
    have he := escape_le rest
    rw [hesc] at he
    rw [hbody] at ih
    simp only [List.length_drop, List.length_cons] at ih he ⊢
    omega
  | case5 c rest _ _ _ body codes hbody ih =>
    rw [hbody] at ih
    simp only [List.length_cons] at ih ⊢
    omega

theorem fits_afterQuote (input : List Char) : (afterQuote input).Fits input :=
  ⟨stringBody_le input, by simp [afterQuote]⟩

/-! ## Words -/

theorem wordLength_le (input : List Char) : wordLength input ≤ input.length :=
  (List.takeWhile_prefix _).length_le

theorem fits_afterApostrophe (input : List Char) : (afterApostrophe input).Fits input := by
  unfold afterApostrophe
  split
  · exact .clean (by simp) (by decide)
  · exact .clean (wordLength_le input) (by decide)

/-- No reserved word is the end of input. -/
theorem keyword?_ne_eof {text : String} {kind : Kind} (h : Kind.keyword? text = some kind) :
    kind ≠ .eof := by
  obtain ⟨entry, hfind, rfl⟩ := Option.map_eq_some_iff.mp h
  have hall : ∀ entry ∈ Kind.keywords, entry.2 ≠ .eof := by decide
  exact hall entry (List.mem_of_find?_eq_some hfind)

theorem wordKind_ne_eof (mode : LexerMode) (text : String) : wordKind mode text ≠ .eof := by
  unfold wordKind
  split
  · next h => exact keyword?_ne_eof h
  · decide
  · decide

theorem fits_word (mode : LexerMode) (first : Char) (input : List Char) :
    (word mode first input).Fits input :=
  .clean (wordLength_le input) (wordKind_ne_eof _ _)

/-! ## All together -/

/-- Whatever character comes first, its routine takes no more than there is, and gives no end of
input. -/
theorem fits_next (mode : LexerMode) (first : Char) (input : List Char) :
    (next mode first input).Fits input := by
  unfold next
  split
  case h_16 => exact fits_afterBrace input
  case h_17 => exact fits_afterDot input
  case h_18 => exact fits_afterMinus input
  case h_19 => exact fits_afterLess input
  case h_20 => exact fits_afterGreater input
  case h_21 => exact fits_afterEqual input
  case h_22 => exact fits_afterBang input
  case h_23 => exact fits_afterAmpersand input
  case h_24 => exact fits_afterPipe input
  case h_25 => exact fits_afterQuestion input
  case h_26 => exact fits_afterQuote input
  case h_27 => exact fits_afterApostrophe input
  case h_28 =>
    split
    · exact fits_number first input
    · split
      · exact .clean (by simp) (by decide)
      · split
        · exact fits_word mode first input
        · exact .clean (by simp) (by decide)
  -- the other cases are the tokens of one character
  all_goals exact .clean (Nat.zero_le _) (by decide)

end TolerantSyntax.Lexeme
