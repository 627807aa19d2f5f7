import TolerantSyntax.Lexer.Scanner

/-!
# Trivia keeps the text

The trivia ahead, read piece by piece, is a beginning of the source: the text of the pieces and what
follows them make up what was ahead. Trivia behind a token ends with the first line break, and
without one it ends where no trivia is left, so the next token has none before it.
-/

namespace TolerantSyntax

namespace Trivia

/-! ## Sorts of trivia -/

/-- Text of the source between tokens, and nothing that was set aside. -/
def IsPlain : Trivia → Prop
  | .invalid _ => False
  | _ => True

/-- Is it a line break? -/
def isEndOfLine : Trivia → Bool
  | .endOfLine _ => true
  | _ => false

/-! ## One piece -/

/-- What a piece takes from the characters ahead. -/
structure Takes (input : List Char) (piece : Trivia) (rest : List Char) (ends : Bool) : Prop where
  source : piece.source ++ String.ofList rest = String.ofList input
  plain : piece.IsPlain
  ends : piece.isEndOfLine = ends

theorem ofList_takeWhile_append_dropWhile (p : Char → Bool) (input : List Char) :
    String.ofList (input.takeWhile p) ++ String.ofList (input.dropWhile p) =
      String.ofList input := by
  rw [← String.ofList_append, List.takeWhile_append_dropWhile]

/-- Blanks and comments do not end a line. -/
theorem takes_of_inLine? {input rest : List Char} {piece : Trivia}
    (h : inLine? input = some (piece, rest)) : Takes input piece rest false := by
  unfold inLine? at h
  split at h
  · simp at h
  · split at h
    · cases h
      exact ⟨ofList_takeWhile_append_dropWhile _ _, trivial, rfl⟩
    · split at h
      · cases h
        exact ⟨ofList_takeWhile_append_dropWhile _ _, trivial, rfl⟩
      · split at h
        · cases h
          exact ⟨ofList_takeWhile_append_dropWhile _ _, trivial, rfl⟩
        · simp at h

/-- A line break is one or two characters, and it ends the line. -/
theorem takes_of_lineBreak? {input rest : List Char} {piece : Trivia}
    (h : lineBreak? input = some (piece, rest)) : Takes input piece rest true := by
  unfold lineBreak? at h
  split at h
  · cases h
    exact ⟨(@String.ofList_append ['\n'] _).symm, trivial, rfl⟩
  · cases h
    exact ⟨(@String.ofList_append ['\r', '\n'] _).symm, trivial, rfl⟩
  · cases h
    exact ⟨(@String.ofList_append ['\r'] _).symm, trivial, rfl⟩
  · simp at h

theorem exists_takes_of_piece? {input rest : List Char} {piece : Trivia}
    (h : piece? input = some (piece, rest)) : ∃ ends, Takes input piece rest ends := by
  rw [piece?, Option.or_eq_some_iff] at h
  rcases h with h | ⟨_, h⟩
  · exact ⟨false, takes_of_inLine? h⟩
  · exact ⟨true, takes_of_lineBreak? h⟩

/-! ## Trivia before a token -/

/-- Leading trivia and what is left spell the input. -/
theorem source_leading (input : List Char) :
    sources (leading input).1 ++ String.ofList (leading input).2 = String.ofList input := by
  fun_induction leading input with
  | case1 => simp [sources]
  | case2 input piece rest h ih =>
    obtain ⟨ends, ht⟩ := exists_takes_of_piece? h
    rw [sources, String.append_assoc, ih, ht.source]

theorem isPlain_of_mem_leading (input : List Char) :
    ∀ piece ∈ (leading input).1, piece.IsPlain := by
  fun_induction leading input with
  | case1 => simp
  | case2 input piece rest h ih =>
    obtain ⟨ends, ht⟩ := exists_takes_of_piece? h
    intro other hmem
    rcases List.mem_cons.mp hmem with rfl | hmem
    · exact ht.plain
    · exact ih other hmem

/-- Where no piece begins there is no trivia. -/
theorem leading_of_piece?_eq_none {input : List Char} (h : piece? input = none) :
    leading input = ([], input) := by
  rw [leading]
  split
  · rfl
  · next h' => rw [h] at h'; simp at h'

/-! ## Trivia behind a token -/

/-- Trailing trivia and what is left spell the input too. -/
theorem source_trailing (input : List Char) :
    sources (trailing input).1 ++ String.ofList (trailing input).2 = String.ofList input := by
  fun_induction trailing input with
  | case1 input piece rest h ih =>
    rw [sources, String.append_assoc, ih, (takes_of_inLine? h).source]
  | case2 input _ piece rest h =>
    simp only [sources, String.append_empty]
    exact (takes_of_lineBreak? h).source
  | case3 => simp [sources]

theorem isPlain_of_mem_trailing (input : List Char) :
    ∀ piece ∈ (trailing input).1, piece.IsPlain := by
  fun_induction trailing input with
  | case1 input piece rest h ih =>
    intro other hmem
    rcases List.mem_cons.mp hmem with rfl | hmem
    · exact (takes_of_inLine? h).plain
    · exact ih other hmem
  | case2 input _ piece rest h =>
    intro other hmem
    rw [List.mem_singleton.mp hmem]
    exact (takes_of_lineBreak? h).plain
  | case3 => simp

/-- Only the last piece behind a token can be a line break. -/
theorem isEndOfLine_of_mem_dropLast_trailing (input : List Char) :
    ∀ piece ∈ (trailing input).1.dropLast, piece.isEndOfLine = false := by
  fun_induction trailing input with
  | case1 input piece rest h ih =>
    intro other hmem
    cases hrest : (trailing rest).1 with
    | nil => simp [hrest] at hmem
    | cons next others =>
      rw [hrest, List.dropLast_cons_cons] at hmem
      rcases List.mem_cons.mp hmem with rfl | hmem
      · exact (takes_of_inLine? h).ends
      · exact ih other (by rwa [hrest])
  | case2 => simp
  | case3 => simp

/-- Trivia behind a token that does not end with a line break ends where no trivia is left. -/
theorem piece?_trailing (input : List Char)
    (h : (trailing input).1.any isEndOfLine = false) : piece? (trailing input).2 = none := by
  fun_induction trailing input with
  | case1 input piece rest hp ih =>
    rw [List.any_cons, Bool.or_eq_false_iff] at h
    exact ih h.2
  | case2 input _ piece rest hb =>
    simp [(takes_of_lineBreak? hb).ends] at h
  | case3 input hi hb => simp [piece?, hi, hb]

end Trivia

theorem Token.hasTrailingNewline_eq (token : Token) :
    token.hasTrailingNewline = token.trailing.any Trivia.isEndOfLine := by
  rfl

end TolerantSyntax
