import TolerantSyntax.Grammar.Rule
import TolerantSyntax.Proofs.Lexer.Reader
import TolerantSyntax.Proofs.Parse.Row

/-!
# The front of a parse

However many rules are in progress, a parse does only a few things to its source: it shifts the next
token onto the row of pieces, discards it, puts a token in, or makes something of the row. The front
is what of the state these steps see; what has been looked at and what the strategy has been asked
is no part of it. A parse that has not counted a token further stands where it stood, unless all
that was left is the end of input.
-/

namespace TolerantSyntax

/-- Where a parse stands in its source. -/
structure Front where
  source : List Char
  /-- The characters ahead. -/
  rest : List Char
  /-- Bytes before `rest`. -/
  offset : Nat
  /-- Discarded text that waits for the next token. -/
  pending : List Trivia
  /-- Where the last consumed token ends. -/
  lastEnd : Nat
  /-- Tokens consumed so far, the end of input not counted. -/
  consumed : Nat

namespace Front

/-! ## Steps -/

/-- The scanner of a front, in some mode. -/
def scanner (front : Front) (mode : LexerMode) : Scanner :=
  { source := front.source, rest := front.rest, offset := front.offset, mode }

/-- The token ahead, if words are read in the mode. -/
def next (front : Front) (mode : LexerMode) : Token :=
  (front.scanner mode).next.1

/-- Behind the token ahead, with what is discarded and where the last token ends. -/
def advance (front : Front) (mode : LexerMode) (pending : List Trivia) (lastEnd : Nat) : Front where
  source := front.source
  rest := (front.scanner mode).next.2.rest
  offset := (front.scanner mode).next.2.offset
  pending := pending
  lastEnd := lastEnd
  consumed := if (front.next mode).kind = .eof then front.consumed else front.consumed + 1

/-- The token ahead is consumed. -/
def shift (front : Front) (mode : LexerMode) : Front :=
  front.advance mode [] (front.next mode).span.stop

/-- The token ahead as a leaf, behind the text that waits for it. -/
def leaf (front : Front) (mode : LexerMode) (kind : Kind) : Node :=
  .leaf (((front.next mode).withLeading front.pending).withKind kind)

/-- The token ahead is discarded. -/
def discard (front : Front) (mode : LexerMode) : Front :=
  front.advance mode
    (front.pending ++
      [Node.setAside (.leaf (front.next mode)) (.invalidToken (front.next mode).kind)])
    front.lastEnd

/-- A run of a parse from one front and row of pieces to another. -/
inductive Steps (start : Front) (before : Row) : Front → Row → Prop where
  | refl : Steps start before start before
  | shift {front : Front} {row : Row} (h : Steps start before front row) (mode : LexerMode)
      (kind : Kind) : Steps start before (front.shift mode) (row ++ [some (front.leaf mode kind)])
  | discard {front : Front} {row : Row} (h : Steps start before front row) (mode : LexerMode)
      (hk : (front.next mode).kind ≠ .eof) : Steps start before (front.discard mode) row
  | insert {front : Front} {row : Row} (h : Steps start before front row) (kind : Kind)
      (code : DiagnosticCode) :
      Steps start before front (row ++ [some (.missing kind front.lastEnd code)])
  | become {front : Front} {row row' : Row} (h : Steps start before front row)
      (hb : row.Becomes row') : Steps start before front row'

namespace Steps

variable {f g k : Front} {xs ys zs : Row}

theorem trans (h : Steps f xs g ys) (h' : Steps g ys k zs) : Steps f xs k zs := by
  induction h' with
  | refl => exact h
  | shift _ mode kind ih => exact ih.shift mode kind
  | discard _ mode hk ih => exact ih.discard mode hk
  | insert _ kind code ih => exact ih.insert kind code
  | become _ hb ih => exact ih.become hb

/-- Pieces read before do not matter. -/
theorem frame (h : Steps f xs g ys) (pre : Row) : Steps f (pre ++ xs) g (pre ++ ys) := by
  induction h with
  | refl => exact .refl
  | shift _ mode kind ih => simpa using ih.shift mode kind
  | discard _ mode hk ih => exact ih.discard mode hk
  | insert _ kind code ih => simpa using ih.insert kind code
  | become _ hb ih => exact ih.become (hb.append_left pre)

/-- A run that reads its pieces from nothing, behind others. -/
theorem behind (h : Steps f [] g ys) (pre : Row) : Steps f pre g (pre ++ ys) := by
  simpa using h.frame pre

end Steps

/-! ## Progress -/

/-- Nothing but trivia is ahead. -/
def AtEnd (front : Front) : Prop :=
  (Trivia.leading front.rest).2 = []

theorem kind_next_eq_eof_iff (front : Front) (mode : LexerMode) :
    (front.next mode).kind = .eof ↔ front.AtEnd :=
  (Scanner.isStep_next (front.scanner mode)).kind_eq_eof_iff

/-- How much is ahead. -/
def left (front : Front) : Nat :=
  front.rest.length

/-- How far a later front is behind an earlier one. -/
structure Onward (f g : Front) : Prop where
  source : g.source = f.source
  consumed : f.consumed ≤ g.consumed
  left : g.left ≤ f.left
  stays : g.consumed = f.consumed → f.AtEnd ∨ g = f
  moves : f.consumed < g.consumed → g.left < f.left

theorem left_advance_le (f : Front) (mode : LexerMode) (pending : List Trivia) (lastEnd : Nat) :
    (f.advance mode pending lastEnd).left ≤ f.left := by
  by_cases hk : (f.next mode).kind = .eof
  · have hr := (Scanner.isStep_next (f.scanner mode)).rest_of_eof hk
    simp [left, advance, hr]
  · exact Nat.le_of_lt ((f.scanner mode).length_rest_next_lt hk)

theorem Onward.advance {f g : Front} (h : Onward f g) (mode : LexerMode) (pending : List Trivia)
    (lastEnd : Nat) : Onward f (g.advance mode pending lastEnd) := by
  have hle := left_advance_le g mode pending lastEnd
  by_cases hk : (g.next mode).kind = .eof
  · have hc : (g.advance mode pending lastEnd).consumed = g.consumed := by simp [Front.advance, hk]
    refine ⟨h.source, hc ▸ h.consumed, hle.trans h.left, ?_, ?_⟩
    · intro he
      rcases h.stays (hc ▸ he) with hf | rfl
      · exact Or.inl hf
      · exact Or.inl ((kind_next_eq_eof_iff g mode).mp hk)
    · intro hlt
      exact Nat.lt_of_le_of_lt hle (h.moves (hc ▸ hlt))
  · have hc : (g.advance mode pending lastEnd).consumed = g.consumed + 1 := by
      simp [Front.advance, hk]
    have hlt : (g.advance mode pending lastEnd).left < g.left :=
      (g.scanner mode).length_rest_next_lt hk
    have hcons := h.consumed
    refine ⟨h.source, by omega, hle.trans h.left, fun he => by omega, fun _ => ?_⟩
    exact Nat.lt_of_lt_of_le hlt h.left

/-- A run goes onward. -/
theorem Steps.onward {f g : Front} {xs ys : Row} (h : Steps f xs g ys) : Onward f g := by
  induction h with
  | refl =>
    exact ⟨rfl, Nat.le_refl _, Nat.le_refl _, fun _ => Or.inr rfl,
      fun h => absurd h (Nat.lt_irrefl _)⟩
  | shift _ mode kind ih => exact ih.advance mode _ _
  | discard _ mode _ ih => exact ih.advance mode _ _
  | insert _ kind code ih => exact ih
  | become _ _ ih => exact ih

/-- A run that has not counted a token further, though there was one, stands where it stood. -/
theorem Steps.front_eq {f g : Front} {xs ys : Row} (h : Steps f xs g ys)
    (hc : g.consumed = f.consumed) (hend : ¬f.AtEnd) : g = f :=
  (h.onward.stays hc).resolve_left hend

end Front

end TolerantSyntax
