import TolerantSyntax.Proofs.Lexer.Reader

/-!
# A reader without a buffer

What a token reader answers could be had without any buffer: from the offset of the next byte that
has not been consumed, the modes that have begun, and how many tokens have been consumed. A machine
with only these three scans the source from its offset whenever it is asked for a token. Here the
two are shown to give the same answers to the same operations (`answers_eq_cursor`), so nothing that
a reader has looked at ahead of time, in whatever mode, can ever be observed.

The relation that carries the proof says that the reader stands at the scanner of the machine; one
step of both keeps it, and the answers of whole runs follow by induction on the operations.
-/

namespace TolerantSyntax

/-! ## Operations and answers -/

/-- What a reader can be asked to do. -/
inductive ReaderOperation where
  /-- Look at the token so many tokens behind the next one. -/
  | peek (ahead : Nat)
  | consume
  | startMode (mode : LexerMode)
  | endMode
deriving DecidableEq, Repr

/-- What an operation shows: a token, if it was asked for one, and how many have been consumed. -/
structure ReaderAnswer where
  token? : Option Token
  consumed : Nat

namespace TokenReader

/-- Performs an operation. -/
def perform (reader : TokenReader) : ReaderOperation → ReaderAnswer × TokenReader
  | .peek ahead =>
    let (token, reader) := reader.peek ahead
    (⟨some token, reader.consumed⟩, reader)
  | .consume =>
    let (token, reader) := reader.consume
    (⟨some token, reader.consumed⟩, reader)
  | .startMode mode =>
    let reader := reader.startMode mode
    (⟨none, reader.consumed⟩, reader)
  | .endMode =>
    let reader := reader.endMode
    (⟨none, reader.consumed⟩, reader)

/-- The answers to a row of operations. -/
def answers (reader : TokenReader) : List ReaderOperation → List ReaderAnswer
  | [] => []
  | operation :: rest =>
    (reader.perform operation).1 :: (reader.perform operation).2.answers rest

end TokenReader

/-- The tokens that a row of operations has consumed, given its answers. -/
def ReaderOperation.taken (operations : List ReaderOperation) (answers : List ReaderAnswer) :
    List Token :=
  (operations.zip answers).filterMap fun (operation, answer) =>
    if operation = .consume then answer.token? else none

/-! ## The machine -/

/-- The token so many tokens behind the next one. -/
def Scanner.tokenAt (scanner : Scanner) : Nat → Token
  | 0 => scanner.next.1
  | ahead + 1 => scanner.next.2.tokenAt ahead

/-- All that a reader has to know. -/
structure Cursor where
  /-- Bytes of the source that have been consumed. -/
  offset : Nat
  /-- Modes that have begun, the innermost first. -/
  modes : List LexerMode
  /-- Tokens consumed so far, the end of input not counted. -/
  consumed : Nat

namespace Cursor

/-- Nothing has been read. -/
def start : Cursor := ⟨0, [], 0⟩

/-- The scanner at the offset, in the innermost mode. -/
def scanner (cursor : Cursor) (source : String) : Scanner :=
  (Scanner.ofSource source).reset cursor.offset (cursor.modes.head?.getD .code)

/-- Performs an operation by scanning the source from the offset. -/
def perform (cursor : Cursor) (source : String) : ReaderOperation → ReaderAnswer × Cursor
  | .peek ahead => (⟨some ((cursor.scanner source).tokenAt ahead), cursor.consumed⟩, cursor)
  | .consume =>
    let token := (cursor.scanner source).tokenAt 0
    let consumed := if token.kind = .eof then cursor.consumed else cursor.consumed + 1
    (⟨some token, consumed⟩, { cursor with offset := cursor.offset + token.fullWidth, consumed })
  | .startMode mode =>
    (⟨none, cursor.consumed⟩, { cursor with modes := mode :: cursor.modes })
  | .endMode => (⟨none, cursor.consumed⟩, { cursor with modes := cursor.modes.tail })

/-- The answers to a row of operations. -/
def answers (cursor : Cursor) (source : String) : List ReaderOperation → List ReaderAnswer
  | [] => []
  | operation :: rest =>
    (cursor.perform source operation).1 :: (cursor.perform source operation).2.answers source rest

/-- Where a row of operations leads. -/
def after (cursor : Cursor) (source : String) (operations : List ReaderOperation) : Cursor :=
  operations.foldl (fun cursor operation => (cursor.perform source operation).2) cursor

/-- What of the source has not been consumed. -/
def remaining (cursor : Cursor) (source : String) : String :=
  String.ofList (cursor.scanner source).rest

end Cursor

/-! ## The reader does what the machine does -/

theorem Scanner.getElem?_take_tokenAt (scanner : Scanner) (ahead : Nat) :
    (scanner.take (ahead + 1)).1[ahead]? = some (scanner.tokenAt ahead) := by
  induction ahead generalizing scanner with
  | zero => rfl
  | succ ahead ih => rw [take, tokenAt, List.getElem?_cons_succ, ih]

/-- Behind a token lies what its full width has not covered. -/
theorem Scanner.offset_next (scanner : Scanner) :
    scanner.next.2.offset = scanner.offset + scanner.next.1.fullWidth := by
  have hstep := isStep_next scanner
  rw [hstep.offset, Token.fullStop, hstep.stop, hstep.start, Token.fullWidth_eq_utf8ByteSize,
    Token.source_eq, Token.leadingWidth, Trivia.widths_eq_utf8ByteSize,
    Trivia.widths_eq_utf8ByteSize]
  simp only [String.utf8ByteSize_append]
  omega

namespace Cursor

variable {source : String} {cursor : Cursor} {reader : TokenReader}

/-- The reader stands at the scanner of the machine, and knows what the machine does. -/
structure Matches (source : String) (cursor : Cursor) (reader : TokenReader) : Prop where
  isAt : reader.IsAt (cursor.scanner source)
  offset : (cursor.scanner source).offset = cursor.offset
  modes : reader.modes = cursor.modes
  consumed : reader.consumed = cursor.consumed

/-- A machine at the offset of a valid scanner of the source has that scanner. -/
theorem scanner_eq {scanner : Scanner} (hv : scanner.Valid) (hs : scanner.source = source.toList)
    (ho : scanner.offset = cursor.offset) :
    cursor.scanner source = { scanner with mode := cursor.modes.head?.getD .code } := by
  rw [Cursor.scanner, ← ho, ← hv.reset_eq]
  exact Scanner.reset_congr hs.symm _ _

theorem matches_start (source : String) : Matches source start (.ofSource source) := by
  have hscanner : start.scanner source = .ofSource source :=
    scanner_eq (Scanner.valid_ofSource source) rfl rfl
  exact ⟨by rw [hscanner]; exact TokenReader.isAt_ofSource source, by rw [hscanner]; rfl, rfl, rfl⟩

namespace Matches

theorem tokenAt_eq (h : Matches source cursor reader) (ahead : Nat) :
    (reader.peek ahead).1 = (cursor.scanner source).tokenAt ahead := by
  have hpeek := (h.isAt.peek ahead).1
  rw [Scanner.getElem?_take_tokenAt, Option.some.injEq] at hpeek
  exact hpeek.symm

/-- A reader that matches stands at some valid scanner, and so does one in other modes. -/
theorem of_isAt {other : Cursor} {after : TokenReader} {scanner : Scanner}
    (hat : after.IsAt scanner) (hs : scanner.source = source.toList)
    (ho : scanner.offset = other.offset) (hmodes : after.modes = other.modes)
    (hconsumed : after.consumed = other.consumed) : Matches source other after := by
  have hscanner : other.scanner source = scanner := by
    rw [scanner_eq hat.valid hs ho, ← hmodes]
    exact congrArg (fun mode => { scanner with mode }) hat.mode.symm
  exact ⟨hscanner ▸ hat, by rw [hscanner, ho], hmodes, hconsumed⟩

/-- **One operation**: the answers are the same, and so is where it leads. -/
theorem perform (h : Matches source cursor reader) (operation : ReaderOperation) :
    (reader.perform operation).1 = (cursor.perform source operation).1 ∧
      Matches source (cursor.perform source operation).2 (reader.perform operation).2 := by
  have hvalid := h.isAt.valid
  cases operation with
  | peek ahead =>
    obtain ⟨-, hat, hmodes, hconsumed⟩ := h.isAt.peek ahead
    refine ⟨?_, hat, h.offset, hmodes.trans h.modes, hconsumed.trans h.consumed⟩
    simp only [TokenReader.perform, Cursor.perform, h.tokenAt_eq, hconsumed, h.consumed]
  | consume =>
    obtain ⟨htoken, hat, hmodes, hconsumed⟩ := h.isAt.consume
    rw [h.consumed] at hconsumed
    refine ⟨?_, of_isAt hat ?_ ?_ (hmodes.trans h.modes) hconsumed⟩
    · simp only [TokenReader.perform, Cursor.perform, htoken, hconsumed, Scanner.tokenAt]
      rfl
    · exact (Scanner.isStep_next _).same.1
    · rw [Scanner.offset_next, h.offset]
      rfl
  | startMode mode =>
    have hmodes : (reader.startMode mode).modes = mode :: cursor.modes := by
      rw [TokenReader.modes_startMode, h.modes]
    have hconsumed : (reader.startMode mode).consumed = cursor.consumed :=
      (TokenReader.consumed_relex _).trans h.consumed
    refine ⟨?_, of_isAt (h.isAt.startMode mode) rfl h.offset hmodes hconsumed⟩
    simp only [TokenReader.perform, Cursor.perform, hconsumed]
  | endMode =>
    have hmodes : reader.endMode.modes = cursor.modes.tail := by
      rw [TokenReader.modes_endMode, h.modes]
    have hconsumed : reader.endMode.consumed = cursor.consumed :=
      (TokenReader.consumed_relex _).trans h.consumed
    refine ⟨?_, of_isAt h.isAt.endMode rfl h.offset hmodes hconsumed⟩
    simp only [TokenReader.perform, Cursor.perform, hconsumed]

theorem answers_eq (h : Matches source cursor reader) (operations : List ReaderOperation) :
    reader.answers operations = cursor.answers source operations := by
  induction operations generalizing cursor reader with
  | nil => rfl
  | cons operation rest ih =>
    obtain ⟨hanswer, hnext⟩ := h.perform operation
    rw [TokenReader.answers, Cursor.answers, hanswer, ih hnext]

/-! ## Nothing is lost or read twice -/

/-- What is consumed is taken off what remains. -/
theorem remaining_perform (h : Matches source cursor reader) (operation : ReaderOperation) :
    Token.sources (ReaderOperation.taken [operation] [(reader.perform operation).1]) ++
      (cursor.perform source operation).2.remaining source = cursor.remaining source := by
  obtain ⟨hanswer, hnext⟩ := h.perform operation
  -- what remains depends on the offset only, and only consuming changes that
  have hsame {other : Cursor} (hoffset : other.offset = cursor.offset) :
      other.remaining source = cursor.remaining source := by
    have hvalid : ({ cursor.scanner source with mode := .code } : Scanner).Valid := h.isAt.valid
    rw [remaining, remaining, scanner_eq hvalid rfl (h.offset.trans hoffset.symm)]
  cases operation with
  | consume =>
    have hbehind : (cursor.perform source .consume).2.scanner source =
        (cursor.scanner source).next.2 := by
      have hmode : (cursor.scanner source).next.2.mode = cursor.modes.head?.getD .code :=
        (Scanner.isStep_next _).same.2
      rw [scanner_eq h.isAt.valid.next (Scanner.isStep_next _).same.1
        (by rw [Scanner.offset_next, h.offset]; rfl)]
      exact congrArg (fun mode => { (cursor.scanner source).next.2 with mode }) hmode.symm
    have hsource := (Scanner.isStep_next (cursor.scanner source)).source
    rw [hanswer, remaining, remaining, hbehind]
    simpa [ReaderOperation.taken, Cursor.perform, Token.sources, Scanner.tokenAt] using hsource
  | peek ahead => exact String.empty_append.trans (hsame rfl)
  | startMode mode => exact String.empty_append.trans (hsame rfl)
  | endMode => exact String.empty_append.trans (hsame rfl)

end Matches

end Cursor

theorem Token.sources_append (xs ys : List Token) :
    sources (xs ++ ys) = sources xs ++ sources ys := by
  induction xs with
  | nil => rw [List.nil_append, sources, String.empty_append]
  | cons token xs ih => rw [List.cons_append, sources, sources, ih, String.append_assoc]

theorem Cursor.Matches.remaining_after {source : String} {cursor : Cursor} {reader : TokenReader}
    (h : Matches source cursor reader) (operations : List ReaderOperation) :
    Token.sources (ReaderOperation.taken operations (reader.answers operations)) ++
      (cursor.after source operations).remaining source = cursor.remaining source := by
  induction operations generalizing cursor reader with
  | nil => exact String.empty_append
  | cons operation rest ih =>
    have htaken : ReaderOperation.taken (operation :: rest) (reader.answers (operation :: rest)) =
        ReaderOperation.taken [operation] [(reader.perform operation).1] ++
          ReaderOperation.taken rest ((reader.perform operation).2.answers rest) :=
      List.filterMap_append (l := [(operation, (reader.perform operation).1)])
    rw [htaken, Token.sources_append, String.append_assoc, Cursor.after, List.foldl_cons]
    exact (congrArg _ (ih (h.perform operation).2)).trans (h.remaining_perform operation)

/-- **A reader answers like a machine that looks at nothing ahead of time**: whatever is looked at,
consumed, begun and ended in whatever order, each answer is what scanning the source from the bytes
consumed so far, in the innermost mode, would give. And what has been consumed and what has not make
up the source. -/
theorem TokenReader.answers_eq_cursor (source : String) (operations : List ReaderOperation) :
    (ofSource source).answers operations = Cursor.start.answers source operations ∧
      Token.sources (ReaderOperation.taken operations ((ofSource source).answers operations)) ++
        (Cursor.start.after source operations).remaining source = source := by
  have h := Cursor.matches_start source
  refine ⟨h.answers_eq operations, (h.remaining_after operations).trans ?_⟩
  have hscanner : Cursor.start.scanner source = .ofSource source :=
    Cursor.scanner_eq (Scanner.valid_ofSource source) rfl rfl
  rw [Cursor.remaining, hscanner]
  exact String.ofList_toList

end TolerantSyntax
