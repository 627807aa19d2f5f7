import TolerantSyntax.Lexer.Reader
import TolerantSyntax.Proofs.Lexer.Scan

/-!
# The reader is a scanner that looks ahead

What a reader has buffered follows from where it stands: the scanner at the first token that has not
been consumed, in the mode in force. Looking ahead does not move it, consuming moves it by one step,
and a mode that begins or ends changes the mode alone, however much had been buffered.
-/

namespace TolerantSyntax

namespace Scanner

theorem same_take (scanner : Scanner) (count : Nat) :
    (scanner.take count).2.source = scanner.source ∧
      (scanner.take count).2.mode = scanner.mode := by
  induction count generalizing scanner with
  | zero => exact ⟨rfl, rfl⟩
  | succ count ih =>
    obtain ⟨hsource, hmode⟩ := (isStep_next scanner).same
    obtain ⟨hs, hm⟩ := ih scanner.next.2
    exact ⟨hs.trans hsource, hm.trans hmode⟩

/-- A scanner that is reset reads what any other of the same source does there. -/
theorem reset_congr {first second : Scanner} (h : first.source = second.source) (offset : Nat)
    (mode : LexerMode) : first.reset offset mode = second.reset offset mode := by
  simp only [reset, h]

theorem getElem?_take (scanner : Scanner) {index count : Nat} (h : index < count) :
    (scanner.take count).1[index]? = (scanner.take (index + 1)).1[index]? := by
  obtain ⟨more, rfl⟩ := Nat.exists_eq_add_of_le h
  rw [take_add, List.getElem?_append_left (by simp)]

end Scanner

namespace TokenReader

/-- The token looked at first is the first one in the buffer. -/
theorem exists_buffer_peek_zero (reader : TokenReader) :
    ∃ rest, (reader.peek 0).2.buffer = (reader.peek 0).1 :: rest := by
  unfold peek
  split
  · next token hb =>
    cases hbuffer : reader.buffer with
    | nil => simp [hbuffer] at hb
    | cons first rest =>
      rw [hbuffer, List.getElem?_cons_zero, Option.some.injEq] at hb
      exact ⟨rest, by rw [hb]⟩
  · have hlt := reader.le_length_buffer_fill (0 + 1)
    exact ⟨_, (List.getElem_cons_drop hlt).symm⟩

/-- The end of input is upcoming. -/
theorem eof_mem_upcoming (reader : TokenReader) :
    ∃ token ∈ reader.upcoming.1, token.kind = .eof := by
  unfold TokenReader.upcoming
  split
  · next h =>
    obtain ⟨token, hmem, hkind⟩ := List.any_eq_true.mp h
    exact ⟨token, hmem, beq_iff_eq.mp hkind⟩
  · obtain ⟨init, last, heq, hlast, -⟩ := Scanner.exists_tokens_eq_append reader.scanner
    refine ⟨last, List.mem_append_right _ ?_, hlast⟩
    show last ∈ reader.scanner.tokens
    rw [heq]
    exact List.mem_append_right _ (List.mem_singleton_self last)

/-! ## Where a reader stands -/

/-- The scanner at the first token that has not been consumed. -/
def place (reader : TokenReader) : Scanner :=
  match reader.buffer with
  | [] => reader.scanner
  | first :: _ => reader.scanner.reset first.fullStart reader.mode

/-- The reader stands at a place of its source: it has buffered the tokens from there on. -/
structure IsAt (reader : TokenReader) (scanner : Scanner) : Prop where
  valid : scanner.Valid
  mode : scanner.mode = reader.mode
  ahead : scanner.take reader.buffer.length = (reader.buffer, reader.scanner)

/-- The reader stands somewhere. -/
def Valid (reader : TokenReader) : Prop :=
  reader.IsAt reader.place

namespace IsAt

variable {reader : TokenReader} {scanner : Scanner}

/-- A reader stands in one place only. -/
theorem place_eq (h : reader.IsAt scanner) : reader.place = scanner := by
  have hahead := h.ahead
  unfold place
  split
  · next hb =>
    rw [hb] at hahead
    exact (congrArg Prod.snd hahead).symm
  · next first rest hb =>
    have hsource := (Scanner.same_take scanner reader.buffer.length).1
    rw [hahead] at hsource
    rw [hb, List.length_cons, Scanner.take] at hahead
    have hfirst : scanner.next.1 = first := (List.cons.inj (congrArg Prod.fst hahead)).1
    rw [Scanner.reset_congr hsource, ← hfirst, Scanner.fullStart_next, h.valid.reset_eq, ← h.mode]

theorem toValid (h : reader.IsAt scanner) : reader.Valid := by
  rw [Valid, h.place_eq]
  exact h

/-! ## Looking ahead -/

theorem fill (h : reader.IsAt scanner) (count : Nat) : (reader.fill count).IsAt scanner := by
  refine ⟨h.valid, h.mode, ?_⟩
  simp only [TokenReader.fill, List.length_append, Scanner.length_take]
  rw [Scanner.take_add, h.ahead]

/-- Looking ahead shows the tokens that a scan from the place would find, and does not move. -/
theorem peek (h : reader.IsAt scanner) (ahead : Nat) :
    (scanner.take (ahead + 1)).1[ahead]? = some (reader.peek ahead).1 ∧
      (reader.peek ahead).2.IsAt scanner ∧ (reader.peek ahead).2.modes = reader.modes ∧
      (reader.peek ahead).2.consumed = reader.consumed := by
  unfold TokenReader.peek
  split
  · next token hb =>
    refine ⟨?_, h, rfl, rfl⟩
    have hlt := (List.getElem?_eq_some_iff.mp hb).1
    rw [← Scanner.getElem?_take scanner hlt, h.ahead, hb]
  · refine ⟨?_, h.fill (ahead + 1), rfl, rfl⟩
    have hlt := reader.le_length_buffer_fill (ahead + 1)
    rw [← Scanner.getElem?_take scanner hlt, (h.fill (ahead + 1)).ahead, List.getElem?_eq_getElem]

theorem peek_zero (h : reader.IsAt scanner) : (reader.peek 0).1 = scanner.next.1 := by
  have hp := (h.peek 0).1
  simpa [Scanner.take] using hp.symm

/-- All that is upcoming is what a scan from the place finds, as far as it goes. -/
theorem upcoming (h : reader.IsAt scanner) :
    (∃ count, reader.upcoming.1 = (scanner.take count).1) ∧ reader.upcoming.2.IsAt scanner ∧
      reader.upcoming.2.modes = reader.modes ∧ reader.upcoming.2.consumed = reader.consumed := by
  unfold TokenReader.upcoming
  split
  · exact ⟨⟨reader.buffer.length, by rw [h.ahead]⟩, h, rfl, rfl⟩
  · have htake : scanner.take (reader.buffer ++ reader.scanner.drain.1).length =
        (reader.buffer ++ reader.scanner.drain.1, reader.scanner.drain.2) := by
      rw [List.length_append, Scanner.take_add, h.ahead]
      simp only [← Scanner.take_length_tokens reader.scanner, Scanner.length_take]
    exact ⟨⟨_, (congrArg Prod.fst htake).symm⟩, ⟨h.valid, h.mode, htake⟩, rfl, rfl⟩

/-! ## Moving -/

/-- Consuming is a step of the scanner. -/
theorem consume (h : reader.IsAt scanner) :
    reader.consume.1 = scanner.next.1 ∧ reader.consume.2.IsAt scanner.next.2 ∧
      reader.consume.2.modes = reader.modes ∧
      reader.consume.2.consumed =
        if scanner.next.1.kind = .eof then reader.consumed else reader.consumed + 1 := by
  obtain ⟨-, hat, hmodes, hconsumed⟩ := h.peek 0
  have hfirst := h.peek_zero
  refine ⟨hfirst, ⟨h.valid.next, ?_, ?_⟩, hmodes, ?_⟩
  · rw [(Scanner.isStep_next scanner).same.2, hat.mode]
    rfl
  · obtain ⟨rest, hb⟩ := exists_buffer_peek_zero reader
    have hahead := hat.ahead
    rw [hb, List.length_cons, Scanner.take, Prod.mk.injEq, List.cons.injEq] at hahead
    simp only [TokenReader.consume, hb, List.tail_cons]
    exact Prod.ext hahead.1.2 hahead.2
  · simp only [TokenReader.consume, hfirst, hconsumed]

/-! ## Modes -/

theorem relex (h : reader.IsAt scanner) (modes : List LexerMode) :
    (TokenReader.relex { reader with modes }).IsAt
      { scanner with mode := modes.head?.getD .code } := by
  have hplace := h.place_eq
  have hreset := h.valid.reset_eq (modes.head?.getD .code)
  have hsource := (Scanner.same_take scanner reader.buffer.length).1
  rw [h.ahead] at hsource
  unfold place at hplace
  unfold TokenReader.relex
  split
  · next first rest hb =>
    have hahead := h.ahead
    have hb' : reader.buffer = first :: rest := hb
    rw [hb', List.length_cons, Scanner.take, Prod.mk.injEq, List.cons.injEq] at hahead
    have hfull : first.fullStart = scanner.offset := by
      rw [← hahead.1.1, Scanner.fullStart_next]
    refine ⟨h.valid, rfl, ?_⟩
    show ([], _) = ([], reader.scanner.reset first.fullStart (modes.head?.getD .code))
    rw [hfull, Scanner.reset_congr hsource, hreset]
  · next hb =>
    have hb' : reader.buffer = [] := hb
    rw [hb'] at hplace
    have hscanner : reader.scanner = scanner := hplace
    refine ⟨h.valid, rfl, ?_⟩
    simp only [hb', hscanner, hreset, TokenReader.mode]
    rfl

/-- A mode that begins leaves the reader where it is. -/
theorem startMode (h : reader.IsAt scanner) (mode : LexerMode) :
    (reader.startMode mode).IsAt { scanner with mode } :=
  h.relex (mode :: reader.modes)

/-- A mode that ends leaves the reader where it is. -/
theorem endMode (h : reader.IsAt scanner) :
    reader.endMode.IsAt { scanner with mode := reader.modes.tail.head?.getD .code } :=
  h.relex reader.modes.tail

end IsAt

@[simp] theorem modes_relex (reader : TokenReader) : reader.relex.modes = reader.modes := by
  unfold relex
  split <;> rfl

@[simp] theorem consumed_relex (reader : TokenReader) :
    reader.relex.consumed = reader.consumed := by
  unfold relex
  split <;> rfl

theorem modes_startMode (reader : TokenReader) (mode : LexerMode) :
    (reader.startMode mode).modes = mode :: reader.modes :=
  modes_relex _

theorem modes_endMode (reader : TokenReader) : reader.endMode.modes = reader.modes.tail :=
  modes_relex _

theorem isAt_ofSource (source : String) : (ofSource source).IsAt (.ofSource source) :=
  ⟨Scanner.valid_ofSource source, rfl, rfl⟩

end TokenReader

end TolerantSyntax
