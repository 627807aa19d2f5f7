import TolerantSyntax.Proofs.Parse.Recovery
import TolerantSyntax.Proofs.Twin.State

/-!
# Tokens and recovery in step

Looking ahead shows two parses in step the same kinds. A token that is consumed has the same text
set aside before it, and the standard strategy gets the same view, so recovery takes the same course
in both.
-/

namespace TolerantSyntax

open Node (PartTwin Twins)

/-! ## Readers -/

namespace TokenReader

/-- Looking ahead fills the buffer up to the token that is asked for. -/
theorem length_buffer_peek (reader : TokenReader) (ahead : Nat) :
    (reader.peek ahead).2.buffer.length = max reader.buffer.length (ahead + 1) := by
  unfold peek
  split
  · next token hb =>
    have hlt := (List.getElem?_eq_some_iff.mp hb).1
    exact (Nat.max_eq_left hlt).symm
  · next hb =>
    have hle := List.getElem?_eq_none_iff.mp hb
    simp only [fill, List.length_append, Scanner.length_take]
    omega

/-- The token that is seen is the one the scanner finds there. -/
theorem IsAt.peek_eq {reader : TokenReader} {scanner : Scanner} (h : reader.IsAt scanner)
    (ahead : Nat) : (reader.peek ahead).1 = scanner.tokenAt ahead := by
  have hpeek := (h.peek ahead).1
  rw [Scanner.getElem?_take_tokenAt, Option.some.injEq] at hpeek
  exact hpeek.symm

/-- What is scanned again has not been looked at. -/
theorem buffer_relex (reader : TokenReader) : reader.relex.buffer = [] := by
  unfold relex
  split
  · rfl
  · next hb => exact hb

/-- After a look at everything the buffer holds all of it. -/
theorem buffer_upcoming (reader : TokenReader) :
    reader.upcoming.2.buffer = reader.upcoming.1 := by
  unfold upcoming
  split <;> rfl

/-- How much that is depends on whether the end of input had been looked at. -/
theorem length_upcoming (reader : TokenReader) :
    reader.upcoming.1.length =
      if (reader.buffer.map (·.kind)).any (· == .eof) then reader.buffer.length
      else reader.buffer.length + reader.scanner.tokens.length := by
  rw [List.any_map, show reader.buffer.any ((· == .eof) ∘ (·.kind)) =
    reader.buffer.any (·.kind == .eof) from rfl]
  unfold upcoming
  split
  · rfl
  · rw [List.length_append, Scanner.tokens]

end TokenReader

/-! ## States -/

namespace Parser.Alike

variable {p q : Parser} {shift : Nat}

theorem kind_eq (h : p.Alike shift q) (ahead : Nat) :
    (p.reader.place.tokenAt ahead).kind = (q.reader.place.tokenAt ahead).kind :=
  h.place.kind_eq ahead

/-- What has been looked at is no part of what is ahead. -/
theorem look {r s : TokenReader} (h : p.Alike shift q) (hr : r.IsAt p.reader.place)
    (hs : s.IsAt q.reader.place) (hrm : r.modes = p.reader.modes) (hsm : s.modes = q.reader.modes)
    (hrc : r.consumed = p.reader.consumed) (hsc : s.consumed = q.reader.consumed)
    (hl : r.buffer.length = s.buffer.length) :
    Alike shift { p with reader := r } { q with reader := s } where
  left := hr.toValid
  right := hs.toValid
  scan := by
    rw [hr.place_eq, hs.place_eq]
    exact h.scan
  modes := by rw [hrm, hsm, h.modes]
  looked := hl
  consumed := by rw [hrc, hsc, h.consumed]
  contexts := h.contexts
  pending := h.pending
  tidy := h.tidy

/-- The kinds of the tokens that a scan finds. -/
theorem kinds_take (h : p.Alike shift q) (count : Nat) :
    (p.reader.place.take count).1.map (·.kind) = (q.reader.place.take count).1.map (·.kind) := by
  have hk := congrArg (List.map (·.kind)) (h.place.take count)
  simpa [Function.comp_def] using hk

/-- So readers that have looked as far see as many tokens up to the end. -/
theorem length_upcoming (h : p.Alike shift q) :
    p.reader.upcoming.1.length = q.reader.upcoming.1.length := by
  have hpa := TokenReader.IsAt.ahead h.left
  have hqa := TokenReader.IsAt.ahead h.right
  have hkinds := h.kinds_take p.reader.buffer.length
  have hscan := h.place.after_take p.reader.buffer.length
  rw [hpa, h.looked, hqa] at hkinds hscan
  rw [TokenReader.length_upcoming, TokenReader.length_upcoming, hkinds, h.looked,
    hscan.length_tokens]

theorem peek (h : p.Alike shift q) (ahead : Nat) :
    Alike shift { p with reader := (p.reader.peek ahead).2 }
      { q with reader := (q.reader.peek ahead).2 } := by
  obtain ⟨-, hr, hrm, hrc⟩ := TokenReader.IsAt.peek h.left ahead
  obtain ⟨-, hs, hsm, hsc⟩ := TokenReader.IsAt.peek h.right ahead
  refine h.look hr hs hrm hsm hrc hsc ?_
  rw [TokenReader.length_buffer_peek, TokenReader.length_buffer_peek, h.looked]

/-- The states behind the next token. -/
theorem consume (h : p.Alike shift q) {pending pending' : List Trivia} {lastEnd lastEnd' : Nat}
    (hp : Trivia.bareAll pending = Trivia.bareAll pending') (hs : Trivia.Tidy pending) :
    Alike shift { p with reader := p.reader.consume.2, pending, lastEnd }
      { q with reader := q.reader.consume.2, pending := pending', lastEnd := lastEnd' } := by
  obtain ⟨-, hr, hrm, hrc⟩ := TokenReader.IsAt.consume h.left
  obtain ⟨-, hs', hsm, hsc⟩ := TokenReader.IsAt.consume h.right
  refine ⟨hr.toValid, hs'.toValid, ?_, by rw [hrm, hsm, h.modes], ?_, ?_, h.contexts, hp, hs⟩
  · rw [hr.place_eq, hs'.place_eq, Scanner.next_inCode, Scanner.next_inCode]
    exact h.scan.next
  · simp only [TokenReader.consume, List.length_tail, TokenReader.length_buffer_peek, h.looked]
  · have hkind : p.reader.place.next.1.kind = q.reader.place.next.1.kind := h.kind_eq 0
    rw [hrc, hsc, hkind, h.consumed]
    split
    · rfl
    · exact Nat.add_right_comm ..

theorem twin_token (h : p.Alike shift q) :
    (Node.leaf p.reader.consume.1).Twin (.leaf q.reader.consume.1) := by
  have hp := (TokenReader.IsAt.consume h.left).1
  have hq := (TokenReader.IsAt.consume h.right).1
  rw [hp, hq]
  refine ⟨congrArg Node.leaf (h.place.token 0), Node.tidy_leaf.mpr ?_⟩
  exact Trivia.tidy_of_isPlain (Scanner.isStep_next p.reader.place).plain

/-- The tokens that are consumed next, with what waits for them. -/
theorem twin_next (h : p.Alike shift q) :
    (Node.leaf (p.reader.consume.1.withLeading p.pending)).Twin
      (.leaf (q.reader.consume.1.withLeading q.pending)) :=
  h.twin_token.withLeading rfl h.pending h.tidy

/-- A token that is set aside waits behind what waited before. -/
theorem discard (h : p.Alike shift q) :
    let discarded (r : Parser) := Node.setAside (.leaf r.reader.consume.1)
      (.invalidToken r.reader.consume.1.kind)
    Alike shift { p with reader := p.reader.consume.2, pending := p.pending ++ [discarded p] }
      { q with reader := q.reader.consume.2, pending := q.pending ++ [discarded q] } := by
  have htoken := h.twin_token
  have hkind : p.reader.consume.1.kind = q.reader.consume.1.kind := htoken.kind_eq
  refine h.consume ?_ (Trivia.tidy_append.mpr ⟨h.tidy, htoken.tidy.setAside _⟩)
  rw [Trivia.bareAll_append, Trivia.bareAll_append, Node.bareAll_setAside, Node.bareAll_setAside,
    h.pending, hkind, (htoken.withDiagnostic _).bare]

/-- Where words are read in another mode, nothing of what is ahead has been looked at. -/
theorem inMode (h : p.Alike shift q) {modes : List LexerMode} :
    Alike shift { p with reader := .relex { p.reader with modes } }
      { q with reader := .relex { q.reader with modes } } := by
  have hr := TokenReader.IsAt.relex h.left modes
  have hs := TokenReader.IsAt.relex h.right modes
  refine ⟨hr.toValid, hs.toValid, ?_, ?_, ?_, ?_, h.contexts, h.pending, h.tidy⟩
  · rw [hr.place_eq, hs.place_eq]
    exact h.scan
  · rw [TokenReader.modes_relex, TokenReader.modes_relex]
  · rw [TokenReader.buffer_relex, TokenReader.buffer_relex]
  · rw [TokenReader.consumed_relex, TokenReader.consumed_relex]
    exact h.consumed

/-- The mode of what comes next is changed in both. -/
theorem startMode (h : p.Alike shift q) (mode : LexerMode) :
    Alike shift { p with reader := p.reader.startMode mode }
      { q with reader := q.reader.startMode mode } := by
  rw [TokenReader.startMode, TokenReader.startMode, h.modes]
  exact h.inMode

theorem endMode (h : p.Alike shift q) :
    Alike shift { p with reader := p.reader.endMode } { q with reader := q.reader.endMode } := by
  rw [TokenReader.endMode, TokenReader.endMode, h.modes]
  exact h.inMode

end Parser.Alike

namespace ParseM

/-! ## Looking ahead -/

theorem inStep_kindAt (ahead : Nat) : InStep Eq (kindAt ahead) (kindAt ahead) := by
  constructor
  intro _ _ p q _ _ _ _ _ _ hp hrun hrun'
  cases hrun
  cases hrun'
  have hleft := congrArg Token.kind (TokenReader.IsAt.peek_eq hp.left ahead)
  have hright := congrArg Token.kind (TokenReader.IsAt.peek_eq hp.right ahead)
  exact ⟨hleft.trans ((hp.kind_eq ahead).trans hright.symm), hp.peek ahead⟩

theorem inStep_nextKind : InStep Eq nextKind nextKind :=
  inStep_kindAt 0

theorem inStep_isNext (kind : Kind) : InStep Eq (isNext kind) (isNext kind) :=
  inStep_nextKind.same fun _ => .pure rfl

theorem inStep_isSecond (kind : Kind) : InStep Eq (isSecond kind) (isSecond kind) :=
  (inStep_kindAt 1).same fun _ => .pure rfl

theorem inStep_get :
    InStep (fun p q => ∃ shift, p.Alike shift q) (get : ParseM Parser) get := by
  constructor
  intro _ _ _ _ _ _ _ _ shift _ hp hrun hrun'
  cases hrun
  cases hrun'
  exact ⟨⟨shift, hp⟩, hp⟩

/-- All kinds up to the end of input are the same. -/
theorem inStep_upcoming : InStep Eq upcoming upcoming := by
  constructor
  intro _ _ p q _ _ _ _ _ _ hp hrun hrun'
  cases hrun
  cases hrun'
  obtain ⟨⟨n, hr⟩, hrAt, hrm, hrc⟩ := TokenReader.IsAt.upcoming hp.left
  obtain ⟨⟨n', hs⟩, hsAt, hsm, hsc⟩ := TokenReader.IsAt.upcoming hp.right
  have hlength := hp.length_upcoming
  have hlooked : p.reader.upcoming.2.buffer.length = q.reader.upcoming.2.buffer.length := by
    rw [TokenReader.buffer_upcoming, TokenReader.buffer_upcoming, hlength]
  refine ⟨?_, hp.look hrAt hsAt hrm hsm hrc hsc hlooked⟩
  have hn : n = n' := by
    rw [hr, hs, Scanner.length_take, Scanner.length_take] at hlength
    exact hlength
  show p.reader.upcoming.1.map (·.kind) = q.reader.upcoming.1.map (·.kind)
  rw [hr, hs, ← hn, hp.kinds_take]

/-! ## Consuming -/

/-- Tokens that are twins as leaves. -/
abbrev TokenTwin (a b : Token) : Prop :=
  (Node.leaf a).Twin (.leaf b)

theorem inStep_consume : InStep TokenTwin consume consume := by
  constructor
  intro _ _ _ _ _ _ _ _ _ _ hp hrun hrun'
  cases hrun
  cases hrun'
  exact ⟨hp.twin_next, hp.consume rfl Trivia.tidy_nil⟩

theorem inStep_consumeLeaf : InStep Node.LeafTwin consumeNode consumeNode :=
  inStep_consume.bind fun _ _ ht => .pure ⟨ht, rfl⟩

/-- A leaf of which it is not asked that it is one. -/
theorem inStep_consumeNode : InStep Node.Twin consumeNode consumeNode :=
  inStep_consumeLeaf.twin

/-- A token whose kind is changed. -/
theorem inStep_consumeAs (kind : Kind) :
    InStep Node.LeafTwin (consumeAs kind) (consumeAs kind) := by
  refine inStep_consume.bind fun a b ht => .pure ⟨⟨?_, Node.tidy_leaf.mpr ?_⟩, rfl⟩
  · have hbare := ht.bare
    simp only [Node.bare, Token.bare_eq, Node.leaf.injEq, Token.mk.injEq] at hbare
    obtain ⟨-, htext, -, hleading, htrailing, hcodes, hmissing⟩ := hbare
    simp only [Node.bare, Token.bare_eq, Token.withKind, htext, hleading, htrailing, hcodes,
      hmissing]
  · exact @Node.tidy_leaf a |>.mp ht.tidy

/-- A part that is read if the next token is of a kind. -/
theorem inStep_ifNext (kind : Kind) {part part' : ParseM Node} (h : InStep Node.Twin part part') :
    InStep PartTwin (ifNext kind part) (ifNext kind part') := by
  exact (inStep_isNext kind).same fun next => .ite (fun _ => h.part) fun _ => .noPart

/-- A token that may be left out is left out in both parses. -/
theorem inStep_optional (kind : Kind) : InStep PartTwin (optional kind) (optional kind) :=
  inStep_ifNext kind inStep_consumeNode

/-- What is set aside waits for the next token in both. -/
theorem inStep_discard : InStep (fun _ _ => True) discard discard := by
  refine (inStep_isNext .eof).same fun atEnd => .ite (fun _ => .pure trivial) fun _ => ?_
  constructor
  intro _ _ p q _ _ _ _ _ _ hp hrun hrun'
  cases hrun
  cases hrun'
  exact ⟨trivial, hp.discard⟩

/-- A token that is put in stands at another offset, which is layout. -/
theorem inStep_missing (kind : Kind) (code : DiagnosticCode) :
    InStep Node.LeafTwin (missing kind code) (missing kind code) := by
  constructor
  intro _ _ _ _ _ _ _ _ _ _ hp hrun hrun'
  cases hrun
  cases hrun'
  exact ⟨Node.LeafTwin.missing kind _ _ code, hp⟩

/-- The mode holds for what is read within it. -/
theorem InStep.withMode {α α' : Type} {R : α → α' → Prop} {m : ParseM α} {m' : ParseM α'}
    (mode : LexerMode) (h : InStep R m m') :
    InStep R (ParseM.withMode mode m) (ParseM.withMode mode m') := by
  constructor
  intro _ _ p q _ _ _ _ _ he hp hrun hrun'
  obtain ⟨r, hma, rfl⟩ := withMode_eq_some_iff.mp hrun
  obtain ⟨r', hma', rfl⟩ := withMode_eq_some_iff.mp hrun'
  obtain ⟨hR, hq⟩ := h.run he (hp.startMode mode) hma hma'
  exact ⟨hR, hq.endMode⟩

/-! ## Recovery -/

variable {rule rule' : Rule} {request request' : Request}

/-- A rule that is entered at the next token. -/
theorem inStep_parse (h : rule.Twin rule') :
    InStep (Node.TwinAs rule.role) (parse rule) (parse rule') :=
  inStep_nextKind.same fun kind => .parseAs h kind

theorem inStep_resume (h : request.Twin request') :
    InStep (Node.TwinAs (Rule.request request).role) (resume request) (resume request') :=
  inStep_parse (.request h)

/-- The strategy gives the same answer, as it does not see layout. -/
theorem inStep_decide (h : request.Twin request') :
    InStep Eq (decide request) (decide request') := by
  refine inStep_nextKind.same fun current => (inStep_kindAt 1).same fun next => ?_
  constructor
  intro env env' p q _ _ _ _ _ he hp hrun hrun'
  cases hrun
  cases hrun'
  refine ⟨?_, hp.left, hp.right, hp.scan, hp.modes, hp.looked, hp.consumed, hp.contexts, hp.pending,
    hp.tidy⟩
  show (env.strategy _ request _).atEnd request current = (env'.strategy _ request' _).atEnd _ _
  rw [he.standard, he.standard', hp.contexts, ← h.atEnd_eq]
  exact congrArg (Decision.atEnd · request current) (h.answer_eq _)

theorem inStep_skip (h : request.Twin request') :
    InStep (fun _ _ => True) (skip request) (skip request') := by
  refine inStep_discard.bind fun _ _ _ => ?_
  refine .loop (R := fun _ _ => True) trivial fun _ _ _ => inStep_nextKind.same fun kind => ?_
  rw [h.accepts_eq]
  refine .ite (fun _ => .pure (.inr trivial)) fun _ => (inStep_decide h).same fun decision => ?_
  refine .ite (fun _ => ?_) fun _ => .pure (.inr trivial)
  exact inStep_discard.bind fun _ _ _ => .pure (.inl trivial)

/-- Two rules go on in the same way. -/
inductive Solution.Twin (role : Node.Role) : Solution → Solution → Prop where
  | keep (kind : Kind) : Twin role (.keep kind) (.keep kind)
  | insert (kind : Kind) {a b : Node} (h : a.LeafTwin b) :
      Twin role (.insert kind a) (.insert kind b)
  | remove {a b : Node} (h : a.TwinAs role b) : Twin role (.remove a) (.remove b)

/-- Both parses recover in the same way, up to twins. -/
theorem inStep_recover (h : request.Twin request') :
    InStep (Solution.Twin (Rule.request request).role) (recover request)
      (recover request') := by
  refine (inStep_decide h).same fun decision => ?_
  cases decision with
  | keep kind => exact .pure (.keep kind)
  | insert kind =>
    rw [h.missingCode_eq]
    exact (inStep_missing kind _).bind fun _ _ ht => .pure (.insert kind ht)
  | remove =>
    refine (inStep_skip h).bind fun _ _ _ => ?_
    exact (inStep_resume h).bind fun _ _ ht => .pure (.remove ht)

/-- A rule that is stuck, where what is requested can play the role of what the rule reads. -/
theorem inStep_recoverAs (hr : rule.Twin rule') (h : request.Twin request')
    (hg : rule.role = (Rule.request request).role)
    {whenMissing whenMissing' : Node → ParseM Node}
    (hm : ∀ a b, a.Twin b →
      InStep (Node.TwinAs rule.role) (whenMissing a) (whenMissing' b)) :
    InStep (Node.TwinAs rule.role) (recoverAs rule request whenMissing)
      (recoverAs rule' request' whenMissing') := by
  refine (inStep_recover h).bind fun s s' hs => ?_
  cases hs with
  | keep kind => exact .parseAs hr kind
  | insert kind ht => exact hm _ _ ht.toTwin
  | remove ht => exact .pure (hg ▸ ht)

/-- A rule that is entered again after recovery, or left with what was put in. -/
theorem inStep_recoverOver (h : request.Twin request') :
    InStep (Node.TwinAs (Rule.request request).role) (recoverOver request)
      (recoverOver request') := by
  refine (inStep_recover h).bind fun s s' hs => ?_
  cases hs with
  | keep kind => exact .parseAs (.request h) kind
  | insert kind _ => exact .parseAs (.request h) kind
  | remove ht => exact .pure ht

theorem inStep_expectAs (kind expected : Kind) (context : Context) :
    InStep Node.Twin (expectAs kind expected context) (expectAs kind expected context) := by
  refine .ite (fun _ => inStep_consumeNode) fun _ => ?_
  refine (inStep_recover (.token context expected)).bind fun s s' hs => ?_
  cases hs with
  | keep kind => exact (inStep_consumeAs expected).twin
  | insert kind ht => exact .pure ht.toTwin
  | remove ht => exact .pure ht.toTwin

/-- A token of the expected kind, or what recovery makes of another. -/
theorem inStep_expect (expected : Kind) (context : Context) :
    InStep Node.Twin (expect expected context) (expect expected context) :=
  inStep_nextKind.same fun kind => inStep_expectAs kind expected context

end ParseM

end TolerantSyntax
