import TolerantSyntax.Grammar.Lookahead
import TolerantSyntax.Proofs.Parse.Meets

/-!
# The steps that rules are made of

Looking ahead, consuming, discarding and putting in, each by what it does to the front of the parse.
-/

namespace TolerantSyntax

namespace Scanner

/-- Behind the end of input there is nothing else. -/
theorem kind_of_mem_take {scanner : Scanner} (h : scanner.next.1.kind = .eof) (count : Nat) :
    ∀ token ∈ (scanner.take count).1, token.kind = .eof := by
  induction count generalizing scanner with
  | zero => simp [take]
  | succ count ih =>
    have hrest := (isStep_next scanner).rest_of_eof h
    have hnext : scanner.next.2.next.1.kind = .eof := by
      rw [(isStep_next scanner.next.2).kind_eq_eof_iff, hrest]
      simp [Trivia.leading_of_piece?_eq_none, Trivia.piece?, Trivia.inLine?, Trivia.lineBreak?]
    intro token hm
    rw [take, List.mem_cons] at hm
    rcases hm with rfl | hm
    · exact h
    · exact ih hnext token hm

end Scanner

namespace Yield

/-- A token as a leaf. -/
def token : Yield Token := ⟨fun t => [some (.leaf t)], fun _ => True⟩

/-- A token put in. -/
def absent : Yield Node :=
  ⟨fun n => [some n], fun n => ∃ kind offset code, n = .missing kind offset code⟩

end Yield

namespace ParseM

variable {start : Kind → Prop} {bound : Nat} {given : Row}

/-! ## Looking ahead -/

/-- A token further ahead that is not the end of input has a token before it. -/
theorem looks_peekAt (ahead : Nat) :
    Looks (peekAt ahead) fun k token =>
      (ahead = 0 → token.kind = k) ∧ (token.kind ≠ .eof → k ≠ .eof) := by
  refine ⟨fun env p hv => ?_, fun hrun => by cases hrun; rfl⟩
  obtain ⟨htoken, hat, hmodes, hconsumed⟩ := TokenReader.IsAt.peek hv ahead
  refine ⟨(p.reader.peek ahead).1, { p with reader := (p.reader.peek ahead).2 }, rfl,
    ⟨hat.toValid, hat.place_eq, rfl, rfl, hconsumed, rfl, hmodes, .of_eq rfl⟩, ?_, ?_⟩
  · rintro rfl
    rw [TokenReader.IsAt.peek_zero hv]
    rfl
  · intro hne heof
    exact hne (Scanner.kind_of_mem_take heof _ _ (List.mem_of_getElem? htoken))

/-- The kind of a token ahead; where it is no end of input, neither is the next one. -/
theorem looks_kindAt (ahead : Nat) :
    Looks (kindAt ahead) fun k kind => (ahead = 0 → kind = k) ∧ (kind ≠ .eof → k ≠ .eof) :=
  (looks_peekAt ahead).bind fun _ => .pure fun _ h => h

theorem looks_nextKind : Looks nextKind fun k kind => k = kind :=
  (looks_kindAt 0).weaken fun _ _ h => (h.1 rfl).symm

/-- The answer is whether the next token is of the kind. -/
theorem looks_isNext (kind : Kind) : Looks (isNext kind) fun k b => b = true ↔ k = kind :=
  looks_nextKind.bind fun _ => .pure fun _ h => by rw [h, beq_iff_eq]

/-- If the second token is of a kind, there is a first one. -/
theorem looks_isSecond (kind : Kind) :
    Looks (isSecond kind) fun k b => b = true → kind ≠ .eof → k ≠ .eof :=
  (looks_kindAt 1).bind fun _ => .pure fun _ h hb hk => h.2 (by rwa [beq_iff_eq.mp hb])

theorem looks_position : Looks position fun _ _ => True :=
  ⟨fun _ p hv => ⟨p.reader.consumed, p, rfl, .refl hv, trivial⟩, fun hrun => by cases hrun; rfl⟩

theorem looks_pure {α : Type} (a : α) : Looks (pure a) fun _ _ => True :=
  .pure fun _ => trivial

theorem looks_get : Looks (get : ParseM Parser) fun _ _ => True :=
  ⟨fun _ p hv => ⟨p, p, rfl, .refl hv, trivial⟩, fun hrun => by cases hrun; rfl⟩

/-- Everything can be looked at without changing what comes next. -/
theorem looks_upcoming : Looks upcoming fun _ _ => True := by
  refine ⟨fun env p hv => ?_, fun hrun => by cases hrun; rfl⟩
  obtain ⟨-, hat, hmodes, hconsumed⟩ := TokenReader.IsAt.upcoming hv
  exact ⟨_, { p with reader := p.reader.upcoming.2 }, rfl,
    ⟨hat.toValid, hat.place_eq, rfl, rfl, hconsumed, rfl, hmodes, .of_eq rfl⟩, trivial⟩

/-- Other steps can follow when the next token is of the kind, and when it is not. -/
theorem Meets.isNext {α : Type} {y : Yield α} {moves : α → Prop} {kind : Kind}
    {whenNext other : ParseM α} {limit : Option Nat}
    (hn : Meets limit (fun k => start k ∧ k = kind) bound given whenNext y moves)
    (ho : Meets limit (fun k => start k ∧ k ≠ kind) bound given other y moves) :
    Meets limit start bound given
      (ParseM.isNext kind >>= fun b => if b = true then whenNext else other) y moves :=
  (looks_isNext kind).ite
    (hn.mono (fun _ h => ⟨h.1, h.2.mp rfl⟩) (fun _ h => h))
    (ho.mono (fun _ h => ⟨h.1, fun hk => Bool.false_ne_true (h.2.mpr hk)⟩) (fun _ h => h))

/-! ## Consuming -/

/-- A token taken off the reader moves the front behind it. -/
theorem front_consume {p : Parser} (hv : p.Valid) (pending : List Trivia) (lastEnd : Nat) :
    Parser.front { p with reader := p.reader.consume.2, pending, lastEnd } =
      p.front.advance p.reader.mode pending lastEnd := by
  have hs := Parser.scanner_front hv
  have hsource := (Scanner.isStep_next p.reader.place).same.1
  obtain ⟨-, hat, -, hconsumed⟩ := TokenReader.IsAt.consume hv
  unfold Front.advance Front.next
  rw [hs]
  simp only [Parser.front, hat.place_eq, hconsumed, hsource]

/-- The reader gives the token that the front of the parse has next. -/
theorem next_front {p : Parser} (hv : p.Valid) :
    p.front.next p.reader.mode = p.reader.consume.1 := by
  rw [Front.next, Parser.scanner_front hv, (TokenReader.IsAt.consume hv).1]

/-- Consuming a token shifts it. -/
theorem exists_consume {p : Parser} (hv : p.Valid) (env : Env) :
    ∃ q, consume env p = some ((p.front.next p.reader.mode).withLeading p.pending, q) ∧
      q.Valid ∧ q.contexts = p.contexts ∧ q.reader.modes = p.reader.modes ∧
      q.front = p.front.shift p.reader.mode ∧ q.consulted = p.consulted := by
  obtain ⟨-, hat, hmodes, -⟩ := TokenReader.IsAt.consume hv
  rw [Front.shift, next_front hv]
  exact ⟨_, rfl, hat.toValid, rfl, hmodes, front_consume hv _ _, rfl⟩

/-- A token keeps its kind if that is what it is changed to. -/
theorem withKind_kind (token : Token) : token.withKind token.kind = token := by
  cases token
  rfl

/-- A token that is consumed stands in the row as a leaf, of any kind that is wanted. -/
theorem leads_consume {p q : Parser} {token : Token} {env : Env} (hv : p.Valid)
    (hrun : consume env p = some (token, q)) (kind : Kind) :
    p.Leads [] q [some (.leaf (token.withKind kind))] := by
  obtain ⟨q', hrun', hv', hcontexts, hmodes, hfront, hasked⟩ := exists_consume hv env
  cases hrun.symm.trans hrun'
  refine ⟨hv', congrArg List.tail hcontexts, hmodes, ?_, .of_eq hasked⟩
  rw [hfront]
  exact Front.Steps.refl.shift p.reader.mode kind

/-- Short of the end of input, less is left. -/
theorem left_consume_lt {p q : Parser} {token : Token} {env : Env} (hv : p.Valid)
    (ha : p.ahead ≠ .eof) (hrun : consume env p = some (token, q)) : q.left < p.left := by
  obtain ⟨q', hrun', -, -, -, hfront, -⟩ := exists_consume hv env
  cases hrun.symm.trans hrun'
  have hlt := p.reader.place.length_rest_next_lt ha
  have hs := Parser.scanner_front hv
  rw [Parser.left, hfront]
  simp only [Front.left, Front.shift, Front.advance, hs]
  exact hlt

/-- A token that is consumed was not asked about. -/
theorem heeds_consume {p q : Parser} {token : Token} {env : Env} (hv : p.Valid)
    (ha : p.ahead ≠ .eof) (hrun : consume env p = some (token, q)) : p.Heeds q := by
  have hl := leads_consume hv hrun token.kind
  obtain ⟨q', hrun', -, -, -, -, hasked⟩ := exists_consume hv env
  cases hrun.symm.trans hrun'
  exact ⟨hl.consumed_lt ha (left_consume_lt hv ha hrun), .of_eq hasked⟩

/-- Consuming always returns, and consumes something if anything is left. -/
theorem meets_consume : Enters start 0 [] consume .token fun _ => ∀ k, start k → k ≠ .eof where
  leads {env before after token} _ hv hrun := by
    have hl := leads_consume hv hrun token.kind
    rw [withKind_kind] at hl
    exact ⟨hl, trivial⟩
  returns _ _ _ _ _ := rfl
  goes _ _ hv hstart hrun hne := left_consume_lt hv (hne _ hstart) hrun
  heeds {_ _ _ token} _ hv hstart hrun _ hne := heeds_consume hv (hne token _ hstart) hrun

theorem reads_consume : Reads 0 [] consume .token :=
  meets_consume.mono (fun _ _ => trivial) fun _ hf => hf.elim

theorem begins_consume : Begins HasNext [] consume .token :=
  meets_consume.mono (fun _ h => h) fun _ _ _ h => h

/-- Consuming can be done anywhere, at the end of input too. -/
theorem reads_consumeNode : Reads 0 [] consumeNode .node :=
  reads_consume.bind fun token _ => Reads.pure (Node.hasToken_leaf token) rfl

theorem begins_consumeNode : Begins HasNext [] consumeNode .node :=
  begins_consume.bind fun token _ => Reads.pure (Node.hasToken_leaf token) rfl

/-- Consuming takes a token where there is one. -/
theorem opens_consumeNode : Opens HasNext 0 [] consumeNode .node :=
  ⟨reads_consumeNode, begins_consumeNode⟩

theorem reads_consumeAs (kind : Kind) : Reads 0 [] (consumeAs kind) .node where
  leads {env before after node} _ hv hrun := by
    obtain ⟨token, q, hc, hp⟩ := bind_eq_some_iff.mp hrun
    cases hp
    exact ⟨leads_consume hv hc kind, Node.hasToken_leaf _⟩
  returns _ _ _ _ _ := rfl
  goes _ _ _ _ _ hmoves := hmoves.elim
  heeds {_ _ _ a} _ _ _ _ _ hmoves := (hmoves a).elim

/-- To say more exactly which the innermost rule is does not move the parse. -/
theorem reads_replaceContext (context : Context) :
    Reads 0 [] (replaceContext context) .nothing where
  leads _ hv hrun := by
    cases hrun
    exact ⟨⟨hv, rfl, rfl, .refl, .of_eq rfl⟩, trivial⟩
  returns _ _ _ _ _ := rfl
  goes _ _ _ _ _ hmoves := hmoves.elim
  heeds {_ _ _ a} _ _ _ _ _ hmoves := (hmoves a).elim

/-! ## Parts that may be absent -/

/-- A step that consumes something where `starts` holds of the next token, and elsewhere has the
result `absent` and only looks. -/
structure Perhaps {α : Type} (starts : Kind → Prop) (absent : α) (m : ParseM α) (yield : Yield α) :
    Prop extends Opens starts 0 [] m yield where
  skips : ∀ {env : Env} {before after : Parser} {a : α}, before.Valid → ¬starts before.ahead →
    m env before = some (a, after) →
    a = absent ∧ Same before after ∧ after.consulted = before.consulted

/-- What follows a part that may be absent is entered behind it, or in its place. -/
theorem Perhaps.bind {α β : Type} {starts : Kind → Prop} {absent : α} {m : ParseM α}
    {f : α → ParseM β} {y : Yield α} {z : Yield β} {moves : β → Prop}
    (hm : Perhaps starts absent m y)
    (hpresent : ∀ a, y.good a → Reads Rule.maxRank (given ++ y.row a) (f a) z)
    (habsent : Enters (fun k => start k ∧ ¬starts k) bound (given ++ y.row absent) (f absent) z
      moves) : Enters start bound given (m >>= f) z moves where
  leads he hv hrun := by
    have h : Enters start Rule.maxRank given (m >>= f) z (fun _ => False) :=
      hm.reads.bind hpresent
    exact h.leads he hv hrun
  returns {env p} he hv hstart _ hr := by
    by_cases hs : starts p.ahead
    · have h : Enters starts bound given (m >>= f) z moves :=
        hm.begins.bind hpresent
      exact h.returns he hv hs hr
    · refine isSome_bind (hm.reads.returns he hv trivial (hr.mono (Nat.le_refl _) (Nat.zero_le _)))
        fun a q hrun => ?_
      obtain ⟨rfl, hsame, -⟩ := hm.skips hv hs hrun
      refine habsent.returns he hsame.valid ?_ (hr.mono (Nat.le_of_eq hsame.left) (Nat.le_refl _))
      rw [hsame.ahead]
      exact ⟨hstart, hs⟩
  goes {env p r b} he hadm hv hstart hrun hmoves := by
    by_cases hs : starts p.ahead
    · have h : Enters starts bound given (m >>= f) z moves :=
        hm.begins.bind hpresent
      exact h.goes he hadm hv hs hrun hmoves
    · obtain ⟨a, q, hq, hrun⟩ := bind_eq_some_iff.mp hrun
      obtain ⟨rfl, hsame, -⟩ := hm.skips hv hs hq
      rw [← hsame.left]
      exact habsent.goes he hadm hsame.valid (by rw [hsame.ahead]; exact ⟨hstart, hs⟩) hrun hmoves
  heeds {env p r b} he hv hstart hrun hzero hmoves := by
    by_cases hs : starts p.ahead
    · have h : Enters starts 0 given (m >>= f) z (fun _ => True) :=
        hm.begins.bind hpresent
      exact h.heeds he hv hs hrun rfl fun _ => trivial
    · obtain ⟨a, q, hq, hrun⟩ := bind_eq_some_iff.mp hrun
      obtain ⟨rfl, hsame, hasked⟩ := hm.skips hv hs hq
      refine hsame.heeds hasked (habsent.heeds he hsame.valid ?_ hrun hzero hmoves)
      rw [hsame.ahead]
      exact ⟨hstart, hs⟩

/-- The result of a part that may be absent, changed. -/
theorem Perhaps.result {α β : Type} {starts : Kind → Prop} {absent : α} {m : ParseM α} {f : α → β}
    {y : Yield α} {z : Yield β} (hm : Perhaps starts absent m y)
    (hf : ∀ a, y.good a → (y.row a).Becomes (z.row (f a)) ∧ z.good (f a)) :
    Perhaps starts (f absent) (m >>= fun a => pure (f a)) z where
  reads := hm.reads.bind fun a ha => Meets.pure (hf a ha).1 (hf a ha).2 id
  begins := hm.begins.bind fun a ha => Meets.pure (hf a ha).1 (hf a ha).2 id
  skips hv hs hrun := by
    obtain ⟨a, q, hq, hrun⟩ := bind_eq_some_iff.mp hrun
    obtain ⟨rfl, hsame⟩ := hm.skips hv hs hq
    cases hrun
    exact ⟨rfl, hsame⟩

/-- A part that is read if its first token comes next. -/
theorem perhaps_isNext {α : Type} {kind : Kind} {m : ParseM α} {absent : α} {y : Yield α}
    (hm : Begins (· = kind) [] m y) (hrow : Row.Becomes [] (y.row absent)) (hgood : y.good absent) :
    Perhaps (· = kind) absent
      (isNext kind >>= fun b => if b = true then m else pure absent) y := by
  have hreads : Reads 0 [] (isNext kind >>= fun b => if b = true then m else pure absent) y :=
    Meets.isNext (hm.weaken fun _ h => h.2) (Meets.pure hrow hgood id)
  refine ⟨⟨hreads, ?_⟩, ?_⟩
  · refine Meets.isNext (hm.weaken fun _ h => h.2) (Meets.unreachable ?_ fun k h => h.2 h.1)
    exact Meets.pure hrow hgood id
  · intro env p q a hv hk hrun
    obtain ⟨b, r, hn, hs, hi, hrun⟩ := (looks_isNext kind).exists_of_bind hv hrun
    rw [if_neg fun hb => hk (hi.mp hb)] at hrun
    cases hrun
    exact ⟨rfl, hs, (looks_isNext kind).silent hn⟩

theorem perhaps_ifNext {kind : Kind} {part : ParseM Node} (h : Begins start [] part .node)
    (hs : start kind) : Perhaps (· = kind) none (ifNext kind part) .slot :=
  perhaps_isNext (h.part.weaken fun _ hk => hk ▸ hs) .gap trivial

theorem perhaps_optional {kind : Kind} (hk : kind ≠ .eof) :
    Perhaps (· = kind) none (ParseM.optional kind) .slot :=
  perhaps_ifNext begins_consumeNode hk

/-- The part goes into its slot, or the slot stays empty. -/
theorem reads_ifNext {kind : Kind} {part : ParseM Node} (h : Begins start [] part .node)
    (hs : start kind) : Reads 0 [] (ifNext kind part) .slot :=
  (perhaps_ifNext h hs).reads

theorem reads_optional {kind : Kind} (hk : kind ≠ .eof) :
    Reads 0 [] (ParseM.optional kind) .slot :=
  (perhaps_optional hk).reads

/-! ## Discarding -/

/-- The end of input is not discarded. -/
theorem discard_of_eof {p : Parser} (hv : p.Valid) (ha : p.ahead = .eof) (env : Env) :
    ∃ q, discard env p = some ((), q) ∧ Same p q := by
  obtain ⟨b, q, hn, hs, hi⟩ := (looks_isNext .eof).look env hv
  have hb : b = true := hi.mpr ha
  refine ⟨q, bind_eq_some_iff.mpr ⟨b, q, hn, ?_⟩, hs⟩
  rw [hb]
  rfl

/-- Any other token is set aside for the next one that is consumed. -/
theorem discard_of_ne_eof {p : Parser} (hv : p.Valid) (ha : p.ahead ≠ .eof) (env : Env) :
    ∃ q, discard env p = some ((), q) ∧ q.Valid ∧ q.contexts = p.contexts ∧
      q.reader.modes = p.reader.modes ∧ q.front = p.front.discard p.reader.mode ∧
      q.consulted = p.consulted := by
  obtain ⟨b, r, hn, hs, hi⟩ := (looks_isNext .eof).look env hv
  have hb : b = false := by
    cases b with
    | true => exact absurd (hi.mp rfl) ha
    | false => rfl
  obtain ⟨-, hat, hmodes, -⟩ := TokenReader.IsAt.consume hs.valid
  have hmode : r.reader.mode = p.reader.mode := by simp only [TokenReader.mode, hs.modes]
  have hasked := (looks_isNext .eof).silent hn
  refine ⟨{ r with
      reader := r.reader.consume.2
      pending := r.pending ++
        [Node.setAside (.leaf r.reader.consume.1) (.invalidToken r.reader.consume.1.kind)] },
    bind_eq_some_iff.mpr ⟨b, r, hn, ?_⟩, hat.toValid, hs.contexts, hmodes.trans hs.modes, ?_,
    hasked⟩
  · rw [hb]
    rfl
  · rw [Front.discard, ← hs.front, ← hmode, next_front hs.valid]
    exact front_consume hs.valid _ _

/-- Discarding a token keeps it waiting, and asks nobody. -/
theorem leads_discard {p q : Parser} {env : Env} (hv : p.Valid) (ha : p.ahead ≠ .eof)
    (hrun : discard env p = some ((), q)) :
    p.Leads [] q [] ∧ q.left < p.left ∧ q.consulted = p.consulted := by
  obtain ⟨q', hrun', hv', hcontexts, hmodes, hfront, hasked⟩ := discard_of_ne_eof hv ha env
  cases hrun.symm.trans hrun'
  refine ⟨⟨hv', congrArg List.tail hcontexts, hmodes, ?_, .of_eq hasked⟩, ?_, hasked⟩
  · rw [hfront]
    refine Front.Steps.refl.discard p.reader.mode ?_
    rwa [next_front hv, (TokenReader.IsAt.consume hv).1]
  · have hlt := p.reader.place.length_rest_next_lt ha
    rw [Parser.left, hfront]
    simp only [Front.left, Front.discard, Front.advance, Parser.scanner_front hv]
    exact hlt

/-- Discarding always returns, and consumes something if anything is left. -/
theorem meets_discard : Enters start 0 [] discard .nothing fun _ => ∀ k, start k → k ≠ .eof where
  leads {env before after _} _ hv hrun := by
    by_cases ha : before.ahead = .eof
    · obtain ⟨q, hrun', hs⟩ := discard_of_eof hv ha env
      cases hrun.symm.trans hrun'
      exact ⟨hs.leads [], trivial⟩
    · exact ⟨(leads_discard hv ha hrun).1, trivial⟩
  returns {env before} _ hv _ _ _ := by
    by_cases ha : before.ahead = .eof
    · obtain ⟨q, hrun, -⟩ := discard_of_eof hv ha env
      rw [hrun]
      rfl
    · obtain ⟨q, hrun, -⟩ := discard_of_ne_eof hv ha env
      rw [hrun]
      rfl
  goes _ _ hv hstart hrun hne := (leads_discard hv (hne _ hstart) hrun).2.1
  heeds {_ _ _ a} _ hv hstart hrun _ hne := by
    obtain ⟨hl, hlt, hasked⟩ := leads_discard hv (hne a _ hstart) hrun
    exact ⟨hl.consumed_lt (hne a _ hstart) hlt, .of_eq hasked⟩

theorem reads_discard : Reads 0 [] discard .nothing :=
  meets_discard.mono (fun _ _ => trivial) fun _ hf => hf.elim

theorem begins_discard : Begins HasNext [] discard .nothing :=
  meets_discard.mono (fun _ h => h) fun _ _ _ h => h

/-! ## Putting in -/

/-- A token that is put in stands where the last one ended. -/
theorem leads_missing {p : Parser} (hv : p.Valid) (kind : Kind) (code : DiagnosticCode) :
    p.Leads [] p [some (.missing kind p.lastEnd code)] :=
  ⟨hv, rfl, rfl, Front.Steps.refl.insert kind code, .of_eq rfl⟩

end ParseM

end TolerantSyntax
