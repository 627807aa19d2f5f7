import TolerantSyntax.Parse
import TolerantSyntax.Proofs.Resume

/-!
# Recovery is conservative

With the standard strategy, recovery changes as little as it can. To keep a token for another one or
to put one in leaves the parse where it stands. To discard goes on only as long as every token would
be discarded by itself: up to the first one at which the rule can continue, or at which the strategy
would decide otherwise. No token is lost that a rule in progress waits for, nor one that the rule
could take for a name or for another item of its list.
-/

namespace TolerantSyntax

/-! ## What the strategy discards -/

/-- A token of this kind is of no use to the request, nor to a rule in progress. -/
structure Expendable (request : Request) (contexts : ContextStack) (kind : Kind) : Prop where
  notEnd : kind ≠ .eof
  unowned : ∀ context ∈ contexts, context.owns kind = false
  /-- It is not reserved in queries only, where a name could stand. -/
  noName : kind.isContextualKeyword = true → request.accepts .identifier = false
  /-- It does not begin another item of the list that the request would end. -/
  noItem : ∀ context close item, request = .listEnd context close item → item.starts kind = false

namespace Strategy

variable {request : Request} {view : View}

/-- The standard strategy discards what is expendable, and nothing else. -/
theorem answer_eq_remove_iff :
    answer request view = .remove ↔ Expendable request view.contexts view.current := by
  have howned : view.ownedByEnclosing = false ↔
      ∀ context ∈ view.contexts, context.owns view.current = false := by
    simp [View.ownedByEnclosing, ContextStack.anyOwns]
  constructor
  · intro h
    have hunowned := ownedByEnclosing_of_answer_eq_remove h
    unfold answer at h
    split at h
    · cases h
    · next hend =>
      split at h
      · cases h
      · next hname =>
        split at h
        · cases h
        · next hitem =>
          refine ⟨hend, howned.mp hunowned, fun hk => ?_, ?_⟩
          · simpa [hk] using hname
          · rintro context close item rfl
            simpa [startsForgottenItem, hunowned] using hitem
  · intro h
    have hname : ¬(view.current.isContextualKeyword && request.accepts .identifier) = true := by
      rw [Bool.and_eq_true]
      rintro ⟨hk, ha⟩
      exact Bool.false_ne_true ((h.noName hk).symm.trans ha)
    have hitem : ¬startsForgottenItem request view = true := by
      unfold startsForgottenItem
      split
      · next context close item =>
        rw [h.noItem context close item rfl, Bool.false_and]
        exact Bool.false_ne_true
      · exact Bool.false_ne_true
    rw [answer, if_neg h.notEnd, if_neg hname, if_neg hitem, howned.mpr h.unowned]
    rfl

/-- The standard answer heeds the end of input by itself. -/
theorem atEnd_answer (request : Request) (view : View) :
    (answer request view).atEnd request view.current = answer request view :=
  if_neg fun ⟨hremove, hend⟩ => (answer_eq_remove_iff.mp hremove).notEnd hend

end Strategy

/-! ## Setting tokens aside -/

/-- A step of the front is a step of its scanner. -/
theorem Front.scanner_advance (front : Front) (mode : LexerMode) (pending : List Trivia)
    (lastEnd : Nat) :
    (front.advance mode pending lastEnd).scanner mode = (front.scanner mode).next.2 := by
  obtain ⟨hsource, hmode⟩ := (Scanner.isStep_next (front.scanner mode)).same
  rw [scanner, Scanner.mk.injEq]
  exact ⟨hsource.symm, rfl, rfl, hmode.symm⟩

theorem Scanner.tokenAt_add (scanner : Scanner) (count ahead : Nat) :
    scanner.tokenAt (count + ahead) = (scanner.take count).2.tokenAt ahead := by
  induction count generalizing scanner with
  | zero => rw [Nat.zero_add, take]
  | succ count ih => rw [Nat.succ_add, tokenAt, take, ih]

/-- A token as text that is set aside because it does not fit. -/
def Token.invalid (token : Token) : Trivia :=
  Node.setAside (.leaf token) (.invalidToken token.kind)

namespace Parser

/-- The token so many tokens behind the next one. -/
def tokenAt (parser : Parser) (ahead : Nat) : Token :=
  parser.reader.place.tokenAt ahead

/-- What a strategy would see if so many tokens were discarded. -/
def viewAt (parser : Parser) (ahead : Nat) : View where
  current := (parser.tokenAt ahead).kind
  next := (parser.tokenAt (ahead + 1)).kind
  contexts := parser.contexts

/-- So many tokens have been set aside, in their order, and now wait for the next one that is
consumed. All else is as it was. -/
structure SetsAside (count : Nat) (before after : Parser) : Prop where
  valid : after.Valid
  place : after.reader.place = (before.reader.place.take count).2
  consumed : after.reader.consumed = before.reader.consumed + count
  pending : after.pending =
    before.pending ++ (before.reader.place.take count).1.map Token.invalid
  contexts : after.contexts = before.contexts
  modes : after.reader.modes = before.reader.modes
  lastEnd : after.lastEnd = before.lastEnd

/-- A token behind the first one is discarded too: the request cannot go on at it, and the standard
strategy has no better answer. -/
structure GoesOn (request : Request) (parser : Parser) (ahead : Nat) : Prop where
  notEnd : (parser.tokenAt ahead).kind ≠ .eof
  refused : request.accepts (parser.tokenAt ahead).kind = false
  removed : Strategy.answer request (parser.viewAt ahead) = .remove

/-- So many tokens make the longest run that is discarded. -/
structure IsLongestRun (request : Request) (parser : Parser) (count : Nat) : Prop where
  pos : 0 < count
  first : Strategy.answer request (parser.viewAt 0) = .remove
  goesOn : ∀ ahead, 0 < ahead → ahead < count → GoesOn request parser ahead
  stops : ¬GoesOn request parser count

/-- No token that is discarded was of any use. -/
theorem IsLongestRun.expendable {request : Request} {parser : Parser} {count ahead : Nat}
    (h : IsLongestRun request parser count) (hlt : ahead < count) :
    Expendable request parser.contexts (parser.tokenAt ahead).kind := by
  have hanswer : Strategy.answer request (parser.viewAt ahead) = .remove := by
    rcases Nat.eq_zero_or_pos ahead with rfl | hpos
    · exact h.first
    · exact (h.goesOn ahead hpos hlt).removed
  exact Strategy.answer_eq_remove_iff.mp hanswer

namespace SetsAside

variable {p q r : Parser} {m n : Nat}

theorem tokenAt_eq (h : SetsAside m p q) (ahead : Nat) :
    q.tokenAt ahead = p.tokenAt (m + ahead) := by
  rw [tokenAt, h.place, tokenAt, Scanner.tokenAt_add]

theorem viewAt_eq (h : SetsAside m p q) (ahead : Nat) : q.viewAt ahead = p.viewAt (m + ahead) := by
  simp only [viewAt, h.tokenAt_eq, h.contexts, Nat.add_assoc]

theorem trans (h : SetsAside m p q) (h' : SetsAside n q r) : SetsAside (m + n) p r where
  valid := h'.valid
  place := by rw [h'.place, h.place, Scanner.take_add]
  consumed := by rw [h'.consumed, h.consumed, Nat.add_assoc]
  pending := by
    rw [h'.pending, h.pending, h.place, Scanner.take_add, List.map_append, List.append_assoc]
  contexts := h'.contexts.trans h.contexts
  modes := h'.modes.trans h.modes
  lastEnd := h'.lastEnd.trans h.lastEnd

theorem goesOn_iff {request : Request} (h : SetsAside m p q) (ahead : Nat) :
    GoesOn request q ahead ↔ GoesOn request p (m + ahead) := by
  constructor
  · rintro ⟨hend, hrefused, hremoved⟩
    rw [h.tokenAt_eq] at hend hrefused
    exact ⟨hend, hrefused, h.viewAt_eq ahead ▸ hremoved⟩
  · rintro ⟨hend, hrefused, hremoved⟩
    rw [← h.tokenAt_eq] at hend hrefused
    exact ⟨hend, hrefused, (h.viewAt_eq ahead).symm ▸ hremoved⟩

/-- Where nothing has been set aside, the same run is ahead. -/
theorem isLongestRun_iff {request : Request} (h : SetsAside 0 p q) :
    IsLongestRun request q n ↔ IsLongestRun request p n := by
  have hview : q.viewAt 0 = p.viewAt 0 := h.viewAt_eq 0
  have hiff : ∀ ahead, GoesOn request q ahead ↔ GoesOn request p ahead := fun ahead => by
    rw [h.goesOn_iff, Nat.zero_add]
  constructor
  · rintro ⟨hpos, hfirst, hmore, hstop⟩
    exact ⟨hpos, hview ▸ hfirst, fun ahead h₀ hlt => (hiff ahead).mp (hmore ahead h₀ hlt),
      mt (hiff n).mpr hstop⟩
  · rintro ⟨hpos, hfirst, hmore, hstop⟩
    exact ⟨hpos, hview ▸ hfirst, fun ahead h₀ hlt => (hiff ahead).mpr (hmore ahead h₀ hlt),
      mt (hiff n).mp hstop⟩

end SetsAside

end TolerantSyntax.Parser

namespace TolerantSyntax.ParseM

variable {env : Env} {p q : Parser}

/-! ## Steps -/

/-- A step that only looks sets nothing aside. -/
theorem Same.setsAside (h : Same p q) : p.SetsAside 0 q :=
  ⟨h.valid, h.place, h.consumed, h.pending.trans (List.append_nil _).symm, h.contexts, h.modes,
    h.lastEnd⟩

theorem setsAside_discard (hv : p.Valid) (hne : p.ahead ≠ .eof) (env : Env) :
    ∃ q, discard env p = some ((), q) ∧ p.SetsAside 1 q := by
  obtain ⟨q, hrun, hv', hcontexts, hmodes, hfront, -⟩ := discard_of_ne_eof hv hne env
  have hmode : q.reader.mode = p.reader.mode := by simp only [TokenReader.mode, hmodes]
  have htoken : p.front.next p.reader.mode = p.tokenAt 0 := by
    rw [Front.next, Parser.scanner_front hv]
    rfl
  refine ⟨q, hrun, hv', ?_, ?_, ?_, hcontexts, hmodes, congrArg Front.lastEnd hfront⟩
  · rw [← Parser.scanner_front hv', hfront, hmode, Front.discard, Front.scanner_advance,
      Parser.scanner_front hv]
    rfl
  · refine (congrArg Front.consumed hfront).trans (if_neg ?_)
    rwa [htoken]
  · refine (congrArg Front.pending hfront).trans ?_
    rw [Front.discard, htoken]
    rfl

/-- The standard strategy is asked about what is ahead, and its answer is taken. -/
theorem decide_standard (hs : env.strategy = .standard) (hv : p.Valid) (request : Request) :
    ∃ q, decide request env p = some (Strategy.answer request (p.viewAt 0), q) ∧
      p.SetsAside 0 q := by
  obtain ⟨current, p₁, h₁, hsame₁, rfl⟩ := looks_nextKind.look env hv
  obtain ⟨next, p₂, h₂, hsame₂, -, rfl⟩ := sees_kindAt_one.look env hsame₁.valid
  have hsame := hsame₁.trans hsame₂
  let view : View := { current := p.ahead, next := p₁.second, contexts := p₂.contexts }
  have hview : view = p.viewAt 0 := by
    simp only [view, hsame₁.second, hsame.contexts]
    rfl
  let decision := env.strategy p₂.consulted.length request view
  have hanswer : decision.atEnd request p.ahead = Strategy.answer request (p.viewAt 0) := by
    simp only [decision, hs, hview]
    exact Strategy.atEnd_answer request (p.viewAt 0)
  have hstill := hsame.setsAside
  refine ⟨{ p₂ with
      consulted := { request, view, decision, position := p₂.reader.consumed } :: p₂.consulted },
    ?_, ⟨hstill.valid, hstill.place, hstill.consumed, hstill.pending, hstill.contexts,
      hstill.modes, hstill.lastEnd⟩⟩
  rw [← hanswer]
  exact bind_eq_some_iff.mpr ⟨_, p₁, h₁, bind_eq_some_iff.mpr ⟨_, p₂, h₂, rfl⟩⟩

/-! ## The run of tokens that are discarded -/

/-- A turn of the loop that discards tokens. -/
def skipTurn (request : Request) : ParseM (Unit ⊕ Unit) := do
  let kind ← nextKind
  if kind == .eof || request.accepts kind then pure (.inr ())
  else if (← decide request) == .remove then
    discard
    pure (.inl ())
  else pure (.inr ())

theorem skip_eq (request : Request) :
    skip request = discard >>= fun _ => loop () fun _ => skipTurn request :=
  rfl

/-- A turn discards the next token if the run goes on with it, and else it is the last turn. -/
theorem skipTurn_standard (hs : env.strategy = .standard) (hv : p.Valid) (request : Request) :
    ∃ turn q, skipTurn request env p = some (turn, q) ∧
      (turn = .inl () ∧ p.GoesOn request 0 ∧ p.SetsAside 1 q ∨
        turn = .inr () ∧ ¬p.GoesOn request 0 ∧ p.SetsAside 0 q) := by
  obtain ⟨kind, p₁, hnext, hsame, rfl⟩ := looks_nextKind.look env hv
  have hkind : (p.tokenAt 0).kind = p.ahead := rfl
  have hstill := hsame.setsAside
  rw [skipTurn, bind_of_eq_some hnext]
  split
  · next hstop =>
    refine ⟨_, _, rfl, .inr ⟨rfl, fun hgo => ?_, hstill⟩⟩
    rcases Bool.or_eq_true_iff.mp hstop with hend | haccepts
    · exact hgo.notEnd (beq_iff_eq.mp hend)
    · exact Bool.false_ne_true (hgo.refused.symm.trans haccepts)
  · next hon =>
    rw [Bool.not_eq_true, Bool.or_eq_false_iff, beq_eq_false_iff_ne] at hon
    obtain ⟨p₂, hdecide, hasked⟩ := decide_standard hs hstill.valid request
    have hbefore := hstill.trans hasked
    rw [hstill.viewAt_eq] at hdecide
    rw [bind_of_eq_some hdecide]
    split
    · next hremove =>
      have hne : p₂.ahead ≠ .eof := by
        have htoken := hbefore.tokenAt_eq 0
        rw [show p₂.ahead = (p₂.tokenAt 0).kind from rfl, htoken]
        exact hon.1
      obtain ⟨q, hdiscard, haside⟩ := setsAside_discard hbefore.valid hne env
      exact ⟨_, q, bind_of_eq_some hdiscard,
        .inl ⟨rfl, ⟨hon.1, hon.2, beq_iff_eq.mp hremove⟩, hbefore.trans haside⟩⟩
    · next hother =>
      exact ⟨_, p₂, rfl, .inr ⟨rfl, fun hgo => hother (beq_iff_eq.mpr hgo.removed), hbefore⟩⟩

/-- The loop discards tokens up to the first one that the run does not go on with. The induction is
on the fuel, and each turn but the last sets one token aside. -/
theorem repeatUpTo_skipTurn (hs : env.strategy = .standard) (hv : p.Valid) (request : Request)
    {fuel : Nat} {u : Unit}
    (hrun : repeatUpTo (fun _ => skipTurn request) fuel () env p = some (u, q)) :
    ∃ count, (∀ ahead < count, p.GoesOn request ahead) ∧ ¬p.GoesOn request count ∧
      p.SetsAside count q := by
  induction fuel generalizing p with
  | zero => cases hrun
  | succ fuel ih =>
    obtain ⟨turn, p₁, hturn, hcases⟩ := skipTurn_standard hs hv request
    rw [repeatUpTo, bind_of_eq_some hturn] at hrun
    obtain ⟨rfl, hgo, haside⟩ | ⟨rfl, hstop, hstill⟩ := hcases
    · obtain ⟨count, hmore, hstop, hrest⟩ := ih haside.valid hrun
      refine ⟨1 + count, fun ahead hlt => ?_, ?_, haside.trans hrest⟩
      · cases ahead with
        | zero => exact hgo
        | succ ahead =>
          rw [Nat.add_comm ahead 1, ← haside.goesOn_iff]
          exact hmore ahead (by omega)
      · rwa [← haside.goesOn_iff]
    · cases hrun
      exact ⟨0, fun _ hlt => absurd hlt (Nat.not_lt_zero _), hstop, hstill⟩

/-- What is discarded is the longest run, once the strategy has decided to discard at all. -/
theorem isLongestRun_of_skip (hs : env.strategy = .standard) (hv : p.Valid) {request : Request}
    (hfirst : Strategy.answer request (p.viewAt 0) = .remove) {u : Unit}
    (hrun : skip request env p = some (u, q)) :
    ∃ count, p.IsLongestRun request count ∧ p.SetsAside count q := by
  have hne : p.ahead ≠ .eof := (Strategy.answer_eq_remove_iff.mp hfirst).notEnd
  obtain ⟨p₁, hdiscard, haside⟩ := setsAside_discard hv hne env
  rw [skip_eq, bind_of_eq_some hdiscard] at hrun
  obtain ⟨count, hmore, hstop, hrest⟩ := repeatUpTo_skipTurn hs haside.valid request hrun
  refine ⟨1 + count, ⟨by omega, hfirst, fun ahead hpos hlt => ?_, ?_⟩, haside.trans hrest⟩
  · obtain ⟨ahead, rfl⟩ := Nat.exists_eq_add_of_le hpos
    rw [show Nat.succ 0 + ahead = 1 + ahead by omega, ← haside.goesOn_iff]
    exact hmore ahead (by omega)
  · rwa [← haside.goesOn_iff]

end TolerantSyntax.ParseM

/-! ## Recovery -/

namespace TolerantSyntax

/-- Recovery goes on from a state in the most conservative way: either nothing has been read, or the
longest run of expendable tokens has been set aside and the request resumed once, behind it. -/
inductive Conservative (env : Env) (request : Request) (before : Parser) :
    ParseM.Solution → Parser → Prop where
  | keep {kind : Kind} {after : Parser}
      (hanswer : Strategy.answer request (before.viewAt 0) = .keep kind)
      (hstill : before.SetsAside 0 after) : Conservative env request before (.keep kind) after
  | insert {kind : Kind} {after : Parser}
      (hanswer : Strategy.answer request (before.viewAt 0) = .insert kind)
      (hstill : before.SetsAside 0 after) :
      Conservative env request before
        (.insert kind (.missing kind before.lastEnd (request.missingCode kind))) after
  | remove {count : Nat} {behind after : Parser} {node : Node}
      (hrun : before.IsLongestRun request count)
      (hexpendable : ∀ ahead < count,
        Expendable request before.contexts (before.tokenAt ahead).kind)
      (haside : before.SetsAside count behind)
      (hresume : ParseM.resume request env behind = some (node, after)) :
      Conservative env request before (.remove node) after

variable {parser : Parser}

theorem Conservative.of_recover {env : Env} (hs : env.strategy = .standard) (hv : parser.Valid)
    {request : Request} {solution : ParseM.Solution} {after : Parser}
    (hrun : ParseM.recover request env parser = some (solution, after)) :
    Conservative env request parser solution after := by
  obtain ⟨p, hdecide, hstill⟩ := ParseM.decide_standard hs hv request
  rw [ParseM.recover, ParseM.bind_of_eq_some hdecide] at hrun
  cases hanswer : Strategy.answer request (parser.viewAt 0) with
  | keep kind =>
    rw [hanswer] at hrun
    cases hrun
    exact .keep hanswer hstill
  | insert kind =>
    rw [hanswer] at hrun
    cases hrun
    rw [hstill.lastEnd]
    exact .insert hanswer hstill
  | remove =>
    rw [hanswer] at hrun
    obtain ⟨_, behind, hskip, hrest⟩ := ParseM.bind_eq_some_iff.mp hrun
    obtain ⟨node, _, hresume, hpure⟩ := ParseM.bind_eq_some_iff.mp hrest
    cases hpure
    obtain ⟨count, hlongest, haside⟩ := ParseM.isLongestRun_of_skip hs hstill.valid
      ((congrArg _ (hstill.viewAt_eq 0)).trans hanswer) hskip
    have hlongest : parser.IsLongestRun request count := hstill.isLongestRun_iff.mp hlongest
    exact .remove hlongest (fun _ => hlongest.expendable) (Nat.zero_add count ▸ hstill.trans haside)
      hresume

/-- **Recovery with the standard strategy is conservative**, wherever a parse stands and whatever
rule is stuck there. It comes to an end, for any rule with the pieces that it expects. -/
theorem recover_conservative (hv : parser.Valid) (request : Request) :
    (∀ (env : Env) (solution : ParseM.Solution) (after : Parser), env.strategy = .standard →
        ParseM.recover request env parser = some (solution, after) →
        Conservative env request parser solution after) ∧
      ((Rule.request request).WellFormed → (parser.recover .standard request).isSome) :=
  ⟨fun _ _ _ hs => .of_recover hs hv, fun hw =>
    ParseM.isSome_recover hw (Env.sound_ofFuel .standard parser.fuel) hv
      (Parser.returns_fuel Strategy.admissible_standard hv)⟩

/-- Brackets that nothing waits for are set aside, and the statement is read behind them. -/
theorem recover_conservative_brackets :
    ∃ node after, (Parser.ofSource ") ] x = 1;").recover .standard (.statement none) =
        some (.remove node, after) ∧
      Conservative (.ofFuel .standard (Parser.ofSource ") ] x = 1;").fuel) (.statement none)
        (.ofSource ") ] x = 1;") (.remove node) after := by
  have hanswer : Strategy.answer (.statement none) ((Parser.ofSource ") ] x = 1;").viewAt 0) =
      .remove := by
    decide +kernel
  obtain ⟨hconservative, hreturns⟩ :=
    recover_conservative (Parser.valid_ofSource ") ] x = 1;") (.statement none)
  obtain ⟨⟨solution, after⟩, hrun⟩ := Option.isSome_iff_exists.mp (hreturns trivial)
  have h := hconservative _ solution after rfl hrun
  cases solution with
  | keep kind =>
    obtain ⟨hkeep, -⟩ := h
    cases hanswer.symm.trans hkeep
  | insert kind token =>
    obtain - | ⟨hinsert, -⟩ := h
    cases hanswer.symm.trans hinsert
  | remove node => exact ⟨node, after, hrun, h⟩

end TolerantSyntax
