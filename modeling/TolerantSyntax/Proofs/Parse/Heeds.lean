import TolerantSyntax.Grammar.Declaration
import TolerantSyntax.Proofs.Parse.Recovery

/-!
# Steps that go on with what comes next

A request says which tokens its rule can continue with, and recovery discards what stands before
such a token. Whether the rule does continue is another question. Some rules are entered behind
annotations and qualifiers, say that they could continue with these all the same, and then ask the
strategy about them; `Request.overstates` has the tokens for which that is so.

A rule heeds a token if it consumes it without having asked the strategy. Here is how that is passed
on to a step from the first rule that it refers to. Where a step begins with a token of its own, it
is known already (`Begins`).
-/

namespace TolerantSyntax

/-! ## What rules continue with -/

/-- The kind of the token after the next one. -/
def Parser.second (parser : Parser) : Kind :=
  parser.reader.place.next.2.next.1.kind

/-- Does the rule say that it can continue with a token of the first kind, with one of the second
behind it, though it gets stuck there? -/
def Request.overstates (request : Request) (kind second : Kind) : Bool :=
  match request with
  | .moduleMember .. =>
    kind == .atSign || (ParseM.moduleQualifiers.contains kind && !Starts.type kind)
  | .classMember .. => kind == .atSign || ParseM.memberQualifiers.contains kind
  | .recordField _ | .parameter _ => kind == .atSign
  | .statement _ =>
    kind == .atSign || (kind.isTypeKeyword && !Starts.expression kind && second == .colon)
  | _ => false

/-- Can an operand begin with a token of the first kind, with one of the second behind it? Besides
the tokens of `Starts.expression` it goes on with the annotations of an action, and with a type that
names a module. -/
def Starts.operand (kind second : Kind) : Bool :=
  expression kind || kind == .atSign || (kind.isTypeKeyword && second == .colon)

/-- What begins an expression begins an operand, whatever is behind it. -/
theorem Starts.operand_of_expression {kind second : Kind} (h : expression kind = true) :
    operand kind second = true := by
  rw [operand, h]
  rfl

namespace Rule

/-- Does the rule continue with a token of the first kind, with one of the second behind it? -/
def continues (rule : Rule) (kind second : Kind) : Bool :=
  match rule with
  | .request asked => asked.accepts kind && !asked.overstates kind second
  | .operand .. => Starts.operand kind second
  | .primaryType _ => Starts.type kind

end Rule

/-- The first that was done about the next token is to ask the strategy. -/
def Parser.Stuck (before after : Parser) : Prop :=
  ∃ c asked, c.position = before.reader.consumed ∧
    after.consulted = asked ++ c :: before.consulted

namespace Parser.Stuck

variable {p q r : Parser}

/-- Once the strategy has been asked about the next token, nothing can be done about that. -/
theorem trans {count : Nat} (h : p.Stuck q) (hasked : AskedFrom count q r) : p.Stuck r := by
  obtain ⟨c, asked, hposition, heq⟩ := h
  obtain ⟨asked', heq', -⟩ := hasked
  exact ⟨c, asked' ++ asked, hposition, by rw [heq', heq, List.append_assoc]⟩

/-- What asks about a token first has not consumed it before. -/
theorem not_heeds (h : p.Stuck q) : ¬p.Heeds q := by
  rintro ⟨-, asked, heq, hfrom⟩
  obtain ⟨c, asked', hposition, heq'⟩ := h
  rw [heq', ← List.singleton_append, ← List.append_assoc] at heq
  have hmem : c ∈ asked := by
    rw [← List.append_cancel_right heq]
    simp
  have hlt := (hfrom c hmem).1
  rw [hposition] at hlt
  exact Nat.not_succ_le_self _ hlt

end Parser.Stuck

/-- Rules heed the tokens that they continue with. -/
structure Env.Heeds (env : Env) : Prop where
  call : ∀ {rule : Rule} {before after : Parser} {node : Node}, rule.WellFormed → before.Valid →
    before.ahead ≠ .eof → rule.continues before.ahead before.second = true →
    env.call rule before.ahead before = some (node, after) → before.Heeds after

namespace ParseM

variable {α β : Type} {start start₀ : Kind → Kind → Prop} {bound b₀ : Nat} {given : Row}
  {y : Yield α} {z : Yield β}

/-! ## Statements -/

/-- A step that heeds the next token where `start` holds of it and of the one behind it, if rules
heed the tokens that they continue with. -/
structure Heeds (start : Kind → Kind → Prop) (m : ParseM α) : Prop where
  heeds : ∀ {env : Env} {before after : Parser} {a : α}, env.Sound → env.Heeds → before.Valid →
    before.ahead ≠ .eof → start before.ahead before.second → m env before = some (a, after) →
    before.Heeds after

/-- A step that can be entered anywhere, and heeds the next token where `start` holds of it. -/
structure Accepts (start : Kind → Prop) (bound : Nat) (given : Row) (m : ParseM α)
    (yield : Yield α) : Prop where
  reads : Reads bound given m yield
  heeds : Heeds (fun k _ => start k) m

/-- A step that asks the strategy about the next token where `start` holds of it and of the one
behind it, and so does not heed it. -/
structure Asks (start : Kind → Kind → Prop) (m : ParseM α) : Prop where
  asks : ∀ {env : Env} {before after : Parser} {a : α}, env.Sound → before.Valid →
    start before.ahead before.second → m env before = some (a, after) → before.Stuck after

/-! ## Steps that only look -/

/-- A step that only looks, and what its answer says about the kinds of the next two tokens. -/
structure Sees (m : ParseM α) (info : Kind → Kind → α → Prop) : Prop where
  look : ∀ (env : Env) {p : Parser}, p.Valid →
    ∃ a q, m env p = some (a, q) ∧ Same p q ∧ q.consulted = p.consulted ∧ info p.ahead p.second a

/-- Looking leaves the second token where it is. -/
theorem Same.second {p q : Parser} (h : Same p q) : q.second = p.second := by
  rw [Parser.second, h.place, Parser.second]

/-- Nor has anything changed for one that does not heed it. -/
theorem Same.of_heeds {p q r : Parser} (h : Same p q) (ha : q.consulted = p.consulted)
    (hp : p.Heeds r) : q.Heeds r := by
  refine ⟨h.consumed.symm ▸ hp.consumed, ?_⟩
  obtain ⟨asked, heq, hc⟩ := hp.asked
  exact ⟨asked, by rw [heq, ha], h.consumed.symm ▸ hc⟩

/-- Nor for one that gets stuck at it. -/
theorem Same.stuck {p q r : Parser} (h : Same p q) (ha : q.consulted = p.consulted)
    (hq : q.Stuck r) : p.Stuck r := by
  rwa [Parser.Stuck, h.consumed, ha] at hq

/-- What is known of one token is known of two. -/
theorem Looks.sees {m : ParseM α} {info : Kind → α → Prop} (h : Looks m info) :
    Sees m fun k _ a => info k a := by
  refine ⟨fun env p hv => ?_⟩
  obtain ⟨a, q, hrun, hs, hi⟩ := h.look env hv
  exact ⟨a, q, hrun, hs, h.silent hrun, hi⟩

namespace Sees

variable {m : ParseM α} {f : α → ParseM β} {info : Kind → Kind → α → Prop}
  {info' : Kind → Kind → β → Prop}

/-- One look after another tells what both tell. -/
theorem bind (hm : Sees m info) (hf : ∀ a, Sees (f a) fun k s b => info k s a → info' k s b) :
    Sees (m >>= f) info' := by
  refine ⟨fun env p hv => ?_⟩
  obtain ⟨a, q, hma, hs, ha, hi⟩ := hm.look env hv
  obtain ⟨b, r, hfb, hs', ha', hi'⟩ := (hf a).look env hs.valid
  rw [hs.ahead, hs.second] at hi'
  exact ⟨b, r, bind_eq_some_iff.mpr ⟨a, q, hma, hfb⟩, hs.trans hs', ha'.trans ha, hi' hi⟩

theorem pure {a : α} (h : ∀ k s, info k s a) : Sees (Pure.pure a) info :=
  ⟨fun _ _ hv => ⟨a, _, rfl, .refl hv, rfl, h _ _⟩⟩

/-- After a look the next token is the one that was looked at. -/
theorem heeds (hm : Sees m info) (hf : ∀ a, Heeds (fun k s => start k s ∧ info k s a) (f a)) :
    Heeds start (m >>= f) := by
  refine ⟨fun {env p r b} he hh hv hne hstart hrun => ?_⟩
  obtain ⟨a, q, hma, hs, ha, hi⟩ := hm.look env hv
  obtain ⟨_, _, hma', hfa⟩ := bind_eq_some_iff.mp hrun
  cases hma.symm.trans hma'
  refine hs.heeds ha ((hf a).heeds he hh hs.valid (by rwa [hs.ahead]) ?_ hfa)
  rw [hs.ahead, hs.second]
  exact ⟨hstart, hi⟩

/-- After a look the next token is still the one that is asked about. -/
theorem asks (hm : Sees m info) (hf : ∀ a, Asks (fun k s => start k s ∧ info k s a) (f a)) :
    Asks start (m >>= f) := by
  refine ⟨fun {env p r b} he hv hstart hrun => ?_⟩
  obtain ⟨a, q, hma, hs, ha, hi⟩ := hm.look env hv
  obtain ⟨_, _, hma', hfa⟩ := bind_eq_some_iff.mp hrun
  cases hma.symm.trans hma'
  refine hs.stuck ha ((hf a).asks he hs.valid ?_ hfa)
  rw [hs.ahead, hs.second]
  exact ⟨hstart, hi⟩

end Sees

/-- After a look at one token it is still the one that is heeded. -/
theorem Looks.heeds {m : ParseM α} {f : α → ParseM β} {info : Kind → α → Prop} (hm : Looks m info)
    (hf : ∀ a, Heeds (fun k s => start k s ∧ info k a) (f a)) : Heeds start (m >>= f) :=
  hm.sees.heeds hf

theorem Looks.asks {m : ParseM α} {f : α → ParseM β} {info : Kind → α → Prop} (hm : Looks m info)
    (hf : ∀ a, Asks (fun k s => start k s ∧ info k a) (f a)) : Asks start (m >>= f) :=
  hm.sees.asks hf

theorem sees_kindAt_one : Sees (kindAt 1) fun _ s kind => kind = s := by
  refine ⟨fun env p hv => ?_⟩
  obtain ⟨htoken, hat, hmodes, hconsumed⟩ := TokenReader.IsAt.peek hv 1
  refine ⟨(p.reader.peek 1).1.kind, { p with reader := (p.reader.peek 1).2 }, rfl,
    ⟨hat.toValid, hat.place_eq, rfl, rfl, hconsumed, rfl, hmodes, .of_eq rfl⟩, rfl, ?_⟩
  have hsecond : p.reader.place.next.2.next.1 = (p.reader.peek 1).1 := by
    simpa [Scanner.take] using htoken
  rw [Parser.second, hsecond]

/-- The answer is whether the second token is of the kind. -/
theorem sees_isSecond (kind : Kind) : Sees (isSecond kind) fun _ s b => b = (s == kind) :=
  sees_kindAt_one.bind fun _ => .pure fun _ _ h => h ▸ rfl

/-! ## One step after another -/

namespace Heeds

variable {m : ParseM α} {f : α → ParseM β}

/-- The step may be entered in fewer places. -/
theorem mono (h : Heeds start₀ m) (hs : ∀ k s, start k s → start₀ k s) : Heeds start m :=
  ⟨fun he hh hv hne hstart hrun => h.heeds he hh hv hne (hs _ _ hstart) hrun⟩

/-- Nothing has to be said of a step where it is never entered. -/
theorem unreachable (hs : ∀ k s, ¬start k s) : Heeds start m :=
  ⟨fun _ _ _ _ hstart _ => absurd hstart (hs _ _)⟩

/-- What follows a step does not undo what it heeds. -/
theorem bindOn {s : Kind → Prop} {moves : α → Prop} (pre : Row) (hm : Heeds start m)
    (hl : Enters s b₀ given m y moves)
    (hf : ∀ a, y.good a → Reads Rule.maxRank (pre ++ y.row a) (f a) z) : Heeds start (m >>= f) := by
  refine ⟨fun he hh hv hne hstart hrun => ?_⟩
  obtain ⟨a, q, hma, hfa⟩ := bind_eq_some_iff.mp hrun
  obtain ⟨hlead, hg⟩ := hl.leads he hv hma
  exact ((hf a hg).leads he hlead.valid hfa).1.heeds (hm.heeds he hh hv hne hstart hma)

/-- The same where the first step makes nothing of the pieces before it. -/
theorem bind {s : Kind → Prop} {moves : α → Prop} (hm : Heeds start m)
    (hl : Enters s b₀ given m y moves)
    (hf : ∀ a, y.good a → Reads Rule.maxRank (y.row a) (f a) z) : Heeds start (m >>= f) :=
  hm.bindOn [] hl hf

theorem bindPure {g : α → β} (hm : Heeds start m) :
    Heeds start (m >>= fun a => Pure.pure (g a)) := by
  refine ⟨fun he hh hv hne hstart hrun => ?_⟩
  obtain ⟨a, q, hma, hfa⟩ := bind_eq_some_iff.mp hrun
  cases hfa
  exact hm.heeds he hh hv hne hstart hma

theorem within {context : Context} (hm : Heeds start m) :
    Heeds start (ParseM.within context m) := by
  refine ⟨fun {env p r a} he hh hv hne hstart hrun => ?_⟩
  obtain ⟨q, hm', rfl⟩ := within_eq_some_iff.mp hrun
  have hv' : Parser.Valid { p with contexts := context :: p.contexts } := hv
  have hq := hm.heeds he hh hv' hne hstart hm'
  exact ⟨hq.consumed, hq.asked⟩

end Heeds

/-- A step that consumes a token before it refers to any rule heeds it. -/
theorem Begins.heedsWhere {m : ParseM α} {s₀ : Kind → Prop} (h : Begins s₀ given m y)
    (hs : ∀ k s, start k s → k ≠ .eof → s₀ k) : Heeds start m :=
  ⟨fun he _ hv hne hstart hrun =>
    Meets.heeds h he hv (hs _ _ hstart hne) hrun rfl fun _ => trivial⟩

namespace Accepts

variable {m : ParseM α} {f : α → ParseM β} {s s₀ : Kind → Prop}

/-- A step that heeds its token, and what follows it. -/
theorem bind [AtMost b₀ bound] [AtMost bound Rule.maxRank] (hm : Accepts s b₀ [] m y)
    (hf : ∀ a, y.good a → Reads bound (given ++ y.row a) (f a) z) :
    Accepts s bound given (m >>= f) z where
  reads := hm.reads.bind hf
  heeds := hm.heeds.bindOn given hm.reads fun a ha => (hf a ha).weaken

theorem within {context : Context} (hm : Accepts s bound given m y) :
    Accepts s bound given (ParseM.within context m) y :=
  ⟨hm.reads.within, hm.heeds.within⟩

theorem before {given' : Row} (hb : given.Becomes given') (hm : Accepts s bound given' m y) :
    Accepts s bound given m y :=
  ⟨hm.reads.before hb, hm.heeds⟩

end Accepts

/-! ## Entering a rule -/

/-- A rule that is entered at a token that it continues with heeds it. -/
theorem heeds_parseAs {rule : Rule} (kind : Kind) (hw : rule.WellFormed) :
    Heeds (fun k s => k = kind ∧ rule.continues k s = true) (parseAs rule kind) := by
  refine ⟨fun {env p q node} _ hh hv hne hstart hrun => ?_⟩
  obtain ⟨rfl, hc⟩ := hstart
  exact hh.call hw hv hne hc hrun

/-- A rule that is entered with what the next token was taken for before, and what follows it. -/
theorem heeds_parseAs_bind (rule : Rule) (kind : Kind) {f : Node → ParseM β} (hw : rule.WellFormed)
    (hf : ∀ node : Node, node.HasToken → Reads Rule.maxRank [some node] (f node) z) :
    Heeds (fun k s => k = kind ∧ rule.continues k s = true) (parseAs rule kind >>= f) :=
  have hl : Enters (· = kind) (rule.rank kind + 1) rule.given (parseAs rule kind) .node
      (fun _ => False) := meets_parseAs hw (fun _ hk => Or.inl hk) (Nat.lt_succ_self _) rfl
  (heeds_parseAs kind hw).bind hl hf

/-- A rule heeds the token that it is entered at, if it continues with it. -/
theorem heeds_parse {rule : Rule} (hw : rule.WellFormed) :
    Heeds (fun k s => rule.continues k s = true) (parse rule) :=
  looks_nextKind.heeds fun kind => (heeds_parseAs kind hw).mono fun _ _ h => ⟨h.2, h.1⟩

/-- A request that overstates nothing accepts what it says. -/
theorem accepts_resume (request : Request) (hw : (Rule.request request).WellFormed)
    (hb : 2 * (Rule.request request).level + 1 < bound)
    (hrow : given = (Rule.request request).given)
    (hnone : ∀ k s, request.overstates k s = false) :
    Accepts (fun k => request.accepts k = true) bound given (resume request) .node where
  reads := reads_resume hw hb hrow
  heeds := (heeds_parse hw).mono fun k s h => by rw [Rule.continues, h, hnone]; rfl

/-! ## Getting stuck -/

/-- A consultation about the next token before anything else gets stuck at it. -/
theorem AsksAbout.stuck {request : Request} {p q : Parser} {c : Consultation}
    (h : AsksAbout request p q c) : p.Stuck q :=
  ⟨c, [], h.position, h.consulted⟩

/-- Recovery asks about the next token at once. -/
theorem asks_recover {request : Request} (hw : (Rule.request request).WellFormed) :
    Asks start (recover request) := by
  refine ⟨fun {env p r solution} he hv _ hrun => ?_⟩
  obtain ⟨decision, q, hs, -, -, ⟨c, hc⟩, hrun⟩ := exists_of_decide hw hv hrun
  cases decision with
  | keep kind =>
    cases hrun
    exact hc.stuck
  | insert kind =>
    cases hrun
    exact hc.stuck
  | remove =>
    obtain ⟨_, r₁, hskip, hrun⟩ := bind_eq_some_iff.mp hrun
    obtain ⟨node, r₂, hresume, hrun⟩ := bind_eq_some_iff.mp hrun
    cases hrun
    exact hc.stuck.trans ((begins_skip_resume hw).leads he hs.valid
      (bind_eq_some_iff.mpr ⟨_, r₁, hskip, hresume⟩)).1.asked

/-- A rule that is stuck asks about the next token at once. -/
theorem asks_recoverOver {request : Request} (hw : (Rule.request request).WellFormed) :
    Asks start (recoverOver request) := by
  refine ⟨fun he hv hstart hrun => ?_⟩
  obtain ⟨solution, r, hrec, hrun⟩ := bind_eq_some_iff.mp hrun
  have hstuck := (asks_recover hw).asks he hv hstart hrec
  cases recovered_of_recover _ hw he hv hrec with
  | keep kind hs => exact hstuck.trans (he hw hs.valid hrun).1.asked
  | insert kind hs => exact hstuck.trans (he hw hs.valid hrun).1.asked
  | remove node =>
    cases hrun
    exact hstuck

/-- So does one that goes on with a token put in. -/
theorem asks_recoverAs {rule : Rule} {request : Request} {whenMissing : Node → ParseM Node}
    (hw : rule.WellFormed) (hq : (Rule.request request).WellFormed)
    (hm : ∀ token, token.HasToken →
      Reads Rule.maxRank [some token] (whenMissing token) .node) :
    Asks start (recoverAs rule request whenMissing) := by
  refine ⟨fun he hv hstart hrun => ?_⟩
  obtain ⟨solution, r, hrec, hrun⟩ := bind_eq_some_iff.mp hrun
  have hstuck := (asks_recover hq).asks he hv hstart hrec
  have h := recovered_of_recover _ hq he hv hrec
  cases solution with
  | keep kind =>
    cases h with
    | keep _ hs => exact hstuck.trans (he hw hs.valid hrun).1.asked
  | insert kind token =>
    obtain ⟨hs, -, ht⟩ := h.insert_leads []
    exact hstuck.trans ((hm token ht).leads he hs.valid hrun).1.asked
  | remove node =>
    cases hrun
    exact hstuck

/-- Nothing has to be said of a step where it is never entered. -/
theorem Asks.unreachable {m : ParseM α} (hs : ∀ k s, ¬start k s) : Asks start m :=
  ⟨fun _ _ hstart _ => absurd hstart (hs _ _)⟩

/-! ## Tokens that are expected -/

/-- A token that is of the expected kind is consumed. -/
theorem heeds_expectAs (kind expected : Kind) (context : Context) :
    Heeds (fun k s => k = kind ∧ (Rule.request (.token context expected)).continues k s = true)
      (expectAs kind expected context) := by
  unfold expectAs
  split
  · exact begins_consumeNode.heedsWhere fun _ _ _ h => h
  · refine Heeds.unreachable ?_
    rintro _ _ ⟨rfl, h⟩
    simp_all [Rule.continues, Request.accepts, Request.overstates]

end ParseM

end TolerantSyntax
