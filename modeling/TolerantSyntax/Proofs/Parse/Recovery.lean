import TolerantSyntax.Proofs.Parse.Tokens

/-!
# Recovery

What a rule relies on when it has got stuck. Whatever the strategy answers, the pieces read so far
are not touched, and a token put in is an absent one. A safe answer does not put in or keep anything
but the primary kind of the request, a comma between items of a list apart, and nothing is discarded
at the end of input; so a rule is entered again either further on or with its primary kind.
-/

namespace TolerantSyntax

namespace ParseM

variable {start : Kind → Prop} {bound : Nat} {given : Row}

/-! ## Entering a rule -/

/-- A rule of lower rank can be entered before anything has been consumed. -/
theorem meets_parseAs {rule : Rule} {kind : Kind} (hw : rule.WellFormed)
    (hs : ∀ k, start k → rule.Takes kind k) (hb : rule.rank kind < bound)
    (hrow : given = rule.given) :
    Enters start bound given (parseAs rule kind) .node (fun _ => False) where
  leads he hv hrun := hrow ▸ he hw hv hrun
  returns _ hv hstart _ hr := hr.call hw hv (hs _ hstart) (Or.inr ⟨Nat.le_refl _, hb⟩)
  goes _ _ _ _ _ hmoves := hmoves.elim
  heeds {_ _ _ node} _ _ _ _ _ hmoves := (hmoves node).elim

/-- A rule is entered with what the next token was taken for before. -/
theorem meets_parseAs_of_taken {rule : Rule} {kind : Kind} (hw : rule.WellFormed)
    (hs : ∀ k, start k → k = kind ∨ kind = rule.primary) (hb : 2 * rule.level + 1 < bound)
    (hrow : given = rule.given) :
    Enters start bound given (parseAs rule kind) .node (fun _ => False) :=
  meets_parseAs hw (fun k hk => (hs k hk).imp_right Or.inl)
    (Nat.lt_of_le_of_lt (rule.rank_le kind) hb) hrow

/-- A rule is entered at the next token. -/
theorem reads_parse {rule : Rule} (hw : rule.WellFormed)
    (hb : 2 * rule.level + 1 < bound) (hrow : given = rule.given) :
    Enters start bound given (parse rule) .node (fun _ => False) :=
  looks_nextKind.meets fun kind => meets_parseAs hw (fun _ h => Or.inl h.2)
    (Nat.lt_of_le_of_lt (rule.rank_le kind) hb) hrow

/-- A request is entered at the next token, if its level is below. -/
theorem reads_resume {request : Request} (hw : (Rule.request request).WellFormed)
    (hb : 2 * (Rule.request request).level + 1 < bound)
    (hrow : given = (Rule.request request).given) :
    Enters start bound given (resume request) .node (fun _ => False) :=
  reads_parse hw hb hrow

/-! ## Decisions -/

/-- An answer after which a rule does not get stuck at the same place for ever. -/
inductive Safe (request : Request) (ahead : Kind) : Decision → Prop where
  | remove : Safe request ahead .remove
  | insert : Safe request ahead (.insert request.primary)
  | keep : Safe request ahead (.keep request.primary)
  | separate {context : Context} {close : Kind} {item : ListItem}
      (hr : request = .listEnd context close item) (ha : ahead ≠ .eof) :
      Safe request ahead (.insert .comma)

theorem safe_answer (request : Request) (view : View) :
    Safe request view.current (Strategy.answer request view) := by
  unfold Strategy.answer
  split
  · exact .insert
  · next hne =>
    split
    · next hk =>
      rw [Bool.and_eq_true] at hk
      have hp := Request.primary_of_accepts_identifier hk.2
      rw [← hp]
      exact .keep
    · split
      · next hf =>
        unfold Strategy.startsForgottenItem at hf
        split at hf
        · exact .separate rfl hne
        · simp at hf
      · split
        · exact .insert
        · exact .remove

theorem Safe.ofAdmissible {strategy : Strategy} (h : strategy.Admissible) (asked : Nat)
    (request : Request) (view : View) :
    Safe request view.current (strategy asked request view) := by
  rcases h asked request view with h | h | h | h | ⟨h, hne, context, close, item, hr⟩
  · rw [h]
    exact safe_answer request view
  · rw [h]
    exact .remove
  · rw [h]
    exact .insert
  · rw [h]
    exact .keep
  · rw [h]
    exact .separate hr hne

theorem Safe.atEnd {request : Request} {ahead : Kind} {decision : Decision}
    (h : Safe request ahead decision) : Safe request ahead (decision.atEnd request ahead) := by
  unfold Decision.atEnd
  split
  · exact .insert
  · exact h

/-- The strategy is asked about the next token. -/
structure AsksAbout (request : Request) (before after : Parser) (c : Consultation) : Prop where
  consulted : after.consulted = c :: before.consulted
  request_eq : c.request = request
  current : c.view.current = before.ahead
  position : c.position = before.reader.consumed

/-- The strategy is asked once, about the next token, and no more changes by that than the record of
what it was asked. -/
theorem decide_eq {request : Request} (hw : (Rule.request request).WellFormed) (env : Env)
    {p : Parser} (hv : p.Valid) :
    ∃ decision q, decide request env p = some (decision, q) ∧ Same p q ∧
      (decision = .remove → p.ahead ≠ .eof) ∧
      (env.strategy.Admissible → Safe request p.ahead decision) ∧
      ∃ c, AsksAbout request p q c := by
  obtain ⟨current, p₁, h₁, hs₁, rfl⟩ := looks_nextKind.look env hv
  obtain ⟨next, p₂, h₂, hs₂, -⟩ := (looks_kindAt 1).look env hs₁.valid
  have hs := hs₁.trans hs₂
  let view : View := { current := p.ahead, next, contexts := p₂.contexts }
  let decision := env.strategy p₂.consulted.length request view
  let c : Consultation := { request, view, decision, position := p₂.reader.consumed }
  -- to look ahead asks nobody, so this is the only new consultation
  have hasks : AsksAbout request p { p₂ with consulted := c :: p₂.consulted } c := by
    refine ⟨?_, rfl, rfl, hs.consumed⟩
    show c :: p₂.consulted = c :: p.consulted
    rw [(looks_kindAt 1).silent h₂, looks_nextKind.silent h₁]
  have hasked : Parser.AskedFrom p.reader.consumed p { p₂ with consulted := c :: p₂.consulted } :=
    ⟨[c], hasks.consulted,
      List.forall_mem_singleton.mpr ⟨Nat.le_of_eq hasks.position.symm, hw⟩⟩
  refine ⟨decision.atEnd request p.ahead, { p₂ with consulted := c :: p₂.consulted },
    bind_eq_some_iff.mpr ⟨p.ahead, p₁, h₁, bind_eq_some_iff.mpr ⟨next, p₂, h₂, rfl⟩⟩,
    ⟨hs.valid, hs.place, hs.pending, hs.lastEnd, hs.consumed, hs.contexts, hs.modes, hasked⟩,
    ?_, fun hadm => (Safe.ofAdmissible hadm _ request view).atEnd, c, hasks⟩
  unfold Decision.atEnd
  split
  · intro h
    exact absurd h (by simp)
  · next h =>
    intro hr he
    exact h ⟨hr, he⟩

/-- A run that begins with a decision goes on from a state that is the same. -/
theorem exists_of_decide {α : Type} {f : Decision → ParseM α} {request : Request} {env : Env}
    {p r : Parser} {a : α} (hw : (Rule.request request).WellFormed) (hv : p.Valid)
    (hrun : (decide request >>= f) env p = some (a, r)) :
    ∃ decision q, Same p q ∧ (decision = .remove → p.ahead ≠ .eof) ∧
      (env.strategy.Admissible → Safe request p.ahead decision) ∧
      (∃ c, AsksAbout request p q c) ∧ f decision env q = some (a, r) := by
  obtain ⟨decision, q, hd, hrun⟩ := bind_eq_some_iff.mp hrun
  obtain ⟨_, _, hd', hs, hne, hsafe, hasks⟩ := decide_eq hw env hv
  cases hd.symm.trans hd'
  exact ⟨decision, q, hs, hne, hsafe, hasks, hrun⟩

/-- After a decision the parse stands where it stood, and a token that is to be discarded is not the
end of input. -/
theorem meets_decide {α : Type} {y : Yield α} {moves : α → Prop} {f : Decision → ParseM α}
    [hfree : Free bound moves] {request : Request} (hw : (Rule.request request).WellFormed)
    (hf : ∀ decision, Enters (fun k => start k ∧ (decision = .remove → k ≠ .eof)) bound given
      (f decision) y moves) : Enters start bound given (decide request >>= f) y moves where
  leads {env p q a} he hv hrun := by
    obtain ⟨decision, r, hs, -, -, -, hrun⟩ := exists_of_decide hw hv hrun
    obtain ⟨hl, hg⟩ := (hf decision).leads he hs.valid hrun
    exact ⟨(hs.leads given).trans hl, hg⟩
  returns {env p} he hv hstart _ hr := by
    obtain ⟨decision, r, hd, hs, hne, -⟩ := decide_eq hw env hv
    refine isSome_bind (by rw [hd]; rfl) fun decision' r' hd' => ?_
    cases hd.symm.trans hd'
    refine (hf decision).returns he hs.valid ?_ (hr.mono (Nat.le_of_eq hs.left) (Nat.le_refl _))
    rw [hs.ahead]
    exact ⟨hstart, hne⟩
  goes {env p q a} he hadm hv hstart hrun hmoves := by
    obtain ⟨decision, r, hs, hne, -, -, hrun⟩ := exists_of_decide hw hv hrun
    rw [← hs.left]
    exact (hf decision).goes he hadm hs.valid (by rw [hs.ahead]; exact ⟨hstart, hne⟩) hrun hmoves
  heeds {_ _ _ a} _ _ _ _ hzero hmoves := (hfree.claimless hzero hmoves a).elim

/-! ## Discarding up to a place to go on -/

/-- One token at least is discarded, and nothing stands in the row for it. -/
theorem begins_skip {request : Request} (hw : (Rule.request request).WellFormed) :
    Begins HasNext [] (skip request) .nothing := by
  refine begins_discard.bind fun _ _ => ?_
  refine Reads.loop .nothing (fun _ _ => ?_) trivial rfl
  refine looks_nextKind.meets fun kind => ?_
  split
  · exact Meets.pure (.refl _) trivial (by simp)
  · refine meets_decide hw fun decision => ?_
    split
    · next h =>
      have hd := beq_iff_eq.mp h
      refine begins_discard.bindFrom (fun k hk => hk.2 hd) fun _ _ => Reads.pure trivial rfl
    · exact Meets.pure (.refl _) trivial (by simp)

/-! ## Getting past a token -/

/-- What recovery leaves behind, by how it goes on. -/
inductive Recovered (request : Request) (before after : Parser) : Solution → Prop where
  | keep (kind : Kind) (hs : Same before after) : Recovered request before after (.keep kind)
  | insert (kind : Kind) (hs : Same before after) :
      Recovered request before after
        (.insert kind (.missing kind after.lastEnd (request.missingCode kind)))
  | remove (node : Node)
      (hl : before.Leads (Rule.request request).given after [some node]) (ht : node.HasToken) :
      Recovered request before after (.remove node)

/-- What a safe answer comes to. -/
inductive SafeSolution (request : Request) (before after : Parser) : Solution → Prop where
  | keep : SafeSolution request before after (.keep request.primary)
  | insert (token : Node) : SafeSolution request before after (.insert request.primary token)
  | separate {context : Context} {close : Kind} {item : ListItem} (token : Node)
      (hr : request = .listEnd context close item) (ha : before.ahead ≠ .eof) :
      SafeSolution request before after (.insert .comma token)
  | remove (node : Node) (hlt : after.left < before.left) :
      SafeSolution request before after (.remove node)

/-- Reading a rule behind discarded tokens. -/
theorem begins_skip_resume {request : Request} (hw : (Rule.request request).WellFormed) :
    Begins HasNext (Rule.request request).given
      (skip request >>= fun _ => resume request) .node :=
  (begins_skip hw).bind fun _ _ =>
    reads_resume hw (Rule.rank_lt_maxRank _) (List.append_nil _)

/-- Whatever recovery comes to, the parse stands where the solution says. -/
theorem recovered_of_recover (request : Request) {env : Env} {p q : Parser} {solution : Solution}
    (hw : (Rule.request request).WellFormed) (he : env.Sound) (hv : p.Valid)
    (hrun : recover request env p = some (solution, q)) : Recovered request p q solution := by
  obtain ⟨decision, r, hs, -, -, -, hrun⟩ := exists_of_decide hw hv hrun
  cases decision with
  | keep kind =>
    cases hrun
    exact .keep kind hs
  | insert kind =>
    cases hrun
    exact .insert kind hs
  | remove =>
    obtain ⟨_, r₁, hskip, hrun⟩ := bind_eq_some_iff.mp hrun
    obtain ⟨node, r₂, hresume, hrun⟩ := bind_eq_some_iff.mp hrun
    cases hrun
    obtain ⟨hl, ht⟩ := (begins_skip_resume hw).leads he hs.valid
      (bind_eq_some_iff.mpr ⟨_, r₁, hskip, hresume⟩)
    exact .remove node ((hs.leads _).trans hl) ht

/-- With an admissible strategy, recovery goes on with the primary kind of the request, with a comma
short of the end of input, or closer to the end. -/
theorem safeSolution_of_recover (request : Request) {env : Env} {p q : Parser}
    {solution : Solution} (hw : (Rule.request request).WellFormed) (he : env.Sound)
    (hadm : env.strategy.Admissible) (hv : p.Valid)
    (hrun : recover request env p = some (solution, q)) : SafeSolution request p q solution := by
  obtain ⟨decision, r, hs, hne, hsafe, -, hrun⟩ := exists_of_decide hw hv hrun
  cases hsafe hadm with
  | keep =>
    cases hrun
    exact .keep
  | insert =>
    cases hrun
    exact .insert _
  | separate hr ha =>
    cases hrun
    exact .separate _ hr ha
  | remove =>
    obtain ⟨_, r₁, hskip, hrun⟩ := bind_eq_some_iff.mp hrun
    obtain ⟨node, r₂, hresume, hrun⟩ := bind_eq_some_iff.mp hrun
    cases hrun
    refine .remove node ?_
    rw [← hs.left]
    refine (begins_skip_resume hw).goes he hadm hs.valid ?_
      (bind_eq_some_iff.mpr ⟨_, r₁, hskip, hresume⟩) trivial
    rw [hs.ahead]
    exact hne rfl

/-- Recovery returns: what it discards leaves less ahead, so that the rule can be entered again. -/
theorem isSome_recover {request : Request} {env : Env} {p : Parser} {bound : Nat}
    (hw : (Rule.request request).WellFormed) (he : env.Sound) (hv : p.Valid)
    (hr : env.Returns p.left bound) : (recover request env p).isSome := by
  obtain ⟨decision, r, hd, hs, hne, -⟩ := decide_eq hw env hv
  refine isSome_bind (by rw [hd]; rfl) fun decision' r' hd' => ?_
  cases hd.symm.trans hd'
  cases decision with
  | keep kind => rfl
  | insert kind => rfl
  | remove =>
    -- to discard needs no rule, and behind it there is less ahead
    have hr' : env.Returns r.left 0 := hr.mono (Nat.le_of_eq hs.left) (Nat.zero_le _)
    have hsome := (begins_skip_resume hw).returns he hs.valid
      (by rw [hs.ahead]; exact hne rfl) hr'
    obtain ⟨⟨node, r₂⟩, h⟩ := Option.isSome_iff_exists.mp hsome
    obtain ⟨_, r₁, hskip, hresume⟩ := bind_eq_some_iff.mp h
    exact Option.isSome_iff_exists.mpr ⟨(.remove node, r₂),
      bind_eq_some_iff.mpr ⟨_, r₁, hskip, bind_eq_some_iff.mpr ⟨node, r₂, hresume, rfl⟩⟩⟩

/-! ## Rules that recover -/

theorem Recovered.insert_leads {request : Request} {p q : Parser} {kind : Kind} {token : Node}
    (h : Recovered request p q (.insert kind token)) (given : Row) :
    Same p q ∧ p.Leads given q (given ++ [some token]) ∧ token.HasToken := by
  cases h with
  | insert _ hs =>
    have hl := (leads_missing hs.valid kind (request.missingCode kind)).behind given
    exact ⟨hs, (hs.leads given).trans hl, Node.hasToken_leaf _⟩

/-- A rule that got stuck is read again with the primary kind of its request, or goes on with a
token put in. -/
theorem reads_recoverAs {rule : Rule} {request : Request} {whenMissing : Node → ParseM Node}
    (hw : rule.WellFormed) (hq : (Rule.request request).WellFormed)
    (hlist : ∀ context close item, request ≠ .listEnd context close item)
    (hm : ∀ token, token.HasToken → Reads bound (given ++ [some token]) (whenMissing token) .node)
    (hb : 2 * rule.level < bound) (hp : rule.primary = request.primary)
    (hrow : given = rule.given) (hrow' : given = (Rule.request request).given) :
    Enters start bound given (recoverAs rule request whenMissing) .node (fun _ => False) where
  leads he hv hrun := by
    obtain ⟨solution, r, hrec, hrun⟩ := bind_eq_some_iff.mp hrun
    have h := recovered_of_recover _ hq he hv hrec
    cases solution with
    | keep kind =>
      cases h with
      | keep _ hs =>
        obtain ⟨hl, ht⟩ := he hw hs.valid hrun
        exact ⟨(hs.leads given).trans (hrow ▸ hl), ht⟩
    | insert kind token =>
      obtain ⟨hs, hl, ht⟩ := h.insert_leads given
      obtain ⟨hl', ht'⟩ := (hm token ht).leads he hs.valid hrun
      exact ⟨hl.trans hl', ht'⟩
    | remove node =>
      cases h with
      | remove _ hl ht =>
        cases hrun
        exact ⟨hrow' ▸ hl, ht⟩
  returns he hv _ _ hr := by
    refine isSome_bind (isSome_recover hq he hv hr) fun solution r hrec => ?_
    have h := recovered_of_recover _ hq he hv hrec
    cases safeSolution_of_recover _ hq he hr.admissible hv hrec with
    | keep =>
      cases h with
      | keep _ hs =>
        refine hr.call hw hs.valid (Or.inr (Or.inl hp.symm)) (Or.inr ⟨Nat.le_of_eq hs.left, ?_⟩)
        -- with its primary kind a rule ranks lowest
        rw [← hp, rule.rank_primary]
        exact hb
    | insert token =>
      obtain ⟨hs, -, ht⟩ := h.insert_leads given
      exact (hm token ht).returns he hs.valid trivial
        (hr.mono (Nat.le_of_eq hs.left) (Nat.le_refl _))
    | separate token hrequest _ => exact absurd hrequest (hlist _ _ _)
    | remove node _ => rfl
  goes _ _ _ _ _ hmoves := hmoves.elim
  heeds {_ _ _ node} _ _ _ _ _ hmoves := (hmoves node).elim

/-- A rule that got stuck is read again with the primary kind of its request. -/
theorem reads_recoverOver {request : Request} (hq : (Rule.request request).WellFormed)
    (hlist : ∀ context close item, request ≠ .listEnd context close item)
    (hb : 2 * (Rule.request request).level < bound)
    (hrow : given = (Rule.request request).given) :
    Enters start bound given (recoverOver request) .node (fun _ => False) where
  leads he hv hrun := by
    obtain ⟨solution, r, hrec, hrun⟩ := bind_eq_some_iff.mp hrun
    cases recovered_of_recover _ hq he hv hrec with
    | keep kind hs =>
      obtain ⟨hl, ht⟩ := he hq hs.valid hrun
      exact ⟨hrow ▸ (hs.leads _).trans hl, ht⟩
    | insert kind hs =>
      obtain ⟨hl, ht⟩ := he hq hs.valid hrun
      exact ⟨hrow ▸ (hs.leads _).trans hl, ht⟩
    | remove node hl ht =>
      cases hrun
      exact ⟨hrow ▸ hl, ht⟩
  returns {env before} he hv _ _ hr := by
    refine isSome_bind (isSome_recover hq he hv hr) fun solution r hrec => ?_
    have hagain (hs : Same before r) : (env.call (.request request) request.primary r).isSome := by
      refine hr.call hq hs.valid (Or.inr (Or.inl rfl)) (Or.inr ⟨Nat.le_of_eq hs.left, ?_⟩)
      exact lt_of_eq_of_lt ((Rule.request request).rank_primary) hb
    have h := recovered_of_recover _ hq he hv hrec
    cases safeSolution_of_recover _ hq he hr.admissible hv hrec with
    | keep =>
      cases h with
      | keep _ hs => exact hagain hs
    | insert token => exact hagain (h.insert_leads []).1
    | separate token hrequest _ => exact absurd hrequest (hlist _ _ _)
    | remove node _ => rfl
  goes _ _ _ _ _ hmoves := hmoves.elim
  heeds {_ _ _ node} _ _ _ _ _ hmoves := (hmoves node).elim

/-! ## Tokens that are expected -/

theorem reads_expectAs (kind expected : Kind) (context : Context) :
    Reads 0 [] (expectAs kind expected context) .node := by
  unfold expectAs
  split
  · exact reads_consumeNode
  · refine ⟨?_, ?_, fun _ _ _ _ _ hmoves => hmoves.elim,
      fun {_ _ _ node} _ _ _ _ _ hmoves => (hmoves node).elim⟩
    · intro env before after node he hv hrun
      obtain ⟨solution, r, hrec, hrun⟩ := bind_eq_some_iff.mp hrun
      have h := recovered_of_recover (.token context expected) trivial he hv hrec
      cases solution with
      | keep kind =>
        cases h with
        | keep _ hs =>
          obtain ⟨hl, ht⟩ := (reads_consumeAs expected).leads he hs.valid hrun
          exact ⟨(hs.leads []).trans hl, ht⟩
      | insert kind token =>
        cases hrun
        exact (h.insert_leads []).2
      | remove node =>
        cases hrun
        cases h with
        | remove _ hl ht => exact ⟨hl, ht⟩
    · intro env before he hv _ _ hr
      refine isSome_bind (isSome_recover trivial he hv hr) fun solution r hrec => ?_
      cases solution <;> rfl

/-- A token of the expected kind is consumed, or one is put in or taken for it. -/
theorem reads_expect (expected : Kind) (context : Context) :
    Reads 0 [] (expect expected context) .node :=
  looks_nextKind.meets fun kind => (reads_expectAs kind expected context).weaken

/-- A token that is expected and comes next is consumed. -/
theorem begins_expect {expected : Kind} (hk : expected ≠ .eof) (context : Context) :
    Begins (· = expected) [] (expect expected context) .node where
  leads := (reads_expect expected context).leads
  returns he hv _ _ hr := (reads_expect expected context).returns he hv trivial hr
  goes {env before after node} he hadm hv hstart hrun _ := by
    obtain ⟨kind, q, hn, hs, hi⟩ := looks_nextKind.look env hv
    obtain ⟨kind', q', hn', hrun⟩ := bind_eq_some_iff.mp hrun
    cases hn.symm.trans hn'
    rw [← hi, hstart, expectAs, if_pos (beq_self_eq_true expected)] at hrun
    rw [← hs.left]
    refine begins_consumeNode.goes he hadm hs.valid ?_ hrun trivial
    rw [hs.ahead, hstart]
    exact hk
  heeds {env before after node} he hv hstart hrun _ _ := by
    obtain ⟨kind, q, hn, hs, hi⟩ := looks_nextKind.look env hv
    obtain ⟨kind', q', hn', hrun⟩ := bind_eq_some_iff.mp hrun
    cases hn.symm.trans hn'
    rw [← hi, hstart, expectAs, if_pos (beq_self_eq_true expected)] at hrun
    refine hs.heeds (looks_nextKind.silent hn) ?_
    refine begins_consumeNode.heeds he hs.valid ?_ hrun rfl fun _ => trivial
    rw [hs.ahead, hstart]
    exact hk

theorem opens_expect {expected : Kind} (hk : expected ≠ .eof) (context : Context) :
    Opens (· = expected) 0 [] (expect expected context) .node :=
  ⟨reads_expect expected context, begins_expect hk context⟩

end ParseM

end TolerantSyntax
