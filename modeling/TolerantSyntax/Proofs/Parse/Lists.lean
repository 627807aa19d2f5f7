import TolerantSyntax.Proofs.Parse.Heeds

/-!
# Lists

Every turn of a loop over items consumes something: an item, a separator, or else a token that is
discarded because nothing else was consumed. An item of which all is missing and for which nothing
was consumed left the parse where it was, so it may be dropped.
-/

namespace TolerantSyntax

namespace Yield

/-- Nodes in a row, each with a token. -/
def filled : Yield (List Node) :=
  ⟨fun nodes => nodes.map some, fun nodes => ∀ node ∈ nodes, node.HasToken⟩

/-- A list of items and its closing delimiter. -/
def delimited : Yield (Node × Node) :=
  ⟨fun parts => [some parts.1, some parts.2],
    fun parts => (∃ items, parts.1 = .list items) ∧ parts.2.HasToken⟩

end Yield

namespace ParseM

variable {start : Kind → Prop} {bound : Nat}

/-! ## Items one after another -/

theorem turns_many {more : Kind → Bool} {item : ParseM Node}
    (hitem : Begins (fun k => more k = true) [] item .node) {items : List Node}
    (hitems : ∀ node ∈ items, node.HasToken) :
    Turns (fun _ => True) 0 (items.map some)
      (do if more (← nextKind) then return .inl (items ++ [← item]) else return .inr items)
      .filled .filled := by
  refine looks_nextKind.meets fun kind => ?_
  split
  · next hmore =>
    refine hitem.bindFrom (fun k hk => hk.2 ▸ hmore) fun node hn => ?_
    refine Reads.pure (List.forall_mem_append.mpr ⟨hitems, ?_⟩) ?_
    · exact List.forall_mem_singleton.mpr hn
    · simp [Yield.turn, Yield.filled, Yield.node]
  · exact Meets.pure (.refl _) hitems (by simp)

theorem reads_many {more : Kind → Bool} {item : ParseM Node}
    (hitem : Begins (fun k => more k = true) [] item .node) : Reads 0 [] (many more item) .filled :=
  Reads.loop .filled (fun _ => turns_many hitem) (List.forall_mem_nil _) rfl

/-- If an item comes next, it is consumed. -/
theorem begins_many {more : Kind → Bool} {item : ParseM Node}
    (hitem : Begins (fun k => more k = true) [] item .node) :
    Begins (fun k => more k = true) [] (many more item) .filled := by
  refine Begins.loop .filled ?_
    (fun _ hi => (turns_many hitem hi).mono (fun _ h => h) (fun _ h => h))
    (List.forall_mem_nil _) rfl
  refine looks_nextKind.meets fun kind => ?_
  split
  · next hmore =>
    refine hitem.bindFrom (fun k hk => hk.2 ▸ hmore) fun node hn => Reads.pure ?_ rfl
    exact List.forall_mem_singleton.mpr hn
  · next hmore =>
    -- another kind than the next one is not looked at
    refine Meets.unreachable ?_ fun k hk => hmore (hk.2 ▸ hk.1)
    exact Meets.pure (.refl _) (List.forall_mem_nil _) id

/-- Where no item comes next, there is none. -/
theorem perhaps_many {more : Kind → Bool} {item : ParseM Node}
    (hitem : Begins (fun k => more k = true) [] item .node) :
    Perhaps (fun k => more k = true) [] (many more item) .filled := by
  refine ⟨⟨reads_many hitem, begins_many hitem⟩, ?_⟩
  intro env p q items hv hk hrun
  obtain ⟨_, _, hp, hrun⟩ := bind_eq_some_iff.mp hrun
  cases hp
  cases hf : env.fuel with
  | zero => rw [hf] at hrun; cases hrun
  | succ fuel =>
    rw [hf] at hrun
    obtain ⟨r, p₁, hturn, hrun⟩ := bind_eq_some_iff.mp hrun
    obtain ⟨kind, p₂, hn, hs, rfl, hturn⟩ := looks_nextKind.exists_of_bind hv hturn
    rw [if_neg hk] at hturn
    cases hturn
    cases hrun
    exact ⟨rfl, hs, looks_nextKind.silent hn⟩

theorem reads_separated [AtMost bound Rule.maxRank] {separator : Kind} {item : ParseM Node}
    (hs : separator ≠ .eof) (hitem : Reads bound [] item .node) :
    Reads bound [] (separated separator item) .chain := by
  refine hitem.bind fun first hf => ?_
  refine Reads.loop .chain (fun items hi => ?_) ⟨first, List.mem_singleton_self _, hf⟩ rfl
  refine Meets.isNext ?_ (Meets.pure (.refl _) hi (by simp))
  refine begins_consumeNode.bindFrom (fun k hk => hk.2 ▸ hs) fun token ht => ?_
  refine hitem.bind fun node _ => ?_
  exact Reads.pure ⟨token, by simp, ht⟩ (by simp [Yield.turn, Yield.chain, Yield.node])

/-! ## Items for which something has to be consumed -/

/-- Reads an item and goes on by whether a token was consumed. -/
def byProgress {β : Type} (item : ParseM Node) (stalled moved : Node → ParseM β) : ParseM β := do
  let begun ← position
  let node ← item
  if (← position) == begun then stalled node else moved node

section ByProgress

variable {β : Type} {item : ParseM Node} {stalled moved : Node → ParseM β} {given : Row}
  {z : Yield β} {env : Env} {p q : Parser} {b : β}

theorem byProgress_eq_some_iff :
    byProgress item stalled moved env p = some (b, q) ↔
      ∃ node r, item env p = some (node, r) ∧
        if r.reader.consumed = p.reader.consumed then stalled node env r = some (b, q)
        else moved node env r = some (b, q) := by
  -- the count is compared with the one from before the item, which is a number by now
  have hcond (node : Node) (r : Parser) :
      (position >>= fun ended => if (ended == p.reader.consumed) = true then stalled node
        else moved node) env r = some (b, q) ↔
      if r.reader.consumed = p.reader.consumed then stalled node env r = some (b, q)
        else moved node env r = some (b, q) := by
    rw [bind_eq_some_iff]
    constructor
    · rintro ⟨_, _, hp, hrun⟩
      cases hp
      simp only [beq_iff_eq] at hrun
      split <;> simp_all
    · intro hrun
      refine ⟨_, _, rfl, ?_⟩
      simp only [beq_iff_eq]
      split <;> simp_all
  unfold byProgress
  rw [bind_eq_some_iff]
  constructor
  · rintro ⟨_, _, hp, hrun⟩
    cases hp
    obtain ⟨node, r, hnode, hrun⟩ := bind_eq_some_iff.mp hrun
    exact ⟨node, r, hnode, (hcond node r).mp hrun⟩
  · rintro ⟨node, r, hnode, hrun⟩
    exact ⟨_, _, rfl, bind_eq_some_iff.mpr ⟨node, r, hnode, (hcond node r).mpr hrun⟩⟩

/-- Where an item left the parse: behind where it stood, or exactly there. -/
theorem moved_or_stalled (given : Row) {node : Node} {xs : Row} (hl : p.Leads xs q [some node])
    (ha : p.ahead ≠ .eof) :
    (q.reader.consumed ≠ p.reader.consumed ∧ q.left < p.left) ∨
      (q.reader.consumed = p.reader.consumed ∧ p.Leads given q given ∧ q.ahead ≠ .eof) := by
  by_cases hc : q.reader.consumed = p.reader.consumed
  · refine Or.inr ⟨hc, ⟨hl.valid, hl.contexts, hl.modes, ?_, hl.asked⟩, hl.ahead_ne_eof hc ha⟩
    rw [hl.front_eq hc ha]
    exact .refl
  · exact Or.inl ⟨hc, hl.left_lt hc⟩

end ByProgress

/-- A step that is entered only where there is a next token, and consumes something. -/
structure Advances {β : Type} (bound : Nat) (given : Row) (m : ParseM β) (yield : Yield β) :
    Prop where
  leads : ∀ {env : Env} {before after : Parser} {b : β}, env.Sound → before.Valid →
    before.ahead ≠ .eof → m env before = some (b, after) →
    before.Leads given after (yield.row b) ∧ yield.good b
  returns : ∀ {env : Env} {before : Parser}, env.Sound → before.Valid → before.ahead ≠ .eof →
    env.Returns before.left bound → (m env before).isSome
  goes : ∀ {env : Env} {before after : Parser} {b : β}, env.Sound → env.strategy.Admissible →
    before.Valid → before.ahead ≠ .eof → m env before = some (b, after) → after.left < before.left

/-- Where nothing was consumed, the item may be kept or dropped. -/
theorem advances_byProgress {β : Type} {item : ParseM Node} {stalled moved : Node → ParseM β}
    {given : Row} {z : Yield β} (hitem : Reads bound [] item .node)
    (hstalled : ∀ node : Node, ∃ row, (row = given ∨ row = given ++ [some node]) ∧
      Begins HasNext row (stalled node) z)
    (hmoved : ∀ node : Node, Reads Rule.maxRank (given ++ [some node]) (moved node) z) :
    Advances bound given (byProgress item stalled moved) z where
  leads {env p q b} he hv ha hrun := by
    obtain ⟨node, r, hnode, hrun⟩ := byProgress_eq_some_iff.mp hrun
    obtain ⟨hl, -⟩ := hitem.leads he hv hnode
    rcases moved_or_stalled given hl ha with ⟨hc, -⟩ | ⟨hc, hstay, -⟩
    · rw [if_neg hc] at hrun
      obtain ⟨hl', hg⟩ := (hmoved node).leads he hl.valid hrun
      exact ⟨(hl.behind given).trans hl', hg⟩
    · rw [if_pos hc] at hrun
      obtain ⟨row, hrow, hs⟩ := hstalled node
      obtain ⟨hl', hg⟩ := hs.leads he hl.valid hrun
      rcases hrow with rfl | rfl
      · exact ⟨hstay.trans hl', hg⟩
      · exact ⟨(hl.behind given).trans hl', hg⟩
  returns {env p} he hv ha hr := by
    obtain ⟨⟨node, r⟩, hnode⟩ := Option.isSome_iff_exists.mp (hitem.returns he hv trivial hr)
    obtain ⟨hl, -⟩ := hitem.leads he hv hnode
    rcases moved_or_stalled given hl ha with ⟨hc, hlt⟩ | ⟨hc, -, hne⟩
    · obtain ⟨⟨b, q⟩, hrun⟩ := Option.isSome_iff_exists.mp
        ((hmoved node).returns he hl.valid trivial (hr.further hlt _))
      rw [byProgress_eq_some_iff.mpr ⟨node, r, hnode, by rwa [if_neg hc]⟩]
      rfl
    · -- nothing was consumed, so there is still a token, and the step for that case consumes it
      obtain ⟨row, -, hs⟩ := hstalled node
      obtain ⟨⟨b, q⟩, hrun⟩ := Option.isSome_iff_exists.mp
        (hs.returns he hl.valid hne (hr.mono hl.left_le (Nat.zero_le _)))
      rw [byProgress_eq_some_iff.mpr ⟨node, r, hnode, by rwa [if_pos hc]⟩]
      rfl
  goes {env p q b} he hadm hv ha hrun := by
    obtain ⟨node, r, hnode, hrun⟩ := byProgress_eq_some_iff.mp hrun
    obtain ⟨hl, -⟩ := hitem.leads he hv hnode
    rcases moved_or_stalled given hl ha with ⟨hc, hlt⟩ | ⟨hc, -, hne⟩
    · rw [if_neg hc] at hrun
      exact Nat.lt_of_le_of_lt ((hmoved node).leads he hl.valid hrun).1.left_le hlt
    · rw [if_pos hc] at hrun
      obtain ⟨row, -, hs⟩ := hstalled node
      exact Nat.lt_of_lt_of_le (hs.goes he hadm hl.valid hne hrun trivial) hl.left_le

namespace Advances

variable {α β : Type} {given : Row} {y : Yield α} {z : Yield β} {m : ParseM α}

theorem isNext {kind : Kind} {whenNext other : ParseM α}
    (hn : Begins (· = kind) given whenNext y) (ho : Advances bound given other y) :
    Advances bound given
      (ParseM.isNext kind >>= fun b => if b = true then whenNext else other) y where
  leads {env p q a} he hv ha hrun := by
    obtain ⟨b, r, -, hs, -, hrun⟩ := (looks_isNext kind).exists_of_bind hv hrun
    split at hrun
    · obtain ⟨hl, hg⟩ := hn.leads he hs.valid hrun
      exact ⟨(hs.leads given).trans hl, hg⟩
    · obtain ⟨hl, hg⟩ := ho.leads he hs.valid (by rwa [hs.ahead]) hrun
      exact ⟨(hs.leads given).trans hl, hg⟩
  returns {env p} he hv ha hr := by
    refine (looks_isNext kind).isSome_bind hv fun b r hs hi => ?_
    have hr' := hr.mono (Nat.le_of_eq hs.left) (Nat.le_refl bound)
    split
    · next h =>
      refine hn.returns he hs.valid ?_ (hr'.mono (Nat.le_refl _) (Nat.zero_le _))
      rw [hs.ahead, hi.mp h]
    · exact ho.returns he hs.valid (by rwa [hs.ahead]) hr'
  goes {env p q a} he hadm hv ha hrun := by
    obtain ⟨b, r, -, hs, hi, hrun⟩ := (looks_isNext kind).exists_of_bind hv hrun
    rw [← hs.left]
    split at hrun
    · next h => exact hn.goes he hadm hs.valid (by rw [hs.ahead, hi.mp h]) hrun trivial
    · exact ho.goes he hadm hs.valid (by rwa [hs.ahead]) hrun

theorem bind {f : α → ParseM β} (hm : Advances bound given m y)
    (hf : ∀ a, y.good a → Reads 0 (y.row a) (f a) z) : Advances bound given (m >>= f) z where
  leads he hv ha hrun := by
    obtain ⟨a, q, hma, hfa⟩ := bind_eq_some_iff.mp hrun
    obtain ⟨hl, hg⟩ := hm.leads he hv ha hma
    obtain ⟨hl', hg'⟩ := (hf a hg).leads he hl.valid hfa
    exact ⟨hl.trans hl', hg'⟩
  returns he hv ha hr := by
    refine isSome_bind (hm.returns he hv ha hr) fun a q hma => ?_
    obtain ⟨hl, hg⟩ := hm.leads he hv ha hma
    exact (hf a hg).returns he hl.valid trivial (hr.mono hl.left_le (Nat.zero_le _))
  goes he hadm hv ha hrun := by
    obtain ⟨a, q, hma, hfa⟩ := bind_eq_some_iff.mp hrun
    obtain ⟨hl, hg⟩ := hm.leads he hv ha hma
    exact Nat.lt_of_le_of_lt ((hf a hg).leads he hl.valid hfa).1.left_le
      (hm.goes he hadm hv ha hma)

end Advances

/-- A turn that ends where the input ends, and advances elsewhere. -/
theorem Advances.turns {α β : Type} [Nonempty β] {given : Row} {state : Yield α} {result : Yield β}
    (isEnd : Kind → Bool) {finish : ParseM (α ⊕ β)} {more : Kind → ParseM (α ⊕ β)}
    (hend : isEnd .eof = true)
    (hfinish : Turns (fun _ => True) bound given finish state result)
    (hmore : ∀ kind, Advances bound given (more kind) (.turn state result)) :
    Turns (fun _ => True) bound given
      (nextKind >>= fun kind => if isEnd kind = true then finish else more kind) state result where
  leads {env p q r} he hv hrun := by
    obtain ⟨kind, p', -, hs, rfl, hrun⟩ := looks_nextKind.exists_of_bind hv hrun
    split at hrun
    · obtain ⟨hl, hg⟩ := hfinish.leads he hs.valid hrun
      exact ⟨(hs.leads given).trans hl, hg⟩
    · next hne =>
      obtain ⟨hl, hg⟩ := (hmore _).leads he hs.valid
        (fun ha => hne (by rwa [← hs.ahead, ha])) hrun
      exact ⟨(hs.leads given).trans hl, hg⟩
  returns {env p} he hv _ _ hr := by
    refine looks_nextKind.isSome_bind hv fun kind p' hs hk => ?_
    cases hk
    have hr' := hr.mono (Nat.le_of_eq hs.left) (Nat.le_refl bound)
    split
    · exact hfinish.returns he hs.valid trivial hr'
    · next hne =>
      exact (hmore _).returns he hs.valid (fun ha => hne (by rwa [← hs.ahead, ha])) hr'
  goes {env p q r} he hadm hv _ hrun hmoves := by
    obtain ⟨kind, p', -, hs, rfl, hrun⟩ := looks_nextKind.exists_of_bind hv hrun
    rw [← hs.left]
    split at hrun
    · exact hfinish.goes he hadm hs.valid trivial hrun hmoves
    · next hne =>
      exact (hmore _).goes he hadm hs.valid (fun ha => hne (by rwa [← hs.ahead, ha])) hrun
  heeds {_ _ _ r} _ _ _ _ hzero hmoves := (Free.turn.claimless hzero hmoves r).elim

/-- A turn discards a token if nothing else was consumed, and then drops what is missing. -/
theorem turns_manyUntil {isEnd : Kind → Bool} {item : ParseM Node}
    (hitem : Reads bound [] item .node) (items : List Node) :
    Turns (fun _ => True) bound (items.map some)
      (do
        let kind ← nextKind
        if kind == .eof || isEnd kind then return .inr items
        let begun ← position
        let node ← item
        if (← position) == begun then
          discard
          if node.isMissing then return .inl items
        return .inl (items ++ [node]))
      .items .items := by
  refine Advances.turns (fun kind => kind == .eof || isEnd kind) rfl
    (Meets.pure (.refl _) trivial (by simp)) fun kind => ?_
  have hkeep (node : Node) : items.map some ++ [some node] =
      (Yield.turn .items .items).row (.inl (items ++ [node]) : List Node ⊕ List Node) := by
    simp [Yield.turn, Yield.items]
  refine advances_byProgress hitem (fun node => ?_) fun node => Reads.pure trivial (hkeep node)
  by_cases hm : node.isMissing = true
  · refine ⟨_, Or.inl rfl, begins_discard.bind fun _ _ => ?_⟩
    rw [if_pos hm]
    exact Reads.pure trivial (List.append_nil _)
  · refine ⟨_, Or.inr rfl, begins_discard.bind fun _ _ => ?_⟩
    rw [if_neg hm]
    exact Reads.pure trivial ((List.append_nil _).trans (hkeep node))

/-- Items up to a token that ends them. -/
theorem reads_manyUntil {isEnd : Kind → Bool} {item : ParseM Node}
    (hitem : Reads bound [] item .node) : Reads bound [] (manyUntil isEnd item) .piece := by
  unfold manyUntil
  refine Reads.bind
    (Reads.loop .items (fun items _ => turns_manyUntil hitem items) trivial (by rfl)) fun items _ =>
      ?_
  exact Meets.pure (.group .list _ rfl) trivial id

/-! ## Separators and closing delimiters -/

section Delimited

variable {context : Context} {close : Kind} {item : ListItem} {readItem : ParseM Node}

theorem reads_listEndAs (kind : Kind) (context : Context) (close : Kind) (item : ListItem) :
    Reads 0 [] (listEndAs kind context close item) .node := by
  unfold listEndAs
  split
  · exact reads_consumeNode
  · refine ⟨?_, ?_, fun _ _ _ _ _ hmoves => hmoves.elim,
      fun {_ _ _ node} _ _ _ _ _ hmoves => (hmoves node).elim⟩
    · intro env before after node he hv hrun
      obtain ⟨solution, r, hrec, hrun⟩ := bind_eq_some_iff.mp hrun
      have h := recovered_of_recover (.listEnd context close item) trivial he hv hrec
      cases solution with
      | keep kept =>
        cases h with
        | keep _ hs =>
          obtain ⟨hl, ht⟩ := (reads_consumeAs kept).leads he hs.valid hrun
          exact ⟨(hs.leads []).trans hl, ht⟩
      | insert kind token =>
        cases hrun
        exact (h.insert_leads []).2
      | remove node =>
        cases hrun
        cases h with
        | remove _ hl ht => exact ⟨hl, ht⟩
    · intro env before he hv _ _ hr
      refine isSome_bind (isSome_recover trivial he hv hr) fun solution r hrec => ?_
      cases solution <;> rfl

theorem heeds_listEndAs (kind : Kind) (context : Context) (close : Kind) (item : ListItem) :
    Heeds (fun k s => k = kind ∧ (Rule.request (.listEnd context close item)).continues k s = true)
      (listEndAs kind context close item) := by
  unfold listEndAs
  split
  · exact begins_consumeNode.heedsWhere fun _ _ _ h => h
  · refine Heeds.unreachable ?_
    rintro _ _ ⟨rfl, h⟩
    simp_all [Rule.continues, Request.accepts, Request.overstates]

theorem reads_listEnd (context : Context) (close : Kind) (item : ListItem) :
    Reads 0 [] (listEnd context close item) .node :=
  looks_nextKind.meets fun kind => (reads_listEndAs kind context close item).weaken

theorem kind_consumeNode {env : Env} {p q : Parser} {node : Node} (hv : p.Valid)
    (hrun : consumeNode env p = some (node, q)) : node.kind = p.ahead := by
  obtain ⟨token, r, hc, hrun⟩ := bind_eq_some_iff.mp hrun
  cases hrun
  obtain ⟨_, hc', -⟩ := exists_consume hv env
  cases hc.symm.trans hc'
  rw [next_front hv, (TokenReader.IsAt.consume hv).1]
  rfl

/-- A comma at the end of input is not read, nor put in. -/
theorem ahead_ne_eof_of_comma (hclose : close ≠ .comma) {env : Env} {p q : Parser} {token : Node}
    (he : env.Sound) (hadm : env.strategy.Admissible) (hv : p.Valid)
    (hrun : listEnd context close item env p = some (token, q)) (hc : token.kind = .comma) :
    q.left < p.left ∨ p.ahead ≠ .eof := by
  obtain ⟨kind, p', -, hs, rfl, hrun⟩ := looks_nextKind.exists_of_bind hv hrun
  unfold listEndAs at hrun
  split at hrun
  · rw [kind_consumeNode hs.valid hrun, hs.ahead] at hc
    exact Or.inr (by simp [hc])
  · obtain ⟨solution, r, hrec, hrun⟩ := bind_eq_some_iff.mp hrun
    have h := recovered_of_recover (.listEnd context close item) trivial he hs.valid hrec
    cases safeSolution_of_recover (.listEnd context close item) trivial he hadm hs.valid
      hrec with
    | keep =>
      obtain ⟨token, r', -, hrun⟩ := bind_eq_some_iff.mp hrun
      cases hrun
      exact absurd hc hclose
    | insert =>
      cases hrun
      cases h with
      | insert => exact absurd hc hclose
    -- a comma is put in only where something follows it
    | separate _ _ ha => exact Or.inr (hs.ahead ▸ ha)
    | remove _ hlt =>
      cases hrun
      exact Or.inl (hs.left ▸ hlt)

/-- Around a comma, something is consumed or a token is left to discard. -/
theorem moved_or_stalled_of_comma (hclose : close ≠ .comma) {env : Env} {p q r s : Parser}
    {token : Node} {xs ys : Row} (he : env.Sound) (hadm : env.strategy.Admissible)
    (hpq : p.Leads [] q xs) (hrun : listEnd context close item env q = some (token, r))
    (hc : token.kind = .comma) (hrs : r.Leads [] s ys) :
    s.left < p.left ∨ s.reader.consumed = p.reader.consumed ∧ s.ahead ≠ .eof := by
  have hqr := ((reads_listEnd context close item).leads he hpq.valid hrun).1
  have hqs := hqr.trans (hrs.behind [some token])
  have hps := hpq.trans (hqs.behind xs)
  by_cases hcount : s.reader.consumed = p.reader.consumed
  · rcases ahead_ne_eof_of_comma hclose he hadm hpq.valid hrun hc with hlt | hne
    · exact Or.inl (Nat.lt_of_le_of_lt hrs.left_le (Nat.lt_of_lt_of_le hlt hpq.left_le))
    · -- nothing was consumed on the way, so what is ahead at the end was ahead all along
      have hpq' : p.reader.consumed ≤ q.reader.consumed := hpq.steps.onward.consumed
      have hqs' : q.reader.consumed ≤ s.reader.consumed := hqs.steps.onward.consumed
      exact Or.inr ⟨hcount, hqs.ahead_ne_eof (by omega) hne⟩
  · exact Or.inl (hps.left_lt hcount)

/-- Discards a token if none has been consumed since `begun`. -/
theorem left_discard_lt {β : Type} {begun : Nat} {rest : ParseM β} {env : Env} {p q r : Parser}
    {b : β} (he : env.Sound) (hadm : env.strategy.Admissible) (hv : q.Valid)
    (hrest : ∀ {s t : Parser}, s.Valid → rest env s = some (b, t) → t.left ≤ s.left)
    (hq : q.left < p.left ∨ q.reader.consumed = begun ∧ q.ahead ≠ .eof) (hle : q.left ≤ p.left)
    (hrun : (do if (← position) == begun then discard
                rest) env q = some (b, r)) : r.left < p.left := by
  obtain ⟨_, _, hp, hrun⟩ := bind_eq_some_iff.mp hrun
  cases hp
  split at hrun
  · obtain ⟨_, s, hd, hrun⟩ := bind_eq_some_iff.mp hrun
    have hl := (reads_discard.leads he hv hd).1
    refine Nat.lt_of_le_of_lt (hrest hl.valid hrun) ?_
    rcases hq with hlt | ⟨-, hne⟩
    · exact Nat.lt_of_le_of_lt hl.left_le hlt
    · exact Nat.lt_of_lt_of_le (begins_discard.goes he hadm hv hne hd trivial) hle
  · next hne =>
    refine Nat.lt_of_le_of_lt (hrest hv hrun) ?_
    exact hq.resolve_right fun h => hne (by rw [beq_iff_eq]; exact h.1)

theorem reads_moreItems {items : List Node} (hclose : close ≠ .comma)
    (hitem : Reads bound [] readItem .node) :
    Reads bound (items.map some) (moreItems context close item items readItem) .delimited := by
  refine Reads.loop .items (fun items _ => ?_) trivial rfl
  have h : Enters (fun _ => True) bound (items.map some)
      (do
        let begun ← position
        let separator ← listEnd context close item
        if separator.kind == .comma then
          let node ← readItem
          if (← position) == begun then discard
          return .inl (items ++ [separator, node])
        else return .inr (.list items, separator))
      (.turn .items .delimited) (fun _ => False) := by
    refine looks_position.meets fun begun => ?_
    refine (reads_listEnd context close item).bind fun separator hs => ?_
    split
    · have hrow (node : Node) :
          items.map some ++ [some separator] ++ [some node] =
            (Yield.turn .items .delimited).row (.inl (items ++ [separator, node])) := by
        simp [Yield.turn, Yield.items]
      refine hitem.bind fun node hn => ?_
      refine looks_position.meets fun ended => ?_
      split
      · exact reads_discard.bind fun _ _ =>
          Reads.pure trivial ((List.append_nil _).trans (hrow node))
      · exact Reads.pure trivial (hrow node)
    · exact Meets.pure ((Row.Becomes.group .list _ rfl).append_right _) ⟨⟨items, rfl⟩, hs⟩ id
  -- what is left is that a turn which goes on consumes or discards something
  refine ⟨h.leads, Meets.returns h, ?_,
    fun {_ _ _ r} _ _ _ _ hzero hmoves => (Free.turn.claimless hzero hmoves r).elim⟩
  intro env p t result he hadm hv _ hrun hmoves
  obtain ⟨_, _, hp, hrun⟩ := bind_eq_some_iff.mp hrun
  cases hp
  obtain ⟨separator, q, hsep, hrun⟩ := bind_eq_some_iff.mp hrun
  split at hrun
  · next hc =>
    obtain ⟨node, r, hnode, hrun⟩ := bind_eq_some_iff.mp hrun
    have hq := ((reads_listEnd context close item).leads he hv hsep).1
    have hr := (hitem.leads he hq.valid hnode).1
    refine left_discard_lt he hadm hr.valid ?_
      (moved_or_stalled_of_comma hclose he hadm (.refl hv []) hsep (beq_iff_eq.mp hc) hr)
      (Nat.le_trans hr.left_le hq.left_le) hrun
    intro s t hs hrest
    cases hrest
    exact Nat.le_refl _
  · cases hrun
    exact absurd hmoves Bool.false_ne_true

/-- The first item of a list, if it has one. -/
theorem reads_firstItem (hitem : Reads bound [] readItem .node) :
    Reads bound [] (firstItem item readItem) .items := by
  refine looks_nextKind.meets fun kind => ?_
  refine looks_get.meets fun _ => ?_
  split
  · exact Reads.pure trivial rfl
  · exact hitem.bind fun node _ => Reads.pure trivial rfl

theorem reads_delimitedAfter (items : List Node) (hclose : close ≠ .comma)
    (hitem : Reads bound [] readItem .node) :
    Reads bound (items.map some) (delimitedAfter items context close item readItem) .delimited := by
  refine Meets.within ?_
  split
  · exact reads_moreItems hclose hitem
  · next hempty =>
    have hnil : items = [] := by simpa using hempty
    subst hnil
    refine Meets.isNext ?_ ?_
    · refine reads_consumeNode.bind fun token ht => ?_
      exact Meets.pure ((Row.Becomes.group .list [] rfl).append_right _) ⟨⟨[], rfl⟩, ht⟩ id
    · refine (reads_firstItem hitem).bind fun first _ => ?_
      exact reads_moreItems hclose hitem

/-- A delimited list behind its opening delimiter. -/
theorem reads_delimited (hclose : close ≠ .comma) (hitem : Reads bound [] readItem .node) :
    Reads bound [] (delimited context close item readItem) .delimited :=
  reads_delimitedAfter [] hclose hitem

end Delimited

/-- Tokens as long as something holds of what comes next. -/
theorem reads_consumeWhile {more : ParseM Bool}
    (hmore : Looks more fun k b => b = true → k ≠ .eof) :
    Reads 0 [] (consumeWhile more) .items := by
  refine Reads.loop .items (fun items _ => ?_) trivial rfl
  refine hmore.meets fun b => ?_
  split
  · next hb =>
    refine begins_consumeNode.bindFrom (fun k hk => hk.2 hb) fun token _ => ?_
    exact Reads.pure trivial (by simp [Yield.turn, Yield.items, Yield.node])
  · exact Meets.pure (.refl _) trivial (by simp)

end ParseM

end TolerantSyntax
