import TolerantSyntax.Proofs.Parse.State

/-!
# What a step of the grammar comes to

`Meets` says of a step of the grammar what it makes of the pieces before it, that it returns, and
that it consumes something. The first holds whatever the strategy answers. The second needs rules
that return: those below a bound where nothing has been consumed, and all of them behind that. So a
step that begins with a token may go on with any rule, and one that does not only with lower ones.

Here are the statements and how they are put together: one lemma for each way in which steps are
combined. A rule of the grammar is then read from its first line to its last.
-/

namespace TolerantSyntax

/-! ## Bounds -/

/-- A bound that is at most another. For literals it is found as an instance. -/
class AtMost (b₀ bound : Nat) : Prop where
  le : b₀ ≤ bound

namespace AtMost

variable {b₀ bound : Nat}

instance zero : AtMost 0 bound :=
  ⟨Nat.zero_le bound⟩

instance refl : AtMost bound bound :=
  ⟨Nat.le_refl bound⟩

instance succ [h : AtMost b₀ bound] : AtMost (b₀ + 1) (bound + 1) :=
  ⟨Nat.succ_le_succ h.le⟩

end AtMost

/-- Nothing is claimed of when the strategy is asked: a step may refer to other rules first, or it
need not consume anything. -/
class Free {α : Type} (bound : Nat) (moves : α → Prop) : Prop where
  claimless : bound = 0 → (∀ a, moves a) → α → False

namespace Free

variable {α β : Type} {bound : Nat}

instance never : Free bound fun _ : α => False :=
  ⟨fun _ h a => h a⟩

instance turn [Nonempty β] : Free bound fun r : α ⊕ β => r.isLeft = true :=
  ⟨fun _ h _ => Nonempty.elim ‹_› fun b => Bool.false_ne_true (h (.inr b))⟩

end Free

/-! ## Statements -/

/-- What a step puts on the row of pieces, and what is said of it besides. -/
structure Yield (α : Type) where
  row : α → Row
  good : α → Prop

namespace Yield

/-- A node with a token. -/
def node : Yield Node := ⟨fun n => [some n], Node.HasToken⟩

/-- A node. -/
def piece : Yield Node := ⟨fun n => [some n], fun _ => True⟩

/-- The parts of a node with a token. -/
def parts : Yield Node := ⟨Node.slots, Node.HasToken⟩

/-- A part that may be left out. -/
def slot : Yield (Option Node) := ⟨fun part => [part], fun _ => True⟩

/-- A part that is there. -/
def present : Yield (Option Node) := ⟨fun part => [part], fun part => part.isSome = true⟩

/-- Two parts that may be left out. -/
def slots : Yield (Option Node × Option Node) := ⟨fun parts => [parts.1, parts.2], fun _ => True⟩

/-- Nodes in a row. -/
def items : Yield (List Node) := ⟨fun nodes => nodes.map some, fun _ => True⟩

/-- Nodes in a row, of which one has a token. -/
def chain : Yield (List Node) :=
  ⟨fun nodes => nodes.map some, fun nodes => ∃ node ∈ nodes, node.HasToken⟩

/-- No piece at all. -/
def nothing {α : Type} : Yield α := ⟨fun _ => [], fun _ => True⟩

/-- What a turn of a loop yields: a state to go on from, or the result. -/
def turn {α β : Type} (state : Yield α) (result : Yield β) : Yield (α ⊕ β) :=
  ⟨Sum.elim state.row result.row, Sum.elim state.good result.good⟩

end Yield

namespace ParseM

variable {α β γ : Type} {start start₀ : Kind → Prop} {bound b₀ : Nat} {given given' : Row}
  {y : Yield α} {z : Yield β} {moves : β → Prop} {limit : Option Nat}

/-- A step that is entered where `start` holds of the next token. It makes what it yields of the
pieces given. It returns if all rules below the bound do and less than the limit is ahead, and has
consumed something if `moves` holds of its result. If it refers to no rule before that, the strategy
is not asked before that either. -/
structure Meets (limit : Option Nat) (start : Kind → Prop) (bound : Nat) (given : Row)
    (m : ParseM α) (yield : Yield α) (moves : α → Prop) : Prop where
  leads : ∀ {env : Env} {before after : Parser} {a : α}, env.Sound → before.Valid →
    m env before = some (a, after) → before.Leads given after (yield.row a) ∧ yield.good a
  returns : ∀ {env : Env} {before : Parser}, env.Sound → before.Valid → start before.ahead →
    (∀ most ∈ limit, before.left < most) → env.Returns before.left bound → (m env before).isSome
  goes : ∀ {env : Env} {before after : Parser} {a : α}, env.Sound → env.strategy.Admissible →
    before.Valid → start before.ahead → m env before = some (a, after) → moves a →
    after.left < before.left
  heeds : ∀ {env : Env} {before after : Parser} {a : α}, env.Sound → before.Valid →
    start before.ahead → m env before = some (a, after) → bound = 0 → (∀ a, moves a) →
    before.Heeds after

/-- Steps have no limit, but for those that have a depth. -/
abbrev Enters (start : Kind → Prop) (bound : Nat) (given : Row) (m : ParseM α) (yield : Yield α)
    (moves : α → Prop) : Prop :=
  Meets none start bound given m yield moves

/-- A step that can be entered anywhere. -/
abbrev Reads (bound : Nat) (given : Row) (m : ParseM α) (yield : Yield α) : Prop :=
  Enters (fun _ => True) bound given m yield (fun _ => False)

/-- A step that consumes a token, if it is entered where `start` holds, before it refers to any
rule. -/
abbrev Begins (start : Kind → Prop) (given : Row) (m : ParseM α) (yield : Yield α) : Prop :=
  Enters start 0 given m yield (fun _ => True)

/-- A turn of a loop: it consumes something, unless it is the last one. -/
abbrev Turns (start : Kind → Prop) (bound : Nat) (given : Row) (m : ParseM (α ⊕ β))
    (state : Yield α) (result : Yield β) : Prop :=
  Enters start bound given m (.turn state result) (fun r => r.isLeft = true)

/-- A step that can be entered anywhere, and where `start` holds consumes a token before it refers
to any rule. -/
structure Opens (start : Kind → Prop) (bound : Nat) (given : Row) (m : ParseM α)
    (yield : Yield α) : Prop where
  reads : Reads bound given m yield
  begins : Begins start given m yield

/-- There is a next token. -/
abbrev HasNext (kind : Kind) : Prop := kind ≠ .eof

/-! ## Runs -/

/-- A step and what follows it have a result if both do, the second from where the first ends. -/
theorem bind_eq_some_iff {m : ParseM α} {f : α → ParseM β} {env : Env} {p r : Parser} {b : β} :
    (m >>= f) env p = some (b, r) ↔
      ∃ a q, m env p = some (a, q) ∧ f a env q = some (b, r) := by
  show (m env p).bind (fun s => f s.1 env s.2) = some (b, r) ↔ _
  rw [Option.bind_eq_some_iff, Prod.exists]

/-- A step goes on from what the step before it comes to. -/
theorem bind_of_eq_some {m : ParseM α} {f : α → ParseM β} {env : Env} {p q : Parser} {a : α}
    (h : m env p = some (a, q)) : (m >>= f) env p = f a env q := by
  show (m env p).bind (fun s => f s.1 env s.2) = _
  rw [h, Option.bind_some]

/-- A result that is changed was one before. -/
theorem map_eq_some_iff {m : ParseM α} {f : α → β} {env : Env} {p r : Parser} {b : β} :
    (f <$> m) env p = some (b, r) ↔ ∃ a, m env p = some (a, r) ∧ f a = b := by
  rw [map_eq_pure_bind, bind_eq_some_iff]
  constructor
  · rintro ⟨a, q, hma, hfa⟩
    cases hfa
    exact ⟨a, hma, rfl⟩
  · rintro ⟨a, hma, rfl⟩
    exact ⟨a, r, hma, rfl⟩

/-- A step returns if it does at first and then from wherever that ends. -/
theorem isSome_bind {m : ParseM α} {f : α → ParseM β} {env : Env} {p : Parser}
    (hm : (m env p).isSome) (hf : ∀ a q, m env p = some (a, q) → (f a env q).isSome) :
    ((m >>= f) env p).isSome := by
  obtain ⟨⟨a, q⟩, h⟩ := Option.isSome_iff_exists.mp hm
  obtain ⟨⟨b, r⟩, h'⟩ := Option.isSome_iff_exists.mp (hf a q h)
  rw [bind_eq_some_iff.mpr ⟨a, q, h, h'⟩]
  rfl

/-- Without a limit nothing is asked of how much is left. -/
theorem Enters.returns {m : ParseM α} {moves' : α → Prop} {env : Env} {before : Parser}
    (h : Enters start bound given m y moves') (he : env.Sound) (hv : before.Valid)
    (hstart : start before.ahead) (hr : env.Returns before.left bound) : (m env before).isSome :=
  Meets.returns h he hv hstart (fun _ hm => by cases hm) hr

/-! ## Weakening -/

namespace Meets

variable {m : ParseM α} {moves₀ moves' : α → Prop}

/-- A weaker bound, a stronger condition of entry and a weaker claim of progress. -/
theorem mono [hb : AtMost b₀ bound] (h : Meets limit start₀ b₀ given m y moves₀)
    (hs : ∀ k, start k → start₀ k) (hm : ∀ a, moves' a → moves₀ a) :
    Meets limit start bound given m y moves' where
  leads := h.leads
  returns he hv hstart hlim hr :=
    h.returns he hv (hs _ hstart) hlim (hr.mono (Nat.le_refl _) hb.le)
  goes he ha hv hstart hrun hmoves := h.goes he ha hv (hs _ hstart) hrun (hm _ hmoves)
  heeds he hv hstart hrun hzero hmoves :=
    h.heeds he hv (hs _ hstart) hrun (Nat.eq_zero_of_le_zero (hzero ▸ hb.le))
      fun a => hm a (hmoves a)

/-- A step that is entered at fewer tokens. -/
theorem narrow (h : Meets limit start₀ bound given m y moves') (hs : ∀ k, start k → start₀ k) :
    Meets limit start bound given m y moves' :=
  h.mono hs fun _ h => h

/-- Nothing has to be said of a step where it is never entered, except what it makes. -/
theorem unreachable (h : Reads Rule.maxRank given m y) (hs : ∀ k, ¬start k) :
    Enters start bound given m y moves' where
  leads := h.leads
  returns _ _ hstart _ _ := absurd hstart (hs _)
  goes _ _ _ hstart _ _ := absurd hstart (hs _)
  heeds _ _ hstart _ _ _ := absurd hstart (hs _)

/-- A step is below any limit. -/
theorem upTo (h : Enters start bound given m y moves') (limit : Option Nat) :
    Meets limit start bound given m y moves' where
  leads := h.leads
  returns he hv hstart _ hr := h.returns he hv hstart hr
  goes := h.goes
  heeds := h.heeds

/-- What the pieces become first is what the step is given. -/
theorem before (hb : given.Becomes given') (h : Meets limit start bound given' m y moves') :
    Meets limit start bound given m y moves' where
  leads he hv hrun := by
    obtain ⟨hl, hg⟩ := h.leads he hv hrun
    exact ⟨{ hl with steps := (Front.Steps.refl.become hb).trans hl.steps }, hg⟩
  returns := h.returns
  goes := h.goes
  heeds := h.heeds

/-- What the step yields may be regrouped behind it. -/
theorem after {y' : Yield α} (h : Meets limit start bound given m y moves')
    (hy : ∀ a, y.good a → (y.row a).Becomes (y'.row a) ∧ y'.good a) :
    Meets limit start bound given m y' moves' where
  leads he hv hrun := by
    obtain ⟨hl, hg⟩ := h.leads he hv hrun
    obtain ⟨hb, hg'⟩ := hy _ hg
    exact ⟨hl.become hb, hg'⟩
  returns := h.returns
  goes := h.goes
  heeds := h.heeds

/-- A node with a token is a node. -/
theorem piece {m : ParseM Node} {moves' : Node → Prop}
    (h : Enters start bound given m .node moves') :
    Enters start bound given m .piece moves' :=
  h.after fun _ _ => ⟨.refl _, trivial⟩

end Meets

/-- A step that can be entered anywhere can be entered where something holds. -/
theorem Reads.weaken {m : ParseM α} [AtMost b₀ bound] (h : Reads b₀ given m y) :
    Meets limit start bound given m y (fun _ => False) :=
  (Meets.upTo h limit).mono (fun _ _ => trivial) fun _ hf => hf

/-- A step that consumes something first fits any bound and any limit. -/
theorem Begins.weaken {m : ParseM α} {moves : α → Prop} (h : Begins start₀ given m y)
    (hs : ∀ k, start k → start₀ k) :
    Meets limit start bound given m y moves :=
  (Meets.upTo h limit).mono hs fun _ _ => trivial

/-! ## One step after another -/

/-- A step that makes something of the last pieces, and what follows it. -/
theorem Meets.bindOn {m : ParseM α} {f : α → ParseM β} {moves₀ : α → Prop}
    [hfree : Free bound moves] (pre : Row)
    (hm : Meets limit start₀ b₀ given m y moves₀)
    (hf : ∀ a, y.good a → Meets limit (fun _ => True) bound (pre ++ y.row a) (f a) z moves)
    (hs : ∀ k, start k → start₀ k) (hb : b₀ ≤ bound) :
    Meets limit start bound (pre ++ given) (m >>= f) z moves where
  leads he hv hrun := by
    obtain ⟨a, q, hma, hfa⟩ := bind_eq_some_iff.mp hrun
    obtain ⟨hl, hg⟩ := hm.leads he hv hma
    obtain ⟨hl', hg'⟩ := (hf a hg).leads he hl.valid hfa
    exact ⟨(hl.frame pre).trans hl', hg'⟩
  returns he hv hstart hlim hr := by
    refine isSome_bind (hm.returns he hv (hs _ hstart) hlim (hr.mono (Nat.le_refl _) hb)) ?_
    intro a q hma
    obtain ⟨hl, hg⟩ := hm.leads he hv hma
    exact (hf a hg).returns he hl.valid trivial
      (fun most hm => Nat.lt_of_le_of_lt hl.left_le (hlim most hm))
      (hr.mono hl.left_le (Nat.le_refl _))
  goes he hadm hv hstart hrun hmoves := by
    obtain ⟨a, q, hma, hfa⟩ := bind_eq_some_iff.mp hrun
    obtain ⟨hl, hg⟩ := hm.leads he hv hma
    exact Nat.lt_of_lt_of_le ((hf a hg).goes he hadm hl.valid trivial hfa hmoves) hl.left_le
  heeds {_ _ _ b} _ _ _ _ hzero hmoves := (hfree.claimless hzero hmoves b).elim

/-- A step that consumes something of its own, and what follows it, which may be any rule and has
less ahead. -/
theorem Begins.bindUpTo {m : ParseM α} {f : α → ParseM β} {less : Option Nat} (pre : Row)
    (hm : Begins start₀ given m y)
    (hf : ∀ a, y.good a →
      Meets less (fun _ => True) Rule.maxRank (pre ++ y.row a) (f a) z (fun _ => False))
    (hs : ∀ k, start k → start₀ k) (hless : ∀ most ∈ less, ∃ n ∈ limit, n ≤ most + 1) :
    Meets limit start bound (pre ++ given) (m >>= f) z moves where
  leads he hv hrun := by
    obtain ⟨a, q, hma, hfa⟩ := bind_eq_some_iff.mp hrun
    obtain ⟨hl, hg⟩ := hm.leads he hv hma
    obtain ⟨hl', hg'⟩ := (hf a hg).leads he hl.valid hfa
    exact ⟨(hl.frame pre).trans hl', hg'⟩
  returns he hv hstart hlim hr := by
    refine isSome_bind (hm.returns he hv (hs _ hstart) (hr.mono (Nat.le_refl _) (Nat.zero_le _))) ?_
    intro a q hma
    obtain ⟨hl, hg⟩ := hm.leads he hv hma
    have hlt := hm.goes he hr.admissible hv (hs _ hstart) hma trivial
    -- a token has been consumed, so what follows may be of any rank
    refine (hf a hg).returns he hl.valid trivial (fun most hmost => ?_) (hr.further hlt _)
    obtain ⟨n, hn, hle⟩ := hless most hmost
    have hn := hlim n hn
    omega
  goes he hadm hv hstart hrun _ := by
    obtain ⟨a, q, hma, hfa⟩ := bind_eq_some_iff.mp hrun
    obtain ⟨hl, hg⟩ := hm.leads he hv hma
    have hlt := hm.goes he hadm hv (hs _ hstart) hma trivial
    exact Nat.lt_of_le_of_lt ((hf a hg).leads he hl.valid hfa).1.left_le hlt
  heeds he hv hstart hrun _ _ := by
    obtain ⟨a, q, hma, hfa⟩ := bind_eq_some_iff.mp hrun
    obtain ⟨hl, hg⟩ := hm.leads he hv hma
    have hq := hm.heeds he hv (hs _ hstart) hma rfl fun _ => trivial
    exact ((hf a hg).leads he hl.valid hfa).1.heeds hq

/-- Behind a token, rules of all ranks may follow. -/
theorem Begins.bindOn {m : ParseM α} {f : α → ParseM β} (pre : Row)
    (hm : Begins start₀ given m y)
    (hf : ∀ a, y.good a → Reads Rule.maxRank (pre ++ y.row a) (f a) z)
    (hs : ∀ k, start k → start₀ k) :
    Meets limit start bound (pre ++ given) (m >>= f) z moves :=
  Begins.bindUpTo pre hm hf hs fun _ hm => by cases hm

/-- Where nothing need have been consumed, the second step keeps within the bound too. -/
theorem Reads.bindOn {m : ParseM α} {f : α → ParseM β} [hb : AtMost b₀ bound]
    [Free bound moves] (pre : Row)
    (hm : Reads b₀ given m y) (hrow : given' = pre ++ given)
    (hf : ∀ a, y.good a → Meets limit (fun _ => True) bound (pre ++ y.row a) (f a) z moves) :
    Meets limit start bound given' (m >>= f) z moves :=
  hrow ▸ Meets.bindOn pre (hm.upTo limit) hf (fun _ _ => trivial) hb.le

/-- A step that reads pieces of its own, and what follows it. -/
theorem Reads.bind {m : ParseM α} {f : α → ParseM β} [hb : AtMost b₀ bound] [Free bound moves]
    (hm : Reads b₀ [] m y)
    (hf : ∀ a, y.good a → Meets limit (fun _ => True) bound (given ++ y.row a) (f a) z moves) :
    Meets limit start bound given (m >>= f) z moves :=
  hm.bindOn given (List.append_nil given).symm hf

/-- A step that is entered where it consumes something, and what follows it. -/
theorem Begins.bindFrom {m : ParseM α} {f : α → ParseM β} (hm : Begins start₀ [] m y)
    (hs : ∀ k, start k → start₀ k)
    (hf : ∀ a, y.good a → Reads Rule.maxRank (given ++ y.row a) (f a) z) :
    Meets limit start bound given (m >>= f) z moves := by
  have h : Meets limit start bound (given ++ []) (m >>= f) z moves :=
    Begins.bindOn given hm hf hs
  rwa [List.append_nil] at h

/-- The same where the first step makes nothing of the pieces before it. -/
theorem Begins.bind {m : ParseM α} {f : α → ParseM β} (hm : Begins start [] m y)
    (hf : ∀ a, y.good a → Reads Rule.maxRank (given ++ y.row a) (f a) z) :
    Meets limit start bound given (m >>= f) z moves :=
  hm.bindFrom (fun _ h => h) hf

/-- Behind a step that consumes something the limit is lower. -/
theorem Begins.bindLess {m : ParseM α} {f : α → ParseM β} {limit : Nat}
    (hm : Begins start₀ [] m y) (hs : ∀ k, start k → start₀ k)
    (hf : ∀ a, y.good a → Meets (some (limit - 1)) (fun _ => True) Rule.maxRank
      (given ++ y.row a) (f a) z (fun _ => False)) :
    Meets (some limit) start bound given (m >>= f) z moves := by
  have h : Meets (some limit) start bound (given ++ []) (m >>= f) z moves := by
    refine Begins.bindUpTo given hm hf hs fun most hmost => ⟨limit, rfl, ?_⟩
    cases hmost
    omega
  rwa [List.append_nil] at h

/-- A step that is entered where something holds of the next token, and what follows it. -/
theorem Meets.bind {m : ParseM α} {f : α → ParseM β} {moves₀ : α → Prop} [hb : AtMost b₀ bound]
    [Free bound moves]
    (hm : Meets limit start b₀ [] m y moves₀)
    (hf : ∀ a, y.good a → Meets limit (fun _ => True) bound (given ++ y.row a) (f a) z moves) :
    Meets limit start bound given (m >>= f) z moves := by
  have h : Meets limit start bound (given ++ []) (m >>= f) z moves :=
    Meets.bindOn given hm hf (fun _ h => h) hb.le
  rwa [List.append_nil] at h

/-- A step that can be entered anywhere and begins with a token, and what follows it. -/
theorem Opens.bind {m : ParseM α} {f : α → ParseM β} [AtMost bound Rule.maxRank]
    (hm : Opens start 0 [] m y) (hf : ∀ a, y.good a → Reads bound (given ++ y.row a) (f a) z) :
    Opens start bound given (m >>= f) z where
  reads := hm.reads.bind hf
  begins := hm.begins.bind fun a ha => (hf a ha).weaken

/-! ## Ends -/

/-- A result that is put together from the pieces given. -/
theorem Meets.pure {a : α} {moves' : α → Prop} (hb : given.Becomes (y.row a)) (hg : y.good a)
    (hm : ¬moves' a) : Meets limit start bound given (pure a) y moves' where
  leads _ hv hrun := by
    cases hrun
    exact ⟨(Parser.Leads.refl hv given).become hb, hg⟩
  returns _ _ _ _ _ := rfl
  goes _ _ _ _ hrun hmoves := by
    cases hrun
    exact absurd hmoves hm
  heeds _ _ _ _ _ hmoves := absurd (hmoves a) hm

/-- The pieces as they stand are the result. -/
theorem Reads.pure {a : α} (hg : y.good a) (hrow : given = y.row a) :
    Meets limit start bound given (pure a) y (fun _ => False) :=
  Meets.pure (hrow ▸ .refl _) hg id

/-- A node is made of all pieces. -/
theorem Reads.ofSlots {kind : Kind} {row : Row} {node : Node} (hn : node.HasToken)
    (hm : some node ∈ row) (hrow : given = row) (ha : kind.composes row = true) :
    Enters start bound given (Pure.pure (Node.ofSlots kind row)) .node (fun _ => False) :=
  Meets.pure (hrow ▸ .group kind row ha) (Node.hasToken_composite hm hn) id

/-- A node is made of the pieces given, of which one has a token. -/
theorem Reads.of {kind : Kind} {parts : List Node} {node : Node} (hn : node.HasToken)
    (hm : node ∈ parts) (hrow : given = parts.map some)
    (ha : kind.composes (parts.map some) = true) :
    Enters start bound given (Pure.pure (Node.of kind parts)) .node (fun _ => False) :=
  Reads.ofSlots hn (List.mem_map_of_mem hm) hrow ha

/-- The result of a step, changed. -/
theorem Meets.map {m : ParseM α} {f : α → β} {moves₀ : α → Prop}
    (h : Enters start bound given m y moves₀)
    (hf : ∀ a, y.good a → (y.row a).Becomes (z.row (f a)) ∧ z.good (f a))
    (hm : ∀ a, moves (f a) → moves₀ a) : Enters start bound given (f <$> m) z moves := by
  rw [map_eq_pure_bind]
  refine ⟨?_, ?_, ?_, ?_⟩
  · intro env p q b he hv hrun
    obtain ⟨a, r, hma, hfa⟩ := bind_eq_some_iff.mp hrun
    cases hfa
    obtain ⟨hl, hg⟩ := h.leads he hv hma
    exact ⟨hl.become (hf a hg).1, (hf a hg).2⟩
  · intro env p he hv hstart _ hr
    exact isSome_bind (h.returns he hv hstart hr) fun _ _ _ => rfl
  · intro env p q b he hadm hv hstart hrun hmoves
    obtain ⟨a, r, hma, hfa⟩ := bind_eq_some_iff.mp hrun
    cases hfa
    exact h.goes he hadm hv hstart hma (hm a hmoves)
  · intro env p q b he hv hstart hrun hzero hmoves
    obtain ⟨a, r, hma, hfa⟩ := bind_eq_some_iff.mp hrun
    cases hfa
    exact h.heeds he hv hstart hma hzero fun a => hm a (hmoves (f a))

/-- A part that is not left out. -/
theorem Reads.part {m : ParseM Node} (h : Reads bound given m .node) :
    Reads bound given (some <$> m) .slot :=
  Meets.map h (fun _ _ => ⟨.refl _, trivial⟩) fun _ hf => hf

/-- A part that is there. -/
theorem Reads.present {m : ParseM Node} (h : Reads bound given m .node) :
    Reads bound given (some <$> m) .present :=
  Meets.map h (fun _ _ => ⟨.refl _, rfl⟩) fun _ hf => hf

/-- A part that begins with a token of its own. -/
theorem Begins.part {m : ParseM Node} (h : Begins start given m .node) :
    Begins start given (some <$> m) .slot :=
  Meets.map h (fun _ _ => ⟨.refl _, trivial⟩) fun _ _ => trivial

/-- A part that is left out. -/
theorem Reads.noPart : Reads 0 [] (Pure.pure none) .slot :=
  Meets.pure .gap trivial id

/-- Two parts that are left out. -/
theorem Reads.noParts : Reads 0 [] (Pure.pure (none, none)) .slots :=
  Meets.pure (Row.Becomes.gap.append .gap) trivial id

/-! ## Looking ahead -/

/-- Two states that differ in what has been looked at and asked, and in nothing else. -/
structure Same (before after : Parser) : Prop where
  valid : after.Valid
  place : after.reader.place = before.reader.place
  pending : after.pending = before.pending
  lastEnd : after.lastEnd = before.lastEnd
  consumed : after.reader.consumed = before.reader.consumed
  contexts : after.contexts = before.contexts
  modes : after.reader.modes = before.reader.modes
  asked : Parser.AskedFrom before.reader.consumed before after

namespace Same

variable {p q r : Parser}

theorem refl (h : p.Valid) : Same p p :=
  ⟨h, rfl, rfl, rfl, rfl, rfl, rfl, .of_eq rfl⟩

theorem trans (h : Same p q) (h' : Same q r) : Same p r :=
  ⟨h'.valid, h'.place.trans h.place, h'.pending.trans h.pending, h'.lastEnd.trans h.lastEnd,
    h'.consumed.trans h.consumed, h'.contexts.trans h.contexts, h'.modes.trans h.modes,
    h.asked.trans (h'.asked.mono (Nat.le_of_eq h.consumed.symm))⟩

/-- What has been read is the same, and so is what is left. -/
theorem front (h : Same p q) : q.front = p.front := by
  simp only [Parser.front, h.place, h.pending, h.lastEnd, h.consumed]

theorem ahead (h : Same p q) : q.ahead = p.ahead := by
  rw [Parser.ahead, h.place, Parser.ahead]

theorem left (h : Same p q) : q.left = p.left := by
  rw [Parser.left, h.front, Parser.left]

/-- The row stays as it is. -/
theorem leads (h : Same p q) (xs : Row) : p.Leads xs q xs :=
  ⟨h.valid, congrArg List.tail h.contexts, h.modes, by rw [h.front]; exact .refl, h.asked⟩

/-- Nothing has changed before a step that heeds the next token, nor has the strategy been asked. -/
theorem heeds (h : Same p q) (ha : q.consulted = p.consulted) (hq : q.Heeds r) : p.Heeds r := by
  refine ⟨h.consumed ▸ hq.consumed, ?_⟩
  obtain ⟨asked, heq, hc⟩ := hq.asked
  exact ⟨asked, by rw [heq, ha], h.consumed ▸ hc⟩

end Same

/-- A step that only looks, and what its answer says about the kind of the next token. The strategy
is not asked. -/
structure Looks (m : ParseM α) (info : Kind → α → Prop) : Prop where
  look : ∀ (env : Env) {p : Parser}, p.Valid →
    ∃ a q, m env p = some (a, q) ∧ Same p q ∧ info p.ahead a
  silent : ∀ {env : Env} {p q : Parser} {a : α}, m env p = some (a, q) →
    q.consulted = p.consulted

namespace Looks

variable {m : ParseM α} {f : α → ParseM β} {info : Kind → α → Prop} {info' : Kind → β → Prop}

theorem pure {a : α} (h : ∀ k, info k a) : Looks (Pure.pure a) info :=
  ⟨fun _ _ hv => ⟨a, _, rfl, .refl hv, h _⟩, fun hrun => by cases hrun; rfl⟩

/-- What has been learned before is known behind it. -/
theorem bind (hm : Looks m info) (hf : ∀ a, Looks (f a) fun k b => info k a → info' k b) :
    Looks (m >>= f) info' := by
  refine ⟨fun env p hv => ?_, fun hrun => ?_⟩
  · obtain ⟨a, q, hma, hs, hi⟩ := hm.look env hv
    obtain ⟨b, r, hfb, hs', hi'⟩ := (hf a).look env hs.valid
    rw [hs.ahead] at hi'
    exact ⟨b, r, bind_eq_some_iff.mpr ⟨a, q, hma, hfb⟩, hs.trans hs', hi' hi⟩
  · obtain ⟨a, q, hma, hfb⟩ := bind_eq_some_iff.mp hrun
    exact ((hf a).silent hfb).trans (hm.silent hma)

/-- Less may be learned. -/
theorem weaken {info₀ : Kind → α → Prop} (hm : Looks m info₀) (h : ∀ k a, info₀ k a → info k a) :
    Looks m info := by
  refine ⟨fun env p hv => ?_, hm.silent⟩
  obtain ⟨a, q, hma, hs, hi⟩ := hm.look env hv
  exact ⟨a, q, hma, hs, h _ _ hi⟩

/-- Looks of which nothing is said. -/
theorem andThen (hm : Looks m info) (hf : ∀ a, Looks (f a) fun _ _ => True) :
    Looks (m >>= f) fun _ _ => True :=
  hm.bind fun a => (hf a).weaken fun _ _ _ _ => trivial

/-- A run that begins with a look goes on from a state that is the same. -/
theorem exists_of_bind (hm : Looks m info) {env : Env} {p r : Parser} {b : β} (hv : p.Valid)
    (hrun : (m >>= f) env p = some (b, r)) :
    ∃ a q, m env p = some (a, q) ∧ Same p q ∧ info p.ahead a ∧ f a env q = some (b, r) := by
  obtain ⟨a, q, hma, hfa⟩ := bind_eq_some_iff.mp hrun
  obtain ⟨_, _, hlook, hs, hi⟩ := hm.look env hv
  cases hma.symm.trans hlook
  exact ⟨a, q, hma, hs, hi, hfa⟩

/-- A look always returns, so what follows it decides whether the whole does. -/
theorem isSome_bind (hm : Looks m info) {env : Env} {p : Parser} (hv : p.Valid)
    (hf : ∀ a q, Same p q → info p.ahead a → (f a env q).isSome) : ((m >>= f) env p).isSome := by
  obtain ⟨a, q, hma, hs, hi⟩ := hm.look env hv
  refine ParseM.isSome_bind (Option.isSome_of_eq_some hma) fun a' q' hma' => ?_
  cases hma.symm.trans hma'
  exact hf a q hs hi

/-- After a look the next token is the one that was looked at, and what the look `finds` of the
tokens ahead can be used to see what is made of the pieces. -/
theorem meetsKnowing {finds : α → Parser → Prop} (hm : Looks m info)
    (hfinds : ∀ {env : Env} {p q : Parser} {a : α}, p.Valid → m env p = some (a, q) → finds a q)
    (hf : ∀ a, ∃ y : Yield β,
      Meets limit (fun k => start k ∧ info k a) bound given (f a) y moves ∧
      ∀ {env : Env} {p q : Parser} {b : β}, p.Valid → finds a p → f a env p = some (b, q) →
        y.good b → (y.row b).Becomes (z.row b) ∧ z.good b) :
    Meets limit start bound given (m >>= f) z moves where
  leads {env before after b} he hv hrun := by
    obtain ⟨a, q, hma, hs, -, hfa⟩ := hm.exists_of_bind hv hrun
    obtain ⟨y, hmeets, hknown⟩ := hf a
    obtain ⟨hl, hg⟩ := hmeets.leads he hs.valid hfa
    obtain ⟨hb, hg'⟩ := hknown hs.valid (hfinds hv hma) hfa hg
    exact ⟨((hs.leads given).trans hl).become hb, hg'⟩
  returns {env before} he hv hstart hlim hr := by
    refine hm.isSome_bind hv fun a q hs hi => ?_
    obtain ⟨y, hmeets, -⟩ := hf a
    refine hmeets.returns he hs.valid (by rw [hs.ahead]; exact ⟨hstart, hi⟩) (by rwa [hs.left]) ?_
    exact hr.mono (Nat.le_of_eq hs.left) (Nat.le_refl _)
  goes {env before after b} he hadm hv hstart hrun hmoves := by
    obtain ⟨a, q, -, hs, hi, hfa⟩ := hm.exists_of_bind hv hrun
    obtain ⟨y, hmeets, -⟩ := hf a
    rw [← hs.left]
    exact hmeets.goes he hadm hs.valid (by rw [hs.ahead]; exact ⟨hstart, hi⟩) hfa hmoves
  heeds {env before after b} he hv hstart hrun hzero hmoves := by
    obtain ⟨a, q, hma, hs, hi, hfa⟩ := hm.exists_of_bind hv hrun
    obtain ⟨y, hmeets, -⟩ := hf a
    have hstart' : start q.ahead ∧ info q.ahead a := by
      rw [hs.ahead]
      exact ⟨hstart, hi⟩
    exact hs.heeds (hm.silent hma) (hmeets.heeds he hs.valid hstart' hfa hzero hmoves)

/-- After a look the next token is the one that was looked at. -/
theorem meets (hm : Looks m info)
    (hf : ∀ a, Meets limit (fun k => start k ∧ info k a) bound given (f a) z moves) :
    Meets limit start bound given (m >>= f) z moves := by
  have hnothing {env : Env} {p q : Parser} {a : α} (_ : p.Valid) (_ : m env p = some (a, q)) :
      (fun (_ : α) (_ : Parser) => True) a q := trivial
  exact hm.meetsKnowing hnothing fun a => ⟨z, hf a, fun _ _ _ hg => ⟨.refl _, hg⟩⟩

/-- A look that decides between two steps. -/
theorem ite {m : ParseM Bool} {info : Kind → Bool → Prop} {whenTrue whenFalse : ParseM β}
    (hm : Looks m info)
    (ht : Meets limit (fun k => start k ∧ info k true) bound given whenTrue z moves)
    (hf : Meets limit (fun k => start k ∧ info k false) bound given whenFalse z moves) :
    Meets limit start bound given
      (m >>= fun b => if b = true then whenTrue else whenFalse) z moves := by
  refine hm.meets fun b => ?_
  cases b with
  | true => exact ht
  | false => exact hf

end Looks

/-! ## Contexts and modes -/

/-- A step within a rule runs with the rule put on the stack, which is taken off again. -/
theorem within_eq_some_iff {m : ParseM α} {context : Context} {env : Env} {p r : Parser} {a : α} :
    within context m env p = some (a, r) ↔
      ∃ q, m env { p with contexts := context :: p.contexts } = some (a, q) ∧
        { q with contexts := q.contexts.tail } = r := by
  constructor
  · intro h
    obtain ⟨_, p', hp, h⟩ := bind_eq_some_iff.mp h
    cases hp
    obtain ⟨b, q, hm, h⟩ := bind_eq_some_iff.mp h
    obtain ⟨_, q', hq, h⟩ := bind_eq_some_iff.mp h
    cases hq
    cases h
    exact ⟨q, hm, rfl⟩
  · rintro ⟨q, hm, rfl⟩
    exact bind_eq_some_iff.mpr ⟨(), _, rfl, bind_eq_some_iff.mpr ⟨a, q, hm, rfl⟩⟩

/-- Nothing of what is said of a step depends on the rules in progress. -/
theorem Meets.within {m : ParseM α} {moves' : α → Prop} {context : Context}
    (h : Meets limit start bound given m y moves') :
    Meets limit start bound given (within context m) y moves' where
  leads {env before after a} he hv hrun := by
    obtain ⟨q, hm, rfl⟩ := within_eq_some_iff.mp hrun
    have hv' : Parser.Valid { before with contexts := context :: before.contexts } := hv
    obtain ⟨hl, hg⟩ := h.leads he hv' hm
    refine ⟨⟨hl.valid, ?_, hl.modes, hl.steps, hl.asked⟩, hg⟩
    show q.contexts.tail.tail = before.contexts.tail
    rw [hl.contexts, List.tail_cons]
  returns {env before} he hv hstart hlim hr := by
    have hv' : Parser.Valid { before with contexts := context :: before.contexts } := hv
    obtain ⟨⟨a, q⟩, hm⟩ := Option.isSome_iff_exists.mp (h.returns he hv' hstart hlim hr)
    rw [within_eq_some_iff.mpr ⟨q, hm, rfl⟩]
    rfl
  goes {env before after a} he hadm hv hstart hrun hmoves := by
    obtain ⟨q, hm, rfl⟩ := within_eq_some_iff.mp hrun
    have hv' : Parser.Valid { before with contexts := context :: before.contexts } := hv
    have hlt := h.goes he hadm hv' hstart hm hmoves
    exact hlt
  heeds {env before after a} he hv hstart hrun hzero hmoves := by
    obtain ⟨q, hm, rfl⟩ := within_eq_some_iff.mp hrun
    have hv' : Parser.Valid { before with contexts := context :: before.contexts } := hv
    have hq := h.heeds he hv' hstart hm hzero hmoves
    exact ⟨hq.consumed, hq.asked⟩

theorem Opens.within {m : ParseM α} {context : Context} (h : Opens start bound given m y) :
    Opens start bound given (ParseM.within context m) y :=
  ⟨h.reads.within, h.begins.within⟩

/-- A step in a mode runs in it, and the mode before is in force again behind it. -/
theorem withMode_eq_some_iff {m : ParseM α} {mode : LexerMode} {env : Env} {p r : Parser} {a : α} :
    withMode mode m env p = some (a, r) ↔
      ∃ q, m env { p with reader := p.reader.startMode mode } = some (a, q) ∧
        { q with reader := q.reader.endMode } = r := by
  constructor
  · intro h
    obtain ⟨_, p', hp, h⟩ := bind_eq_some_iff.mp h
    cases hp
    obtain ⟨b, q, hm, h⟩ := bind_eq_some_iff.mp h
    obtain ⟨_, q', hq, h⟩ := bind_eq_some_iff.mp h
    cases hq
    cases h
    exact ⟨q, hm, rfl⟩
  · rintro ⟨q, hm, rfl⟩
    exact bind_eq_some_iff.mpr ⟨(), _, rfl, bind_eq_some_iff.mpr ⟨a, q, hm, rfl⟩⟩

/-- A mode that begins or ends leaves the front where it is. -/
theorem front_of_isAt {p : Parser} {reader : TokenReader} {mode : LexerMode}
    (h : reader.IsAt { p.reader.place with mode }) (hc : reader.consumed = p.reader.consumed) :
    Parser.front { p with reader } = p.front := by
  simp only [Parser.front, h.place_eq, hc]

/-- What follows may be tokens of other kinds, but no others are lost. -/
theorem Reads.withMode {m : ParseM α} {mode : LexerMode} (h : Reads bound given m y) :
    Reads bound given (withMode mode m) y where
  leads {env before after a} he hv hrun := by
    obtain ⟨q, hm, rfl⟩ := withMode_eq_some_iff.mp hrun
    -- what has been looked at is scanned again, but from the same place
    have hat := TokenReader.IsAt.startMode hv mode
    have hv' : Parser.Valid { before with reader := before.reader.startMode mode } := hat.toValid
    have hf := front_of_isAt hat (TokenReader.consumed_relex _)
    obtain ⟨hl, hg⟩ := h.leads he hv' hm
    have hend := TokenReader.IsAt.endMode hl.valid
    have hf' := front_of_isAt hend (TokenReader.consumed_relex _)
    refine ⟨⟨hend.toValid, hl.contexts, ?_, ?_, ?_⟩, hg⟩
    · show q.reader.endMode.modes = before.reader.modes
      rw [TokenReader.modes_endMode, hl.modes, TokenReader.modes_startMode, List.tail_cons]
    · rw [hf', ← hf]
      exact hl.steps
    · have hc : (before.reader.startMode mode).consumed = before.reader.consumed :=
        TokenReader.consumed_relex _
      exact hl.asked.mono (Nat.le_of_eq hc.symm)
  returns {env before} he hv _ _ hr := by
    have hat := TokenReader.IsAt.startMode hv mode
    have hv' : Parser.Valid { before with reader := before.reader.startMode mode } := hat.toValid
    have hf := front_of_isAt hat (TokenReader.consumed_relex _)
    have hr' : env.Returns (Parser.left { before with reader := before.reader.startMode mode })
        bound := by
      rw [Parser.left, hf]
      exact hr
    obtain ⟨⟨a, q⟩, hm⟩ := Option.isSome_iff_exists.mp (h.returns he hv' trivial hr')
    rw [withMode_eq_some_iff.mpr ⟨q, hm, rfl⟩]
    rfl
  goes _ _ _ _ _ hmoves := hmoves.elim
  heeds {_ _ _ a} _ _ _ _ _ hmoves := (hmoves a).elim

/-! ## Loops -/

/-- By induction on the turns that are left: what each turn does to the row, the loop does. -/
theorem leads_repeatUpTo {step : α → ParseM (α ⊕ β)} {state : Yield α} {env : Env}
    (hstep : ∀ a, state.good a → ∀ {p q r}, p.Valid → step a env p = some (r, q) →
      p.Leads (state.row a) q ((Yield.turn state z).row r) ∧ (Yield.turn state z).good r)
    (fuel : Nat) {a : α} (ha : state.good a) {p q : Parser} {b : β} (hv : p.Valid)
    (hrun : repeatUpTo step fuel a env p = some (b, q)) :
    p.Leads (state.row a) q (z.row b) ∧ z.good b := by
  induction fuel generalizing a p with
  | zero => cases hrun
  | succ fuel ih =>
    obtain ⟨r, p', hs, hrun⟩ := bind_eq_some_iff.mp hrun
    obtain ⟨hl, hg⟩ := hstep a ha hv hs
    cases r with
    | inl next =>
      obtain ⟨hl', hg'⟩ := ih hg hl.valid hrun
      exact ⟨hl.trans hl', hg'⟩
    | inr result =>
      cases hrun
      exact ⟨hl, hg⟩

/-- A loop has turns enough where each of them consumes something. -/
theorem isSome_repeatUpTo {step : α → ParseM (α ⊕ β)} {state : Yield α} {env : Env}
    (he : env.Sound)
    (hstep : ∀ a, state.good a → Meets limit (fun _ => True) bound (state.row a) (step a)
      (.turn state z) (fun r => r.isLeft = true))
    (fuel : Nat) {a : α} (ha : state.good a) {p : Parser} (hv : p.Valid)
    (hlim : ∀ most ∈ limit, p.left < most) (hr : env.Returns p.left bound) (hfuel : p.left < fuel) :
    (repeatUpTo step fuel a env p).isSome := by
  induction fuel generalizing a p with
  | zero => exact absurd hfuel (Nat.not_lt_zero _)
  | succ fuel ih =>
    refine isSome_bind ((hstep a ha).returns he hv trivial hlim hr) ?_
    intro r q hs
    obtain ⟨hl, hg⟩ := (hstep a ha).leads he hv hs
    cases r with
    | inl next =>
      have hlt := (hstep a ha).goes he hr.admissible hv trivial hs rfl
      have hlim' (most : Nat) (hm : most ∈ limit) := Nat.lt_of_le_of_lt hl.left_le (hlim most hm)
      exact ih hg hl.valid hlim' (hr.mono hl.left_le (Nat.le_refl _)) (by omega)
    | inr result => rfl

/-- A loop, by what its state has on the row. -/
theorem Reads.loop {step : α → ParseM (α ⊕ β)} (state : Yield α) {a : α}
    (hstep : ∀ a, state.good a → Meets limit (fun _ => True) bound (state.row a) (step a)
      (.turn state z) (fun r => r.isLeft = true))
    (ha : state.good a) (hrow : given = state.row a) :
    Meets limit start bound given (loop a step) z (fun _ => False) where
  leads he hv hrun := by
    obtain ⟨env', p, hp, hrun⟩ := bind_eq_some_iff.mp hrun
    cases hp
    rw [hrow]
    exact leads_repeatUpTo (fun a ha _ _ _ hv hs => (hstep a ha).leads he hv hs) _ ha hv hrun
  returns {env before} he hv _ hlim hr := by
    refine isSome_bind rfl fun env' p hp => ?_
    cases hp
    have hfuel := hr.fuel
    exact isSome_repeatUpTo he hstep _ ha hv hlim hr (by omega)
  goes _ _ _ _ _ hmoves := hmoves.elim
  heeds {_ _ _ b} _ _ _ _ _ hmoves := (hmoves b).elim

/-- A loop whose first turn consumes something. -/
theorem Begins.loop {step : α → ParseM (α ⊕ β)} (state : Yield α) {a : α}
    (hfirst : Begins start given (step a) (.turn state z))
    (hstep : ∀ a, state.good a →
      Turns (fun _ => True) Rule.maxRank (state.row a) (step a) state z)
    (ha : state.good a) (hrow : given = state.row a) :
    Begins start given (loop a step) z where
  leads he hv hrun := by
    have h : Enters start Rule.maxRank given (ParseM.loop a step) z (fun _ => False) :=
      Reads.loop state hstep ha hrow
    exact h.leads he hv hrun
  returns {env before} he hv hstart _ hr := by
    refine isSome_bind rfl fun env' p hp => ?_
    cases hp
    -- the first turn needs a unit of fuel, and the turns behind it have less ahead
    have hfuel := hr.fuel
    obtain ⟨fuel, hf⟩ := Nat.exists_eq_succ_of_ne_zero (n := env.fuel) (by omega)
    rw [hf]
    refine isSome_bind (hfirst.returns he hv hstart hr) fun r q hs => ?_
    obtain ⟨hl, hg⟩ := hfirst.leads he hv hs
    have hlt := hfirst.goes he hr.admissible hv hstart hs trivial
    cases r with
    | inl next =>
      exact isSome_repeatUpTo he hstep _ hg hl.valid (fun _ hm => by cases hm) (hr.further hlt _)
        (by omega)
    | inr result => rfl
  goes {env before after b} he hadm hv hstart hrun _ := by
    obtain ⟨env', p, hp, hrun⟩ := bind_eq_some_iff.mp hrun
    cases hp
    cases hf : env.fuel with
    -- with no fuel there is no turn at all, and no result to speak of
    | zero => rw [hf] at hrun; cases hrun
    | succ fuel =>
      rw [hf] at hrun
      obtain ⟨r, q, hs, hrun⟩ := bind_eq_some_iff.mp hrun
      obtain ⟨hl, hg⟩ := hfirst.leads he hv hs
      have hlt := hfirst.goes he hadm hv hstart hs trivial
      cases r with
      | inl next =>
        have hl' := (leads_repeatUpTo
          (fun a ha _ _ _ hv hs => (hstep a ha).leads he hv hs) _ hg hl.valid hrun).1
        exact Nat.lt_of_le_of_lt hl'.left_le hlt
      | inr result => cases hrun; exact hlt
  heeds {env before after b} he hv hstart hrun _ _ := by
    obtain ⟨env', p, hp, hrun⟩ := bind_eq_some_iff.mp hrun
    cases hp
    cases hf : env.fuel with
    | zero => rw [hf] at hrun; cases hrun
    | succ fuel =>
      rw [hf] at hrun
      obtain ⟨r, q, hs, hrun⟩ := bind_eq_some_iff.mp hrun
      obtain ⟨hl, hg⟩ := hfirst.leads he hv hs
      have hq := hfirst.heeds he hv hstart hs rfl fun _ => trivial
      cases r with
      | inl next =>
        exact (leads_repeatUpTo
          (fun a ha _ _ _ hv hs => (hstep a ha).leads he hv hs) _ hg hl.valid hrun).1.heeds hq
      | inr result => cases hrun; exact hq

end ParseM

end TolerantSyntax
