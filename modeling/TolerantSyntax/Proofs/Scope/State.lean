import TolerantSyntax.Parse
import TolerantSyntax.Proofs.Parse.Meets

/-!
# What is in force during a parse

The rules in progress and the lexical modes that have begun are stacks: a rule puts something on
them, runs other rules, and takes it off again. `Restores` says of a step of the grammar that it
leaves both as it found them, whatever they were and whatever the strategy answers. It asks nothing
of the state before, so it holds of states that no parse gets into as well.

A step that runs within a rule may say more exactly which rule that is, so the innermost rules in
progress do not count up to some depth. At depth zero all of them do.

It is a class, and for each way in which steps are combined there is an instance. So of a rule that
is a sequence of steps it is found by going through the sequence; where a rule looks at a result,
the cases are split by hand.
-/

namespace TolerantSyntax

/-! ## States -/

/-- What is in force is the same, the innermost `depth` rules in progress apart, and no token has
been given back. -/
structure Parser.Restored (depth : Nat) (before after : Parser) : Prop where
  contexts : after.contexts.drop depth = before.contexts.drop depth
  modes : after.reader.modes = before.reader.modes
  consumed : before.reader.consumed ≤ after.reader.consumed

namespace Parser.Restored

variable {depth : Nat} {p q r : Parser}

protected theorem refl (p : Parser) : Restored depth p p :=
  ⟨rfl, rfl, Nat.le_refl _⟩

theorem trans (h : Restored depth p q) (h' : Restored depth q r) : Restored depth p r :=
  ⟨h'.contexts.trans h.contexts, h'.modes.trans h.modes, Nat.le_trans h.consumed h'.consumed⟩

/-- Where fewer of the rules in progress count, no more is asked. -/
theorem of_zero (h : Restored 0 p q) : Restored depth p q :=
  ⟨congrArg (List.drop depth) h.contexts, h.modes, h.consumed⟩

/-- Only the reader has changed. -/
theorem of_reader {reader : TokenReader} {pending : List Trivia} {lastEnd : Nat}
    (hm : reader.modes = p.reader.modes) (hc : p.reader.consumed ≤ reader.consumed) :
    Restored depth p { p with reader, pending, lastEnd } :=
  ⟨rfl, hm, hc⟩

/-- A rule that has begun is one more of those that do not count, and when it ends it is taken
off. -/
theorem within {context : Context}
    (h : Restored (depth + 1) { p with contexts := context :: p.contexts } q) :
    Restored depth p { q with contexts := q.contexts.tail } where
  contexts := by
    have hc := h.contexts
    rw [List.drop_succ_cons] at hc
    rw [List.drop_tail, hc]
  modes := h.modes
  consumed := h.consumed

end Parser.Restored

/-! ## Readers -/

namespace TokenReader

theorem modes_peek (reader : TokenReader) (ahead : Nat) :
    (reader.peek ahead).2.modes = reader.modes := by
  unfold peek
  split <;> rfl

theorem consumed_peek (reader : TokenReader) (ahead : Nat) :
    (reader.peek ahead).2.consumed = reader.consumed := by
  unfold peek
  split <;> rfl

/-- Looking at all that is ahead leaves the mode as it is. -/
theorem modes_upcoming (reader : TokenReader) : reader.upcoming.2.modes = reader.modes := by
  unfold upcoming
  split <;> rfl

theorem consumed_upcoming (reader : TokenReader) :
    reader.upcoming.2.consumed = reader.consumed := by
  unfold upcoming
  split <;> rfl

theorem modes_consume (reader : TokenReader) : reader.consume.2.modes = reader.modes :=
  reader.modes_peek 0

/-- The position never goes back. -/
theorem consumed_le_consume (reader : TokenReader) :
    reader.consumed ≤ reader.consume.2.consumed := by
  simp only [consume, consumed_peek]
  split
  · exact Nat.le_refl _
  · exact Nat.le_succ _

end TokenReader

/-! ## Steps -/

/-- Rules leave what is in force as it was. -/
structure Env.Restores (env : Env) : Prop where
  call : ∀ {rule : Rule} {kind : Kind} {before after : Parser} {node : Node},
    env.call rule kind before = some (node, after) → Parser.Restored 0 before after

namespace ParseM

variable {α β : Type} {depth : Nat}

/-- If rules leave what is in force as it was, the step does. -/
class Restores (depth : Nat) (step : ParseM α) : Prop where
  run : ∀ {env : Env} {before after : Parser} {a : α}, env.Restores →
    step env before = some (a, after) → Parser.Restored depth before after

/-! ## Combining steps -/

namespace Restores

variable {m n : ParseM α}

instance pure (a : α) : Restores depth (Pure.pure a : ParseM α) := by
  constructor
  intro _ _ _ _ _ hrun
  cases hrun
  exact .refl _

instance bind {f : α → ParseM β} [hm : Restores depth m] [hf : ∀ a, Restores depth (f a)] :
    Restores depth (m >>= f) := by
  constructor
  intro _ _ _ _ he hrun
  obtain ⟨a, _, hma, hfa⟩ := bind_eq_some_iff.mp hrun
  exact (hm.run he hma).trans ((hf a).run he hfa)

/-- A step whose result is looked at behind it. -/
theorem behind {f : α → ParseM β} [Restores depth m] (hf : ∀ a, Restores depth (f a)) :
    Restores depth (m >>= f) :=
  bind

instance map {f : α → β} [hm : Restores depth m] : Restores depth (f <$> m) := by
  constructor
  intro _ _ _ _ he hrun
  obtain ⟨_, hma, _⟩ := map_eq_some_iff.mp hrun
  exact hm.run he hma

instance ite {c : Prop} [Decidable c] [hm : Restores depth m] [hn : Restores depth n] :
    Restores depth (if c then m else n) := by
  split
  · exact hm
  · exact hn

instance outOfFuel : Restores depth (ParseM.outOfFuel : ParseM α) := by
  constructor
  intro _ _ _ _ _ hrun
  cases hrun

/-- By induction on the fuel: each turn restores what it changed. -/
theorem repeatUpTo {step : α → ParseM (α ⊕ β)} (h : ∀ a, Restores depth (step a)) (fuel : Nat)
    (a : α) : Restores depth (ParseM.repeatUpTo step fuel a) := by
  induction fuel generalizing a with
  | zero => exact outOfFuel
  | succ fuel ih =>
    have _ := h a
    unfold ParseM.repeatUpTo
    refine behind fun result => ?_
    cases result with
    | inl next => exact ih next
    | inr result => exact pure result

/-- A loop leaves as it was what each of its turns leaves as it was. -/
instance loop {step : α → ParseM (α ⊕ β)} {a : α} [h : ∀ a, Restores depth (step a)] :
    Restores depth (ParseM.loop a step) :=
  ⟨fun {env _ _ _} he hrun => (repeatUpTo h env.fuel a).run he hrun⟩

/-! ## Scopes -/

/-- What runs within a rule need not leave that rule as it was. -/
instance within {context : Context} [hm : Restores (depth + 1) m] :
    Restores depth (ParseM.within context m) := by
  constructor
  intro _ _ _ _ he hrun
  obtain ⟨_, hma, rfl⟩ := within_eq_some_iff.mp hrun
  exact (hm.run he hma).within

instance withMode {mode : LexerMode} [hm : Restores depth m] :
    Restores depth (ParseM.withMode mode m) := by
  constructor
  intro _ before _ _ he hrun
  obtain ⟨q, hma, rfl⟩ := withMode_eq_some_iff.mp hrun
  obtain ⟨hcontexts, hmodes, hconsumed⟩ := hm.run he hma
  have hstart : (before.reader.startMode mode).consumed = before.reader.consumed :=
    TokenReader.consumed_relex _
  refine ⟨hcontexts, ?_, ?_⟩
  · show q.reader.endMode.modes = before.reader.modes
    rw [TokenReader.endMode, TokenReader.modes_relex, hmodes]
    exact congrArg List.tail (TokenReader.modes_relex _)
  · show before.reader.consumed ≤ q.reader.endMode.consumed
    rw [TokenReader.endMode, TokenReader.consumed_relex]
    exact hstart.ge.trans hconsumed

/-- The innermost rule may be said more exactly where it does not count. -/
instance replaceContext (context : Context) :
    Restores (depth + 1) (ParseM.replaceContext context) := by
  constructor
  intro _ before _ _ _ hrun
  cases hrun
  refine ⟨?_, rfl, Nat.le_refl _⟩
  show List.drop (depth + 1) (context :: before.contexts.tail) = _
  rw [List.drop_succ_cons, List.drop_tail]

/-! ## Looking at the state -/

instance get : Restores depth (MonadState.get : ParseM Parser) := by
  constructor
  intro _ _ _ _ _ hrun
  cases hrun
  exact .refl _

instance read : Restores depth (MonadReader.read : ParseM Env) := by
  constructor
  intro _ _ _ _ _ hrun
  cases hrun
  exact .refl _

/-! ## Rules and tokens -/

instance parseAs (rule : Rule) (kind : Kind) : Restores depth (ParseM.parseAs rule kind) :=
  ⟨fun he hrun => (he.call hrun).of_zero⟩

instance peekAt (ahead : Nat) : Restores depth (ParseM.peekAt ahead) := by
  constructor
  intro _ before _ _ _ hrun
  cases hrun
  exact .of_reader (before.reader.modes_peek ahead) (before.reader.consumed_peek ahead).ge

instance upcoming : Restores depth ParseM.upcoming := by
  constructor
  intro _ before _ _ _ hrun
  cases hrun
  exact .of_reader before.reader.modes_upcoming before.reader.consumed_upcoming.ge

instance consume : Restores depth ParseM.consume := by
  constructor
  intro _ before _ _ _ hrun
  cases hrun
  exact .of_reader before.reader.modes_consume before.reader.consumed_le_consume

end Restores

end ParseM

end TolerantSyntax
