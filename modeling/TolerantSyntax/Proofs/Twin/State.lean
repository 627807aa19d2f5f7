import TolerantSyntax.Proofs.Parse.Meets
import TolerantSyntax.Proofs.Twin.Basic
import TolerantSyntax.Proofs.Twin.Scanner

/-!
# Two parses in step

Two parses of one text in two layouts are in step if what is ahead is alike, and so is all else that
rules can see of the state. `InStep` says of two steps of the grammar that they keep parses in step
and that their results are related. It is said of results only where both steps have one: how much
fuel there is may differ.

The lemmas here are about how steps are combined. The relation of the results is that of twins for
nodes, and equality for kinds and numbers.
-/

namespace TolerantSyntax

open Bracketed (Grammar)
open Node (PartTwin Twins)

/-! ## Rules -/

/-- Requests of the same rule with twins as what had been read. -/
inductive Request.Twin : Request → Request → Prop where
  | token (context : Context) (expected : Kind) :
      Twin (.token context expected) (.token context expected)
  | listEnd (context : Context) (close : Kind) (item : ListItem) :
      Twin (.listEnd context close item) (.listEnd context close item)
  | importDeclaration : Twin .importDeclaration .importDeclaration
  | moduleMember {m m' : Option Node} {q q' : List Node} (hm : PartTwin m m') (hq : Twins q q') :
      Twin (.moduleMember m q) (.moduleMember m' q')
  | statement {a a' : Option Node} (ha : PartTwin a a') : Twin (.statement a) (.statement a')
  | statementRhs {a a' : Option Node} {l l' : Node} (ha : PartTwin a a') (hl : l.Twin l') :
      Twin (.statementRhs a l) (.statementRhs a' l')
  | classMember {m m' : Option Node} {q q' : List Node} (hm : PartTwin m m') (hq : Twins q q')
      (objectType : Bool) : Twin (.classMember m q objectType) (.classMember m' q' objectType)
  | recordField {m m' : Option Node} (hm : PartTwin m m') : Twin (.recordField m) (.recordField m')
  | parameter {a a' : Option Node} (ha : PartTwin a a') : Twin (.parameter a) (.parameter a')
  | argument : Twin .argument .argument
  | typeDescriptor (context : Context) : Twin (.typeDescriptor context) (.typeDescriptor context)
  | bindingPattern : Twin .bindingPattern .bindingPattern
  | matchPattern : Twin .matchPattern .matchPattern
  | expression (floor : Precedence) (flags : ExpressionFlags) :
      Twin (.expression floor flags) (.expression floor flags)
  | functionBody : Twin .functionBody .functionBody
  | variableRhs {m m' : Option Node} {q q' : List Node} {b b' : Node} (hm : PartTwin m m')
      (hq : Twins q q') (hb : b.Twin b') (moduleLevel : Bool) :
      Twin (.variableRhs m q b moduleLevel) (.variableRhs m' q' b' moduleLevel)
  | elseBody : Twin .elseBody .elseBody
  | queryEnd {p p' : Node} (hp : p.Twin p') (flags : ExpressionFlags) :
      Twin (.queryEnd p flags) (.queryEnd p' flags)
  | mappingField (context : Context) : Twin (.mappingField context) (.mappingField context)

/-- The same rule, with twins as what had been read. -/
inductive Rule.Twin : Rule → Rule → Prop where
  | request {r r' : Request} (h : r.Twin r') : Twin (.request r) (.request r')
  | operand (floor : Precedence) (flags : ExpressionFlags) :
      Twin (.operand floor flags) (.operand floor flags)
  | primaryType (context : Context) : Twin (.primaryType context) (.primaryType context)

/-- The role that what a rule reads can play: to end a list or to be an item of one, where what is
read in one of the grammars of bracketed lists suits that. -/
def Rule.role : Rule → Node.Role
  | .request (.listEnd ..) => .leaf
  | .request (.typeDescriptor _) => .item (some .type)
  | .primaryType _ => .item (some .type)
  | .request .bindingPattern => .item (some .pattern)
  | .request (.expression ..) => .item (some .expression)
  | .request (.queryEnd ..) => .item (some .expression)
  | .operand .. => .item (some .expression)
  | .request (.parameter _) => .item none
  | .request .argument => .item none
  | .request (.mappingField _) => .item none
  | .request .matchPattern => .item none
  | _ => .part

namespace Request.Twin

variable {r r' : Request}

/-- What a rule can continue with does not hang on what had been read. -/
theorem accepts_eq (h : r.Twin r') : r.accepts = r'.accepts := by
  cases h <;> rfl

theorem missingCode_eq (h : r.Twin r') : r.missingCode = r'.missingCode := by
  cases h <;> rfl

/-- The standard strategy does not look at what had been read. -/
theorem answer_eq (h : r.Twin r') (view : View) :
    Strategy.answer r view = Strategy.answer r' view := by
  cases h <;> rfl

theorem atEnd_eq (h : r.Twin r') (decision : Decision) (kind : Kind) :
    decision.atEnd r kind = decision.atEnd r' kind := by
  cases h <;> rfl

end Request.Twin

/-! ## States -/

namespace Parser

/-- What is ahead is the same without layout, and so is what waits for the next token. The first
parse may have consumed some tokens more before. -/
structure Alike (shift : Nat) (p q : Parser) : Prop where
  left : p.Valid
  right : q.Valid
  scan : ({ p.reader.place with mode := .code } : Scanner).Alike
    { q.reader.place with mode := .code }
  modes : p.reader.modes = q.reader.modes
  /-- As much has been looked at. -/
  looked : p.reader.buffer.length = q.reader.buffer.length
  consumed : p.reader.consumed = q.reader.consumed + shift
  contexts : p.contexts = q.contexts
  pending : Trivia.bareAll p.pending = Trivia.bareAll q.pending
  tidy : Trivia.Tidy p.pending

namespace Alike

variable {p q : Parser} {shift : Nat}

/-- The scanners at which the readers stand are alike, whatever mode is in force. -/
theorem place (h : p.Alike shift q) : p.reader.place.Alike q.reader.place := by
  have hp : p.reader.place.mode = p.reader.mode := TokenReader.IsAt.mode h.left
  have hq : q.reader.place.mode = p.reader.mode := by
    rw [TokenReader.mode, h.modes]
    exact TokenReader.IsAt.mode h.right
  have hmode := h.scan.withMode rfl rfl p.reader.mode
  have hpe : ({ p.reader.place with mode := p.reader.mode } : Scanner) = p.reader.place := by
    rw [← hp]
  have hqe : ({ q.reader.place with mode := p.reader.mode } : Scanner) = q.reader.place := by
    rw [← hq]
  exact (congrArg₂ Scanner.Alike hpe hqe).mp hmode

/-- The rules in progress are no part of what is ahead. -/
theorem withContexts (h : p.Alike shift q) {contexts contexts' : ContextStack}
    (hc : contexts = contexts') :
    Alike shift { p with contexts } { q with contexts := contexts' } :=
  ⟨h.left, h.right, h.scan, h.modes, h.looked, h.consumed, hc, h.pending, h.tidy⟩

end Alike

end Parser

/-! ## Environments -/

/-- Both parses get the standard answers, and the rules that they refer to keep them in step. -/
structure Env.Alike (env env' : Env) : Prop where
  standard : env.strategy = .standard
  standard' : env'.strategy = .standard
  sound : env.Sound
  call : ∀ {rule rule' : Rule} {kind : Kind} {p q p' q' : Parser} {a b : Node} {shift : Nat},
    rule.Twin rule' → p.Alike shift q → env.call rule kind p = some (a, p') →
    env'.call rule' kind q = some (b, q') → a.TwinAs rule.role b ∧ p'.Alike shift q'

namespace ParseM

variable {α α' β β' γ γ' : Type} {R : α → α' → Prop} {S : β → β' → Prop}

/-- Both steps keep parses in step, and if both have results, these are related. -/
structure InStep (R : α → α' → Prop) (m : ParseM α) (m' : ParseM α') : Prop where
  run : ∀ {env env' : Env} {p q p' q' : Parser} {a : α} {a' : α'} {shift : Nat},
    env.Alike env' → p.Alike shift q → m env p = some (a, p') → m' env' q = some (a', q') →
    R a a' ∧ p'.Alike shift q'

namespace InStep

variable {m : ParseM α} {m' : ParseM α'}

theorem mono {R' : α → α' → Prop} (h : InStep R m m') (hR : ∀ a a', R a a' → R' a a') :
    InStep R' m m' :=
  ⟨fun he hp hrun hrun' => (h.run he hp hrun hrun').imp_left (hR _ _)⟩

theorem pure {a : α} {a' : α'} (h : R a a') : InStep R (pure a) (pure a') := by
  constructor
  intro _ _ _ _ _ _ _ _ _ _ hp hrun hrun'
  cases hrun
  cases hrun'
  exact ⟨h, hp⟩

/-- Steps that follow each other, the second of which may use how the results are related. -/
theorem bind {f : α → ParseM β} {f' : α' → ParseM β'} (h : InStep R m m')
    (hf : ∀ a a', R a a' → InStep S (f a) (f' a')) : InStep S (m >>= f) (m' >>= f') := by
  constructor
  intro _ _ _ _ _ _ _ _ _ he hp hrun hrun'
  obtain ⟨a, _, hma, hfa⟩ := bind_eq_some_iff.mp hrun
  obtain ⟨a', _, hma', hfa'⟩ := bind_eq_some_iff.mp hrun'
  obtain ⟨hR, hq⟩ := h.run he hp hma hma'
  exact (hf a a' hR).run he hq hfa hfa'

/-- A step whose results are equal, and what follows it. -/
theorem same {m m' : ParseM α} {f : α → ParseM β} {f' : α → ParseM β'} (h : InStep Eq m m')
    (hf : ∀ a, InStep S (f a) (f' a)) : InStep S (m >>= f) (m' >>= f') :=
  h.bind fun a _ heq => heq ▸ hf a

theorem map {f : α → β} {f' : α' → β'} (h : InStep R m m')
    (hf : ∀ a a', R a a' → S (f a) (f' a')) : InStep S (f <$> m) (f' <$> m') := by
  rw [map_eq_pure_bind, map_eq_pure_bind]
  exact h.bind fun a a' hR => .pure (hf a a' hR)

theorem ite {c : Prop} [Decidable c] {n : ParseM α} {n' : ParseM α'} (h : c → InStep R m m')
    (hn : ¬c → InStep R n n') : InStep R (if c then m else n) (if c then m' else n') := by
  split
  · exact h ‹_›
  · exact hn ‹_›

/-- Steps that have no result are in step with any. -/
theorem outOfFuel : InStep R ParseM.outOfFuel m' := by
  constructor
  intro _ _ _ _ _ _ _ _ _ _ _ hrun
  cases hrun

theorem outOfFuel_right : InStep R m ParseM.outOfFuel := by
  constructor
  intro _ _ _ _ _ _ _ _ _ _ _ _ hrun
  cases hrun

/-- What is known of the result of one step can be used of the results of both. -/
theorem knowing {limit : Option Nat} {start : Kind → Prop} {bound : Nat} {given : Row}
    {y : Yield α} {moves : α → Prop} (h : InStep R m m')
    (hm : Meets limit start bound given m y moves) :
    InStep (fun a a' => R a a' ∧ y.good a) m m' := by
  constructor
  intro _ _ _ _ _ _ _ _ _ he hp hrun hrun'
  obtain ⟨hR, hq⟩ := h.run he hp hrun hrun'
  exact ⟨⟨hR, (hm.leads he.sound hp.left hrun).2⟩, hq⟩

/-! ## Nodes -/

section Nodes

variable {n n' : ParseM Node} {role : Node.Role} {grammar? : Option Grammar} {kind : Kind}

/-- What can play a role need not be asked to. -/
theorem twin (h : InStep (Node.TwinAs role) n n') : InStep Node.Twin n n' :=
  h.mono fun _ _ ht => ht.toTwin

/-- Nodes of which nothing is asked. -/
theorem plain (h : InStep Node.Twin n n') : InStep (Node.TwinAs .part) n n' :=
  h.mono fun _ _ ht => ⟨ht, trivial⟩

/-- A member of a list in a grammar can be an item of any list. -/
theorem item (h : InStep (Node.TwinIn grammar?) n n') : InStep (Node.TwinIn none) n n' :=
  h.mono fun _ _ ht => ht.item

theorem part (h : InStep Node.Twin n n') : InStep PartTwin (some <$> n) (some <$> n') :=
  h.map fun _ _ ht => .some ht

theorem noPart : InStep PartTwin (Pure.pure none) (Pure.pure none) :=
  .pure .none

theorem of {xs ys : List Node} (hk : kind.itemsSlot? = none) (h : Twins xs ys) :
    InStep Node.Twin (Pure.pure (.of kind xs)) (Pure.pure (.of kind ys)) :=
  .pure (.of hk h)

theorem ofSlots {xs ys : List (Option Node)} (hk : kind.itemsSlot? = none)
    (h : List.Forall₂ PartTwin xs ys) :
    InStep Node.Twin (Pure.pure (.ofSlots kind xs)) (Pure.pure (.ofSlots kind ys)) :=
  .pure (.ofSlots hk h)

end Nodes

/-! ## Loops -/

/-- As many turns are made in both parses, however many turns each may make. -/
theorem repeatUpTo {step : α → ParseM (α ⊕ β)} {step' : α' → ParseM (α' ⊕ β')}
    (h : ∀ a a', R a a' → InStep (Sum.LiftRel R S) (step a) (step' a')) (fuel fuel' : Nat)
    {a : α} {a' : α'} (ha : R a a') :
    InStep S (ParseM.repeatUpTo step fuel a) (ParseM.repeatUpTo step' fuel' a') := by
  induction fuel generalizing fuel' a a' with
  | zero => exact outOfFuel
  | succ fuel ih =>
    cases fuel' with
    | zero => exact outOfFuel_right
    | succ fuel' =>
      refine (h a a' ha).bind fun r r' hr => ?_
      cases hr with
      | inl hnext => exact ih fuel' hnext
      | inr hresult => exact .pure hresult

/-- A loop each of whose turns keeps parses in step does so. The bounds on the turns may differ. -/
theorem loop {step : α → ParseM (α ⊕ β)} {step' : α' → ParseM (α' ⊕ β')} {a : α} {a' : α'}
    (ha : R a a') (h : ∀ a a', R a a' → InStep (Sum.LiftRel R S) (step a) (step' a')) :
    InStep S (ParseM.loop a step) (ParseM.loop a' step') := by
  constructor
  intro env env' _ _ _ _ _ _ _ he hp hrun hrun'
  exact (repeatUpTo h env.fuel env'.fuel ha).run he hp hrun hrun'

/-! ## Contexts and rules -/

/-- The innermost rule is replaced in both parses. -/
theorem replaceContext (context : Context) :
    InStep Eq (ParseM.replaceContext context) (ParseM.replaceContext context) := by
  constructor
  intro _ _ _ _ _ _ _ _ _ _ hp hrun hrun'
  cases hrun
  cases hrun'
  exact ⟨rfl, hp.withContexts (congrArg (ContextStack.replaceTop · context) hp.contexts)⟩

/-- Rules keep parses in step, and what they read can play its role. -/
theorem parseAs {rule rule' : Rule} (h : rule.Twin rule') (kind : Kind) :
    InStep (Node.TwinAs rule.role) (ParseM.parseAs rule kind) (ParseM.parseAs rule' kind) :=
  ⟨fun he hp hrun hrun' => he.call h hp hrun hrun'⟩

end InStep

/-! ## From states of which something is known -/

/-- Both steps keep parses in step that begin where something holds. -/
structure InStepWhere (known : Parser → Parser → Prop) (R : α → α' → Prop) (m : ParseM α)
    (m' : ParseM α') : Prop where
  run : ∀ {env env' : Env} {p q p' q' : Parser} {a : α} {a' : α'} {shift : Nat},
    env.Alike env' → p.Alike shift q → known p q → m env p = some (a, p') →
    m' env' q = some (a', q') → R a a' ∧ p'.Alike shift q'

section

variable {m : ParseM α} {m' : ParseM α'} {f : α → ParseM β} {f' : α' → ParseM β'}
  {known : Parser → Parser → Prop}

/-- What holds of all states needs nothing to be known of them. -/
theorem InStep.anywhere (h : InStep R m m') : InStepWhere known R m m' :=
  ⟨fun he hp _ hrun hrun' => h.run he hp hrun hrun'⟩

/-- More may be known of the states. -/
theorem InStepWhere.weaken {known' : Parser → Parser → Prop} (h : InStepWhere known R m m')
    (hk : ∀ p q, known' p q → known p q) : InStepWhere known' R m m' :=
  ⟨fun he hp hknown hrun hrun' => h.run he hp (hk _ _ hknown) hrun hrun'⟩

theorem InStepWhere.ite {c : Prop} [Decidable c] {n : ParseM α} {n' : ParseM α'}
    (h : c → InStepWhere known R m m') (hn : ¬c → InStepWhere known R n n') :
    InStepWhere known R (if c then m else n) (if c then m' else n') := by
  split
  · exact h ‹_›
  · exact hn ‹_›

/-- What is known of the states is used by the first step alone. -/
theorem InStepWhere.bind (h : InStepWhere known R m m')
    (hf : ∀ a a', R a a' → InStep S (f a) (f' a')) :
    InStepWhere known S (m >>= f) (m' >>= f') := by
  constructor
  intro _ _ _ _ _ _ _ _ _ he hp hknown hrun hrun'
  obtain ⟨a, _, hma, hfa⟩ := bind_eq_some_iff.mp hrun
  obtain ⟨a', _, hma', hfa'⟩ := bind_eq_some_iff.mp hrun'
  obtain ⟨hR, hq⟩ := h.run he hp hknown hma hma'
  exact (hf a a' hR).run he hq hfa hfa'

/-- What a first step finds out about the state holds for what follows it. -/
theorem InStep.finding {known : Parser → Prop} (h : InStep R m m') (found : α → Parser → Prop)
    (hk : ∀ {env : Env} {p p' : Parser} {a : α}, p.Valid → known p → m env p = some (a, p') →
      found a p')
    (hf : ∀ a a', R a a' → InStepWhere (fun p _ => found a p) S (f a) (f' a')) :
    InStepWhere (fun p _ => known p) S (m >>= f) (m' >>= f') := by
  constructor
  intro _ _ _ _ _ _ _ _ _ he hp hknown hrun hrun'
  obtain ⟨a, _, hma, hfa⟩ := bind_eq_some_iff.mp hrun
  obtain ⟨a', _, hma', hfa'⟩ := bind_eq_some_iff.mp hrun'
  obtain ⟨hR, hq⟩ := h.run he hp hma hma'
  exact (hf a a' hR).run he hq (hk hp.left hknown hma) hfa hfa'

/-- What a step gives where something is known of the state can be told from that. -/
theorem InStep.learning {known : Parser → Prop} {fact : α → Prop} (h : InStep R m m')
    (hk : ∀ {env : Env} {p p' : Parser} {a : α}, p.Valid → known p → m env p = some (a, p') →
      fact a) :
    InStepWhere (fun p _ => known p) (fun a a' => R a a' ∧ fact a) m m' := by
  constructor
  intro _ _ _ _ _ _ _ _ _ he hp hknown hrun hrun'
  obtain ⟨hR, hq⟩ := h.run he hp hrun hrun'
  exact ⟨⟨hR, hk hp.left hknown hrun⟩, hq⟩

/-- What is known of a state has nothing to do with the rules in progress. -/
theorem InStepWhere.within {known : Parser → Prop} (context : Context)
    (hk : ∀ (p : Parser) (contexts : ContextStack), known p → known { p with contexts })
    (h : InStepWhere (fun p _ => known p) R m m') :
    InStepWhere (fun p _ => known p) R (ParseM.within context m) (ParseM.within context m') := by
  constructor
  intro _ _ _ _ _ _ _ _ _ he hp hknown hrun hrun'
  obtain ⟨p', hma, rfl⟩ := within_eq_some_iff.mp hrun
  obtain ⟨q', hma', rfl⟩ := within_eq_some_iff.mp hrun'
  obtain ⟨hR, hq⟩ := h.run he (hp.withContexts (congrArg (context :: ·) hp.contexts))
    (hk _ _ hknown) hma hma'
  exact ⟨hR, hq.withContexts (congrArg List.tail hq.contexts)⟩

/-- Where nothing is known of the states, that holds of all of them. -/
theorem InStepWhere.inStep (h : InStepWhere (fun _ _ => True) R m m') : InStep R m m' :=
  ⟨fun he hp hrun hrun' => h.run he hp trivial hrun hrun'⟩

theorem InStep.within (context : Context) (h : InStep R m m') :
    InStep R (ParseM.within context m) (ParseM.within context m') := by
  have hanywhere : InStepWhere (fun _ _ => True) R m m' := h.anywhere
  exact (hanywhere.within context fun _ _ h => h).inStep

/-- A loop whose first turn begins where something is known. -/
theorem InStepWhere.loop {step : α → ParseM (α ⊕ β)} {step' : α' → ParseM (α' ⊕ β')} {a : α}
    {a' : α'} (hfirst : InStepWhere known (Sum.LiftRel R S) (step a) (step' a'))
    (h : ∀ a a', R a a' → InStep (Sum.LiftRel R S) (step a) (step' a')) :
    InStepWhere known S (ParseM.loop a step) (ParseM.loop a' step') := by
  constructor
  intro env env' _ _ _ _ _ _ _ he hp hknown hrun hrun'
  change repeatUpTo step env.fuel a env _ = _ at hrun
  change repeatUpTo step' env'.fuel a' env' _ = _ at hrun'
  cases hfuel : env.fuel with
  | zero =>
    rw [hfuel] at hrun
    cases hrun
  | succ fuel =>
    cases hfuel' : env'.fuel with
    | zero =>
      rw [hfuel'] at hrun'
      cases hrun'
    | succ fuel' =>
      rw [hfuel] at hrun
      rw [hfuel'] at hrun'
      refine (hfirst.bind fun r r' hr => ?_).run he hp hknown hrun hrun'
      cases hr with
      | inl hnext => exact .repeatUpTo h fuel fuel' hnext
      | inr hresult => exact .pure hresult

end

/-! ## Progress -/

/-- As many tokens have been consumed in both parses since they stood at these positions. -/
def Since (start start' : Nat) (p q : Parser) : Prop :=
  p.reader.consumed + start' = q.reader.consumed + start

section

variable {m n : ParseM α} {m' n' : ParseM α'} {f : α → ParseM β} {f' : α' → ParseM β'}
  {start start' : Nat}

/-- A step that notes where it begins: the parses need not stand at the same position. -/
theorem InStep.noting {g : Nat → ParseM β} {g' : Nat → ParseM β'}
    (h : ∀ start start', InStepWhere (Since start start') S (g start) (g' start')) :
    InStep S (position >>= g) (position >>= g') := by
  constructor
  intro _ _ p q _ _ _ _ _ he hp hrun hrun'
  obtain ⟨start, _, hposition, hg⟩ := bind_eq_some_iff.mp hrun
  obtain ⟨start', _, hposition', hg'⟩ := bind_eq_some_iff.mp hrun'
  cases hposition
  cases hposition'
  exact (h _ _).run he hp (Nat.add_comm _ _) hg hg'

/-- Steps in step consume as many tokens. -/
theorem InStep.since (h : InStep R m m')
    (hf : ∀ a a', R a a' → InStepWhere (Since start start') S (f a) (f' a')) :
    InStepWhere (Since start start') S (m >>= f) (m' >>= f') := by
  constructor
  intro _ _ _ _ _ _ _ _ _ he hp hsince hrun hrun'
  obtain ⟨a, _, hma, hfa⟩ := bind_eq_some_iff.mp hrun
  obtain ⟨a', _, hma', hfa'⟩ := bind_eq_some_iff.mp hrun'
  obtain ⟨hR, hq⟩ := h.run he hp hma hma'
  refine (hf a a' hR).run he hq ?_ hfa hfa'
  have hbefore := hp.consumed
  have hafter := hq.consumed
  unfold Since at hsince ⊢
  omega

/-- So both see whether anything has been consumed since the position that was noted. -/
theorem InStepWhere.ifStill (h : InStep R m m') (hn : InStep R n n') :
    InStepWhere (Since start start') R
      (position >>= fun ended => if (ended == start) = true then m else n)
      (position >>= fun ended => if (ended == start') = true then m' else n') := by
  constructor
  intro _ _ p q _ _ _ _ _ he hp hsince hrun hrun'
  obtain ⟨ended, _, hposition, hrun⟩ := bind_eq_some_iff.mp hrun
  obtain ⟨ended', _, hposition', hrun'⟩ := bind_eq_some_iff.mp hrun'
  cases hposition
  cases hposition'
  have hsame : (p.reader.consumed == start) = (q.reader.consumed == start') := by
    rw [Bool.eq_iff_iff, beq_iff_eq, beq_iff_eq]
    unfold Since at hsince
    omega
  rw [hsame] at hrun
  exact (InStep.ite (fun _ => h) fun _ => hn).run he hp hrun hrun'

end

end ParseM

end TolerantSyntax
