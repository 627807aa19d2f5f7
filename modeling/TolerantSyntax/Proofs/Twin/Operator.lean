import TolerantSyntax.Proofs.Parse.Operator
import TolerantSyntax.Proofs.Twin.Type

/-!
# Operators in step

Whether tokens touch matters in two places: an operator that touches an `=` is one of a compound
assignment, and two or three `>` that touch are a shift operator. Both are about tokens of which the
second is not the end of input, and of those the same touch.
-/

namespace TolerantSyntax

open Node (PartTwin Twins)

/-! ## Tokens that touch -/

/-- What is put before the first of several tokens does not matter to whether they touch. -/
theorem Token.allTouch_withLeading (token : Token) (xs : List Trivia) (tokens : List Token) :
    allTouch (token.withLeading xs :: tokens) = allTouch (token :: tokens) := by
  cases tokens <;> rfl

/-- Short of the end of input, tokens touch in both layouts or in neither. -/
theorem Scanner.Alike.allTouch_take {s t : Scanner} (h : s.Alike t) {count : Nat}
    (hne : ∀ index, index + 1 < count → (s.tokenAt (index + 1)).kind ≠ .eof) :
    Token.allTouch (s.take count).1 = Token.allTouch (t.take count).1 := by
  induction count generalizing s t with
  | zero => rfl
  | succ count ih =>
    cases count with
    | zero => rfl
    | succ count =>
      have hrest := ih h.next fun index hi => hne (index + 1) (by omega)
      have htouch := h.touch 0 (hne 0 (by omega))
      exact congrArg₂ (· && ·) htouch hrest

/-- An operator of so many tokens does not reach past the end of input. -/
def Parser.HasOperator (parser : Parser) (width : Nat) : Prop :=
  ∀ index, index + 1 < width → (parser.reader.place.tokenAt (index + 1)).kind ≠ .eof

namespace ParseM

variable {α α' β β' : Type} {R : α → α' → Prop} {S : β → β' → Prop}

/-- The kind that is seen ahead is that of the token there. -/
theorem kind_of_kindAt {env : Env} {p q : Parser} {ahead : Nat} {kind : Kind} (hv : p.Valid)
    (hrun : kindAt ahead env p = some (kind, q)) :
    kind = (p.reader.place.tokenAt ahead).kind ∧ q.Valid ∧ q.reader.place = p.reader.place := by
  obtain ⟨token, q', hpeek, hpure⟩ := bind_eq_some_iff.mp hrun
  cases hpure
  obtain ⟨rfl, hvalid, hplace⟩ := token_of_peekAt hv hpeek
  exact ⟨rfl, hvalid, hplace⟩

/-- The tokens of an operator are those that are ahead, with what waits before the first. -/
theorem consumeTokens_eq {env : Env} {count : Nat} {p q : Parser} {tokens : List Token}
    (hv : p.Valid) (hrun : consumeTokens count env p = some (tokens, q)) :
    Token.allTouch tokens = Token.allTouch (p.reader.place.take count).1 ∧
      (p.pending = [] → tokens = (p.reader.place.take count).1) := by
  induction count generalizing p tokens with
  | zero =>
    cases hrun
    exact ⟨rfl, fun _ => rfl⟩
  | succ count ih =>
    obtain ⟨token, p', hconsume, hbind⟩ := bind_eq_some_iff.mp hrun
    obtain ⟨rest, q', hrest, hpure⟩ := bind_eq_some_iff.mp hbind
    cases hpure
    obtain ⟨hfirst, hat, -, -⟩ := TokenReader.IsAt.consume hv
    have hbehind : p'.Valid ∧ p'.pending = [] ∧ p'.reader.place = p.reader.place.next.2 ∧
        token = p.reader.place.next.1.withLeading p.pending := by
      cases hconsume
      exact ⟨hat.toValid, rfl, hat.place_eq, congrArg (Token.withLeading · _) hfirst⟩
    obtain ⟨hvalid, hnone, hplace, rfl⟩ := hbehind
    obtain rfl := (ih hvalid hrest).2 hnone
    rw [hplace, Token.allTouch_withLeading]
    exact ⟨rfl, fun hpending => by rw [hpending, Scanner.take, Token.withLeading_nil]⟩

/-- As many tokens are taken in both parses, and they are the same without layout. -/
theorem inStep_consumeTokens (count : Nat) :
    InStep (List.Forall₂ TokenTwin) (consumeTokens count) (consumeTokens count) := by
  induction count with
  | zero => exact .pure .nil
  | succ count ih =>
    exact inStep_consume.bind fun _ _ ht => ih.bind fun _ _ hts => .pure (.cons ht hts)

/-- Twins make one operator of their tokens. -/
theorem twin_compositeOperator {tokens tokens' : List Token}
    (h : List.Forall₂ TokenTwin tokens tokens') :
    (compositeOperator tokens).Twin (compositeOperator tokens') :=
  .of rfl (List.forall₂_map_left_iff.mpr (List.forall₂_map_right_iff.mpr h))

/-! ## From places that are known -/

variable {m : ParseM α} {m' : ParseM α'} {f : α → ParseM β} {f' : α' → ParseM β'}
  {known : Parser → Parser → Prop} {s t : Scanner}

/-- The places at which two parses stand. -/
def AtPlaces (s t : Scanner) (p q : Parser) : Prop :=
  p.reader.place = s ∧ q.reader.place = t

/-- Where two steps are in step from any two places alike, they are in step. -/
theorem InStep.atPlaces
    (h : ∀ s t : Scanner, s.Alike t → InStepWhere (AtPlaces s t) R m m') : InStep R m m' :=
  ⟨fun he hp hrun hrun' => (h _ _ hp.place).run he hp ⟨rfl, rfl⟩ hrun hrun'⟩

/-- Looking at a token shows the one that is ahead of the place, and does not leave the place. -/
theorem InStepWhere.peekAt {ahead : Nat} {f : Token → ParseM β} {f' : Token → ParseM β'}
    (hf : InStepWhere (AtPlaces s t) S (f (s.tokenAt ahead)) (f' (t.tokenAt ahead))) :
    InStepWhere (AtPlaces s t) S (ParseM.peekAt ahead >>= f) (ParseM.peekAt ahead >>= f') := by
  constructor
  rintro _ _ p q _ _ _ _ _ he hp ⟨rfl, rfl⟩ hrun hrun'
  obtain ⟨_, p', hma, hfa⟩ := bind_eq_some_iff.mp hrun
  obtain ⟨_, q', hma', hfa'⟩ := bind_eq_some_iff.mp hrun'
  obtain ⟨ha, -, hplace⟩ := token_of_peekAt hp.left hma
  obtain ⟨hb, -, hplace'⟩ := token_of_peekAt hp.right hma'
  cases hma
  cases hma'
  exact hf.run he (hp.peek ahead) ⟨hplace, hplace'⟩ (ha ▸ hfa) (hb ▸ hfa')

/-- A look at the next kind leaves the operator where it is. -/
theorem InStepWhere.afterKind {width : Nat} {f : Kind → ParseM β} {f' : Kind → ParseM β'}
    (hf : ∀ kind, InStepWhere (fun p _ => p.HasOperator width) S (f kind) (f' kind)) :
    InStepWhere (fun p _ => p.HasOperator width) S (nextKind >>= f) (nextKind >>= f') := by
  constructor
  intro _ _ _ _ _ _ _ _ _ he hp hknown hrun hrun'
  obtain ⟨kind, _, hma, hfa⟩ := bind_eq_some_iff.mp hrun
  obtain ⟨_, _, hma', hfa'⟩ := bind_eq_some_iff.mp hrun'
  obtain ⟨rfl, hq⟩ := inStep_nextKind.run he hp hma hma'
  obtain ⟨-, -, hplace⟩ := kind_of_kindAt hp.left hma
  exact (hf kind).run he hq (by rw [Parser.HasOperator, hplace]; exact hknown) hfa hfa'

/-! ## Recognising operators -/

/-- Both parses see the same operator ahead. -/
theorem inStep_operatorAhead? : InStep Eq operatorAhead? operatorAhead? := by
  refine inStep_nextKind.same fun kind => (inStep_kindAt 1).same fun second => ?_
  exact .ite (fun _ => (inStep_kindAt 2).same fun third => .pure rfl) fun _ => .pure rfl

/-- An operator that is recognised is one of tokens before the end of input. -/
theorem hasOperator_of_operatorAhead? {env : Env} {p q : Parser} {found : Option (Precedence × Nat)}
    (hv : p.Valid) (hrun : operatorAhead? env p = some (found, q)) :
    ∀ operator ∈ found, q.HasOperator operator.2 := by
  obtain ⟨kind, p₁, hfirst, hrun⟩ := bind_eq_some_iff.mp hrun
  obtain ⟨second, p₂, hsecond, hrun⟩ := bind_eq_some_iff.mp hrun
  obtain ⟨-, hv₁, hplace₁⟩ := kind_of_kindAt hv hfirst
  obtain ⟨hk₂, hv₂, hplace₂⟩ := kind_of_kindAt hv₁ hsecond
  split at hrun
  · next h =>
    obtain ⟨third, p₃, hthird, hpure⟩ := bind_eq_some_iff.mp hrun
    obtain ⟨hk₃, -, hplace₃⟩ := kind_of_kindAt hv₂ hthird
    cases hpure
    have hgt : second = .gt := beq_iff_eq.mp ((Bool.and_eq_true _ _).mp h).2
    intro operator ho
    cases ho
    intro index hi
    rw [hplace₃]
    match index with
    | 0 => rw [hplace₂, ← hk₂, hgt]; decide
    | 1 =>
      rw [← hk₃]
      rintro rfl
      exact absurd hi (by decide)
    | index + 2 =>
      dsimp only at hi
      split at hi <;> omega
  · cases hrun
    intro operator ho
    obtain ⟨_, -, rfl⟩ := Option.map_eq_some_iff.mp ho
    exact fun index hi => absurd hi (by simp)

/-- Both parses see the same compound assignment ahead, for its tokens touch in both. -/
theorem inStep_compoundAhead? : InStep Eq compoundAhead? compoundAhead? := by
  refine .atPlaces fun s t h => .peekAt (.peekAt ?_)
  have htouch := h.touch 0
  have htouch' := h.touch 1
  rw [← h.kind_eq 0, ← h.kind_eq 1]
  generalize (s.tokenAt 0).kind = kind
  generalize (s.tokenAt 1).kind = other at htouch ⊢
  by_cases hother : other = .eof
  · -- no operator is made of one token and the end of input
    subst hother
    repeat' split
    all_goals first | contradiction | exact (InStep.pure rfl).anywhere
  · rw [← htouch hother]
    split
    · exact (InStep.pure rfl).anywhere
    · split
      · exact (InStep.pure rfl).anywhere
      · refine .peekAt (InStep.pure ?_).anywhere
        rw [← h.kind_eq 2]
        by_cases hthird : (s.tokenAt 2).kind = .gtEqual
        · rw [htouch' (by rw [hthird]; decide)]
        · simp [hthird]
      all_goals exact (InStep.pure rfl).anywhere

/-- What is not above the floor is left alone in both. -/
theorem inStep_operatorAbove? (floor : Precedence) (flags : ExpressionFlags) :
    InStep Eq (operatorAbove? floor flags) (operatorAbove? floor flags) := by
  refine inStep_compoundAhead?.same fun shape => .ite (fun _ => .pure rfl) fun _ => ?_
  exact inStep_operatorAhead?.same fun found => .pure rfl

/-- An operator that was found is as wide as the tokens ahead that make it. -/
theorem hasOperator_of_operatorAbove? {floor : Precedence} {flags : ExpressionFlags} {env : Env}
    {p q : Parser} {found : Option (Precedence × Nat)} (hv : p.Valid)
    (hrun : operatorAbove? floor flags env p = some (found, q)) :
    ∀ operator ∈ found, q.HasOperator operator.2 := by
  obtain ⟨shape, p', hshape, hrun⟩ := bind_eq_some_iff.mp hrun
  obtain ⟨_, _, hlook, hsame, -⟩ := looks_compoundAhead?.look env hv
  cases hshape.symm.trans hlook
  split at hrun
  · cases hrun
    exact fun _ ho => nomatch ho
  · obtain ⟨ahead, q', hahead, hpure⟩ := bind_eq_some_iff.mp hrun
    cases hpure
    intro operator ho
    have hmem := (Option.filter_eq_some_iff.mp ho).1
    exact hasOperator_of_operatorAhead? hsame.valid hahead operator hmem

/-! ## Consuming operators -/

/-- The tokens of a shift operator touch in both parses, or in none. -/
theorem inStep_operatorOf (width : Nat) :
    InStepWhere (fun p _ => p.HasOperator width) Node.Twin (operatorOf width)
      (operatorOf width) := by
  constructor
  intro _ _ p q _ _ _ _ _ he hp hknown hrun hrun'
  by_cases hw : (width == 1) = true
  · rw [operatorOf, if_pos hw] at hrun hrun'
    exact inStep_consumeNode.run he hp hrun hrun'
  · rw [operatorOf, if_neg hw] at hrun hrun'
    obtain ⟨tokens, p', htokens, hpure⟩ := bind_eq_some_iff.mp hrun
    obtain ⟨tokens', q', htokens', hpure'⟩ := bind_eq_some_iff.mp hrun'
    obtain ⟨htwins, hq⟩ := (inStep_consumeTokens width).run he hp htokens htokens'
    have htouch : Token.allTouch tokens = Token.allTouch tokens' := by
      rw [(consumeTokens_eq hp.left htokens).1, (consumeTokens_eq hp.right htokens').1,
        hp.place.allTouch_take hknown]
    have hoperator := twin_compositeOperator htwins
    refine (InStep.pure ?_).run he hq hpure hpure'
    rw [htouch]
    split
    · exact hoperator
    · exact hoperator.withDiagnostic _

/-- The operator of a compound assignment, and the `=` that may be a token of its own. -/
theorem inStep_compoundOperatorOf (shape : CompoundOperator) :
    InStep (fun r r' => r.1.Twin r'.1 ∧ PartTwin r.2 r'.2) (compoundOperatorOf shape)
      (compoundOperatorOf shape) := by
  refine .ite (fun _ => inStep_consumeNode.bind fun _ _ ho => ?_) fun _ =>
    ((inStep_consumeTokens _).map fun _ _ h => twin_compositeOperator h).bind fun _ _ ho => ?_
  all_goals
    refine .ite (fun _ => InStep.noPart.bind fun _ _ he => ?_) fun _ =>
      inStep_consumeNode.part.bind fun _ _ he => ?_
    all_goals exact .pure ⟨ho, he⟩

/-! ## Folding -/

variable {a b : Node}

theorem inStep_callAfter (h : a.Twin b) :
    InStep (Node.TwinIn (some .expression)) (callAfter a) (callAfter b) :=
  inStep_arguments.bind fun _ _ hi =>
    .pure (.ofItems rfl rfl rfl rfl hi.items (by simp [h, hi.opening, hi.list, hi.close]))

/-- `operand.name`, which a parenthesis makes a method call. -/
theorem inStep_memberAfter (h : a.Twin b) :
    InStep (Node.TwinIn (some .expression)) (memberAfter a) (memberAfter b) := by
  refine inStep_consumeNode.bind fun _ _ hd => (inStep_expect _ _).bind fun _ _ hn => ?_
  refine (inStep_isNext _).same fun _ => .ite (fun _ => ?_) fun _ => ?_
  · refine inStep_arguments.bind fun _ _ hi => .pure (.ofItems rfl rfl rfl rfl hi.items ?_)
    simp [h, hd, hn, hi.opening, hi.list, hi.close]
  · exact .pure (.of rfl rfl (by simp [h, hd, hn]))

theorem inStep_optionalMemberAfter (h : a.Twin b) :
    InStep (Node.TwinIn (some .expression)) (optionalMemberAfter a) (optionalMemberAfter b) := by
  refine inStep_consumeNode.bind fun _ _ ho => (inStep_expect _ _).bind fun _ _ hn => ?_
  exact .pure (.of rfl rfl (by simp [h, ho, hn]))

/-- `operand[keys]`, with commas between the keys. -/
theorem inStep_indexAfter (h : a.Twin b) :
    InStep (Node.TwinIn (some .expression)) (indexAfter a) (indexAfter b) := by
  refine inStep_consumeNode.bind fun _ _ ho => ?_
  refine (inStep_delimited _ _ _ (by decide) inStep_value).bind fun _ _ hk => ?_
  exact .pure (.ofItems rfl rfl rfl rfl hk.items (by simp [h, ho, hk.list, hk.close]))

theorem inStep_typeTestAfter (h : a.Twin b) :
    InStep (Node.TwinIn (some .expression)) (typeTestAfter a) (typeTestAfter b) := by
  refine inStep_consumeNode.bind fun _ _ ho => (inStep_typeDescriptor _).twin.bind fun _ _ ht => ?_
  exact .pure (.of rfl rfl (by simp [h, ho, ht]))

theorem inStep_conditionalAfter (flags : ExpressionFlags) (h : a.Twin b) :
    InStep (Node.TwinIn (some .expression)) (conditionalAfter a flags)
      (conditionalAfter b flags) := by
  refine .within _ (inStep_consumeNode.bind fun _ _ hq => ?_)
  refine (inStep_expression _ _).twin.bind fun _ _ hm => (inStep_expect _ _).bind fun _ _ hc => ?_
  refine (inStep_expression _ _).twin.bind fun _ _ ho => ?_
  exact .pure (.of rfl rfl (by simp [h, hq, hm, hc, ho]))

/-- An operator of the width that has been seen, and the operand to the right of it. -/
theorem inStep_binaryAfter (width : Nat) (floor : Precedence) (flags : ExpressionFlags)
    (h : a.Twin b) :
    InStepWhere (fun p _ => p.HasOperator width) (Node.TwinIn (some .expression))
      (binaryAfter a width floor flags) (binaryAfter b width floor flags) := by
  refine (inStep_operatorOf width).bind fun _ _ ho => ?_
  refine (inStep_expression _ _).twin.bind fun _ _ hr => ?_
  exact .pure (.of rfl rfl (by simp [h, ho, hr]))

/-- One operator is folded onto the left operand, whatever its sort. -/
theorem inStep_foldOperator (level : Precedence) (width : Nat) (flags : ExpressionFlags)
    (h : a.Twin b) :
    InStepWhere (fun p _ => p.HasOperator width) (Node.TwinIn (some .expression))
      (foldOperator a level width flags) (foldOperator b level width flags) := by
  refine .afterKind fun kind => ?_
  split
  · exact (inStep_callAfter h).anywhere
  · exact (inStep_memberAfter h).anywhere
  · exact (inStep_optionalMemberAfter h).anywhere
  · exact (inStep_indexAfter h).anywhere
  · exact (inStep_remoteCallOrSend flags h).anywhere
  · exact (inStep_syncSend flags h).anywhere
  iterate 2 exact (inStep_typeTestAfter h).anywhere
  · exact (inStep_conditionalAfter flags h).anywhere
  · -- an operator of one token does not reach past the next token
    exact (inStep_binaryAfter 1 .conditional flags h).weaken fun _ _ _ _ hi => absurd hi (by simp)
  · exact inStep_binaryAfter width level flags h

/-- One operator after the other, each turn with what it has found ahead. -/
theorem inStep_operatorsAfter (floor : Precedence) (flags : ExpressionFlags)
    (h : a.TwinIn (some .expression) b) :
    InStep (Node.TwinIn (some .expression)) (operatorsAfter floor a flags)
      (operatorsAfter floor b flags) := by
  refine .loop h fun a b h => ?_
  refine InStepWhere.inStep ?_
  refine (inStep_operatorAbove? floor flags).finding
    (fun found p => ∀ operator ∈ found, p.HasOperator operator.2)
    (fun hv _ hrun => hasOperator_of_operatorAbove? hv hrun) fun found _ heq => ?_
  subst heq
  cases found with
  | none => exact (InStep.pure (.inr h)).anywhere
  | some operator =>
    have hfold := inStep_foldOperator operator.1 operator.2 flags h.toTwin
    refine (hfold.weaken fun p _ hknown => hknown operator rfl).bind fun _ _ hr => ?_
    exact .pure (.inl hr)

end ParseM

end TolerantSyntax
