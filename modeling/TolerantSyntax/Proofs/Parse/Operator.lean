import TolerantSyntax.Grammar.Operator
import TolerantSyntax.Proofs.Lexer.Cursor
import TolerantSyntax.Proofs.Parse.Action
import TolerantSyntax.Proofs.Parse.Type

/-!
# Operators

Whatever is folded onto an operand begins with a token that is consumed, so folding comes to an end.
-/

namespace TolerantSyntax

namespace Yield

/-- Tokens as leaves. -/
def tokens : Yield (List Token) :=
  ⟨fun tokens => tokens.map fun token => some (.leaf token), fun _ => True⟩

/-- A node and a part that may be left out. -/
def withSlot : Yield (Node × Option Node) :=
  ⟨fun parts => [some parts.1, parts.2], fun _ => True⟩

end Yield

namespace ParseM

/-! ## Recognising operators -/

/-- An operator that is found has at least one token, and this is not the end of input. -/
theorem looks_operatorAhead? :
    Looks operatorAhead? fun k found => ∀ operator ∈ found, k ≠ .eof ∧ 0 < operator.2 := by
  refine looks_nextKind.bind fun kind => (looks_kindAt 1).bind fun second => ?_
  split
  · next h =>
    have hgt : kind = .gt := beq_iff_eq.mp ((Bool.and_eq_true _ _).mp h).1
    refine (looks_kindAt 2).bind fun third => .pure fun k _ _ hk operator ho => ?_
    cases ho
    refine ⟨by rw [hk, hgt]; decide, ?_⟩
    show 0 < if (third == Kind.gt) = true then 3 else 2
    split <;> decide
  · refine .pure fun k _ hk operator ho => ?_
    obtain ⟨level, hl, rfl⟩ := Option.map_eq_some_iff.mp ho
    refine ⟨?_, Nat.one_pos⟩
    rintro rfl
    rw [← hk, show Precedence.ofOperator? .eof = none from rfl] at hl
    cases hl

/-- The first token of a compound assignment is that of an operator. -/
theorem looks_compoundAhead? :
    Looks compoundAhead? fun k found => found.isSome = true → k.isCompoundOperator = true := by
  refine (looks_peekAt 0).bind fun first => (looks_peekAt 1).bind fun second => ?_
  split
  · exact .pure fun _ _ _ h => absurd h Bool.false_ne_true
  · next hfirst =>
    have hcompound : first.kind.isCompoundOperator = true := by simp_all
    split
    · exact .pure fun _ _ hk _ => hk.1 rfl ▸ hcompound
    · exact (looks_peekAt 2).bind fun third => .pure fun _ _ _ hk _ => hk.1 rfl ▸ hcompound
    all_goals exact .pure fun _ _ hk _ => hk.1 rfl ▸ hcompound

/-- An operator that has the `=` in its last token is one of several tokens, and ends with it. -/
def EndsFused (shape : CompoundOperator) (parser : Parser) : Prop :=
  shape.fused = true → shape.width ≠ 1 ∧
    (parser.reader.place.take shape.width).1.getLast?.map Token.kind = some .gtEqual

/-- The token that is seen ahead is among those that a scan of the place finds. -/
theorem getElem?_take_of_peekAt {env : Env} {p q : Parser} {ahead : Nat} {token : Token}
    (hv : p.Valid) (hrun : peekAt ahead env p = some (token, q)) :
    (p.reader.place.take (ahead + 1)).1[ahead]? = some token ∧ q.Valid ∧
      q.reader.place = p.reader.place := by
  cases hrun
  obtain ⟨htoken, hat, -, -⟩ := TokenReader.IsAt.peek hv ahead
  exact ⟨htoken, hat.toValid, hat.place_eq⟩

theorem token_of_peekAt {env : Env} {p q : Parser} {ahead : Nat} {token : Token} (hv : p.Valid)
    (hrun : peekAt ahead env p = some (token, q)) :
    token = p.reader.place.tokenAt ahead ∧ q.Valid ∧ q.reader.place = p.reader.place := by
  obtain ⟨hget, hvalid, hplace⟩ := getElem?_take_of_peekAt hv hrun
  rw [Scanner.getElem?_take_tokenAt, Option.some.injEq] at hget
  exact ⟨hget.symm, hvalid, hplace⟩

/-- Where `=` belongs to the last token of the operator, that token is `>=`. -/
theorem endsFused_of_compoundAhead? {env : Env} {p q : Parser} {shape : CompoundOperator}
    (hv : p.Valid) (hrun : compoundAhead? env p = some (some shape, q)) : EndsFused shape q := by
  obtain ⟨first, p₁, hfirst, hrun⟩ := bind_eq_some_iff.mp hrun
  obtain ⟨second, p₂, hsecond, hrun⟩ := bind_eq_some_iff.mp hrun
  obtain ⟨-, hv₁, hplace₁⟩ := getElem?_take_of_peekAt hv hfirst
  obtain ⟨hget₂, hv₂, hplace₂⟩ := getElem?_take_of_peekAt hv₁ hsecond
  have hlast {count : Nat} {token : Token} {place : Scanner} (hk : token.kind = .gtEqual)
      (h : (place.take (count + 1)).1[count]? = some token) :
      (place.take (count + 1)).1.getLast?.map Token.kind = some .gtEqual := by
    rw [List.getLast?_eq_getElem?, Scanner.length_take, Nat.add_sub_cancel, h, Option.map_some, hk]
  -- the match is on the kinds of the first two tokens
  generalize first.kind = kind at hrun
  generalize hk : second.kind = other at hrun
  split at hrun
  · cases hrun
  · split at hrun
    · cases hrun
      exact fun _ => ⟨by decide, hplace₂ ▸ hlast hk hget₂⟩
    · obtain ⟨third, p₃, hthird, hrun⟩ := bind_eq_some_iff.mp hrun
      obtain ⟨hget₃, -, hplace₃⟩ := getElem?_take_of_peekAt hv₂ hthird
      split at hrun
      · next hk =>
        cases hrun
        have hk := beq_iff_eq.mp (Bool.and_eq_true_iff.mp hk).1
        exact fun _ => ⟨by decide, hplace₃ ▸ hlast hk hget₃⟩
      · cases hrun
    · cases hrun
    · cases hrun
      exact fun h => absurd h Bool.false_ne_true
    · cases hrun

/-- An operator is left alone where it is not above the floor. -/
theorem looks_operatorAbove? (floor : Precedence) (flags : ExpressionFlags) :
    Looks (operatorAbove? floor flags) fun k found =>
      ∀ operator ∈ found, k ≠ .eof ∧ 0 < operator.2 := by
  refine looks_compoundAhead?.bind fun shape => ?_
  split
  · exact .pure fun k _ operator ho => by cases ho
  · refine looks_operatorAhead?.bind fun found => .pure fun k hf _ operator ho => hf operator ?_
    exact (Option.filter_eq_some_iff.mp ho).1

/-! ## Consuming operators -/

/-- So many tokens stand in the row. -/
theorem reads_consumeTokens (count : Nat) : Reads 0 [] (consumeTokens count) .tokens := by
  induction count with
  | zero => exact Reads.pure trivial rfl
  | succ count ih =>
    exact reads_consume.bind fun token _ => ih.bind fun tokens _ => Reads.pure trivial rfl

/-- At least one of them is consumed. -/
theorem begins_consumeTokens (count : Nat) :
    Begins HasNext [] (consumeTokens (count + 1)) .tokens :=
  begins_consume.bind fun _ _ =>
    (reads_consumeTokens count).bind fun _ _ => Reads.pure trivial rfl

/-- The tokens become one node. -/
theorem becomes_compositeOperator (tokens : List Token) :
    Row.Becomes (tokens.map fun token => some (.leaf token)) [some (compositeOperator tokens)] := by
  have h := Row.Becomes.group .compositeOperator ((tokens.map Node.leaf).map some) rfl
  simpa [compositeOperator, Node.of, Node.ofSlots, Function.comp_def] using h

/-- An operator of any width but zero consumes a token. -/
theorem opens_operatorOf (width : Nat) :
    Opens (fun k => HasNext k ∧ 0 < width) 0 [] (operatorOf width) .piece := by
  have hfinish (tokens : List Token) :
      Reads 0 (Yield.tokens.row tokens) (do
        let operator := compositeOperator tokens
        return if Token.allTouch tokens then operator
          else operator.withDiagnostic .invalidShiftOperator) .piece := by
    refine Meets.pure ((becomes_compositeOperator tokens).trans ?_) trivial id
    split
    · exact .refl _
    · exact .flag _ _
  unfold operatorOf
  split
  · exact ⟨reads_consumeNode.piece, begins_consumeNode.piece.mono (fun _ h => h.1) fun _ h => h⟩
  · refine ⟨(reads_consumeTokens width).bind fun tokens _ => hfinish tokens, ?_⟩
    cases width with
    | zero =>
      exact Meets.unreachable ((reads_consumeTokens 0).bind fun tokens _ => (hfinish tokens).weaken)
        fun k h => absurd h.2 (Nat.lt_irrefl 0)
    | succ width =>
      exact (begins_consumeTokens width).bindFrom (by simp +contextual) fun tokens _ =>
        (hfinish tokens).weaken

/-- Behind a token that is consumed the reader stands where a scan would. -/
theorem place_of_consume {env : Env} {p q : Parser} {token : Token} (hv : p.Valid)
    (hrun : consume env p = some (token, q)) : q.reader.place = p.reader.place.next.2 := by
  cases hrun
  exact (TokenReader.IsAt.consume hv).2.1.place_eq

/-- The token has the kind that the scan finds. -/
theorem kind_of_consume {env : Env} {p q : Parser} {token : Token} (hv : p.Valid)
    (hrun : consume env p = some (token, q)) : token.kind = p.reader.place.next.1.kind := by
  cases hrun
  rw [← (TokenReader.IsAt.consume hv).1]
  rfl

/-- The tokens that are consumed are those ahead. -/
theorem map_kind_of_consumeTokens {env : Env} {count : Nat} {p q : Parser} {tokens : List Token}
    (hv : p.Valid) (hrun : consumeTokens count env p = some (tokens, q)) :
    tokens.map Token.kind = (p.reader.place.take count).1.map Token.kind := by
  induction count generalizing p tokens with
  | zero =>
    cases hrun
    rfl
  | succ count ih =>
    obtain ⟨token, p₁, hconsume, hrun⟩ := bind_eq_some_iff.mp hrun
    obtain ⟨rest, p₂, hrest, hrun⟩ := bind_eq_some_iff.mp hrun
    cases hrun
    have hv₁ := (leads_consume hv hconsume token.kind).valid
    rw [List.map_cons, ih hv₁ hrest, Scanner.take, List.map_cons, place_of_consume hv hconsume,
      kind_of_consume hv hconsume]

/-- What can be seen of the node is the kind of its last token. -/
theorem outline_compositeOperator (tokens : List Token) :
    (compositeOperator tokens).outline =
      ⟨.compositeOperator, (tokens.map Token.kind).getLast?⟩ := by
  have hchildren : (compositeOperator tokens).children = tokens.map Node.leaf := by
    simp [compositeOperator, Node.children, Node.of, Node.slots, List.filterMap_map]
  rw [Node.outline, hchildren, List.getLast?_map, List.getLast?_map, Option.map_map]
  rfl

/-- There is a token `=`, or `>=` ends the operator. -/
theorem fused_of_compoundOperatorOf {env : Env} {shape : CompoundOperator} {p q : Parser}
    {operator : Node} {equal : Option Node} (hv : p.Valid) (hs : EndsFused shape p)
    (hrun : compoundOperatorOf shape env p = some ((operator, equal), q)) :
    equal.isSome = true ∨ operator.outline.endsFused = true := by
  unfold compoundOperatorOf at hrun
  have hrest {made : Node} {r : Parser} (hrun : (do
      let equal ← if shape.fused then pure none else some <$> consumeNode
      return (made, equal) : ParseM (Node × Option Node)) env r = some ((operator, equal), q)) :
      operator = made ∧ (shape.fused = false → equal.isSome = true) := by
    split at hrun
    · next hf =>
      cases hrun
      exact ⟨rfl, fun h => absurd hf (Bool.eq_false_iff.mp h)⟩
    · obtain ⟨token, r', htoken, hrun⟩ := bind_eq_some_iff.mp hrun
      cases hrun
      obtain ⟨leaf, -, rfl⟩ := map_eq_some_iff.mp htoken
      exact ⟨rfl, fun _ => rfl⟩
  -- a fused operator has more than one token, so its last one can be looked at
  by_cases hf : shape.fused = true
  · obtain ⟨hwidth, hlast⟩ := hs hf
    rw [if_neg (by simpa using hwidth)] at hrun
    obtain ⟨made, r, hmade, hrun⟩ := bind_eq_some_iff.mp hrun
    obtain ⟨tokens, htokens, rfl⟩ := map_eq_some_iff.mp hmade
    obtain ⟨rfl, -⟩ := hrest hrun
    refine Or.inr ?_
    rw [outline_compositeOperator, map_kind_of_consumeTokens hv htokens, List.getLast?_map, hlast]
    rfl
  · refine Or.inl ?_
    by_cases hw : (shape.width == 1) = true
    · rw [if_pos hw] at hrun
      obtain ⟨made, r, -, hrun⟩ := bind_eq_some_iff.mp hrun
      exact (hrest hrun).2 (Bool.eq_false_iff.mpr hf)
    · rw [if_neg hw] at hrun
      obtain ⟨made, r, -, hrun⟩ := bind_eq_some_iff.mp hrun
      exact (hrest hrun).2 (Bool.eq_false_iff.mpr hf)

/-- The operator, and the `=` that may be a token of its own. -/
theorem reads_compoundOperatorOf (shape : CompoundOperator) :
    Reads 0 [] (compoundOperatorOf shape) .withSlot := by
  unfold compoundOperatorOf
  extract_lets rest
  have hrest (operator : Node) : Reads 0 [some operator] (rest operator) .withSlot := by
    unfold rest
    extract_lets finish
    have hfinish (equal : Option Node) :
        Reads 0 [some operator, equal] (finish equal) .withSlot := Reads.pure trivial rfl
    split
    · exact Reads.noPart.bind fun equal _ => hfinish equal
    · exact reads_consumeNode.part.bind fun equal _ => hfinish equal
  split
  · exact reads_consumeNode.bind fun operator _ => hrest operator
  · have htokens : Reads 0 [] (compositeOperator <$> consumeTokens shape.width) .piece :=
      (reads_consumeTokens _).map (fun tokens _ => ⟨becomes_compositeOperator tokens, trivial⟩)
        fun _ hf => hf
    exact htokens.bind fun operator _ => hrest operator

/-! ## Suffixes and operators -/

variable {lhs : Node} (hl : lhs.HasToken) (flags : ExpressionFlags)
include hl

/-- The left operand is the first part of a call, and arguments come behind it. -/
theorem begins_callAfter : Begins (· = .openParen) [some lhs] (callAfter lhs) .node :=
  opens_arguments.begins.bind fun ⟨opening, items, close⟩ _ => Reads.of hl (by simp) rfl rfl

/-- The dot is consumed first, whether a method or a field is behind it. -/
theorem begins_memberAfter : Begins HasNext [some lhs] (memberAfter lhs) .node := by
  refine begins_consumeNode.bind fun dot _ => ?_
  refine (reads_expect _ _).bind fun name _ => Meets.isNext ?_ (Reads.of hl (by simp) rfl rfl)
  exact opens_arguments.reads.bind fun ⟨opening, items, close⟩ _ => Reads.of hl (by simp) rfl rfl

theorem begins_optionalMemberAfter : Begins HasNext [some lhs] (optionalMemberAfter lhs) .node := by
  refine begins_consumeNode.bind fun operator _ => ?_
  exact (reads_expect _ _).bind fun name _ => Reads.of hl (by simp) rfl rfl

theorem begins_indexAfter : Begins HasNext [some lhs] (indexAfter lhs) .node := by
  refine begins_consumeNode.bind fun opening _ => ?_
  exact (reads_delimited (by decide) reads_value).bind fun ⟨keys, close⟩ _ =>
    Reads.of hl (by simp) rfl rfl

theorem begins_typeTestAfter : Begins HasNext [some lhs] (typeTestAfter lhs) .node := by
  refine begins_consumeNode.bind fun operator _ => ?_
  exact (reads_typeDescriptor _).bind fun type _ => Reads.of hl (by simp) rfl rfl

theorem begins_conditionalAfter : Begins HasNext [some lhs] (conditionalAfter lhs flags) .node := by
  refine Meets.within (begins_consumeNode.bind fun question _ => ?_)
  refine (reads_expression _ _).bind fun middle _ => ?_
  refine (reads_expect _ _).bind fun colon _ => ?_
  exact (reads_expression _ _).bind fun otherwise _ => Reads.of hl (by simp) rfl rfl

/-- An operator is consumed before its right operand, so that may be any expression. -/
theorem begins_binaryAfter (width : Nat) (floor : Precedence) :
    Begins (fun k => HasNext k ∧ 0 < width) [some lhs] (binaryAfter lhs width floor flags)
      .node := by
  refine (opens_operatorOf width).begins.bind fun operator _ => ?_
  exact (reads_expression _ _).bind fun rhs _ => Reads.of hl (by simp) rfl rfl

/-- So whatever operator comes next, it is consumed before any rule is referred to. -/
theorem begins_foldOperator (level : Precedence) (width : Nat) :
    Begins (fun k => HasNext k ∧ 0 < width) [some lhs] (foldOperator lhs level width flags)
      .node := by
  refine looks_nextKind.meets fun kind => ?_
  split
  · exact (begins_callAfter hl).weaken (by simp +contextual)
  · exact (begins_memberAfter hl).weaken (by simp +contextual)
  · exact (begins_optionalMemberAfter hl).weaken (by simp +contextual)
  · exact (begins_indexAfter hl).weaken (by simp +contextual)
  · exact (begins_remoteCallOrSend hl flags).weaken (by simp +contextual)
  · exact (begins_syncSend hl flags).weaken (by simp +contextual)
  · exact (begins_typeTestAfter hl).weaken (by simp +contextual)
  · exact (begins_typeTestAfter hl).weaken (by simp +contextual)
  · exact (begins_conditionalAfter hl flags).weaken (by simp +contextual)
  · exact (begins_binaryAfter hl flags 1 _).weaken (by simp +contextual)
  · exact (begins_binaryAfter hl flags width level).weaken fun _ h => h.1

/-- Each turn folds one operator, and the last one finds none. -/
theorem reads_operatorsAfter (floor : Precedence) :
    Reads 0 [some lhs] (operatorsAfter floor lhs flags) .node := by
  refine Reads.loop .node (fun lhs hl => ?_) hl rfl
  refine (looks_operatorAbove? floor flags).meets fun found => ?_
  split
  · next level width =>
    refine Begins.bindOn [] (begins_foldOperator hl flags level width) ?_ ?_
    · exact fun node hn => Reads.pure hn rfl
    · exact fun k hk => hk.2 (level, width) rfl
  · exact Meets.pure (.refl _) hl (by simp)

end ParseM

end TolerantSyntax
