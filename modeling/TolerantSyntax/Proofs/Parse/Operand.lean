import TolerantSyntax.Grammar.Operand
import TolerantSyntax.Proofs.Parse.Function
import TolerantSyntax.Proofs.Parse.Operator
import TolerantSyntax.Proofs.Parse.Query
import TolerantSyntax.Proofs.Tree.Items

/-!
# Operands

An operand that is no name begins with a token of its own. The names of an arrow function are read
up to a closing parenthesis without asking anyone. That ends, and gives names with commas between
them, because just this has been seen ahead.
-/

namespace TolerantSyntax

namespace ParseM

variable {bound : Nat}

/-! ## Prefix operators -/

/-- A prefix operator is consumed before the operand, so the operand may be any expression. -/
theorem begins_unary (flags : ExpressionFlags) : Begins HasNext [] (unary flags) .node :=
  begins_consumeNode.bind fun _ ho => (reads_expression _ _).bind fun operand _ =>
    Reads.of ho (by simp) rfl rfl

theorem begins_typeofExpression (flags : ExpressionFlags) :
    Begins HasNext [] (typeofExpression flags) .node :=
  begins_consumeNode.bind fun _ hk => (reads_expression _ _).bind fun operand _ =>
    Reads.of hk (by simp) rfl rfl

theorem begins_trapExpression (flags : ExpressionFlags) :
    Begins HasNext [] (trapExpression flags) .node :=
  begins_consumeNode.bind fun _ hk => (reads_expression _ _).bind fun operand _ =>
    Reads.of hk (by simp) rfl rfl

/-- The operand is wrapped in one node or the other, but always wrapped. -/
theorem begins_checkExpression (flags : ExpressionFlags) :
    Begins HasNext [] (checkExpression flags) .node := by
  refine begins_consumeNode.bind fun keyword hk => ?_
  refine (reads_expression _ _).bind fun first hf => looks_nextKind.meets fun kind => ?_
  extract_lets finish
  have hfinish (operand : Node) : Reads 0 [some keyword, some operand] (finish operand) .node := by
    refine Reads.of hk (by simp) rfl ?_
    split <;> rfl
  split
  · exact (reads_operatorsAfter hf _ _).bindOn [some keyword] rfl fun operand _ =>
      (hfinish operand).weaken
  · exact (hfinish first).weaken

/-- A cast begins with its bracket, and its type may be left out behind annotations. -/
theorem begins_typeCast (flags : ExpressionFlags) : Begins HasNext [] (typeCast flags) .node := by
  refine Meets.within (begins_consumeNode.bind fun opening ho => ?_)
  refine reads_metadata.bind fun annotations _ => ?_
  extract_lets close
  have hclose (type : Option Node) :
      Reads Rule.maxRank [some opening, annotations, type] (close type) .node := by
    refine (reads_expect _ _).bind fun close _ => ?_
    exact (reads_expression _ _).bind fun operand _ => Reads.ofSlots ho (by simp) rfl rfl
  refine Meets.isNext ?_ ?_
  · exact Reads.noPart.bind fun type _ => hclose type
  · exact (reads_typeDescriptor _).part.bind fun type _ => hclose type

/-! ## Functions -/

/-- The parameters become the first part of the function. -/
theorem reads_arrowFunctionAfter {parameters : Node} (hp : parameters.HasToken)
    (flags : ExpressionFlags) :
    Reads 4 [some parameters] (arrowFunctionAfter parameters flags) .node := by
  refine (reads_expect _ _).bind fun arrow _ => ?_
  exact (reads_expression _ _).bind fun body _ => Reads.of hp (by simp) rfl rfl

/-- The name is consumed and becomes a node of its own first. -/
theorem begins_namedArrowFunction (flags : ExpressionFlags) :
    Begins HasNext [] (namedArrowFunction flags) .node := by
  refine Meets.within (begins_consumeNode.bind fun token ht => ?_)
  refine Meets.before (becomes_simpleName token) ?_
  exact (reads_arrowFunctionAfter (hasToken_simpleName ht) flags).weaken

theorem reads_anonymousBody : Reads 8 [] anonymousBody .node := by
  refine Meets.isNext ?_ opens_functionBlock.reads.weaken
  refine reads_consumeNode.bind fun arrow ha => ?_
  refine reads_value.bind fun result _ => ?_
  exact Meets.before (.withGap _) (Reads.ofSlots ha (by simp) rfl rfl)

/-- A function without a name begins with its keyword or a qualifier of it. -/
theorem begins_anonymousFunction :
    Begins (fun k => k = .functionKeyword ∨ functionQualifiers.contains k = true) []
      anonymousFunction .node := by
  have hfunction (qualifiers : Node) : Opens (· = .functionKeyword) 8 [some qualifiers]
      (do
        let keyword ← expect .functionKeyword .anonymousFunction
        let signature ← functionSignature
        let body ← anonymousBody
        return .of .explicitAnonymousFunction [qualifiers, keyword, signature, body]) .node := by
    refine (opens_expect (by decide) _).bind fun keyword hk => ?_
    refine opens_functionSignature.reads.bind fun signature _ => ?_
    exact reads_anonymousBody.bind fun body _ => Reads.of hk (by simp) rfl rfl
  refine Meets.within (perhaps_functionQualifiers.bind (fun qualifiers _ => ?_) ?_)
  · exact (hfunction qualifiers).reads.weaken
  · refine (hfunction _).begins.weaken ?_
    rintro k ⟨hk, hne⟩
    exact hk.resolve_right hne

/-! ## Parentheses and constructors -/

/-- Behind the parenthesis stands anything, or the one that closes. -/
theorem begins_braced (flags : ExpressionFlags) : Begins HasNext [] (braced flags) .node := by
  refine Meets.within (begins_consumeNode.bind fun opening ho => Meets.isNext ?_ ?_)
  · exact reads_consumeNode.bind fun close _ => Reads.of ho (by simp) rfl rfl
  · refine (reads_expression _ _).bind fun inner _ => ?_
    exact (reads_expect _ _).bind fun close _ => Reads.of ho (by simp) rfl rfl

/-- `...` is consumed first if it is there; else a member is what its value is. -/
theorem reads_listMember : Reads 4 [] listMember .node := by
  refine Meets.isNext ?_ reads_value.weaken
  refine reads_consumeNode.bind fun ellipsis he => ?_
  exact reads_value.bind fun value _ => Reads.of he (by simp) rfl rfl

/-- Members that have been read before, and those that follow, go into one list. -/
theorem reads_listConstructorAfter {opening : Node} (ho : opening.HasToken) (items : List Node) :
    Reads 4 (some opening :: items.map some) (listConstructorAfter opening items) .node := by
  refine (reads_delimitedAfter items (by decide) reads_listMember).bindOn [some opening] rfl ?_
  exact fun ⟨members, close⟩ _ => Reads.of ho (by simp) rfl rfl

theorem begins_listConstructor : Begins (· = .openBracket) [] listConstructor .node :=
  (begins_expect (by decide) _).bind fun _ ho => (reads_listConstructorAfter ho []).weaken

theorem begins_errorConstructor : Begins (· = .errorKeyword) [] errorConstructor .node := by
  refine (begins_expect (by decide) _).bind fun keyword hk => ?_
  refine (reads_ifNext opens_typeReference.begins (by simp)).bind fun type _ => ?_
  exact opens_arguments.reads.bind fun ⟨opening, items, close⟩ _ =>
    Reads.ofSlots hk (by simp) rfl rfl

/-- `new` needs no arguments: what is left out is noted in the tree. -/
theorem begins_newExpression : Begins HasNext [] newExpression .node := by
  refine Meets.within (begins_consumeNode.bind fun keyword hk => ?_)
  refine looks_nextKind.meets fun kind => ?_
  split
  · exact opens_argumentList.reads.bind fun arguments _ => Reads.of hk (by simp) rfl rfl
  · refine opens_typeReference.reads.bind fun type _ => ?_
    exact opens_argumentList.reads.bind fun arguments _ => Reads.of hk (by simp) rfl rfl
  · refine (reads_typeDescriptor _).bind fun type _ => ?_
    exact opens_argumentList.reads.bind fun arguments _ => Reads.of hk (by simp) rfl rfl
  · exact Meets.before (.withGap _) (Reads.ofSlots hk (by simp) rfl rfl)

theorem begins_letExpression (flags : ExpressionFlags) :
    Begins HasNext [] (letExpression flags) .node := by
  refine Meets.within (begins_consumeNode.bind fun keyword hk => ?_)
  refine (reads_delimited (by decide) reads_letVariable).bind fun ⟨declarations, inKeyword⟩ _ => ?_
  exact (reads_expression _ _).bind fun body _ => Reads.of hk (by simp) rfl rfl

/-! ## Arrow functions without types -/

/-- Kinds seen ahead begin with that of the next token, and go on with those behind it. -/
theorem map_kind_take_eq_cons {scanner : Scanner} {count : Nat} {kind : Kind} {kinds : List Kind}
    (h : (scanner.take count).1.map (·.kind) = kind :: kinds) :
    scanner.next.1.kind = kind ∧ ∃ count, (scanner.next.2.take count).1.map (·.kind) = kinds := by
  cases count with
  | zero => cases h
  | succ count =>
    rw [Scanner.take, List.map_cons, List.cons.injEq] at h
    exact ⟨h.1, count, h.2⟩

/-- The parameters of an arrow function without types are ahead. -/
def InfersParameters (parser : Parser) : Prop :=
  ∃ count, Lookahead.infersParameters ((parser.reader.place.take count).1.map (·.kind)) = true

/-- Names of an arrow function have been read, with the commas behind them. -/
inductive NamesRead (names : List Node) (parser : Parser) : Prop where
  /-- Another name is ahead. -/
  | more {count : Nat}
      (ahead : Lookahead.namesBeforeArrow ((parser.reader.place.take count).1.map (·.kind)) = true)
      (read : Alternating false false (names.map Node.leafKind?))
  /-- These are all, and the parenthesis that closes is ahead. -/
  | all (ahead : parser.ahead = .closeParen) (read : Node.Alternates names)

section Names

variable {env : Env} {p q : Parser} {names : List Node}

/-- Where names are ahead, the first has a comma and further names behind it, or the parenthesis
that closes. -/
theorem eq_cons_of_namesBeforeArrow {kinds : List Kind}
    (h : Lookahead.namesBeforeArrow kinds = true) :
    ∃ rest, kinds = .identifier :: .comma :: rest ∧ Lookahead.namesBeforeArrow rest = true ∨
      kinds = .identifier :: .closeParen :: rest := by
  unfold Lookahead.namesBeforeArrow at h
  split at h
  · exact ⟨_, .inl ⟨rfl, h⟩⟩
  · exact ⟨_, .inr rfl⟩
  · exact absurd h Bool.false_ne_true

/-- Behind the parenthesis that opens, the names begin. -/
theorem InfersParameters.namesRead {token : Token} (h : InfersParameters p) (hv : p.Valid)
    (hrun : consume env p = some (token, q)) : NamesRead [] q := by
  obtain ⟨count, h⟩ := h
  have hplace := place_of_consume hv hrun
  unfold Lookahead.infersParameters at h
  split at h
  · next heq =>
    obtain ⟨-, count', hrest⟩ := map_kind_take_eq_cons heq
    rw [← hplace] at hrest
    exact .all (map_kind_take_eq_cons hrest).1 (.inl rfl)
  · next heq =>
    obtain ⟨-, count', rfl⟩ := map_kind_take_eq_cons heq
    rw [← hplace] at h
    exact .more h .nil
  · exact absurd h Bool.false_ne_true

/-- What is upcoming are the next tokens up to some count, and looking changes nothing. -/
theorem upcoming_eq (env : Env) (hv : p.Valid) :
    ∃ count q, upcoming env p = some ((p.reader.place.take count).1.map (·.kind), q) ∧
      Same p q := by
  obtain ⟨⟨count, htokens⟩, hat, hmodes, hconsumed⟩ := TokenReader.IsAt.upcoming hv
  refine ⟨count, { p with reader := p.reader.upcoming.2 }, ?_,
    ⟨hat.toValid, hat.place_eq, rfl, rfl, hconsumed, rfl, hmodes, .of_eq rfl⟩⟩
  rw [← htokens]
  rfl

/-- A turn over the names of an arrow function. -/
def inferredName (names : List Node) : ParseM (List Node ⊕ List Node) := do
  if ← isNext .closeParen then return .inr names
  let name := simpleName (← consumeNode)
  let comma ← optional .comma
  return .inl (names ++ name :: comma.toList)

theorem inferredNames_eq : inferredNames = loop [] inferredName := rfl

/-- A turn puts a name, and the comma if there is one, behind the names before it. -/
theorem reads_inferredName (names : List Node) :
    Reads 0 (names.map some) (inferredName names) (.turn .items .items) := by
  refine Meets.isNext (Meets.pure (.refl _) trivial id) ?_
  refine reads_consumeNode.bind fun token _ => ?_
  refine Meets.before ((becomes_simpleName token).append_left _) ?_
  refine (reads_optional (by decide)).bind fun comma _ => ?_
  cases comma with
  | none =>
    refine Meets.pure ((Row.Becomes.skip.append_left _).trans ?_) trivial id
    simpa [Yield.turn, Yield.items] using Row.Becomes.refl _
  | some comma => exact Reads.pure trivial (by simp [Yield.turn, Yield.items, Yield.slot])

/-- A token that is ahead can be consumed as a leaf of its kind. -/
theorem exists_consumeLeaf (hv : p.Valid) (hne : p.ahead ≠ .eof) (env : Env) :
    ∃ token q, consumeNode env p = some (.leaf token, q) ∧ token.kind = p.ahead ∧ q.Valid ∧
      q.reader.place = p.reader.place.next.2 ∧ q.left < p.left := by
  obtain ⟨q, hrun, hvq, -⟩ := exists_consume hv env
  exact ⟨_, q, bind_eq_some_iff.mpr ⟨_, q, hrun, rfl⟩, kind_of_consume hv hrun, hvq,
    place_of_consume hv hrun, left_consume_lt hv hne hrun⟩

theorem exists_isNext (hv : p.Valid) (kind : Kind) (env : Env) :
    ∃ q, isNext kind env p = some (p.ahead == kind, q) ∧ Same p q := by
  obtain ⟨b, q, hrun, hs, hb⟩ := (looks_isNext kind).look env hv
  have heq : b = (p.ahead == kind) := by rw [Bool.eq_iff_iff, hb, beq_iff_eq]
  exact ⟨q, heq ▸ hrun, hs⟩

/-- A token is an optional part where it is of the kind. -/
theorem exists_optional (hv : p.Valid) (hne : p.ahead ≠ .eof) (env : Env) :
    ∃ token q, optional p.ahead env p = some (some (.leaf token), q) ∧ token.kind = p.ahead ∧
      q.Valid ∧ q.reader.place = p.reader.place.next.2 ∧ q.left < p.left := by
  obtain ⟨p₁, hnext, hs⟩ := exists_isNext hv p.ahead env
  obtain ⟨token, q, hrun, hkind, hvq, hplace, hlt⟩ :=
    exists_consumeLeaf hs.valid (by rwa [hs.ahead]) env
  rw [beq_self_eq_true] at hnext
  have hpart : (some <$> consumeNode) env p₁ = some (some (.leaf token), q) := by
    rw [map_eq_pure_bind]
    exact bind_eq_some_iff.mpr ⟨_, q, hrun, rfl⟩
  exact ⟨token, q, bind_eq_some_iff.mpr ⟨_, p₁, hnext, hpart⟩, hkind.trans hs.ahead, hvq,
    hs.place ▸ hplace, hs.left ▸ hlt⟩

theorem exists_noOptional (hv : p.Valid) {kind : Kind} (hne : p.ahead ≠ kind) (env : Env) :
    ∃ q, optional kind env p = some (none, q) ∧ Same p q := by
  obtain ⟨q, hnext, hs⟩ := exists_isNext hv kind env
  rw [beq_eq_false_iff_ne.mpr hne] at hnext
  exact ⟨q, bind_eq_some_iff.mpr ⟨_, q, hnext, rfl⟩, hs⟩

/-- Where a name is ahead, a turn reads it, and then what stands in the place of a comma. -/
theorem exists_inferredName (hv : p.Valid) (ha : p.ahead = .identifier) (names : List Node)
    (env : Env) :
    ∃ name q, q.Valid ∧ q.reader.place = p.reader.place.next.2 ∧ q.left < p.left ∧
      ∀ {comma : Option Node} {r : Parser}, optional .comma env q = some (comma, r) →
        inferredName names env p =
          some (.inl (names ++ simpleName (.leaf name) :: comma.toList), r) := by
  obtain ⟨p₁, hnext, hs⟩ := exists_isNext hv .closeParen env
  rw [ha] at hnext
  obtain ⟨name, q, hname, -, hvq, hplace, hlt⟩ :=
    exists_consumeLeaf hs.valid (by rw [hs.ahead, ha]; decide) env
  refine ⟨name, q, hvq, hs.place ▸ hplace, hs.left ▸ hlt, fun hcomma => ?_⟩
  exact bind_eq_some_iff.mpr ⟨_, p₁, hnext, bind_eq_some_iff.mpr ⟨_, q, hname,
    bind_eq_some_iff.mpr ⟨_, _, hcomma, rfl⟩⟩⟩

/-- A turn goes on with the names, or ends the loop where all of them have been read. -/
theorem turn_inferredName (env : Env) (hv : p.Valid) (h : NamesRead names p) :
    (∃ next q, inferredName names env p = some (.inl next, q) ∧ q.Valid ∧ NamesRead next q ∧
      q.left < p.left) ∨
    ∃ q, inferredName names env p = some (.inr names, q) ∧ Node.Alternates names := by
  cases h with
  | all ahead read =>
    obtain ⟨p₁, hnext, -⟩ := exists_isNext hv .closeParen env
    rw [ahead] at hnext
    exact .inr ⟨p₁, bind_eq_some_iff.mpr ⟨_, p₁, hnext, rfl⟩, read⟩
  | more ahead read =>
    left
    obtain ⟨rest, ⟨heq, hmore⟩ | heq⟩ := eq_cons_of_namesBeforeArrow ahead
    all_goals
      obtain ⟨hname, _, hbehind⟩ := map_kind_take_eq_cons heq
      obtain ⟨name, p₁, hv₁, hplace, hlt, hturn⟩ := exists_inferredName hv hname names env
      rw [← hplace] at hbehind
      obtain ⟨hahead, count, hrest⟩ := map_kind_take_eq_cons hbehind
      change p₁.ahead = _ at hahead
    · obtain ⟨comma, q, hcomma, hkind, hvq, hplaceq, hltq⟩ :=
        exists_optional hv₁ (by rw [hahead]; decide) env
      rw [hahead] at hcomma hkind
      rw [← hrest, ← hplaceq] at hmore
      refine ⟨_, q, hturn hcomma, hvq, .more hmore ?_, Nat.lt_trans hltq hlt⟩
      have hlast : (Node.leaf comma).leafKind? = some .comma := congrArg some hkind
      rw [List.map_append, Option.toList_some, List.map_cons, List.map_singleton, hlast]
      exact read.append (.item (.comma .nil))
    · have hne : p₁.ahead ≠ .comma := by rw [hahead]; decide
      obtain ⟨q, hcomma, hs⟩ := exists_noOptional hv₁ hne env
      refine ⟨_, q, hturn hcomma, hs.valid, .all (hs.ahead.trans hahead) (.inr ?_), hs.left ▸ hlt⟩
      rw [List.map_append]
      exact read.append (.item .nil)

/-- With names ahead the loop ends: each turn consumes one, up to the parenthesis. -/
theorem isSome_inferredNames (hv : p.Valid) (h : NamesRead [] p) (hfuel : p.left < env.fuel) :
    (inferredNames env p).isSome := by
  rw [inferredNames_eq]
  refine isSome_bind rfl fun env' p' hp => ?_
  cases hp
  generalize env.fuel = fuel at hfuel
  generalize ([] : List Node) = names at h
  induction fuel generalizing p names with
  | zero => exact absurd hfuel (Nat.not_lt_zero _)
  | succ fuel ih =>
    obtain ⟨next, q, hturn, hvq, hnext, hlt⟩ | ⟨q, hturn, -⟩ := turn_inferredName env hv h
    all_goals
      refine isSome_bind (by rw [hturn]; rfl) fun r' q' hturn' => ?_
      cases hturn.symm.trans hturn'
    · exact ih hvq (by omega) next hnext
    · rfl

/-- The names that are read have commas between them, and none behind the last. -/
theorem alternates_inferredNames (hv : p.Valid) (h : NamesRead [] p)
    (hrun : inferredNames env p = some (names, q)) : Node.Alternates names := by
  change repeatUpTo inferredName env.fuel [] env p = _ at hrun
  generalize env.fuel = fuel at hrun
  generalize ([] : List Node) = before at h hrun
  induction fuel generalizing p before with
  | zero => cases hrun
  | succ fuel ih =>
    obtain ⟨r, p', hturn', hrun⟩ := bind_eq_some_iff.mp hrun
    obtain ⟨next, p₁, hturn, hv₁, hnext, -⟩ | ⟨p₁, hturn, hall⟩ := turn_inferredName env hv h
    all_goals cases hturn.symm.trans hturn'
    · exact ih hv₁ next hnext hrun
    · cases hrun
      exact hall

/-- Whatever is ahead, what the loop has read stands in the row. -/
theorem leads_inferredNames {names : List Node} (he : env.Sound) (hv : p.Valid)
    (hrun : inferredNames env p = some (names, q)) : p.Leads [] q (names.map some) := by
  rw [inferredNames_eq] at hrun
  obtain ⟨_, _, hp, hrun⟩ := bind_eq_some_iff.mp hrun
  cases hp
  have h : p.Leads (Yield.items.row []) q (Yield.items.row names) ∧ Yield.items.good names :=
    leads_repeatUpTo (fun names _ _ _ _ hv hs => (reads_inferredName names).leads he hv hs) _
      trivial hv hrun
  exact h.1

end Names

section InferredArrowFunction

variable {env : Env} {p q : Parser} {node : Node} {flags : ExpressionFlags}

/-- The names and what follows them lead onward; the opening parenthesis is consumed. -/
theorem leads_inferredArrowFunction (he : env.Sound) (hv : p.Valid)
    (hrun : inferredArrowFunction flags env p = some (node, q)) :
    p.Leads [] q [some node] ∧ node.HasToken ∧
      (p.ahead ≠ .eof → q.left < p.left ∧ p.Heeds q) := by
  obtain ⟨r, hbody, rfl⟩ := within_eq_some_iff.mp hrun
  obtain ⟨opening, p₁, hopening, hbody⟩ := bind_eq_some_iff.mp hbody
  obtain ⟨names, p₂, hnames, hbody⟩ := bind_eq_some_iff.mp hbody
  obtain ⟨close, p₃, hclose, hbody⟩ := bind_eq_some_iff.mp hbody
  have hv' : Parser.Valid { p with contexts := .arrowFunction :: p.contexts } := hv
  obtain ⟨hl₁, ho⟩ := reads_consumeNode.leads he hv' hopening
  have hl₂ := leads_inferredNames he hl₁.valid hnames
  obtain ⟨hl₃, -⟩ := reads_consumeNode.leads he hl₂.valid hclose
  -- the names become a list first, and with the parentheses one node
  have hparameters : Row.Becomes ([some opening] ++ names.map some ++ [some close])
      [some (.of .inferParamList [opening, .list names, close])] := by
    refine .trans (.append_right (.append_left (.group .list _ rfl) _) _) ?_
    exact .group .inferParamList [some opening, some (.list names), some close] rfl
  have hp : (Node.of .inferParamList [opening, .list names, close]).HasToken :=
    Node.hasToken_composite (List.mem_cons_self ..) ho
  obtain ⟨hl₄, ht⟩ := (reads_arrowFunctionAfter hp flags).leads he hl₃.valid hbody
  have hrest := ((hl₂.behind _).trans (hl₃.behind _)).become hparameters |>.trans hl₄
  have hl := hl₁.trans hrest
  refine ⟨⟨hl.valid, ?_, hl.modes, hl.steps, hl.asked⟩, ht, fun ha => ?_⟩
  · show r.contexts.tail.tail = p.contexts.tail
    rw [hl.contexts]
    rfl
  · obtain ⟨token, p', htoken, hp'⟩ := bind_eq_some_iff.mp hopening
    cases hp'
    have hlt := left_consume_lt hv' ha htoken
    have hheeds := hrest.heeds (heeds_consume hv' ha htoken)
    exact ⟨Nat.lt_of_le_of_lt hrest.left_le hlt, hheeds.consumed, hheeds.asked⟩

/-- The function is read where its parameters have been seen ahead. -/
theorem isSome_inferredArrowFunction (he : env.Sound) (hv : p.Valid) (ha : p.ahead ≠ .eof)
    (hr : env.Returns p.left bound) (hi : InfersParameters p) :
    (inferredArrowFunction flags env p).isSome := by
  have hv' : Parser.Valid { p with contexts := .arrowFunction :: p.contexts } := hv
  refine isSome_bind rfl fun _ p' hp' => ?_
  cases hp'
  refine isSome_bind ?_ fun _ _ _ => rfl
  refine isSome_bind rfl fun opening p₁ hopening => ?_
  obtain ⟨token, p', htoken, hp'⟩ := bind_eq_some_iff.mp hopening
  cases hp'
  obtain ⟨hl₁, ho⟩ := reads_consumeNode.leads he hv' hopening
  -- behind the parenthesis there is less ahead, so the body may be of any rank
  have hlt := left_consume_lt hv' ha htoken
  have hr₁ : env.Returns p₁.left Rule.maxRank := hr.further hlt _
  have hfuel := hr₁.fuel
  have hi' : InfersParameters { p with contexts := .arrowFunction :: p.contexts } := hi
  refine isSome_bind (isSome_inferredNames hl₁.valid (hi'.namesRead hv' htoken) (by omega))
    fun names p₂ hnames => ?_
  have hl₂ := leads_inferredNames he hl₁.valid hnames
  refine isSome_bind rfl fun close p₃ hclose => ?_
  obtain ⟨hl₃, -⟩ := reads_consumeNode.leads he hl₂.valid hclose
  have hp : (Node.of .inferParamList [.leaf token, .list names, close]).HasToken :=
    Node.hasToken_composite (List.mem_cons_self ..) ho
  have hle := Nat.le_trans hl₃.left_le hl₂.left_le
  exact (reads_arrowFunctionAfter hp flags).returns he hl₃.valid trivial (hr₁.mono hle (by decide))

end InferredArrowFunction

/-- Which of the two comes next is known before anything is consumed. -/
theorem begins_bracedOrArrowFunction (flags : ExpressionFlags) :
    Begins HasNext [] (bracedOrArrowFunction flags) .node where
  leads {env p q node} he hv hrun := by
    obtain ⟨kinds, r, -, hs, -, hrun⟩ := looks_upcoming.exists_of_bind hv hrun
    split at hrun
    · obtain ⟨hl, ht, -⟩ := leads_inferredArrowFunction he hs.valid hrun
      exact ⟨(hs.leads []).trans hl, ht⟩
    · obtain ⟨hl, ht⟩ := (begins_braced flags).leads he hs.valid hrun
      exact ⟨(hs.leads []).trans hl, ht⟩
  returns {env p} he hv ha _ hr := by
    obtain ⟨count, q, hu, hs⟩ := upcoming_eq env hv
    have hr' := hr.mono (Nat.le_of_eq hs.left) (Nat.le_refl _)
    have ha' : q.ahead ≠ .eof := by rwa [hs.ahead]
    refine isSome_bind (by rw [hu]; rfl) fun kinds r hu' => ?_
    cases hu.symm.trans hu'
    split
    · next hc => exact isSome_inferredArrowFunction he hs.valid ha' hr' ⟨count, hs.place ▸ hc⟩
    · exact (begins_braced flags).returns he hs.valid ha' hr'
  goes {env p q node} he hadm hv ha hrun _ := by
    obtain ⟨kinds, r, -, hs, -, hrun⟩ := looks_upcoming.exists_of_bind hv hrun
    rw [← hs.left]
    have ha' : r.ahead ≠ .eof := by rwa [hs.ahead]
    split at hrun
    · exact ((leads_inferredArrowFunction he hs.valid hrun).2.2 ha').1
    · exact (begins_braced flags).goes he hadm hs.valid ha' hrun trivial
  heeds {env p q node} he hv ha hrun _ _ := by
    obtain ⟨kinds, r, hu, hs, -, hrun⟩ := looks_upcoming.exists_of_bind hv hrun
    refine hs.heeds (looks_upcoming.silent hu) ?_
    have ha' : r.ahead ≠ .eof := by rwa [hs.ahead]
    split at hrun
    · exact ((leads_inferredArrowFunction he hs.valid hrun).2.2 ha').2
    · exact (begins_braced flags).heeds he hs.valid ha' hrun rfl fun _ => trivial

/-! ## All together -/

/-- A name with an arrow behind it is the parameter of a function, unless a guard ends there. -/
theorem opens_nameOrArrowFunction (flags : ExpressionFlags) :
    Opens (· = .identifier) 0 [] (nameOrArrowFunction flags) .node := by
  constructor
  · refine (looks_isSecond .rightDoubleArrow).meets fun b => ?_
    split
    · next hb =>
      refine (begins_namedArrowFunction flags).weaken ?_
      exact fun k hk => hk.2 ((Bool.and_eq_true _ _).mp hb).2 (by decide)
    · exact (opens_nameReference _).reads.weaken
  · refine (looks_isSecond .rightDoubleArrow).meets fun b => ?_
    split
    · exact (begins_namedArrowFunction flags).weaken (by simp +contextual)
    · exact (opens_nameReference _).begins.weaken fun _ h => h.1

/-- Each form begins with a token of its own, and what is none of them is recovered from. -/
theorem meets_operandAs {kind : Kind} (floor : Precedence) (flags : ExpressionFlags)
    (hb : kind ≠ .identifier → 1 ≤ bound) :
    Enters (fun k => k = kind ∨ kind = .identifier) bound [] (operandAs kind floor flags) .node
      (fun _ => False) := by
  unfold operandAs
  refine (looks_isSecond .colon).meets fun b => ?_
  split
  · exact opens_keywordModuleReference.reads.weaken
  · split
    · exact opens_basicLiteral.reads.weaken
    · split
      · exact (opens_nameOrArrowFunction flags).reads.weaken
      · exact (begins_bracedOrArrowFunction flags).weaken (by simp +contextual)
      · exact begins_listConstructor.weaken (by simp +contextual)
      · exact begins_mappingConstructor.weaken (by simp +contextual)
      · exact (begins_unary flags).weaken (by simp +contextual)
      · exact (begins_unary flags).weaken (by simp +contextual)
      · exact (begins_unary flags).weaken (by simp +contextual)
      · exact (begins_unary flags).weaken (by simp +contextual)
      · exact (begins_typeofExpression flags).weaken (by simp +contextual)
      · exact (begins_trapExpression flags).weaken (by simp +contextual)
      · exact (begins_checkExpression flags).weaken (by simp +contextual)
      · exact (begins_checkExpression flags).weaken (by simp +contextual)
      · exact (begins_typeCast flags).weaken (by simp +contextual)
      · exact begins_errorConstructor.weaken (by simp +contextual)
      · exact begins_anonymousFunction.weaken (by simp +contextual)
      · exact begins_anonymousFunction.weaken (by simp +contextual [functionQualifiers])
      · exact begins_anonymousFunction.weaken (by simp +contextual [functionQualifiers])
      · exact begins_newExpression.weaken (by simp +contextual)
      · exact (begins_letExpression flags).weaken (by simp +contextual)
      · exact (begins_query flags).weaken (by simp +contextual)
      · exact (begins_startAction flags).weaken (by simp +contextual)
      · exact (begins_startAction flags).weaken (by simp +contextual)
      · exact (begins_waitAction flags).weaken (by simp +contextual)
      · exact (begins_flushAction flags).weaken (by simp +contextual)
      · exact (begins_commitAction flags).weaken (by simp +contextual)
      · exact (begins_receiveAction flags).weaken (by simp +contextual)
      · have hpos : 1 ≤ bound := hb (by assumption)
        exact reads_recoverAs trivial trivial (by simp) (fun _ ht => Reads.simpleName ht) hpos rfl
          rfl rfl

/-- Every token that can begin an operand is consumed by the form that it begins. -/
theorem heeds_operandAs (kind : Kind) (floor : Precedence) (flags : ExpressionFlags) :
    Heeds (fun k s => k = kind ∧ Starts.operand k s = true) (operandAs kind floor flags) := by
  unfold operandAs
  refine (sees_isSecond .colon).heeds fun b => ?_
  split
  · exact opens_keywordModuleReference.begins.heedsWhere fun _ _ _ h => h
  · split
    · exact opens_basicLiteral.begins.heedsWhere fun _ _ _ h => h
    · split
      · exact (opens_nameOrArrowFunction flags).begins.heedsWhere fun _ _ h _ => h.1.1
      · exact (begins_bracedOrArrowFunction flags).heedsWhere fun _ _ _ h => h
      · exact begins_listConstructor.heedsWhere fun _ _ h _ => h.1.1
      · exact begins_mappingConstructor.heedsWhere fun _ _ h _ => h.1.1
      · exact (begins_unary flags).heedsWhere fun _ _ _ h => h
      · exact (begins_unary flags).heedsWhere fun _ _ _ h => h
      · exact (begins_unary flags).heedsWhere fun _ _ _ h => h
      · exact (begins_unary flags).heedsWhere fun _ _ _ h => h
      · exact (begins_typeofExpression flags).heedsWhere fun _ _ _ h => h
      · exact (begins_trapExpression flags).heedsWhere fun _ _ _ h => h
      · exact (begins_checkExpression flags).heedsWhere fun _ _ _ h => h
      · exact (begins_checkExpression flags).heedsWhere fun _ _ _ h => h
      · exact (begins_typeCast flags).heedsWhere fun _ _ _ h => h
      · exact begins_errorConstructor.heedsWhere fun _ _ h _ => h.1.1
      · exact begins_anonymousFunction.heedsWhere (by simp +contextual)
      · exact begins_anonymousFunction.heedsWhere (by simp +contextual [functionQualifiers])
      · exact begins_anonymousFunction.heedsWhere (by simp +contextual [functionQualifiers])
      · exact begins_newExpression.heedsWhere fun _ _ _ h => h
      · exact (begins_letExpression flags).heedsWhere fun _ _ _ h => h
      · exact (begins_query flags).heedsWhere fun _ _ h _ => h.1.1
      · exact (begins_startAction flags).heedsWhere (by simp +contextual)
      · exact (begins_startAction flags).heedsWhere (by simp +contextual)
      · exact (begins_waitAction flags).heedsWhere fun _ _ _ h => h
      · exact (begins_flushAction flags).heedsWhere fun _ _ _ h => h
      · exact (begins_commitAction flags).heedsWhere fun _ _ _ h => h
      · exact (begins_receiveAction flags).heedsWhere fun _ _ _ h => h
      · refine Heeds.unreachable ?_
        rintro _ _ ⟨⟨rfl, h⟩, rfl⟩
        simp_all [Starts.operand, Starts.expression, Starts.expressionTokens]

/-- With any other token, an operand asks the strategy. -/
theorem asks_operandAs (kind : Kind) (floor : Precedence) (flags : ExpressionFlags) :
    Asks (fun k s => k = kind ∧ Starts.operand k s = false) (operandAs kind floor flags) := by
  have hnever {k s : Kind} (h : Starts.operand k s = false) :
      Starts.expression k = false ∧ (k == .atSign) = false ∧
        (k.isTypeKeyword && s == .colon) = false := by
    simpa only [Starts.operand, Bool.or_eq_false_iff, and_assoc] using h
  unfold operandAs
  refine (sees_isSecond .colon).asks fun b => ?_
  split
  · next hb =>
    refine Asks.unreachable ?_
    rintro _ _ ⟨⟨rfl, h⟩, rfl⟩
    exact Bool.false_ne_true ((hnever h).2.2.symm.trans hb)
  · split
    · next hk =>
      refine Asks.unreachable ?_
      rintro _ _ ⟨⟨rfl, h⟩, -⟩
      have hexpression := (hnever h).1
      rw [Starts.expression, hk] at hexpression
      cases hexpression
    · split
      case h_27 =>
        exact asks_recoverAs trivial trivial fun _ ht => Reads.simpleName ht
      all_goals
        refine Asks.unreachable ?_
        rintro _ _ ⟨⟨rfl, h⟩, -⟩
        first
          | exact absurd (hnever h).1 (by decide)
          | exact absurd (hnever h).2.1 (by decide)

/-- An expression is an operand and the operators behind it, so it ranks above operands. -/
theorem meets_expressionAs {kind : Kind} (floor : Precedence) (flags : ExpressionFlags)
    (hb : 2 ≤ bound) :
    Enters (fun k => k = kind ∨ kind = .identifier) bound [] (expressionAs kind floor flags) .node
      (fun _ => False) := by
  have : AtMost 2 bound := ⟨hb⟩
  have hlt : 2 * (Rule.operand floor flags).level + 1 < bound := hb
  refine Meets.within (Meets.bind (meets_parseAs_of_taken trivial (fun _ hk => hk) hlt rfl) ?_)
  exact fun operand ho => (reads_operatorsAfter ho flags floor).weaken

/-- An expression goes on with what its operand goes on with. -/
theorem heeds_expressionAs (kind : Kind) (floor : Precedence) (flags : ExpressionFlags) :
    Heeds (fun k s => k = kind ∧ Starts.operand k s = true) (expressionAs kind floor flags) :=
  (heeds_parseAs_bind (.operand floor flags) kind trivial fun _ ho =>
    (reads_operatorsAfter ho flags floor).weaken).within

/-! ## Arguments and fields -/

/-- A name and `=` are consumed before the value. -/
theorem begins_namedArgument : Begins HasNext [] namedArgument .node := by
  refine begins_consumeNode.bind fun token ht => Meets.before (becomes_simpleName token) ?_
  refine reads_consumeNode.bind fun equal _ => ?_
  exact reads_value.bind fun value _ => Reads.of (hasToken_simpleName ht) (by simp) rfl rfl

/-- An argument is an expression if the next token begins one, and else recovered from. -/
theorem meets_argumentAs {kind : Kind} (hb : 4 ≤ bound) (hb' : kind ≠ .identifier → 5 ≤ bound) :
    Enters (fun k => k = kind ∨ kind = .identifier) bound [] (argumentAs kind) .node
      (fun _ => False) := by
  have : AtMost 4 bound := ⟨hb⟩
  unfold argumentAs
  split
  · refine reads_consumeNode.bind fun ellipsis he => ?_
    exact reads_value.bind fun value _ => Reads.of he (by simp) rfl rfl
  · refine (looks_isSecond .equal).meets fun b => ?_
    split
    · next hequal =>
      refine begins_namedArgument.weaken ?_
      exact fun k hk => hk.2 ((Bool.and_eq_true _ _).mp hequal).2 (by decide)
    · split
      · have hlt : 2 * (Rule.request (.expression .default .rhs)).level + 1 < bound := hb
        refine Meets.bind (meets_parseAs_of_taken trivial (fun _ hk => hk.1) hlt rfl) ?_
        exact fun value hv => Reads.of hv (by simp) rfl rfl
      · next hk =>
        have hne : kind ≠ .identifier := by
          rintro rfl
          exact hk rfl
        refine reads_recoverAs trivial trivial (by simp) (fun token ht => ?_) (hb' hne) rfl rfl rfl
        exact Meets.before (becomes_simpleName token)
          (Reads.of (hasToken_simpleName ht) (by simp) rfl rfl)

/-- What begins an argument is consumed by it or by its expression. -/
theorem heeds_argumentAs (kind : Kind) :
    Heeds (fun k s => k = kind ∧ (Rule.request .argument).continues k s = true)
      (argumentAs kind) := by
  unfold argumentAs
  split
  · exact (begins_consumeNode.heedsWhere fun _ _ _ h => h).bind reads_consumeNode fun _ he =>
      reads_value.bind fun value _ => Reads.of he (by simp) rfl rfl
  · refine (looks_isSecond .equal).heeds fun b => ?_
    split
    · exact begins_namedArgument.heedsWhere fun _ _ _ h => h
    · split
      · next hk =>
        refine Heeds.mono (heeds_parseAs_bind (.request (.expression .default .rhs)) kind trivial
          fun value hv => Reads.of hv (by simp) rfl rfl) ?_
        rintro _ _ ⟨⟨rfl, -⟩, -⟩
        exact ⟨rfl, by simp [Rule.continues, Request.accepts, Request.overstates, hk]⟩
      · refine Heeds.unreachable ?_
        rintro _ _ ⟨⟨rfl, h⟩, -⟩
        simp_all [Rule.continues, Request.accepts, Request.overstates, ListItem.starts]

/-- With any other token, an argument asks the strategy. -/
theorem asks_argumentAs (kind : Kind) :
    Asks (fun k _ => k = kind ∧ Request.argument.accepts k = false) (argumentAs kind) := by
  have hnever {k : Kind} (h : Request.argument.accepts k = false) :
      Starts.expression k = false ∧ (k == .ellipsis) = false := Bool.or_eq_false_iff.mp h
  unfold argumentAs
  split
  · next hk =>
    refine Asks.unreachable ?_
    rintro _ _ ⟨rfl, h⟩
    exact Bool.false_ne_true ((hnever h).2.symm.trans hk)
  · refine (looks_isSecond .equal).asks fun b => ?_
    split
    · next hk =>
      refine Asks.unreachable ?_
      rintro _ _ ⟨⟨rfl, h⟩, -⟩
      rw [beq_iff_eq.mp ((Bool.and_eq_true _ _).mp hk).1] at h
      exact absurd h (by decide)
    · split
      · next hk =>
        refine Asks.unreachable ?_
        rintro _ _ ⟨⟨rfl, h⟩, -⟩
        exact Bool.false_ne_true ((hnever h).1.symm.trans hk)
      · refine asks_recoverAs trivial trivial fun token ht =>
          Meets.before (becomes_simpleName token) ?_
        exact Reads.of (hasToken_simpleName ht) (by simp) rfl rfl

theorem reads_specificFieldAfter (isReadonly : Option Node) {key : Node} (hk : key.HasToken) :
    Reads 4 [isReadonly, some key]
      (do
        if (← isNext .colon) || key.kind == .stringLiteral then
          let colon ← expect .colon .mappingField
          let value ← value
          return .ofSlots .specificField [isReadonly, some key, some colon, some value]
        else return .ofSlots .specificField [isReadonly, some key, none, none]) .node := by
  refine (looks_isNext .colon).meets fun b => ?_
  split
  · refine (reads_expect _ _).bind fun colon _ => ?_
    exact reads_value.bind fun value _ => Reads.ofSlots hk (by simp) rfl rfl
  · refine Meets.before ((Row.Becomes.withGap _).trans (.withGap _)) ?_
    exact Reads.ofSlots hk (by simp) rfl rfl

/-- A key is a name or a string, and `readonly` may stand before it. -/
theorem opens_specificField :
    Opens (fun k => k = .readonlyKeyword ∨ k = .stringLiteral ∨ k = .identifier) 4 []
      specificField .node := by
  have hkey (isReadonly : Option Node) :
      Opens (fun k => k = .stringLiteral ∨ k = .identifier) 4 [isReadonly]
        (do
          let key ←
            if ← isNext .stringLiteral then consumeNode else expect .identifier .mappingField
          if (← isNext .colon) || key.kind == .stringLiteral then
            let colon ← expect .colon .mappingField
            let value ← value
            return .ofSlots .specificField [isReadonly, some key, some colon, some value]
          else return .ofSlots .specificField [isReadonly, some key, none, none]) .node := by
    constructor
    · refine Meets.isNext ?_ ?_
      · exact reads_consumeNode.bind fun key hk => (reads_specificFieldAfter isReadonly hk).weaken
      · exact (reads_expect _ _).bind fun key hk => (reads_specificFieldAfter isReadonly hk).weaken
    · refine Meets.isNext ?_ ?_
      · exact begins_consumeNode.bindFrom (by simp +contextual) fun key hk =>
          (reads_specificFieldAfter isReadonly hk).weaken
      · exact (begins_expect (by decide) _).bindFrom (fun k h => h.1.resolve_left h.2) fun key hk =>
          (reads_specificFieldAfter isReadonly hk).weaken
  have hoptional : Perhaps (· = .readonlyKeyword) none (ParseM.optional .readonlyKeyword) .slot :=
    perhaps_optional (by decide)
  refine Opens.within ⟨?_, ?_⟩
  · exact hoptional.reads.bind fun isReadonly _ => (hkey isReadonly).reads
  · refine hoptional.bind (fun isReadonly _ => (hkey isReadonly).reads.weaken) ?_
    exact (hkey none).begins.weaken fun k h => h.1.resolve_left h.2

theorem begins_computedField : Begins HasNext [] computedField .node := by
  refine Meets.within (begins_consumeNode.bind fun opening ho => ?_)
  refine reads_value.bind fun key _ => ?_
  refine (reads_expect _ _).bind fun close _ => ?_
  refine (reads_expect _ _).bind fun colon _ => ?_
  exact reads_value.bind fun value _ => Reads.of ho (by simp) rfl rfl

/-- Each form begins with a token of its own, and what is none of them is recovered from. -/
theorem meets_mappingFieldAs {kind : Kind} (context : Context) (hb : 4 ≤ bound)
    (hb' : kind ≠ .identifier → 5 ≤ bound) :
    Enters (fun k => k = kind ∨ kind = .identifier) bound [] (mappingFieldAs kind context) .node
      (fun _ => False) := by
  have : AtMost 4 bound := ⟨hb⟩
  unfold mappingFieldAs
  split
  · exact opens_specificField.reads.weaken
  · exact opens_specificField.reads.weaken
  · exact opens_specificField.reads.weaken
  · exact begins_computedField.weaken (by simp +contextual)
  · refine reads_consumeNode.bind fun ellipsis he => ?_
    exact reads_value.bind fun value _ => Reads.of he (by simp) rfl rfl
  · have hlt : 5 ≤ bound := hb' (by assumption)
    refine reads_recoverAs trivial trivial (by simp) (fun token ht => ?_) hlt rfl rfl rfl
    refine Meets.before (((Row.Becomes.gap.append_right [some token]).trans (.withGap _)).trans
      (.withGap _)) ?_
    exact Reads.ofSlots ht (by simp) rfl rfl

/-- A field goes on with every token that it says it does. -/
theorem heeds_mappingFieldAs (kind : Kind) (context : Context) :
    Heeds (fun k s => k = kind ∧ (Rule.request (.mappingField context)).continues k s = true)
      (mappingFieldAs kind context) := by
  unfold mappingFieldAs
  split
  · exact opens_specificField.begins.heedsWhere (by simp +contextual)
  · exact opens_specificField.begins.heedsWhere (by simp +contextual)
  · exact opens_specificField.begins.heedsWhere (by simp +contextual)
  · exact begins_computedField.heedsWhere fun _ _ _ h => h
  · exact (begins_consumeNode.heedsWhere fun _ _ _ h => h).bind reads_consumeNode fun _ he =>
      reads_value.bind fun value _ => Reads.of he (by simp) rfl rfl
  · refine Heeds.unreachable ?_
    rintro _ _ ⟨rfl, h⟩
    simp_all [Rule.continues, Request.accepts, Request.overstates, Starts.mappingField,
      Starts.mappingFieldTokens]

end ParseM

end TolerantSyntax
