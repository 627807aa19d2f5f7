import TolerantSyntax.Proofs.Expression.Folding

/-!
# Reading an expression in its place

An expression that is well-formed is read as its tree wherever it stands: on the right of something
or at the beginning of a statement, in the middle of a conditional, in a match guard, and before
whatever tokens its place has behind it, as long as these leave its right end alone.

The induction is over the expression and not over the parse. An expression is read in two steps, its
first operand and the operators and suffixes behind it, and what is folded onto the operand is
spread over the nodes on the left edge of the tree. So `IsRead` speaks of an expression
together with whatever is folded onto it in the end, and passing from an expression to the one at
its left passes what is between the two to that end.
-/

namespace TolerantSyntax

open ParseM Word

/-! ## Parameters -/

namespace Lookahead

theorem infersParameters_cons {first : Kind} {kinds : List Kind}
    (h : kinds.head? ≠ some .closeParen) :
    infersParameters (first :: kinds) = namesBeforeArrow kinds := by
  unfold infersParameters
  split
  · next heq =>
    rw [(List.cons.inj heq).2] at h
    exact absurd rfl h
  · next heq => rw [(List.cons.inj heq).2]
  · next heq => cases heq

/-- A name alone in parentheses is a parameter if an arrow follows. -/
theorem namesBeforeArrow_name {kinds : List Kind}
    (h : namesBeforeArrow (.identifier :: .closeParen :: kinds) = true) :
    kinds.head? = some .rightDoubleArrow := by
  unfold namesBeforeArrow at h
  split at h
  · next heq => cases heq
  · next heq =>
    rw [(List.cons.inj (List.cons.inj heq).2).2]
    rfl
  · exact absurd h Bool.false_ne_true

end Lookahead

namespace Expression

/-- The first word of an expression is no type keyword. -/
theorem isTypeKeyword_ahead_words (e : Expression) (rest : List Word) :
    (ahead (e.words ++ rest)).isTypeKeyword = false := by
  induction e using induct generalizing rest with
  | identifier name => rfl
  | integer value =>
    obtain ⟨kind, text, h⟩ := value
    cases h <;> rfl
  | braced inner => rfl
  | unary operator operand => cases operator <;> rfl
  | binary operator left right ih =>
    rw [words, List.append_assoc]
    exact ih _
  | field target name ih | methodCall target name arguments ih | call callee arguments ih
  | index container keys ih =>
    rw [words, List.append_assoc]
    exact ih _

/-- Of the words of expressions only a name alone begins a list of parameters. -/
theorem namesBeforeArrow_words (e : Expression) {tail : List Kind}
    (h : Lookahead.namesBeforeArrow (e.words.map Word.kind ++ tail) = true) :
    e.isName = true ∧ Lookahead.namesBeforeArrow (.identifier :: tail) = true := by
  induction e using induct generalizing tail with
  | identifier name => exact ⟨rfl, h⟩
  | integer value =>
    obtain ⟨kind, text, hi⟩ := value
    cases hi <;> exact absurd h Bool.false_ne_true
  | braced inner => exact absurd h Bool.false_ne_true
  | unary operator operand => cases operator <;> exact absurd h Bool.false_ne_true
  | binary operator left right ih =>
    rw [words, List.map_append, List.append_assoc, List.map_append] at h
    have hleft := (ih h).2
    cases operator <;> exact absurd hleft Bool.false_ne_true
  | field target name ih | methodCall target name arguments ih | call callee arguments ih
  | index container keys ih =>
    rw [words, List.map_append, List.append_assoc] at h
    exact absurd (ih h).2 Bool.false_ne_true

/-- A parenthesis around an expression is that of parameters only if the expression is a name and an
arrow follows. -/
theorem infersParameters_braced (inner : Expression) {rest : List Word} {count : Nat}
    (harrow : inner.isName = true → ahead rest ≠ .rightDoubleArrow) :
    Lookahead.infersParameters
      ((symbol .openParen :: (inner.words ++ symbol .closeParen :: rest)).map Word.kind ++
        List.replicate (count + 1) Kind.eof) = false := by
  rw [List.map_cons, List.cons_append, Lookahead.infersParameters_cons]
  · by_contra hnames
    rw [Bool.not_eq_false, List.map_append, List.append_assoc] at hnames
    obtain ⟨hname, hnames⟩ := inner.namesBeforeArrow_words hnames
    have hhead := Lookahead.namesBeforeArrow_name hnames
    exact harrow hname (Option.some.inj ((head?_upcoming rest count).symm.trans hhead))
  · rw [head?_upcoming, ne_eq, Option.some.injEq]
    intro hclose
    have hstarts := inner.starts_words (symbol .closeParen :: rest)
    rw [hclose] at hstarts
    exact absurd hstarts (by decide)

end Expression

/-! ## Colons -/

namespace ParseM

variable {kinds : List Kind} {total : Nat} {words : List Word}

theorem gives_isQualifierColon (inConditional : Bool) :
    GivesAmong kinds total (isQualifierColon inConditional) words words
      (· = qualifies inConditional words) := by
  refine gives_isColonName.bind fun named hnamed => ?_
  rw [qualifies, ← hnamed]
  cases named with
  | false => exact gives_pure rfl
  | true =>
    cases inConditional with
    | false => exact gives_pure rfl
    | true => exact (gives_kindAt 2).map fun third hthird => by rw [hthird]; rfl

end ParseM

/-! ## Reading on -/

namespace Expression

/-- The words of the expression are read as its tree, wherever it fits, may end and is clear, with
what is folded onto it afterwards. At the beginning of a statement a binary operator would have to
be told from that of a compound assignment, so there it is said of operands with their suffixes. -/
def IsRead (e : Expression) : Prop :=
  ∀ (kinds : List Kind) (total : Nat) (floor : Precedence) (flags : ExpressionFlags)
    (rest final : List Word) (good : Node → Prop),
    (flags.isRhs = true ∨ Precedence.unary.rank ≤ e.level.rank) → e.Fits floor → e.Ends rest →
    e.Clear flags.inConditional flags.inMatchGuard rest →
    (∀ node : Node, node.Renders e.node → ∀ turns,
      GivesAmong kinds total (repeatUpTo (foldStep floor flags) turns node) rest final good) →
    GivesAmong kinds total
      (do
        let operand ← parseAs (.operand floor flags) (ahead (e.words ++ rest))
        operatorsAfter floor operand flags)
      (e.words ++ rest) final good

variable {kinds : List Kind} {total : Nat} {floor : Precedence} {flags : ExpressionFlags}
  {rest : List Word} {e target : Expression} {list : List Expression}

/-- An expression is read on its own if no operator above the floor follows. -/
theorem IsRead.gives_expression (h : e.IsRead) (hrhs : flags.isRhs = true)
    (hfits : e.Fits floor) (hends : e.Ends rest)
    (hclear : e.Clear flags.inConditional flags.inMatchGuard rest) (hstops : Stops floor rest) :
    GivesAmong kinds total (parseAs (.request (.expression floor flags)) (ahead (e.words ++ rest)))
      (e.words ++ rest) rest (Node.Renders · e.node) := by
  refine gives_parseAs (GivesAmong.within ?_ _)
  refine h _ _ _ _ _ _ _ (.inl hrhs) hfits hends hclear fun node hnode turns =>
    gives_lastTurn ?_ turns
  exact (gives_foldStep_of_stops (.inl hrhs) hstops).mono fun r hr => ⟨node, hr, hnode⟩

/-- All operators are above a floor that is below that of a conditional. -/
theorem fits_of_lt_conditional (hwf : e.WellFormed)
    (hfloor : floor.rank < Precedence.conditional.rank) : e.Fits floor :=
  fits_of_lt hwf (Nat.lt_trans hfloor e.conditional_lt_level)

/-- Where no operator at all follows, the floor may be as low as it gets. -/
theorem IsRead.gives_inPlace (h : e.IsRead) (hwf : e.WellFormed)
    (hrhs : flags.isRhs = true) (hfloor : floor.rank < Precedence.conditional.rank)
    (hclear : e.Clear flags.inConditional flags.inMatchGuard rest)
    (hnone : levelAhead? rest = none) :
    GivesAmong kinds total (parseAs (.request (.expression floor flags)) (ahead (e.words ++ rest)))
      (e.words ++ rest) rest (Node.Renders · e.node) :=
  h.gives_expression hrhs (fits_of_lt_conditional hwf hfloor) (ends_of_none e hnone) hclear
    (stops_of_none hnone)

/-- An expression that is an operand is read by the rule for operands. -/
theorem isRead_of_operand
    (h : ∀ {kinds : List Kind} {total : Nat} {floor : Precedence} {flags : ExpressionFlags}
      {rest : List Word}, e.Ends rest → e.Clear flags.inConditional flags.inMatchGuard rest →
        GivesAmong kinds total (operandAs (ahead (e.words ++ rest)) floor flags)
          (e.words ++ rest) rest (Node.Renders · e.node)) : e.IsRead := by
  intro kinds total floor flags rest final good _ hfits hends hclear hfold
  exact (gives_parseAs (h hends hclear)).bind fun operand hoperand =>
    gives_loop (hfold operand hoperand)

/-- An expression that goes on from another one is read by folding onto that one. -/
theorem isRead_of_suffix {suffix : List Word} (hwords : e.words = target.words ++ suffix)
    (htarget : target.IsRead)
    (hplain : Precedence.unary.rank ≤ e.level.rank → Precedence.unary.rank ≤ target.level.rank)
    (hfits : ∀ {floor}, e.Fits floor → target.Fits floor)
    (hends : ∀ {rest}, e.Ends rest → target.Ends (suffix ++ rest))
    (hsuffix : ∀ rest, ahead (suffix ++ rest) ∈ symbols)
    (hfold : ∀ {kinds : List Kind} {total : Nat} {floor : Precedence} {flags : ExpressionFlags}
      {rest : List Word} {lhs : Node},
      (flags.isRhs = true ∨ Precedence.unary.rank ≤ e.level.rank) → e.Fits floor → e.Ends rest →
      e.Clear flags.inConditional flags.inMatchGuard rest → lhs.Renders target.node →
      GivesAmong kinds total (foldStep floor flags lhs) (suffix ++ rest) rest
        fun r => ∃ b, r = .inl b ∧ b.Renders e.node) : e.IsRead := by
  intro kinds total floor flags rest final good hrhs hfit hend hclear hmore
  rw [hwords, List.append_assoc]
  refine htarget _ _ _ _ _ _ _ (hrhs.imp_right hplain) (hfits hfit) (hends hend)
    (target.clear_of_mem_symbols (hsuffix rest)) fun node hnode turns => ?_
  exact gives_turn _ _ (hfold hrhs hfit hend hclear hnode) hmore turns

/-! ## Operands -/

/-- A name that stays one is a reference. -/
theorem isRead_identifier (name : Identifier) : (identifier name).IsRead := by
  refine isRead_of_operand fun {kinds total floor flags rest} _ hclear => ?_
  obtain ⟨hcolon, harrow⟩ := hclear
  have hreference : GivesAmong kinds total (nameReference flags.inConditional) (name.word :: rest)
      rest (Node.Renders · (identifier name).node) := by
    refine (gives_expect _ rfl).bind fun word hword => ?_
    refine (gives_isQualifierColon _).bind fun qualified hqualified => ?_
    rw [hcolon] at hqualified
    subst hqualified
    exact gives_pure (Node.renders_of _ (.cons hword .nil))
  refine (gives_isSecond _).bind fun colon _ => ?_
  refine (gives_isSecond _).bind fun arrow h => ?_
  have hnone : (!flags.inMatchGuard && arrow) = false := by
    rcases harrow with hguard | hne
    · rw [hguard, Bool.not_true, Bool.false_and]
    · have hne : arrow = false := h.trans (beq_eq_false_iff_ne.mpr hne)
      rw [hne, Bool.and_false]
  rw [hnone]
  exact hreference

theorem isRead_integer (value : Numeral) : (integer value).IsRead := by
  refine isRead_of_operand fun {kinds total floor flags rest} _ _ => ?_
  refine (gives_isSecond _).bind fun colon _ => ?_
  have hliteral : (ahead ((integer value).words ++ rest)).isLiteral = true := value.isLiteral
  rw [isTypeKeyword_ahead_words, Bool.false_and, if_neg Bool.false_ne_true, if_pos hliteral]
  exact gives_consumeNode.map fun token htoken => Node.renders_of _ (.cons htoken .nil)

/-- With no arrow behind it or no name in it, a parenthesis is not that of the parameters of a
function. -/
theorem isRead_braced {inner : Expression} (h : inner.IsRead)
    (hwf : inner.WellFormed) : (braced inner).IsRead := by
  refine isRead_of_operand fun {kinds total floor flags rest} _ harrow => ?_
  rw [words, List.cons_append, List.append_assoc, List.singleton_append]
  have hbraced : GivesAmong kinds total (ParseM.braced flags)
      (symbol .openParen :: (inner.words ++ symbol .closeParen :: rest)) rest
      (Node.Renders · (Expression.braced inner).node) := by
    refine GivesAmong.within (gives_consumeNode.bind fun opening hopening => ?_) _
    refine (gives_isNext _).bind fun closed hclosed => ?_
    have hopen : closed = false := by
      rw [hclosed, beq_eq_false_iff_ne]
      intro heq
      have hstarts := inner.starts_words (symbol .closeParen :: rest)
      rw [heq] at hstarts
      exact absurd hstarts (by decide)
    rw [hopen]
    have hclear : inner.Clear flags.nested.inConditional flags.nested.inMatchGuard
        (symbol .closeParen :: rest) :=
      inner.clear_of_mem_symbols (show Kind.closeParen ∈ symbols by decide)
    refine (gives_resume (h.gives_inPlace hwf rfl (by decide) hclear rfl)).bind fun node hnode => ?_
    refine (gives_expect _ rfl).map fun close hclose => ?_
    exact Node.renders_of _ (.cons hopening (.cons hnode (.cons hclose .nil)))
  refine (gives_isSecond _).bind fun colon _ => ?_
  refine gives_upcoming.bind fun upcoming hupcoming => ?_
  obtain ⟨count, rfl⟩ := hupcoming
  rw [infersParameters_braced inner harrow]
  exact hbraced

theorem isRead_unary (operator : PrefixOperator) {operand : Expression}
    (h : operand.IsRead) (hwf : operand.WellFormed)
    (hle : Precedence.unary.rank ≤ operand.level.rank) :
    (unary operator operand).IsRead := by
  refine isRead_of_operand fun {kinds total floor flags rest} hends hclear => ?_
  have hunary : GivesAmong kinds total (ParseM.unary flags)
      (symbol operator.kind :: (operand.words ++ rest)) rest
      (Node.Renders · (Expression.unary operator operand).node) := by
    refine gives_consumeNode.bind fun sign hsign => ?_
    refine (gives_resume (h.gives_expression rfl (fits_unary hwf hle) hends.2 hclear
      hends.1)).map fun node hnode => ?_
    exact Node.renders_of _ (.cons hsign (.cons hnode .nil))
  refine (gives_isSecond _).bind fun colon hcolon => ?_
  rw [isTypeKeyword_ahead_words, Bool.false_and]
  cases operator <;> exact hunary

/-! ## Lists -/

/-- What may stand behind an item of a list makes nothing else of the item. -/
theorem clear_of_endsItem (e : Expression) {close : Kind} (hclose : IsCloser close)
    (h : EndsItem close rest) : e.Clear false false rest := by
  refine e.clear_of_mem_symbols ?_
  rcases h with h | h
  · rw [h]
    decide
  · rcases hclose with rfl | rfl <;> rw [h] <;> decide

theorem givesEach_value (h : ∀ e ∈ list, e.IsRead) (hwf : AllWellFormed list) :
    GivesEachAmong kinds total value words node .closeBracket list := by
  rw [allWellFormed_iff] at hwf
  intro e he rest hends
  exact gives_resume ((h e he).gives_inPlace (hwf e he) rfl (by decide)
    (e.clear_of_endsItem (.inr rfl) hends) (levelAhead?_of_endsItem (.inr rfl) hends))

theorem givesEach_argument (h : ∀ e ∈ list, e.IsRead) (hwf : AllWellFormed list) :
    GivesEachAmong kinds total argument words (fun e => .of .positionalArgument [e.node])
      .closeParen list := by
  rw [allWellFormed_iff] at hwf
  intro e he rest hends
  refine gives_resume (gives_parseAs ?_)
  have hbegins := e.starts_words rest
  have hellipsis : (ahead (e.words ++ rest) == .ellipsis) = false := by
    rw [beq_eq_false_iff_ne]
    intro heq
    rw [heq] at hbegins
    exact absurd hbegins (by decide)
  show GivesAmong kinds total (argumentAs _) _ _ _
  rw [argumentAs, hellipsis, if_neg Bool.false_ne_true]
  refine (gives_isSecond _).bind fun named hnamed => ?_
  have hequal : ahead rest ≠ .equal := by
    rcases hends with hends | hends <;> rw [hends] <;> decide
  have hnamed : named = false :=
    hnamed.trans (beq_eq_false_iff_ne.mpr (e.second_words (.inl rfl) rest hequal))
  rw [hnamed, Bool.and_false, if_neg Bool.false_ne_true, if_pos hbegins]
  exact ((h e he).gives_inPlace (hwf e he) rfl (by decide) (e.clear_of_endsItem (.inl rfl) hends)
    (levelAhead?_of_endsItem (.inl rfl) hends)).map
      fun node hnode => Node.renders_of _ (.cons hnode .nil)

/-! ## Operators and suffixes -/

theorem isRead_binary (operator : BinaryOperator) {left right : Expression}
    (hl : left.IsRead) (hr : right.IsRead)
    (hwf : (binary operator left right).WellFormed) :
    (binary operator left right).IsRead := by
  obtain ⟨hleft, hright, hassoc⟩ := hwf
  -- a `>` behind the operator would be read as a part of it
  have hgt (rest : List Word) : ahead (right.words ++ rest) ≠ .gt := by
    intro h
    have hstarts := right.starts_words rest
    rw [h] at hstarts
    exact absurd hstarts (by decide)
  have hrank : ¬Precedence.unary.rank ≤ operator.level.rank :=
    Nat.not_le.mpr operator.rank_level.2
  refine isRead_of_suffix rfl hl (fun hle => absurd hle hrank) (fun h => h.2)
    (fun {rest} _ => ?_) (fun rest => ?_)
    fun {kinds total floor flags rest lhs} hrhs hfits hends hclear hlhs => ?_
  · rw [List.append_assoc]
    exact ends_of_operator hleft hassoc (hgt rest)
  · rw [List.append_assoc, operator.ahead_words]
    cases operator <;> decide
  · have hrhs : flags.isRhs = true := hrhs.resolve_right hrank
    rw [List.append_assoc]
    refine gives_foldStep (.inl hrhs) (operator.operatorAhead?_words (hgt rest)) hfits.1 ?_
    refine gives_foldOperator_binary hlhs ?_
    exact gives_resume
      (hr.gives_expression rfl (fits_of_lt hright hassoc.floor_lt) hends.2 hclear hends.1)

theorem isRead_field {name : Identifier} (h : target.IsRead)
    (hwf : (field target name).WellFormed) : (field target name).IsRead := by
  refine isRead_of_suffix rfl h (fun hle => hwf.2 ▸ hle) (fun h => h.2)
    (fun {rest} _ => ?_) (fun _ => show Kind.dot ∈ _ by decide)
    fun {kinds total floor flags rest lhs} hrhs hfits hends _ hlhs => ?_
  · exact ends_of_suffix hwf.2 fun h => by cases h
  · refine gives_foldStep (.inr rfl) rfl hfits.1 ?_
    exact gives_nextKind.bind fun _ hkind => hkind ▸ gives_memberAfter_field hlhs hends

theorem isRead_methodCall {name : Identifier} (h : target.IsRead)
    (ha : ∀ a ∈ list, a.IsRead) (hwf : (methodCall target name list).WellFormed) :
    (methodCall target name list).IsRead := by
  refine isRead_of_suffix rfl h (fun hle => hwf.2.1 ▸ hle) (fun h => h.2)
    (fun {rest} _ => ?_) (fun _ => show Kind.dot ∈ _ by decide)
    fun {kinds total floor flags rest lhs} hrhs hfits hends _ hlhs => ?_
  · exact ends_of_suffix hwf.2.1 fun h => by cases h
  · rw [List.cons_append, List.cons_append, List.cons_append, List.append_assoc]
    refine gives_foldStep (.inr rfl) rfl hfits.1 (gives_nextKind.bind fun _ hkind => ?_)
    subst hkind
    exact gives_memberAfter_method hlhs (givesEach_argument ha hwf.2.2)

theorem isRead_call (h : target.IsRead) (ha : ∀ a ∈ list, a.IsRead)
    (hwf : (call target list).WellFormed) : (call target list).IsRead := by
  refine isRead_of_suffix rfl h (fun hle => hwf.2.1 ▸ hle) (fun h => h.2)
    (fun {rest} _ => ?_) (fun _ => show Kind.openParen ∈ _ by decide)
    fun {kinds total floor flags rest lhs} hrhs hfits hends _ hlhs => ?_
  · exact ends_of_suffix hwf.2.1 fun _ => hwf.2.2.1
  · rw [List.cons_append, List.append_assoc]
    refine gives_foldStep (.inr rfl) rfl hfits.1 (gives_nextKind.bind fun _ hkind => ?_)
    subst hkind
    exact gives_callAfter hlhs (givesEach_argument ha hwf.2.2.2)

theorem isRead_index (h : target.IsRead) (hk : ∀ k ∈ list, k.IsRead)
    (hwf : (index target list).WellFormed) : (index target list).IsRead := by
  refine isRead_of_suffix rfl h (fun hle => hwf.2.1 ▸ hle) (fun h => h.2)
    (fun {rest} _ => ?_) (fun _ => show Kind.openBracket ∈ _ by decide)
    fun {kinds total floor flags rest lhs} hrhs hfits hends _ hlhs => ?_
  · exact ends_of_suffix hwf.2.1 fun h => by cases h
  · rw [List.cons_append, List.append_assoc]
    refine gives_foldStep (.inr rfl) rfl hfits.1 (gives_nextKind.bind fun _ hkind => ?_)
    subst hkind
    exact gives_indexAfter hlhs (givesEach_value hk hwf.2.2)

/-- **Every well-formed expression is read as its tree, wherever it stands.** -/
theorem isRead (e : Expression) (hwf : e.WellFormed) : e.IsRead := by
  induction e using induct with
  | identifier name => exact isRead_identifier name
  | integer value => exact isRead_integer value
  | braced inner ih => exact isRead_braced (ih hwf) hwf
  | unary operator operand ih => exact isRead_unary operator (ih hwf.1) hwf.1 hwf.2
  | binary operator left right ihl ihr =>
    exact isRead_binary operator (ihl hwf.1) (ihr hwf.2.1) hwf
  | field target name ih => exact isRead_field (ih hwf.1) hwf
  | methodCall target name arguments ih iha =>
    have hall := (allWellFormed_iff arguments).mp hwf.2.2
    exact isRead_methodCall (ih hwf.1) (fun a ha => iha a ha (hall a ha)) hwf
  | call callee arguments ih iha =>
    have hall := (allWellFormed_iff arguments).mp hwf.2.2.2
    exact isRead_call (ih hwf.1) (fun a ha => iha a ha (hall a ha)) hwf
  | index container keys ih ihk =>
    have hall := (allWellFormed_iff keys).mp hwf.2.2
    exact isRead_index (ih hwf.1) (fun k hk => ihk k hk (hall k hk)) hwf

end Expression

end TolerantSyntax
