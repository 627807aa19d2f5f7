import TolerantSyntax.Proofs.Statement.Lookahead
import TolerantSyntax.Proofs.Statement.Reading

/-!
# Reading a compound assignment

The operator of a compound assignment is written as an operator and an `=` that touch, and read as
such where a statement may still be assigned to. Every operator works behind every target, but for
`|` and `&` behind a name that stands alone: these join types, so lookahead takes the statement for
a declaration.
-/

namespace TolerantSyntax

open ParseM Word

/-! ## Operators -/

/-- Operators that form a compound assignment. -/
inductive UpdateOperator where
  | add | subtract | multiply | divide
  | bitAnd | bitOr | bitXor
  | shiftLeft | shiftRight | shiftRightUnsigned
deriving DecidableEq

namespace UpdateOperator

/-- The kind of the first token. -/
def kind : UpdateOperator → Kind
  | add => .plus
  | subtract => .minus
  | multiply => .asterisk
  | divide => .slash
  | bitAnd => .bitwiseAnd
  | bitOr => .pipe
  | bitXor => .caret
  | shiftLeft => .doubleLt
  | shiftRight | shiftRightUnsigned => .gt

/-- The tokens of the operator, which touch each other. That of a shift to the right has its `=` in
the last of them. -/
def words : UpdateOperator → List Word
  | shiftRight => [.tightGreater, .symbol .gtEqual]
  | shiftRightUnsigned => [.tightGreater, .tightGreater, .symbol .gtEqual]
  | operator => [{ Word.symbol operator.kind with tight := true }, .symbol .equal]

/-- What the operator is recognised as. -/
def shape : UpdateOperator → CompoundOperator
  | shiftRight => ⟨2, true⟩
  | shiftRightUnsigned => ⟨3, true⟩
  | _ => ⟨1, false⟩

/-- The node of the operator. -/
def node (operator : UpdateOperator) : Node :=
  if operator.shape.fused then .of .compositeOperator (operator.words.map Word.leaf)
  else (symbol operator.kind).leaf

/-- The leaf of the `=`, if it is a token of its own. -/
def equal? (operator : UpdateOperator) : Option Node :=
  if operator.shape.fused then none else some (symbol .equal).leaf

variable {operator : UpdateOperator} {kinds : List Kind} {total : Nat} {floor : Precedence}
  {rest : List Word}

theorem ahead_words (operator : UpdateOperator) (rest : List Word) :
    ahead (operator.words ++ rest) = operator.kind := by
  cases operator <;> rfl

theorem tight_words (operator : UpdateOperator) :
    ∀ word ∈ operator.words.dropLast, word.tight = true := by
  cases operator <;> decide

theorem mem_kinds (operator : UpdateOperator) :
    ∀ word ∈ operator.words, word.kind ∈ Word.kinds := by
  cases operator <;> decide

/-- A symbol that an `=` touches is one lexeme, as is a `>` that another one touches. -/
theorem isRow_words (operator : UpdateOperator) (hrest : IsRow rest) :
    IsRow (operator.words ++ rest) := by
  have hequal : IsRow (symbol .equal :: rest) := isRow_cons (isLexeme_symbol (by decide)) rfl hrest
  have hgtEqual : IsRow (symbol .gtEqual :: rest) :=
    isRow_cons (isLexeme_symbol (by decide)) rfl hrest
  cases operator with
  | shiftRight => exact ⟨isLexeme_tightGreater.before rfl, hgtEqual⟩
  | shiftRightUnsigned =>
    exact ⟨isLexeme_tightGreater.before rfl, isLexeme_tightGreater.before rfl, hgtEqual⟩
  | _ => exact ⟨⟨rfl, _, _, rfl, rfl⟩, hequal⟩

theorem followsBracket_words (operator : UpdateOperator) {tail : List Kind}
    (h : Lookahead.Unnamed tail) :
    Lookahead.FollowsBracket (operator.words.map Word.kind ++ tail) := by
  cases operator with
  | shiftRightUnsigned =>
    refine Lookahead.followsBracket_cons ?_ (show Kind.gt ∉ _ by decide)
    exact Lookahead.unnamed_cons (by decide) (Lookahead.unnamed_cons (by decide) h)
  | _ => exact Lookahead.followsBracket_cons (Lookahead.unnamed_cons (by decide) h) (by decide)

/-! ## Recognising operators -/

/-- **The operator of a compound assignment is recognised by tokens that touch.** -/
theorem gives_compoundAhead (operator : UpdateOperator) :
    GivesAmong kinds total compoundAhead? (operator.words ++ rest) (operator.words ++ rest)
      (· = some operator.shape) := by
  intro strategy fuel p q found hp hrun
  refine ⟨?_, (gives_of_looks looks_compoundAhead? strategy fuel p q found hp hrun).2⟩
  have htouch := hp.place.allTouch_take operator.tight_words
  have htokens := hp.place.isToken_take.1
  obtain ⟨first, p₁, hfirst, hrun⟩ := bind_eq_some_iff.mp hrun
  obtain ⟨second, p₂, hsecond, hrun⟩ := bind_eq_some_iff.mp hrun
  obtain ⟨hat₁, hv₁, hplace₁⟩ := token_of_peekAt hp.valid hfirst
  obtain ⟨hat₂, hv₂, hplace₂⟩ := token_of_peekAt hv₁ hsecond
  rw [hplace₁] at hat₂
  simp only [Scanner.tokenAt] at hat₁ hat₂
  subst hat₁ hat₂
  cases operator with
  | shiftRightUnsigned =>
    simp only [words, List.length_cons, List.length_nil, Nat.zero_add, Scanner.take,
      List.forall₂_cons, Token.allTouch, Bool.and_true, Bool.and_eq_true] at htokens htouch
    obtain ⟨hgt, hgt', hgtEqual, -⟩ := htokens
    rw [hgt.kind, htouch.1, hgt'.kind] at hrun
    obtain ⟨third, p₃, hthird, hrun⟩ := bind_eq_some_iff.mp hrun
    obtain ⟨hat₃, -, -⟩ := token_of_peekAt hv₂ hthird
    rw [hplace₂, hplace₁] at hat₃
    simp only [Scanner.tokenAt] at hat₃
    subst hat₃
    rw [hgtEqual.kind, htouch.2] at hrun
    cases hrun
    rfl
  | _ =>
    simp only [words, List.length_cons, List.length_nil, Nat.zero_add, Scanner.take,
      List.forall₂_cons, Token.allTouch, Bool.and_true] at htokens htouch
    obtain ⟨hoperator, hequal, -⟩ := htokens
    rw [hoperator.kind, htouch, hequal.kind] at hrun
    cases hrun
    rfl

/-- It is where it is looked for again, behind the left-hand side. -/
theorem gives_compoundAheadAs (operator : UpdateOperator) :
    GivesAmong kinds total (compoundAheadAs? (ahead (operator.words ++ rest)))
      (operator.words ++ rest) (operator.words ++ rest) (· = some operator.shape) := by
  refine (gives_isNext _).bind fun found hfound => ?_
  rw [beq_self_eq_true] at hfound
  subst hfound
  exact operator.gives_compoundAhead

/-- Where a statement may still be assigned to, its operator ends the left-hand side. -/
theorem gives_foldStep (operator : UpdateOperator) {flags : ExpressionFlags} {lhs : Node}
    (hlhs : flags.isRhs = false) :
    GivesAmong kinds total (foldStep floor flags lhs) (operator.words ++ rest)
      (operator.words ++ rest) (· = .inr lhs) := by
  have hnone : GivesAmong kinds total (operatorAbove? floor flags) (operator.words ++ rest)
      (operator.words ++ rest) (· = none) := by
    refine operator.gives_compoundAhead.bind fun found hfound => ?_
    rw [hlhs, hfound]
    exact gives_pure rfl
  refine hnone.bind fun found hfound => ?_
  subst hfound
  exact gives_pure rfl

/-- The operator is read as its node, with the `=` if it is a token of its own. -/
theorem gives_compoundOperatorOf (operator : UpdateOperator) :
    GivesAmong kinds total (compoundOperatorOf operator.shape) (operator.words ++ rest) rest
      fun r => r.1.Renders operator.node ∧ Option.Rel Node.Renders r.2 operator.equal? := by
  have hshift (hfused : operator.shape.fused = true) (hwidth : (operator.shape.width == 1) = false)
      (hlength : operator.shape.width = operator.words.length) :
      GivesAmong kinds total (compoundOperatorOf operator.shape) (operator.words ++ rest) rest
        fun r => r.1.Renders operator.node ∧ Option.Rel Node.Renders r.2 operator.equal? := by
    rw [compoundOperatorOf, hwidth, hlength, hfused, node, equal?, hfused]
    refine ((gives_consumeTokens operator.tight_words).functor fun tokens htokens =>
      ?_).map fun composite hcomposite => ⟨hcomposite, .none⟩
    refine Node.renders_of _ ?_
    rw [List.forall₂_map_left_iff, List.forall₂_map_right_iff]
    exact (htokens.1.imp fun _ _ h => Node.renders_leaf h).flip
  cases operator with
  | shiftRight => exact hshift rfl rfl rfl
  | shiftRightUnsigned => exact hshift rfl rfl rfl
  | _ =>
    have hequal : GivesAmong kinds total (some <$> consumeNode) (symbol .equal :: rest) rest
        (Option.Rel Node.Renders · (some (symbol .equal).leaf)) :=
      gives_consumeNode.functor fun _ h => .some h
    exact gives_consumeNode.bind fun sign hsign => hequal.map fun equal h => ⟨hsign, h⟩

end UpdateOperator

/-! ## Assignments -/

/-- A compound assignment as it is written. -/
structure CompoundAssignment where
  target : Expression
  operator : UpdateOperator
  value : Expression

namespace CompoundAssignment

/-- The words of a compound assignment. -/
def words (a : CompoundAssignment) : List Word :=
  a.target.words ++ (a.operator.words ++ (a.value.words ++ [symbol .semicolon]))

/-- The tree that a compound assignment should be read as. -/
def node (a : CompoundAssignment) : Node :=
  .ofSlots .compoundAssignmentStatement
    [some a.target.node, some a.operator.node, a.operator.equal?, some a.value.node,
      some (symbol .semicolon).leaf]

/-- The compound assignment as it is written: its words with single spaces between them, but for
those of the operator. -/
def print (a : CompoundAssignment) : String :=
  String.ofList (spell a.words)

/-- The target is an operand that begins with a name, and if it is the name alone, the operator does
not join types. -/
structure WellFormed (a : CompoundAssignment) : Prop where
  target : a.target.WellFormed
  level : a.target.level = .memberAccess
  name : ahead a.target.words = .identifier
  joins : a.target.endsInName = true → a.operator ≠ .bitAnd ∧ a.operator ≠ .bitOr
  value : a.value.WellFormed

variable {a : CompoundAssignment} {total : Nat}

theorem faces (a : CompoundAssignment) : (Scanner.ofSource a.print).Faces a.words := by
  have hend : InRow [symbol .semicolon] := inRow_symbol (by decide) trivial
  have hrow : IsRow a.words := by
    refine isRow_append a.target.inRow (a.operator.isRow_words (isRow_append a.value.inRow ?_))
    exact isRow_cons (isLexeme_symbol (by decide)) rfl trivial
  refine .of_row hrow ?_ (by decide) rfl String.toList_ofList
  refine List.forall_mem_append.mpr ⟨a.target.inRow.mem_kinds, List.forall_mem_append.mpr
    ⟨a.operator.mem_kinds, List.forall_mem_append.mpr ⟨a.value.inRow.mem_kinds, hend.mem_kinds⟩⟩⟩

/-- **No declaration comes next.** -/
theorem WellFormed.declares_eq_false (h : a.WellFormed) (count : Nat) :
    Lookahead.declaresFromIdentifier
      (a.words.map Word.kind ++ List.replicate (count + 1) .eof) = false := by
  refine a.target.declaresFromIdentifier_words h.target h.level h.name (fun hname => ?_) ?_
  · obtain ⟨hand, hor⟩ := h.joins hname
    rw [a.operator.ahead_words]
    cases hoperator : a.operator <;> first | decide | exact absurd hoperator ‹_›
  · have hvalue := a.value.unnamed_words _ (Lookahead.followsBracket_cons
      (Lookahead.unnamed_eof (count + 1)) (show Kind.semicolon ∉ _ by decide))
    simp only [List.map_append, List.append_assoc]
    exact a.operator.followsBracket_words hvalue

/-- The target is read up to the operator. -/
theorem gives_target (hwf : a.WellFormed) :
    Gives total (expression .default .statementStart) a.words
      (a.operator.words ++ (a.value.words ++ [symbol .semicolon]))
      (Node.Renders · a.target.node) := by
  have hkind : a.operator.kind ∈ symbols ∧ a.operator.kind ≠ .openParen := by
    cases a.operator <;> decide
  rw [← a.operator.ahead_words (a.value.words ++ [symbol .semicolon])] at hkind
  refine gives_resume (gives_parseAs (GivesAmong.within ?_ _))
  refine a.target.isRead hwf.target _ _ _ _ _ _ _ (.inr (hwf.level ▸ by decide))
    (Expression.fits_of_lt_conditional hwf.target (by decide))
    (Expression.ends_of_suffix hwf.level fun h => absurd h hkind.2)
    (a.target.clear_of_mem_symbols hkind.1) fun node hnode turns => gives_lastTurn ?_ turns
  exact (a.operator.gives_foldStep rfl).mono fun r hr => ⟨node, hr, hnode⟩

/-- `operator= value ;` behind the target. -/
theorem gives_statementRhs {lhs : Node} (hwf : a.WellFormed) (hlhs : lhs.Renders a.target.node) :
    Gives total (statementRhs none lhs)
      (a.operator.words ++ (a.value.words ++ [symbol .semicolon])) []
      (Node.Renders · a.node) := by
  refine ParseM.gives_statementRhs (a.operator.gives_compoundAheadAs.bind fun shape hshape => ?_)
  subst hshape
  refine GivesAmong.within (a.operator.gives_compoundOperatorOf.bind fun operator hoperator => ?_) _
  have hvalue : Gives total valueOrAction (a.value.words ++ [symbol .semicolon])
      [symbol .semicolon] (Node.Renders · a.value.node) :=
    gives_resume ((a.value.isRead hwf.value).gives_whole hwf.value rfl rfl)
  refine hvalue.bind fun value hvalue => ?_
  refine (gives_expect _ rfl).map fun semicolon hsemicolon => ?_
  exact Node.renders_ofSlots _ (.cons (.some hlhs) (.cons (.some hoperator.1)
    (.cons hoperator.2 (.cons (.some hvalue) (.cons (.some hsemicolon) .nil)))))

/-- **Compound assignment works for every operator** where the target is no name that the operator
would join to another type. -/
theorem holds_parts (a : CompoundAssignment) (hwf : a.WellFormed) :
    ∃ node, parseFragment a.print .statement = some node ∧ node.isIsomorphic a.node = true ∧
      node.diagnostics = [] ∧ node.HoldsParse 0 a.target.print ∧
      node.HoldsParse 3 a.value.print := by
  have hexpression : Gives a.words.length (expressionStatement none) a.words []
      (Node.Renders · a.node) := by
    refine (gives_isNext _).bind fun started _ => (gives_target hwf).bind fun lhs hlhs => ?_
    exact (gives_statementRhs hwf hlhs).map fun _ h => h
  have hname : ahead a.words = .identifier := (a.target.ahead_words_append _).trans hwf.name
  obtain ⟨node, hparse, hrenders⟩ := parseFragment_of_gives a.faces (gives_loneStatement
    (by decide) (gives_statementOfName hname hwf.declares_eq_false hexpression))
  exact ⟨node, hparse, hrenders.isIsomorphic, hrenders.diagnostics_eq_nil,
    hrenders.holdsParse hwf.target rfl, hrenders.holdsParse hwf.value rfl⟩

/-- A name and a `|` begin a declaration, whatever is behind them. -/
example :
    ((ParseM.fragment .statement (.ofFuel .standard 60) (.ofSource "x |= 1;")).map fun r =>
      (r.1.kind, r.1.collect.isEmpty)) = some (.localVariableDeclaration, false) := by
  decide +kernel

end CompoundAssignment

end TolerantSyntax
