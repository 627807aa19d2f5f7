import TolerantSyntax.Proofs.Statement.Reading
import TolerantSyntax.Proofs.Type.Concrete

/-!
# Reading a match guard

A match guard ends at the arrow of its clause. Behind a name an arrow would make a function of it,
so in a guard a name is read without a look at what is behind it. A name in parentheses is not:
where it is the operand at the right end, the guard takes the arrow, and the block behind it as the
body of a function. Every other guard is read as it would be on its own.
-/

namespace TolerantSyntax

open ParseM Word

/-! ## Matches as they are written -/

/-- A match statement as it is written. Each of its clauses takes any value, has a guard, and does
nothing. -/
structure GuardedMatch where
  subject : Identifier
  guards : List Expression

namespace GuardedMatch

/-- Symbols around guards. -/
def guardSymbols : List Kind :=
  [.openBrace, .closeBrace, .underscore, .rightDoubleArrow]

/-- Kinds of the words of guarded matches. -/
def kinds : List Kind :=
  .matchKeyword :: .ifKeyword :: (guardSymbols ++ Word.kinds)

/-- The words of a clause behind its guard. -/
def bodyWords : List Word :=
  [symbol .rightDoubleArrow, symbol .openBrace, symbol .closeBrace]

/-- The words of a clause. -/
def clauseWords (guard : Expression) : List Word :=
  symbol .underscore :: keyword .ifKeyword :: (guard.words ++ bodyWords)

/-- The words of a guarded match. -/
def words (m : GuardedMatch) : List Word :=
  keyword .matchKeyword :: m.subject.word :: symbol .openBrace ::
    (m.guards.flatMap clauseWords ++ [symbol .closeBrace])

/-- The tree of a pattern that takes any value. -/
def wildcardNode : Node :=
  .of .wildcardBindingPattern [(symbol .underscore).leaf]

/-- The tree of a guard. -/
def guardNode (guard : Expression) : Node :=
  .of .matchGuard [(keyword .ifKeyword).leaf, guard.node]

/-- The tree of a clause. -/
def clauseNode (guard : Expression) : Node :=
  .ofSlots .matchClause
    [some (.list [wildcardNode]), some (guardNode guard), some (symbol .rightDoubleArrow).leaf,
      some emptyBlock]

/-- The tree that a guarded match should be read as. -/
def node (m : GuardedMatch) : Node :=
  .ofSlots .matchStatement
    [some (keyword .matchKeyword).leaf, some (Expression.identifier m.subject).node,
      some (symbol .openBrace).leaf, some (.list (m.guards.map clauseNode)),
      some (symbol .closeBrace).leaf, none]

/-- The guarded match as it is written: its words with single spaces between them. -/
def print (m : GuardedMatch) : String :=
  String.ofList (spell m.words)

/-- The guards are well-formed, and the operand at the right end of each is no name in
parentheses. -/
structure WellFormed (m : GuardedMatch) : Prop where
  guard : ∀ guard ∈ m.guards, guard.WellFormed
  parameter : ∀ guard ∈ m.guards, guard.endsInParameter = false

variable {total : Nat} {rest : List Word} {guard : Expression} {m : GuardedMatch}

/-! ## Words -/

theorem next_underline {after : List Char} (h : Lexeme.continuesWord after = false) :
    Lexeme.next .code '_' after = .clean .underscore 0 := by
  simp [Lexeme.next, h]

theorem isLexeme_guardSymbol {kind : Kind} (h : kind ∈ guardSymbols) : (symbol kind).IsLexeme := by
  simp only [guardSymbols, List.mem_cons, List.not_mem_nil, or_false] at h
  rcases h with rfl | rfl | rfl | rfl
  -- an underline could begin a name, so what follows it matters
  case inr.inr.inl =>
    exact isLexeme_of_space (by decide) (next_underline rfl) fun _ =>
      next_underline isIdContinue_space
  all_goals exact isLexeme_of_space (by decide) rfl fun _ => rfl

theorem isRow_guardSymbol {kind : Kind} (h : kind ∈ guardSymbols) (hrest : IsRow rest) :
    IsRow (symbol kind :: rest) :=
  isRow_cons (isLexeme_guardSymbol h) rfl hrest

theorem isRow_clauseWords (guard : Expression) (h : IsRow rest) :
    IsRow (clauseWords guard ++ rest) := by
  have hbehind : IsRow (bodyWords ++ rest) :=
    isRow_guardSymbol (by decide) (isRow_guardSymbol (by decide)
      (isRow_guardSymbol (by decide) h))
  rw [clauseWords, List.cons_append, List.cons_append, List.append_assoc]
  exact isRow_guardSymbol (by decide)
    (isRow_cons (isLexeme_keyword (by decide)) rfl (isRow_append guard.inRow hbehind))

theorem isRow_words (m : GuardedMatch) : IsRow m.words := by
  have hclauses (guards : List Expression) :
      IsRow (guards.flatMap clauseWords ++ [symbol .closeBrace]) := by
    induction guards with
    | nil => exact isRow_guardSymbol (by decide) trivial
    | cons guard guards ih =>
      rw [List.flatMap_cons, List.append_assoc]
      exact isRow_clauseWords guard ih
  exact isRow_cons (isLexeme_keyword (by decide)) rfl (isRow_cons
    (isLexeme_name m.subject.isName) rfl (isRow_guardSymbol (by decide) (hclauses m.guards)))

theorem mem_kinds (m : GuardedMatch) : ∀ word ∈ m.words, word.kind ∈ kinds := by
  have hclause (guard : Expression) : ∀ word ∈ clauseWords guard, word.kind ∈ kinds := by
    refine List.forall_mem_cons.mpr ⟨by decide, List.forall_mem_cons.mpr ⟨by decide, ?_⟩⟩
    refine List.forall_mem_append.mpr ⟨fun word h => ?_, by decide⟩
    have hkind := guard.inRow.mem_kinds word h
    exact List.mem_cons_of_mem _ (List.mem_cons_of_mem _ (List.mem_append_right _ hkind))
  refine List.forall_mem_cons.mpr ⟨by decide, List.forall_mem_cons.mpr
    ⟨show Kind.identifier ∈ kinds by decide, List.forall_mem_cons.mpr ⟨by decide, ?_⟩⟩⟩
  refine List.forall_mem_append.mpr ⟨fun word h => ?_, by decide⟩
  obtain ⟨guard, -, hmem⟩ := List.mem_flatMap.mp h
  exact hclause guard word hmem

theorem faces (m : GuardedMatch) : (Scanner.ofSource m.print).FacesAmong kinds m.words :=
  .of_row m.isRow_words m.mem_kinds (by decide) rfl String.toList_ofList

/-! ## Reading clauses -/

/-- **A guard ends at its arrow.** -/
theorem gives_matchGuard (hwf : guard.WellFormed) (hparameter : guard.endsInParameter = false) :
    GivesAmong kinds total matchGuard
      (keyword .ifKeyword :: (guard.words ++ symbol .rightDoubleArrow :: rest))
      (symbol .rightDoubleArrow :: rest) (Node.Renders · (guardNode guard)) := by
  have hcolon : ahead (symbol .rightDoubleArrow :: rest) ≠ .colon :=
    show Kind.rightDoubleArrow ≠ _ by decide
  refine GivesAmong.within (gives_consumeNode.bind fun keyword hkeyword => ?_) _
  refine (gives_resume ((guard.isRead hwf).gives_inPlace hwf rfl (by decide)
    (guard.clear_of_endsInParameter hcolon hparameter) rfl)).map fun condition hcondition => ?_
  exact Node.renders_of _ (.cons hkeyword (.cons hcondition .nil))

/-- A pattern that takes any value is the only one of its clause if no other is joined to it. -/
theorem gives_patterns (hrest : ahead rest ≠ .pipe) :
    GivesAmong kinds total (separated .pipe matchPattern) (symbol .underscore :: rest) rest
      (List.Forall₂ Node.Renders · [wildcardNode]) := by
  have hpattern : GivesAmong kinds total matchPattern (symbol .underscore :: rest) rest
      (Node.Renders · wildcardNode) := by
    refine gives_resume (gives_parseAs ?_)
    exact gives_consumeNode.map fun node hnode => Node.renders_of _ (.cons hnode .nil)
  refine hpattern.bind fun first hfirst => gives_loop fun turns => gives_lastTurn ?_ turns
  refine (gives_isNext _).bind fun more hmore => ?_
  rw [beq_eq_false_iff_ne.mpr hrest] at hmore
  subst hmore
  exact gives_pure ⟨_, rfl, .cons hfirst .nil⟩

theorem gives_matchClause (hwf : guard.WellFormed) (hparameter : guard.endsInParameter = false) :
    GivesAmong kinds total matchClause (clauseWords guard ++ rest) rest
      (Node.Renders · (clauseNode guard)) := by
  rw [clauseWords, List.cons_append, List.cons_append, List.append_assoc]
  have hguard : GivesAmong kinds total (ifNext .ifKeyword matchGuard)
      (keyword .ifKeyword :: (guard.words ++ (bodyWords ++ rest))) (bodyWords ++ rest)
      (Option.Rel Node.Renders · (some (guardNode guard))) :=
    gives_ifNext rfl (gives_matchGuard hwf hparameter)
  have hkeyword : ahead (keyword .ifKeyword :: (guard.words ++ (bodyWords ++ rest))) ≠ .pipe :=
    show Kind.ifKeyword ≠ _ by decide
  refine GivesAmong.within ((gives_patterns hkeyword).bind fun patterns hpatterns =>
    hguard.bind fun part hpart => ?_) _
  refine (gives_symbol _ _).bind fun arrow harrow => gives_emptyBlock.map fun body hbody => ?_
  exact Node.renders_ofSlots _ (.cons (.some (Node.renders_list hpatterns)) (.cons hpart
    (.cons (.some harrow) (.cons (.some hbody) .nil))))

/-! ## Whole matches -/

theorem gives_matchBody (hwf : m.WellFormed) :
    GivesAmong kinds total matchBody
      (symbol .openBrace :: (m.guards.flatMap clauseWords ++ [symbol .closeBrace])) []
      fun r => r.1.Renders (symbol .openBrace).leaf ∧
        r.2.1.Renders (.list (m.guards.map clauseNode)) ∧
        r.2.2.Renders (symbol .closeBrace).leaf := by
  have hclauses : GivesAmong kinds total (manyUntil (· == .closeBrace) matchClause)
      (m.guards.flatMap clauseWords ++ [symbol .closeBrace]) [symbol .closeBrace]
      (Node.Renders · (.list (m.guards.map clauseNode))) :=
    gives_manyUntil rfl (fun _ _ _ => rfl) fun guard hmem _ =>
      gives_matchClause (hwf.guard guard hmem) (hwf.parameter guard hmem)
  refine GivesAmong.within ((gives_symbol _ _).bind fun opening hopening => ?_) _
  exact hclauses.bind fun clauses hclauses => (gives_symbol _ _).map fun close hclose =>
    ⟨hopening, hclauses, hclose⟩

theorem gives_matchStatement (hwf : m.WellFormed) :
    GivesAmong kinds total matchStatement m.words [] (Node.Renders · m.node) := by
  have hsubject : GivesAmong kinds total value
      ((Expression.identifier m.subject).words ++ symbol .openBrace ::
        (m.guards.flatMap clauseWords ++ [symbol .closeBrace]))
      (symbol .openBrace :: (m.guards.flatMap clauseWords ++ [symbol .closeBrace]))
      (Node.Renders · (Expression.identifier m.subject).node) :=
    gives_resume (((Expression.identifier m.subject).isRead trivial).gives_inPlace trivial rfl
      (by decide) (Expression.clear_of_ne _ (show Kind.openBrace ≠ _ by decide)
        (show Kind.openBrace ≠ _ by decide)) rfl)
  have honFail : GivesAmong kinds total onFail [] [] (Option.Rel Node.Renders · none) := by
    refine (gives_isNext _).bind fun found hfound => (gives_isSecond _).bind fun fails _ => ?_
    rw [show found = false from hfound]
    exact gives_pure .none
  refine GivesAmong.within (gives_consumeNode.bind fun keyword hkeyword => ?_) _
  refine hsubject.bind fun subject hsubject => (gives_matchBody hwf).bind fun body hbody => ?_
  obtain ⟨hopening, hclauses, hclose⟩ := hbody
  refine honFail.map fun handler hhandler => ?_
  exact Node.renders_ofSlots _ (.cons (.some hkeyword) (.cons (.some hsubject)
    (.cons (.some hopening) (.cons (.some hclauses) (.cons (.some hclose)
      (.cons hhandler .nil))))))

/-- The condition of a guard of a match statement. -/
def condition? (statement : Node) (index : Nat) : Option Node := do
  let clauses ← statement.slot? 3
  let clause ← clauses.slot? index
  let guard ← clause.slot? 1
  guard.slot? 1

/-- **A match guard ends at its arrow**: the statement is the match that was written, nothing is
wrong, and each guard is what it is parsed to alone. -/
theorem holds_guards (m : GuardedMatch) (hwf : m.WellFormed) :
    ∃ node, parseFragment m.print .statement = some node ∧ node.isIsomorphic m.node = true ∧
      node.diagnostics = [] ∧
      ∀ (index : Nat) (guard : Expression), m.guards[index]? = some guard →
        ∃ condition alone, condition? node index = some condition ∧
          parseFragment guard.print .expression = some alone ∧
          condition.isIsomorphic alone = true := by
  obtain ⟨node, hparse, hrenders⟩ := parseFragment_of_gives m.faces (gives_loneStatement
    (by decide) (gives_parseAs ((gives_matchStatement hwf).map fun _ h => h)))
  refine ⟨node, hparse, hrenders.isIsomorphic, hrenders.diagnostics_eq_nil, ?_⟩
  intro index guard hguard
  have hclause : (Node.list (m.guards.map clauseNode)).slot? index = some (clauseNode guard) := by
    rw [Node.slot?_list, List.getElem?_map, hguard]
    rfl
  obtain ⟨clauses, hclauses, hlike⟩ := Node.exists_slot?_of_isIsomorphic hrenders.isIsomorphic
    (show m.node.slot? 3 = some (.list (m.guards.map clauseNode)) from rfl)
  obtain ⟨clause, hclause, hlike⟩ := Node.exists_slot?_of_isIsomorphic hlike hclause
  obtain ⟨part, hpart, hlike⟩ := Node.exists_slot?_of_isIsomorphic hlike
    (show (clauseNode guard).slot? 1 = some (guardNode guard) from rfl)
  obtain ⟨condition, hcondition, hlike⟩ := Node.exists_slot?_of_isIsomorphic hlike
    (show (guardNode guard).slot? 1 = some guard.node from rfl)
  obtain ⟨alone, halone, hrenders⟩ :=
    guard.exists_parse (hwf.guard guard (List.mem_of_getElem? hguard))
  refine ⟨condition, alone, ?_, halone,
    Node.isIsomorphic_of_both condition hlike hrenders.isIsomorphic⟩
  simp only [condition?, hclauses, hclause, hpart, hcondition, Option.bind_eq_bind,
    Option.bind_some]

/-- A name in parentheses is taken for a parameter, and the clause has no arrow of its own. -/
example :
    ((ParseM.fragment .statement (.ofFuel .standard 60)
      (.ofSource "match v \x7b _ if ( a ) => \x7b \x7d \x7d")).map fun r =>
        r.1.collect.map Diagnostic.code) =
          some [.missingToken .rightDoubleArrow, .missingToken .openBrace,
            .missingCloseBrace] := by
  decide +kernel

end GuardedMatch

end TolerantSyntax
