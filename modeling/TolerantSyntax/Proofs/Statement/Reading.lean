import TolerantSyntax.Proofs.Expression.RoundTrip

/-!
# Reading a statement

What the statements that begin with a name, a bracket or an expression have in common: the fragment
around them, the lookahead that tells a declaration from an expression, and the rest of a statement
behind its left-hand side.
-/

namespace TolerantSyntax.ParseM

open Word (ahead symbol)

variable {kinds : List Kind} {total : Nat} {words rest : List Word} {tree lhs : Node}
  {good : Node → Prop}

/-- Without annotations, a fragment that is a statement is the statement alone. -/
theorem gives_loneStatement (hat : .atSign ∉ Kind.eof :: kinds)
    (h : GivesAmong kinds total (parseAs (.request (.statement none)) (ahead words)) words []
      (Node.Renders · tree)) :
    GivesAmong kinds total (fragment .statement) words [] (Node.Renders · tree) := by
  have hmetadata : GivesAmong kinds total metadata words words (· = none) := by
    refine (gives_isNext_of_notMem hat).bind fun annotated hannotated => ?_
    subst hannotated
    exact gives_pure rfl
  have hstatement : GivesAmong kinds total statement words [] (Node.Renders · tree) := by
    refine hmetadata.bind fun annotations hnone => ?_
    subst hnone
    exact gives_resume h
  refine GivesAmong.within ?_ _
  exact (hstatement.hasToken reads_statement).bind fun node hnode =>
    gives_finishFragment hnode.1 hnode.2

/-- A statement that begins with a name is a declaration or an expression, which lookahead tells. -/
theorem gives_statementOfName {declares : Bool} (hname : ahead words = .identifier)
    (hlook : ∀ count, Lookahead.declaresFromIdentifier
      (words.map Word.kind ++ List.replicate (count + 1) .eof) = declares)
    (h : GivesAmong kinds total
      (if declares then localDeclaration none else expressionStatement none) words rest good) :
    GivesAmong kinds total (parseAs (.request (.statement none)) (ahead words)) words rest
      good := by
  refine gives_parseAs ?_
  rw [hname]
  have hworker : GivesAmong kinds total (isQualifiedWorker .identifier) words words (· = false) :=
    (gives_isSecond _).map fun _ _ => rfl
  have hdeclares : GivesAmong kinds total (declaresAs .identifier) words words (· = declares) :=
    gives_upcoming.map fun upcoming hupcoming => by
      obtain ⟨count, rfl⟩ := hupcoming
      exact hlook count
  show GivesAmong kinds total (otherStatementAs .identifier none) _ _ _
  refine hworker.bind fun qualified hqualified => ?_
  subst hqualified
  refine hdeclares.bind fun declared hdeclared => ?_
  subst hdeclared
  exact h

/-- Where no operator of a compound assignment can begin, the left-hand side ends. -/
theorem gives_compoundAheadAs? {kind : Kind} (h : (ahead words).isCompoundOperator = false) :
    GivesAmong kinds total (compoundAheadAs? kind) words words (· = none) := by
  refine (gives_isNext kind).bind fun found _ => ?_
  cases found with
  | true => exact gives_compoundAhead? h
  | false => exact gives_pure rfl

/-- Without annotations, what follows a left-hand side is the whole rest of the statement. -/
theorem gives_statementRhs
    (h : GivesAmong kinds total (plainStatementRhsAs (ahead words) lhs) words rest good) :
    GivesAmong kinds total (statementRhs none lhs) words rest good :=
  gives_resume (gives_parseAs (h.map fun _ hgood => hgood))

/-- A part that is there. -/
theorem gives_ifNext {kind : Kind} {part : ParseM Node} (hk : ahead words = kind)
    (h : GivesAmong kinds total part words rest (Node.Renders · tree)) :
    GivesAmong kinds total (ifNext kind part) words rest
      (Option.Rel Node.Renders · (some tree)) := by
  refine (gives_isNext kind).bind fun found hfound => ?_
  rw [hk, beq_self_eq_true] at hfound
  subst hfound
  exact h.functor fun _ => .some

/-! ## Items up to a token -/

section

variable {ι : Type} {isEnd : Kind → Bool} {item : ParseM Node} {wordsOf : ι → List Word}
  {treeOf : ι → Node} {list : List ι}

/-- Behind some items, others are read one by one up to a token that ends them. -/
theorem gives_moreUntil {items trees : List Node} (hitems : List.Forall₂ Node.Renders items trees)
    (hend : isEnd (ahead rest) = true)
    (hbegins : ∀ i ∈ list, ∀ rest,
      (ahead (wordsOf i ++ rest) == .eof || isEnd (ahead (wordsOf i ++ rest))) = false)
    (hread : ∀ i ∈ list, ∀ rest,
      GivesAmong kinds total item (wordsOf i ++ rest) rest (Node.Renders · (treeOf i))) :
    GivesAmong kinds total
      (loop items fun items => do
        let kind ← nextKind
        if kind == .eof || isEnd kind then return .inr items
        let begun ← position
        let node ← item
        if (← position) == begun then
          discard
          if node.isMissing then return .inl items
        return .inl (items ++ [node]))
      (list.flatMap wordsOf ++ rest) rest
      (List.Forall₂ Node.Renders · (trees ++ list.map treeOf)) := by
  refine gives_loop fun turns => ?_
  induction list generalizing items trees turns with
  | nil =>
    refine gives_lastTurn (gives_nextKind.bind fun kind hkind => ?_) turns
    subst hkind
    rw [List.flatMap_nil, List.nil_append, hend, Bool.or_true, if_pos rfl]
    exact gives_pure ⟨items, rfl, by rwa [List.map_nil, List.append_nil]⟩
  | cons first others ih =>
    obtain ⟨hfirst, hothers⟩ := List.forall_mem_cons.mp hbegins
    obtain ⟨hitem, hmore⟩ := List.forall_mem_cons.mp hread
    refine gives_turn (others.flatMap wordsOf ++ rest)
      (List.Forall₂ Node.Renders · (trees ++ [treeOf first])) ?_
      (fun nodes hnodes turns => ?_) turns
    · rw [List.flatMap_cons, List.append_assoc]
      refine gives_nextKind.bind fun kind hkind => ?_
      subst hkind
      rw [hfirst, if_neg Bool.false_ne_true]
      refine gives_position.bind fun start hstart => (hitem _).bind fun node hnode => ?_
      refine gives_position.bind fun stop hstop => ?_
      -- an item begins with a word, so something was consumed
      have hwords : (wordsOf first).length ≠ 0 := by
        intro hnil
        have hnone := hfirst []
        rw [List.length_eq_zero_iff.mp hnil] at hnone
        cases hnone
      have hmoved : (stop == start) = false := by
        rw [beq_eq_false_iff_ne]
        simp only [List.length_append] at hstart hstop
        omega
      rw [hmoved]
      exact gives_pure ⟨_, rfl, List.rel_append hitems (.cons hnode .nil)⟩
    · simpa using ih hnodes hothers hmore turns

/-- Items are read up to a token that ends them. -/
theorem gives_manyUntil (hend : isEnd (ahead rest) = true)
    (hbegins : ∀ i ∈ list, ∀ rest,
      (ahead (wordsOf i ++ rest) == .eof || isEnd (ahead (wordsOf i ++ rest))) = false)
    (hread : ∀ i ∈ list, ∀ rest,
      GivesAmong kinds total item (wordsOf i ++ rest) rest (Node.Renders · (treeOf i))) :
    GivesAmong kinds total (manyUntil isEnd item) (list.flatMap wordsOf ++ rest) rest
      (Node.Renders · (.list (list.map treeOf))) :=
  (gives_moreUntil .nil hend hbegins hread).map fun _ => Node.renders_list

end

/-! ## Blocks -/

/-- A symbol that is there is consumed. -/
theorem gives_symbol (kind : Kind) (context : Context) :
    GivesAmong kinds total (expect kind context) (symbol kind :: rest) rest
      (Node.Renders · (symbol kind).leaf) :=
  gives_expect context rfl

/-- The tree of an empty block. -/
def emptyBlock : Node :=
  .of .blockStatement [(symbol .openBrace).leaf, .list [], (symbol .closeBrace).leaf]

theorem gives_emptyBlock :
    GivesAmong kinds total block (symbol .openBrace :: symbol .closeBrace :: rest) rest
      (Node.Renders · emptyBlock) := by
  have hbody : GivesAmong kinds total statements
      (([] : List Node).flatMap (fun _ => []) ++ symbol .closeBrace :: rest)
      (symbol .closeBrace :: rest) (Node.Renders · (.list (([] : List Node).map id))) :=
    gives_manyUntil rfl (List.forall_mem_nil _) (List.forall_mem_nil _)
  refine GivesAmong.within ((gives_symbol _ _).bind fun opening hopening => ?_) _
  refine hbody.bind fun body hbody => (gives_symbol _ _).map fun close hclose => ?_
  exact Node.renders_of _ (.cons hopening (.cons hbody (.cons hclose .nil)))

end TolerantSyntax.ParseM
