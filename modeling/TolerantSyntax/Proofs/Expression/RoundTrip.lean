import TolerantSyntax.Proofs.Expression.InPlace
import TolerantSyntax.Proofs.Expression.Source

/-!
# Reading an expression back

An expression that is well-formed is read back from what it is written as: its words with single
spaces between them are parsed to its tree, and nothing is wrong.
-/

namespace TolerantSyntax

open ParseM Word

/-! ## Rows of words -/

namespace Expression

variable {total : Nat} {flags : ExpressionFlags} {rest : List Word} {e : Expression}

/-- In a row of words of expressions, an expression is read where no operator at all follows. -/
theorem IsRead.gives_whole (h : e.IsRead) (hwf : e.WellFormed) (hrhs : flags.isRhs = true)
    (hnone : levelAhead? rest = none) :
    Gives total (parseAs (.request (.expression .default flags)) (ahead (e.words ++ rest)))
      (e.words ++ rest) rest (Node.Renders · e.node) := by
  refine GivesAmong.ofKinds fun hkinds => h.gives_inPlace hwf hrhs (by decide) ?_ hnone
  -- there are neither colons nor arrows among the words of expressions
  have hahead : ahead rest ∈ Kind.eof :: kinds := by
    have hdrop := ahead_drop_mem hkinds e.words.length
    rwa [List.drop_left] at hdrop
  exact e.clear_of_ne (fun heq => absurd (heq ▸ hahead) (by decide))
    fun heq => absurd (heq ▸ hahead) (by decide)

/-! ## Whole sources -/

/-- **Reading gives back what was written**: every well-formed expression, written with single
spaces between its words, is parsed to its tree, and nothing is wrong. -/
theorem parse_print (e : Expression) (hwf : e.WellFormed) :
    ∃ node, parseFragment e.print .expression = some node ∧ node.isIsomorphic e.node = true ∧
      node.diagnostics = [] := by
  have hrow : InRow e.words := by simpa using e.inRow_words [] trivial
  have hfaces : (Scanner.ofSource e.print).Faces e.words :=
    .of_spell hrow rfl String.toList_ofList
  have hwhole : Gives e.words.length valueOrAction (e.words ++ []) [] (Node.Renders · e.node) :=
    gives_resume ((e.isRead hwf).gives_whole hwf (by rfl) (by rfl))
  rw [List.append_nil] at hwhole
  have hfragment : Gives e.words.length (fragment .expression) e.words [] (Node.Renders · e.node) :=
    (hwhole.hasToken reads_valueOrAction).bind fun node hnode =>
      gives_finishFragment hnode.1 hnode.2
  obtain ⟨node, hparse, hrenders⟩ := parseFragment_of_gives hfaces hfragment
  exact ⟨node, hparse, hrenders.isIsomorphic, hrenders.diagnostics_eq_nil⟩

/-- `a ?: - b . c ( 10 , a ) >>> ( b [ 0 ] - 1 - a )`. -/
def mixed : Expression :=
  let a : Identifier := ⟨['a'], .plain (by decide) (by simp) (by decide) (by decide)⟩
  let b : Identifier := ⟨['b'], .plain (by decide) (by simp) (by decide) (by decide)⟩
  let c : Identifier := ⟨['c'], .plain (by decide) (by simp) (by decide) (by decide)⟩
  let zero : Numeral := ⟨_, ['0'], .decimal (List.all_eq_true.mp rfl)⟩
  let one : Numeral := ⟨_, ['1'], .decimal (List.all_eq_true.mp rfl)⟩
  let ten : Numeral := ⟨_, ['1', '0'], .decimal (List.all_eq_true.mp rfl)⟩
  .binary .elvis (.identifier a)
    (.binary .shiftRightUnsigned
      (.unary .minus (.methodCall (.identifier b) c [.integer ten, .identifier a]))
      (.braced (.binary .subtract
        (.binary .subtract (.index (.identifier b) [.integer zero]) (.integer one))
        (.identifier a))))

theorem wellFormed_mixed : mixed.WellFormed := by
  simp +decide [mixed, WellFormed, AllWellFormed, BinaryOperator.Associates]

theorem parse_print_mixed :
    mixed.WellFormed ∧ mixed.print = "a ?: - b . c ( 10 , a ) >>> ( b [ 0 ] - 1 - a )" ∧
      ∃ node, parseFragment mixed.print .expression = some node ∧
        node.isIsomorphic mixed.node = true ∧ node.diagnostics = [] :=
  ⟨wellFormed_mixed, by decide, parse_print mixed wellFormed_mixed⟩

/-! ## Expressions as parts -/

/-- Alone, an expression is parsed to its tree. -/
theorem exists_parse (e : Expression) (hwf : e.WellFormed) :
    ∃ node, parseFragment e.print .expression = some node ∧ node.Renders e.node := by
  have hwhole : Gives e.words.length valueOrAction (e.words ++ []) [] (Node.Renders · e.node) :=
    gives_resume ((e.isRead hwf).gives_whole hwf rfl rfl)
  rw [List.append_nil] at hwhole
  exact exists_parseExpression (.of_spell e.inRow rfl String.toList_ofList) hwhole

end Expression

/-- What is in the slot is what the source alone is parsed to, as an expression. -/
def Node.HoldsParse (node : Node) (index : Nat) (source : String) : Prop :=
  ∃ part alone, node.slot? index = some part ∧ parseFragment source .expression = some alone ∧
    part.isIsomorphic alone = true

theorem Node.Renders.holdsParse {node tree : Node} {index : Nat} {e : Expression}
    (h : node.Renders tree) (hwf : e.WellFormed) (hslot : tree.slot? index = some e.node) :
    node.HoldsParse index e.print := by
  obtain ⟨part, hpart, hiso⟩ := exists_slot?_of_isIsomorphic h.isIsomorphic hslot
  obtain ⟨alone, halone, hrenders⟩ := e.exists_parse hwf
  exact ⟨part, alone, hpart, halone, isIsomorphic_of_both part hiso hrenders.isIsomorphic⟩

end TolerantSyntax
