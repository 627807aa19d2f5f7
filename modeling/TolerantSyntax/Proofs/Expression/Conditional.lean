import TolerantSyntax.Proofs.Expression.RoundTrip

/-!
# Reading a conditional

The parts of a conditional are read as they would be on their own, up to one ambiguity. A name, a
colon and a name are a qualified name. Right behind its `?` a conditional looks one token further,
so a middle that is a name stays one. An operand of the middle does not look further: if it ends
in a name and the last part of the conditional begins with one, it takes the colon.
-/

namespace TolerantSyntax

open ParseM Word

/-! ## Conditionals as they are written -/

/-- A conditional as it is written, of parts that are no conditionals. -/
structure Conditional where
  condition : Expression
  middle : Expression
  otherwise : Expression

namespace Conditional

/-- Kinds of the words of conditionals. -/
def kinds : List Kind :=
  .questionMark :: .colon :: Word.kinds

/-- The words of a conditional. -/
def words (c : Conditional) : List Word :=
  c.condition.words ++ symbol .questionMark ::
    (c.middle.words ++ symbol .colon :: c.otherwise.words)

/-- The tree that a conditional should be read as. -/
def node (c : Conditional) : Node :=
  .of .conditionalExpression [c.condition.node, (symbol .questionMark).leaf, c.middle.node,
    (symbol .colon).leaf, c.otherwise.node]

/-- The conditional as it is written: its words with single spaces between them. -/
def print (c : Conditional) : String :=
  String.ofList (spell c.words)

/-- The parts are well-formed, and the colon between them is not that of a qualified name. -/
structure WellFormed (c : Conditional) : Prop where
  condition : c.condition.WellFormed
  middle : c.middle.WellFormed
  otherwise : c.otherwise.WellFormed
  colon : c.middle.operandEndsInName = true → ahead c.otherwise.words ≠ .identifier

variable {total : Nat} {rest : List Word} {c : Conditional}

theorem isRow_words (c : Conditional) : IsRow c.words := by
  have hspace {kind : Kind} (h : kind = .questionMark ∨ kind = .colon) :
      (symbol kind).IsLexeme := by
    rcases h with rfl | rfl <;> exact isLexeme_of_space (by decide) rfl fun _ => rfl
  have hotherwise : IsRow c.otherwise.words := by
    simpa using isRow_append c.otherwise.inRow (show IsRow [] from trivial)
  refine isRow_append c.condition.inRow (isRow_cons (hspace (.inl rfl)) rfl ?_)
  exact isRow_append c.middle.inRow (isRow_cons (hspace (.inr rfl)) rfl hotherwise)

theorem mem_kinds (c : Conditional) : ∀ word ∈ c.words, word.kind ∈ kinds := by
  have hpart (e : Expression) : ∀ word ∈ e.words, word.kind ∈ kinds := fun word h =>
    List.mem_cons_of_mem _ (List.mem_cons_of_mem _ (e.inRow.mem_kinds word h))
  refine List.forall_mem_append.mpr ⟨hpart _, List.forall_mem_cons.mpr ⟨by decide, ?_⟩⟩
  exact List.forall_mem_append.mpr ⟨hpart _, List.forall_mem_cons.mpr ⟨by decide, hpart _⟩⟩

theorem faces (c : Conditional) : (Scanner.ofSource c.print).FacesAmong kinds c.words :=
  .of_row c.isRow_words c.mem_kinds (by decide) rfl String.toList_ofList

/-! ## Reading the parts -/

/-- The colon of a conditional goes on no operand of the middle. -/
theorem WellFormed.clear_middle (h : c.WellFormed) (hrest : ahead rest ≠ .colon)
    (inGuard : Bool) : c.middle.Clear true inGuard
      (symbol .colon :: (c.otherwise.words ++ rest)) := by
  have harrow : ahead (symbol .colon :: (c.otherwise.words ++ rest)) ≠ .rightDoubleArrow :=
    show Kind.colon ≠ _ by decide
  refine c.middle.clear_of_operandEndsInName harrow ?_ fun hname => ?_
  · -- there is no second colon, behind the first word of the last part
    have hsecond := c.otherwise.second_words (.inr rfl) rest hrest
    rw [qualifies_colon, beq_eq_false_iff_ne.mpr hsecond, Bool.not_true, Bool.false_or,
      Bool.and_false]
  · have hfirst : ahead (c.otherwise.words ++ rest) ≠ .identifier := by
      rw [c.otherwise.ahead_words_append]
      exact h.colon hname
    rw [qualifies_colon, beq_eq_false_iff_ne.mpr hfirst, Bool.false_and]

/-- `? middle : otherwise` behind the condition. -/
theorem gives_conditionalAfter {flags : ExpressionFlags} {lhs : Node} (hwf : c.WellFormed)
    (hlhs : lhs.Renders c.condition.node) (hcolon : ahead rest ≠ .colon)
    (harrow : ahead rest ≠ .rightDoubleArrow) (hnone : levelAhead? rest = none) :
    GivesAmong kinds total (conditionalAfter lhs flags)
      (symbol .questionMark :: (c.middle.words ++ symbol .colon :: (c.otherwise.words ++ rest)))
      rest (Node.Renders · c.node) := by
  refine GivesAmong.within (gives_consumeNode.bind fun question hquestion => ?_) _
  refine (gives_resume ((c.middle.isRead hwf.middle).gives_inPlace hwf.middle rfl (by decide)
    (hwf.clear_middle hcolon _) rfl)).bind fun middle hmiddle => ?_
  refine (gives_expect _ rfl).bind fun colon hcolon' => ?_
  refine (gives_resume ((c.otherwise.isRead hwf.otherwise).gives_inPlace hwf.otherwise rfl
    (by decide) (c.otherwise.clear_of_ne hcolon harrow) hnone)).map fun otherwise hotherwise => ?_
  exact Node.renders_of _ (.cons hlhs (.cons hquestion (.cons hmiddle (.cons hcolon'
    (.cons hotherwise .nil)))))

/-- The condition ends before its `?`, and the conditional is folded onto it. -/
theorem gives_valueOrAction (hwf : c.WellFormed) :
    GivesAmong kinds total valueOrAction c.words [] (Node.Renders · c.node) := by
  have hlevel : levelAhead? (symbol .questionMark ::
      (c.middle.words ++ symbol .colon :: c.otherwise.words)) = some .conditional := rfl
  have hbinds := c.condition.conditional_lt_level
  refine gives_resume (gives_parseAs (GivesAmong.within ?_ _))
  refine c.condition.isRead hwf.condition _ _ _ _ _ _ _ (.inl rfl)
    (Expression.fits_of_lt_conditional hwf.condition (by decide))
    (Expression.ends_of_level hwf.condition hlevel (by decide) (Nat.le_of_lt hbinds)
      fun _ => hbinds)
    (c.condition.clear_of_ne (show Kind.questionMark ≠ .colon by decide)
      (show Kind.questionMark ≠ .rightDoubleArrow by decide)) fun condition hcondition turns => ?_
  refine gives_turn [] (Node.Renders · c.node) ?_ (fun node hnode turns => ?_) turns
  · refine gives_foldStep (.inl rfl) rfl rfl (gives_nextKind.bind fun _ hkind => hkind ▸ ?_)
    rw [← List.append_nil c.otherwise.words]
    exact gives_conditionalAfter hwf hcondition (by decide) (by decide) rfl
  · refine gives_lastTurn ?_ turns
    exact (gives_foldStep_of_stops (.inl rfl) (stops_of_none rfl)).mono
      fun r hr => ⟨node, hr, hnode⟩

/-! ## Whole conditionals -/

/-- **The parts of a conditional are parsed as they would be alone.** -/
theorem holds_parts (c : Conditional) (hwf : c.WellFormed) :
    ∃ node, parseFragment c.print .expression = some node ∧ node.kind = .conditionalExpression ∧
      node.diagnostics = [] ∧ node.HoldsParse 0 c.condition.print ∧
      node.HoldsParse 2 c.middle.print ∧ node.HoldsParse 4 c.otherwise.print := by
  obtain ⟨node, hparse, hrenders⟩ :=
    exists_parseExpression c.faces (gives_valueOrAction hwf)
  exact ⟨node, hparse, hrenders.kind_eq, hrenders.diagnostics_eq_nil,
    hrenders.holdsParse hwf.condition rfl, hrenders.holdsParse hwf.middle rfl,
    hrenders.holdsParse hwf.otherwise rfl⟩

/-- The colon goes on the name before it, and none is left for the conditional. -/
example :
    ((ParseM.fragment .expression (.ofFuel .standard 60) (.ofSource "a ? b + c : d")).map fun r =>
      (r.1.kind, r.1.collect.map Diagnostic.code)) =
        some (.conditionalExpression, [.missingToken .colon, .missingExpression]) := by
  decide +kernel

end Conditional

end TolerantSyntax
