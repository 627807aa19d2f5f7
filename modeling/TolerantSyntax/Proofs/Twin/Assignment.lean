import TolerantSyntax.Proofs.Parse.Assignment
import TolerantSyntax.Proofs.Twin.Operator

/-!
# Assignments and variables in step

What an expression may be used for is said by kinds: its own, or that of the call that it checks.
-/

namespace TolerantSyntax

open Node (PartTwin Twins)

/-! ## What an expression may be used for -/

namespace Node

/-- Whether a node is a call can be told without its layout. -/
theorem isCall_bare (node : Node) : node.bare.isCall = node.isCall := by
  fun_induction isCall node with
  | case1 head operand rest diagnostics ih =>
    rw [bare, bareSlots_eq_map, List.map_cons, List.map_cons, Option.map_some, isCall]
    exact ih
  | case2 node h =>
    have hbare : ∀ head operand rest diagnostics,
        node.bare = .composite .checkExpression (head :: some operand :: rest) diagnostics →
          False := by
      intro _ _ _ _ heq
      cases node with
      | leaf token => cases heq
      | composite kind slots diagnostics =>
        rw [bare, bareSlots_eq_map, composite.injEq] at heq
        obtain ⟨rfl, hslots, -⟩ := heq
        obtain ⟨head, _, rfl, -, htail⟩ := List.map_eq_cons_iff.mp hslots
        obtain ⟨_, rest, rfl, hsome, -⟩ := List.map_eq_cons_iff.mp htail
        obtain ⟨operand, rfl, -⟩ := Option.map_eq_some_iff.mp hsome
        exact h head operand rest diagnostics rfl
    rw [isCall.eq_2 _ hbare, kind_bare]

variable {a b : Node}

/-- So twins are both calls, or neither is. -/
theorem Twin.isCall_eq (h : a.Twin b) : a.isCall = b.isCall := by
  rw [← isCall_bare a, h.bare, isCall_bare]

/-- Whether a value can be assigned is told by the kind alone. -/
theorem Twin.isAssignable_eq (h : a.Twin b) : a.isAssignable = b.isAssignable := by
  rw [isAssignable, h.kind_eq, isAssignable]

end Node

namespace ParseM

variable {a b c d : Node} {m m' o o' v v' : Option Node} {xs ys : List Node}

/-! ## Ends of statements -/

/-- The same sort of statement is made of twins, flagged in both parses or in neither. -/
theorem twin_expressionStatementOf (he : a.Twin b) (hs : c.Twin d) :
    (expressionStatementOf a c).Twin (expressionStatementOf b d) := by
  unfold expressionStatementOf
  rw [he.isCall_eq, he.kind_eq]
  split
  · exact .of rfl (by simp [he, hs])
  · split
    · exact .of rfl (by simp [he, hs])
    · exact Node.Twin.withDiagnostic (.of rfl (by simp [he, hs])) _

theorem inStep_compoundAssignmentAfter (shape : CompoundOperator) (hl : a.Twin b) :
    InStep Node.Twin (compoundAssignmentAfter a shape) (compoundAssignmentAfter b shape) := by
  refine .within _ ((inStep_compoundOperatorOf shape).bind fun _ _ ho => ?_)
  refine inStep_valueOrAction.twin.bind fun _ _ hv => (inStep_expect _ _).bind fun _ _ hs => ?_
  exact .ofSlots rfl (by simp [hl, ho.1, ho.2, hv, hs])

/-- `= value;` behind the left side, flagged in both parses if nothing can be assigned to that. -/
theorem inStep_assignmentAfter (hl : a.Twin b) :
    InStep Node.Twin (assignmentAfter a) (assignmentAfter b) := by
  have htarget : (if a.isAssignable then a else a.withDiagnostic .invalidAssignmentTarget).Twin
      (if b.isAssignable then b else b.withDiagnostic .invalidAssignmentTarget) := by
    rw [hl.isAssignable_eq]
    split
    · exact hl
    · exact hl.withDiagnostic _
  have hend {kind : Kind} (hk : kind.itemsSlot? = none) (context : Context) :
      InStep Node.Twin
        (within context do
          let equal ← expect .equal context
          let value ← valueOrAction
          let semicolon ← expect .semicolon context
          return .of kind [if a.isAssignable then a else a.withDiagnostic .invalidAssignmentTarget,
            equal, value, semicolon])
        (within context do
          let equal ← expect .equal context
          let value ← valueOrAction
          let semicolon ← expect .semicolon context
          return .of kind [if b.isAssignable then b else b.withDiagnostic .invalidAssignmentTarget,
            equal, value, semicolon]) := by
    refine .within _ ((inStep_expect _ _).bind fun _ _ he => ?_)
    refine inStep_valueOrAction.twin.bind fun _ _ hv => (inStep_expect _ _).bind fun _ _ hs => ?_
    exact .of hk (.cons htarget (.cons he (.cons hv (.cons hs .nil))))
  unfold assignmentAfter
  rw [hl.kind_eq]
  by_cases hp : b.kind.isBindingPattern = true
  · simp only [hp, if_true]
    exact hend rfl _
  · simp only [hp]
    exact hend rfl _

/-- The operator is looked for in both parses or in neither, and both find the same. -/
theorem inStep_compoundAheadAs? (kind : Kind) :
    InStep Eq (compoundAheadAs? kind) (compoundAheadAs? kind) :=
  (inStep_isNext _).same fun _ => .ite (fun _ => inStep_compoundAhead?) fun _ => .pure rfl

/-- What follows the left side, if there are no annotations. -/
theorem inStep_plainStatementRhsAs (kind : Kind) (hl : a.Twin b) :
    InStep Node.Twin (plainStatementRhsAs kind a) (plainStatementRhsAs kind b) := by
  refine (inStep_compoundAheadAs? kind).same fun shape => ?_
  cases shape with
  | some shape => exact inStep_compoundAssignmentAfter shape hl
  | none =>
    dsimp only
    split
    · exact inStep_assignmentAfter hl
    · exact inStep_consumeNode.bind fun _ _ hs => .pure (twin_expressionStatementOf hl hs)
    · have hrequest := Request.Twin.statementRhs .none hl
      refine (inStep_recoverAs (.request hrequest) hrequest rfl fun _ _ hs => ?_).twin
      exact InStep.plain (.pure (twin_expressionStatementOf hl hs))

/-- A rule whose result has annotations put in front of it, where they are misplaced. -/
theorem InStep.rejecting {n n' : ParseM Node} {limit : Option Nat} {start : Kind → Prop}
    {bound : Nat} {given : Row} {moves : Node → Prop} (h : InStep Node.Twin n n')
    (hn : Meets limit start bound given n .node moves) (hm : PartTwin m m') :
    InStep Node.Twin (do return rejectAnnotations (← n) m)
      (do return rejectAnnotations (← n') m') :=
  (h.knowing hn).bind fun _ _ h => .pure (twin_rejectAnnotations h.1 h.2 hm)

theorem inStep_statementRhsAs (kind : Kind) (hm : PartTwin m m') (hl : a.Twin b) :
    InStep Node.Twin (statementRhsAs kind m a) (statementRhsAs kind m' b) := by
  have hr : Reads 5 [some a] (plainStatementRhsAs kind a) .node :=
    reads_plainStatementRhsAs a (by decide) fun _ => Nat.le_refl _
  exact (inStep_plainStatementRhsAs kind hl).rejecting hr hm

/-- A reference to the rule, with twins as the left side. -/
theorem inStep_statementRhs (hm : PartTwin m m') (hl : a.Twin b) :
    InStep Node.Twin (statementRhs m a) (statementRhs m' b) :=
  (inStep_resume (.statementRhs hm hl)).twin

/-! ## Variables -/

/-- A variable is put together from twins in its slots. -/
theorem twin_variableOf (moduleLevel : Bool) (hm : PartTwin m m') (hq : Twins xs ys)
    (hb : a.Twin b) (ho : PartTwin o o') (hv : PartTwin v v') (hs : c.Twin d) :
    (variableOf moduleLevel m xs a o v c).Twin (variableOf moduleLevel m' ys b o' v' d) := by
  have hhead : PartTwin xs.head? ys.head? := by
    cases hq with
    | nil => exact .none
    | cons hx _ => exact .some hx
  unfold variableOf
  split
  · exact .ofSlots rfl (by simp [hm, Node.Twin.list hq, hb, ho, hv, hs])
  · exact .ofSlots rfl (by simp [hm, hhead, hb, ho, hv, hs])

/-- The value behind `=`; at the top of a module it may be `?`. -/
theorem inStep_initialValue (moduleLevel : Bool) :
    InStep Node.Twin (initialValue moduleLevel) (initialValue moduleLevel) := by
  refine (inStep_isNext _).same fun _ => .ite (fun _ => ?_) fun _ => inStep_valueOrAction.twin
  exact inStep_consumeNode.bind fun _ _ hq => .of rfl (.cons hq .nil)

/-- The end of a declaration: a value or the semicolon. -/
theorem inStep_variableRhsAs (kind : Kind) (hm : PartTwin m m') (hq : Twins xs ys)
    (hb : a.Twin b) (moduleLevel : Bool) :
    InStep Node.Twin (variableRhsAs kind m xs a moduleLevel)
      (variableRhsAs kind m' ys b moduleLevel) := by
  have hfinish {o o' v v' : Option Node} {c d : Node} (ho : PartTwin o o') (hv : PartTwin v v')
      (hs : c.Twin d) := twin_variableOf moduleLevel hm hq hb ho hv hs
  unfold variableRhsAs
  dsimp only
  generalize (if moduleLevel = true then Context.moduleVariableDeclaration
    else Context.localVariableDeclaration) = context
  split
  · refine inStep_consumeNode.bind fun _ _ he => (inStep_initialValue _).bind fun _ _ hv => ?_
    exact (inStep_expect _ _).bind fun _ _ hs => .pure (hfinish (.some he) (.some hv) hs)
  · exact inStep_consumeNode.bind fun _ _ hs => .pure (hfinish .none .none hs)
  · have hrequest := Request.Twin.variableRhs hm hq hb moduleLevel
    refine (inStep_recoverAs (.request hrequest) hrequest rfl fun _ _ hs => ?_).twin
    exact InStep.plain (.pure (hfinish .none .none hs))

/-- A variable behind its qualifiers, with its type or `var`. -/
theorem inStep_localVariable (hm : PartTwin m m') (hq : Twins xs ys) :
    InStep Node.Twin (localVariable m xs) (localVariable m' ys) :=
  inStep_typedBinding.twin.bind fun _ _ hb =>
    (inStep_resume (.variableRhs hm hq hb false)).twin

end ParseM

end TolerantSyntax
