import TolerantSyntax.Grammar.Assignment
import TolerantSyntax.Proofs.Tree.Everywhere

/-!
# Targets of assignments

What stands to the left of `=` is a name, a field or a member of something that is indexed; any
other expression is kept there and flagged. Binding patterns have a kind of assignment of their own.
The left-hand side is the first slot, so this is a condition on the slots of these two kinds, beside
their layouts. It sees kinds and diagnostics and no trivia. A compound assignment does not look at
what it assigns to, so nothing is asked of it here.
-/

namespace TolerantSyntax

/-! ## Targets -/

/-- Is an expression of this kind one that can be assigned to? -/
def Kind.isTarget (kind : Kind) : Bool :=
  [.simpleNameReference, .qualifiedNameReference, .fieldAccess, .optionalFieldAccess,
    .indexedExpression].contains kind

namespace Node

theorem isAssignable_eq (node : Node) :
    node.isAssignable = (node.kind.isTarget || node.kind.isBindingPattern) :=
  rfl

/-- What is seen of the first slot of a row. -/
def firstLabel? (slots : List (Option Node)) : Option Label :=
  slots.head?.join.map label

theorem firstLabel?_eq (slots : List (Option Node)) :
    firstLabel? slots = (sketches slots).head?.join.map Prod.fst := by
  cases slots with
  | nil => rfl
  | cons slot rest => cases slot <;> rfl

end Node

namespace Kind

/-- Is the first slot what a statement of this kind assigns to? An expression can be assigned to or
is flagged. -/
def aims (kind : Kind) (slots : List (Option Node)) : Bool :=
  match kind with
  | .assignmentStatement =>
    (Node.firstLabel? slots).any fun target =>
      target.kind.isTarget || target.codes.contains .invalidAssignmentTarget
  | .destructuringAssignmentStatement =>
    (Node.firstLabel? slots).any fun target => target.kind.isBindingPattern
  | _ => true

/-- Can a node of this kind be made of these slots? -/
def composes (kind : Kind) (slots : List (Option Node)) : Bool :=
  kind.admits slots && kind.aims slots

variable {kind : Kind} {slots slots' : List (Option Node)}

theorem composes_iff :
    kind.composes slots = true ↔ kind.admits slots = true ∧ kind.aims slots = true :=
  Bool.and_eq_true_iff

/-- Assignments have four slots. All other kinds are known by their layout. -/
theorem aims_of_layout_ne (h : kind.layout ≠ .filled 4) : kind.aims slots = true := by
  unfold aims
  split
  · exact absurd rfl h
  · exact absurd rfl h
  · rfl

theorem composes_of_layout_ne (h : kind.layout ≠ .filled 4) :
    kind.composes slots = kind.admits slots := by
  rw [composes, aims_of_layout_ne h, Bool.and_true]

theorem aims_congr (h : Node.sketches slots' = Node.sketches slots) :
    kind.aims slots' = kind.aims slots := by
  have hfirst : Node.firstLabel? slots' = Node.firstLabel? slots := by
    rw [Node.firstLabel?_eq, Node.firstLabel?_eq, h]
  unfold aims
  rw [hfirst]

end Kind

namespace Node

/-- If the node is an assignment, its first slot is what it assigns to. -/
def Aimed : Node → Prop
  | .leaf _ => True
  | .composite kind slots _ => kind.aims slots = true

instance : Sketched Aimed where
  leaf _ := trivial
  congr h ha := (Kind.aims_congr h).trans ha

variable {slots : List (Option Node)} {diagnostics : List Diagnostic}

/-- An assignment is to something that can be assigned to, or that is flagged. -/
theorem Aimed.target (h : (composite .assignmentStatement slots diagnostics).Aimed) :
    ∃ target, slots[0]? = some (some target) ∧ (target.kind.isTarget = true ∨
      .invalidAssignmentTarget ∈ target.ownDiagnostics.map Diagnostic.code) := by
  match slots, h with
  | some target :: _, h =>
    have htarget : (target.kind.isTarget ||
        (target.ownDiagnostics.map Diagnostic.code).contains .invalidAssignmentTarget) = true := h
    rw [Bool.or_eq_true, List.contains_iff_mem] at htarget
    exact ⟨target, rfl, htarget⟩

/-- A destructuring assignment is to a binding pattern. -/
theorem Aimed.pattern (h : (composite .destructuringAssignmentStatement slots diagnostics).Aimed) :
    ∃ target, slots[0]? = some (some target) ∧ target.kind.isBindingPattern = true := by
  match slots, h with
  | some target :: _, h => exact ⟨target, rfl, h⟩

/-- What is to the left of `=` becomes the target of an assignment. -/
theorem aims_assignment {lhs : Node} (hb : lhs.kind.isBindingPattern = false)
    (rest : List (Option Node)) :
    Kind.assignmentStatement.aims
      (some (if lhs.isAssignable then lhs else lhs.withDiagnostic .invalidAssignmentTarget) ::
        rest) = true := by
  split
  · next ha =>
    rw [isAssignable_eq, hb, Bool.or_false] at ha
    exact Bool.or_eq_true_iff.mpr (.inl ha)
  · exact Bool.or_eq_true_iff.mpr (.inr (by cases lhs <;>
      simp [label, withDiagnostic, ownDiagnostics, Token.withDiagnostic]))

theorem aims_destructuring {lhs : Node} (hb : lhs.kind.isBindingPattern = true)
    (rest : List (Option Node)) :
    Kind.destructuringAssignmentStatement.aims
      (some (if lhs.isAssignable then lhs else lhs.withDiagnostic .invalidAssignmentTarget) ::
        rest) = true := by
  rw [isAssignable_eq, hb, Bool.or_true, if_pos rfl]
  exact hb

end Node

end TolerantSyntax
