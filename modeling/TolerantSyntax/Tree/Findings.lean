import TolerantSyntax.Tree.Walk

/-!
# Diagnostics of a tree

Diagnostics are attached to tokens and nodes, also to those inside invalid trivia. The list for a
whole tree is ordered by span. Diagnostics of one span keep the order in which they are met: those
of a node before those of its parts, those of a token before those in its trivia.
-/

namespace TolerantSyntax

mutual

/-- Diagnostics at a token, then those in its trivia. -/
def Token.collect : Token → List Diagnostic
  | ⟨_, _, _, leading, trailing, diagnostics, _⟩ =>
    diagnostics ++ Trivia.collectAll leading ++ Trivia.collectAll trailing

/-- Diagnostics in a run of trivia. -/
def Trivia.collectAll : List Trivia → List Diagnostic
  | [] => []
  | piece :: rest => piece.collect ++ Trivia.collectAll rest

/-- Diagnostics in one piece of trivia. -/
def Trivia.collect : Trivia → List Diagnostic
  | .invalid node => node.collect
  | .whitespace _ => []
  | .endOfLine _ => []
  | .comment _ => []
  | .documentation _ => []

/-- Diagnostics at a node, then those below it. -/
def Node.collect : Node → List Diagnostic
  | .leaf token => token.collect
  | .composite _ slots diagnostics => diagnostics ++ Node.collectSlots slots

/-- Diagnostics in a row of slots. -/
def Node.collectSlots : List (Option Node) → List Diagnostic
  | [] => []
  | none :: rest => Node.collectSlots rest
  | some node :: rest => node.collect ++ Node.collectSlots rest

end

/-- Order of diagnostics: by where they begin, then by where they end. -/
def Diagnostic.le (a b : Diagnostic) : Bool :=
  a.span.le b.span

theorem Diagnostic.le_trans {a b c : Diagnostic} (h : a.le b = true) (h' : b.le c = true) :
    a.le c = true :=
  Span.le_trans h h'

theorem Diagnostic.le_total (a b : Diagnostic) : (a.le b || b.le a) = true :=
  Span.le_total a.span b.span

/-- All diagnostics of a tree, ordered by span. -/
def Node.diagnostics (node : Node) : List Diagnostic :=
  node.collect.mergeSort Diagnostic.le

/-- Is anything wrong in the tree? -/
def Node.hasDiagnostics (node : Node) : Bool :=
  !node.diagnostics.isEmpty

theorem Node.diagnostics_perm (node : Node) : node.diagnostics.Perm node.collect :=
  List.mergeSort_perm _ _

theorem Node.diagnostics_pairwise (node : Node) :
    node.diagnostics.Pairwise (fun a b => a.le b = true) := by
  apply List.pairwise_mergeSort
  · intro a b c hab hbc
    exact Diagnostic.le_trans hab hbc
  · exact Diagnostic.le_total

end TolerantSyntax
