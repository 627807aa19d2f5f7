import TolerantSyntax.Tree.Basic

/-!
# Walking a tree

A node's descendants in source order, its tokens, its first and last token and the span between
them. Trivia is not entered: text that was set aside is no part of the walk.

`Node.preorder` says what the order is, by recursion on the tree. `Node.descendants` visits the same
nodes in that order with a stack (`descendants_eq_preorder`).

## Termination

`visit` replaces the top of the stack by its children, so the number of nodes under the stack goes
down by one.
-/

namespace TolerantSyntax.Node

/-! ## Size and pre-order -/

mutual

/-- Number of nodes of a tree, trivia not counted. -/
def size : Node → Nat
  | .leaf _ => 1
  | .composite _ slots _ => slotsSize slots + 1

/-- Number of nodes in a row of slots. -/
def slotsSize : List (Option Node) → Nat
  | [] => 0
  | none :: rest => slotsSize rest
  | some node :: rest => node.size + slotsSize rest

end

mutual

/-- A node, then what is below it from left to right. -/
def preorder : Node → List Node
  | .leaf token => [.leaf token]
  | .composite kind slots diagnostics => .composite kind slots diagnostics :: slotsPreorder slots

/-- The nodes of a row of slots from left to right. -/
def slotsPreorder : List (Option Node) → List Node
  | [] => []
  | none :: rest => slotsPreorder rest
  | some node :: rest => node.preorder ++ slotsPreorder rest

end

/-- Number of nodes under a stack. -/
def stackSize (stack : List Node) : Nat :=
  stack.foldr (fun node size => node.size + size) 0

theorem stackSize_filterMap_id (slots : List (Option Node)) :
    stackSize (slots.filterMap id) = slotsSize slots := by
  induction slots with
  | nil => simp [stackSize, slotsSize]
  | cons slot rest ih =>
    cases slot with
    | none => simpa [slotsSize] using ih
    | some node => simpa [stackSize, slotsSize] using ih

theorem stackSize_children (node : Node) : stackSize node.children + 1 = node.size := by
  cases node with
  | leaf token => simp [children, slots, stackSize, size]
  | composite kind slots diagnostics =>
    rw [children, Node.slots, stackSize_filterMap_id, size]

@[simp] theorem stackSize_append (xs ys : List Node) :
    stackSize (xs ++ ys) = stackSize xs + stackSize ys := by
  induction xs with
  | nil => simp [stackSize]
  | cons node rest ih =>
    simp only [stackSize, List.cons_append, List.foldr_cons] at ih ⊢
    rw [ih, Nat.add_assoc]

/-! ## Descendants -/

/-- Visits the nodes under a stack whose top is its head. -/
def visit : List Node → List Node
  | [] => []
  | node :: stack => node :: visit (node.children ++ stack)
termination_by stack => stackSize stack
decreasing_by
  have h := stackSize_children node
  have hs : stackSize (node :: stack) = node.size + stackSize stack := by simp [stackSize]
  rw [stackSize_append, hs]
  omega

/-- A node and all nodes below it, each before what is below it. -/
def descendants (node : Node) : List Node :=
  visit [node]

theorem preorder_eq (node : Node) : node.preorder = node :: slotsPreorder node.slots := by
  cases node <;> simp [preorder, slots, slotsPreorder]

theorem flatMap_preorder_filterMap_id (slots : List (Option Node)) :
    (slots.filterMap id).flatMap preorder = slotsPreorder slots := by
  induction slots with
  | nil => simp [slotsPreorder]
  | cons slot rest ih => cases slot <;> simpa [slotsPreorder] using ih

/-- By induction on what the stack holds: a node is replaced by its children in their order. -/
theorem visit_eq_flatMap (stack : List Node) : visit stack = stack.flatMap preorder := by
  fun_induction visit stack with
  | case1 => rfl
  | case2 node stack ih =>
    rw [ih, List.flatMap_append, List.flatMap_cons, preorder_eq node, children,
      flatMap_preorder_filterMap_id]
    rfl

/-- **The walk with a stack visits the nodes in preorder.** -/
theorem descendants_eq_preorder (node : Node) : node.descendants = node.preorder := by
  simp [descendants, visit_eq_flatMap]

/-- The first node of a kind, the node itself included. -/
def find? (node : Node) (kind : Kind) : Option Node :=
  node.descendants.find? (·.kind == kind)

/-- Every node of a kind, the node itself included. -/
def findAll (node : Node) (kind : Kind) : List Node :=
  node.descendants.filter (·.kind == kind)

/-! ## Tokens -/

/-- The tokens of a node in source order. -/
def tokens (node : Node) : List Token :=
  node.descendants.filterMap token?

mutual

/-- The first token, be it in the source or not. -/
def firstToken? : Node → Option Token
  | .leaf token => some token
  | .composite _ slots _ => slotsFirstToken? slots

/-- The first token of a row of slots. -/
def slotsFirstToken? : List (Option Node) → Option Token
  | [] => none
  | none :: rest => slotsFirstToken? rest
  | some node :: rest => node.firstToken? <|> slotsFirstToken? rest

end

mutual

/-- The last token, be it in the source or not. -/
def lastToken? : Node → Option Token
  | .leaf token => some token
  | .composite _ slots _ => slotsLastToken? slots

/-- The last token of a row of slots. -/
def slotsLastToken? : List (Option Node) → Option Token
  | [] => none
  | none :: rest => slotsLastToken? rest
  | some node :: rest => slotsLastToken? rest <|> node.lastToken?

end

/-- The text of a node without the trivia around it; a node without tokens has the empty span at
the start of the source. -/
def span (node : Node) : Span :=
  match node.firstToken?, node.lastToken? with
  | some first, some last => first.span.cover last.span
  | _, _ => .empty 0

/-- Has recovery put in every token of the node? -/
def isMissing (node : Node) : Bool :=
  node.tokens.all (·.missing)

end TolerantSyntax.Node
