import Mathlib.Data.List.Perm.Basic
import TolerantSyntax.Proofs.Tree.Tokens
import TolerantSyntax.Tree.Findings

/-!
# The walks of a tree agree

A tree is walked in many ways: with a stack, by searches for the first and the last token, by
functions that add up text, widths and diagnostics. Each of them is said here in terms of the walk
with the stack, which visits the nodes in pre-order (`descendants_eq_preorder`): the tokens are its
leaves, the searches find their ends, the text is put together from theirs, and the diagnostics are
those of the nodes that are visited and of what is set aside at their tokens (`walks_agree`).
-/

namespace TolerantSyntax

/-! ## What is set aside at a token -/

/-- The node that a piece of trivia holds. -/
def Trivia.invalid? : Trivia → Option Node
  | .invalid node => some node
  | .whitespace _ => none
  | .endOfLine _ => none
  | .comment _ => none
  | .documentation _ => none

/-- The nodes that recovery has set aside at a token. -/
def Token.invalidNodes (token : Token) : List Node :=
  (token.leading ++ token.trailing).filterMap Trivia.invalid?

theorem Trivia.collectAll_eq_flatMap (pieces : List Trivia) :
    collectAll pieces = (pieces.filterMap invalid?).flatMap Node.collect := by
  induction pieces with
  | nil => rfl
  | cons piece rest ih =>
    rw [collectAll, ih]
    cases piece <;> rfl

/-- Trivia has diagnostics only in the nodes that are set aside. -/
theorem Token.collect_eq_flatMap (token : Token) :
    token.collect = token.diagnostics ++ token.invalidNodes.flatMap Node.collect := by
  rw [Token.collect_eq, List.append_assoc, ← Trivia.collectAll_append,
    Trivia.collectAll_eq_flatMap, Token.invalidNodes]

namespace Node

/-! ## Leaves in order -/

mutual

/-- The leaves of a node from left to right. -/
def frontier : Node → List Token
  | .leaf token => [token]
  | .composite _ slots _ => slotsFrontier slots

/-- The leaves of a row of slots from left to right. -/
def slotsFrontier : List (Option Node) → List Token
  | [] => []
  | none :: rest => slotsFrontier rest
  | some node :: rest => node.frontier ++ slotsFrontier rest

end

mutual

/-- By induction on the tree: the leaves of the preorder are those that the recursion finds. -/
theorem tokens_eq_frontier : (node : Node) → node.tokens = node.frontier
  | .leaf token => tokens_leaf token
  | .composite _ slots _ => by
    rw [tokens_composite, frontier, slotsTokens_eq_slotsFrontier slots]

theorem slotsTokens_eq_slotsFrontier : (slots : List (Option Node)) →
    slotsTokens slots = slotsFrontier slots
  | [] => rfl
  | none :: rest => by rw [slotsTokens_none, slotsFrontier, slotsTokens_eq_slotsFrontier rest]
  | some node :: rest => by
    rw [slotsTokens_some, slotsFrontier, tokens_eq_frontier node,
      slotsTokens_eq_slotsFrontier rest]

end

mutual

/-- The last of the tokens is the last token. -/
theorem getLast?_tokens : (node : Node) → node.tokens.getLast? = node.lastToken?
  | .leaf _ => by rw [tokens_leaf, lastToken?, List.getLast?_singleton]
  | .composite _ slots _ => by rw [tokens_composite, lastToken?, getLast?_slotsTokens slots]

theorem getLast?_slotsTokens : (slots : List (Option Node)) →
    (slotsTokens slots).getLast? = slotsLastToken? slots
  | [] => rfl
  | none :: rest => by rw [slotsTokens_none, slotsLastToken?, getLast?_slotsTokens rest]
  | some node :: rest => by
    rw [slotsTokens_some, slotsLastToken?, List.getLast?_append, getLast?_tokens node,
      getLast?_slotsTokens rest, Option.orElse_eq_orElse, Option.orElse_eq_or]

end

/-! ## Text -/

mutual

/-- The text of a node is that of its tokens with their trivia. -/
theorem source_eq_join : (node : Node) → node.source = String.join (node.tokens.map Token.source)
  | .leaf token => by
    rw [tokens_leaf, source, List.map_singleton, String.join_cons, String.join_nil,
      String.append_empty]
  | .composite _ slots _ => by rw [tokens_composite, source, slotsSource_eq_join slots]

theorem slotsSource_eq_join : (slots : List (Option Node)) →
    slotsSource slots = String.join ((slotsTokens slots).map Token.source)
  | [] => rfl
  | none :: rest => by rw [slotsTokens_none, slotsSource, slotsSource_eq_join rest]
  | some node :: rest => by
    rw [slotsTokens_some, slotsSource, List.map_append, String.join_append, source_eq_join node,
      slotsSource_eq_join rest]

end

/-! ## Diagnostics -/

mutual

/-- What is collected is said of the nodes that are visited, or of what is set aside at a token. -/
theorem collect_perm_visited : (node : Node) →
    node.collect.Perm (node.preorder.flatMap ownDiagnostics ++
      (node.tokens.flatMap Token.invalidNodes).flatMap collect)
  | .leaf token => by
    rw [collect, Token.collect_eq_flatMap, preorder, tokens_leaf, List.flatMap_singleton,
      List.flatMap_singleton, ownDiagnostics]
  | .composite kind slots diagnostics => by
    rw [collect, preorder, tokens_composite, List.flatMap_cons, ownDiagnostics, List.append_assoc]
    exact (collectSlots_perm_visited slots).append_left diagnostics

/-- By induction on the slots: a walk that visits the nodes first and what is set aside afterwards
collects the same diagnostics in another order. -/
theorem collectSlots_perm_visited : (slots : List (Option Node)) →
    (collectSlots slots).Perm ((slotsPreorder slots).flatMap ownDiagnostics ++
      ((slotsTokens slots).flatMap Token.invalidNodes).flatMap collect)
  | [] => .refl _
  | none :: rest => by
    rw [collectSlots, slotsPreorder, slotsTokens_none]
    exact collectSlots_perm_visited rest
  | some node :: rest => by
    rw [collectSlots, slotsPreorder, slotsTokens_some]
    simp only [List.flatMap_append, List.append_assoc]
    -- what is set aside at the tokens of the node changes places with what is said of the rest
    refine ((collect_perm_visited node).append (collectSlots_perm_visited rest)).trans ?_
    simp only [List.append_assoc]
    exact .append_left _ (List.perm_append_comm_assoc ..)

end

/-- The diagnostics of a tree are those of the nodes that a walk visits, and the diagnostics of all
that is set aside at the tokens that it meets. -/
theorem diagnostics_perm_visited (node : Node) :
    node.diagnostics.Perm (node.descendants.flatMap ownDiagnostics ++
      (node.tokens.flatMap Token.invalidNodes).flatMap diagnostics) := by
  rw [descendants_eq_preorder]
  refine (node.diagnostics_perm.trans (collect_perm_visited node)).trans (.append_left _ ?_)
  exact .flatMap_left _ fun invalid _ => invalid.diagnostics_perm.symm

/-- Diagnostics are listed by where their spans begin, and then by where they end. -/
theorem diagnostics_sorted (node : Node) :
    node.diagnostics.Pairwise fun a b =>
      a.span.start < b.span.start ∨ a.span.start = b.span.start ∧ a.span.stop ≤ b.span.stop := by
  refine node.diagnostics_pairwise.imp fun {a b} hle => ?_
  simpa [Diagnostic.le, Span.le] using hle

/-! ## All walks -/

/-- **The walks of a tree agree.** The walk with a stack visits the nodes in pre-order. The tokens
are the leaves from left to right, and the first and the last token are the ends of their row, if it
has any. The source is what their full texts come to, and the width counts its bytes. The
diagnostics are those of the nodes that are visited and, in the same way, of what is set aside at
the tokens, in the order of their spans. -/
theorem walks_agree (node : Node) :
    node.descendants = node.preorder ∧
    node.tokens = node.frontier ∧
    (node.firstToken? = node.tokens.head? ∧ node.lastToken? = node.tokens.getLast?) ∧
    ((node.firstToken? = none ↔ node.tokens = []) ∧ (node.lastToken? = none ↔ node.tokens = [])) ∧
    node.source = String.join (node.tokens.map Token.source) ∧
    node.fullWidth = node.source.utf8ByteSize ∧
    node.diagnostics.Perm (node.descendants.flatMap ownDiagnostics ++
      (node.tokens.flatMap Token.invalidNodes).flatMap diagnostics) ∧
    node.diagnostics.Pairwise fun a b =>
      a.span.start < b.span.start ∨ a.span.start = b.span.start ∧ a.span.stop ≤ b.span.stop := by
  have hfirst := head?_tokens node
  have hlast := getLast?_tokens node
  refine ⟨node.descendants_eq_preorder, node.tokens_eq_frontier, ⟨hfirst.symm, hlast.symm⟩,
    ⟨?_, ?_⟩, node.source_eq_join, node.fullWidth_eq_utf8ByteSize, node.diagnostics_perm_visited,
    node.diagnostics_sorted⟩
  · rw [← hfirst, List.head?_eq_none_iff]
  · rw [← hlast, List.getLast?_eq_none_iff]

end Node

end TolerantSyntax
