import TolerantSyntax.Proofs.Tree.Leaves

/-!
# Tokens of a tree

The tokens of a node are those of its slots from left to right, and its first token is the first of
them. Trivia is not entered.
-/

namespace TolerantSyntax.Node

/-- The tokens of a row of slots. -/
def slotsTokens (slots : List (Option Node)) : List Token :=
  (slotsPreorder slots).filterMap token?

/-- The tokens of a node are the leaves of its preorder. -/
theorem tokens_eq (node : Node) : node.tokens = node.preorder.filterMap token? := by
  rw [tokens, descendants_eq_preorder]

@[simp] theorem tokens_leaf (token : Token) : (leaf token).tokens = [token] := by
  simp [tokens_eq, preorder, token?]

@[simp] theorem tokens_composite (kind : Kind) (slots : List (Option Node))
    (diagnostics : List Diagnostic) :
    (composite kind slots diagnostics).tokens = slotsTokens slots := by
  rw [tokens_eq, preorder, List.filterMap_cons_none rfl, slotsTokens]

@[simp] theorem slotsTokens_nil : slotsTokens [] = [] := rfl

@[simp] theorem slotsTokens_none (rest : List (Option Node)) :
    slotsTokens (none :: rest) = slotsTokens rest := by
  simp [slotsTokens, slotsPreorder]

@[simp] theorem slotsTokens_some (node : Node) (rest : List (Option Node)) :
    slotsTokens (some node :: rest) = node.tokens ++ slotsTokens rest := by
  simp [slotsTokens, slotsPreorder, tokens_eq]

@[simp] theorem slotsTokens_append (xs ys : List (Option Node)) :
    slotsTokens (xs ++ ys) = slotsTokens xs ++ slotsTokens ys := by
  induction xs with
  | nil => rfl
  | cons slot rest ih => cases slot <;> simp [ih]

mutual

/-- The first of the tokens is the first token. -/
theorem head?_tokens : (node : Node) → node.tokens.head? = node.firstToken?
  | .leaf _ => by rw [tokens_leaf, firstToken?, List.head?_cons]
  | .composite _ slots _ => by rw [tokens_composite, firstToken?, head?_slotsTokens slots]

theorem head?_slotsTokens : (slots : List (Option Node)) →
    (slotsTokens slots).head? = slotsFirstToken? slots
  | [] => rfl
  | none :: rest => by rw [slotsTokens_none, slotsFirstToken?, head?_slotsTokens rest]
  | some node :: rest => by
    rw [slotsTokens_some, slotsFirstToken?, List.head?_append, head?_tokens node,
      head?_slotsTokens rest, Option.orElse_eq_orElse, Option.orElse_eq_or]

end

/-- A node has a token unless the list of them is empty. -/
theorem hasToken_iff {node : Node} : node.HasToken ↔ node.tokens ≠ [] := by
  rw [HasToken, ← head?_tokens, List.isSome_head?]

end TolerantSyntax.Node
