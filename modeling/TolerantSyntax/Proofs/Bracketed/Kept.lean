import Mathlib.Data.List.Perm.Subperm
import TolerantSyntax.Proofs.Parse.Bracketed.Lowering

/-!
# Nothing of a member is lost

Whatever grammar a member ends up in, the node that it becomes has the tokens of its pieces, with
all their trivia and in the order in which they were read, and every diagnostic of a piece is among
its own. This holds of members of any shape, and of any node that is read as a pattern
(`lowerings_keep`).
-/

namespace TolerantSyntax.Bracketed

/-- The node has the tokens of the pieces, and their diagnostics are among its own. -/
structure Keeps (pieces : Row) (node : Node) : Prop where
  tokens : node.tokens.map Token.unflagged = (Node.slotsTokens pieces).map Token.unflagged
  diagnostics : (Node.collectSlots pieces).Subperm node.diagnostics

theorem keeps_of_regroups {pieces : Row} {node : Node} (h : Row.Regroups pieces [some node]) :
    Keeps pieces node := by
  have htokens := h.tokens
  have hfindings := h.findings
  rw [Node.slotsTokens_some, Node.slotsTokens_nil, List.append_nil] at htokens
  rw [Node.collectSlots, Node.collectSlots, List.append_nil] at hfindings
  exact ⟨htokens, hfindings.subperm.trans node.diagnostics_perm.symm.subperm⟩

/-- Every grammar keeps the pieces of a member, and a tuple type that is read as a pattern keeps its
own. -/
theorem lowerings_keep :
    (∀ member : Member, Keeps member.row member.toType ∧ Keeps member.row member.toPattern ∧
      Keeps member.row member.toExpression) ∧
    ∀ node : Node, Keeps [some node] (patternOfTuple node) := by
  constructor
  · intro member
    exact ⟨keeps_of_regroups member.regroups_toType, keeps_of_regroups member.regroups_toPattern,
      keeps_of_regroups member.regroups_toExpression⟩
  · intro node
    exact keeps_of_regroups (regroups_patternOfTuple node)

end TolerantSyntax.Bracketed
