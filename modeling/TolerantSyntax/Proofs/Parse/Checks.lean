import TolerantSyntax.Grammar.Action
import TolerantSyntax.Grammar.Member
import TolerantSyntax.Proofs.Parse.Regroup

/-!
# What is flagged and what is set aside

What is out of order or misplaced stays where it is: an item or a qualifier is flagged, and what a
node does not take is set aside in front of it.
-/

namespace TolerantSyntax

open Row

/-! ## Order of items -/

namespace ItemOrder

theorem regroups_flag (order : ItemOrder) (afterLate afterLast : Bool) (items : List Node) :
    Regroups (items.map some) ((order.flag afterLate afterLast items).map some) := by
  induction items generalizing afterLate afterLast with
  | nil => exact .refl _
  | cons item rest ih =>
    simp only [flag]
    split
    · exact (ih afterLate afterLast).cons (some item)
    · refine @Regroups.append [some item] [some _] _ _ ?_ (ih _ _)
      split
      · exact .flag item _
      · exact .refl _

/-- The items of a list that are out of order are flagged. -/
theorem regroups_check (order : ItemOrder) (items : List Node) :
    Regroups [some (.list items)] [some (order.check (.list items))] := by
  rw [check, Node.children_list]
  refine (Regroups.ungroup (items.map some) (by decide)).trans ?_
  exact (order.regroups_flag false false items).trans (.group .list _ rfl)

/-- Items are flagged where they stand. -/
theorem becomes_check (order : ItemOrder) (items : List Node) :
    Becomes [some (.list items)] [some (order.check (.list items))] :=
  (order.regroups_check items).becomes

end ItemOrder

/-! ## Qualifiers -/

namespace Qualifiers

/-- Qualifiers are flagged where they stand. -/
theorem becomes_flag (allowed seen : List Kind) (qualifiers : List Node) :
    Becomes (qualifiers.map some) ((flag allowed seen qualifiers).map some) := by
  induction qualifiers generalizing seen with
  | nil => exact .refl _
  | cons qualifier rest ih =>
    refine @Becomes.append [some qualifier] [some _] _ _ ?_ (ih _)
    split
    · exact .flag qualifier _
    · split
      · exact .refl _
      · exact .flag qualifier _

/-- Qualifiers become a list, in which those that are repeated or not allowed are flagged. -/
theorem becomes_check (allowed : List Kind) (qualifiers : List Node) :
    Becomes (qualifiers.map some) [some (check allowed qualifiers)] :=
  (becomes_flag allowed [] qualifiers).trans (.group .list _ rfl)

theorem becomes_children_check (allowed : List Kind) (qualifiers : List Node) :
    Becomes (qualifiers.map some) ((check allowed qualifiers).children.map some) := by
  rw [check, Node.children_list]
  exact becomes_flag allowed [] qualifiers

end Qualifiers

/-! ## What a node does not take -/

theorem Node.HasToken.withLeadingInvalid {node : Node} (h : node.HasToken) (invalid : Node)
    (code : DiagnosticCode) : (node.withLeadingInvalid invalid code).HasToken :=
  (gains_withLeading h [invalid.setAside code]).toHasToken

/-- Qualifiers that a node does not take become trivia of its first token. -/
theorem Qualifiers.becomes_reject {node : Node} (h : node.HasToken) (qualifiers : List Node) :
    Becomes (qualifiers.map some ++ [some node]) [some (reject node qualifiers)] ∧
      (reject node qualifiers).HasToken := by
  induction qualifiers with
  | nil => exact ⟨.refl _, h⟩
  | cons qualifier rest ih =>
    obtain ⟨hb, ht⟩ := ih
    refine ⟨?_, ht.withLeadingInvalid qualifier _⟩
    exact (hb.cons (some qualifier)).trans (.setAside qualifier _ ht)

namespace ParseM

/-- So do annotations, if there are any. -/
theorem becomes_rejectAnnotations {node : Node} (h : node.HasToken) (annotations : Option Node) :
    Becomes [annotations, some node] [some (rejectAnnotations node annotations)] ∧
      (rejectAnnotations node annotations).HasToken := by
  cases annotations with
  | none => exact ⟨Becomes.skip.append_right [some node], h⟩
  | some annotations => exact ⟨.setAside annotations _ h, h.withLeadingInvalid annotations _⟩

/-- An action is flagged where it stands, or kept as it is. -/
theorem becomes_checkAction {action : Node} (h : action.HasToken) (flags : ExpressionFlags) :
    Becomes [some action] [some (checkAction action flags)] ∧
      (checkAction action flags).HasToken := by
  unfold checkAction
  split
  · exact ⟨.refl _, h⟩
  · exact ⟨.flag action _, Node.hasToken_withDiagnostic.mpr h⟩

end ParseM

end TolerantSyntax
