import TolerantSyntax.Grammar.Bracketed.Member
import TolerantSyntax.Proofs.Tree.Everywhere

/-!
# Members of bracketed lists

A tuple type, a list binding pattern and a list constructor look alike up to their first telling
member, so members that were read for one of them can end up in another. A member suits the grammar
of its list if its kind does or if it is flagged. A tree is seated if all members of all such lists
suit their lists, or are commas.

Whether members suit their list can be told from a sketch of it, so edits of a tree keep it seated.
-/

namespace TolerantSyntax

/-! ## Suitable members -/

/-- The grammar that the members of a bracketed list have to suit. -/
def Kind.memberGrammar? : Kind → Option Bracketed.Grammar
  | .tupleTypeDescriptor => some .type
  | .listBindingPattern => some .pattern
  | .listConstructor => some .expression
  | _ => none

namespace Bracketed.Grammar

/-- What is reported of a member that a grammar does not have. -/
def invalidCode : Grammar → DiagnosticCode
  | .type => .invalidTypeDescriptor
  | .pattern => .invalidBindingPattern
  | .expression => .invalidExpression

/-- Can a member of this kind be read in the grammar? Names can be read as types and as
expressions. -/
def allows (grammar : Grammar) (kind : Kind) : Bool :=
  match grammar with
  | .type => kind.isTypeDescriptor
  | .pattern => kind.isBindingPattern
  | .expression =>
    !kind.isBindingPattern &&
      (!kind.isTypeDescriptor || kind == .simpleNameReference || kind == .qualifiedNameReference)

/-- Is a node of this kind one member of a list in the grammar? -/
def seats (grammar : Grammar) (kind : Kind) : Bool :=
  grammar.allows kind && kind != .list

/-- The node is a member that the grammar has, or it is flagged as one that it has not. -/
structure Suits (grammar : Grammar) (node : Node) : Prop where
  interior : node.isToken = false
  single : node.kind ≠ .list
  allowed : grammar.allows node.kind = true ∨
    grammar.invalidCode ∈ node.ownDiagnostics.map Diagnostic.code

variable {grammar : Grammar} {kind : Kind} {slots : List (Option Node)}

theorem suits_composite {diagnostics : List Diagnostic} (h : grammar.seats kind = true) :
    grammar.Suits (.composite kind slots diagnostics) := by
  obtain ⟨hallows, hlist⟩ := Bool.and_eq_true_iff.mp h
  exact ⟨rfl, bne_iff_ne.mp hlist, .inl hallows⟩

theorem suits_ofSlots (h : grammar.seats kind = true) : grammar.Suits (.ofSlots kind slots) :=
  suits_composite h

/-- A node that is flagged suits the grammar that it is flagged in. -/
theorem suits_invalid {node : Node} (hi : node.isToken = false) (hl : node.kind ≠ .list) :
    grammar.Suits (node.withDiagnostic grammar.invalidCode) := by
  cases node with
  | leaf token => cases hi
  | composite kind slots diagnostics =>
    exact ⟨rfl, hl, .inr (by simp [Node.withDiagnostic, Node.ownDiagnostics])⟩

theorem Suits.withDiagnostic {node : Node} (h : grammar.Suits node) (code : DiagnosticCode) :
    grammar.Suits (node.withDiagnostic code) := by
  cases node with
  | leaf token => exact absurd h.interior Bool.noConfusion
  | composite kind slots diagnostics =>
    refine ⟨rfl, h.single, h.allowed.imp_right fun hm => ?_⟩
    simp only [Node.ownDiagnostics] at hm
    simp [Node.withDiagnostic, Node.ownDiagnostics, hm]

end Bracketed.Grammar

open Bracketed (Grammar)

/-! ## Seated trees -/

/-- A member of a list, or a comma between members. -/
def Bracketed.Grammar.Joins (grammar : Grammar) (node : Node) : Prop :=
  node.kind = .comma ∨ grammar.Suits node

namespace Node

/-- If the node is a bracketed list, its members stand in its second slot and suit it. -/
def SeatsMembers (node : Node) : Prop :=
  ∀ grammar ∈ node.kind.memberGrammar?, node.isToken = false →
    ∃ list, node.slot? 1 = some list ∧ list.kind = .list ∧
      ∀ member ∈ list.children, grammar.Joins member

/-- Members suit their lists in all parts of the tree. -/
def Seated (node : Node) : Prop :=
  ∀ part : Node, part.PartOf node → part.SeatsMembers

variable {kind : Kind} {slots : List (Option Node)} {diagnostics : List Diagnostic}

/-! ## What seating sees -/

theorem joins_of_label_eq {grammar : Grammar} {a b : Node} (h : a.label = b.label)
    (hj : grammar.Joins a) : grammar.Joins b := by
  simp only [label, Label.mk.injEq] at h
  obtain ⟨hkind, htoken, hcodes⟩ := h
  refine hj.imp (fun hc => hkind ▸ hc) fun hs => ⟨htoken ▸ hs.interior, hkind ▸ hs.single, ?_⟩
  rw [← hkind, ← hcodes]
  exact hs.allowed

/-- Whether members suit their list follows from what is seen of the slots. -/
theorem SeatsMembers.congr {slots' : List (Option Node)} {diagnostics' : List Diagnostic}
    (h : sketches slots' = sketches slots)
    (hs : (composite kind slots diagnostics).SeatsMembers) :
    (composite kind slots' diagnostics').SeatsMembers := by
  intro grammar hg hi
  obtain ⟨list, hl, hlist, hmembers⟩ := hs grammar hg hi
  obtain ⟨other, hslot, heq⟩ := exists_slot_of_sketches h (Option.join_eq_some_iff.mp hl)
  have hkind : other.kind = list.kind := congrArg (fun s => s.1.kind) heq
  refine ⟨other, Option.join_eq_some_iff.mpr hslot, hkind.trans hlist, fun member hm => ?_⟩
  -- the member has the label of one of the list that was there before
  have hlabel : member.label ∈ list.children.map label := by
    rw [← labels_children heq]
    exact List.mem_map_of_mem hm
  obtain ⟨before, hb, hlabel⟩ := List.mem_map.mp hlabel
  exact joins_of_label_eq hlabel (hmembers before hb)

instance : Sketched SeatsMembers where
  leaf _ _ _ hinterior := nomatch hinterior
  congr h hs := hs.congr h

end Node

end TolerantSyntax
