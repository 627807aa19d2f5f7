import TolerantSyntax.Proofs.Lexer.Trivia
import TolerantSyntax.Tree.Edit
import TolerantSyntax.Tree.Source

/-!
# Everything in a tree

The walk of a tree does not enter trivia, but what recovery has set aside is there: a tree that
keeps its source keeps it in part as nodes inside invalid trivia. Here are the leaves of a tree with
those of its invalid trivia at their place, and whether a kind of node stands anywhere in it.
-/

namespace TolerantSyntax

/-! ## Leaves -/

mutual

/-- A token among the leaves of its trivia. -/
def Token.leaves : Token → List Token
  | ⟨kind, text, span, leading, trailing, diagnostics, missing⟩ =>
    Trivia.leavesAll leading ++ ⟨kind, text, span, leading, trailing, diagnostics, missing⟩ ::
      Trivia.leavesAll trailing

/-- The leaves in a run of trivia. -/
def Trivia.leavesAll : List Trivia → List Token
  | [] => []
  | piece :: rest => piece.leaves ++ Trivia.leavesAll rest

/-- The leaves in one piece of trivia. -/
def Trivia.leaves : Trivia → List Token
  | .invalid node => node.leaves
  | .whitespace _ => []
  | .endOfLine _ => []
  | .comment _ => []
  | .documentation _ => []

/-- All leaves of a node in source order, those of invalid trivia at their place. -/
def Node.leaves : Node → List Token
  | .leaf token => token.leaves
  | .composite _ slots _ => Node.slotsLeaves slots

/-- The leaves in a row of slots. -/
def Node.slotsLeaves : List (Option Node) → List Token
  | [] => []
  | none :: rest => Node.slotsLeaves rest
  | some node :: rest => node.leaves ++ Node.slotsLeaves rest

end

/-- The leaves of a token are those set aside before it, itself, and those behind. -/
theorem Token.leaves_eq (token : Token) :
    token.leaves = Trivia.leavesAll token.leading ++ token :: Trivia.leavesAll token.trailing := by
  cases token
  rw [Token.leaves]

@[simp] theorem Trivia.leavesAll_append (xs ys : List Trivia) :
    leavesAll (xs ++ ys) = leavesAll xs ++ leavesAll ys := by
  induction xs with
  | nil => rfl
  | cons x xs ih => rw [List.cons_append, leavesAll, leavesAll, ih, List.append_assoc]

@[simp] theorem Node.slotsLeaves_append (xs ys : List (Option Node)) :
    slotsLeaves (xs ++ ys) = slotsLeaves xs ++ slotsLeaves ys := by
  induction xs with
  | nil => rfl
  | cons x xs ih =>
    cases x with
    | none => rw [List.cons_append, slotsLeaves, slotsLeaves, ih]
    | some node => rw [List.cons_append, slotsLeaves, slotsLeaves, ih, List.append_assoc]

/-! ## Kinds of interior nodes -/

mutual

/-- Does an interior node of this kind stand in the trivia of a token? -/
def Token.contains (kind : Kind) : Token → Bool
  | ⟨_, _, _, leading, trailing, _, _⟩ =>
    Trivia.anyContains kind leading || Trivia.anyContains kind trailing

/-- Does an interior node of this kind stand in a run of trivia? -/
def Trivia.anyContains (kind : Kind) : List Trivia → Bool
  | [] => false
  | piece :: rest => piece.contains kind || Trivia.anyContains kind rest

/-- Does an interior node of this kind stand in a piece of trivia? -/
def Trivia.contains (kind : Kind) : Trivia → Bool
  | .invalid node => node.contains kind
  | .whitespace _ => false
  | .endOfLine _ => false
  | .comment _ => false
  | .documentation _ => false

/-- Does an interior node of this kind stand anywhere in the tree, invalid trivia included? -/
def Node.contains (kind : Kind) : Node → Bool
  | .leaf token => token.contains kind
  | .composite own slots _ => own == kind || Node.slotsContain kind slots

/-- Does an interior node of this kind stand in a row of slots? -/
def Node.slotsContain (kind : Kind) : List (Option Node) → Bool
  | [] => false
  | none :: rest => Node.slotsContain kind rest
  | some node :: rest => node.contains kind || Node.slotsContain kind rest

end

theorem Token.contains_eq (kind : Kind) (token : Token) :
    token.contains kind =
      (Trivia.anyContains kind token.leading || Trivia.anyContains kind token.trailing) := by
  cases token
  rw [Token.contains]

@[simp] theorem Trivia.anyContains_append (kind : Kind) (xs ys : List Trivia) :
    anyContains kind (xs ++ ys) = (anyContains kind xs || anyContains kind ys) := by
  induction xs with
  | nil => simp [anyContains]
  | cons x xs ih => rw [List.cons_append, anyContains, anyContains, ih, Bool.or_assoc]

@[simp] theorem Node.slotsContain_append (kind : Kind) (xs ys : List (Option Node)) :
    slotsContain kind (xs ++ ys) = (slotsContain kind xs || slotsContain kind ys) := by
  induction xs with
  | nil => simp [slotsContain]
  | cons x xs ih =>
    cases x with
    | none => rw [List.cons_append, slotsContain, slotsContain, ih]
    | some node => rw [List.cons_append, slotsContain, slotsContain, ih, Bool.or_assoc]

/-! ## Diagnostics -/

theorem Token.collect_eq (token : Token) :
    token.collect = token.diagnostics ++ Trivia.collectAll token.leading ++
      Trivia.collectAll token.trailing := by
  cases token
  rw [Token.collect]

@[simp] theorem Trivia.collectAll_append (xs ys : List Trivia) :
    collectAll (xs ++ ys) = collectAll xs ++ collectAll ys := by
  induction xs with
  | nil => rfl
  | cons x xs ih => rw [List.cons_append, collectAll, collectAll, ih, List.append_assoc]

/-- Text between tokens has nothing to say. -/
theorem Trivia.collectAll_of_isPlain {pieces : List Trivia}
    (h : ∀ piece ∈ pieces, piece.IsPlain) : collectAll pieces = [] := by
  induction pieces with
  | nil => rfl
  | cons piece rest ih =>
    obtain ⟨hpiece, hrest⟩ := List.forall_mem_cons.mp h
    have hnone : piece.collect = [] := by
      cases piece with
      | invalid node => exact hpiece.elim
      | _ => rfl
    rw [collectAll, hnone, ih hrest, List.append_nil]

@[simp] theorem Node.collectSlots_append (xs ys : List (Option Node)) :
    collectSlots (xs ++ ys) = collectSlots xs ++ collectSlots ys := by
  induction xs with
  | nil => rfl
  | cons x xs ih =>
    cases x with
    | none => rw [List.cons_append, collectSlots, collectSlots, ih]
    | some node => rw [List.cons_append, collectSlots, collectSlots, ih, List.append_assoc]

/-! ## Nodes with a token -/

/-- The node has a token, be it in the source or put in. -/
def Node.HasToken (node : Node) : Prop :=
  node.firstToken?.isSome

namespace Node

theorem hasToken_leaf (token : Token) : (leaf token).HasToken := rfl

@[simp] theorem slotsFirstToken?_append (xs ys : List (Option Node)) :
    slotsFirstToken? (xs ++ ys) = (slotsFirstToken? xs).or (slotsFirstToken? ys) := by
  induction xs with
  | nil => rfl
  | cons x xs ih =>
    cases x with
    | none => exact ih
    | some node =>
      simp only [List.cons_append, slotsFirstToken?, ih, Option.orElse_eq_orElse,
        Option.orElse_eq_or, Option.or_assoc]

/-- A row has a first token if one of its nodes has a token. -/
theorem isSome_slotsFirstToken? {slots : List (Option Node)} {node : Node}
    (hm : some node ∈ slots) (ht : node.HasToken) : (slotsFirstToken? slots).isSome := by
  induction slots with
  | nil => simp at hm
  | cons slot rest ih =>
    cases slot with
    | none => exact ih (by simpa using hm)
    | some first =>
      rw [slotsFirstToken?, Option.orElse_eq_orElse, Option.orElse_eq_or, Option.isSome_or]
      rcases List.mem_cons.mp hm with h | h
      · rw [Option.some.injEq] at h
        rw [← h, show node.firstToken?.isSome = true from ht, Bool.true_or]
      · rw [ih h, Bool.or_true]

/-- A node has a token if one of its parts has. -/
theorem hasToken_composite {kind : Kind} {slots : List (Option Node)}
    {diagnostics : List Diagnostic} {node : Node} (hm : some node ∈ slots) (ht : node.HasToken) :
    (composite kind slots diagnostics).HasToken :=
  isSome_slotsFirstToken? hm ht

theorem hasToken_withDiagnostic {node : Node} {code : DiagnosticCode} :
    (node.withDiagnostic code).HasToken ↔ node.HasToken := by
  cases node with
  | leaf token => exact Iff.rfl
  | composite kind slots diagnostics => exact Iff.rfl

mutual

/-- The first token is a leaf; trivia may hold leaves before it. -/
theorem mem_leaves_of_firstToken? {token : Token} : (node : Node) →
    node.firstToken? = some token → token ∈ node.leaves
  | .leaf own, h => by
    rw [firstToken?, Option.some.injEq] at h
    simp [leaves, Token.leaves_eq, h]
  | .composite _ slots _, h => mem_slotsLeaves_of_slotsFirstToken? slots h

theorem mem_slotsLeaves_of_slotsFirstToken? {token : Token} : (slots : List (Option Node)) →
    slotsFirstToken? slots = some token → token ∈ slotsLeaves slots
  | [], h => by simp [slotsFirstToken?] at h
  | none :: rest, h => mem_slotsLeaves_of_slotsFirstToken? rest h
  | some node :: rest, h => by
    rw [slotsFirstToken?, Option.orElse_eq_orElse, Option.orElse_eq_or, Option.or_eq_some_iff] at h
    rw [slotsLeaves, List.mem_append]
    rcases h with h | h
    · exact Or.inl (mem_leaves_of_firstToken? node h)
    · exact Or.inr (mem_slotsLeaves_of_slotsFirstToken? rest h.2)

end

mutual

theorem mem_leaves_of_lastToken? {token : Token} : (node : Node) →
    node.lastToken? = some token → token ∈ node.leaves
  | .leaf own, h => by
    rw [lastToken?, Option.some.injEq] at h
    simp [leaves, Token.leaves_eq, h]
  | .composite _ slots _, h => mem_slotsLeaves_of_slotsLastToken? slots h

theorem mem_slotsLeaves_of_slotsLastToken? {token : Token} : (slots : List (Option Node)) →
    slotsLastToken? slots = some token → token ∈ slotsLeaves slots
  | [], h => by simp [slotsLastToken?] at h
  | none :: rest, h => mem_slotsLeaves_of_slotsLastToken? rest h
  | some node :: rest, h => by
    rw [slotsLastToken?, Option.orElse_eq_orElse, Option.orElse_eq_or, Option.or_eq_some_iff] at h
    rw [slotsLeaves, List.mem_append]
    rcases h with h | h
    · exact Or.inr (mem_slotsLeaves_of_slotsLastToken? rest h)
    · exact Or.inl (mem_leaves_of_lastToken? node h.2)

end

/-! ## Rows without tokens -/

mutual

/-- A node without tokens has no text, for trivia stands at tokens only. -/
theorem leaves_of_firstToken?_eq_none : (node : Node) → node.firstToken? = none →
    node.source = "" ∧ node.leaves = []
  | .leaf _, h => by simp [firstToken?] at h
  | .composite _ slots _, h => by
    rw [Node.source, leaves]
    exact leaves_of_slotsFirstToken?_eq_none slots h

theorem leaves_of_slotsFirstToken?_eq_none : (slots : List (Option Node)) →
    slotsFirstToken? slots = none → slotsSource slots = "" ∧ slotsLeaves slots = []
  | [], _ => ⟨rfl, rfl⟩
  | none :: rest, h => leaves_of_slotsFirstToken?_eq_none rest h
  | some node :: rest, h => by
    rw [slotsFirstToken?, Option.orElse_eq_orElse, Option.orElse_eq_or, Option.or_eq_none_iff] at h
    obtain ⟨hs, hl⟩ := leaves_of_firstToken?_eq_none node h.1
    obtain ⟨hs', hl'⟩ := leaves_of_slotsFirstToken?_eq_none rest h.2
    exact ⟨by rw [slotsSource, hs, hs', String.append_empty], by rw [slotsLeaves, hl, hl']; rfl⟩

end

end Node

end TolerantSyntax
