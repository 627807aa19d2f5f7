import TolerantSyntax.Grammar.Order
import TolerantSyntax.Proofs.Tree.Edit

/-!
# Trees without their layout

What is left of a tree when one forgets where its tokens stand: the spans, and the trivia that the
source has between tokens. Nodes that were set aside stay, since they are no layout.

Trees that are the same without layout are isomorphic and have the same diagnostic codes
(`Node.isIsomorphic_of_bare_eq`, `Node.codes_of_bare_eq`). Each edit of a tree is the same edit of
the tree without layout, so it cannot tell such trees apart.
-/

namespace TolerantSyntax

/-! ## Leaving the layout out -/

/-- A diagnostic without its place. -/
def Diagnostic.bare (diagnostic : Diagnostic) : Diagnostic :=
  ⟨diagnostic.code, .empty 0⟩

mutual

/-- A token without its place, and without trivia but for what was set aside. -/
def Token.bare : Token → Token
  | ⟨kind, text, _, leading, trailing, diagnostics, missing⟩ =>
    ⟨kind, text, .empty 0, Trivia.bareAll leading, Trivia.bareAll trailing,
      diagnostics.map Diagnostic.bare, missing⟩

/-- What was set aside in a run of trivia. -/
def Trivia.bareAll : List Trivia → List Trivia
  | [] => []
  | piece :: rest => piece.bare ++ Trivia.bareAll rest

/-- What was set aside in a piece of trivia. -/
def Trivia.bare : Trivia → List Trivia
  | .invalid node => [.invalid node.bare]
  | .whitespace _ => []
  | .endOfLine _ => []
  | .comment _ => []
  | .documentation _ => []

/-- A node without its layout. -/
def Node.bare : Node → Node
  | .leaf token => .leaf token.bare
  | .composite kind slots diagnostics =>
    .composite kind (Node.bareSlots slots) (diagnostics.map Diagnostic.bare)

/-- A row of slots without layout. -/
def Node.bareSlots : List (Option Node) → List (Option Node)
  | [] => []
  | none :: rest => none :: Node.bareSlots rest
  | some node :: rest => some node.bare :: Node.bareSlots rest

end

@[simp] theorem Diagnostic.code_bare (diagnostic : Diagnostic) :
    diagnostic.bare.code = diagnostic.code := rfl

@[simp] theorem Diagnostic.bare_bare (diagnostic : Diagnostic) :
    diagnostic.bare.bare = diagnostic.bare := rfl

/-- Without their spans, diagnostics are the same if their codes are. -/
theorem Diagnostic.map_bare_eq_iff {xs ys : List Diagnostic} :
    xs.map bare = ys.map bare ↔ xs.map code = ys.map code := by
  constructor
  · intro h
    have hcode := congrArg (List.map code) h
    rw [List.map_map, List.map_map] at hcode
    exact hcode
  · intro h
    have hbare (ds : List Diagnostic) : ds.map bare = (ds.map code).map (⟨·, .empty 0⟩) := by
      rw [List.map_map]
      rfl
    rw [hbare, hbare, h]

namespace Token

theorem bare_eq (token : Token) :
    token.bare =
      ⟨token.kind, token.text, .empty 0, Trivia.bareAll token.leading,
        Trivia.bareAll token.trailing, token.diagnostics.map Diagnostic.bare, token.missing⟩ := by
  cases token
  rfl

@[simp] theorem kind_bare (token : Token) : token.bare.kind = token.kind := by
  rw [bare_eq]

@[simp] theorem missing_bare (token : Token) : token.bare.missing = token.missing := by
  rw [bare_eq]

end Token

@[simp] theorem Trivia.bareAll_append (xs ys : List Trivia) :
    bareAll (xs ++ ys) = bareAll xs ++ bareAll ys := by
  induction xs with
  | nil => rfl
  | cons piece rest ih => simp [bareAll, ih]

/-- Nothing is left of the trivia that the source has. -/
theorem Trivia.bareAll_of_isPlain {pieces : List Trivia}
    (h : ∀ piece ∈ pieces, piece.IsPlain) : bareAll pieces = [] := by
  induction pieces with
  | nil => rfl
  | cons piece rest ih =>
    have hpiece := h piece (List.mem_cons_self ..)
    rw [bareAll, ih fun p hp => h p (List.mem_cons_of_mem _ hp), List.append_nil]
    cases piece with
    | invalid node => exact hpiece.elim
    | _ => rfl

/-! ## Twice is once -/

mutual

/-- By induction on the tree, what is set aside included: leaving the layout out twice changes no
more than once. -/
theorem Token.bare_bare : (token : Token) → token.bare.bare = token.bare
  | ⟨_, _, _, leading, trailing, _, _⟩ => by
    simp [Token.bare, Trivia.bareAll_bareAll leading, Trivia.bareAll_bareAll trailing]

theorem Trivia.bareAll_bareAll : (pieces : List Trivia) →
    Trivia.bareAll (Trivia.bareAll pieces) = Trivia.bareAll pieces
  | [] => rfl
  | piece :: rest => by
    rw [Trivia.bareAll, Trivia.bareAll_append, Trivia.bareAll_bare piece,
      Trivia.bareAll_bareAll rest]

theorem Trivia.bareAll_bare : (piece : Trivia) → Trivia.bareAll piece.bare = piece.bare
  | .invalid node => by simp [Trivia.bare, Trivia.bareAll, Node.bare_bare node]
  | .whitespace _ => rfl
  | .endOfLine _ => rfl
  | .comment _ => rfl
  | .documentation _ => rfl

theorem Node.bare_bare : (node : Node) → node.bare.bare = node.bare
  | .leaf token => by simp [Node.bare, Token.bare_bare token]
  | .composite kind slots _ => by simp [Node.bare, Node.bareSlots_bareSlots slots]

theorem Node.bareSlots_bareSlots : (slots : List (Option Node)) →
    Node.bareSlots (Node.bareSlots slots) = Node.bareSlots slots
  | [] => rfl
  | none :: rest => by simp [Node.bareSlots, Node.bareSlots_bareSlots rest]
  | some node :: rest => by
    simp [Node.bareSlots, Node.bare_bare node, Node.bareSlots_bareSlots rest]

end

/-! ## What can still be seen -/

mutual

theorem Token.codes_bare : (token : Token) →
    token.bare.collect.map Diagnostic.code = token.collect.map Diagnostic.code
  | ⟨_, _, _, leading, trailing, _, _⟩ => by
    simp [Token.bare, Token.collect, Trivia.codes_bareAll leading, Trivia.codes_bareAll trailing]

theorem Trivia.codes_bareAll : (pieces : List Trivia) →
    (Trivia.collectAll (Trivia.bareAll pieces)).map Diagnostic.code =
      (Trivia.collectAll pieces).map Diagnostic.code
  | [] => rfl
  | piece :: rest => by
    rw [Trivia.bareAll, Trivia.collectAll_append, Trivia.collectAll, List.map_append,
      List.map_append, Trivia.codes_bare piece, Trivia.codes_bareAll rest]

theorem Trivia.codes_bare : (piece : Trivia) →
    (Trivia.collectAll piece.bare).map Diagnostic.code = piece.collect.map Diagnostic.code
  | .invalid node => by simp [Trivia.bare, Trivia.collectAll, Trivia.collect, Node.codes_bare node]
  | .whitespace _ => rfl
  | .endOfLine _ => rfl
  | .comment _ => rfl
  | .documentation _ => rfl

/-- No diagnostic is layout, nor is one of a node that has been set aside. -/
theorem Node.codes_bare : (node : Node) →
    node.bare.collect.map Diagnostic.code = node.collect.map Diagnostic.code
  | .leaf token => by rw [Node.bare, Node.collect, Node.collect, Token.codes_bare token]
  | .composite kind slots _ => by simp [Node.bare, Node.collect, Node.codes_bareSlots slots]

theorem Node.codes_bareSlots : (slots : List (Option Node)) →
    (Node.collectSlots (Node.bareSlots slots)).map Diagnostic.code =
      (Node.collectSlots slots).map Diagnostic.code
  | [] => rfl
  | none :: rest => by rw [Node.bareSlots, Node.collectSlots, Node.collectSlots,
      Node.codes_bareSlots rest]
  | some node :: rest => by
    simp [Node.bareSlots, Node.collectSlots, Node.codes_bare node, Node.codes_bareSlots rest]

end

mutual

/-- A tree has the shape of what is left of it without its layout. -/
theorem Node.isIsomorphic_bare : (node : Node) → node.isIsomorphic node.bare = true
  | .leaf token => Token.alike_iff.mpr (by simp [Token.bare_eq])
  | .composite kind slots _ => by
    simp [Node.bare, Node.isIsomorphic, Node.isomorphicSlots_bareSlots slots]

theorem Node.isomorphicSlots_bareSlots : (slots : List (Option Node)) →
    Node.isomorphicSlots slots (Node.bareSlots slots) = true
  | [] => rfl
  | none :: rest => Node.isomorphicSlots_bareSlots rest
  | some node :: rest =>
    Bool.and_eq_true_iff.mpr ⟨Node.isIsomorphic_bare node, Node.isomorphicSlots_bareSlots rest⟩

end

namespace Node

variable {a b : Node}

/-- Trees that are the same without layout are isomorphic. -/
theorem isIsomorphic_of_bare_eq (h : a.bare = b.bare) : a.isIsomorphic b = true :=
  isIsomorphic_of_both a (isIsomorphic_bare a) (h ▸ isIsomorphic_bare b)

/-- Trees that are the same without layout have the same diagnostics, places apart. -/
theorem codes_of_bare_eq (h : a.bare = b.bare) :
    (a.diagnostics.map Diagnostic.code).Perm (b.diagnostics.map Diagnostic.code) := by
  have hcodes : a.collect.map Diagnostic.code = b.collect.map Diagnostic.code := by
    rw [← codes_bare a, ← codes_bare b, h]
  refine (a.diagnostics_perm.map _).trans ?_
  rw [hcodes]
  exact (b.diagnostics_perm.map _).symm

theorem bareSlots_eq_map (slots : List (Option Node)) :
    bareSlots slots = slots.map (Option.map bare) := by
  induction slots with
  | nil => rfl
  | cons slot rest ih => cases slot <;> simp [bareSlots, ih]

@[simp] theorem kind_bare (node : Node) : node.bare.kind = node.kind := by
  cases node with
  | leaf token => exact token.kind_bare
  | composite kind slots diagnostics => rfl

theorem slots_bare (node : Node) : node.bare.slots = node.slots.map (Option.map bare) := by
  cases node with
  | leaf token => rfl
  | composite kind slots diagnostics => exact bareSlots_eq_map slots

theorem slot?_bare (node : Node) (index : Nat) :
    node.bare.slot? index = (node.slot? index).map bare := by
  rw [slot?, slot?, slots_bare, List.getElem?_map]
  cases node.slots[index]? <;> rfl

theorem children_bare (node : Node) : node.bare.children = node.children.map bare := by
  rw [children, children, slots_bare, List.filterMap_map, List.map_filterMap]
  rfl

mutual

/-- Without layout the same nodes come in the same order. -/
theorem preorder_bare : (node : Node) → node.bare.preorder = node.preorder.map bare
  | .leaf token => rfl
  | .composite kind slots diagnostics => by
    rw [bare, preorder, preorder, slotsPreorder_bareSlots slots, List.map_cons, bare]

theorem slotsPreorder_bareSlots : (slots : List (Option Node)) →
    slotsPreorder (bareSlots slots) = (slotsPreorder slots).map bare
  | [] => rfl
  | none :: rest => slotsPreorder_bareSlots rest
  | some node :: rest => by
    rw [bareSlots, slotsPreorder, slotsPreorder, preorder_bare node, slotsPreorder_bareSlots rest,
      List.map_append]

end

/-- Whether all of a node was put in can be seen without layout. -/
theorem isMissing_bare (node : Node) : node.bare.isMissing = node.isMissing := by
  have htoken (node : Node) : node.bare.token? = node.token?.map Token.bare := by
    cases node <;> rfl
  have htokens : node.bare.tokens = node.tokens.map Token.bare := by
    rw [tokens, tokens, descendants_eq_preorder, descendants_eq_preorder, preorder_bare,
      List.filterMap_map, List.map_filterMap]
    exact congrArg (List.filterMap · _) (funext htoken)
  rw [isMissing, isMissing, htokens, List.all_map]
  exact congrArg _ (funext Token.missing_bare)

/-! ## Building and editing -/

@[simp] theorem bare_ofSlots (kind : Kind) (slots : List (Option Node)) :
    (ofSlots kind slots).bare = ofSlots kind (slots.map (Option.map bare)) := by
  simp [ofSlots, bare, bareSlots_eq_map]

/-- The span of a new diagnostic is layout, so it hangs on the node only by its code. -/
theorem bare_withDiagnostic (node : Node) (code : DiagnosticCode) :
    (node.withDiagnostic code).bare = (node.bare.withDiagnostic code).bare := by
  cases node with
  | leaf token =>
    simp [withDiagnostic, bare, Token.bare_eq, Token.withDiagnostic, Diagnostic.bare,
      Trivia.bareAll_bareAll]
  | composite kind slots diagnostics =>
    simp [withDiagnostic, bare, Diagnostic.bare, bareSlots_bareSlots]

/-- A node that is set aside is no layout. -/
theorem bareAll_setAside (node : Node) (code : DiagnosticCode) :
    Trivia.bareAll [node.setAside code] = [.invalid (node.withDiagnostic code).bare] :=
  rfl

mutual

/-- An edit of the first token can be followed without layout, if it can be for every token. -/
theorem bare_mapFirstToken? {edit edit' : Token → Token}
    (h : ∀ token : Token, (edit token).bare = edit' token.bare) : (node : Node) →
    (node.mapFirstToken? edit).map bare = node.bare.mapFirstToken? edit'
  | .leaf token => by simp [mapFirstToken?, bare, h token]
  | .composite kind slots diagnostics => by
    rw [bare, mapFirstToken?, mapFirstToken?, ← bare_slotsMapFirstToken? h slots, Option.map_map,
      Option.map_map]
    rfl

theorem bare_slotsMapFirstToken? {edit edit' : Token → Token}
    (h : ∀ token : Token, (edit token).bare = edit' token.bare) : (slots : List (Option Node)) →
    (slotsMapFirstToken? edit slots).map bareSlots = slotsMapFirstToken? edit' (bareSlots slots)
  | [] => rfl
  | none :: rest => by
    rw [bareSlots, slotsMapFirstToken?, slotsMapFirstToken?, ← bare_slotsMapFirstToken? h rest,
      Option.map_map, Option.map_map]
    rfl
  | some node :: rest => by
    rw [bareSlots, slotsMapFirstToken?, slotsMapFirstToken?, ← bare_mapFirstToken? h node]
    cases node.mapFirstToken? edit with
    | some changed => rfl
    | none =>
      simp only [Option.map_none]
      rw [← bare_slotsMapFirstToken? h rest, Option.map_map, Option.map_map]
      rfl

end

mutual

/-- Likewise an edit of the last token. -/
theorem bare_mapLastToken? {edit edit' : Token → Token}
    (h : ∀ token : Token, (edit token).bare = edit' token.bare) : (node : Node) →
    (node.mapLastToken? edit).map bare = node.bare.mapLastToken? edit'
  | .leaf token => by simp [mapLastToken?, bare, h token]
  | .composite kind slots diagnostics => by
    rw [bare, mapLastToken?, mapLastToken?, ← bare_slotsMapLastToken? h slots, Option.map_map,
      Option.map_map]
    rfl

theorem bare_slotsMapLastToken? {edit edit' : Token → Token}
    (h : ∀ token : Token, (edit token).bare = edit' token.bare) : (slots : List (Option Node)) →
    (slotsMapLastToken? edit slots).map bareSlots = slotsMapLastToken? edit' (bareSlots slots)
  | [] => rfl
  | none :: rest => by
    rw [bareSlots, slotsMapLastToken?, slotsMapLastToken?, ← bare_slotsMapLastToken? h rest,
      Option.map_map, Option.map_map]
    rfl
  | some node :: rest => by
    rw [bareSlots, slotsMapLastToken?, slotsMapLastToken?, ← bare_slotsMapLastToken? h rest]
    cases slotsMapLastToken? edit rest with
    | some changed => rfl
    | none =>
      simp only [Option.map_none]
      rw [← bare_mapLastToken? h node, Option.map_map, Option.map_map]
      rfl

end

mutual

/-- An edit that changes no token changes no node. -/
theorem eq_of_mapLastToken? {edit : Token → Token} (h : ∀ token, edit token = token) :
    (node : Node) → {changed : Node} → node.mapLastToken? edit = some changed → changed = node
  | .leaf token, _, hc => by
    cases hc
    rw [h]
  | .composite kind slots diagnostics, _, hc => by
    obtain ⟨others, ho, rfl⟩ := Option.map_eq_some_iff.mp hc
    rw [eq_of_slotsMapLastToken? h slots ho]

theorem eq_of_slotsMapLastToken? {edit : Token → Token} (h : ∀ token, edit token = token) :
    (slots : List (Option Node)) → {changed : List (Option Node)} →
      slotsMapLastToken? edit slots = some changed → changed = slots
  | [], _, hc => nomatch hc
  | none :: rest, _, hc => by
    obtain ⟨others, ho, rfl⟩ := Option.map_eq_some_iff.mp hc
    rw [eq_of_slotsMapLastToken? h rest ho]
  | some node :: rest, _, hc => by
    rw [slotsMapLastToken?] at hc
    split at hc
    · next hr =>
      cases hc
      rw [eq_of_slotsMapLastToken? h rest hr]
    · obtain ⟨last, hl, rfl⟩ := Option.map_eq_some_iff.mp hc
      rw [eq_of_mapLastToken? h node hl]

end

/-- Trivia before a node is placed at its first token. -/
theorem mapFirstToken?_withLeading {node : Node} (h : node.HasToken) (trivia : List Trivia) :
    node.mapFirstToken? (·.withLeading trivia) = some (node.withLeading trivia) := by
  cases hc : node.mapFirstToken? (·.withLeading trivia) with
  | some changed =>
    unfold withLeading
    rw [hc]
  | none =>
    rw [HasToken, firstToken?_of_mapFirstToken?_eq_none node hc] at h
    cases h

/-- Trivia behind a node is placed at its last token. -/
theorem mapLastToken?_withTrailing {node : Node} (h : node.HasToken) (trivia : List Trivia) :
    node.mapLastToken? (·.withTrailing trivia) = some (node.withTrailing trivia) := by
  cases hc : node.mapLastToken? (·.withTrailing trivia) with
  | some changed =>
    unfold withTrailing
    split
    · next ht =>
      rw [List.isEmpty_iff.mp ht] at hc
      rw [eq_of_mapLastToken? (fun token => ?_) node hc]
      cases token
      simp [Token.withTrailing]
    · rw [hc]
  | none =>
    rw [HasToken, firstToken?_of_mapLastToken?_eq_none node hc] at h
    cases h

/-- What is put before the first token loses its layout like the token itself. -/
theorem bare_withLeading {node : Node} (h : node.HasToken) (trivia : List Trivia) :
    some (node.withLeading trivia).bare =
      node.bare.mapFirstToken? (·.withLeading (Trivia.bareAll trivia)) := by
  rw [← bare_mapFirstToken? (fun token => ?_) node, mapFirstToken?_withLeading h, Option.map_some]
  simp [Token.bare_eq, Token.withLeading]

/-- So does what is put behind the last one. -/
theorem bare_withTrailing {node : Node} (h : node.HasToken) (trivia : List Trivia) :
    some (node.withTrailing trivia).bare =
      node.bare.mapLastToken? (·.withTrailing (Trivia.bareAll trivia)) := by
  rw [← bare_mapLastToken? (fun token => ?_) node, mapLastToken?_withTrailing h, Option.map_some]
  simp [Token.bare_eq, Token.withTrailing]

mutual

theorem hasToken_bare : (node : Node) → node.bare.firstToken?.isSome = node.firstToken?.isSome
  | .leaf _ => rfl
  | .composite _ slots _ => slotsHaveToken_bare slots

theorem slotsHaveToken_bare : (slots : List (Option Node)) →
    (slotsFirstToken? (bareSlots slots)).isSome = (slotsFirstToken? slots).isSome
  | [] => rfl
  | none :: rest => slotsHaveToken_bare rest
  | some node :: rest => by
    simp [bareSlots, slotsFirstToken?, hasToken_bare node, slotsHaveToken_bare rest]

end

end Node

end TolerantSyntax
