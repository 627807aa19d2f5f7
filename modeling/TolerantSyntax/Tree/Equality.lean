import TolerantSyntax.Tree.Basic

/-!
# Equality and isomorphism

Two trees are equal if everything about them is: spans, trivia and diagnostics too. They are
isomorphic if they have the same shape and the same tokens, wherever these stand and whatever
surrounds them.
-/

namespace TolerantSyntax

/-! ## Equality -/

mutual

/-- Equality of tokens. -/
def Token.same : Token → Token → Bool
  | ⟨kind, text, span, leading, trailing, diagnostics, missing⟩,
    ⟨kind', text', span', leading', trailing', diagnostics', missing'⟩ =>
    kind == kind' && text == text' && span == span' && Trivia.sameAll leading leading' &&
      Trivia.sameAll trailing trailing' && diagnostics == diagnostics' && missing == missing'

/-- Equality of runs of trivia. -/
def Trivia.sameAll : List Trivia → List Trivia → Bool
  | [], [] => true
  | x :: xs, y :: ys => x.same y && Trivia.sameAll xs ys
  | _, _ => false

/-- Equality of pieces of trivia. -/
def Trivia.same : Trivia → Trivia → Bool
  | .whitespace a, .whitespace b => a == b
  | .endOfLine a, .endOfLine b => a == b
  | .comment a, .comment b => a == b
  | .documentation a, .documentation b => a == b
  | .invalid a, .invalid b => a.same b
  | _, _ => false

/-- Equality of nodes. -/
def Node.same : Node → Node → Bool
  | .leaf a, .leaf b => a.same b
  | .composite kind slots diagnostics, .composite kind' slots' diagnostics' =>
    kind == kind' && Node.sameSlots slots slots' && diagnostics == diagnostics'
  | _, _ => false

/-- Equality of rows of slots. -/
def Node.sameSlots : List (Option Node) → List (Option Node) → Bool
  | [], [] => true
  | none :: xs, none :: ys => Node.sameSlots xs ys
  | some x :: xs, some y :: ys => x.same y && Node.sameSlots xs ys
  | _, _ => false

end

instance : BEq Node := ⟨Node.same⟩

/-! ## Isomorphism -/

/-- Do two tokens look the same? -/
def Token.alike (a b : Token) : Bool :=
  a.kind == b.kind && a.text == b.text && a.missing == b.missing

mutual

/-- Have two nodes the same shape and tokens that look the same? -/
def Node.isIsomorphic : Node → Node → Bool
  | .leaf a, .leaf b => a.alike b
  | .composite kind slots _, .composite kind' slots' _ =>
    kind == kind' && Node.isomorphicSlots slots slots'
  | _, _ => false

/-- Isomorphism of rows of slots. -/
def Node.isomorphicSlots : List (Option Node) → List (Option Node) → Bool
  | [], [] => true
  | none :: xs, none :: ys => Node.isomorphicSlots xs ys
  | some x :: xs, some y :: ys => x.isIsomorphic y && Node.isomorphicSlots xs ys
  | _, _ => false

end

mutual

@[simp] theorem Node.isIsomorphic_self : (node : Node) → node.isIsomorphic node = true
  | .leaf token => by simp [Node.isIsomorphic, Token.alike]
  | .composite _ slots _ => by simp [Node.isIsomorphic, Node.isomorphicSlots_self slots]

theorem Node.isomorphicSlots_self :
    (slots : List (Option Node)) → Node.isomorphicSlots slots slots = true
  | [] => by simp [Node.isomorphicSlots]
  | none :: rest => by simp [Node.isomorphicSlots, Node.isomorphicSlots_self rest]
  | some node :: rest => by
    simp [Node.isomorphicSlots, Node.isIsomorphic_self node, Node.isomorphicSlots_self rest]

end

theorem Node.isomorphicSlots_append : (xs xs' : List (Option Node)) →
    {ys ys' : List (Option Node)} → Node.isomorphicSlots xs xs' = true →
      Node.isomorphicSlots ys ys' = true → Node.isomorphicSlots (xs ++ ys) (xs' ++ ys') = true
  | [], [], _, _, _, hy => hy
  | none :: xs, none :: xs', _, _, hx, hy => Node.isomorphicSlots_append xs xs' hx hy
  | some _ :: xs, some _ :: xs', _, _, hx, hy => by
    obtain ⟨hnode, hrest⟩ := Bool.and_eq_true_iff.mp hx
    exact Bool.and_eq_true_iff.mpr ⟨hnode, Node.isomorphicSlots_append xs xs' hrest hy⟩
  | [], some _ :: _, _, _, hx, _ => nomatch hx
  | [], none :: _, _, _, hx, _ => nomatch hx
  | some _ :: _, [], _, _, hx, _ => nomatch hx
  | none :: _, [], _, _, hx, _ => nomatch hx

theorem Token.alike_iff {a b : Token} :
    a.alike b = true ↔ a.kind = b.kind ∧ a.text = b.text ∧ a.missing = b.missing := by
  simp [Token.alike, and_assoc]

mutual

/-- Two trees that are isomorphic to a third one are isomorphic. -/
theorem Node.isIsomorphic_of_both : (a : Node) → {b c : Node} → a.isIsomorphic c = true →
    b.isIsomorphic c = true → a.isIsomorphic b = true
  | .leaf _, .leaf _, .leaf _, ha, hb => by
    obtain ⟨hkind, htext, hmissing⟩ := Token.alike_iff.mp ha
    obtain ⟨hkind', htext', hmissing'⟩ := Token.alike_iff.mp hb
    exact Token.alike_iff.mpr
      ⟨hkind.trans hkind'.symm, htext.trans htext'.symm, hmissing.trans hmissing'.symm⟩
  | .composite _ slots _, .composite .., .composite .., ha, hb => by
    obtain ⟨hkind, hslots⟩ := Bool.and_eq_true_iff.mp ha
    obtain ⟨hkind', hslots'⟩ := Bool.and_eq_true_iff.mp hb
    refine Bool.and_eq_true_iff.mpr ⟨?_, Node.isomorphicSlots_of_both slots hslots hslots'⟩
    exact beq_iff_eq.mpr ((beq_iff_eq.mp hkind).trans (beq_iff_eq.mp hkind').symm)
  | .leaf _, _, .composite .., ha, _ => nomatch ha
  | .composite .., _, .leaf _, ha, _ => nomatch ha
  | .leaf _, .composite .., .leaf _, _, hb => nomatch hb
  | .composite .., .leaf _, .composite .., _, hb => nomatch hb

theorem Node.isomorphicSlots_of_both : (xs : List (Option Node)) → {ys zs : List (Option Node)} →
    Node.isomorphicSlots xs zs = true → Node.isomorphicSlots ys zs = true →
      Node.isomorphicSlots xs ys = true
  | [], [], _, _, _ => rfl
  | none :: xs, none :: _, none :: _, hx, hy => Node.isomorphicSlots_of_both xs hx hy
  | some x :: xs, some _ :: _, some _ :: _, hx, hy => by
    obtain ⟨hnode, hrest⟩ := Bool.and_eq_true_iff.mp hx
    obtain ⟨hnode', hrest'⟩ := Bool.and_eq_true_iff.mp hy
    exact Bool.and_eq_true_iff.mpr
      ⟨Node.isIsomorphic_of_both x hnode hnode', Node.isomorphicSlots_of_both xs hrest hrest'⟩
  | [], some _ :: _, [], _, hy => nomatch hy
  | [], none :: _, [], _, hy => nomatch hy
  | some _ :: _, _, [], hx, _ => nomatch hx
  | none :: _, _, [], hx, _ => nomatch hx

end

theorem Node.exists_getElem?_of_isomorphicSlots {y : Node} : (xs ys : List (Option Node)) →
    (index : Nat) → Node.isomorphicSlots xs ys = true → ys[index]? = some (some y) →
      ∃ x, xs[index]? = some (some x) ∧ x.isIsomorphic y = true
  | some x :: _, some _ :: _, 0, h, hy => by
    cases hy
    exact ⟨x, rfl, (Bool.and_eq_true_iff.mp h).1⟩
  | none :: _, none :: _, 0, _, hy => nomatch hy
  | none :: xs, none :: ys, index + 1, h, hy =>
    Node.exists_getElem?_of_isomorphicSlots xs ys index h hy
  | some _ :: xs, some _ :: ys, index + 1, h, hy =>
    Node.exists_getElem?_of_isomorphicSlots xs ys index (Bool.and_eq_true_iff.mp h).2 hy
  | [], [], _, _, hy => nomatch hy
  | [], some _ :: _, _, h, _ => nomatch h
  | [], none :: _, _, h, _ => nomatch h
  | some _ :: _, [], _, h, _ => nomatch h
  | none :: _, [], _, h, _ => nomatch h
  | some _ :: _, none :: _, _, h, _ => nomatch h
  | none :: _, some _ :: _, _, h, _ => nomatch h

theorem Node.kind_eq_of_isIsomorphic {a b : Node} (h : a.isIsomorphic b = true) :
    a.kind = b.kind := by
  cases a with
  | leaf token =>
    cases b with
    | leaf other => exact (Token.alike_iff.mp h).1
    | composite => cases h
  | composite kind slots diagnostics =>
    cases b with
    | leaf => cases h
    | composite kind' => exact beq_iff_eq.mp (Bool.and_eq_true_iff.mp h).1

theorem Node.slot?_list (items : List Node) (index : Nat) :
    (Node.list items).slot? index = items[index]? := by
  show (items.map some)[index]?.join = _
  rw [List.getElem?_map]
  cases items[index]? <;> rfl

/-- Trees that are isomorphic have isomorphic parts in the same slots. -/
theorem Node.exists_slot?_of_isIsomorphic {a b part : Node} {index : Nat}
    (h : a.isIsomorphic b = true) (hpart : b.slot? index = some part) :
    ∃ part', a.slot? index = some part' ∧ part'.isIsomorphic part = true := by
  cases b with
  | leaf => cases hpart
  | composite kind slots =>
    cases a with
    | leaf => cases h
    | composite kind' slots' =>
      obtain ⟨part', hslot, hiso⟩ := Node.exists_getElem?_of_isomorphicSlots slots' slots index
        (Bool.and_eq_true_iff.mp h).2 (Option.join_eq_some_iff.mp hpart)
      exact ⟨part', Option.join_eq_some_iff.mpr hslot, hiso⟩

theorem Node.isIsomorphic_symm {a b : Node} (h : a.isIsomorphic b = true) :
    b.isIsomorphic a = true :=
  Node.isIsomorphic_of_both b (Node.isIsomorphic_self b) h

theorem Node.isIsomorphic_trans {a b c : Node} (hab : a.isIsomorphic b = true)
    (hbc : b.isIsomorphic c = true) : a.isIsomorphic c = true :=
  Node.isIsomorphic_of_both a hab (Node.isIsomorphic_symm hbc)

end TolerantSyntax
