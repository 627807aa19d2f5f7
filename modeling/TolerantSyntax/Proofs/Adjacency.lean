import TolerantSyntax.Proofs.Twin.Run

/-!
# Layout

A source can be laid out in another way without changing what is read, as long as the same tokens
touch. That tokens touch matters to operators made of several tokens and to nothing else, so what
stands before the end of input may touch it or not.
-/

namespace TolerantSyntax

/-! ## Sources that differ in layout -/

/-- Whether the first token touches the second, the second the third, and so on. -/
def Token.touching : List Token → List Bool
  | first :: second :: rest => first.touches second :: touching (second :: rest)
  | _ => []

theorem Token.tail_touching (first : Token) (rest : List Token) :
    (touching (first :: rest)).tail = touching rest := by
  cases rest <;> rfl

/-- The scans have the same tokens, and the same of them touch, the end of input apart. -/
structure Scanner.SameButLayout (s t : Scanner) : Prop where
  spelling : s.tokens.map Token.spelling = t.tokens.map Token.spelling
  touching : Token.touching s.tokens.dropLast = Token.touching t.tokens.dropLast

instance (s t : Scanner) : Decidable (s.SameButLayout t) :=
  decidable_of_iff
    (s.tokens.map Token.spelling = t.tokens.map Token.spelling ∧
      Token.touching s.tokens.dropLast = Token.touching t.tokens.dropLast)
    ⟨fun h => ⟨h.1, h.2⟩, fun h => ⟨h.spelling, h.touching⟩⟩

namespace Scanner

/-- Without layout, a token of the source is its spelling. -/
theorem bare_eq_of_spelling {s t : Scanner} (h : s.next.1.spelling = t.next.1.spelling) :
    s.next.1.bare = t.next.1.bare := by
  have hs := isStep_next s
  have ht := isStep_next t
  simp only [Token.spelling, Token.Spelling.mk.injEq] at h
  obtain ⟨hkind, htext, hcodes⟩ := h
  have hnone {token : Token} (hp : ∀ piece ∈ token.leading ++ token.trailing, piece.IsPlain) :
      Trivia.bareAll token.leading = [] ∧ Trivia.bareAll token.trailing = [] :=
    ⟨Trivia.bareAll_of_isPlain fun _ hm => hp _ (List.mem_append_left _ hm),
      Trivia.bareAll_of_isPlain fun _ hm => hp _ (List.mem_append_right _ hm)⟩
  rw [Token.bare_eq, Token.bare_eq, hkind, htext, Diagnostic.map_bare_eq_iff.mpr hcodes,
    hs.present, ht.present, (hnone hs.plain).1, (hnone hs.plain).2, (hnone ht.plain).1,
    (hnone ht.plain).2]

theorem dropLast_tokens {s : Scanner} (h : s.next.1.kind ≠ .eof) :
    s.tokens.dropLast = s.next.1 :: s.next.2.tokens.dropLast := by
  have hne : s.next.2.tokens ≠ [] := by
    intro hnil
    have hhead := head?_tokens s.next.2
    rw [hnil] at hhead
    cases hhead
  rw [tokens_of_ne_eof h, List.dropLast_cons_of_ne_nil hne]

namespace SameButLayout

variable {s t : Scanner}

theorem spelling_next (h : s.SameButLayout t) : s.next.1.spelling = t.next.1.spelling := by
  have hheads := congrArg List.head? h.spelling
  rw [List.head?_map, List.head?_map, head?_tokens, head?_tokens] at hheads
  exact Option.some.inj hheads

theorem kind_eq (h : s.SameButLayout t) : s.next.1.kind = t.next.1.kind :=
  congrArg Token.Spelling.kind h.spelling_next

theorem next (h : s.SameButLayout t) : s.next.2.SameButLayout t.next.2 := by
  by_cases he : s.next.1.kind = .eof
  · have hs := spelling_of_rest_nil ((isStep_next s).rest_of_eof he)
    have ht := spelling_of_rest_nil ((isStep_next t).rest_of_eof (h.kind_eq ▸ he))
    have hsk := congrArg Token.Spelling.kind hs
    have htk := congrArg Token.Spelling.kind ht
    constructor
    · rw [tokens_of_eof hsk, tokens_of_eof htk, List.map_singleton, List.map_singleton, hs, ht]
    · rw [tokens_of_eof hsk, tokens_of_eof htk]
      rfl
  · have hspelling := h.spelling
    have htouching := congrArg List.tail h.touching
    have he' : t.next.1.kind ≠ .eof := h.kind_eq ▸ he
    rw [tokens_of_ne_eof he, tokens_of_ne_eof he', List.map_cons, List.map_cons] at hspelling
    rw [dropLast_tokens he, dropLast_tokens he', Token.tail_touching,
      Token.tail_touching] at htouching
    exact ⟨congrArg List.tail hspelling, htouching⟩

/-- The next token touches the one behind it in both, or in neither. -/
theorem touches_next (h : s.SameButLayout t) (hne : s.next.2.next.1.kind ≠ .eof) :
    s.next.1.touches s.next.2.next.1 = t.next.1.touches t.next.2.next.1 := by
  have hfirst : s.next.1.kind ≠ .eof := fun he =>
    hne (congrArg Token.Spelling.kind (spelling_of_rest_nil ((isStep_next s).rest_of_eof he)))
  have hfirst' : t.next.1.kind ≠ .eof := h.kind_eq ▸ hfirst
  have hne' : t.next.2.next.1.kind ≠ .eof := h.next.kind_eq ▸ hne
  have htouching := h.touching
  rw [dropLast_tokens hfirst, dropLast_tokens hne, dropLast_tokens hfirst',
    dropLast_tokens hne'] at htouching
  exact (List.cons.inj htouching).1

/-- Sources that differ in layout have scans that are alike, by induction on how far ahead. -/
theorem alike (h : s.SameButLayout t) : s.Alike t := by
  constructor
  · intro ahead
    induction ahead generalizing s t with
    | zero => exact bare_eq_of_spelling h.spelling_next
    | succ ahead ih => exact ih h.next
  · intro ahead hne
    induction ahead generalizing s t with
    | zero => exact h.touches_next hne
    | succ ahead ih => exact ih h.next hne

end SameButLayout

end Scanner

/-! ## Their trees -/

/-- **Layout matters to a parse through adjacency only.** Sources with the same tokens, of which the
same touch, have isomorphic trees with the same diagnostics, their places apart. -/
theorem isomorphic_of_sameButLayout {source other : String}
    (h : (Scanner.ofSource source).SameButLayout (.ofSource other)) (kind : FragmentKind) :
    ∃ tree tree', parseFragment source kind = some tree ∧
      parseFragment other kind = some tree' ∧ tree.isIsomorphic tree' = true ∧
      (tree.diagnostics.map Diagnostic.code).Perm (tree'.diagnostics.map Diagnostic.code) := by
  obtain ⟨tree, tree', hparse, hparse', htwin⟩ := twins_of_parseFragment h.alike kind
  exact ⟨tree, tree', hparse, hparse', Node.isIsomorphic_of_bare_eq htwin.bare,
    Node.codes_of_bare_eq htwin.bare⟩

/-- A statement that needs repair, on one line and on three. -/
theorem isomorphic_of_sameButLayout_shift :
    (Scanner.ofSource "x += ) y >> 1").SameButLayout (.ofSource "x  +=\n) y\t>> 1\n// shifted") ∧
      ∃ tree tree', parseFragment "x += ) y >> 1" .statement = some tree ∧
        parseFragment "x  +=\n) y\t>> 1\n// shifted" .statement = some tree' ∧
        tree.isIsomorphic tree' = true ∧
        (tree.diagnostics.map Diagnostic.code).Perm (tree'.diagnostics.map Diagnostic.code) := by
  have h : (Scanner.ofSource "x += ) y >> 1").SameButLayout
      (.ofSource "x  +=\n) y\t>> 1\n// shifted") := by
    decide +kernel
  exact ⟨h, isomorphic_of_sameButLayout h .statement⟩

/-- An operator is one of a compound assignment only where it touches the `=`. -/
example : (parseFragment "x += 1;" .statement).bind (fun tree =>
    (parseFragment "x + = 1;" .statement).map tree.isIsomorphic) = some false := by
  decide +kernel

end TolerantSyntax
