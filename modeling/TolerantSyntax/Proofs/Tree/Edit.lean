import TolerantSyntax.Proofs.Tree.Regular
import TolerantSyntax.Tree.Equality

/-!
# What edits change

An edit of a tree puts trivia before the first or behind the last token, or adds a diagnostic. What
it does to the whole tree is the same for its text, its leaves, its diagnostics and its kinds: the
trivia comes first or last, and everything else stays, the outlines of its parts among it. So this
is said once, of a row of slots that gains trivia at its front and at its back, and each edit is a
case of it.
-/

namespace TolerantSyntax

theorem Token.withLeading_nil (token : Token) : token.withLeading [] = token := by
  cases token
  rfl

theorem Token.withTrailing_nil (token : Token) : token.withTrailing [] = token := by
  cases token
  simp [withTrailing]

/-! ## Marks -/

/-- What of a leaf no edit changes. -/
structure Mark where
  text : String
  span : Span
  missing : Bool
deriving DecidableEq

/-- What of a token no edit changes. -/
def Token.mark (token : Token) : Mark :=
  ⟨token.text, token.span, token.missing⟩

/-- The marks of the leaves in a run of trivia. -/
def Trivia.marks (pieces : List Trivia) : List Mark :=
  (leavesAll pieces).map Token.mark

/-- The marks of the leaves in a row of slots. -/
def Node.marks (slots : List (Option Node)) : List Mark :=
  (slotsLeaves slots).map Token.mark

@[simp] theorem Trivia.marks_nil : marks [] = [] := rfl

@[simp] theorem Trivia.marks_append (xs ys : List Trivia) :
    marks (xs ++ ys) = marks xs ++ marks ys := by
  simp [marks]

@[simp] theorem Node.marks_nil : marks [] = [] := rfl

@[simp] theorem Node.marks_append (xs ys : List (Option Node)) :
    marks (xs ++ ys) = marks xs ++ marks ys := by
  simp [marks]

/-- Without leaves there is nothing to mark. -/
theorem Node.marks_eq_nil {slots : List (Option Node)} (h : slotsLeaves slots = []) :
    marks slots = [] := by
  rw [marks, h, List.map_nil]

theorem Node.marks_leaf (token : Token) :
    marks [some (.leaf token)] =
      Trivia.marks token.leading ++ token.mark :: Trivia.marks token.trailing := by
  simp [marks, slotsLeaves, leaves, Token.leaves_eq, Trivia.marks]

theorem Node.marks_composite (kind : Kind) (slots : List (Option Node))
    (diagnostics : List Diagnostic) :
    marks [some (.composite kind slots diagnostics)] = marks slots := by
  simp [marks, slotsLeaves, leaves]

/-! ## Rows that gain trivia -/

/-- `after` is `before` with trivia put at its front and at its back. -/
structure Node.Gains (front back : List Trivia) (before after : List (Option Node)) : Prop where
  source : slotsSource after = Trivia.sources front ++ slotsSource before ++ Trivia.sources back
  marks : marks after = Trivia.marks front ++ marks before ++ Trivia.marks back
  collect : (collectSlots after).Perm
    (Trivia.collectAll front ++ collectSlots before ++ Trivia.collectAll back)
  contains : ∀ kind, slotsContain kind after =
    (Trivia.anyContains kind front || slotsContain kind before || Trivia.anyContains kind back)
  hasToken : (slotsFirstToken? after).isSome
  outlines : outlines after = outlines before
  isomorphic : isomorphicSlots after before = true
  regular : Trivia.Regular front → SlotsRegular before → Trivia.Regular back → SlotsRegular after

namespace Node.Gains

variable {front back : List Trivia} {before after rest : List (Option Node)}

theorem refl {node : Node} (h : node.HasToken) : Gains [] [] [some node] [some node] := by
  refine ⟨?_, ?_, ?_, ?_, ?_, rfl, isomorphicSlots_self _, fun _ hr _ => hr⟩
  · simp [Trivia.sources]
  · simp
  · simp [Trivia.collectAll]
  · simp [Trivia.anyContains]
  · simpa [slotsFirstToken?, HasToken] using h

theorem toHasToken {node : Node} (h : Gains front back before [some node]) : node.HasToken := by
  simpa [slotsFirstToken?, HasToken] using h.hasToken

theorem withLeading (front : List Trivia) (token : Token) :
    Gains front [] [some (.leaf token)] [some (.leaf (token.withLeading front))] := by
  refine ⟨?_, ?_, ?_, ?_, rfl, rfl, ?_, ?_⟩
  · simp [slotsSource, Node.source, Token.source_eq, Token.withLeading, Trivia.sources,
      String.append_assoc]
  · simp [marks_leaf, Token.withLeading, Token.mark]
  · simp only [collectSlots, Node.collect, Token.collect_eq, Token.withLeading,
      Trivia.collectAll_append, Trivia.collectAll, List.append_nil, ← List.append_assoc]
    exact .append_right _ (.append_right _ List.perm_append_comm)
  · intro kind
    simp only [slotsContain, Node.contains, Token.contains_eq, Token.withLeading,
      Trivia.anyContains_append, Trivia.anyContains, Bool.or_false, Bool.or_assoc]
  · simp [isomorphicSlots, isIsomorphic, Token.alike, Token.withLeading]
  · intro hfront htoken _
    obtain ⟨hmissing, htrivia⟩ := slotsRegular_leaf.mp htoken
    refine slotsRegular_leaf.mpr ⟨hmissing, ?_⟩
    rw [Token.withLeading, List.append_assoc]
    exact Trivia.regular_append.mpr ⟨hfront, htrivia⟩

theorem withTrailing (back : List Trivia) (token : Token) :
    Gains [] back [some (.leaf token)] [some (.leaf (token.withTrailing back))] := by
  refine ⟨?_, ?_, ?_, ?_, rfl, rfl, ?_, ?_⟩
  · simp [slotsSource, Node.source, Token.source_eq, Token.withTrailing, Trivia.sources,
      String.append_assoc]
  · simp [marks_leaf, Token.withTrailing, Token.mark]
  · simp only [collectSlots, Node.collect, Token.collect_eq, Token.withTrailing,
      Trivia.collectAll_append, Trivia.collectAll, List.append_nil, List.nil_append,
      List.append_assoc]
    exact .refl _
  · intro kind
    simp only [slotsContain, Node.contains, Token.contains_eq, Token.withTrailing,
      Trivia.anyContains_append, Trivia.anyContains, Bool.or_false, Bool.false_or, Bool.or_assoc]
  · simp [isomorphicSlots, isIsomorphic, Token.alike, Token.withTrailing]
  · intro _ htoken hback
    obtain ⟨hmissing, htrivia⟩ := slotsRegular_leaf.mp htoken
    refine slotsRegular_leaf.mpr ⟨hmissing, ?_⟩
    rw [Token.withTrailing, ← List.append_assoc]
    exact Trivia.regular_append.mpr ⟨htrivia, hback⟩

theorem composite (h : Gains front back before after) (kind : Kind)
    (diagnostics : List Diagnostic) :
    Gains front back [some (.composite kind before diagnostics)]
      [some (.composite kind after diagnostics)] := by
  refine ⟨?_, ?_, ?_, ?_, ?_, ?_, ?_, ?_⟩
  · simpa [slotsSource, Node.source] using h.source
  · simpa [marks_composite] using h.marks
  · simp only [collectSlots, Node.collect, List.append_nil]
    refine (h.collect.append_left diagnostics).trans ?_
    simp only [← List.append_assoc]
    exact .append_right _ (.append_right _ List.perm_append_comm)
  · intro other
    simp only [slotsContain, Node.contains, h.contains, Bool.or_false]
    cases kind == other <;> simp
  · simpa [slotsFirstToken?, firstToken?] using h.hasToken
  · rw [outlines_composite, outlines_composite, h.outlines]
  · simpa [isomorphicSlots, isIsomorphic] using h.isomorphic
  · intro hfront hbefore hback
    obtain ⟨hkind, hslots⟩ := slotsRegular_composite.mp hbefore
    refine slotsRegular_composite.mpr ⟨?_, h.regular hfront hslots hback⟩
    rw [Kind.admits, h.outlines]
    exact hkind

/-- What is gained at the front of a row is gained at the front of a longer one. -/
theorem append_right (h : Gains front [] before after) (rest : List (Option Node)) :
    Gains front [] (before ++ rest) (after ++ rest) := by
  refine ⟨?_, ?_, ?_, ?_, ?_, ?_, ?_, ?_⟩
  · simp [h.source, Trivia.sources, String.append_assoc]
  · simp [h.marks]
  · simpa [Trivia.collectAll] using h.collect.append_right (collectSlots rest)
  · simp [h.contains, Trivia.anyContains, Bool.or_assoc]
  · obtain ⟨token, ht⟩ := Option.isSome_iff_exists.mp h.hasToken
    simp [slotsFirstToken?_append, ht]
  · rw [outlines_append, outlines_append, h.outlines]
  · exact isomorphicSlots_append _ _ h.isomorphic (isomorphicSlots_self rest)
  · exact fun hfront hr hback => slotsRegular_append.mpr
      ((slotsRegular_append.mp hr).imp_left fun hr => h.regular hfront hr hback)

/-- What is gained at the back of a row is gained at the back of a longer one. -/
theorem append_left (h : Gains [] back before after) (rest : List (Option Node)) :
    Gains [] back (rest ++ before) (rest ++ after) := by
  refine ⟨?_, ?_, ?_, ?_, ?_, ?_, ?_, ?_⟩
  · simp [h.source, Trivia.sources, String.append_assoc]
  · simp [h.marks]
  · simpa [Trivia.collectAll] using h.collect.append_left (collectSlots rest)
  · simp [h.contains, Trivia.anyContains, Bool.or_assoc]
  · simp [slotsFirstToken?_append, h.hasToken]
  · rw [outlines_append, outlines_append, h.outlines]
  · exact isomorphicSlots_append _ _ (isomorphicSlots_self rest) h.isomorphic
  · exact fun hfront hr hback => slotsRegular_append.mpr
      ((slotsRegular_append.mp hr).imp_right fun hr => h.regular hfront hr hback)

/-- A row without tokens does not matter before one that gains at its front. -/
theorem tokenless_append (h : Gains front [] before after) (rest : List (Option Node))
    (hr : slotsFirstToken? rest = none) : Gains front [] (rest ++ before) (rest ++ after) := by
  obtain ⟨hs, hl⟩ := leaves_of_slotsFirstToken?_eq_none rest hr
  refine ⟨?_, ?_, ?_, ?_, ?_, ?_, ?_, ?_⟩
  · simp [h.source, hs]
  · rw [marks_append, marks_append, h.marks, marks_eq_nil hl, List.nil_append, List.nil_append]
  · have := h.collect.append_left (collectSlots rest)
    simp only [collectSlots_append, Trivia.collectAll, List.append_nil] at this ⊢
    refine this.trans ?_
    rw [← List.append_assoc, ← List.append_assoc]
    exact .append_right _ List.perm_append_comm
  · intro kind
    simp only [slotsContain_append, h.contains, Trivia.anyContains, Bool.or_false]
    rw [Bool.or_left_comm]
  · simp [hr, h.hasToken]
  · rw [outlines_append, outlines_append, h.outlines]
  · exact isomorphicSlots_append _ _ (isomorphicSlots_self rest) h.isomorphic
  · exact fun hfront hrow hback => slotsRegular_append.mpr
      ((slotsRegular_append.mp hrow).imp_right fun hrow => h.regular hfront hrow hback)

/-- A row without tokens does not matter behind one that gains at its back. -/
theorem append_tokenless (h : Gains [] back before after) {rest : List (Option Node)}
    (hr : slotsFirstToken? rest = none) : Gains [] back (before ++ rest) (after ++ rest) := by
  obtain ⟨hs, hl⟩ := leaves_of_slotsFirstToken?_eq_none rest hr
  refine ⟨?_, ?_, ?_, ?_, ?_, ?_, ?_, ?_⟩
  · simp [h.source, hs]
  · rw [marks_append, marks_append, h.marks, marks_eq_nil hl, List.append_nil, List.append_nil]
  · have := h.collect.append_right (collectSlots rest)
    simp only [collectSlots_append, Trivia.collectAll, List.nil_append] at this ⊢
    refine this.trans ?_
    rw [List.append_assoc, List.append_assoc]
    exact .append_left _ List.perm_append_comm
  · intro kind
    simp only [slotsContain_append, h.contains, Trivia.anyContains, Bool.false_or]
    rw [Bool.or_right_comm]
  · simp [hr, h.hasToken]
  · rw [outlines_append, outlines_append, h.outlines]
  · exact isomorphicSlots_append _ _ h.isomorphic (isomorphicSlots_self rest)
  · exact fun hfront hrow hback => slotsRegular_append.mpr
      ((slotsRegular_append.mp hrow).imp_left fun hrow => h.regular hfront hrow hback)

end Node.Gains

/-! ## Trivia at the first and the last token -/

namespace Node

mutual

/-- An edit of the first token fails only where there is none. -/
theorem firstToken?_of_mapFirstToken?_eq_none {edit : Token → Token} : (node : Node) →
    node.mapFirstToken? edit = none → node.firstToken? = none
  | .leaf _, h => by simp [mapFirstToken?] at h
  | .composite _ slots _, h => by
    rw [mapFirstToken?, Option.map_eq_none_iff] at h
    exact firstToken?_of_slotsMapFirstToken?_eq_none slots h

theorem firstToken?_of_slotsMapFirstToken?_eq_none {edit : Token → Token} :
    (slots : List (Option Node)) → slotsMapFirstToken? edit slots = none →
      slotsFirstToken? slots = none
  | [], _ => rfl
  | none :: rest, h => by
    rw [slotsMapFirstToken?, Option.map_eq_none_iff] at h
    exact firstToken?_of_slotsMapFirstToken?_eq_none rest h
  | some node :: rest, h => by
    rw [slotsMapFirstToken?] at h
    split at h
    · simp at h
    · next hn =>
      rw [Option.map_eq_none_iff] at h
      rw [slotsFirstToken?, firstToken?_of_mapFirstToken?_eq_none node hn,
        firstToken?_of_slotsMapFirstToken?_eq_none rest h]
      rfl

end

mutual

/-- A node with a last token has a first one, so neither edit fails alone. -/
theorem firstToken?_of_mapLastToken?_eq_none {edit : Token → Token} : (node : Node) →
    node.mapLastToken? edit = none → node.firstToken? = none
  | .leaf _, h => by simp [mapLastToken?] at h
  | .composite _ slots _, h => by
    rw [mapLastToken?, Option.map_eq_none_iff] at h
    exact firstToken?_of_slotsMapLastToken?_eq_none slots h

theorem firstToken?_of_slotsMapLastToken?_eq_none {edit : Token → Token} :
    (slots : List (Option Node)) → slotsMapLastToken? edit slots = none →
      slotsFirstToken? slots = none
  | [], _ => rfl
  | none :: rest, h => by
    rw [slotsMapLastToken?, Option.map_eq_none_iff] at h
    exact firstToken?_of_slotsMapLastToken?_eq_none rest h
  | some node :: rest, h => by
    rw [slotsMapLastToken?] at h
    split at h
    · simp at h
    · next hr =>
      rw [Option.map_eq_none_iff] at h
      rw [slotsFirstToken?, firstToken?_of_mapLastToken?_eq_none node h,
        firstToken?_of_slotsMapLastToken?_eq_none rest hr]
      rfl

end

mutual

/-- By induction down to the first token: the trivia comes before all that the node had. -/
theorem gains_mapFirstToken? {trivia : List Trivia} : (node : Node) → {changed : Node} →
    node.mapFirstToken? (·.withLeading trivia) = some changed →
      Gains trivia [] [some node] [some changed]
  | .leaf token, _, h => by
    cases h
    exact .withLeading trivia token
  | .composite kind slots diagnostics, _, h => by
    rw [mapFirstToken?, Option.map_eq_some_iff] at h
    obtain ⟨others, h, rfl⟩ := h
    exact (gains_slotsMapFirstToken? slots h).composite kind diagnostics

theorem gains_slotsMapFirstToken? {trivia : List Trivia} : (slots : List (Option Node)) →
    {changed : List (Option Node)} →
    slotsMapFirstToken? (·.withLeading trivia) slots = some changed →
      Gains trivia [] slots changed
  | [], _, h => by simp [slotsMapFirstToken?] at h
  | none :: rest, _, h => by
    rw [slotsMapFirstToken?, Option.map_eq_some_iff] at h
    obtain ⟨others, h, rfl⟩ := h
    exact (gains_slotsMapFirstToken? rest h).tokenless_append [none] rfl
  | some node :: rest, _, h => by
    rw [slotsMapFirstToken?] at h
    split at h
    · next first hn =>
      cases h
      exact (gains_mapFirstToken? node hn).append_right rest
    · next hn =>
      rw [Option.map_eq_some_iff] at h
      obtain ⟨others, h, rfl⟩ := h
      refine (gains_slotsMapFirstToken? rest h).tokenless_append [some node] ?_
      rw [slotsFirstToken?, firstToken?_of_mapFirstToken?_eq_none node hn]
      rfl

end

mutual

/-- Down to the last token, in the same way. -/
theorem gains_mapLastToken? {trivia : List Trivia} : (node : Node) → {changed : Node} →
    node.mapLastToken? (·.withTrailing trivia) = some changed →
      Gains [] trivia [some node] [some changed]
  | .leaf token, _, h => by
    cases h
    exact .withTrailing trivia token
  | .composite kind slots diagnostics, _, h => by
    rw [mapLastToken?, Option.map_eq_some_iff] at h
    obtain ⟨others, h, rfl⟩ := h
    exact (gains_slotsMapLastToken? slots h).composite kind diagnostics

theorem gains_slotsMapLastToken? {trivia : List Trivia} : (slots : List (Option Node)) →
    {changed : List (Option Node)} →
    slotsMapLastToken? (·.withTrailing trivia) slots = some changed →
      Gains [] trivia slots changed
  | [], _, h => by simp [slotsMapLastToken?] at h
  | none :: rest, _, h => by
    rw [slotsMapLastToken?, Option.map_eq_some_iff] at h
    obtain ⟨others, h, rfl⟩ := h
    exact (gains_slotsMapLastToken? rest h).append_left [none]
  | some node :: rest, _, h => by
    rw [slotsMapLastToken?] at h
    split at h
    · next others hr =>
      cases h
      exact (gains_slotsMapLastToken? rest hr).append_left [some node]
    · next hr =>
      rw [Option.map_eq_some_iff] at h
      obtain ⟨last, h, rfl⟩ := h
      exact (gains_mapLastToken? node h).append_tokenless
        (firstToken?_of_slotsMapLastToken?_eq_none rest hr)

end

/-! ## Edits of a node -/

/-- Diagnostics are no part of the shape. -/
theorem isIsomorphic_withDiagnostic (node : Node) (code : DiagnosticCode) :
    (node.withDiagnostic code).isIsomorphic node = true := by
  cases node with
  | leaf token => simp [withDiagnostic, isIsomorphic, Token.alike, Token.withDiagnostic]
  | composite kind slots => simp [withDiagnostic, isIsomorphic, isomorphicSlots_self]

theorem slotsSource_withDiagnostic (node : Node) (code : DiagnosticCode) :
    slotsSource [some (node.withDiagnostic code)] = slotsSource [some node] := by
  cases node <;>
    simp [withDiagnostic, slotsSource, source, Token.source_eq, Token.withDiagnostic]

theorem marks_withDiagnostic (node : Node) (code : DiagnosticCode) :
    marks [some (node.withDiagnostic code)] = marks [some node] := by
  cases node with
  | leaf token => simp [withDiagnostic, marks_leaf, Token.withDiagnostic, Token.mark]
  | composite kind slots diagnostics => simp [withDiagnostic, marks_composite]

theorem slotsContain_withDiagnostic (node : Node) (code : DiagnosticCode) (kind : Kind) :
    slotsContain kind [some (node.withDiagnostic code)] = slotsContain kind [some node] := by
  cases node <;>
    simp [withDiagnostic, slotsContain, contains, Token.contains_eq, Token.withDiagnostic]

/-- There is one diagnostic more, with the span of the node. -/
theorem collectSlots_withDiagnostic (node : Node) (code : DiagnosticCode) :
    (collectSlots [some (node.withDiagnostic code)]).Perm
      (⟨code, node.span⟩ :: collectSlots [some node]) := by
  cases node with
  | leaf token =>
    simp only [withDiagnostic, collectSlots, collect, Token.collect_eq, Token.withDiagnostic,
      List.append_nil, List.append_assoc]
    exact List.perm_middle
  | composite kind slots diagnostics =>
    simp only [withDiagnostic, collectSlots, collect, List.append_nil, List.append_assoc]
    exact List.perm_middle

/-- What has a token gains the trivia in front of it. -/
theorem gains_withLeading {node : Node} (h : node.HasToken) (trivia : List Trivia) :
    Gains trivia [] [some node] [some (node.withLeading trivia)] := by
  unfold withLeading
  split
  · next changed hm => exact gains_mapFirstToken? _ hm
  · next hm =>
    rw [HasToken, firstToken?_of_mapFirstToken?_eq_none _ hm] at h
    simp at h
  · next hm => simp [mapFirstToken?] at hm

/-- And behind it. -/
theorem gains_withTrailing {node : Node} (h : node.HasToken) (trivia : List Trivia) :
    Gains [] trivia [some node] [some (node.withTrailing trivia)] := by
  unfold withTrailing
  split
  · next ht =>
    rw [List.isEmpty_iff.mp ht]
    exact .refl h
  · split
    · next changed hm => exact gains_mapLastToken? _ hm
    · next hm =>
      rw [HasToken, firstToken?_of_mapLastToken?_eq_none _ hm] at h
      simp at h
    · next hm => simp [mapLastToken?] at hm

end Node

end TolerantSyntax
