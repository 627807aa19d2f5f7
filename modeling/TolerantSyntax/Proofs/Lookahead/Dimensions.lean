import TolerantSyntax.Proofs.Lookahead.Closing

/-!
# Array dimensions ahead

An array dimension is a pair of brackets around one token at most. A row of dimensions is read one
by one, as far as it goes. What follows then begins no dimension, so no longer row could have been
read (`length_le_of_not_begins`); a bracket that does follow is not closed, or holds more than one
token (`reads_afterDimensions?`).
-/

namespace TolerantSyntax.Lookahead

variable {kinds rest : List Kind}

/-! ## Dimensions -/

/-- The kinds of the tokens of an array dimension. -/
inductive IsDimension : List Kind → Prop where
  | empty : IsDimension [.openBracket, .closeBracket]
  | sized {length : Kind} (h : length ∉ [.openBracket, .closeBracket, .eof]) :
      IsDimension [.openBracket, length, .closeBracket]

/-- The kinds of the tokens of a row of array dimensions. -/
def AreDimensions (kinds : List Kind) : Prop :=
  ∃ dimensions : List (List Kind), (∀ dimension ∈ dimensions, IsDimension dimension) ∧
    kinds = dimensions.flatten

/-- A dimension comes next. -/
def BeginsDimension (kinds : List Kind) : Prop :=
  ∃ dimension rest, IsDimension dimension ∧ kinds = dimension ++ rest

theorem IsDimension.head? {dimension : List Kind} (h : IsDimension dimension) (rest : List Kind) :
    (dimension ++ rest).head? = some .openBracket := by
  cases h <;> rfl

theorem IsDimension.exists_eq_append {dimension : List Kind} (h : IsDimension dimension) :
    ∃ inner, dimension = inner ++ [.closeBracket] := by
  cases h with
  | empty => exact ⟨[.openBracket], rfl⟩
  | sized => exact ⟨[.openBracket, _], rfl⟩

theorem IsDimension.notMem_eof {dimension : List Kind} (h : IsDimension dimension) :
    .eof ∉ dimension := by
  cases h with
  | empty => decide
  | sized hlength =>
    simp only [List.mem_cons, List.not_mem_nil, or_false, not_or] at hlength ⊢
    exact ⟨by decide, Ne.symm hlength.2.2, by decide⟩

/-- A dimension closes within three tokens. -/
theorem IsDimension.matchingClose? {dimension : List Kind} (h : IsDimension dimension)
    (rest : List Kind) : ∃ place ≤ 2, matchingClose? (dimension ++ rest) = some place := by
  cases h with
  | empty => exact ⟨1, by decide, rfl⟩
  | sized hlength =>
    simp only [List.mem_cons, List.not_mem_nil, or_false, not_or] at hlength
    refine ⟨2, Nat.le_refl 2, ?_⟩
    simp [Lookahead.matchingClose?, closerOf?, closeFrom?, hlength]

/-- A bracket that closes within three tokens is a dimension. -/
theorem isDimension_of_matchingClose? {place : Nat}
    (h : matchingClose? (.openBracket :: rest) = some place) (hle : place ≤ 2) :
    IsDimension (.openBracket :: rest.take place) := by
  have hbracket : (Kind.openBracket, Kind.closeBracket) ∈ brackets := by decide
  have hclose : (.openBracket :: rest)[place]? = some Kind.closeBracket := getElem?_closeFrom? h
  obtain ⟨before, rfl, hcloses⟩ := closesAt_of_matchingClose?_eq_some hbracket h
  match before, rest with
  | 0, [] => cases hclose
  | 0, _ :: _ =>
    cases hclose
    exact .empty
  | 1, [] => cases hclose
  | 1, [_] => cases hclose
  | 1, length :: _ :: _ =>
    cases hclose
    have heof := hcloses.notMem_eof
    have hcount := hcloses.count_eq
    have hopen := hcloses.staysOpen 1
    refine .sized ?_
    simp only [List.mem_cons, List.not_mem_nil, or_false, not_or]
    refine ⟨?_, ?_, ?_⟩
    · rintro rfl
      exact absurd hcount (by simp)
    · rintro rfl
      exact absurd hopen (by simp)
    · rintro rfl
      exact heof List.mem_cons_self
  | before + 2, _ => omega

/-! ## Rows -/

theorem AreDimensions.notMem_eof (h : AreDimensions kinds) : .eof ∉ kinds := by
  obtain ⟨dimensions, hdimensions, rfl⟩ := h
  intro hmem
  obtain ⟨dimension, hmem, heof⟩ := List.mem_flatten.mp hmem
  exact (hdimensions dimension hmem).notMem_eof heof

/-- Of two dimensions that begin the same text, none is longer. -/
theorem IsDimension.eq_of_append_eq {first second xs ys : List Kind} (h : IsDimension first)
    (h' : IsDimension second) (heq : first ++ xs = second ++ ys) : first = second ∧ xs = ys := by
  cases h <;> cases h' <;> simp_all

/-- **A row behind which no dimension comes** is the longest one. -/
theorem length_le_of_not_begins {dimensions others : List (List Kind)} {behind : List Kind}
    (hdimensions : ∀ dimension ∈ dimensions, IsDimension dimension)
    (hothers : ∀ dimension ∈ others, IsDimension dimension) (hrest : ¬BeginsDimension rest)
    (heq : dimensions.flatten ++ rest = others.flatten ++ behind) :
    others.flatten.length ≤ dimensions.flatten.length := by
  induction dimensions generalizing others with
  | nil =>
    cases others with
    | nil => exact Nat.le_refl _
    | cons other others =>
      rw [List.flatten_nil, List.nil_append, List.flatten_cons, List.append_assoc] at heq
      exact absurd ⟨other, _, hothers other List.mem_cons_self, heq⟩ hrest
  | cons dimension dimensions ih =>
    cases others with
    | nil => exact Nat.zero_le _
    | cons other others =>
      obtain ⟨hfirst, hmore⟩ := List.forall_mem_cons.mp hdimensions
      obtain ⟨hother, hmore'⟩ := List.forall_mem_cons.mp hothers
      simp only [List.flatten_cons, List.append_assoc] at heq
      obtain ⟨rfl, hbehind⟩ := hfirst.eq_of_append_eq hother heq
      have hle := ih hmore hmore' hbehind
      simp only [List.flatten_cons, List.length_append]
      omega

/-! ## Reading a row -/

/-- A row of dimensions is read up to where none comes next. What follows is given, unless it begins
with a bracket: that one is not closed or too long. -/
structure ReadsDimensions (kinds : List Kind) (dimensions : List (List Kind)) (rest : List Kind) :
    Prop where
  isDimension : ∀ dimension ∈ dimensions, IsDimension dimension
  eq_append : kinds = dimensions.flatten ++ rest
  tooLong : rest.head? = some .openBracket → ∀ place ∈ matchingClose? rest, 2 < place
  afterDimensions? :
    afterDimensions? kinds = if rest.head? = some .openBracket then none else some rest

theorem ReadsDimensions.not_begins {dimensions : List (List Kind)}
    (h : ReadsDimensions kinds dimensions rest) : ¬BeginsDimension rest := by
  rintro ⟨dimension, behind, hdimension, rfl⟩
  obtain ⟨place, hle, hplace⟩ := hdimension.matchingClose? behind
  have hlt := h.tooLong (hdimension.head? behind) place hplace
  omega

/-- A bracket comes next that is not closed or too long, so nothing is read. -/
theorem readsDimensions_stuck (hlong : ∀ place ∈ matchingClose? (.openBracket :: rest), 2 < place) :
    ReadsDimensions (.openBracket :: rest) [] (.openBracket :: rest) := by
  refine ⟨fun _ => List.not_mem_nil.elim, rfl, fun _ => hlong, ?_⟩
  rw [afterDimensions?, List.head?_cons, if_pos rfl]
  split
  · next place hplace => rw [if_pos (hlong place hplace)]
  · rfl

/-- A dimension is read, and then those behind it. -/
theorem ReadsDimensions.cons {place : Nat} {dimensions : List (List Kind)} {behind : List Kind}
    (hplace : matchingClose? (.openBracket :: rest) = some place) (hle : place ≤ 2)
    (h : ReadsDimensions (rest.drop place) dimensions behind) :
    ReadsDimensions (.openBracket :: rest) ((.openBracket :: rest.take place) :: dimensions)
      behind := by
  refine ⟨?_, ?_, h.tooLong, ?_⟩
  · exact List.forall_mem_cons.mpr ⟨isDimension_of_matchingClose? hplace hle, h.isDimension⟩
  · rw [List.flatten_cons, List.append_assoc, ← h.eq_append, List.cons_append,
      List.take_append_drop]
  · rw [← h.afterDimensions?, Lookahead.afterDimensions?, hplace]
    exact if_neg (Nat.not_lt.mpr hle)

/-- **Dimensions are read one by one** up to where none comes next. -/
theorem reads_afterDimensions? (kinds : List Kind) :
    ∃ dimensions rest, ReadsDimensions kinds dimensions rest := by
  fun_induction afterDimensions? kinds with
  | case1 rest place hplace hlong =>
    refine ⟨[], _, readsDimensions_stuck fun other hother => ?_⟩
    rw [Option.mem_def, hplace] at hother
    exact Option.some.inj hother ▸ hlong
  | case2 rest place hplace hle ih =>
    obtain ⟨dimensions, behind, h⟩ := ih
    exact ⟨_, behind, h.cons hplace (Nat.not_lt.mp hle)⟩
  | case3 rest hnone =>
    refine ⟨[], _, readsDimensions_stuck fun other hother => ?_⟩
    rw [Option.mem_def, hnone] at hother
    cases hother
  | case4 other hother =>
    have hhead : other.head? ≠ some .openBracket := fun heq => by
      obtain ⟨rest, rfl⟩ := List.head?_eq_some_iff.mp heq
      exact hother rest rfl
    refine ⟨[], other, fun _ => List.not_mem_nil.elim, rfl, fun heq => absurd heq hhead, ?_⟩
    rw [if_neg hhead, afterDimensions?.eq_def]
    split
    · next rest => exact absurd rfl hhead
    · rfl

end TolerantSyntax.Lookahead
