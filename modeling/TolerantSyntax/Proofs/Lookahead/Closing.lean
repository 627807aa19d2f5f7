import TolerantSyntax.Grammar.Lookahead

/-!
# Where a bracket closes

The search for the delimiter that closes a bracket counts how many brackets of this kind are open.
What one token does to this depth is said once (`closeFrom?_cons`). As long as the search goes on,
more brackets have been opened than closed (`StaysOpen`), so the depth is never lowered below zero,
and the search ends where as many have been closed as opened for the first time.

Brackets of other kinds are not looked at: they may be unbalanced in between.
-/

namespace TolerantSyntax.Lookahead

variable {opening close kind : Kind} {depth place : Nat} {kinds : List Kind}

/-! ## Depth -/

/-- How many brackets are open behind a token. -/
def depthAfter (opening close : Kind) (depth : Nat) (kind : Kind) : Nat :=
  if kind = opening then depth + 1 else if kind = close then depth - 1 else depth

/-- A token opens one bracket, closes one, or leaves the depth as it is. -/
theorem depthAfter_add_count (hne : opening ≠ close) (hdepth : 0 < depth) (kind : Kind) :
    depthAfter opening close depth kind + [kind].count close = depth + [kind].count opening := by
  unfold depthAfter
  split
  · next hopen => simp [hopen, hne]
  · next hopen =>
    split
    · next hclose =>
      have hcounts : [kind].count close = 1 ∧ [kind].count opening = 0 := by
        simp [hclose, hne.symm]
      omega
    · next hclose => simp [hopen, hclose]

/-- **One token of the search.** -/
theorem closeFrom?_cons (hdepth : 0 < depth) (hkind : kind ≠ .eof) :
    closeFrom? opening close depth (kind :: kinds) =
      if depthAfter opening close depth kind = 0 then some 0
      else (closeFrom? opening close (depthAfter opening close depth kind) kinds).map (· + 1) := by
  rw [closeFrom?, if_neg hkind, depthAfter]
  split
  · rw [if_neg (Nat.succ_ne_zero depth)]
  · split
    · by_cases hlast : depth ≤ 1
      · rw [if_pos hlast, if_pos (by omega)]
      · rw [if_neg hlast, if_neg (by omega)]
    · rw [if_neg (by omega)]

/-! ## What stays open -/

/-- Behind each of the kinds more brackets are open than closed, if `depth` were open before. -/
def StaysOpen (opening close : Kind) (depth : Nat) (kinds : List Kind) : Prop :=
  ∀ count, (kinds.take count).count close < depth + (kinds.take count).count opening

theorem staysOpen_of_notMem (hdepth : 0 < depth) (h : close ∉ kinds) :
    StaysOpen opening close depth kinds := by
  intro count
  have hnone : (kinds.take count).count close = 0 :=
    List.count_eq_zero.mpr fun hmem => h (List.mem_of_mem_take hmem)
  omega

theorem staysOpen_cons (hne : opening ≠ close) (hdepth : 0 < depth) :
    StaysOpen opening close depth (kind :: kinds) ↔
      StaysOpen opening close (depthAfter opening close depth kind) kinds := by
  have htoken := depthAfter_add_count hne hdepth kind
  have hsplit (other : Kind) (count : Nat) : ((kind :: kinds).take (count + 1)).count other =
      [kind].count other + (kinds.take count).count other := by
    rw [List.take_succ_cons, ← List.singleton_append, List.count_append]
  constructor
  · intro h count
    have hall := h (count + 1)
    rw [hsplit, hsplit] at hall
    omega
  · intro h count
    cases count with
    | zero => simpa using hdepth
    | succ count =>
      have hrest := h count
      rw [hsplit, hsplit]
      omega

theorem StaysOpen.take (h : StaysOpen opening close depth kinds) (count : Nat) :
    StaysOpen opening close depth (kinds.take count) := by
  intro fewer
  rw [List.take_take]
  exact h _

/-- As long as brackets stay open, the depth is above zero, so it can be lowered. -/
theorem StaysOpen.depth_pos (hne : opening ≠ close) (h : StaysOpen opening close depth kinds) :
    0 < kinds.foldl (depthAfter opening close) depth := by
  induction kinds generalizing depth with
  | nil => simpa using h 0
  | cons kind rest ih =>
    have hdepth : 0 < depth := by simpa using h 0
    exact ih ((staysOpen_cons hne hdepth).mp h)

/-- Behind the end of input there is nothing else. -/
def EndsOnce (kinds : List Kind) : Prop :=
  kinds.Pairwise fun first second => first = .eof → second = .eof

/-- **A search that fails** has never come to the depth from which it began. -/
theorem staysOpen_of_closeFrom?_eq_none (hne : opening ≠ close) (hclose : close ≠ .eof)
    (hdepth : 0 < depth) (hends : EndsOnce kinds)
    (h : closeFrom? opening close depth kinds = none) : StaysOpen opening close depth kinds := by
  induction kinds generalizing depth with
  | nil => exact staysOpen_of_notMem hdepth List.not_mem_nil
  | cons kind rest ih =>
    obtain ⟨hbehind, hrest⟩ := List.pairwise_cons.mp hends
    by_cases hkind : kind = .eof
    · refine staysOpen_of_notMem hdepth fun hmem => hclose ?_
      rcases List.mem_cons.mp hmem with heq | hmem
      · exact heq.trans hkind
      · exact hbehind close hmem hkind
    · rw [closeFrom?_cons hdepth hkind] at h
      split at h
      · cases h
      · next hopen =>
        exact (staysOpen_cons hne hdepth).mpr
          (ih (Nat.pos_of_ne_zero hopen) hrest (Option.map_eq_none_iff.mp h))

/-! ## Where it closes -/

/-- The bracket from which the depth counts closes at a place: it has stayed open up to there, and
there as many have been closed as opened, before the input ends. -/
structure ClosesAt (opening close : Kind) (depth : Nat) (kinds : List Kind) (place : Nat) :
    Prop where
  lt_length : place < kinds.length
  notMem_eof : .eof ∉ kinds.take (place + 1)
  staysOpen : StaysOpen opening close depth (kinds.take place)
  count_eq : (kinds.take (place + 1)).count close = depth + (kinds.take (place + 1)).count opening

theorem ClosesAt.cons (hne : opening ≠ close) (hdepth : 0 < depth) (hkind : kind ≠ .eof)
    (h : ClosesAt opening close (depthAfter opening close depth kind) kinds place) :
    ClosesAt opening close depth (kind :: kinds) (place + 1) := by
  have htoken := depthAfter_add_count hne hdepth kind
  have hcount := h.count_eq
  refine ⟨?_, ?_, (staysOpen_cons hne hdepth).mpr h.staysOpen, ?_⟩
  · rw [List.length_cons]
    exact Nat.succ_lt_succ h.lt_length
  · rw [List.take_succ_cons, List.mem_cons, not_or]
    exact ⟨hkind.symm, h.notMem_eof⟩
  · rw [List.take_succ_cons, ← List.singleton_append, List.count_append, List.count_append]
    omega

/-- **A search that succeeds** has found where the bracket closes. -/
theorem closesAt_of_closeFrom?_eq_some (hne : opening ≠ close) (hdepth : 0 < depth)
    (h : closeFrom? opening close depth kinds = some place) :
    ClosesAt opening close depth kinds place := by
  induction kinds generalizing depth place with
  | nil => cases h
  | cons kind rest ih =>
    by_cases hkind : kind = .eof
    · rw [closeFrom?, if_pos hkind] at h
      cases h
    · rw [closeFrom?_cons hdepth hkind] at h
      split at h
      · next hclosed =>
        cases h
        have htoken := depthAfter_add_count hne hdepth kind
        refine ⟨Nat.succ_pos _, ?_, staysOpen_of_notMem hdepth List.not_mem_nil, ?_⟩
        · simpa using Ne.symm hkind
        · simpa [hclosed] using htoken
      · next hopen =>
        obtain ⟨before, hbefore, rfl⟩ := Option.map_eq_some_iff.mp h
        exact (ih (Nat.pos_of_ne_zero hopen) hbefore).cons hne hdepth hkind

/-- A bracket closes where its closing delimiter is. -/
theorem getElem?_closeFrom?
    (h : closeFrom? opening close depth kinds = some place) : kinds[place]? = some close := by
  induction kinds generalizing depth place with
  | nil => cases h
  | cons kind rest ih =>
    have hlater {depth : Nat} (h : (closeFrom? opening close depth rest).map (· + 1) = some place) :
        (kind :: rest)[place]? = some close := by
      obtain ⟨before, hbefore, rfl⟩ := Option.map_eq_some_iff.mp h
      rw [List.getElem?_cons_succ]
      exact ih hbefore
    unfold closeFrom? at h
    split at h
    · cases h
    · split at h
      · exact hlater h
      · split at h
        · next hclose =>
          split at h
          · cases h
            rw [List.getElem?_cons_zero, hclose]
          · exact hlater h
        · exact hlater h

/-! ## Brackets -/

/-- The brackets that lookahead skips, each with its closing delimiter. -/
def brackets : List (Kind × Kind) :=
  [(.openBracket, .closeBracket), (.openBrace, .closeBrace), (.openParen, .closeParen)]

theorem closerOf?_of_mem_brackets (h : (opening, close) ∈ brackets) :
    closerOf? opening = some close := by
  simp only [brackets, List.mem_cons, Prod.mk.injEq, List.not_mem_nil, or_false] at h
  rcases h with ⟨rfl, rfl⟩ | ⟨rfl, rfl⟩ | ⟨rfl, rfl⟩ <;> rfl

/-- The two delimiters of a bracket differ, and neither is the end of input. -/
theorem ne_of_mem_brackets (h : (opening, close) ∈ brackets) :
    opening ≠ close ∧ opening ≠ .eof ∧ close ≠ .eof := by
  simp only [brackets, List.mem_cons, Prod.mk.injEq, List.not_mem_nil, or_false] at h
  rcases h with ⟨rfl, rfl⟩ | ⟨rfl, rfl⟩ | ⟨rfl, rfl⟩ <;> decide

/-- The opening delimiter is the first token of the search. -/
theorem matchingClose?_cons (h : (opening, close) ∈ brackets) :
    matchingClose? (opening :: kinds) = (closeFrom? opening close 1 kinds).map (· + 1) := by
  rw [matchingClose?, closerOf?_of_mem_brackets h]
  simp only [closeFrom?, if_neg (ne_of_mem_brackets h).2.1, if_pos]

theorem staysOpen_of_matchingClose?_eq_none (h : (opening, close) ∈ brackets)
    (hends : EndsOnce kinds) (hnone : matchingClose? (opening :: kinds) = none) :
    StaysOpen opening close 1 kinds := by
  obtain ⟨hne, -, hclose⟩ := ne_of_mem_brackets h
  rw [matchingClose?_cons h, Option.map_eq_none_iff] at hnone
  exact staysOpen_of_closeFrom?_eq_none hne hclose Nat.one_pos hends hnone

theorem closesAt_of_matchingClose?_eq_some (h : (opening, close) ∈ brackets)
    (hsome : matchingClose? (opening :: kinds) = some place) :
    ∃ before, place = before + 1 ∧ ClosesAt opening close 1 kinds before := by
  rw [matchingClose?_cons h] at hsome
  obtain ⟨before, hbefore, rfl⟩ := Option.map_eq_some_iff.mp hsome
  exact ⟨before, rfl, closesAt_of_closeFrom?_eq_some (ne_of_mem_brackets h).1 Nat.one_pos hbefore⟩

end TolerantSyntax.Lookahead
