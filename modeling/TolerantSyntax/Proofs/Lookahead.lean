import Mathlib.Data.Nat.Find
import Mathlib.Order.Bounds.Basic
import TolerantSyntax.Grammar.Run
import TolerantSyntax.Proofs.Lexer.Cursor
import TolerantSyntax.Proofs.Lookahead.Dimensions
import TolerantSyntax.Proofs.Parse.Operand

/-!
# Lookahead is exact

What lookahead answers, said of the tokens that a parser would show one by one if it were asked for
them: a bracket closes at the first token up to which its two delimiters are in balance, and is not
closed if the input ends before that; dimensions are skipped up to the end of the longest row of
them. Nothing is consumed (`lookahead_exact`).

The tokens are shown as far as the end of input, and the end of input from there on, so what is said
of the list that lookahead reads carries over (`Parser.Shows`).
-/

namespace TolerantSyntax

open Lookahead

/-! ## The end of input -/

/-- A reader shows the end of input over and over. -/
theorem Scanner.kind_tokenAt_of_le {scanner : Scanner} {first second : Nat} (hle : first ≤ second)
    (h : (scanner.tokenAt first).kind = .eof) : (scanner.tokenAt second).kind = .eof := by
  induction first generalizing scanner second with
  | zero =>
    have hmem := List.mem_of_getElem? (scanner.getElem?_take_tokenAt second)
    exact kind_of_mem_take h _ _ hmem
  | succ first ih =>
    obtain ⟨more, rfl⟩ := Nat.exists_eq_add_of_le hle
    have hrest : (scanner.next.2.tokenAt (first + more)).kind = .eof :=
      ih (Nat.le_add_right first more) h
    rw [Nat.add_right_comm]
    exact hrest

theorem Scanner.exists_tokenAt_of_mem_take {scanner : Scanner} {count : Nat} {token : Token}
    (h : token ∈ (scanner.take count).1) : ∃ ahead < count, scanner.tokenAt ahead = token := by
  obtain ⟨ahead, hat⟩ := List.mem_iff_getElem?.mp h
  have hlt : ahead < count := by simpa using (List.getElem?_eq_some_iff.mp hat).1
  rw [getElem?_take _ hlt, getElem?_take_tokenAt, Option.some.injEq] at hat
  exact ⟨ahead, hlt, hat⟩

theorem Scanner.endsOnce_take (scanner : Scanner) (count : Nat) :
    EndsOnce ((scanner.take count).1.map (·.kind)) := by
  induction count generalizing scanner with
  | zero => exact .nil
  | succ count ih =>
    rw [take, List.map_cons]
    refine .cons (fun kind hkind heof => ?_) (ih scanner.next.2)
    obtain ⟨token, htoken, rfl⟩ := List.mem_map.mp hkind
    exact kind_of_mem_take heof (count + 1) token (List.mem_cons_of_mem _ htoken)

/-! ## What a parser shows -/

namespace Parser

/-- The kind of the token so many tokens behind the next one. -/
def kindAhead (p : Parser) (ahead : Nat) : Kind :=
  (p.reader.peek ahead).1.kind

/-- The kinds of the tokens ahead from one up to another, which is left out. -/
def kindsAhead (p : Parser) (start stop : Nat) : List Kind :=
  (List.range' start (stop - start)).map p.kindAhead

@[simp] theorem length_kindsAhead (p : Parser) (start stop : Nat) :
    (p.kindsAhead start stop).length = stop - start := by
  rw [kindsAhead, List.length_map, List.length_range']

/-- From one token ahead up to another, both included, as many brackets close as open. -/
def Balances (p : Parser) (opening close : Kind) (start stop : Nat) : Prop :=
  (p.kindsAhead start (stop + 1)).count close = (p.kindsAhead start (stop + 1)).count opening

/-- A search that begins at one token ahead gets to another: before it the input does not end, and
no token brings the brackets into balance. -/
def SearchReaches (p : Parser) (opening close : Kind) (start stop : Nat) : Prop :=
  start < stop ∧ ∀ between, start < between → between < stop →
    p.kindAhead between ≠ .eof ∧ ¬p.Balances opening close start between

/-- How many brackets a search has counted as open when it gets to a token. -/
def depthAhead (p : Parser) (opening close : Kind) (start stop : Nat) : Nat :=
  (p.kindsAhead start stop).foldl (depthAfter opening close) 0

/-- The kinds are those of the tokens ahead, up to the end of input at least. -/
structure Shows (p : Parser) (kinds : List Kind) : Prop where
  kindAhead : ∀ ahead, p.kindAhead ahead = kinds[ahead]?.getD .eof
  endsOnce : EndsOnce kinds

end Parser

/-- Lookahead reads the kinds of all tokens ahead, and changes nothing. -/
theorem ParseM.exists_upcoming {p : Parser} (hv : p.Valid) (env : Env) :
    ∃ kinds q, upcoming env p = some (kinds, q) ∧ Same p q ∧ p.Shows kinds := by
  obtain ⟨count, q, hrun, hsame⟩ := upcoming_eq env hv
  refine ⟨_, q, hrun, hsame, fun ahead => ?_, Scanner.endsOnce_take _ count⟩
  have hpeek := (TokenReader.IsAt.peek hv ahead).1
  have htoken : (p.reader.peek ahead).1 = p.reader.place.tokenAt ahead := by
    rw [Scanner.getElem?_take_tokenAt, Option.some.injEq] at hpeek
    exact hpeek.symm
  rw [Parser.kindAhead, htoken, List.getElem?_map]
  by_cases hlt : ahead < count
  · rw [Scanner.getElem?_take _ hlt, Scanner.getElem?_take_tokenAt]
    rfl
  · -- the end of input is among the kinds, so it is what comes behind them
    have hkinds : (p.reader.place.take count).1.map (·.kind) =
        p.reader.upcoming.1.map (·.kind) :=
      congrArg Prod.fst (Option.some.inj hrun.symm)
    obtain ⟨last, hlast, heof⟩ := p.reader.eof_mem_upcoming
    have hmem : last.kind ∈ (p.reader.place.take count).1.map (·.kind) :=
      hkinds ▸ List.mem_map_of_mem hlast
    obtain ⟨token, htoken, hkind⟩ := List.mem_map.mp hmem
    obtain ⟨before, hbefore, rfl⟩ := Scanner.exists_tokenAt_of_mem_take htoken
    rw [List.getElem?_eq_none (by simpa using hlt)]
    exact Scanner.kind_tokenAt_of_le (by omega) (hkind.trans heof)

namespace Parser.Shows

variable {p : Parser} {kinds rest : List Kind} {opening close : Kind} {start stop place : Nat}

theorem kindsAhead_eq (h : p.Shows kinds) (start stop : Nat) :
    p.kindsAhead start stop = (kinds.drop start).take (stop - start) ++
      List.replicate (stop - start - (kinds.length - start)) .eof := by
  refine List.ext_getElem (by simp; omega) fun index hindex _ => ?_
  have hcount : index < stop - start := by simpa using hindex
  simp only [kindsAhead, List.getElem_map, List.getElem_range', h.kindAhead]
  by_cases hlt : start + index < kinds.length
  · rw [List.getElem_append_left (by simp; omega)]
    simp [hlt]
  · rw [List.getElem_append_right (by simp; omega)]
    simp [Nat.le_of_not_lt hlt]

/-- The end of input is no delimiter, so what is counted ahead is counted in the list. -/
theorem count_kindsAhead (h : p.Shows kinds) {kind : Kind} (hkind : kind ≠ .eof)
    (start stop : Nat) : (p.kindsAhead start stop).count kind =
      ((kinds.drop start).take (stop - start)).count kind := by
  rw [h.kindsAhead_eq, List.count_append, List.count_replicate]
  simp [hkind.symm]

/-! ### From an opening delimiter -/

theorem length_of_drop_eq_cons (hdrop : kinds.drop start = opening :: rest) :
    kinds.length - start = rest.length + 1 := by
  rw [← List.length_drop, hdrop, List.length_cons]

theorem exists_drop_eq_cons (h : p.Shows kinds) (hbracket : (opening, close) ∈ brackets)
    (hstart : p.kindAhead start = opening) : ∃ rest, kinds.drop start = opening :: rest := by
  have hne := (ne_of_mem_brackets hbracket).2.1
  rw [h.kindAhead] at hstart
  have hlt : start < kinds.length := by
    by_contra hge
    rw [List.getElem?_eq_none (Nat.le_of_not_lt hge)] at hstart
    exact hne hstart.symm
  rw [List.getElem?_eq_getElem hlt] at hstart
  exact ⟨_, (List.drop_eq_getElem_cons hlt).trans (congrArg (· :: _) hstart)⟩

theorem balances_iff (h : p.Shows kinds) (hbracket : (opening, close) ∈ brackets)
    (hdrop : kinds.drop start = opening :: rest) (count : Nat) :
    p.Balances opening close start (start + count) ↔
      (rest.take count).count close = 1 + (rest.take count).count opening := by
  obtain ⟨hne, hopening, hclose⟩ := ne_of_mem_brackets hbracket
  have hcount : start + count + 1 - start = count + 1 := by omega
  rw [Balances, h.count_kindsAhead hclose, h.count_kindsAhead hopening, hdrop, hcount,
    List.take_succ_cons, List.count_cons_self, List.count_cons_of_ne hne, Nat.add_comm 1]

/-- While the bracket stays open, nothing is in balance. -/
theorem not_balances (h : p.Shows kinds) (hbracket : (opening, close) ∈ brackets)
    (hdrop : kinds.drop start = opening :: rest) {count : Nat}
    (hopen : StaysOpen opening close 1 (rest.take count)) :
    ¬p.Balances opening close start (start + count) := by
  have hlt := hopen count
  rw [List.take_take, Nat.min_self] at hlt
  rw [h.balances_iff hbracket hdrop]
  omega

theorem staysOpen_of_eq_none (h : p.Shows kinds) (hbracket : (opening, close) ∈ brackets)
    (hdrop : kinds.drop start = opening :: rest)
    (hnone : matchingClose? (opening :: rest) = none) : StaysOpen opening close 1 rest := by
  have hends : EndsOnce (opening :: rest) := hdrop ▸ h.endsOnce.drop
  exact staysOpen_of_matchingClose?_eq_none hbracket (List.pairwise_cons.mp hends).2 hnone

/-- **A bracket that closes** does so at the first token that brings its delimiters into balance. -/
theorem isLeast_balances (h : p.Shows kinds) (hbracket : (opening, close) ∈ brackets)
    (hdrop : kinds.drop start = opening :: rest)
    (hsome : matchingClose? (opening :: rest) = some place) :
    IsLeast {stop | start < stop ∧ p.Balances opening close start stop} (start + place) := by
  obtain ⟨before, rfl, hcloses⟩ := closesAt_of_matchingClose?_eq_some hbracket hsome
  refine ⟨⟨by omega, (h.balances_iff hbracket hdrop _).mpr hcloses.count_eq⟩, ?_⟩
  rintro stop ⟨hlt, hbalances⟩
  by_contra hstop
  obtain ⟨count, rfl⟩ := Nat.exists_eq_add_of_lt hlt
  have hopen := hcloses.staysOpen.take (count + 1)
  rw [List.take_take, Nat.min_eq_left (by omega)] at hopen
  exact h.not_balances hbracket hdrop hopen hbalances

/-- A search does not get behind the closing delimiter. -/
theorem le_of_searchReaches (h : p.Shows kinds) (hbracket : (opening, close) ∈ brackets)
    (hdrop : kinds.drop start = opening :: rest)
    (hsome : matchingClose? (opening :: rest) = some place)
    (hreach : p.SearchReaches opening close start stop) : stop ≤ start + place := by
  obtain ⟨hlt, hbalances⟩ := (h.isLeast_balances hbracket hdrop hsome).1
  by_contra hbefore
  exact (hreach.2 _ hlt (Nat.lt_of_not_le hbefore)).2 hbalances

/-- Up to where a search gets, the bracket stays open. -/
theorem staysOpen_of_searchReaches (h : p.Shows kinds) (hbracket : (opening, close) ∈ brackets)
    (hdrop : kinds.drop start = opening :: rest) {count : Nat}
    (hreach : p.SearchReaches opening close start (start + count + 1)) :
    StaysOpen opening close 1 (rest.take count) := by
  cases hclose : matchingClose? (opening :: rest) with
  | none => exact (h.staysOpen_of_eq_none hbracket hdrop hclose).take count
  | some place =>
    have hle := h.le_of_searchReaches hbracket hdrop hclose hreach
    obtain ⟨before, rfl, hcloses⟩ := closesAt_of_matchingClose?_eq_some hbracket hclose
    have hopen := hcloses.staysOpen.take count
    rwa [List.take_take, Nat.min_eq_left (by omega)] at hopen

theorem kindAhead_length (h : p.Shows kinds) : p.kindAhead kinds.length = .eof := by
  rw [h.kindAhead, List.getElem?_eq_none (Nat.le_refl _), Option.getD_none]

theorem depthAhead_pos (h : p.Shows kinds) (hbracket : (opening, close) ∈ brackets)
    (hdrop : kinds.drop start = opening :: rest)
    (hreach : p.SearchReaches opening close start stop) :
    0 < p.depthAhead opening close start stop := by
  obtain ⟨hne, -⟩ := ne_of_mem_brackets hbracket
  obtain ⟨count, rfl⟩ := Nat.exists_eq_add_of_lt hreach.1
  have hlength := length_of_drop_eq_cons hdrop
  have hle : start + count + 1 ≤ kinds.length := by
    by_contra hbehind
    exact (hreach.2 kinds.length (by omega) (by omega)).1 h.kindAhead_length
  have hkinds : p.kindsAhead start (start + count + 1) = opening :: rest.take count := by
    have hcount : start + count + 1 - start = count + 1 := by omega
    have hpadding : count + 1 - (kinds.length - start) = 0 := by omega
    rw [h.kindsAhead_eq, hcount, hpadding, hdrop, List.take_succ_cons, List.replicate_zero,
      List.append_nil]
  rw [depthAhead, hkinds, List.foldl_cons, depthAfter, if_pos rfl]
  exact (h.staysOpen_of_searchReaches hbracket hdrop hreach).depth_pos hne

/-- **A bracket that is not closed** is one behind which the input ends first. -/
theorem matchingClose?_eq_none_iff (h : p.Shows kinds) (hbracket : (opening, close) ∈ brackets)
    (hdrop : kinds.drop start = opening :: rest) :
    matchingClose? (opening :: rest) = none ↔
      ∃ stop, p.SearchReaches opening close start stop ∧ p.kindAhead stop = .eof := by
  have hlength := length_of_drop_eq_cons hdrop
  constructor
  · intro hnone
    have hopen := h.staysOpen_of_eq_none hbracket hdrop hnone
    have hex : ∃ stop, start < stop ∧ p.kindAhead stop = .eof :=
      ⟨kinds.length, by omega, h.kindAhead_length⟩
    obtain ⟨hlt, heof⟩ := Nat.find_spec hex
    refine ⟨Nat.find hex, ⟨hlt, fun between hstart hbefore => ⟨fun hend => ?_, ?_⟩⟩, heof⟩
    · exact Nat.find_min hex hbefore ⟨hstart, hend⟩
    · obtain ⟨count, rfl⟩ := Nat.exists_eq_add_of_lt hstart
      exact h.not_balances hbracket hdrop (hopen.take (count + 1))
  · rintro ⟨stop, hreach, heof⟩
    rw [Option.eq_none_iff_forall_ne_some]
    intro place hclose
    -- the search ends at the closing delimiter, and the input does not end before it
    have hle := h.le_of_searchReaches hbracket hdrop hclose hreach
    obtain ⟨before, rfl, hcloses⟩ := closesAt_of_matchingClose?_eq_some hbracket hclose
    obtain ⟨count, rfl⟩ := Nat.exists_eq_add_of_lt hreach.1
    have hin := hcloses.lt_length
    have hget : kinds[start + count + 1]? = rest[count]? := by
      rw [Nat.add_assoc, ← List.getElem?_drop, hdrop, List.getElem?_cons_succ]
    rw [h.kindAhead, hget, List.getElem?_eq_getElem (by omega), Option.getD_some] at heof
    exact hcloses.notMem_eof (heof ▸ List.mem_take_iff_getElem.mpr ⟨count, by omega, rfl⟩)

theorem matchingClose?_eq_some_iff (h : p.Shows kinds) (hbracket : (opening, close) ∈ brackets)
    (hdrop : kinds.drop start = opening :: rest) (place : Nat) :
    matchingClose? (opening :: rest) = some place ↔
      IsLeast {stop | start < stop ∧ p.Balances opening close start stop} (start + place) := by
  refine ⟨h.isLeast_balances hbracket hdrop, fun hleast => ?_⟩
  cases hclose : matchingClose? (opening :: rest) with
  | none =>
    have hopen := h.staysOpen_of_eq_none hbracket hdrop hclose
    exact absurd hleast.1.2 (h.not_balances hbracket hdrop (hopen.take place))
  | some other =>
    have hother := (h.isLeast_balances hbracket hdrop hclose).unique hleast
    rw [Nat.add_left_cancel hother]

/-! ### Dimensions -/

/-- What comes before the end of input is an initial part of the list. -/
theorem drop_eq_append (h : p.Shows kinds) (hle : start ≤ stop)
    (heof : .eof ∉ p.kindsAhead start stop) :
    kinds.drop start = p.kindsAhead start stop ++ kinds.drop stop := by
  have hpadding : stop - start - (kinds.length - start) = 0 := by
    by_contra hne
    rw [h.kindsAhead_eq, List.mem_append, not_or] at heof
    exact heof.2 (List.mem_replicate.mpr ⟨hne, rfl⟩)
  have hdrop : kinds.drop stop = (kinds.drop start).drop (stop - start) := by
    rw [List.drop_drop, Nat.add_sub_cancel' hle]
  rw [h.kindsAhead_eq, hpadding, List.replicate_zero, List.append_nil, hdrop,
    List.take_append_drop]

/-- **Dimensions are read** as far as the longest row of them goes. -/
theorem isGreatest_areDimensions (h : p.Shows kinds) {dimensions : List (List Kind)}
    (hreads : ReadsDimensions (kinds.drop start) dimensions rest) :
    IsGreatest {stop | start ≤ stop ∧ AreDimensions (p.kindsAhead start stop)}
      (start + dimensions.flatten.length) := by
  constructor
  · refine ⟨Nat.le_add_right _ _, dimensions, hreads.isDimension, ?_⟩
    have hlength : dimensions.flatten.length ≤ kinds.length - start := by
      rw [← List.length_drop, hreads.eq_append, List.length_append]
      exact Nat.le_add_right _ _
    rw [h.kindsAhead_eq, Nat.add_sub_cancel_left, Nat.sub_eq_zero_of_le hlength,
      hreads.eq_append, List.take_left, List.replicate_zero, List.append_nil]
  · rintro stop ⟨hle, hothers⟩
    have hsplit := h.drop_eq_append hle hothers.notMem_eof
    obtain ⟨others, hdimensions, heq⟩ := hothers
    have hlength := length_le_of_not_begins hreads.isDimension hdimensions hreads.not_begins
      (hreads.eq_append.symm.trans (heq ▸ hsplit))
    rw [← heq, length_kindsAhead] at hlength
    omega

end Parser.Shows

/-! ## The statement -/

/-- **Lookahead is exact.** From any place of a parse it reads the kinds of all tokens ahead, and
leaves the parse as it is. Where a `[`, `{` or `(` is ahead, the search for what closes it gives the
first token up to which as many of its closing delimiters come as of its opening ones, and nothing
if and only if the input ends before such a token; behind the bracket the depth is above zero at
each token that the search gets to, so it can be lowered. Dimensions are skipped up to the end of
the longest row of brackets with one token at most between them, unless a bracket follows: it is not
closed, or not within two tokens, and nothing is given. -/
theorem ParseM.lookahead_exact {p : Parser} (hv : p.Valid) (env : Env) :
    ∃ kinds q, upcoming env p = some (kinds, q) ∧ Same p q ∧
      (∀ ahead, p.kindAhead ahead = kinds[ahead]?.getD .eof) ∧
      ∀ start,
        (∀ opening close, (opening, close) ∈ brackets → p.kindAhead start = opening →
          (∀ place, matchingClose? (kinds.drop start) = some place ↔
            IsLeast {stop | start < stop ∧ p.Balances opening close start stop} (start + place)) ∧
          (matchingClose? (kinds.drop start) = none ↔
            ∃ stop, p.SearchReaches opening close start stop ∧ p.kindAhead stop = .eof) ∧
          ∀ stop, p.SearchReaches opening close start stop →
            0 < p.depthAhead opening close start stop) ∧
        ∃ stop, IsGreatest {stop | start ≤ stop ∧ AreDimensions (p.kindsAhead start stop)} stop ∧
          (p.kindAhead stop = .openBracket →
            ∀ place ∈ matchingClose? (kinds.drop stop), 2 < place) ∧
          afterDimensions? (kinds.drop start) =
            if p.kindAhead stop = .openBracket then none else some (kinds.drop stop) := by
  obtain ⟨kinds, q, hrun, hsame, hshows⟩ := exists_upcoming hv env
  refine ⟨kinds, q, hrun, hsame, hshows.kindAhead, fun start => ⟨?_, ?_⟩⟩
  · intro opening close hbracket hstart
    obtain ⟨rest, hdrop⟩ := hshows.exists_drop_eq_cons hbracket hstart
    rw [hdrop]
    exact ⟨hshows.matchingClose?_eq_some_iff hbracket hdrop,
      hshows.matchingClose?_eq_none_iff hbracket hdrop,
      fun stop => hshows.depthAhead_pos hbracket hdrop⟩
  · obtain ⟨dimensions, rest, hreads⟩ := reads_afterDimensions? (kinds.drop start)
    have hrest : kinds.drop (start + dimensions.flatten.length) = rest := by
      rw [← List.drop_drop, hreads.eq_append, List.drop_left]
    have hhead : p.kindAhead (start + dimensions.flatten.length) = .openBracket ↔
        rest.head? = some .openBracket := by
      rw [hshows.kindAhead, ← hrest, List.head?_drop]
      cases kinds[start + dimensions.flatten.length]? <;> simp
    refine ⟨_, hshows.isGreatest_areDimensions hreads, ?_, ?_⟩
    · rw [hhead, hrest]
      exact hreads.tooLong
    · simp only [hhead, hrest]
      exact hreads.afterDimensions?

/-- Brackets that cross, a brace that is not closed, and two dimensions behind it. -/
theorem ParseM.lookahead_exact_crossing :
    ∃ kinds q, upcoming (.ofFuel .standard 0) (.ofSource "([)]\x7b [1][] x") = some (kinds, q) ∧
      IsLeast {stop | 0 < stop ∧
        (Parser.ofSource "([)]\x7b [1][] x").Balances .openParen .closeParen 0 stop} 2 ∧
      IsLeast {stop | 1 < stop ∧
        (Parser.ofSource "([)]\x7b [1][] x").Balances .openBracket .closeBracket 1 stop} 3 ∧
      (∃ stop, (Parser.ofSource "([)]\x7b [1][] x").SearchReaches .openBrace .closeBrace 4 stop ∧
        (Parser.ofSource "([)]\x7b [1][] x").kindAhead stop = .eof) ∧
      IsGreatest {stop | 5 ≤ stop ∧
        AreDimensions ((Parser.ofSource "([)]\x7b [1][] x").kindsAhead 5 stop)} 10 := by
  have hupcoming : (upcoming (.ofFuel .standard 0) (.ofSource "([)]\x7b [1][] x")).map Prod.fst =
      some [.openParen, .openBracket, .closeParen, .closeBracket, .openBrace, .openBracket,
        .decimalIntegerLiteral, .closeBracket, .openBracket, .closeBracket, .identifier, .eof] := by
    decide +kernel
  obtain ⟨kinds, q, hrun, -, hkinds, hexact⟩ :=
    lookahead_exact (Parser.valid_ofSource "([)]\x7b [1][] x") (.ofFuel .standard 0)
  rw [hrun, Option.map_some, Option.some.injEq] at hupcoming
  subst hupcoming
  refine ⟨_, q, hrun, ?_, ?_, ?_, ?_⟩
  · exact (((hexact 0).1 _ _ (by decide) (hkinds 0)).1 2).mp (by decide)
  · exact (((hexact 1).1 _ _ (by decide) (hkinds 1)).1 2).mp (by decide)
  · exact (((hexact 4).1 _ _ (by decide) (hkinds 4)).2.1).mp (by decide)
  · obtain ⟨stop, hgreatest, -, hafter⟩ := (hexact 5).2
    have hdimensions : afterDimensions? [.openBracket, .decimalIntegerLiteral, .closeBracket,
        .openBracket, .closeBracket, .identifier, .eof] = some [.identifier, .eof] := by
      decide +kernel
    have hrest := hdimensions.symm.trans hafter
    split at hrest
    · cases hrest
    · have hlength := congrArg List.length (Option.some.inj hrest)
      have hstop : stop = 10 := by
        rw [List.length_drop] at hlength
        simp only [List.length_cons, List.length_nil] at hlength
        omega
      exact hstop ▸ hgreatest

end TolerantSyntax
