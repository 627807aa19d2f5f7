import TolerantSyntax.Parse
import TolerantSyntax.Proofs.Parse.Fragment

/-!
# Every parse comes to an end

The fuel that a parse starts with is more than enough: a rule that is entered at the same place as
the one that refers to it ranks lower, and there are ten ranks.
-/

namespace TolerantSyntax

theorem Strategy.admissible_standard : Strategy.standard.Admissible :=
  fun _ _ _ => Or.inl rfl

/-- No more is ahead than the source has. -/
theorem Parser.left_le_length {parser : Parser} (hv : parser.Valid) :
    parser.left ≤ parser.reader.scanner.source.length := by
  have hplace : TokenReader.IsAt parser.reader parser.reader.place := hv
  obtain ⟨before, hs, -⟩ := hplace.valid
  have hsource := (Scanner.same_take parser.reader.place parser.reader.buffer.length).1
  rw [hplace.ahead] at hsource
  rw [hsource, hs, List.length_append]
  exact Nat.le_add_left ..

/-- The fuel of a source lets all rules return, wherever the parse stands. -/
theorem Parser.returns_fuel {strategy : Strategy} (h : strategy.Admissible) {parser : Parser}
    (hv : parser.Valid) :
    (Env.ofFuel strategy parser.fuel).Returns parser.left Rule.maxRank := by
  refine Env.returns_ofFuel h ?_
  have hle := left_le_length hv
  simp only [Rule.maxRank, fuel]
  omega

theorem Parser.isSome_parseFragment {strategy : Strategy} (h : strategy.Admissible)
    (source : String) (kind : FragmentKind) :
    ((ofSource source).parseFragment strategy kind).isSome :=
  (ParseM.finishes_fragment kind).returns (Env.sound_ofFuel strategy _) (valid_ofSource source)
    (returns_fuel h (valid_ofSource source))

/-- **Every parse returns a tree**, with the standard strategy, and with any strategy of which each
answer, however it chooses from one to the next, is the standard one or one of those that are always
safe. -/
theorem parse_returns (source : String) (kind : FragmentKind) :
    (parseFragment source kind).isSome ∧
      ∀ strategy : Strategy, strategy.Admissible →
        (parseWith source { fragment := kind, strategy? := some strategy }).isSome := by
  refine ⟨?_, fun strategy hadm => ?_⟩
  · rw [parseFragment, parseWith, Option.isSome_map]
    exact Parser.isSome_parseFragment Strategy.admissible_standard source kind
  · rw [parseWith, Option.isSome_map]
    exact Parser.isSome_parseFragment hadm source kind

/-- Keeping and putting in by turns. -/
theorem parse_returns_alternating :
    (parseWith "if ) \x7b" {
      fragment := .statement
      strategy? := some fun asked request _ =>
        if asked % 2 = 0 then .keep request.primary else .insert request.primary }).isSome := by
  refine (parse_returns _ _).2 _ fun asked request view => ?_
  by_cases h : asked % 2 = 0
  · exact Or.inr (Or.inr (Or.inr (Or.inl (if_pos h))))
  · exact Or.inr (Or.inr (Or.inl (if_neg h)))

end TolerantSyntax
