import TolerantSyntax.Proofs.Termination

/-!
# Resuming a rule

Recovery discards tokens up to one that a rule says it can continue with, and enters the rule there.
What the rule says is true of most rules. It is not of those that are entered behind annotations and
qualifiers and name these among the tokens that they can continue with: they ask about such a token
again, and it is discarded too.
-/

namespace TolerantSyntax

/-- What enters a rule from nothing expects no form of the pieces before it. -/
theorem Request.wellFormed_of_ofContext? {context : Context} {request : Request}
    (h : Request.ofContext? context = some request) : (Rule.request request).WellFormed := by
  unfold Request.ofContext? at h
  split at h <;> cases h <;> trivial

namespace Parser

variable {parser : Parser} {strategy : Strategy} {request : Request}

/-- The rules that ask the strategy in the course of a parse expect the form of the pieces that they
have. -/
theorem wellFormed_of_consulted {source : String} {kind : FragmentKind} {tree : Node}
    {after : Parser} (hrun : (ofSource source).parseFragment strategy kind = some (tree, after))
    {c : Consultation} (hc : c ∈ after.consulted) : (Rule.request c.request).WellFormed := by
  have hl := ((ParseM.finishes_fragment kind).leads (Env.sound_ofFuel strategy _)
    (valid_ofSource source) hrun).1
  obtain ⟨asked, heq, hfrom⟩ := hl.asked
  rw [show (ofSource source).consulted = [] from rfl, List.append_nil] at heq
  exact (hfrom c (heq ▸ hc)).2

/-- A rule that is resumed enters at the next token, when that has been looked at. -/
theorem exists_call_of_resume (hv : parser.Valid) (hadm : strategy.Admissible)
    (hw : (Rule.request request).WellFormed) :
    ∃ node after q, parser.resume strategy request = some (node, after) ∧
      ParseM.Same parser q ∧ q.consulted = parser.consulted ∧
      (Env.ofFuel strategy parser.fuel).call (.request request) q.ahead q = some (node, after) := by
  have hsound : (Env.ofFuel strategy parser.fuel).Sound := Env.sound_ofFuel strategy parser.fuel
  have hreads : ParseM.Reads Rule.maxRank (Rule.request request).given (ParseM.resume request)
      .node := ParseM.reads_resume hw (Rule.rank_lt_maxRank _) rfl
  obtain ⟨⟨node, after⟩, hrun⟩ := Option.isSome_iff_exists.mp
    (hreads.returns hsound hv trivial (returns_fuel hadm hv))
  obtain ⟨kind, q, hnext, hsame, rfl, hcall⟩ := ParseM.looks_nextKind.exists_of_bind hv hrun
  refine ⟨node, after, q, hrun, hsame, ParseM.looks_nextKind.silent hnext, ?_⟩
  rw [hsame.ahead]
  exact hcall

/-- **A rule that is resumed at a token that it says it can continue with returns, and consumes the
token without having asked the strategy, exactly if it does not overstate what it can do.** -/
theorem resume_heeds_iff (hv : parser.Valid) (hadm : strategy.Admissible)
    (hw : (Rule.request request).WellFormed) (hne : parser.ahead ≠ .eof)
    (haccepts : request.accepts parser.ahead = true) :
    ∃ node after, parser.resume strategy request = some (node, after) ∧
      (parser.Heeds after ↔ request.overstates parser.ahead parser.second = false) := by
  obtain ⟨node, after, q, hrun, hsame, hsilent, hcall⟩ := exists_call_of_resume hv hadm hw
  refine ⟨node, after, hrun, ?_⟩
  rw [← hsame.ahead, ← hsame.second]
  rw [← hsame.ahead] at haccepts hne
  cases hoverstates : request.overstates q.ahead q.second with
  | true =>
    have hnot := Env.not_heeds_ofFuel hsame.valid hoverstates hcall
    exact iff_of_false (fun h => hnot (hsame.of_heeds hsilent h)) Bool.false_ne_true.symm
  | false =>
    have hcontinues : (Rule.request request).continues q.ahead q.second = true := by
      rw [Rule.continues, haccepts, hoverstates]
      rfl
    have hheeds := (Env.heeds_ofFuel strategy parser.fuel).call hw hsame.valid hne hcontinues hcall
    exact iff_of_true (hsame.heeds hsilent hheeds) rfl

/-- A qualifier before a declaration is asked about, though it has been accepted. -/
theorem resume_heeds_iff_public :
    ∃ node after,
      (ofSource "public int x;").resume .standard (.moduleMember none []) = some (node, after) ∧
        ¬(ofSource "public int x;").Heeds after := by
  have hahead : (ofSource "public int x;").ahead = .publicKeyword := by decide +kernel
  obtain ⟨node, after, hrun, hiff⟩ := @resume_heeds_iff (ofSource "public int x;") .standard
    (.moduleMember none []) (valid_ofSource _) Strategy.admissible_standard trivial
    (by rw [hahead]; decide) (by rw [hahead]; decide)
  refine ⟨node, after, hrun, fun hheeds => ?_⟩
  have hstated := hiff.mp hheeds
  rw [hahead] at hstated
  cases hstated

end Parser

end TolerantSyntax
