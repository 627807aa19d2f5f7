import TolerantSyntax.Grammar.Run
import TolerantSyntax.Proofs.Parse.Declaration
import TolerantSyntax.Proofs.Parse.Statement

/-!
# Running rules

Every rule is entered with what it relies on, so the recursion over the fuel carries it from one
rule to the next: rules that run lead onward, whatever the fuel and the strategy, and with ten units
for each character that is left they all return.
-/

namespace TolerantSyntax

namespace Rule

variable {rule : Rule} {kind ahead : Kind}

theorem le_rank (rule : Rule) (kind : Kind) : 2 * rule.level ≤ rule.rank kind := by
  rw [rank]
  omega

theorem lt_rank (rule : Rule) (h : kind ≠ rule.primary) : 2 * rule.level + 1 ≤ rule.rank kind := by
  rw [rank, if_neg h]

/-- Only what is assigned to a pattern is taken for a kind that would not be put in. -/
theorem Takes.taken (h : rule.Takes kind ahead)
    (hr : ∀ annotations lhs, rule ≠ .request (.statementRhs annotations lhs)) :
    ahead = kind ∨ kind = rule.primary := by
  rcases h with h | h | ⟨annotations, lhs, h, -⟩
  · exact Or.inl h
  · exact Or.inr h
  · exact absurd h (hr annotations lhs)

end Rule

namespace ParseM

/-! ## Entering rules -/

theorem meets_enterRequest {request : Request} (kind : Kind)
    (hw : (Rule.request request).WellFormed) :
    Enters ((Rule.request request).Takes kind) ((Rule.request request).rank kind)
      (Rule.request request).given (enterRequest request kind) .node (fun _ => False) := by
  have hle := (Rule.request request).le_rank kind
  -- a rule that is entered with another kind than its primary one may be read again with that
  have hlt : kind ≠ (Rule.request request).primary → _ := (Rule.request request).lt_rank
  cases request with
  | token context expected => exact (reads_expectAs kind expected context).weaken
  | listEnd context close item => exact (reads_listEndAs kind context close item).weaken
  | importDeclaration => exact opens_importDeclaration.reads.weaken
  | moduleMember metadata qualifiers =>
    exact (meets_moduleMemberAs metadata qualifiers hle hlt).mono (fun _ h => h.taken (by simp))
      (fun _ hf => hf)
  | statement annotations =>
    exact (meets_statementAs annotations hle hlt).mono (fun _ h => h.taken (by simp))
      (fun _ hf => hf)
  | statementRhs annotations lhs =>
    exact (reads_statementRhsAs annotations lhs hle hlt).mono (fun _ _ => trivial) (fun _ hf => hf)
  | classMember metadata qualifiers objectType =>
    exact (meets_classMemberAs metadata qualifiers objectType hle hlt).mono
      (fun _ h => h.taken (by simp)) (fun _ hf => hf)
  | recordField metadata =>
    exact (meets_recordFieldAs metadata hle hlt).mono (fun _ h => h.taken (by simp))
      (fun _ hf => hf)
  | parameter annotations =>
    exact (meets_parameterAs annotations hle hlt).mono (fun _ h => h.taken (by simp))
      (fun _ hf => hf)
  | argument =>
    exact (meets_argumentAs hle hlt).mono (fun _ h => h.taken (by simp)) (fun _ hf => hf)
  | typeDescriptor context =>
    exact (meets_typeDescriptorAs context hle).mono (fun _ h => h.taken (by simp)) (fun _ hf => hf)
  | bindingPattern =>
    exact (meets_bindingPatternAs hlt).mono (fun _ h => h.taken (by simp)) (fun _ hf => hf)
  | matchPattern =>
    exact (meets_matchPatternAs hlt).mono (fun _ h => h.taken (by simp)) (fun _ hf => hf)
  | expression floor flags =>
    exact (meets_expressionAs floor flags hle).mono (fun _ h => h.taken (by simp))
      (fun _ hf => hf)
  | functionBody =>
    exact (meets_functionBodyAs hle hlt).mono (fun _ h => h.taken (by simp)) (fun _ hf => hf)
  | variableRhs metadata qualifiers binding moduleLevel =>
    exact (meets_variableRhsAs metadata hw binding hlt).mono (fun _ h => h.taken (by simp))
      (fun _ hf => hf)
  | elseBody =>
    exact (meets_elseBodyAs hle hlt).mono (fun _ h => h.taken (by simp)) (fun _ hf => hf)
  | queryEnd pipeline flags =>
    exact (meets_queryEndAs flags hw hle hlt).mono (fun _ h => h.taken (by simp)) (fun _ hf => hf)
  | mappingField context =>
    exact (meets_mappingFieldAs context hle hlt).mono (fun _ h => h.taken (by simp))
      (fun _ hf => hf)

/-- **Every rule of the grammar makes one node of the pieces that it is given, and returns if all
rules below it do, and all rules behind a token.** -/
theorem meets_enter {rule : Rule} (kind : Kind) (hw : rule.WellFormed) :
    Enters (rule.Takes kind) (rule.rank kind) rule.given (enter rule kind) .node
      (fun _ => False) := by
  cases rule with
  | request request => exact meets_enterRequest kind hw
  | operand floor flags =>
    have hlt : kind ≠ .identifier → 1 ≤ _ := (Rule.operand floor flags).lt_rank
    exact (meets_operandAs floor flags hlt).mono (fun _ h => h.taken (by simp)) (fun _ hf => hf)
  | primaryType context =>
    have hlt : kind ≠ .identifier → 1 ≤ _ := (Rule.primaryType context).lt_rank
    exact (meets_primaryTypeAs context hlt).mono (fun _ h => h.taken (by simp)) (fun _ hf => hf)

/-! ## What rules go on with -/

theorem heeds_enterRequest {request : Request} (kind : Kind)
    (hw : (Rule.request request).WellFormed) :
    Heeds (fun k s => k = kind ∧ (Rule.request request).continues k s = true)
      (enterRequest request kind) := by
  cases request with
  | token context expected => exact heeds_expectAs kind expected context
  | listEnd context close item => exact heeds_listEndAs kind context close item
  | importDeclaration =>
    refine opens_importDeclaration.begins.heedsWhere fun k s h _ => ?_
    simpa [Rule.continues, Request.accepts, Request.overstates] using h.2
  | moduleMember metadata qualifiers => exact heeds_moduleMemberAs kind metadata qualifiers
  | statement annotations => exact heeds_statementAs kind annotations
  | statementRhs annotations lhs => exact heeds_statementRhsAs kind annotations lhs
  | classMember metadata qualifiers objectType =>
    exact heeds_classMemberAs kind metadata qualifiers objectType
  | recordField metadata => exact heeds_recordFieldAs kind metadata
  | parameter annotations => exact heeds_parameterAs kind annotations
  | argument => exact heeds_argumentAs kind
  | typeDescriptor context =>
    refine (heeds_typeDescriptorAs kind context).mono fun k s h => ⟨h.1, ?_⟩
    simpa [Rule.continues, Request.accepts, Request.overstates] using h.2
  | bindingPattern => exact heeds_bindingPatternAs kind
  | matchPattern => exact heeds_matchPatternAs kind
  | expression floor flags =>
    refine (heeds_expressionAs kind floor flags).mono fun k s h =>
      ⟨h.1, Starts.operand_of_expression ?_⟩
    simpa [Rule.continues, Request.accepts, Request.overstates] using h.2
  | functionBody => exact heeds_functionBodyAs kind
  | variableRhs metadata qualifiers binding moduleLevel =>
    exact heeds_variableRhsAs metadata hw binding kind
  | elseBody => exact heeds_elseBodyAs kind
  | queryEnd pipeline flags => exact heeds_queryEndAs kind flags hw
  | mappingField context => exact heeds_mappingFieldAs kind context

theorem heeds_enter {rule : Rule} (kind : Kind) (hw : rule.WellFormed) :
    Heeds (fun k s => k = kind ∧ rule.continues k s = true) (enter rule kind) := by
  cases rule with
  | request request => exact heeds_enterRequest kind hw
  | operand floor flags => exact heeds_operandAs kind floor flags
  | primaryType context => exact heeds_primaryTypeAs kind context

/-- A rule that says more than it can do asks the strategy at once. -/
theorem asks_enterRequest (request : Request) (kind : Kind) :
    Asks (fun _ s => request.overstates kind s = true) (enterRequest request kind) := by
  cases request with
  | moduleMember metadata qualifiers => exact asks_moduleMemberAs kind metadata qualifiers
  | statement annotations => exact asks_statementAs kind annotations
  | classMember metadata qualifiers objectType =>
    exact asks_classMemberAs kind metadata qualifiers objectType
  | recordField metadata => exact asks_recordFieldAs kind metadata
  | parameter annotations => exact asks_parameterAs kind annotations
  | _ => exact Asks.unreachable fun _ _ h => Bool.false_ne_true h

end ParseM

/-! ## Running them -/

namespace Env

/-- **Rules that run lead onward, whatever the strategy answers and however far the fuel goes.** -/
theorem sound_ofFuel (strategy : Strategy) (fuel : Nat) : (ofFuel strategy fuel).Sound := by
  induction fuel with
  | zero =>
    intro rule kind before after node _ _ hrun
    cases hrun
  | succ fuel ih =>
    intro rule kind before after node hw hv hrun
    exact (ParseM.meets_enter kind hw).leads ih hv hrun

/-- **Rules that run heed the tokens that they continue with.** -/
theorem heeds_ofFuel (strategy : Strategy) (fuel : Nat) : (ofFuel strategy fuel).Heeds := by
  induction fuel with
  | zero => exact ⟨fun _ _ _ _ hrun => by cases hrun⟩
  | succ fuel ih =>
    refine ⟨fun {rule before after node} hw hv hne hc hrun => ?_⟩
    exact (ParseM.heeds_enter before.ahead hw).heeds (sound_ofFuel strategy fuel) ih hv hne
      ⟨rfl, hc⟩ hrun

/-- A rule that runs where it says more than it can do does not heed the next token. -/
theorem not_heeds_ofFuel {strategy : Strategy} {fuel : Nat} {request : Request}
    {before after : Parser} {node : Node} (hv : before.Valid)
    (ho : request.overstates before.ahead before.second = true)
    (hrun : (ofFuel strategy fuel).call (.request request) before.ahead before =
      some (node, after)) : ¬before.Heeds after := by
  cases fuel with
  | zero => cases hrun
  | succ fuel =>
    exact ((ParseM.asks_enterRequest request before.ahead).asks (sound_ofFuel strategy fuel) hv ho
      hrun).not_heeds

/-- **Rules that run return, if the fuel is ten units for each character ahead and a little more.**
A rule that is referred to ranks lower or has less ahead. -/
theorem returns_ofFuel {strategy : Strategy} (hadm : strategy.Admissible) {fuel left bound : Nat}
    (hfuel : 10 * left + bound + 8 ≤ fuel) : (ofFuel strategy fuel).Returns left bound := by
  induction fuel generalizing left bound with
  | zero => omega
  | succ fuel ih =>
    refine ⟨hadm, ?_, ?_⟩
    · show 4 * left + 8 ≤ fuel + 1
      omega
    · intro rule kind parser hw hv htakes hlt
      -- one unit pays for entering the rule, and the rest is enough for what it refers to
      have hrank := rule.rank_le kind
      have hlevel := rule.rank_lt_maxRank
      refine (ParseM.meets_enter kind hw).returns (sound_ofFuel strategy fuel) hv htakes (ih ?_)
      simp only [Rule.maxRank] at hlevel
      omega

end Env

end TolerantSyntax
