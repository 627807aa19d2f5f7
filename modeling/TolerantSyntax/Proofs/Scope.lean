import Mathlib.Logic.Relation
import TolerantSyntax.Proofs.Scope.Declaration

/-!
# A parse takes off what it puts on

Rules are in progress only while they run, and lexical modes are in force only within the rules that
begin them. So when an entry point returns, the rules in progress and the lexical modes are those
that it was called with. This holds of any state that it is called in, of any strategy, and however
much fuel there is, as long as it returns.
-/

namespace TolerantSyntax

/-! ## Rules that run -/

/-- Rules that run leave what is in force as it was, by induction on the fuel. -/
theorem Env.restores_ofFuel (strategy : Strategy) (fuel : Nat) :
    (ofFuel strategy fuel).Restores := by
  induction fuel with
  | zero => exact ⟨fun hrun => by cases hrun⟩
  | succ fuel ih =>
    exact ⟨fun {rule kind _ _ _} hrun => (ParseM.Restores.enter rule kind).run ih hrun⟩

/-! ## Operations -/

instance ParseM.Restores.enterContext {depth : Nat} (context : Context) :
    Restores depth (ParseM.enterContext context) := by
  unfold ParseM.enterContext
  split <;> infer_instance

/-- What a parser can be asked to do. -/
inductive Operation where
  | fragment (kind : FragmentKind)
  | statement
  | expression (floor : Precedence) (flags : ExpressionFlags)
  /-- Enter the rule of a context. -/
  | resumeContext (context : Context)
  /-- Enter the rule of a request. -/
  | resume (request : Request)
  /-- Get past the next token as the rule of a request would. -/
  | recover (request : Request)

namespace Operation

/-- What comes of it. -/
inductive Answer where
  | node (node : Node)
  /-- There is no rule to enter. -/
  | refused (error : ResumeError)
  | solution (solution : ParseM.Solution)

/-- How it is done. -/
def step : Operation → ParseM Answer
  | fragment kind => .node <$> ParseM.fragment kind
  | statement => .node <$> ParseM.statement
  | expression floor flags => .node <$> ParseM.expression floor flags
  | resumeContext context => do
    match ← ParseM.enterContext context with
    | .ok node => return .node node
    | .error error => return .refused error
  | resume request => .node <$> ParseM.resume request
  | recover request => .solution <$> ParseM.recover request

instance restores_step (operation : Operation) : ParseM.Restores 0 operation.step := by
  cases operation with
  | resumeContext context =>
    unfold step
    refine ParseM.Restores.behind fun result => ?_
    cases result <;> infer_instance
  | _ =>
    unfold step
    infer_instance

/-- Only a context can be refused, and that is found out before anything is read. -/
theorem eq_of_refused {operation : Operation} {env : Env} {before after : Parser}
    {error : ResumeError} (hrun : operation.step env before = some (.refused error, after)) :
    after = before := by
  cases operation with
  | resumeContext context =>
    obtain ⟨result, q, henter, hrun⟩ := ParseM.bind_eq_some_iff.mp hrun
    cases result with
    | ok node => cases hrun
    | error error' =>
      cases hrun
      cases hrequest : Request.ofContext context with
      | ok request =>
        rw [ParseM.enterContext, hrequest] at henter
        obtain ⟨node, _, hnode⟩ := ParseM.map_eq_some_iff.mp henter
        cases hnode
      | error _ =>
        rw [ParseM.enterContext, hrequest] at henter
        cases henter
        rfl
  | _ =>
    obtain ⟨_, _, hanswer⟩ := ParseM.map_eq_some_iff.mp hrun
    cases hanswer

end Operation

/-- **An operation that returns leaves the rules in progress and the lexical modes as it found
them**, and does not go back in the source. One that is refused changes nothing at all. -/
theorem Operation.scopes_of_step {operation : Operation} {strategy : Strategy} {fuel : Nat}
    {before after : Parser} {answer : Answer}
    (hrun : operation.step (.ofFuel strategy fuel) before = some (answer, after)) :
    after.contexts = before.contexts ∧ after.reader.modes = before.reader.modes ∧
      before.reader.consumed ≤ after.reader.consumed ∧
      ∀ error, answer = .refused error → after = before := by
  obtain ⟨hcontexts, hmodes, hconsumed⟩ :=
    (restores_step operation).run (Env.restores_ofFuel strategy fuel) hrun
  refine ⟨hcontexts, hmodes, hconsumed, ?_⟩
  rintro error rfl
  exact eq_of_refused hrun

/-- In the middle of an import path and of a parameter list, with discarded text that waits, a
parameter with a default value is read and more is discarded. -/
theorem Operation.scopes_of_step_parameter :
    let before : Parser :=
      { Parser.ofSource "int x = ) 1, y" with
        reader := ((TokenReader.ofSource "int x = ) 1, y").startMode .code).startMode .importPath
        contexts := [.parameterList, .importDeclaration]
        pending := [.whitespace " "] }
    ∃ answer after,
      (Operation.resume (.parameter none)).step (.ofFuel .standard 40) before =
          some (answer, after) ∧
        after.contexts = [.parameterList, .importDeclaration] ∧
        after.reader.modes = [.importPath, .code] := by
  intro before
  have hsome :
      ((Operation.resume (.parameter none)).step (.ofFuel .standard 40) before).isSome := by
    decide +kernel
  obtain ⟨⟨answer, after⟩, hrun⟩ := Option.isSome_iff_exists.mp hsome
  obtain ⟨hcontexts, hmodes, -⟩ := scopes_of_step hrun
  exact ⟨answer, after, hrun, hcontexts, hmodes⟩

/-! ## Sessions -/

/-- An operation leads from the first state to the second. -/
def Parser.Performs (before after : Parser) : Prop :=
  ∃ (operation : Operation) (strategy : Strategy) (fuel : Nat) (answer : Operation.Answer),
    operation.step (.ofFuel strategy fuel) before = some (answer, after)

/-- However many operations a parser performs, and whatever strategies they use, they leave what is
in force as it was before the first one. -/
theorem Parser.restored_of_session {before after : Parser}
    (h : Relation.ReflTransGen Performs before after) : Restored 0 before after := by
  induction h with
  | refl => exact .refl before
  | tail _ hlast ih =>
    obtain ⟨operation, strategy, fuel, _, hrun⟩ := hlast
    have henv := Env.restores_ofFuel strategy fuel
    exact ih.trans ((Operation.restores_step operation).run henv hrun)

end TolerantSyntax
