import TolerantSyntax.Parse
import TolerantSyntax.Proofs.Parse.Meets

/-!
# Actions that are not allowed

An expression that is read where no action is allowed may still be an action, and then it is
flagged, also within parentheses. Whether actions are allowed is said before the expression is read.
So the right operand of an operator is never an action without a flag. The left operand is read
before its operator is seen, and nobody goes back to it.
-/

namespace TolerantSyntax

/-! ## Actions and parentheses -/

/-- Is a node of this kind an action that has to be flagged where none is allowed? An action behind
`check` has its own flag. -/
def Kind.needsFlag (kind : Kind) : Bool :=
  kind.isAction && kind != .checkAction

/-- Is a node of this kind neither an action nor parentheses around something? -/
def Kind.isPlain (kind : Kind) : Bool :=
  !kind.needsFlag && kind != .bracedExpression

namespace Node

/-- A node is another one, or has it in parentheses, however many there are. -/
inductive Wraps : Node → Node → Prop where
  | self (node : Node) : Wraps node node
  | braced {outer inner node : Node} (hk : outer.kind = .bracedExpression)
      (hs : outer.slot? 1 = some inner) (h : Wraps inner node) : Wraps outer node

/-- If the node is an action, in parentheses or not, it says that it is not allowed. -/
def FlagsAction (node : Node) : Prop :=
  ∀ action, node.Wraps action → action.kind.needsFlag = true →
    ∃ diagnostic ∈ action.ownDiagnostics, diagnostic.code = .actionNotAllowed

theorem flagsAction_of_isPlain {node : Node} (h : node.kind.isPlain = true) : node.FlagsAction := by
  obtain ⟨hflag, hbraced⟩ := Bool.and_eq_true_iff.mp h
  intro action hwraps hneeds
  cases hwraps with
  | self => rw [hneeds] at hflag; cases hflag
  | braced hk => exact absurd hk (bne_iff_ne.mp hbraced)

theorem flagsAction_braced {opening inner close : Node} (h : inner.FlagsAction) :
    (of .bracedExpression [opening, inner, close]).FlagsAction := by
  intro action hwraps hneeds
  cases hwraps with
  | self => cases hneeds
  | braced _ hs hwraps =>
    cases hs
    exact h action hwraps hneeds

theorem flagsAction_withDiagnostic {node : Node} (h : node.kind ≠ .bracedExpression) :
    (node.withDiagnostic .actionNotAllowed).FlagsAction := by
  intro action hwraps _
  cases hwraps with
  | self =>
    cases node <;> exact ⟨_, List.mem_append_right _ (List.mem_singleton_self _), rfl⟩
  | braced hk => exact absurd ((kind_withDiagnostic node _).symm.trans hk) h

end Node

/-! ## What a step ensures -/

namespace ParseM

variable {α β : Type} {env : Env}

/-- Whatever the state, the result of the step is `good`. -/
structure Ensures (env : Env) (step : ParseM α) (good : α → Prop) : Prop where
  run : ∀ {before after : Parser} {a : α}, step env before = some (a, after) → good a

namespace Ensures

variable {m n : ParseM α} {good : α → Prop}

theorem pure {a : α} (h : good a) : Ensures env (Pure.pure a) good := by
  constructor
  intro _ _ _ hrun
  cases hrun
  exact h

/-- Of any step, nothing. -/
theorem any (m : ParseM α) : Ensures env m fun _ => True :=
  ⟨fun _ => trivial⟩

theorem bind {f : α → ParseM β} {good' : β → Prop} (hm : Ensures env m good)
    (hf : ∀ a, good a → Ensures env (f a) good') : Ensures env (m >>= f) good' := by
  constructor
  intro _ _ _ hrun
  obtain ⟨a, _, hma, hfa⟩ := bind_eq_some_iff.mp hrun
  exact (hf a (hm.run hma)).run hfa

/-- Only the result of the last step counts. -/
theorem behind {f : α → ParseM β} {good' : β → Prop} (hf : ∀ a, Ensures env (f a) good') :
    Ensures env (m >>= f) good' :=
  bind (any m) fun a _ => hf a

theorem ite {c : Prop} [Decidable c] (hm : Ensures env m good) (hn : Ensures env n good) :
    Ensures env (if c then m else n) good := by
  split
  · exact hm
  · exact hn

theorem within {context : Context} (hm : Ensures env m good) :
    Ensures env (ParseM.within context m) good := by
  constructor
  intro _ _ _ hrun
  obtain ⟨_, hma, _⟩ := within_eq_some_iff.mp hrun
  exact hm.run hma

theorem repeatUpTo {step : α → ParseM (α ⊕ β)} {result : β → Prop}
    (hstep : ∀ a, good a → Ensures env (step a) (Sum.elim good result)) (fuel : Nat) {start : α}
    (hstart : good start) : Ensures env (ParseM.repeatUpTo step fuel start) result := by
  induction fuel generalizing start with
  | zero =>
    constructor
    intro _ _ _ hrun
    cases hrun
  | succ fuel ih =>
    refine (hstep start hstart).bind fun turn hturn => ?_
    cases turn with
    | inl next => exact ih hturn
    | inr result => exact pure hturn

/-- What holds of the start and is kept by every turn holds of the turns that are made, and the last
of them gives the result. -/
theorem loop {step : α → ParseM (α ⊕ β)} {result : β → Prop} {start : α} (hstart : good start)
    (hstep : ∀ a, good a → Ensures env (step a) (Sum.elim good result)) :
    Ensures env (ParseM.loop start step) result :=
  ⟨fun hrun => (repeatUpTo hstep env.fuel hstart).run hrun⟩

end Ensures

end ParseM

/-! ## Rules -/

/-- Is it an expression, or the rest of one, without actions? -/
def Rule.forbidsActions : Rule → Bool
  | .request (.expression _ flags) | .request (.queryEnd _ flags) | .operand _ flags =>
    !flags.allowActions
  | _ => false

/-- Where no action is allowed, rules flag those that they read. -/
structure Env.FlagsActions (env : Env) : Prop where
  call : ∀ {rule : Rule} {kind : Kind} {before after : Parser} {node : Node},
    rule.forbidsActions = true → env.call rule kind before = some (node, after) → node.FlagsAction

namespace ParseM

variable {env : Env} {flags : ExpressionFlags}

/-- An action that the step gives is flagged. -/
abbrev Flags (env : Env) (step : ParseM Node) : Prop :=
  Ensures env step Node.FlagsAction

/-! ## Expressions within others -/

theorem flags_parseAs (he : env.FlagsActions) {rule : Rule} (h : rule.forbidsActions = true)
    (kind : Kind) : Flags env (parseAs rule kind) :=
  ⟨fun hrun => he.call h hrun⟩

theorem flags_parse (he : env.FlagsActions) {rule : Rule} (h : rule.forbidsActions = true) :
    Flags env (parse rule) :=
  .behind fun kind => flags_parseAs he h kind

theorem flags_expression (he : env.FlagsActions) (hf : flags.allowActions = false)
    (floor : Precedence) : Flags env (expression floor flags) :=
  flags_parse he (by rw [Rule.forbidsActions, hf]; rfl)

/-- Where recovery discards tokens, it gives what the request reads behind them. -/
theorem ensures_recover (he : env.FlagsActions) {request : Request}
    (h : (Rule.request request).forbidsActions = true) :
    Ensures env (recover request) fun solution =>
      ∀ node, solution = .remove node → node.FlagsAction := by
  refine .behind fun decision => ?_
  cases decision with
  | keep kind => exact .pure nofun
  | insert kind => exact .behind fun _ => .pure nofun
  | remove =>
    refine .behind fun _ => (flags_parse he h).bind fun node hnode => .pure ?_
    rintro _ ⟨⟩
    exact hnode

/-- However recovery gets past a token, a rule that flags actions gives the node. -/
theorem flags_recoverAs (he : env.FlagsActions) {rule : Rule} {request : Request}
    {whenMissing : Node → ParseM Node} (hrule : rule.forbidsActions = true)
    (hrequest : (Rule.request request).forbidsActions = true)
    (hmissing : ∀ token, Flags env (whenMissing token)) :
    Flags env (recoverAs rule request whenMissing) := by
  refine (ensures_recover he hrequest).bind fun solution hsolution => ?_
  cases solution with
  | keep kind => exact flags_parseAs he hrule kind
  | insert kind token => exact hmissing token
  | remove node => exact .pure (hsolution node rfl)

/-! ## Nodes -/

/-- A node that is neither an action nor parentheses. -/
theorem flags_made {kind : Kind} {slots : List (Option Node)} (h : kind.isPlain = true) :
    Flags env (pure (.composite kind slots [])) :=
  .pure (Node.flagsAction_of_isPlain h)

theorem flagsAction_checkAction {action : Node} (hf : flags.allowActions = false)
    (h : action.kind ≠ .bracedExpression) : (checkAction action flags).FlagsAction := by
  rw [checkAction, if_neg (by rw [hf]; exact Bool.false_ne_true)]
  exact Node.flagsAction_withDiagnostic h

/-- An action that goes through the check. -/
theorem flags_checkAction {kind : Kind} {slots : List (Option Node)}
    (hf : flags.allowActions = false) (h : (kind != .bracedExpression) = true) :
    Flags env (pure (checkAction (.composite kind slots []) flags)) :=
  .pure (flagsAction_checkAction hf (bne_iff_ne.mp h))

/-! ## Operators -/

theorem flags_remoteCallOrSend (hf : flags.allowActions = false) (target : Node) :
    Flags env (remoteCallOrSend target flags) := by
  have hcall (arrow : Node) :
      Ensures env (remoteCallAfter target arrow) fun action => action.kind ≠ .bracedExpression :=
    .within (.behind fun _ => .behind fun _ => .pure nofun)
  refine .behind fun _ => .behind fun _ => .behind fun isCall => .behind fun arrow => .ite ?_ ?_
  · exact (hcall arrow).bind fun _ haction => .pure (flagsAction_checkAction hf haction)
  · exact .behind fun _ => flags_checkAction hf rfl

theorem flags_syncSend (hf : flags.allowActions = false) (message : Node) :
    Flags env (syncSend message flags) :=
  .behind fun _ => .behind fun _ => flags_checkAction hf rfl

theorem flags_foldOperator (hf : flags.allowActions = false) (lhs : Node) (level : Precedence)
    (width : Nat) : Flags env (foldOperator lhs level width flags) := by
  refine .behind fun kind => ?_
  split
  -- most make a node of their own behind the operator and what follows it
  any_goals exact .behind fun _ => .behind fun _ => flags_made rfl
  · exact .behind fun _ => flags_made rfl
  · exact .behind fun _ => .behind fun _ => .behind fun _ =>
      .ite (.behind fun _ => flags_made rfl) (flags_made rfl)
  · exact flags_remoteCallOrSend hf lhs
  · exact flags_syncSend hf lhs
  · exact .within (.behind fun _ => .behind fun _ => .behind fun _ => .behind fun _ =>
      flags_made rfl)

/-- Folding operators leaves the operand as it is, or makes it a part of something else. -/
theorem flags_operatorsAfter (hf : flags.allowActions = false) (floor : Precedence)
    {operand : Node} (h : operand.FlagsAction) :
    Flags env (operatorsAfter floor operand flags) := by
  refine .loop h fun lhs hlhs => .behind fun operator? => ?_
  cases operator? with
  | some operator =>
    exact (flags_foldOperator hf lhs operator.1 operator.2).bind fun _ hnode => .pure hnode
  | none => exact .pure hlhs

/-! ## Queries -/

theorem flags_queryEndAs (he : env.FlagsActions) (hf : flags.allowActions = false) (kind : Kind)
    (pipeline : Node) : Flags env (queryEndAs kind pipeline flags) := by
  have hrest (pipeline : Node) :
      (Rule.request (.queryEnd pipeline flags)).forbidsActions = true := by
    rw [Rule.forbidsActions, hf]
    rfl
  have hselect (keyword : Node) : Flags env (selectAfter pipeline keyword) :=
    .behind fun _ => flags_made rfl
  refine .ite (.behind hselect) (.ite ?_ (.ite ?_ ?_))
  · exact .within (.behind fun _ => .behind fun _ => flags_checkAction hf rfl)
  · exact .behind fun clause => flags_parse he (hrest _)
  · exact flags_recoverAs he (hrest _) (hrest _) hselect

theorem flags_query (he : env.FlagsActions) (hf : flags.allowActions = false) :
    Flags env (query flags) := by
  refine .within (.behind fun _ => .behind fun _ => flags_parse he ?_)
  rw [Rule.forbidsActions, hf]
  rfl

/-! ## Operands -/

theorem flags_arrowFunctionAfter (parameters : Node) :
    Flags env (arrowFunctionAfter parameters flags) :=
  .behind fun _ => .behind fun _ => flags_made rfl

theorem flags_bracedOrArrowFunction (he : env.FlagsActions) (hf : flags.allowActions = false) :
    Flags env (bracedOrArrowFunction flags) := by
  refine .behind fun _ => .ite ?_ (.within ?_)
  · exact .within (.behind fun _ => .behind fun _ => .behind fun _ => flags_arrowFunctionAfter _)
  refine .behind fun opening => .behind fun isEmpty => .ite (.behind fun _ => flags_made rfl) ?_
  have hnested : flags.nested.allowActions = false := hf
  refine (flags_expression he hnested .default).bind fun inner hinner => .behind fun close => ?_
  exact .pure (Node.flagsAction_braced hinner)

theorem flags_nameOrArrowFunction : Flags env (nameOrArrowFunction flags) := by
  have hname : Flags env (nameReference flags.inConditional) :=
    .behind fun _ => .behind fun _ =>
      .ite (.behind fun _ => .behind fun _ => flags_made rfl) (flags_made rfl)
  have harrow : Flags env (namedArrowFunction flags) :=
    .within (.behind fun _ => flags_arrowFunctionAfter _)
  exact .behind fun _ => .ite harrow hname

/-- The action behind `check` is a part of what is made. -/
theorem flags_checkExpression : Flags env (checkExpression flags) := by
  have hresult (keyword operand : Node) : Flags env (pure (.of
      (if operand.kind.isAction then .checkAction else .checkExpression) [keyword, operand])) := by
    refine .pure ?_
    split <;> exact Node.flagsAction_of_isPlain rfl
  exact .behind fun keyword => .behind fun first => .behind fun kind =>
    .ite (.behind fun operand => hresult keyword operand) (hresult keyword first)

theorem flags_typeCast : Flags env (typeCast flags) :=
  .within (.behind fun _ => .behind fun _ => .behind fun _ => .ite
    (.behind fun _ => .behind fun _ => .behind fun _ => flags_made rfl)
    (.behind fun _ => .behind fun _ => .behind fun _ => flags_made rfl))

theorem flags_errorConstructor : Flags env errorConstructor :=
  .behind fun _ => .behind fun _ => .behind fun _ => flags_made rfl

theorem flags_anonymousFunction : Flags env anonymousFunction :=
  .within (.behind fun _ => .behind fun _ => .behind fun _ => .behind fun _ => flags_made rfl)

theorem flags_newExpression : Flags env newExpression := by
  refine .within (.behind fun keyword => .behind fun kind => ?_)
  split
  · exact .behind fun _ => flags_made rfl
  · exact .behind fun _ => .behind fun _ => flags_made rfl
  · exact .behind fun _ => .behind fun _ => flags_made rfl
  · exact flags_made rfl

theorem flags_letExpression : Flags env (letExpression flags) :=
  .within (.behind fun _ => .behind fun _ => .behind fun _ => flags_made rfl)

theorem flags_startAction (hf : flags.allowActions = false) : Flags env (startAction flags) :=
  .behind fun _ => .within (.behind fun _ => .behind fun _ => flags_checkAction hf rfl)

theorem flags_waitAction (hf : flags.allowActions = false) : Flags env (waitAction flags) :=
  .within (.behind fun _ => .behind fun _ => .ite
    (.behind fun _ => flags_checkAction hf rfl) (.behind fun _ => flags_checkAction hf rfl))

theorem flags_flushAction (hf : flags.allowActions = false) : Flags env (flushAction flags) :=
  .behind fun _ => .behind fun _ => .ite
    (.behind fun _ => flags_checkAction hf rfl) (flags_checkAction hf rfl)

theorem flags_operandAs (he : env.FlagsActions) (hf : flags.allowActions = false) (kind : Kind)
    (floor : Precedence) : Flags env (operandAs kind floor flags) := by
  refine .behind fun isTyped => .ite ?_ (.ite (.behind fun _ => flags_made rfl) ?_)
  · exact .behind fun _ => .behind fun _ => .behind fun _ => flags_made rfl
  have hforbids : (!flags.allowActions) = true := by rw [hf]; rfl
  split
  -- constructors and prefix operators make nodes of their own
  any_goals exact .behind fun _ => .behind fun _ => flags_made rfl
  · exact flags_nameOrArrowFunction
  · exact flags_bracedOrArrowFunction he hf
  · exact flags_checkExpression
  · exact flags_checkExpression
  · exact flags_typeCast
  · exact flags_errorConstructor
  · exact flags_anonymousFunction
  · exact flags_anonymousFunction
  · exact flags_anonymousFunction
  · exact flags_newExpression
  · exact flags_letExpression
  · exact flags_query he hf
  · exact flags_startAction hf
  · exact flags_startAction hf
  · exact flags_waitAction hf
  · exact flags_flushAction hf
  · exact .behind fun _ => flags_checkAction hf rfl
  · exact .behind fun _ => .behind fun _ => flags_checkAction hf rfl
  · exact flags_recoverAs he hforbids hforbids fun _ => flags_made rfl

theorem flags_expressionAs (he : env.FlagsActions) (hf : flags.allowActions = false) (kind : Kind)
    (floor : Precedence) : Flags env (expressionAs kind floor flags) := by
  have hforbids : (Rule.operand floor flags).forbidsActions = true := by
    rw [Rule.forbidsActions, hf]
    rfl
  exact .within ((flags_parseAs he hforbids kind).bind fun _ h => flags_operatorsAfter hf floor h)

end ParseM

/-! ## Whole expressions -/

/-- However much fuel there is, and whatever the strategy answers. -/
theorem Env.flagsActions_ofFuel (strategy : Strategy) (fuel : Nat) :
    (Env.ofFuel strategy fuel).FlagsActions := by
  induction fuel with
  | zero =>
    constructor
    intro _ _ _ _ _ _ hrun
    cases hrun
  | succ fuel ih =>
    constructor
    intro rule kind before after node hforbids hrun
    have hallowed {flags : ExpressionFlags} (h : (!flags.allowActions) = true) :
        flags.allowActions = false := Bool.not_eq_true' _ ▸ h
    cases rule with
    | operand floor flags =>
      exact (ParseM.flags_operandAs ih (hallowed hforbids) kind floor).run hrun
    | primaryType context => cases hforbids
    | request request =>
      cases request with
      | expression floor flags =>
        exact (ParseM.flags_expressionAs ih (hallowed hforbids) kind floor).run hrun
      | queryEnd pipeline flags =>
        exact (ParseM.flags_queryEndAs ih (hallowed hforbids) kind pipeline).run hrun
      | _ => cases hforbids

variable {strategy : Strategy} {fuel : Nat} {before after : Parser} {node : Node}

/-- An expression that is read where no action is allowed flags the action that it is, wherever the
parse stands. -/
theorem flagsAction_of_parseExpression {floor : Precedence} {flags : ExpressionFlags}
    (hf : flags.allowActions = false)
    (hrun : before.parseExpression strategy floor flags = some (node, after)) : node.FlagsAction :=
  (ParseM.flags_expression (Env.flagsActions_ofFuel strategy _) hf floor).run hrun

/-- **The right operand of an operator flags the action that it is**, whatever is allowed around the
operator. -/
theorem flagsAction_of_binaryAfter {lhs : Node} {width : Nat} {floor : Precedence}
    {flags : ExpressionFlags}
    (hrun : ParseM.binaryAfter lhs width floor flags (.ofFuel strategy fuel) before =
      some (node, after)) :
    ∃ operator rhs, node = .of .binaryExpression [lhs, operator, rhs] ∧ rhs.FlagsAction := by
  obtain ⟨operator, q, _, hrun⟩ := ParseM.bind_eq_some_iff.mp hrun
  obtain ⟨rhs, _, hrhs, hmade⟩ := ParseM.bind_eq_some_iff.mp hrun
  have he : (Env.ofFuel strategy fuel).FlagsActions := Env.flagsActions_ofFuel strategy fuel
  cases hmade
  exact ⟨operator, rhs, rfl, (ParseM.flags_expression he rfl floor).run hrhs⟩

/-- The left operand does not: nothing is said of the action in `a->b() + 1`, with or without
parentheses, but of that in `1 + (a->b())`. -/
example :
    ["int x = a->b() + 1;", "int x = (a->b()) + 1;", "int x = 1 + (a->b());"].map
        (fun source => (parseFragment source .statement).map
          fun tree => tree.diagnostics.map (·.code)) =
      [some [], some [], some [.actionNotAllowed]] := by
  decide +kernel

end TolerantSyntax
