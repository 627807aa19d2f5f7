import TolerantSyntax.Proofs.Resume

/-!
# Expressions as arguments

An argument looks at the next token alone to see whether an expression begins there, while an
operand also looks at the one behind it. So at a type that names a module, such as `int` before a
colon, an expression goes on, and an argument that is the same expression asks the strategy about
its first token. There, and at the annotations of an action, they disagree, and nowhere else; where
they agree the argument is what the rule for expressions makes of it.
-/

namespace TolerantSyntax

/-! ## Rules that run -/

namespace Env

variable {strategy : Strategy} {fuel : Nat} {floor : Precedence} {flags : ExpressionFlags}
  {before after : Parser} {node : Node}

/-- An expression that runs heeds what an operand begins with. -/
theorem heeds_expression_ofFuel (hv : before.Valid) (hne : before.ahead ≠ .eof)
    (h : Starts.operand before.ahead before.second = true)
    (hrun : (ofFuel strategy fuel).call (.request (.expression floor flags)) before.ahead before =
      some (node, after)) : before.Heeds after := by
  cases fuel with
  | zero => cases hrun
  | succ fuel =>
    exact (ParseM.heeds_expressionAs before.ahead floor flags).heeds (sound_ofFuel strategy fuel)
      (heeds_ofFuel strategy fuel) hv hne ⟨rfl, h⟩ hrun

/-- An operand that runs asks about anything else. -/
theorem stuck_operand_ofFuel (hv : before.Valid)
    (h : Starts.operand before.ahead before.second = false)
    (hrun : (ofFuel strategy fuel).call (.operand floor flags) before.ahead before =
      some (node, after)) : before.Stuck after := by
  cases fuel with
  | zero => cases hrun
  | succ fuel =>
    exact (ParseM.asks_operandAs before.ahead floor flags).asks (sound_ofFuel strategy fuel) hv
      ⟨rfl, h⟩ hrun

/-- So does an expression, since what follows its first operand cannot undo that. -/
theorem stuck_expression_ofFuel (hv : before.Valid)
    (h : Starts.operand before.ahead before.second = false)
    (hrun : (ofFuel strategy fuel).call (.request (.expression floor flags)) before.ahead before =
      some (node, after)) : before.Stuck after := by
  cases fuel with
  | zero => cases hrun
  | succ fuel =>
    obtain ⟨q, hinner, rfl⟩ := ParseM.within_eq_some_iff.mp hrun
    obtain ⟨operand, r, hoperand, hbehind⟩ := ParseM.bind_eq_some_iff.mp hinner
    have hsound : (ofFuel strategy fuel).Sound := sound_ofFuel strategy fuel
    have hv' : Parser.Valid { before with contexts := .expression :: before.contexts } := hv
    obtain ⟨hleads, htoken⟩ := @hsound (.operand floor flags) _ _ _ _ trivial hv' hoperand
    have hstuck := stuck_operand_ofFuel hv' h hoperand
    exact hstuck.trans
      ((ParseM.reads_operatorsAfter htoken flags floor).leads hsound hleads.valid hbehind).1.asked

/-- An argument that runs asks about what it does not accept. -/
theorem stuck_argument_ofFuel (hv : before.Valid)
    (h : Request.argument.accepts before.ahead = false)
    (hrun : (ofFuel strategy fuel).call (.request .argument) before.ahead before =
      some (node, after)) : before.Stuck after := by
  cases fuel with
  | zero => cases hrun
  | succ fuel =>
    exact (ParseM.asks_argumentAs before.ahead).asks (sound_ofFuel strategy fuel) hv ⟨rfl, h⟩ hrun

end Env

/-! ## Where they go on -/

namespace Parser

variable {parser : Parser} {strategy : Strategy} {floor : Precedence} {flags : ExpressionFlags}

/-- **An expression goes on with a token exactly if an operand begins with it**, seen with the one
behind it. -/
theorem resume_expression_heeds_iff (hv : parser.Valid) (hadm : strategy.Admissible)
    (hne : parser.ahead ≠ .eof) :
    ∃ node after, parser.resume strategy (.expression floor flags) = some (node, after) ∧
      (parser.Heeds after ↔ Starts.operand parser.ahead parser.second = true) := by
  obtain ⟨node, after, q, hrun, hsame, hsilent, hcall⟩ :=
    @exists_call_of_resume _ _ (.expression floor flags) hv hadm trivial
  refine ⟨node, after, hrun, ?_⟩
  rw [← hsame.ahead, ← hsame.second]
  cases h : Starts.operand q.ahead q.second with
  | true =>
    have hheeds := Env.heeds_expression_ofFuel hsame.valid (hsame.ahead ▸ hne) h hcall
    exact iff_of_true (hsame.heeds hsilent hheeds) rfl
  | false =>
    have hstuck := hsame.stuck hsilent (Env.stuck_expression_ofFuel hsame.valid h hcall)
    exact iff_of_false hstuck.not_heeds Bool.false_ne_true

/-- An argument goes on with what it accepts. -/
theorem resume_argument_heeds_iff (hv : parser.Valid) (hadm : strategy.Admissible)
    (hne : parser.ahead ≠ .eof) :
    ∃ node after, parser.resume strategy .argument = some (node, after) ∧
      (parser.Heeds after ↔ Request.argument.accepts parser.ahead = true) := by
  have hw : (Rule.request .argument).WellFormed := trivial
  obtain ⟨node, after, q, hrun, hsame, hsilent, hcall⟩ := exists_call_of_resume hv hadm hw
  refine ⟨node, after, hrun, ?_⟩
  rw [← hsame.ahead]
  cases h : Request.argument.accepts q.ahead with
  | true =>
    have hcontinues : (Rule.request .argument).continues q.ahead q.second = true := by
      rw [Rule.continues, h]
      rfl
    have hheeds := (Env.heeds_ofFuel strategy parser.fuel).call hw hsame.valid
      (hsame.ahead ▸ hne) hcontinues hcall
    exact iff_of_true (hsame.heeds hsilent hheeds) rfl
  | false =>
    have hstuck := hsame.stuck hsilent (Env.stuck_argument_ofFuel hsame.valid h hcall)
    exact iff_of_false hstuck.not_heeds Bool.false_ne_true

/-- **An argument asks about a token with which an expression goes on at two places only**: at the
annotations of an action, and at a type that names a module. -/
theorem resume_argument_misses_iff (hv : parser.Valid) (hadm : strategy.Admissible)
    (hne : parser.ahead ≠ .eof) :
    ∃ node after value after', parser.resume strategy .argument = some (node, after) ∧
      parser.resume strategy (.expression .default .rhs) = some (value, after') ∧
      (parser.Heeds after' ∧ ¬parser.Heeds after ↔
        parser.ahead = .atSign ∨ parser.ahead.isTypeKeyword = true ∧ parser.second = .colon ∧
          Starts.expression parser.ahead = false) := by
  obtain ⟨node, after, hrun, hargument⟩ := resume_argument_heeds_iff hv hadm hne
  obtain ⟨value, after', hrun', hexpression⟩ :=
    @resume_expression_heeds_iff parser strategy .default .rhs hv hadm hne
  refine ⟨node, after, value, after', hrun, hrun', ?_⟩
  rw [hargument, hexpression]
  -- no type keyword is an ellipsis
  have hkeyword : Kind.isTypeKeyword .ellipsis = false := by decide
  have hsign : Starts.expression .atSign = false := by decide
  cases hstarts : Starts.expression parser.ahead with
  | true =>
    have hat : parser.ahead ≠ .atSign := by
      rintro heq
      rw [heq, hsign] at hstarts
      cases hstarts
    simp [Starts.operand, Request.accepts, ListItem.starts, hstarts, hat]
  | false =>
    simp only [Starts.operand, Request.accepts, ListItem.starts, hstarts]
    grind

/-- **An argument that begins like an expression is what the rule for expressions makes of it**,
unless it is a name with `=` behind it. -/
theorem positional_of_resume_argument (hv : parser.Valid) (hadm : strategy.Admissible)
    (hstarts : Starts.expression parser.ahead = true)
    (hnamed : ¬(parser.ahead = .identifier ∧ parser.second = .equal)) :
    ∃ value after q fuel, parser.resume strategy .argument =
        some (.of .positionalArgument [value], after) ∧ ParseM.Same parser q ∧
      (Env.ofFuel strategy fuel).call (.request (.expression .default .rhs)) parser.ahead q =
        some (value, after) := by
  obtain ⟨node, after, q, hrun, hsame, -, hcall⟩ :=
    @exists_call_of_resume _ _ .argument hv hadm trivial
  rw [hsame.ahead] at hcall
  have hellipsis : (parser.ahead == .ellipsis) = false := by
    rw [beq_eq_false_iff_ne]
    intro heq
    rw [heq] at hstarts
    exact absurd hstarts (by decide)
  have hplain : ¬(parser.ahead == .identifier && q.second == .equal) = true := by
    rw [hsame.second]
    simpa using hnamed
  cases hfuel : parser.fuel with
  | zero =>
    rw [hfuel] at hcall
    cases hcall
  | succ fuel =>
    rw [hfuel] at hcall
    change ParseM.argumentAs parser.ahead (.ofFuel strategy fuel) q = _ at hcall
    rw [ParseM.argumentAs, hellipsis, if_neg Bool.false_ne_true] at hcall
    obtain ⟨isEqual, r, hlook, hsame', -, rfl⟩ := (ParseM.sees_isSecond .equal).look _ hsame.valid
    obtain ⟨_, _, hlook', hcall⟩ := ParseM.bind_eq_some_iff.mp hcall
    cases hlook.symm.trans hlook'
    rw [if_neg hplain, if_pos hstarts] at hcall
    obtain ⟨value, after, hvalue, hcall⟩ := ParseM.bind_eq_some_iff.mp hcall
    cases hcall
    exact ⟨value, after, r, fuel, hrun, hsame.trans hsame', hvalue⟩

end Parser

end TolerantSyntax
