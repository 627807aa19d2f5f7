import TolerantSyntax.Proofs.Expression.Concrete

/-!
# Where an expression ends

Whether the words of an expression are read as one depends on the words behind them and on the floor
above which it is read. `Ends` says what may follow: no operator that an operand at its right end
would take for its own. `Fits` says that its operators are above the floor. Both hold wherever an
expression that is well-formed puts its parts. `Clear` says that what follows makes no other thing
of an operand at its right end: a colon could make the name of a module of it, and an arrow the
parameters of a function.
-/

namespace TolerantSyntax

namespace Word

/-- The operator that the words begin with: its level, and how many words it is. -/
def operatorAhead? (words : List Word) : Option (Precedence × Nat) :=
  if ahead words == .gt && ahead (words.drop 1) == .gt then
    some (.shift, if ahead (words.drop 2) == .gt then 3 else 2)
  else (Precedence.ofOperator? (ahead words)).map (·, 1)

/-- The level of that operator. -/
def levelAhead? (words : List Word) : Option Precedence :=
  (operatorAhead? words).map (·.1)

/-- No operator above the floor comes next. -/
def Stops (floor : Precedence) (rest : List Word) : Prop :=
  ∀ level ∈ levelAhead? rest, level.le floor = true

theorem stops_of_none {floor : Precedence} {rest : List Word} (h : levelAhead? rest = none) :
    Stops floor rest := by
  simp [Stops, h]

/-- Do the words go on a name, so that it is that of a module? In the middle of a conditional they
do so only if the conditional still has a colon of its own. -/
def qualifies (inConditional : Bool) (rest : List Word) : Bool :=
  ahead rest == .colon && ahead (rest.drop 1) == .identifier &&
    (!inConditional || ahead (rest.drop 2) == .colon)

theorem qualifies_of_ne {inConditional : Bool} {rest : List Word} (h : ahead rest ≠ .colon) :
    qualifies inConditional rest = false := by
  rw [qualifies, beq_eq_false_iff_ne.mpr h, Bool.false_and, Bool.false_and]

theorem qualifies_colon (inConditional : Bool) (rest : List Word) :
    qualifies inConditional (symbol .colon :: rest) =
      (ahead rest == .identifier && (!inConditional || ahead (rest.drop 1) == .colon)) :=
  rfl

theorem levelAhead?_of_openParen {rest : List Word} (h : ahead rest = .openParen) :
    levelAhead? rest = some .memberAccess := by
  simp [levelAhead?, operatorAhead?, h, Precedence.ofOperator?]

end Word

open Word

/-! ## Levels -/

theorem Precedence.le_iff (a b : Precedence) : a.le b = true ↔ a.rank ≤ b.rank := by
  simp [Precedence.le]

theorem Precedence.le_eq_false_iff (a b : Precedence) : a.le b = false ↔ b.rank < a.rank := by
  simp [Precedence.le]

/-- Right below the level of `?:` is that of a conditional. -/
theorem Precedence.rank_le_conditional {level : Precedence}
    (hle : level.rank ≤ Precedence.elvis.rank) (hne : level ≠ .elvis) :
    level.rank ≤ Precedence.conditional.rank := by
  cases level <;> first | exact absurd rfl hne | decide | exact absurd hle (by decide)

namespace BinaryOperator

/-- Binary operators bind more tightly than a conditional and less tightly than any operand. -/
theorem rank_level (operator : BinaryOperator) :
    Precedence.conditional.rank < operator.level.rank ∧
      operator.level.rank < Precedence.unary.rank := by
  cases operator <;> decide

/-- An operand on the right binds more tightly than the floor. -/
theorem Associates.floor_lt {operator : BinaryOperator} {left right : Precedence}
    (h : operator.Associates left right) : operator.floor.rank < right.rank := by
  unfold Associates at h
  unfold floor
  split at h
  · next he =>
    rw [if_pos he]
    exact Nat.lt_of_lt_of_le operator.rank_level.1 h.2
  · next he =>
    rw [if_neg he]
    exact h.2

theorem Associates.le_left {operator : BinaryOperator} {left right : Precedence}
    (h : operator.Associates left right) : operator.level.rank ≤ left.rank := by
  unfold Associates at h
  split at h
  · exact Nat.le_of_lt h.1
  · exact h.1

theorem Associates.le_right {operator : BinaryOperator} {left right : Precedence}
    (h : operator.Associates left right) : operator.level.rank ≤ right.rank := by
  unfold Associates at h
  split at h
  · exact h.2
  · exact Nat.le_of_lt h.2

/-- An operator is the one that its words begin with, unless a `>` follows. -/
theorem operatorAhead?_words (operator : BinaryOperator) {rest : List Word}
    (h : ahead rest ≠ .gt) :
    operatorAhead? (operator.words ++ rest) = some (operator.level, operator.words.length) := by
  have hrest : (ahead rest == .gt) = false := beq_eq_false_iff_ne.mpr h
  cases operator <;> simp [words, operatorAhead?, ahead, symbol, loose, tightGreater, kind, level,
    Precedence.ofOperator?, Precedence.ofBinary?]
  all_goals simpa [ahead] using hrest

end BinaryOperator

namespace Expression

/-! ## Floors -/

/-- Whatever is on top, it binds more tightly than a conditional. -/
theorem conditional_lt_level (e : Expression) : Precedence.conditional.rank < e.level.rank := by
  cases e with
  | binary operator => exact operator.rank_level.1
  | unary => exact (show _ < Precedence.unary.rank by decide)
  | _ => exact (show _ < Precedence.memberAccess.rank by decide)

/-- All operators that are read at the level of the expression are above the floor. -/
def Fits (floor : Precedence) : Expression → Prop
  | .binary operator left _ => operator.level.le floor = false ∧ left.Fits floor
  | .field target _ => Precedence.memberAccess.le floor = false ∧ target.Fits floor
  | .methodCall target _ _ => Precedence.memberAccess.le floor = false ∧ target.Fits floor
  | .call callee _ => Precedence.memberAccess.le floor = false ∧ callee.Fits floor
  | .index container _ => Precedence.memberAccess.le floor = false ∧ container.Fits floor
  | _ => True

/-- An expression fits above what binds less tightly. -/
theorem fits_of_lt {e : Expression} (h : e.WellFormed) {floor : Precedence}
    (hlt : floor.rank < e.level.rank) : e.Fits floor := by
  have hsuffix {target : Expression} (hlt : floor.rank < Precedence.memberAccess.rank)
      (hlevel : target.level = .memberAccess)
      (ih : floor.rank < target.level.rank → target.Fits floor) :
      Precedence.memberAccess.le floor = false ∧ target.Fits floor :=
    ⟨(Precedence.le_eq_false_iff _ _).mpr hlt, ih (hlevel ▸ hlt)⟩
  induction e using induct with
  | identifier => trivial
  | integer => trivial
  | braced => trivial
  | unary => trivial
  | binary operator left right ihl =>
    obtain ⟨hleft, -, hassoc⟩ := h
    exact ⟨(Precedence.le_eq_false_iff _ _).mpr hlt,
      ihl hleft (Nat.lt_of_lt_of_le hlt hassoc.le_left)⟩
  | field target name ih => exact hsuffix hlt h.2 (ih h.1)
  | methodCall target name arguments ih => exact hsuffix hlt h.2.1 (ih h.1)
  | call callee arguments ih => exact hsuffix hlt h.2.1 (ih h.1)
  | index container keys ih => exact hsuffix hlt h.2.1 (ih h.1)

/-- The operand of a prefix operator fits behind it. -/
theorem fits_unary {e : Expression} (h : e.WellFormed)
    (hle : Precedence.unary.rank ≤ e.level.rank) : e.Fits .unary := by
  cases e with
  | unary => trivial
  | binary operator =>
    have hlt := operator.rank_level.2
    exact absurd hle (Nat.not_le.mpr hlt)
  | _ => exact fits_of_lt h (show Precedence.unary.rank < Precedence.memberAccess.rank by decide)

/-! ## Ends -/

/-- What may follow the words of an expression for them to be read as one. -/
def Ends (rest : List Word) : Expression → Prop
  | .unary _ operand => Stops .unary rest ∧ operand.Ends rest
  | .binary operator _ right => Stops operator.floor rest ∧ right.Ends rest
  | .field _ _ => ahead rest ≠ .openParen
  | _ => True

/-- An expression can end where no operator follows. -/
theorem ends_of_none (e : Expression) {rest : List Word} (h : levelAhead? rest = none) :
    e.Ends rest := by
  induction e using induct with
  | unary operator operand ih => exact ⟨stops_of_none h, ih⟩
  | binary operator left right _ ihr => exact ⟨stops_of_none h, ihr⟩
  | field target name =>
    intro hparen
    rw [levelAhead?_of_openParen hparen] at h
    cases h
  | _ => trivial

/-- An expression can end before an operator that binds less tightly, or as tightly if it does not
associate to the right. -/
theorem ends_of_level {e : Expression} (hwf : e.WellFormed) {rest : List Word} {level : Precedence}
    (hlevel : levelAhead? rest = some level) (hlt : level.rank < Precedence.memberAccess.rank)
    (hle : level.rank ≤ e.level.rank) (helvis : level = .elvis → level.rank < e.level.rank) :
    e.Ends rest := by
  have hstops {floor : Precedence} (h : level.rank ≤ floor.rank) : Stops floor rest := by
    intro other hmem
    rw [hlevel, Option.mem_some_iff] at hmem
    exact (Precedence.le_iff _ _).mpr (hmem ▸ h)
  induction e using induct with
  | unary operator operand ih =>
    obtain ⟨hoperand, hrank⟩ := hwf
    refine ⟨hstops hle, ih hoperand (hle.trans hrank) fun he => ?_⟩
    exact Nat.lt_of_lt_of_le (helvis he) hrank
  | binary operator left right _ ihr =>
    obtain ⟨-, hright, hassoc⟩ := hwf
    refine ⟨hstops ?_, ihr hright (Nat.le_trans hle hassoc.le_right) fun he =>
      Nat.lt_of_lt_of_le (helvis he) hassoc.le_right⟩
    -- the floor of `?:` is one level lower, so that it associates to the right
    by_cases ho : operator = .elvis
    · subst ho
      exact Precedence.rank_le_conditional hle fun he => Nat.lt_irrefl _ (he ▸ helvis he)
    · rw [BinaryOperator.floor, if_neg ho]
      exact hle
  | field target name =>
    intro hparen
    rw [levelAhead?_of_openParen hparen, Option.some.injEq] at hlevel
    exact Nat.lt_irrefl _ (hlevel ▸ hlt)
  | _ => trivial

/-- A left operand can end before its operator. -/
theorem ends_of_operator {e : Expression} (hwf : e.WellFormed) {operator : BinaryOperator}
    {right : Precedence} (hassoc : operator.Associates e.level right) {rest : List Word}
    (hrest : ahead rest ≠ .gt) : e.Ends (operator.words ++ rest) := by
  have hlevel : levelAhead? (operator.words ++ rest) = some operator.level := by
    rw [levelAhead?, operator.operatorAhead?_words hrest, Option.map_some]
  refine ends_of_level hwf hlevel (Nat.lt_trans operator.rank_level.2 (by decide)) hassoc.le_left
    fun he => ?_
  have ho : operator = .elvis := by cases operator <;> first | rfl | cases he
  unfold BinaryOperator.Associates at hassoc
  rw [if_pos ho] at hassoc
  exact hassoc.1

/-- What a suffix is applied to can end before it, unless a field would become a method. -/
theorem ends_of_suffix {e : Expression} (hlevel : e.level = .memberAccess) {rest : List Word}
    (hparen : ahead rest = .openParen → e.isField = false) : e.Ends rest := by
  cases e with
  | unary => cases hlevel
  | binary operator =>
    have hlt := operator.rank_level.2
    rw [show operator.level = .memberAccess from hlevel] at hlt
    exact absurd hlt (by decide)
  | field => exact fun h => Bool.false_ne_true (hparen h).symm
  | _ => trivial

/-! ## Clearance -/

/-- Is it a name alone? -/
def isName : Expression → Bool
  | .identifier _ => true
  | _ => false

/-- What may follow the words of an expression for an operand at its right end to stay what it is.
The middle of a conditional and a match guard are places of their own, but the operand of a prefix
operator and the right operand of a binary one are not in the middle of that conditional. -/
def Clear (inConditional inGuard : Bool) (rest : List Word) : Expression → Prop
  | .identifier _ =>
    qualifies inConditional rest = false ∧ (inGuard = true ∨ ahead rest ≠ .rightDoubleArrow)
  | .braced inner => inner.isName = true → ahead rest ≠ .rightDoubleArrow
  | .unary _ operand => operand.Clear false inGuard rest
  | .binary _ _ right => right.Clear false inGuard rest
  | _ => True

/-- Most tokens make nothing else of an operand. -/
theorem clear_of_ne (e : Expression) {inConditional inGuard : Bool} {rest : List Word}
    (hcolon : ahead rest ≠ .colon) (harrow : ahead rest ≠ .rightDoubleArrow) :
    e.Clear inConditional inGuard rest := by
  induction e using induct generalizing inConditional with
  | identifier name => exact ⟨qualifies_of_ne hcolon, .inr harrow⟩
  | braced inner => exact fun _ => harrow
  | unary operator operand ih => exact ih
  | binary operator left right _ ihr => exact ihr
  | _ => trivial

/-- An operator or a suffix makes nothing else of what it is applied to. -/
theorem clear_of_mem_symbols (e : Expression) {inConditional inGuard : Bool} {rest : List Word}
    (h : ahead rest ∈ symbols) : e.Clear inConditional inGuard rest :=
  e.clear_of_ne (fun heq => absurd (heq ▸ h) (by decide)) fun heq => absurd (heq ▸ h) (by decide)

/-- Is the operand at the right end a name? -/
def endsInName : Expression → Bool
  | .identifier _ => true
  | .unary _ operand => operand.endsInName
  | .binary _ _ right => right.endsInName
  | _ => false

/-- Is the operand at the right end a name that an operator stands before? -/
def operandEndsInName : Expression → Bool
  | .unary _ operand => operand.endsInName
  | .binary _ _ right => right.endsInName
  | _ => false

/-- Outside the middle of a conditional, what follows must not go on a name at the right end. -/
theorem clear_of_endsInName (e : Expression) {inGuard : Bool} {rest : List Word}
    (harrow : ahead rest ≠ .rightDoubleArrow)
    (h : e.endsInName = true → qualifies false rest = false) : e.Clear false inGuard rest := by
  induction e using induct with
  | identifier name => exact ⟨h rfl, .inr harrow⟩
  | braced inner => exact fun _ => harrow
  | unary operator operand ih => exact ih h
  | binary operator left right _ ihr => exact ihr h
  | _ => trivial

/-- In the middle of a conditional, that matters to operands of operators only. -/
theorem clear_of_operandEndsInName (e : Expression) {inConditional inGuard : Bool}
    {rest : List Word} (harrow : ahead rest ≠ .rightDoubleArrow)
    (hname : qualifies inConditional rest = false)
    (h : e.operandEndsInName = true → qualifies false rest = false) :
    e.Clear inConditional inGuard rest := by
  cases e with
  | identifier name => exact ⟨hname, .inr harrow⟩
  | braced inner => exact fun _ => harrow
  | unary operator operand => exact operand.clear_of_endsInName harrow h
  | binary operator left right => exact right.clear_of_endsInName harrow h
  | _ => trivial

/-- Is the operand at the right end a name in parentheses? -/
def endsInParameter : Expression → Bool
  | .braced inner => inner.isName
  | .unary _ operand => operand.endsInParameter
  | .binary _ _ right => right.endsInParameter
  | _ => false

/-- In a match guard an arrow makes nothing else of a name, but it does of one in parentheses. -/
theorem clear_of_endsInParameter (e : Expression) {inConditional : Bool} {rest : List Word}
    (hcolon : ahead rest ≠ .colon) (h : e.endsInParameter = false) :
    e.Clear inConditional true rest := by
  induction e using induct generalizing inConditional with
  | identifier name => exact ⟨qualifies_of_ne hcolon, .inl rfl⟩
  | braced inner => exact fun hname => absurd (h.symm.trans hname) Bool.false_ne_true
  | unary operator operand ih => exact ih h
  | binary operator left right _ ihr => exact ihr h
  | _ => trivial

end Expression

end TolerantSyntax
