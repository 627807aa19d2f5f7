import TolerantSyntax.Grammar.Assignment
import TolerantSyntax.Grammar.Variable
import TolerantSyntax.Proofs.Parse.Operator

/-!
# Assignments and variables

What goes on from something that has been read: the end of a statement behind an expression or a
pattern, and the end of a declaration behind its type and name.
-/

namespace TolerantSyntax

namespace ParseM

variable {bound : Nat}

/-! ## Ends of statements -/

/-- Expression and semicolon become one node, which is flagged if it is no statement. -/
theorem becomes_expressionStatementOf (expression : Node) {semicolon : Node}
    (hs : semicolon.HasToken) :
    Row.Becomes [some expression, some semicolon]
        [some (expressionStatementOf expression semicolon)] ∧
      (expressionStatementOf expression semicolon).HasToken := by
  have ht (kind : Kind) : (Node.of kind [expression, semicolon]).HasToken :=
    Node.hasToken_composite (by simp) hs
  unfold expressionStatementOf
  split
  · exact ⟨.group .callStatement _ rfl, ht _⟩
  · split
    · exact ⟨.group .actionStatement _ rfl, ht _⟩
    · exact ⟨(Row.Becomes.group .expressionStatement _ rfl).trans (.flag _ _),
        Node.hasToken_withDiagnostic.mpr (ht _)⟩

/-- The pieces of a compound assignment, whether or not its operator has the `=`. -/
theorem reads_compoundAssignmentAfter (lhs : Node) (shape : CompoundOperator) :
    Reads 4 [some lhs] (compoundAssignmentAfter lhs shape) .parts := by
  refine Meets.within ((reads_compoundOperatorOf shape).bind fun ⟨operator, equal⟩ _ => ?_)
  refine reads_valueOrAction.bind fun value _ => ?_
  refine (reads_expect _ _).bind fun semicolon hs => Reads.pure ?_ rfl
  exact Node.hasToken_composite (by simp) hs

/-- Behind an operator that was seen ahead these are the pieces of a compound assignment. -/
theorem becomes_compoundAssignment {env : Env} {lhs node : Node} {shape : CompoundOperator}
    {p q : Parser} (hv : p.Valid) (hs : EndsFused shape p)
    (hrun : compoundAssignmentAfter lhs shape env p = some (node, q)) :
    Row.Becomes node.slots [some node] := by
  obtain ⟨_, hrun, -⟩ := within_eq_some_iff.mp hrun
  have hv' : Parser.Valid { p with contexts := .compoundAssignmentStatement :: p.contexts } := hv
  obtain ⟨⟨operator, equal⟩, _, hoperator, hrun⟩ := bind_eq_some_iff.mp hrun
  obtain ⟨value, _, -, hrun⟩ := bind_eq_some_iff.mp hrun
  obtain ⟨semicolon, _, -, hrun⟩ := bind_eq_some_iff.mp hrun
  cases hrun
  refine .group .compoundAssignmentStatement _ (Kind.composes_iff.mpr ⟨?_, rfl⟩)
  cases equal with
  | some token => rfl
  | none =>
    have hfused := (fused_of_compoundOperatorOf hv' hs hoperator).resolve_left Bool.false_ne_true
    show (true && (true && ((false || (some operator.outline).any Outline.endsFused) && _))) = true
    rw [Option.any_some, hfused]
    rfl

/-- `=` is consumed before the value. -/
theorem opens_assignmentAfter (lhs : Node) :
    Opens (· = .equal) 4 [some lhs] (assignmentAfter lhs) .node := by
  have htarget : ∃ target, (if lhs.isAssignable then lhs
      else lhs.withDiagnostic .invalidAssignmentTarget) = target ∧
      Row.Becomes [some lhs] [some target] := by
    refine ⟨_, rfl, ?_⟩
    split
    · exact .refl _
    · exact .flag _ _
  obtain ⟨target, heq, hb⟩ := htarget
  have hassignment (kind : Kind) (context : Context) (hlayout : kind.layout = .filled 4)
      (haims : ∀ rest, kind.aims (some target :: rest) = true) :
      Opens (· = .equal) 4 [some target]
        (within context do
          let equal ← expect .equal context
          let value ← valueOrAction
          let semicolon ← expect .semicolon context
          return .of kind [target, equal, value, semicolon]) .node := by
    refine Opens.within ((opens_expect (by decide) _).bind fun equal _ => ?_)
    refine reads_valueOrAction.bind fun value _ => ?_
    refine (reads_expect _ _).bind fun semicolon hs => Reads.of hs (by simp) rfl ?_
    refine Kind.composes_iff.mpr ⟨?_, haims _⟩
    rw [Kind.admits, hlayout]
    rfl
  unfold assignmentAfter
  simp only [heq]
  split
  · next hp =>
    have h := hassignment .destructuringAssignmentStatement .destructuringAssignment rfl
      (heq ▸ Node.aims_destructuring hp)
    exact ⟨h.reads.before hb, h.begins.before hb⟩
  · next hp =>
    have h := hassignment .assignmentStatement .assignmentStatement rfl
      (heq ▸ Node.aims_assignment (Bool.eq_false_iff.mpr hp))
    exact ⟨h.reads.before hb, h.begins.before hb⟩

/-- An operator is found only where the next token is what it is taken for. -/
theorem looks_compoundAheadAs? (kind : Kind) :
    Looks (compoundAheadAs? kind) fun k found =>
      found.isSome = true → k.isCompoundOperator = true := by
  refine (looks_isNext kind).bind fun b => ?_
  split
  · exact looks_compoundAhead?.weaken fun _ _ h _ => h
  · exact .pure fun _ _ h => absurd h Bool.false_ne_true

theorem endsFused_of_compoundAheadAs? {kind : Kind} {env : Env} {p q : Parser}
    {found : Option CompoundOperator} (hv : p.Valid)
    (hrun : compoundAheadAs? kind env p = some (found, q)) :
    ∀ shape ∈ found, EndsFused shape q := by
  obtain ⟨isNext, r, hnext, hrun⟩ := bind_eq_some_iff.mp hrun
  obtain ⟨_, _, hlook, hs, -⟩ := (looks_isNext kind).look env hv
  cases hnext.symm.trans hlook
  rintro shape rfl
  split at hrun
  · exact endsFused_of_compoundAhead? hs.valid hrun
  · cases hrun

/-- What follows a left side may be nothing but a semicolon that is put in. -/
theorem reads_plainStatementRhsAs {kind : Kind} (lhs : Node) (hb : 4 ≤ bound)
    (hb' : kind ≠ .semicolon → 5 ≤ bound) :
    Reads bound [some lhs] (plainStatementRhsAs kind lhs) .node := by
  have : AtMost 4 bound := ⟨hb⟩
  refine (looks_compoundAheadAs? kind).meetsKnowing endsFused_of_compoundAheadAs? fun shape => ?_
  cases shape with
  | some shape =>
    exact ⟨.parts, (reads_compoundAssignmentAfter lhs shape).weaken,
      fun hv hs hrun hg => ⟨becomes_compoundAssignment hv (hs shape rfl) hrun, hg⟩⟩
  | none =>
    refine ⟨.node, ?_, fun _ _ _ hg => ⟨.refl _, hg⟩⟩
    dsimp only
    split
    · exact (opens_assignmentAfter lhs).reads.weaken
    · refine reads_consumeNode.bind fun semicolon hs => ?_
      obtain ⟨hrow, ht⟩ := becomes_expressionStatementOf lhs hs
      exact Meets.pure hrow ht id
    · have hlt : 5 ≤ bound := hb' (by assumption)
      refine Meets.before (Row.Becomes.gap.append_right [some lhs]) ?_
      refine reads_recoverAs trivial trivial (by simp) (fun semicolon hs => ?_) hlt rfl rfl rfl
      obtain ⟨hrow, ht⟩ := becomes_expressionStatementOf lhs hs
      exact Meets.pure ((Row.Becomes.skip.append_right _).trans hrow) ht id

/-- Annotations become trivia of what they stand before. -/
theorem reads_statementRhsAs {kind : Kind} (annotations : Option Node) (lhs : Node)
    (hb : 4 ≤ bound) (hb' : kind ≠ .semicolon → 5 ≤ bound) :
    Reads bound [annotations, some lhs] (statementRhsAs kind annotations lhs) .node := by
  have : AtMost 4 bound := ⟨hb⟩
  refine (reads_plainStatementRhsAs lhs hb hb').bindOn [annotations] rfl fun node hn => ?_
  obtain ⟨hrow, ht⟩ := becomes_rejectAnnotations hn annotations
  exact Meets.pure hrow ht id

/-- `=` and the semicolon are consumed. -/
theorem heeds_plainStatementRhsAs (kind : Kind) (lhs : Node) :
    Heeds (fun k _ => k = kind ∧ (k = .equal ∨ k = .semicolon)) (plainStatementRhsAs kind lhs) := by
  refine (looks_compoundAheadAs? kind).heeds fun shape => ?_
  split
  · refine Heeds.unreachable ?_
    rintro _ _ ⟨⟨-, rfl | rfl⟩, h⟩ <;> exact absurd (h rfl) (by decide)
  · split
    · exact (opens_assignmentAfter lhs).begins.heedsWhere fun _ _ h _ => h.1.1
    · exact (begins_consumeNode.heedsWhere fun _ _ _ h => h).bindPure
    · refine Heeds.unreachable ?_
      rintro _ _ ⟨⟨rfl, rfl | rfl⟩, -⟩ <;> contradiction

/-- A statement goes on with what it says behind its left side. -/
theorem heeds_statementRhsAs (kind : Kind) (annotations : Option Node) (lhs : Node) :
    Heeds (fun k s =>
        k = kind ∧ (Rule.request (.statementRhs annotations lhs)).continues k s = true)
      (statementRhsAs kind annotations lhs) :=
  ((heeds_plainStatementRhsAs kind lhs).mono fun k s h => ⟨h.1, by
    simpa [Rule.continues, Request.accepts, Request.overstates] using h.2⟩).bindPure

theorem reads_statementRhs (annotations : Option Node) (lhs : Node) :
    Reads 6 [annotations, some lhs] (statementRhs annotations lhs) .node :=
  reads_resume trivial (Nat.le_refl _) rfl

/-! ## Variables -/

/-- A declaration is made of all pieces; one of a block has one qualifier at most. -/
theorem becomes_variableOf {moduleLevel : Bool} (metadata : Option Node) {qualifiers : List Node}
    (hq : moduleLevel = false → qualifiers.length ≤ 1) (binding : Node)
    (equal initial : Option Node) (semicolon : Node) :
    Row.Becomes (metadata :: qualifiers.map some ++ [some binding, equal, initial, some semicolon])
      [some (variableOf moduleLevel metadata qualifiers binding equal initial semicolon)] := by
  have hrest (qualifier : Option Node) (h : Row.Becomes (qualifiers.map some) [qualifier]) :
      Row.Becomes
        (metadata :: qualifiers.map some ++ [some binding, equal, initial, some semicolon])
        [metadata, qualifier, some binding, equal, initial, some semicolon] :=
    (h.append_right _).cons metadata
  cases moduleLevel with
  | true => exact (hrest _ (.group .list _ rfl)).trans (.group .moduleVariableDeclaration _ rfl)
  | false =>
    refine (hrest qualifiers.head? ?_).trans (.group .localVariableDeclaration _ rfl)
    match qualifiers, hq rfl with
    | [], _ => exact .gap
    | [qualifier], _ => exact .refl _

/-- The semicolon is there, put in or not, so a variable has a token. -/
theorem hasToken_variableOf (moduleLevel : Bool) (metadata : Option Node) (qualifiers : List Node)
    (binding : Node) (equal initial : Option Node) {semicolon : Node} (hs : semicolon.HasToken) :
    (variableOf moduleLevel metadata qualifiers binding equal initial semicolon).HasToken := by
  unfold variableOf
  split <;> exact Node.hasToken_composite (by simp) hs

/-- At the top of a module, `?` may stand in place of a value. -/
theorem reads_initialValue (moduleLevel : Bool) : Reads 4 [] (initialValue moduleLevel) .node := by
  refine (looks_isNext .questionMark).meets fun b => ?_
  split
  · exact reads_consumeNode.bind fun question hq => Reads.of hq (by simp) rfl rfl
  · exact reads_valueOrAction.weaken

section VariableOf

variable {moduleLevel : Bool} (metadata : Option Node) {qualifiers : List Node}
  (hq : moduleLevel = false → qualifiers.length ≤ 1) (binding : Node)
include hq

/-- A variable is made of the parts that have been read. -/
theorem reads_variableOf (equal initial : Option Node) {semicolon : Node}
    (hs : semicolon.HasToken) :
    Reads 0 (metadata :: qualifiers.map some ++ [some binding, equal, initial, some semicolon])
      (pure (variableOf moduleLevel metadata qualifiers binding equal initial semicolon)) .node :=
  Meets.pure (becomes_variableOf metadata hq binding equal initial semicolon)
    (hasToken_variableOf moduleLevel metadata qualifiers binding equal initial hs) id

theorem reads_uninitialised {semicolon : Node} (hs : semicolon.HasToken) :
    Reads 0 (metadata :: qualifiers.map some ++ [some binding] ++ [some semicolon])
      (pure (variableOf moduleLevel metadata qualifiers binding none none semicolon)) .node := by
  refine Meets.before ?_ (reads_variableOf metadata hq binding none none hs)
  simpa using ((Row.Becomes.gap.append .gap).append_right [some semicolon]).append_left
    (metadata :: qualifiers.map some ++ [some binding])

theorem reads_initialised (equal : Node) (context : Context) :
    Reads 4 (metadata :: qualifiers.map some ++ [some binding] ++ [some equal])
      (do
        let initial ← initialValue moduleLevel
        let semicolon ← expect .semicolon context
        return variableOf moduleLevel metadata qualifiers binding (some equal) (some initial)
          semicolon) .node := by
  refine (reads_initialValue moduleLevel).bind fun initial _ => ?_
  refine (reads_expect _ _).bind fun semicolon hs => ?_
  have h := reads_variableOf metadata hq binding (some equal) (some initial) hs
  refine Meets.before ?_ h.weaken
  simpa [Yield.node] using Row.Becomes.refl _

/-- The end of a variable, or of what is taken for it. -/
theorem meets_variableRhsAs {kind : Kind} (hb : kind ≠ .semicolon → 1 ≤ bound) :
    Enters (fun k => k = kind ∨ kind = .semicolon) bound
      (metadata :: qualifiers.map some ++ [some binding])
      (variableRhsAs kind metadata qualifiers binding moduleLevel) .node (fun _ => False) := by
  unfold variableRhsAs
  extract_lets finish context
  split
  · exact begins_consumeNode.bindFrom (by simp +contextual) fun equal _ =>
      (reads_initialised metadata hq binding equal context).weaken
  · exact reads_consumeNode.bind fun semicolon hs =>
      (reads_uninitialised metadata hq binding hs).weaken
  · have hpos : 1 ≤ bound := hb (by assumption)
    exact reads_recoverAs hq hq (by simp)
      (fun semicolon hs => (reads_uninitialised metadata hq binding hs).weaken) hpos rfl rfl rfl

theorem heeds_variableRhsAs (kind : Kind) :
    Heeds (fun k s => k = kind ∧
        (Rule.request (.variableRhs metadata qualifiers binding moduleLevel)).continues k s = true)
      (variableRhsAs kind metadata qualifiers binding moduleLevel) := by
  unfold variableRhsAs
  extract_lets finish context
  split
  · exact (begins_consumeNode.heedsWhere fun _ _ _ h => h).bindOn
      (metadata :: qualifiers.map some ++ [some binding]) reads_consumeNode fun equal _ =>
        (reads_initialised metadata hq binding equal context).weaken
  · exact (begins_consumeNode.heedsWhere fun _ _ _ h => h).bindPure
  · refine Heeds.unreachable ?_
    rintro _ _ ⟨rfl, h⟩
    simp_all [Rule.continues, Request.accepts, Request.overstates]

end VariableOf

/-- A variable in a block has `final` as its only qualifier. -/
theorem accepts_localVariable (annotations : Option Node) (qualifiers : List Node)
    (hq : qualifiers.length ≤ 1) :
    Accepts (fun k => Starts.type k = true) 4 (annotations :: qualifiers.map some)
      (localVariable annotations qualifiers) .node := by
  refine accepts_typedBinding.bind fun binding _ => ?_
  exact reads_resume (fun _ => hq) (by simp [Rule.level]) rfl

end ParseM

end TolerantSyntax
