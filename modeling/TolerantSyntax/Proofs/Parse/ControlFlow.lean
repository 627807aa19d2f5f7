import TolerantSyntax.Grammar.ControlFlow
import TolerantSyntax.Proofs.Parse.Function

/-!
# Control flow

A statement that begins with a keyword consumes it, and so may have blocks, whose statements rank
highest of all, behind it.
-/

namespace TolerantSyntax

namespace ParseM

variable {bound : Nat}

/-! ## Conditionals -/

/-- What follows `else` ranks above statements, as it can be one. -/
theorem reads_elseBody : Reads 10 [] elseBody .node :=
  reads_resume trivial (Nat.le_refl _) rfl

theorem begins_elseBlock : Begins HasNext [] elseBlock .node :=
  Meets.within (begins_consumeNode.bind fun _ hk => reads_elseBody.bind fun body _ =>
    Reads.of hk (by simp) rfl rfl)

theorem begins_ifStatement : Begins HasNext [] ifStatement .node := by
  refine Meets.within (begins_consumeNode.bind fun keyword hk => ?_)
  refine reads_value.bind fun condition _ => ?_
  refine opens_block.reads.bind fun body _ => ?_
  exact (reads_ifNext begins_elseBlock (by simp)).bind fun otherwise _ =>
    Reads.ofSlots hk (by simp) rfl rfl

/-- Behind `else` stands a block or another `if`; all else is recovered from. -/
theorem meets_elseBodyAs {kind : Kind} (hb : 8 ≤ bound) (hb' : kind ≠ .openBrace → 9 ≤ bound) :
    Enters (fun k => k = kind ∨ kind = .openBrace) bound [] (elseBodyAs kind) .node
      (fun _ => False) := by
  have : AtMost 8 bound := ⟨hb⟩
  unfold elseBodyAs
  split
  · exact begins_ifStatement.weaken (by simp +contextual)
  · exact opens_block.reads.weaken
  · have hlt : 9 ≤ bound := hb' (by assumption)
    exact reads_recoverOver trivial (by simp) hlt rfl

theorem heeds_elseBodyAs (kind : Kind) :
    Heeds (fun k s => k = kind ∧ (Rule.request .elseBody).continues k s = true)
      (elseBodyAs kind) := by
  unfold elseBodyAs
  split
  · exact begins_ifStatement.heedsWhere fun _ _ _ h => h
  · exact opens_block.begins.heedsWhere fun _ _ h _ => h.1
  · refine Heeds.unreachable ?_
    rintro _ _ ⟨rfl, h⟩
    simp_all [Rule.continues, Request.accepts, Request.overstates]

/-! ## Blocks that may fail -/

/-- Two keywords are consumed, and the binding may be left out. -/
theorem begins_onFailAfter : Begins HasNext [] onFailAfter .node := by
  refine Meets.within (begins_consumeNode.bind fun onKeyword ho => ?_)
  refine reads_consumeNode.bind fun fail _ => ?_
  extract_lets rest
  have hrest (binding : Option Node) :
      Reads Rule.maxRank [some onKeyword, some fail, binding] (rest binding) .node :=
    opens_block.reads.bind fun body _ => Reads.ofSlots ho (by simp) rfl rfl
  refine Meets.isNext ?_ ?_
  · exact Reads.noPart.bind fun binding _ => hrest binding
  · exact reads_typedBinding.part.bind fun binding _ => hrest binding

/-- The clause is read where both its keywords come next. -/
theorem reads_onFail : Reads 0 [] onFail .slot := by
  refine (looks_isNext .onKeyword).meets fun a => (looks_isSecond .failKeyword).meets fun b => ?_
  split
  · next hab =>
    refine begins_onFailAfter.part.weaken ?_
    rintro k ⟨⟨-, hk⟩, -⟩
    rw [hk.mp ((Bool.and_eq_true _ _).mp hab).1]
    decide
  · exact Reads.noPart.weaken

theorem begins_guardedBlock (kind : Kind) (context : Context)
    (hlayout : kind.layout = .parts [.always, .always, .maybe]) :
    Begins HasNext [] (guardedBlock kind context) .node := by
  refine Meets.within (begins_consumeNode.bind fun keyword hk => ?_)
  refine opens_block.reads.bind fun body _ => ?_
  refine reads_onFail.bind fun onFail _ => Reads.ofSlots hk (by simp) rfl ?_
  rw [Kind.composes_of_layout_ne (by simp [hlayout, Layout.filled]), Kind.admits, hlayout]
  rfl

theorem begins_transaction : Begins HasNext [] transaction .node :=
  begins_guardedBlock _ _ rfl

/-- The type and the arguments of a manager may be left out. -/
theorem begins_retryStatement : Begins HasNext [] retryStatement .node := by
  refine Meets.within (begins_consumeNode.bind fun keyword hk => ?_)
  refine (reads_ifNext begins_typeParameter (by simp)).bind fun manager _ => ?_
  refine (reads_ifNext opens_argumentList.begins (by simp)).bind fun arguments _ => ?_
  extract_lets rest
  have hrest (body : Node) :
      Reads Rule.maxRank [some keyword, manager, arguments, some body] (rest body) .node :=
    reads_onFail.bind fun onFail _ => Reads.ofSlots hk (by simp) rfl rfl
  refine Meets.isNext ?_ ?_
  · exact begins_transaction.bindFrom (by simp +contextual) fun body _ => hrest body
  · exact opens_block.reads.bind fun body _ => hrest body

/-! ## Loops and matches -/

theorem begins_whileStatement : Begins HasNext [] whileStatement .node := by
  refine Meets.within (begins_consumeNode.bind fun keyword hk => ?_)
  refine reads_value.bind fun condition _ => ?_
  refine opens_block.reads.bind fun body _ => ?_
  exact reads_onFail.bind fun onFail _ => Reads.ofSlots hk (by simp) rfl rfl

theorem begins_foreachStatement : Begins HasNext [] foreachStatement .node := by
  refine Meets.within (begins_consumeNode.bind fun keyword hk => ?_)
  refine reads_typedBinding.bind fun binding _ => ?_
  refine (reads_expect _ _).bind fun inKeyword _ => ?_
  refine reads_value.bind fun iterable _ => ?_
  refine opens_block.reads.bind fun body _ => ?_
  exact reads_onFail.bind fun onFail _ => Reads.ofSlots hk (by simp) rfl rfl

/-- `if` is consumed before the condition, which ends at an arrow. -/
theorem begins_matchGuard : Begins HasNext [] matchGuard .node := by
  refine Meets.within (begins_consumeNode.bind fun keyword hk => ?_)
  exact (reads_expression _ _).bind fun condition _ => Reads.of hk (by simp) rfl rfl

/-- A clause begins with a pattern, which may be put in. -/
theorem reads_matchClause : Reads 8 [] matchClause .node := by
  refine Meets.within ((reads_separated (by decide) reads_matchPattern).bind fun patterns _ => ?_)
  refine Meets.before (.group .list _ rfl) ?_
  refine (reads_ifNext begins_matchGuard (by simp)).bind fun guard _ => ?_
  refine (reads_expect _ _).bind fun arrow ha => ?_
  exact opens_block.reads.bind fun body _ => Reads.ofSlots ha (by simp) rfl rfl

/-- A turn that reads no token discards one, so the clauses end. -/
theorem reads_matchBody : Reads 8 [] matchBody .enclosed := by
  refine Meets.within ((reads_expect _ _).bind fun opening ho => ?_)
  refine (reads_manyUntil reads_matchClause).bind fun clauses _ => ?_
  exact (reads_expect _ _).bind fun close _ => Reads.pure ho rfl

/-- Behind the subject stand the clauses in their braces. -/
theorem begins_matchStatement : Begins HasNext [] matchStatement .node := by
  refine Meets.within (begins_consumeNode.bind fun keyword hk => ?_)
  refine reads_value.bind fun subject _ => ?_
  refine reads_matchBody.bind fun ⟨opening, clauses, close⟩ _ => ?_
  exact reads_onFail.bind fun onFail _ => Reads.ofSlots hk (by simp) rfl rfl

/-! ## Jumps -/

/-- A value that is required is put in where it is left out. -/
theorem begins_valueStatement (kind : Kind) (context : Context) (required : Bool)
    (hlayout : kind.layout =
      .parts [.always, if required then .always else .maybe, .always]) :
    Begins HasNext [] (valueStatement kind context required) .node := by
  refine Meets.within (begins_consumeNode.bind fun keyword hk => ?_)
  extract_lets rest
  have hrest (value : Option Node) (hv : required = true → value.isSome = true) :
      Reads Rule.maxRank [some keyword, value] (rest value) .node := by
    refine (reads_expect _ _).bind fun semicolon _ => Reads.ofSlots hk (by simp) rfl ?_
    rw [Kind.composes_of_layout_ne (by simp [hlayout, Layout.filled]), Kind.admits, hlayout]
    cases value <;> cases required <;> first | rfl | exact absurd (hv rfl) Bool.false_ne_true
  refine (looks_isNext .semicolon).meets fun b => ?_
  split
  · next hoptional =>
    refine Reads.noPart.bind fun value _ => hrest value fun hr => ?_
    simp [hr] at hoptional
  · exact reads_valueOrAction.present.bind fun value hv => hrest value fun _ => hv

/-- A keyword and a semicolon, in any node of two parts. -/
theorem begins_keywordStatement (kind : Kind) (context : Context)
    (hlayout : kind.layout = .filled 2) :
    Begins HasNext [] (keywordStatement kind context) .node := by
  refine Meets.within (begins_consumeNode.bind fun keyword hk => ?_)
  refine (reads_expect _ _).bind fun semicolon _ => Reads.of hk (by simp) rfl ?_
  rw [Kind.composes_of_layout_ne (by simp [hlayout, Layout.filled]), Kind.admits, hlayout]
  rfl

/-! ## Workers -/

/-- A worker goes on with its keyword or a qualifier, behind annotations. -/
theorem opens_workerAfter (annotations : Option Node) :
    Opens (fun k => k = .workerKeyword ∨ functionQualifiers.contains k = true) 8 [annotations]
      (workerAfter annotations) .node := by
  have hworker (qualifiers : Node) :
      Opens (· = .workerKeyword) 8 [annotations, some qualifiers]
        (do
          let keyword ← expect .workerKeyword .namedWorkerDeclaration
          let name ← expect .identifier .namedWorkerDeclaration
          let result ← ifNext .returnsKeyword returnType
          let body ← block
          return .ofSlots .namedWorkerDeclaration
            [annotations, some qualifiers, some keyword, some name, result, some body]) .node := by
    refine (opens_expect (by decide) _).bind fun keyword hk => ?_
    refine (reads_expect _ _).bind fun name _ => ?_
    refine (reads_ifNext begins_returnType (by simp)).bind fun result _ => ?_
    exact opens_block.reads.bind fun body _ => Reads.ofSlots hk (by simp) rfl rfl
  refine Opens.within ⟨?_, perhaps_functionQualifiers.bind (fun qualifiers _ => ?_) ?_⟩
  · exact perhaps_functionQualifiers.reads.bind fun qualifiers _ => (hworker qualifiers).reads
  · exact (hworker qualifiers).reads.weaken
  · refine (hworker _).begins.weaken ?_
    rintro k ⟨hk, hne⟩
    exact hk.resolve_right hne

/-- Annotations are read before the worker that they belong to. -/
theorem reads_worker : Reads 8 [] worker .node :=
  reads_metadata.bind fun annotations _ => (opens_workerAfter annotations).reads

theorem begins_forkStatement : Begins HasNext [] forkStatement .node := by
  refine Meets.within (begins_consumeNode.bind fun keyword hk => ?_)
  refine (reads_expect _ _).bind fun opening _ => ?_
  refine (reads_manyUntil reads_worker).bind fun workers _ => ?_
  exact (reads_expect _ _).bind fun close _ => Reads.of hk (by simp) rfl rfl

end ParseM

end TolerantSyntax
