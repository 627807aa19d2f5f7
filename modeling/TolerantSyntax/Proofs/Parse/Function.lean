import TolerantSyntax.Grammar.Function
import TolerantSyntax.Proofs.Parse.Type

/-!
# Parameters and bodies

A parameter has a type, so it has a token. The body of a function for which a brace is put in is
read up to where a statement could not go on.
-/

namespace TolerantSyntax

namespace ParseM

variable {bound : Nat}

/-! ## Parameters -/

/-- A parameter behind its type: a name, and perhaps `...` or a default value. -/
theorem reads_parameterAfter (annotations : Option Node) {type : Node} (ht : type.HasToken) :
    Reads 4 [annotations, some type] (parameterAfter annotations type) .node := by
  refine Meets.isNext ?_ ?_
  · refine reads_consumeNode.bind fun ellipsis _ => ?_
    exact (reads_optional (by decide)).bind fun name _ => Reads.ofSlots ht (by simp) rfl rfl
  · refine (reads_optional (by decide)).bind fun name _ => ?_
    refine (looks_isNext .equal).meets fun b => ?_
    split
    · next hname =>
      obtain ⟨token, rfl⟩ := Option.isSome_iff_exists.mp (Bool.and_eq_true_iff.mp hname).1
      refine (reads_replaceContext _).bind fun _ _ => ?_
      refine reads_consumeNode.bind fun equal _ => ?_
      exact reads_value.bind fun value _ => Reads.ofSlots ht (by simp) rfl rfl
    · exact Reads.ofSlots ht (by simp) rfl rfl

/-- A parameter begins with its type; a token that begins none is recovered from. -/
theorem meets_parameterAs {kind : Kind} (annotations : Option Node) (hb : 4 ≤ bound)
    (hb' : kind ≠ .identifier → 5 ≤ bound) :
    Enters (fun k => k = kind ∨ kind = .identifier) bound [annotations]
      (parameterAs kind annotations) .node (fun _ => False) := by
  have : AtMost 4 bound := ⟨hb⟩
  unfold parameterAs
  split
  · refine Meets.within ((reads_typeDescriptor _).bind fun type ht => ?_)
    exact (reads_parameterAfter annotations ht).weaken
  · next hk =>
    have hne : kind ≠ .identifier := by
      rintro rfl
      exact hk rfl
    exact reads_recoverOver trivial (by simp) (hb' hne) rfl

theorem heeds_parameterAs (kind : Kind) (annotations : Option Node) :
    Heeds (fun k s => k = kind ∧ (Rule.request (.parameter annotations)).continues k s = true)
      (parameterAs kind annotations) := by
  unfold parameterAs
  split
  · next htype =>
    have htyped := (accepts_typeDescriptor .parameter).heeds.bindOn [annotations]
      (accepts_typeDescriptor .parameter).reads fun _ ht =>
        (reads_parameterAfter annotations ht).weaken
    exact htyped.within.mono fun k s h => h.1 ▸ htype
  · refine Heeds.unreachable ?_
    rintro _ _ ⟨rfl, h⟩
    simp_all [Rule.continues, Request.accepts, Request.overstates, ListItem.starts]

theorem asks_parameterAs (kind : Kind) (annotations : Option Node) :
    Asks (fun _ s => Request.overstates (.parameter annotations) kind s = true)
      (parameterAs kind annotations) := by
  unfold parameterAs
  split
  · refine Asks.unreachable fun _ _ h => ?_
    cases beq_iff_eq.mp h
    contradiction
  · exact asks_recoverOver trivial

/-! ## Bodies -/

/-- The arrow is consumed before the expression. -/
theorem begins_expressionBody : Begins HasNext [] expressionBody .node := by
  refine Meets.within (begins_consumeNode.bind fun arrow ha => ?_)
  refine reads_value.bind fun result _ => ?_
  exact (reads_expect _ _).bind fun semicolon _ => Reads.of ha (by simp) rfl rfl

theorem opens_externalBody : Opens HasNext 0 [] externalBody .node := by
  refine Opens.within (opens_consumeNode.bind fun equal he => ?_)
  refine reads_metadata.bind fun annotations _ => ?_
  refine (reads_expect _ _).bind fun external _ => ?_
  exact (reads_expect _ _).bind fun semicolon _ => Reads.ofSlots he (by simp) rfl rfl

theorem meets_functionBodyAs {kind : Kind} (hb : 8 ≤ bound)
    (hb' : kind ≠ .openBrace → 9 ≤ bound) :
    Enters (fun k => k = kind ∨ kind = .openBrace) bound [] (functionBodyAs kind) .node
      (fun _ => False) := by
  have : AtMost 8 bound := ⟨hb⟩
  unfold functionBodyAs
  split
  · exact opens_functionBlock.reads.weaken
  · exact begins_expressionBody.weaken (by simp +contextual)
  · exact opens_externalBody.reads.weaken
  · have hlt : 9 ≤ bound := hb' (by assumption)
    refine reads_recoverAs trivial trivial (by simp) (fun _ ho => ?_) hlt rfl rfl rfl
    exact Meets.within (reads_functionBlockAfter ho).weaken

theorem heeds_functionBodyAs (kind : Kind) :
    Heeds (fun k s => k = kind ∧ (Rule.request .functionBody).continues k s = true)
      (functionBodyAs kind) := by
  unfold functionBodyAs
  split
  · exact opens_functionBlock.begins.heedsWhere fun _ _ h _ => h.1
  · exact begins_expressionBody.heedsWhere fun _ _ _ h => h
  · exact opens_externalBody.begins.heedsWhere fun _ _ _ h => h
  · refine Heeds.unreachable ?_
    rintro _ _ ⟨rfl, h⟩
    simp_all [Rule.continues, Request.accepts, Request.overstates]

theorem reads_functionBody : Reads 10 [] functionBody .node :=
  reads_resume trivial (Nat.le_refl _) rfl

/-! ## Qualifiers -/

/-- What follows the qualifiers of a function is entered behind them, or where there is none. -/
theorem perhaps_functionQualifiers :
    Perhaps (fun k => functionQualifiers.contains k = true) (.list []) checkedFunctionQualifiers
      .piece := by
  have hitem : Begins (fun k => functionQualifiers.contains k = true) [] consumeNode .node :=
    begins_consumeNode.weaken (ne_eof_of (by decide))
  exact Perhaps.result (f := Qualifiers.check functionQualifiers) (z := .piece)
    (perhaps_many hitem) fun qualifiers _ => ⟨Qualifiers.becomes_check _ qualifiers, trivial⟩

end ParseM

end TolerantSyntax
