import TolerantSyntax.Proofs.Parse.Operand
import TolerantSyntax.Proofs.Twin.Function
import TolerantSyntax.Proofs.Twin.Operator
import TolerantSyntax.Proofs.Twin.Query

/-!
# Operands in step

Whatever is read as an expression suits the grammar of expressions: its kind is neither that of a
type that is no name nor that of a binding pattern.
-/

namespace TolerantSyntax.ParseM

open Bracketed (Grammar)
open Node (PartTwin Twins)

variable {a b : Node}

/-! ## Prefix operators -/

theorem inStep_unary (flags : ExpressionFlags) :
    InStep (Node.TwinIn (some .expression)) (unary flags) (unary flags) :=
  inStep_consumeNode.bind fun _ _ ho => (inStep_expression _ _).twin.bind fun _ _ he =>
    .pure (.of rfl rfl (by simp [ho, he]))

theorem inStep_typeofExpression (flags : ExpressionFlags) :
    InStep (Node.TwinIn (some .expression)) (typeofExpression flags) (typeofExpression flags) :=
  inStep_consumeNode.bind fun _ _ hk => (inStep_expression _ _).twin.bind fun _ _ he =>
    .pure (.of rfl rfl (by simp [hk, he]))

theorem inStep_trapExpression (flags : ExpressionFlags) :
    InStep (Node.TwinIn (some .expression)) (trapExpression flags) (trapExpression flags) :=
  inStep_consumeNode.bind fun _ _ hk => (inStep_expression _ _).twin.bind fun _ _ he =>
    .pure (.of rfl rfl (by simp [hk, he]))

/-- An expression and an action that are checked have nodes of different kinds. -/
theorem twinIn_checked {keyword keyword' : Node} (hk : keyword.Twin keyword') (h : a.Twin b) :
    (Node.of (if a.kind.isAction then .checkAction else .checkExpression) [keyword, a]).TwinIn
      (some .expression)
      (.of (if b.kind.isAction then .checkAction else .checkExpression) [keyword', b]) := by
  rw [h.kind_eq]
  split
  all_goals exact .of rfl rfl (by simp [hk, h])

/-- The operand decides what is made of `check`: an action or an expression. -/
theorem inStep_checkExpression (flags : ExpressionFlags) :
    InStep (Node.TwinIn (some .expression)) (checkExpression flags) (checkExpression flags) := by
  refine inStep_consumeNode.bind fun _ _ hk => (inStep_expression _ _).bind fun _ _ he => ?_
  refine inStep_nextKind.same fun kind => .ite (fun _ => ?_) fun _ => ?_
  · refine (inStep_operatorsAfter _ _ he).bind fun _ _ ho => ?_
    exact .pure (twinIn_checked hk ho.toTwin)
  · refine (InStep.pure he).bind fun _ _ ho => ?_
    exact .pure (twinIn_checked hk ho.toTwin)

/-- `<type> operand`, with annotations in place of the type or before it. -/
theorem inStep_typeCast (flags : ExpressionFlags) :
    InStep (Node.TwinIn (some .expression)) (typeCast flags) (typeCast flags) := by
  refine .within _ (inStep_consumeNode.bind fun _ _ ho => inStep_metadata.bind fun _ _ hm => ?_)
  refine (inStep_isNext _).same fun _ => .ite (fun _ => InStep.noPart.bind fun _ _ ht => ?_)
    fun _ => (inStep_typeDescriptor _).twin.part.bind fun _ _ ht => ?_
  all_goals
    refine (inStep_expect _ _).bind fun _ _ hc => (inStep_expression _ _).twin.bind fun _ _ he => ?_
    exact .pure (.ofSlots rfl rfl (by simp [ho, hm, ht, hc, he]))

/-! ## Functions -/

theorem inStep_arrowFunctionAfter (flags : ExpressionFlags) (h : a.Twin b) :
    InStep (Node.TwinIn (some .expression)) (arrowFunctionAfter a flags)
      (arrowFunctionAfter b flags) := by
  refine (inStep_expect _ _).bind fun _ _ ha => (inStep_expression _ _).twin.bind fun _ _ he => ?_
  exact .pure (.of rfl rfl (by simp [h, ha, he]))

theorem inStep_namedArrowFunction (flags : ExpressionFlags) :
    InStep (Node.TwinIn (some .expression)) (namedArrowFunction flags)
      (namedArrowFunction flags) :=
  .within _ (inStep_consumeNode.bind fun _ _ hn =>
    inStep_arrowFunctionAfter flags (nameTwin_simpleName hn).1.toTwin)

/-- Names and commas up to the parenthesis that closes. -/
theorem inStep_inferredNames : InStep Twins inferredNames inferredNames := by
  refine .loop (R := Twins) .nil fun xs ys hx => (inStep_isNext _).same fun _ => ?_
  refine .ite (fun _ => .pure (.inr hx)) fun _ => inStep_consumeNode.bind fun _ _ hn => ?_
  refine (inStep_optional _).bind fun _ _ hc => .pure (.inl (List.rel_append hx ?_))
  exact .cons (nameTwin_simpleName hn).1.toTwin (Node.twins_toList hc)

/-- The names have commas between them where they have been seen ahead. -/
theorem inStep_inferredArrowFunction (flags : ExpressionFlags) :
    InStepWhere (fun p _ => InfersParameters p) (Node.TwinIn (some .expression))
      (inferredArrowFunction flags) (inferredArrowFunction flags) := by
  refine .within .arrowFunction (fun _ _ h => h) ?_
  refine inStep_consumeNode.finding (fun _ p => NamesRead [] p) ?_ fun _ _ ho => ?_
  · intro _ p p' opening hv hinfers hrun
    obtain ⟨token, q, htoken, hq⟩ := bind_eq_some_iff.mp hrun
    cases hq
    exact hinfers.namesRead hv htoken
  refine (inStep_inferredNames.learning alternates_inferredNames).bind fun names _ hn => ?_
  refine inStep_consumeNode.bind fun _ _ hc => inStep_arrowFunctionAfter flags ?_
  exact .ofItems rfl rfl rfl (Node.isItemList_list hn.2) (by simp [ho, Node.Twin.list hn.1, hc])

/-- An expression behind an arrow, or a block. -/
theorem inStep_anonymousBody : InStep Node.Twin anonymousBody anonymousBody := by
  refine (inStep_isNext _).same fun _ => .ite (fun _ => ?_) fun _ => inStep_functionBlock
  refine inStep_consumeNode.bind fun _ _ ha => inStep_value.twin.bind fun _ _ hv => ?_
  exact .ofSlots rfl (by simp [ha, hv])

theorem inStep_anonymousFunction :
    InStep (Node.TwinIn (some .expression)) anonymousFunction anonymousFunction := by
  refine .within _ (inStep_checkedFunctionQualifiers.bind fun _ _ hq => ?_)
  refine (inStep_expect _ _).bind fun _ _ hk => inStep_functionSignature.bind fun _ _ hs => ?_
  exact inStep_anonymousBody.bind fun _ _ hb => .pure (.of rfl rfl (by simp [hq, hk, hs, hb]))

/-! ## Parentheses and constructors -/

theorem inStep_braced (flags : ExpressionFlags) :
    InStep (Node.TwinIn (some .expression)) (braced flags) (braced flags) := by
  refine .within _ (inStep_consumeNode.bind fun _ _ ho => (inStep_isNext _).same fun _ => ?_)
  refine .ite (fun _ => ?_) fun _ => ?_
  · exact inStep_consumeNode.bind fun _ _ hc => .pure (.of rfl rfl (by simp [ho, hc]))
  · refine (inStep_expression _ _).twin.bind fun _ _ he => ?_
    exact (inStep_expect _ _).bind fun _ _ hc => .pure (.of rfl rfl (by simp [ho, he, hc]))

/-- Both parses see whether names and an arrow come next; where they do, the names have commas
between them. -/
theorem inStep_bracedOrArrowFunction (flags : ExpressionFlags) :
    InStep (Node.TwinIn (some .expression)) (bracedOrArrowFunction flags)
      (bracedOrArrowFunction flags) := by
  refine InStepWhere.inStep ?_
  refine inStep_upcoming.finding
    (fun kinds p => Lookahead.infersParameters kinds = true → InfersParameters p) ?_
    fun kinds _ heq => ?_
  · intro env p p' kinds hv _ hrun hinfers
    obtain ⟨count, q, hupcoming, hs⟩ := upcoming_eq env hv
    cases hrun.symm.trans hupcoming
    exact ⟨count, hs.place ▸ hinfers⟩
  subst heq
  refine .ite (fun hinfers => ?_) fun _ => (inStep_braced flags).anywhere
  exact (inStep_inferredArrowFunction flags).weaken fun _ _ hsees => hsees hinfers

/-- A member of a list constructor is an expression, with `...` and without. -/
theorem inStep_listMember : InStep (Node.TwinIn (some .expression)) listMember listMember := by
  refine (inStep_isNext _).same fun _ => .ite (fun _ => ?_) fun _ => inStep_value
  refine inStep_consumeNode.bind fun _ _ he => inStep_value.twin.bind fun _ _ hv => ?_
  exact .pure (.of rfl rfl (by simp [he, hv]))

/-- The members of a list constructor are expressions, if those that have been read are. -/
theorem inStep_listConstructorAfter {last : Bool} {xs ys : List Node} (ho : a.Twin b)
    (hx : ItemTwins (some .expression) false last xs ys) (hl : xs = [] ∨ last = true) :
    InStep (Node.TwinIn (some .expression)) (listConstructorAfter a xs)
      (listConstructorAfter b ys) :=
  (inStep_delimitedAfter hx hl _ _ _ (by decide) inStep_listMember).bind fun _ _ hm =>
    .pure (.bracketed rfl rfl ho hm.list hm.items (hm.joins _ rfl) hm.close)

theorem inStep_listConstructor :
    InStep (Node.TwinIn (some .expression)) listConstructor listConstructor :=
  (inStep_expect _ _).bind fun _ _ ho => inStep_listConstructorAfter ho .nil (.inl rfl)

theorem inStep_errorConstructor :
    InStep (Node.TwinIn (some .expression)) errorConstructor errorConstructor := by
  refine (inStep_expect _ _).bind fun _ _ hk => ?_
  refine (inStep_ifNext _ inStep_typeReference.name).bind fun _ _ ht => ?_
  refine inStep_arguments.bind fun _ _ hi => ?_
  exact .pure (.ofItems rfl rfl rfl rfl hi.items
    (by simp [hk, ht, hi.opening, hi.list, hi.close]))

theorem inStep_newExpression :
    InStep (Node.TwinIn (some .expression)) newExpression newExpression := by
  refine .within _ (inStep_consumeNode.bind fun _ _ hk => inStep_nextKind.same fun kind => ?_)
  split
  · exact inStep_argumentList.bind fun _ _ ha => .pure (.of rfl rfl (by simp [hk, ha]))
  · refine inStep_typeReference.name.bind fun _ _ ht => inStep_argumentList.bind fun _ _ ha => ?_
    exact .pure (.of rfl rfl (by simp [hk, ht, ha]))
  · refine (inStep_typeDescriptor _).twin.bind fun _ _ ht => ?_
    exact inStep_argumentList.bind fun _ _ ha => .pure (.of rfl rfl (by simp [hk, ht, ha]))
  · exact .pure (.ofSlots rfl rfl (by simp [hk]))

/-- `let declarations in body`, with commas between the declarations. -/
theorem inStep_letExpression (flags : ExpressionFlags) :
    InStep (Node.TwinIn (some .expression)) (letExpression flags) (letExpression flags) := by
  refine .within _ (inStep_consumeNode.bind fun _ _ hk => ?_)
  refine (inStep_delimited _ _ _ (by decide) inStep_letVariable).bind fun _ _ hd => ?_
  refine (inStep_expression _ _).twin.bind fun _ _ hb => ?_
  exact .pure (.ofItems rfl rfl rfl rfl hd.items (by simp [hk, hd.list, hd.close, hb]))

/-! ## All together -/

/-- A name, or the one parameter of a function; in a match guard it is always a name. -/
theorem inStep_nameOrArrowFunction (flags : ExpressionFlags) :
    InStep (Node.TwinIn (some .expression)) (nameOrArrowFunction flags)
      (nameOrArrowFunction flags) := by
  refine (inStep_isSecond _).same fun _ => .ite (fun _ => ?_) fun _ => ?_
  · exact inStep_namedArrowFunction flags
  · exact (inStep_nameReference _).mono fun _ _ ht => ht.2

/-- An operand of any form, by the kind of its first token and a look at the second. -/
theorem inStep_operandAs (kind : Kind) (floor : Precedence) (flags : ExpressionFlags) :
    InStep (Node.TwinIn (some .expression)) (operandAs kind floor flags)
      (operandAs kind floor flags) := by
  refine (inStep_isSecond _).same fun _ => .ite (fun _ => ?_) fun _ =>
    .ite (fun _ => inStep_basicLiteral) fun _ => ?_
  · exact inStep_keywordModuleReference.mono fun _ _ ht => ht.2
  split
  · exact inStep_nameOrArrowFunction flags
  · exact inStep_bracedOrArrowFunction flags
  · exact inStep_listConstructor
  · exact inStep_mappingConstructor
  iterate 4 exact inStep_unary flags
  · exact inStep_typeofExpression flags
  · exact inStep_trapExpression flags
  iterate 2 exact inStep_checkExpression flags
  · exact inStep_typeCast flags
  · exact inStep_errorConstructor
  iterate 3 exact inStep_anonymousFunction
  · exact inStep_newExpression
  · exact inStep_letExpression flags
  · exact inStep_query flags
  iterate 2 exact inStep_startAction flags
  · exact inStep_waitAction flags
  · exact inStep_flushAction flags
  · exact inStep_commitAction flags
  · exact inStep_receiveAction flags
  · exact inStep_recoverAs (.operand floor flags) (.expression floor flags) rfl fun _ _ ht =>
      .pure (nameTwin_simpleName ht).2

/-- An operand and the operators behind it. -/
theorem inStep_expressionAs (kind : Kind) (floor : Precedence) (flags : ExpressionFlags) :
    InStep (Node.TwinIn (some .expression)) (expressionAs kind floor flags)
      (expressionAs kind floor flags) :=
  .within _ ((InStep.parseAs (.operand floor flags) kind).bind fun _ _ ho =>
    inStep_operatorsAfter floor flags ho)

/-! ## Arguments and fields -/

/-- `name = value` is an item of the list of arguments. -/
theorem inStep_namedArgument : InStep (Node.TwinIn none) namedArgument namedArgument := by
  refine inStep_consumeNode.bind fun _ _ hn => inStep_consumeNode.bind fun _ _ he => ?_
  refine inStep_value.twin.bind fun _ _ hv => .pure (.of rfl rfl ?_)
  exact .cons (nameTwin_simpleName hn).1.toTwin (.cons he (.cons hv .nil))

/-- An argument of any form. -/
theorem inStep_argumentAs (kind : Kind) :
    InStep (Node.TwinIn none) (argumentAs kind) (argumentAs kind) := by
  refine .ite (fun _ => ?_) fun _ => (inStep_isSecond _).same fun _ => .ite (fun _ => ?_) fun _ =>
    .ite (fun _ => ?_) fun _ => ?_
  · refine inStep_consumeNode.bind fun _ _ he => inStep_value.twin.bind fun _ _ hv => ?_
    exact .pure (.of rfl rfl (by simp [he, hv]))
  · exact inStep_namedArgument
  · exact (InStep.parseAs (.request (.expression _ _)) kind).twin.bind fun _ _ he =>
      .pure (.of rfl rfl (.cons he .nil))
  · exact inStep_recoverAs (.request .argument) .argument rfl fun _ _ ht =>
      .pure (Node.TwinIn.of rfl rfl (.cons (nameTwin_simpleName ht).1.toTwin .nil))

theorem inStep_specificField : InStep (Node.TwinIn none) specificField specificField := by
  refine .within _ ((inStep_optional _).bind fun _ _ hr => (inStep_isNext _).same fun _ => ?_)
  refine .ite (fun _ => inStep_consumeNode.bind fun key key' hk => ?_) fun _ =>
    (inStep_expect _ _).bind fun key key' hk => ?_
  all_goals
    refine (inStep_isNext _).same fun _ => ?_
    rw [hk.kind_eq]
    refine .ite (fun _ => ?_) fun _ => .pure (.ofSlots rfl rfl (by simp [hr, hk]))
    refine (inStep_expect _ _).bind fun _ _ hc => inStep_value.twin.bind fun _ _ hv => ?_
    exact .pure (.ofSlots rfl rfl (by simp [hr, hk, hc, hv]))

theorem inStep_computedField : InStep (Node.TwinIn none) computedField computedField := by
  refine .within _ (inStep_consumeNode.bind fun _ _ ho => inStep_value.twin.bind fun _ _ hk => ?_)
  refine (inStep_expect _ _).bind fun _ _ hc => (inStep_expect _ _).bind fun _ _ hcolon => ?_
  exact inStep_value.twin.bind fun _ _ hv =>
    .pure (.of rfl rfl (by simp [ho, hk, hc, hcolon, hv]))

/-- A field of any form, by the kind of its first token. -/
theorem inStep_mappingFieldAs (kind : Kind) (context : Context) :
    InStep (Node.TwinIn none) (mappingFieldAs kind context) (mappingFieldAs kind context) := by
  unfold mappingFieldAs
  split
  iterate 3 exact inStep_specificField
  · exact inStep_computedField
  · refine inStep_consumeNode.bind fun _ _ he => inStep_value.twin.bind fun _ _ hv => ?_
    exact .pure (.of rfl rfl (by simp [he, hv]))
  · have hrequest := Request.Twin.mappingField context
    exact inStep_recoverAs (.request hrequest) hrequest rfl fun _ _ ht =>
      .pure (Node.TwinIn.ofSlots rfl rfl (by simp [ht]))

end TolerantSyntax.ParseM
