import TolerantSyntax.Grammar.Enter
import TolerantSyntax.Proofs.Twin.Lists

/-!
# Names and the rules entered by name, in step

A name can be read as a type and as an expression, so it suits the grammars of both.
-/

namespace TolerantSyntax

open Bracketed (Grammar)
open Node (PartTwin Twins)

/-- Names are members of tuple types and of list constructors. -/
abbrev Node.NameTwin (a b : Node) : Prop :=
  a.TwinIn (some .type) b ∧ a.TwinIn (some .expression) b

namespace ParseM

variable {a b c a' b' c' : Node}

/-! ## Names and literals -/

/-- A name is taken for an expression, a type or a pattern alike. -/
theorem nameTwin_simpleName (h : a.Twin b) : (simpleName a).NameTwin (simpleName b) :=
  ⟨.of rfl rfl (.cons h .nil), .of rfl rfl (.cons h .nil)⟩

/-- So is a name with its module. -/
theorem nameTwin_qualifiedName (ha : a.Twin a') (hb : b.Twin b') (hc : c.Twin c') :
    (qualifiedName a b c).NameTwin (qualifiedName a' b' c') :=
  ⟨.of rfl rfl (.cons ha (.cons hb (.cons hc .nil))),
    .of rfl rfl (.cons ha (.cons hb (.cons hc .nil)))⟩

/-- Both parses see the colon that goes on a name, or neither does. -/
theorem inStep_isColonName : InStep Eq isColonName isColonName :=
  (inStep_isNext _).same fun _ => (inStep_isSecond _).same fun _ => .pure rfl

/-- The third token ahead, which a conditional looks at, is of one kind in both parses too. -/
theorem inStep_isQualifierColon (inConditional : Bool) :
    InStep Eq (isQualifierColon inConditional) (isQualifierColon inConditional) := by
  refine inStep_isColonName.same fun isName => .ite (fun _ => ?_) fun _ => .pure rfl
  refine .ite (fun _ => ?_) fun _ => .pure rfl
  exact (inStep_kindAt 2).same fun _ => .pure rfl

theorem inStep_nameReference (inConditional : Bool) :
    InStep Node.NameTwin (nameReference inConditional) (nameReference inConditional) := by
  refine (inStep_expect _ _).bind fun _ _ hn => ?_
  refine (inStep_isQualifierColon _).same fun _ => .ite (fun _ => ?_) fun _ => ?_
  · refine inStep_consumeNode.bind fun _ _ hc => ?_
    exact (inStep_expect _ _).bind fun _ _ hm => .pure (nameTwin_qualifiedName hn hc hm)
  · exact .pure (nameTwin_simpleName hn)

theorem inStep_typeReference : InStep Node.NameTwin typeReference typeReference := by
  refine (inStep_expect _ _).bind fun _ _ hn => ?_
  refine inStep_isColonName.same fun _ => .ite (fun _ => ?_) fun _ => ?_
  · refine inStep_consumeNode.bind fun _ _ hc => ?_
    exact inStep_consumeNode.bind fun _ _ hm => .pure (nameTwin_qualifiedName hn hc hm)
  · exact .pure (nameTwin_simpleName hn)

/-- `int:max`: the keyword is the module of a name, and no type. -/
theorem inStep_keywordModuleReference :
    InStep Node.NameTwin keywordModuleReference keywordModuleReference := by
  refine inStep_consumeNode.bind fun _ _ hm => ?_
  refine (inStep_expect _ _).bind fun _ _ hc => ?_
  exact (inStep_expect _ _).bind fun _ _ hn => .pure (nameTwin_qualifiedName hm hc hn)

/-- Of a name, nothing but the tree may be of interest. -/
theorem InStep.name {m m' : ParseM Node} (h : InStep Node.NameTwin m m') : InStep Node.Twin m m' :=
  h.mono fun _ _ ht => ht.1.toTwin

/-- A literal suits the grammar of expressions. -/
theorem inStep_basicLiteral :
    InStep (Node.TwinIn (some .expression)) basicLiteral basicLiteral :=
  inStep_consumeNode.bind fun _ _ ht => .pure (.of rfl rfl (.cons ht .nil))

theorem inStep_numericLiteral :
    InStep (Node.TwinIn (some .expression)) numericLiteral numericLiteral := by
  refine inStep_nextKind.same fun kind => .ite (fun _ => inStep_basicLiteral) fun _ => ?_
  exact (inStep_expect _ _).bind fun _ _ ht => .pure (.of rfl rfl (.cons ht .nil))

/-- A minus sign and a number are an expression as well. -/
theorem inStep_negativeLiteral :
    InStep (Node.TwinIn (some .expression)) negativeLiteral negativeLiteral := by
  refine inStep_consumeNode.bind fun _ _ hm => inStep_numericLiteral.bind fun _ _ hn => ?_
  exact .pure (.of rfl rfl (.cons hm (.cons hn.toTwin .nil)))

/-! ## Rules -/

/-- A reference to the rule for expressions, which reads members of a list of them. -/
theorem inStep_expression (floor : Precedence) (flags : ExpressionFlags) :
    InStep (Node.TwinIn (some .expression)) (expression floor flags) (expression floor flags) :=
  inStep_resume (.expression floor flags)

theorem inStep_value : InStep (Node.TwinIn (some .expression)) value value :=
  inStep_expression _ _

theorem inStep_valueOrAction :
    InStep (Node.TwinIn (some .expression)) valueOrAction valueOrAction :=
  inStep_expression _ _

/-- A type that is read in any position can be a member of a list of types. -/
theorem inStep_typeDescriptor (context : Context) :
    InStep (Node.TwinIn (some .type)) (typeDescriptor context) (typeDescriptor context) :=
  inStep_resume (.typeDescriptor context)

theorem inStep_bindingPattern :
    InStep (Node.TwinIn (some .pattern)) bindingPattern bindingPattern :=
  inStep_resume .bindingPattern

/-- A match pattern is an item of a list, of which no grammar asks anything. -/
theorem inStep_matchPattern : InStep (Node.TwinIn none) matchPattern matchPattern :=
  inStep_resume .matchPattern

/-- A field is an item, whatever the list is that holds it. -/
theorem inStep_mappingField (context : Context) :
    InStep (Node.TwinIn none) (mappingField context) (mappingField context) :=
  inStep_resume (.mappingField context)

theorem inStep_argument : InStep (Node.TwinIn none) argument argument :=
  inStep_resume .argument

/-- A type is followed by the pattern for its values. -/
theorem inStep_typedBindingAfter (h : a.Twin b) :
    InStep (Node.TwinIn (some .pattern)) (typedBindingAfter a) (typedBindingAfter b) :=
  inStep_bindingPattern.bind fun _ _ hp =>
    .pure (.of rfl rfl (.cons h (.cons hp.toTwin .nil)))

theorem inStep_typedBinding : InStep (Node.TwinIn (some .pattern)) typedBinding typedBinding :=
  .within _ ((inStep_typeDescriptor _).bind fun _ _ ht => inStep_typedBindingAfter ht.toTwin)

theorem inStep_mappingConstructor :
    InStep (Node.TwinIn (some .expression)) mappingConstructor mappingConstructor := by
  refine (inStep_expect _ _).bind fun _ _ ho => ?_
  refine (inStep_delimited _ _ _ (by decide) (inStep_mappingField _)).bind fun _ _ hf => ?_
  exact .pure (.ofItems rfl rfl rfl rfl hf.items (by simp [ho, hf.list, hf.close]))

/-! ## Annotations and arguments -/

/-- `@name`, with or without a mapping. -/
theorem inStep_annotationEntry : InStep Node.Twin annotationEntry annotationEntry := by
  refine inStep_consumeNode.bind fun _ _ hs => inStep_typeReference.name.bind fun _ _ hr => ?_
  refine (inStep_ifNext _ inStep_mappingConstructor.twin).bind fun _ _ hm => ?_
  exact .ofSlots rfl (by simp [hs, hr, hm])

/-- Annotations are left out in both parses, or in neither. -/
theorem inStep_metadata : InStep PartTwin metadata metadata := by
  refine (inStep_isNext _).same fun _ => .ite (fun _ => .within _ ?_) fun _ => .pure .none
  refine (inStep_many _ inStep_annotationEntry).bind fun _ _ hs => ?_
  exact .pure (.some (.of rfl (.cons (.list hs) .nil)))

/-- A list and the delimiters that it stands between. -/
structure EnclosedTwin (r r' : Node × Node × Node) : Prop where
  opening : r.1.Twin r'.1
  list : r.2.1.Twin r'.2.1
  close : r.2.2.Twin r'.2.2

/-- Arguments and the parentheses that they stand between. -/
structure ArgumentsTwin (r r' : Node × Node × Node) : Prop extends EnclosedTwin r r' where
  items : r.2.1.IsItemList

/-- The arguments of a call in their parentheses; the order of them is checked alike. -/
theorem inStep_arguments : InStep ArgumentsTwin arguments arguments := by
  refine (inStep_expect _ _).bind fun _ _ ho => ?_
  refine (inStep_delimited _ _ _ (by decide) inStep_argument).bind fun _ _ hi => ?_
  exact .pure ⟨⟨ho, ItemOrder.arguments.twin_check hi.list, hi.close⟩,
    ItemOrder.arguments.isItemList_check hi.items⟩

theorem inStep_argumentList : InStep Node.Twin argumentList argumentList :=
  inStep_arguments.bind fun _ _ h =>
    .pure (.ofItems rfl rfl rfl h.items (by simp [h.opening, h.list, h.close]))

/-! ## Statements and blocks -/

theorem inStep_statement : InStep Node.Twin statement statement :=
  inStep_metadata.bind fun _ _ ha => (inStep_resume (.statement ha)).twin

theorem inStep_statements : InStep Node.Twin statements statements :=
  inStep_manyUntil _ inStep_statement

theorem inStep_block : InStep Node.Twin block block := by
  refine .within _ ((inStep_expect _ _).bind fun _ _ ho => ?_)
  refine inStep_statements.bind fun _ _ hb => (inStep_expect _ _).bind fun _ _ hc => ?_
  exact .of rfl (by simp [ho, hb, hc])

theorem inStep_functionBlockAfter (h : a.Twin b) :
    InStep Node.Twin (functionBlockAfter a) (functionBlockAfter b) := by
  refine inStep_statements.bind fun _ _ hb => (inStep_expect _ _).bind fun _ _ hc => ?_
  exact .of rfl (by simp [h, hb, hc])

theorem inStep_functionBlock : InStep Node.Twin functionBlock functionBlock :=
  .within _ ((inStep_expect _ _).bind fun _ _ ho => inStep_functionBlockAfter ho)

/-! ## Signatures -/

theorem inStep_parameter : InStep (Node.TwinIn none) parameter parameter :=
  inStep_metadata.bind fun _ _ ha => inStep_resume (.parameter ha)

theorem inStep_returnType : InStep Node.Twin returnType returnType := by
  refine .within _ ((inStep_expect _ _).bind fun _ _ hk => ?_)
  refine inStep_metadata.bind fun _ _ ha => (inStep_typeDescriptor _).bind fun _ _ ht => ?_
  exact .ofSlots rfl (by simp [hk, ha, ht.toTwin])

/-- `(parameters)` and the type that is returned; the order of parameters is checked alike. -/
theorem inStep_functionSignature : InStep Node.Twin functionSignature functionSignature := by
  refine .within _ ((inStep_expect _ _).bind fun _ _ ho => ?_)
  refine (inStep_delimited _ _ _ (by decide) inStep_parameter).bind fun _ _ hp => ?_
  have hchecked := ItemOrder.parameters.twin_check hp.list
  refine (inStep_ifNext _ inStep_returnType).bind fun _ _ hr => .pure ?_
  exact .ofItems rfl rfl rfl (ItemOrder.parameters.isItemList_check hp.items)
    (by simp [ho, hchecked, hp.close, hr])

end ParseM

end TolerantSyntax
