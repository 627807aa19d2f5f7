import TolerantSyntax.Proofs.Scope.Tokens

/-!
# Types, parameters and patterns

Each leaves what is in force as it was. Only a parameter says more exactly what it is once its
default value comes next, and it does so within a rule that ends with it.
-/

namespace TolerantSyntax.ParseM.Restores

variable {depth : Nat}

/-! ## Types -/

instance arrayDimension : Restores depth ParseM.arrayDimension := by
  unfold ParseM.arrayDimension
  infer_instance

instance typeSuffixes (type : Node) (options : TypeOptions) :
    Restores depth (ParseM.typeSuffixes type options) := by
  unfold ParseM.typeSuffixes
  refine @loop _ _ _ _ _ fun type => behind fun kind => ?_
  split <;> infer_instance

instance primaryType (context : Context) : Restores depth (ParseM.primaryType context) :=
  parse _

instance typeOperand (options : TypeOptions) : Restores depth (ParseM.typeOperand options) := by
  unfold ParseM.typeOperand
  infer_instance

instance intersectionsAfter (type : Node) (options : TypeOptions) :
    Restores depth (ParseM.intersectionsAfter type options) := by
  unfold ParseM.intersectionsAfter
  infer_instance

instance unionsAfter (type : Node) (options : TypeOptions) :
    Restores depth (ParseM.unionsAfter type options) := by
  unfold ParseM.unionsAfter
  infer_instance

instance typeAfter (primary : Node) (options : TypeOptions) :
    Restores depth (ParseM.typeAfter primary options) := by
  unfold ParseM.typeAfter
  infer_instance

instance typeDescriptorAs (kind : Kind) (context : Context) :
    Restores depth (ParseM.typeDescriptorAs kind context) := by
  unfold ParseM.typeDescriptorAs
  infer_instance

instance typeParameter : Restores depth ParseM.typeParameter := by
  unfold ParseM.typeParameter
  infer_instance

instance parameterizedType : Restores depth ParseM.parameterizedType := by
  unfold ParseM.parameterizedType
  infer_instance

instance streamParameters : Restores depth ParseM.streamParameters := by
  unfold ParseM.streamParameters
  infer_instance

instance streamType : Restores depth ParseM.streamType := by
  unfold ParseM.streamType
  infer_instance

instance parenthesisedType : Restores depth ParseM.parenthesisedType := by
  unfold ParseM.parenthesisedType
  infer_instance

instance restTypeAfter (type : Node) : Restores depth (ParseM.restTypeAfter type) := by
  unfold ParseM.restTypeAfter
  infer_instance

instance tupleMember : Restores depth ParseM.tupleMember := by
  unfold ParseM.tupleMember
  infer_instance

instance tupleTypeAfter (opening : Node) (items : List Node) :
    Restores depth (ParseM.tupleTypeAfter opening items) := by
  unfold ParseM.tupleTypeAfter
  infer_instance

instance singletonType : Restores depth ParseM.singletonType := by
  unfold ParseM.singletonType
  infer_instance

instance qualifiesReadonly : Restores depth ParseM.qualifiesReadonly := by
  unfold ParseM.qualifiesReadonly
  infer_instance

instance typeInclusion (context : Context) : Restores depth (ParseM.typeInclusion context) := by
  unfold ParseM.typeInclusion
  infer_instance

instance recordField : Restores depth ParseM.recordField := by
  unfold ParseM.recordField
  infer_instance

instance recordType : Restores depth ParseM.recordType := by
  unfold ParseM.recordType
  infer_instance

instance qualifiesMember : Restores depth ParseM.qualifiesMember := by
  unfold ParseM.qualifiesMember
  infer_instance

instance consumeWhile (more : ParseM Bool) [Restores depth more] :
    Restores depth (ParseM.consumeWhile more) := by
  unfold ParseM.consumeWhile
  infer_instance

instance classMember (objectType : Bool) : Restores depth (ParseM.classMember objectType) := by
  unfold ParseM.classMember
  infer_instance

instance objectTypeAfter (qualifiers : Node) :
    Restores depth (ParseM.objectTypeAfter qualifiers) := by
  unfold ParseM.objectTypeAfter
  infer_instance

instance functionTypeAfter (qualifiers : Node) :
    Restores depth (ParseM.functionTypeAfter qualifiers) := by
  unfold ParseM.functionTypeAfter
  infer_instance

instance qualifiedType : Restores depth ParseM.qualifiedType := by
  unfold ParseM.qualifiedType
  infer_instance

instance primaryTypeAs (kind : Kind) (context : Context) :
    Restores depth (ParseM.primaryTypeAs kind context) := by
  unfold ParseM.primaryTypeAs
  repeat' split
  all_goals infer_instance

instance recordFieldAfter (metadata isReadonly : Option Node) (type name : Node) :
    Restores depth (ParseM.recordFieldAfter metadata isReadonly type name) := by
  unfold ParseM.recordFieldAfter
  infer_instance

instance recordFieldAs (kind : Kind) (metadata : Option Node) :
    Restores depth (ParseM.recordFieldAs kind metadata) := by
  unfold ParseM.recordFieldAs
  infer_instance

/-! ## Parameters and bodies -/

/-- A parameter with a default value is known as one only when the value comes next. -/
instance parameterAfter (annotations : Option Node) (type : Node) :
    Restores (depth + 1) (ParseM.parameterAfter annotations type) := by
  unfold ParseM.parameterAfter
  infer_instance

instance parameterAs (kind : Kind) (annotations : Option Node) :
    Restores depth (ParseM.parameterAs kind annotations) := by
  unfold ParseM.parameterAs
  infer_instance

instance expressionBody : Restores depth ParseM.expressionBody := by
  unfold ParseM.expressionBody
  infer_instance

instance externalBody : Restores depth ParseM.externalBody := by
  unfold ParseM.externalBody
  infer_instance

instance functionBodyAs (kind : Kind) : Restores depth (ParseM.functionBodyAs kind) := by
  unfold ParseM.functionBodyAs
  split <;> infer_instance

instance functionBody : Restores depth ParseM.functionBody :=
  resume _

instance checkedFunctionQualifiers : Restores depth ParseM.checkedFunctionQualifiers := by
  unfold ParseM.checkedFunctionQualifiers
  infer_instance

/-! ## Variables -/

instance initialValue (moduleLevel : Bool) : Restores depth (ParseM.initialValue moduleLevel) := by
  unfold ParseM.initialValue
  infer_instance

instance variableRhsAs (kind : Kind) (metadata : Option Node) (qualifiers : List Node)
    (binding : Node) (moduleLevel : Bool) :
    Restores depth (ParseM.variableRhsAs kind metadata qualifiers binding moduleLevel) := by
  simp only [ParseM.variableRhsAs]
  split <;> infer_instance

instance localVariable (annotations : Option Node) (qualifiers : List Node) :
    Restores depth (ParseM.localVariable annotations qualifiers) := by
  unfold ParseM.localVariable
  infer_instance

/-! ## Patterns -/

instance restBinding : Restores depth ParseM.restBinding := by
  unfold ParseM.restBinding
  infer_instance

instance isTypedMember : Restores depth ParseM.isTypedMember := by
  unfold ParseM.isTypedMember
  refine behind fun kind => ?_
  split
  · infer_instance
  · refine behind fun second => ?_
    split <;> infer_instance
  · infer_instance

instance listBindingMember : Restores depth ParseM.listBindingMember := by
  unfold ParseM.listBindingMember
  infer_instance

instance listBindingAfter (opening : Node) (items : List Node) :
    Restores depth (ParseM.listBindingAfter opening items) := by
  unfold ParseM.listBindingAfter
  infer_instance

instance fieldBinding : Restores depth ParseM.fieldBinding := by
  unfold ParseM.fieldBinding
  infer_instance

instance mappingBinding : Restores depth ParseM.mappingBinding := by
  unfold ParseM.mappingBinding
  infer_instance

instance errorBindingArgument : Restores depth ParseM.errorBindingArgument := by
  unfold ParseM.errorBindingArgument
  infer_instance

instance errorBinding : Restores depth ParseM.errorBinding := by
  unfold ParseM.errorBinding
  infer_instance

instance bindingPatternAs (kind : Kind) : Restores depth (ParseM.bindingPatternAs kind) := by
  unfold ParseM.bindingPatternAs
  split <;> infer_instance

instance restMatch : Restores depth ParseM.restMatch := by
  unfold ParseM.restMatch
  infer_instance

instance listMatchMember : Restores depth ParseM.listMatchMember := by
  unfold ParseM.listMatchMember
  infer_instance

instance listMatch : Restores depth ParseM.listMatch := by
  unfold ParseM.listMatch
  infer_instance

instance fieldMatch : Restores depth ParseM.fieldMatch := by
  unfold ParseM.fieldMatch
  infer_instance

instance mappingMatch : Restores depth ParseM.mappingMatch := by
  unfold ParseM.mappingMatch
  infer_instance

instance errorMatchArgument : Restores depth ParseM.errorMatchArgument := by
  unfold ParseM.errorMatchArgument
  infer_instance

instance errorMatch : Restores depth ParseM.errorMatch := by
  unfold ParseM.errorMatch
  infer_instance

instance matchPatternAs (kind : Kind) : Restores depth (ParseM.matchPatternAs kind) := by
  unfold ParseM.matchPatternAs
  repeat' split
  all_goals infer_instance

end TolerantSyntax.ParseM.Restores
