import TolerantSyntax.Proofs.Scope.State

/-!
# Tokens, lists and the rules that others refer to

Looking ahead changes nothing that is in force, recovery runs the rule of a request at most, and a
delimited list is a rule in progress of its own. The rules that others refer to run through the
environment, so all that is known of them is that they leave what is in force as it was.
-/

namespace TolerantSyntax.ParseM.Restores

variable {depth : Nat}

/-! ## Tokens -/

instance kindAt (ahead : Nat) : Restores depth (ParseM.kindAt ahead) := by
  unfold ParseM.kindAt
  infer_instance

instance nextKind : Restores depth ParseM.nextKind :=
  kindAt 0

instance isNext (kind : Kind) : Restores depth (ParseM.isNext kind) := by
  unfold ParseM.isNext
  infer_instance

instance isSecond (kind : Kind) : Restores depth (ParseM.isSecond kind) := by
  unfold ParseM.isSecond
  infer_instance

instance position : Restores depth ParseM.position := by
  unfold ParseM.position
  infer_instance

instance consumeNode : Restores depth ParseM.consumeNode := by
  unfold ParseM.consumeNode
  infer_instance

instance consumeAs (kind : Kind) : Restores depth (ParseM.consumeAs kind) := by
  unfold ParseM.consumeAs
  infer_instance

instance optional (kind : Kind) : Restores depth (ParseM.optional kind) := by
  unfold ParseM.optional
  infer_instance

instance ifNext (kind : Kind) (part : ParseM Node) [Restores depth part] :
    Restores depth (ParseM.ifNext kind part) := by
  unfold ParseM.ifNext
  infer_instance

instance discard : Restores depth ParseM.discard := by
  constructor
  intro _ before after _ he hrun
  obtain ⟨atEnd, q, hnext, hrun⟩ := bind_eq_some_iff.mp hrun
  refine ((isNext .eof).run he hnext).trans ?_
  cases atEnd with
  | true =>
    cases hrun
    exact .refl _
  | false =>
    cases hrun
    exact .of_reader q.reader.modes_consume q.reader.consumed_le_consume

instance missing (kind : Kind) (code : DiagnosticCode) :
    Restores depth (ParseM.missing kind code) := by
  unfold ParseM.missing
  infer_instance

instance parse (rule : Rule) : Restores depth (ParseM.parse rule) := by
  unfold ParseM.parse
  infer_instance

instance resume (request : Request) : Restores depth (ParseM.resume request) :=
  parse _

instance decide (request : Request) : Restores depth (ParseM.decide request) := by
  constructor
  intro _ _ _ _ he hrun
  obtain ⟨_, q, hnext, hrun⟩ := bind_eq_some_iff.mp hrun
  obtain ⟨_, r, hsecond, hrun⟩ := bind_eq_some_iff.mp hrun
  -- what has been asked is noted, and nothing else changes
  refine ((nextKind.run he hnext).trans ((kindAt 1).run he hsecond)).trans ?_
  cases hrun
  exact ⟨rfl, rfl, Nat.le_refl _⟩

instance skip (request : Request) : Restores depth (ParseM.skip request) := by
  unfold ParseM.skip
  infer_instance

instance recover (request : Request) : Restores depth (ParseM.recover request) := by
  unfold ParseM.recover
  refine behind fun decision => ?_
  cases decision <;> infer_instance

instance recoverAs (rule : Rule) (request : Request) (whenMissing : Node → ParseM Node)
    [∀ token, Restores depth (whenMissing token)] :
    Restores depth (ParseM.recoverAs rule request whenMissing) := by
  unfold ParseM.recoverAs
  refine behind fun solution => ?_
  cases solution <;> infer_instance

instance recoverOver (request : Request) : Restores depth (ParseM.recoverOver request) := by
  unfold ParseM.recoverOver
  refine behind fun solution => ?_
  cases solution <;> infer_instance

instance expectAs (kind expected : Kind) (context : Context) :
    Restores depth (ParseM.expectAs kind expected context) := by
  unfold ParseM.expectAs
  split
  · infer_instance
  · refine behind fun solution => ?_
    cases solution <;> infer_instance

instance expect (expected : Kind) (context : Context) :
    Restores depth (ParseM.expect expected context) := by
  unfold ParseM.expect
  infer_instance

/-! ## Lists -/

instance many (more : Kind → Bool) (item : ParseM Node) [Restores depth item] :
    Restores depth (ParseM.many more item) := by
  unfold ParseM.many
  infer_instance

instance manyUntil (isEnd : Kind → Bool) (item : ParseM Node) [Restores depth item] :
    Restores depth (ParseM.manyUntil isEnd item) := by
  unfold ParseM.manyUntil
  infer_instance

instance separated (separator : Kind) (item : ParseM Node) [Restores depth item] :
    Restores depth (ParseM.separated separator item) := by
  unfold ParseM.separated
  infer_instance

instance listEndAs (kind : Kind) (context : Context) (close : Kind) (item : ListItem) :
    Restores depth (ParseM.listEndAs kind context close item) := by
  unfold ParseM.listEndAs
  split
  · infer_instance
  · refine behind fun solution => ?_
    cases solution <;> infer_instance

instance listEnd (context : Context) (close : Kind) (item : ListItem) :
    Restores depth (ParseM.listEnd context close item) := by
  unfold ParseM.listEnd
  infer_instance

instance firstItem (item : ListItem) (readItem : ParseM Node) [Restores depth readItem] :
    Restores depth (ParseM.firstItem item readItem) := by
  unfold ParseM.firstItem
  infer_instance

instance moreItems (context : Context) (close : Kind) (item : ListItem) (items : List Node)
    (readItem : ParseM Node) [Restores depth readItem] :
    Restores depth (ParseM.moreItems context close item items readItem) := by
  unfold ParseM.moreItems
  infer_instance

/-- The items are read within the list. -/
instance delimitedAfter (items : List Node) (context : Context) (close : Kind) (item : ListItem)
    (readItem : ParseM Node) [Restores (depth + 1) readItem] :
    Restores depth (ParseM.delimitedAfter items context close item readItem) := by
  unfold ParseM.delimitedAfter
  infer_instance

instance delimited (context : Context) (close : Kind) (item : ListItem) (readItem : ParseM Node)
    [Restores (depth + 1) readItem] :
    Restores depth (ParseM.delimited context close item readItem) := by
  unfold ParseM.delimited
  infer_instance

/-! ## Names and literals -/

instance isColonName : Restores depth ParseM.isColonName := by
  unfold ParseM.isColonName
  infer_instance

instance isQualifierColon (inConditional : Bool) :
    Restores depth (ParseM.isQualifierColon inConditional) := by
  unfold ParseM.isQualifierColon
  infer_instance

instance nameReference (inConditional : Bool) :
    Restores depth (ParseM.nameReference inConditional) := by
  unfold ParseM.nameReference
  infer_instance

instance typeReference : Restores depth ParseM.typeReference := by
  unfold ParseM.typeReference
  infer_instance

instance keywordModuleReference : Restores depth ParseM.keywordModuleReference := by
  unfold ParseM.keywordModuleReference
  infer_instance

instance basicLiteral : Restores depth ParseM.basicLiteral := by
  unfold ParseM.basicLiteral
  infer_instance

instance numericLiteral : Restores depth ParseM.numericLiteral := by
  unfold ParseM.numericLiteral
  infer_instance

instance negativeLiteral : Restores depth ParseM.negativeLiteral := by
  unfold ParseM.negativeLiteral
  infer_instance

/-! ## Rules by name -/

instance expression (floor : Precedence) (flags : ExpressionFlags) :
    Restores depth (ParseM.expression floor flags) :=
  resume _

instance value : Restores depth ParseM.value :=
  expression _ _

instance valueOrAction : Restores depth ParseM.valueOrAction :=
  expression _ _

instance typeDescriptor (context : Context) : Restores depth (ParseM.typeDescriptor context) :=
  resume _

instance bindingPattern : Restores depth ParseM.bindingPattern :=
  resume _

instance typedBindingAfter (type : Node) : Restores depth (ParseM.typedBindingAfter type) := by
  unfold ParseM.typedBindingAfter
  infer_instance

instance typedBinding : Restores depth ParseM.typedBinding := by
  unfold ParseM.typedBinding
  infer_instance

instance matchPattern : Restores depth ParseM.matchPattern :=
  resume _

instance mappingField (context : Context) : Restores depth (ParseM.mappingField context) :=
  resume _

instance mappingConstructor : Restores depth ParseM.mappingConstructor := by
  unfold ParseM.mappingConstructor
  infer_instance

instance annotationEntry : Restores depth ParseM.annotationEntry := by
  unfold ParseM.annotationEntry
  infer_instance

instance metadata : Restores depth ParseM.metadata := by
  unfold ParseM.metadata
  infer_instance

instance argument : Restores depth ParseM.argument :=
  resume _

instance arguments : Restores depth ParseM.arguments := by
  unfold ParseM.arguments
  infer_instance

instance argumentList : Restores depth ParseM.argumentList := by
  unfold ParseM.argumentList
  infer_instance

instance statement : Restores depth ParseM.statement := by
  unfold ParseM.statement
  infer_instance

instance statements : Restores depth ParseM.statements := by
  unfold ParseM.statements
  infer_instance

instance block : Restores depth ParseM.block := by
  unfold ParseM.block
  infer_instance

instance functionBlockAfter (opening : Node) :
    Restores depth (ParseM.functionBlockAfter opening) := by
  unfold ParseM.functionBlockAfter
  infer_instance

instance functionBlock : Restores depth ParseM.functionBlock := by
  unfold ParseM.functionBlock
  infer_instance

instance parameter : Restores depth ParseM.parameter := by
  unfold ParseM.parameter
  infer_instance

instance returnType : Restores depth ParseM.returnType := by
  unfold ParseM.returnType
  infer_instance

instance functionSignature : Restores depth ParseM.functionSignature := by
  unfold ParseM.functionSignature
  infer_instance

end TolerantSyntax.ParseM.Restores
