import TolerantSyntax.Grammar.Enter
import TolerantSyntax.Proofs.Parse.Checks
import TolerantSyntax.Proofs.Parse.Name

/-!
# Entering rules

The rules that other rules refer to, each with a bound that is above its rank, and what is made of
them alone.
-/

namespace TolerantSyntax

namespace Yield

/-- A piece between an opening and a closing delimiter. -/
def enclosed : Yield (Node × Node × Node) :=
  ⟨fun parts => [some parts.1, some parts.2.1, some parts.2.2], fun parts => parts.1.HasToken⟩

end Yield

namespace ParseM

variable {start : Kind → Prop} {bound : Nat}

/-! ## Rules by name -/

/-- An expression goes on with whatever can begin one. It can be referred to from rank 4 on, being
one level above the operands. -/
theorem accepts_expression (floor : Precedence) (flags : ExpressionFlags) :
    Accepts (fun k => Starts.expression k = true) 4 [] (expression floor flags) .node :=
  accepts_resume (.expression floor flags) trivial (Nat.le_refl _) rfl fun _ _ => rfl

theorem reads_expression (floor : Precedence) (flags : ExpressionFlags) :
    Reads 4 [] (expression floor flags) .node :=
  (accepts_expression floor flags).reads

theorem reads_value : Reads 4 [] value .node :=
  reads_expression _ _

theorem reads_valueOrAction : Reads 4 [] valueOrAction .node :=
  reads_expression _ _

/-- A type goes on with whatever can begin one. -/
theorem accepts_typeDescriptor (context : Context) :
    Accepts (fun k => Starts.type k = true) 4 [] (typeDescriptor context) .node :=
  accepts_resume (.typeDescriptor context) trivial (Nat.le_refl _) rfl fun _ _ => rfl

theorem reads_typeDescriptor (context : Context) : Reads 4 [] (typeDescriptor context) .node :=
  (accepts_typeDescriptor context).reads

/-- Binding patterns are on the lowest level, so they can be referred to before anything is
consumed. -/
theorem accepts_bindingPattern :
    Accepts (fun k => Starts.bindingPattern k = true) 2 [] bindingPattern .node :=
  accepts_resume .bindingPattern trivial (Nat.le_refl _) rfl fun _ _ => rfl

theorem reads_bindingPattern : Reads 2 [] bindingPattern .node :=
  accepts_bindingPattern.reads

theorem reads_matchPattern : Reads 2 [] matchPattern .node :=
  reads_resume trivial (Nat.le_refl _) rfl

/-- Fields refer to expressions, so they rank above them. -/
theorem reads_mappingField (context : Context) : Reads 6 [] (mappingField context) .node :=
  reads_resume trivial (Nat.le_refl _) rfl

theorem reads_argument : Reads 6 [] argument .node :=
  reads_resume trivial (Nat.le_refl _) rfl

/-- A type and the pattern behind it are two parts of one node. -/
theorem reads_typedBindingAfter {type : Node} (ht : type.HasToken) :
    Reads 2 [some type] (typedBindingAfter type) .node :=
  reads_bindingPattern.bind fun _ _ => Reads.of ht (by simp) rfl rfl

/-- A typed binding goes on with what begins a type. -/
theorem accepts_typedBinding :
    Accepts (fun k => Starts.type k = true) 4 [] typedBinding .node := by
  refine Accepts.within ?_
  exact (accepts_typeDescriptor _).bind fun type ht => (reads_typedBindingAfter ht).weaken

theorem reads_typedBinding : Reads 4 [] typedBinding .node :=
  accepts_typedBinding.reads

theorem begins_mappingConstructor : Begins (· = .openBrace) [] mappingConstructor .node := by
  refine (begins_expect (by decide) _).bind fun opening ho => ?_
  refine (reads_delimited (by decide) (reads_mappingField _)).bind fun ⟨fields, close⟩ _ => ?_
  exact Reads.of ho (by simp) rfl rfl

/-! ## Annotations -/

theorem begins_annotationEntry : Begins HasNext [] annotationEntry .node := by
  refine begins_consumeNode.bind fun sign hs => ?_
  refine opens_typeReference.reads.bind fun reference _ => ?_
  refine (reads_ifNext begins_mappingConstructor (by simp)).bind fun mapping _ => ?_
  exact Reads.ofSlots hs (by simp) rfl rfl

/-- What follows metadata is entered behind it, or where there is none. -/
theorem perhaps_metadata : Perhaps (· = .atSign) none metadata .slot := by
  refine perhaps_isNext (Meets.within ?_) .gap trivial
  have hentries : Begins (· == .atSign) [] (many (· == .atSign) annotationEntry) .filled :=
    begins_many (begins_annotationEntry.weaken (by simp +contextual))
  refine hentries.bindFrom (by simp +contextual) fun entries _ => ?_
  exact Meets.pure ((Row.Becomes.group .list _ rfl).trans (.group .metadata _ rfl)) trivial id

/-- Annotations are a list, or left out. -/
theorem reads_metadata : Reads 0 [] metadata .slot :=
  perhaps_metadata.reads

/-! ## Arguments -/

/-- Opening, list and closing stand in the row one after the other; the order of arguments flags
some. -/
theorem opens_arguments : Opens (· = .openParen) 6 [] arguments .enclosed := by
  refine (opens_expect (by decide) _).bind fun opening ho => ?_
  refine (reads_delimited (by decide) reads_argument).bind fun ⟨items, close⟩ hd => ?_
  obtain ⟨⟨nodes, hi⟩, -⟩ := hd
  subst hi
  exact Meets.pure (((ItemOrder.arguments.becomes_check nodes).append_right [some close]).cons _) ho
    id

theorem opens_argumentList : Opens (· = .openParen) 6 [] argumentList .node where
  reads := opens_arguments.reads.bind fun _ ho => Reads.of ho (by simp) rfl rfl
  begins := opens_arguments.begins.bind fun _ ho => Reads.of ho (by simp) rfl rfl

/-! ## Statements and blocks -/

/-- Statements are on the highest level but one. -/
theorem reads_statement : Reads 8 [] statement .node :=
  reads_metadata.bind fun _ _ => reads_resume trivial (Nat.le_refl _) rfl

/-- A turn that reads no token discards one, so the loop ends. -/
theorem reads_statements : Reads 8 [] statements .piece :=
  reads_manyUntil reads_statement

/-- A block begins with its brace. -/
theorem opens_block : Opens (· = .openBrace) 8 [] block .node := by
  refine Opens.within ((opens_expect (by decide) _).bind fun opening ho => ?_)
  refine reads_statements.bind fun body _ => ?_
  exact (reads_expect _ _).bind fun close _ => Reads.of ho (by simp) rfl rfl

/-- Statements up to a brace stand behind the one that opened the body. -/
theorem reads_functionBlockAfter {opening : Node} (ho : opening.HasToken) :
    Reads 8 [some opening] (functionBlockAfter opening) .node := by
  refine reads_statements.bind fun body _ => ?_
  exact (reads_expect _ _).bind fun close _ => Reads.of ho (by simp) rfl rfl

theorem opens_functionBlock : Opens (· = .openBrace) 8 [] functionBlock .node :=
  Opens.within ((opens_expect (by decide) _).bind fun _ ho => reads_functionBlockAfter ho)

/-! ## Signatures -/

/-- A parameter reads its annotations before it refers to the rule. -/
theorem reads_parameter : Reads 6 [] parameter .node :=
  reads_metadata.bind fun _ _ => reads_resume trivial (Nat.le_refl _) rfl

/-- `returns` is consumed before annotations and type. -/
theorem begins_returnType : Begins (· = .returnsKeyword) [] returnType .node := by
  refine Meets.within ((begins_expect (by decide) _).bind fun keyword hk => ?_)
  refine reads_metadata.bind fun annotations _ => ?_
  exact (reads_typeDescriptor _).bind fun type _ => Reads.ofSlots hk (by simp) rfl rfl

/-- Parameters in their order, and the type that is returned if there is one. -/
theorem opens_functionSignature : Opens (· = .openParen) 6 [] functionSignature .node := by
  refine Opens.within ((opens_expect (by decide) _).bind fun opening ho => ?_)
  refine (reads_delimited (by decide) reads_parameter).bind fun ⟨parameters, close⟩ hd => ?_
  obtain ⟨⟨nodes, hi⟩, -⟩ := hd
  subst hi
  have hcheck := ((ItemOrder.parameters.becomes_check nodes).append_right [some close]).cons
    (some opening)
  refine Meets.before hcheck ((reads_ifNext begins_returnType (by simp)).bind fun result _ => ?_)
  exact Reads.ofSlots ho (by simp) rfl rfl

end ParseM

end TolerantSyntax
