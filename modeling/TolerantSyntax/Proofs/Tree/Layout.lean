import TolerantSyntax.Tree.Edit

/-!
# Layouts

An interior node has the slots that its kind provides for, whatever recovery had to do: a part that
is not in the source is put in, or its slot is one that may stay empty. Whoever reads a tree by the
index of a slot relies on that.

A layout sees little of the parts. It asks whether a slot is filled, and of the operator of a
compound assignment whether `>=` ends it, since then the `=` is no token of its own. So edits that
leave the outlines of the parts alone keep the layout.
-/

namespace TolerantSyntax

/-! ## Parts -/

/-- When a slot is filled. -/
inductive Part where
  | always
  /-- The part is optional. -/
  | maybe
  /-- If the slot before it is. -/
  | following
  /-- Unless it is a part of the operator in the slot before it. -/
  | unfused
deriving DecidableEq, Repr

/-- What slots a kind of interior node has. -/
inductive Layout where
  /-- The kind is one of leaves. -/
  | leaf
  /-- The slots are items, as many as there are. -/
  | items
  | parts (parts : List Part)
deriving DecidableEq, Repr

/-- What a layout sees of a part: its kind, and the kind of the last of its own parts. -/
structure Outline where
  kind : Kind
  last? : Option Kind
deriving DecidableEq, Repr

namespace Node

/-- What a layout sees of a node. -/
def outline (node : Node) : Outline :=
  ⟨node.kind, node.children.getLast?.map kind⟩

/-- What a layout sees of a row of slots. -/
def outlines (slots : List (Option Node)) : List (Option Outline) :=
  slots.map (Option.map outline)

@[simp] theorem outlines_append (xs ys : List (Option Node)) :
    outlines (xs ++ ys) = outlines xs ++ outlines ys :=
  List.map_append

/-- The outline of a node follows from the outlines of its parts. -/
theorem outlines_composite (kind : Kind) (slots : List (Option Node))
    (diagnostics : List Diagnostic) :
    outlines [some (composite kind slots diagnostics)] =
      [some ⟨kind, ((outlines slots).filterMap id).getLast?.map Outline.kind⟩] := by
  have hchildren : (outlines slots).filterMap id = (slots.filterMap id).map outline := by
    simp only [outlines, List.filterMap_map, List.map_filterMap]
    rfl
  rw [hchildren, List.getLast?_map, Option.map_map]
  rfl

end Node

namespace Outline

/-- Is it an operator of several tokens, the last of which is `>=`? -/
def endsFused (outline : Outline) : Bool :=
  outline.kind == .compositeOperator && outline.last? == some .gtEqual

end Outline

/-- Is a slot filled as it should be, behind the slot `before`? -/
def Part.admits (before slot : Option Outline) : Part → Bool
  | .always => slot.isSome
  | .maybe => true
  | .following => slot.isSome || before.isNone
  | .unfused => slot.isSome || before.any Outline.endsFused

namespace Layout

/-- A layout of slots that are all filled. -/
def filled (count : Nat) : Layout :=
  .parts (List.replicate count .always)

/-- Are slots filled as they should be, behind the slot `before`? -/
def fits (before : Option Outline) : List Part → List (Option Outline) → Bool
  | [], [] => true
  | part :: further, slot :: slots => part.admits before slot && fits slot further slots
  | _, _ => false

/-- Are these the slots of a node of the layout? -/
def admits (slots : List (Option Outline)) : Layout → Bool
  | .leaf => false
  | .items => true
  | .parts expected => fits none expected slots

theorem fits_replicate (count : Nat) (before : Option Outline) (slots : List (Option Outline)) :
    fits before (List.replicate count .always) slots =
      (slots.map Option.isSome == List.replicate count true) := by
  induction count generalizing before slots with
  | zero => cases slots <;> rfl
  | succ count ih =>
    cases slots with
    | nil => rfl
    | cons slot slots =>
      rw [List.replicate_succ, fits, ih]
      simp [Part.admits, List.replicate_succ]

/-- Where all slots are filled, only that is asked of them. -/
theorem admits_filled (count : Nat) (slots : List (Option Outline)) :
    (filled count).admits slots = (slots.map Option.isSome == List.replicate count true) :=
  fits_replicate count none slots

end Layout

/-! ## The layout of each kind -/

namespace Kind

open TolerantSyntax.Part in
/-- The slots of each kind of interior node. -/
def layout : Kind → Layout
  | .modulePart => .filled 3
  | .list => .items
  | .importDeclaration => .parts [always, maybe, always, maybe, always]
  | .importOrgName | .importPrefix => .filled 2
  | .functionDefinition | .methodDeclaration | .typeDefinition =>
    .parts [maybe, always, always, always, always, always]
  | .functionSignature => .parts [always, always, always, maybe]
  | .returnTypeDescriptor => .parts [always, maybe, always]
  | .functionBodyBlock => .filled 3
  | .expressionFunctionBody => .parts [always, always, maybe]
  | .externalFunctionBody => .parts [always, maybe, always, always]
  | .requiredParameter => .parts [maybe, always, maybe]
  | .defaultableParameter => .parts [maybe, always, always, always, always]
  | .restParameter => .parts [maybe, always, always, maybe]
  | .resourcePath => .filled 2
  | .resourcePathParameter => .parts [always, always, maybe, always]
  | .moduleVariableDeclaration => .parts [maybe, always, always, maybe, maybe, always]
  | .constantDeclaration | .listenerDeclaration =>
    .parts [maybe, always, always, maybe, always, always, always, always]
  | .classDefinition | .enumDeclaration =>
    .parts [maybe, always, always, always, always, always, always]
  | .objectField => .parts [maybe, always, always, always, maybe, maybe, always]
  | .typeReference => .filled 3
  | .enumMember => .parts [maybe, always, maybe, maybe]
  | .annotationDeclaration =>
    .parts [maybe, always, always, maybe, always, maybe, following, always]
  | .annotationAttachPoint => .parts [maybe, always]
  | .serviceDeclaration =>
    .parts [maybe, always, always, maybe, maybe, always, always, always, always, always]
  | .metadata => .filled 1
  | .annotationNode => .parts [always, always, maybe]
  | .blockStatement => .filled 3
  | .localVariableDeclaration => .parts [maybe, maybe, always, maybe, maybe, always]
  | .assignmentStatement | .destructuringAssignmentStatement => .filled 4
  | .compoundAssignmentStatement => .parts [always, always, unfused, always, always]
  | .expressionStatement | .callStatement | .actionStatement => .filled 2
  | .ifElseStatement | .whileStatement => .parts [always, always, always, maybe]
  | .elseBlock => .filled 2
  | .foreachStatement | .matchStatement => .parts [always, always, always, always, always, maybe]
  | .matchClause => .parts [always, maybe, always, always]
  | .matchGuard => .filled 2
  | .doStatement | .lockStatement | .transactionStatement => .parts [always, always, maybe]
  | .onFailClause => .parts [always, always, maybe, always]
  | .returnStatement | .rollbackStatement => .parts [always, maybe, always]
  | .breakStatement | .continueStatement => .filled 2
  | .panicStatement | .failStatement => .filled 3
  | .retryStatement => .parts [always, maybe, maybe, always, maybe]
  | .forkStatement => .filled 4
  | .namedWorkerDeclaration => .parts [maybe, always, always, always, maybe, always]
  | .typedBindingPattern => .filled 2
  | .captureBindingPattern | .wildcardBindingPattern => .filled 1
  | .listBindingPattern | .mappingBindingPattern => .filled 3
  | .restBindingPattern => .filled 2
  | .fieldBindingPattern => .parts [always, maybe, maybe]
  | .errorBindingPattern | .errorMatchPattern | .errorConstructor =>
    .parts [always, maybe, always, always, always]
  | .namedArgBindingPattern | .namedArgMatchPattern => .filled 3
  | .listMatchPattern | .restMatchPattern | .mappingMatchPattern | .fieldMatchPattern => .filled 3
  | .builtinSimpleTypeDescriptor | .singletonTypeDescriptor => .filled 1
  | .nilTypeDescriptor | .arrayTypeDescriptor | .optionalTypeDescriptor | .restTypeDescriptor
  | .distinctTypeDescriptor => .filled 2
  | .parameterizedTypeDescriptor | .streamTypeDescriptor => .parts [always, maybe]
  | .typeParameter => .filled 3
  | .streamTypeParams => .parts [always, always, maybe, maybe, always]
  | .arrayDimension => .parts [always, maybe, always]
  | .unionTypeDescriptor | .intersectionTypeDescriptor | .tupleTypeDescriptor => .filled 3
  | .recordTypeDescriptor => .filled 4
  | .recordField => .parts [maybe, maybe, always, always, maybe, always]
  | .recordFieldWithDefault => .parts [maybe, maybe, always, always, always, always, always]
  | .recordRestDescriptor | .parenthesisedTypeDescriptor => .filled 3
  | .objectTypeDescriptor => .filled 5
  | .functionTypeDescriptor => .parts [always, always, maybe]
  | .simpleNameReference | .basicLiteral => .filled 1
  | .qualifiedNameReference => .filled 3
  | .nilLiteral | .unaryExpression | .typeofExpression | .trapExpression | .checkExpression
  | .checkAction => .filled 2
  | .compositeOperator => .items
  | .binaryExpression | .bracedExpression | .typeTestExpression | .fieldAccess
  | .optionalFieldAccess => .filled 3
  | .typeCastExpression => .parts [always, maybe, maybe, always, always]
  | .conditionalExpression => .filled 5
  | .indexedExpression | .functionCall => .filled 4
  | .methodCall | .remoteMethodCallAction => .filled 6
  | .positionalArgument => .filled 1
  | .namedArgument => .filled 3
  | .restArgument | .spreadMember | .spreadField => .filled 2
  | .listConstructor | .mappingConstructor => .filled 3
  | .specificField => .parts [maybe, always, maybe, maybe]
  | .computedNameField => .filled 5
  | .explicitAnonymousFunction => .filled 4
  | .implicitAnonymousFunction | .inferParamList => .filled 3
  | .implicitNewExpression => .parts [always, maybe]
  | .explicitNewExpression | .parenthesizedArgList => .filled 3
  | .letExpression => .filled 4
  | .letVariableDeclaration => .parts [maybe, always, always, always]
  | .requiredExpression | .alternateWaitExpression => .filled 1
  | .queryExpression | .queryPipeline | .whereClause | .letClause | .limitClause | .selectClause =>
    .filled 2
  | .fromClause | .onClause => .filled 4
  | .joinClause => .parts [maybe, always, always, always, always, always]
  | .orderByClause | .queryAction => .filled 3
  | .orderKey => .parts [always, maybe]
  | .asyncSendAction | .syncSendAction => .filled 3
  | .receiveAction | .waitAction => .filled 2
  | .startAction => .parts [maybe, always, always]
  | .waitFieldsList => .filled 3
  | .waitField => .parts [always, maybe, maybe]
  | .flushAction => .parts [always, maybe]
  | .commitAction => .filled 1
  | _ => .leaf

/-- Are these the slots of a node of this kind? -/
def admits (kind : Kind) (slots : List (Option Node)) : Bool :=
  kind.layout.admits (Node.outlines slots)

end Kind

end TolerantSyntax
