import TolerantSyntax.Grammar.Context
import TolerantSyntax.Grammar.Precedence
import TolerantSyntax.Grammar.Starts
import TolerantSyntax.Tree.Basic

/-!
# Requests

A rule that meets an unexpected token says so with a request: which rule it is, with what it had
read before it got stuck. The request is enough to go on later. It says which tokens the rule could
continue with, which token to put in if one has to be put in, and how its absence is reported.
-/

namespace TolerantSyntax

/-! ## Flags of expressions -/

/-- What the surroundings of an expression permit. -/
structure ExpressionFlags where
  /-- Is it to the right of something? If not, an operator that `=` follows ends the expression. -/
  isRhs : Bool := false
  /-- Are actions allowed? -/
  allowActions : Bool := false
  /-- Is it a match guard? There `x =>` ends the guard. -/
  inMatchGuard : Bool := false
  /-- Is it the middle of a conditional? -/
  inConditional : Bool := false
deriving DecidableEq, Repr, Inhabited

namespace ExpressionFlags

/-- On the right of something, without actions. -/
def rhs : ExpressionFlags :=
  { isRhs := true }

/-- At the start of a statement. -/
def statementStart : ExpressionFlags :=
  { allowActions := true }

/-- With actions allowed or not. -/
def withActions (flags : ExpressionFlags) (allowed : Bool) : ExpressionFlags :=
  { flags with allowActions := allowed }

/-- With no actions allowed. -/
def withoutActions (flags : ExpressionFlags) : ExpressionFlags :=
  flags.withActions false

/-- In the middle of a conditional. -/
def withConditional (flags : ExpressionFlags) : ExpressionFlags :=
  { flags with inConditional := true }

/-- In a match guard. -/
def withMatchGuard (flags : ExpressionFlags) : ExpressionFlags :=
  { flags with inMatchGuard := true }

/-- For an operand: always on the right, never the middle of a conditional. -/
def nested (flags : ExpressionFlags) : ExpressionFlags :=
  { flags with isRhs := true, inConditional := false }

end ExpressionFlags

/-! ## Requests -/

/-- A rule that could not go on, with what it had read. -/
inductive Request where
  /-- One token of a known kind. -/
  | token (context : Context) (expected : Kind)
  /-- A separator or the closing delimiter of a list. -/
  | listEnd (context : Context) (close : Kind) (item : ListItem)
  /-- An import from its keyword on. -/
  | importDeclaration
  /-- A declaration behind its metadata and qualifiers. -/
  | moduleMember (metadata : Option Node) (qualifiers : List Node)
  /-- A statement behind its annotations. -/
  | statement (annotations : Option Node)
  /-- What follows the left-hand side of a statement. -/
  | statementRhs (annotations : Option Node) (lhs : Node)
  /-- A member of a class or an object type behind its metadata and qualifiers. -/
  | classMember (metadata : Option Node) (qualifiers : List Node) (objectType : Bool)
  /-- A field of a record type behind its metadata. -/
  | recordField (metadata : Option Node)
  /-- A parameter behind its annotations. -/
  | parameter (annotations : Option Node)
  /-- An argument of a call. -/
  | argument
  /-- A type in some position. -/
  | typeDescriptor (context : Context)
  | bindingPattern
  | matchPattern
  /-- An expression above a floor. -/
  | expression (floor : Precedence) (flags : ExpressionFlags)
  | functionBody
  /-- The initial value or the end of a variable declaration. -/
  | variableRhs (metadata : Option Node) (qualifiers : List Node) (binding : Node)
      (moduleLevel : Bool)
  /-- What follows `else`. -/
  | elseBody
  /-- What follows the clauses in the middle of a query. -/
  | queryEnd (pipeline : Node) (flags : ExpressionFlags)
  /-- A field of a mapping constructor. -/
  | mappingField (context : Context)

namespace Request

/-- The request that enters the rule of a context from nothing. A rule without a request of its own
is entered by way of the nearest rule around it that begins with a token and parses it whole. A rule
that goes on from something already read has none. -/
def ofContext? (context : Context) : Option Request :=
  match context with
  | .compilationUnit | .moduleMember | .functionDefinition | .moduleVariableDeclaration
  | .constantDeclaration | .typeDefinition | .classDefinition | .enumDeclaration
  | .annotationDeclaration | .listenerDeclaration | .serviceDeclaration =>
    some (.moduleMember none [])
  | .importDeclaration => some .importDeclaration
  | .statement | .blockStatement | .localVariableDeclaration | .assignmentStatement
  | .compoundAssignmentStatement | .destructuringAssignment | .expressionStatement | .ifBlock
  | .whileBlock | .foreachStatement | .matchStatement | .doBlock | .returnStatement
  | .breakStatement | .continueStatement | .panicStatement | .failStatement | .lockStatement
  | .transactionStatement | .retryStatement | .rollbackStatement | .forkStatement
  | .namedWorkerDeclaration | .queryAction | .ambiguousList => some (.statement none)
  | .classMember | .objectField => some (.classMember none [] false)
  | .objectMember => some (.classMember none [] true)
  | .recordField => some (.recordField none)
  | .parameter | .defaultableParameter => some (.parameter none)
  | .argument => some .argument
  | .typeDescriptor | .tupleTypeDescriptor | .recordTypeDescriptor | .objectTypeDescriptor
  | .functionTypeDescriptor | .parenthesisedTypeDescriptor => some (.typeDescriptor context)
  | .bindingPattern | .listBindingPattern | .mappingBindingPattern | .errorBindingPattern =>
    some .bindingPattern
  | .matchPattern | .listMatchPattern | .mappingMatchPattern | .errorMatchPattern =>
    some .matchPattern
  | .expression | .bracedExpression | .listConstructor | .mappingConstructor | .typeCast
  | .anonymousFunction | .arrowFunction | .newExpression | .letExpression | .queryExpression
  | .startAction | .waitAction | .flushAction | .receiveAction =>
    some (.expression .default (ExpressionFlags.rhs.withActions true))
  | .functionBody | .functionBodyBlock | .externalFunctionBody | .expressionFunctionBody =>
    some .functionBody
  | .elseBlock => some .elseBody
  | .mappingField | .computedFieldName => some (.mappingField .mappingConstructor)
  | _ => none

/-- The rule that a request belongs to. -/
def context : Request → Context
  | token context _ => context
  | listEnd context _ _ => context
  | importDeclaration => .importDeclaration
  | moduleMember .. => .moduleMember
  | statement _ => .statement
  | statementRhs .. => .expressionStatement
  | classMember _ _ objectType => if objectType then .objectMember else .classMember
  | recordField _ => .recordField
  | parameter _ => .parameter
  | argument => .argument
  | typeDescriptor _ => .typeDescriptor
  | bindingPattern => .bindingPattern
  | matchPattern => .matchPattern
  | expression .. => .expression
  | functionBody => .functionBody
  | variableRhs .. => .variableDeclarationRhs
  | elseBody => .elseBlock
  | queryEnd .. => .queryExpression
  | mappingField _ => .mappingField

/-- Can the rule continue with a token of this kind? -/
def accepts (request : Request) (kind : Kind) : Bool :=
  match request with
  | token _ expected => kind == expected
  | listEnd _ close _ => kind == .comma || kind == close
  | importDeclaration => kind == .importKeyword
  | moduleMember .. => Starts.moduleMember kind
  | statement _ => Starts.statement kind
  | statementRhs .. | variableRhs .. => kind == .equal || kind == .semicolon
  | classMember .. => Starts.classMember kind
  | recordField _ => Starts.recordField kind
  | parameter _ => ListItem.parameter.starts kind
  | argument => ListItem.argument.starts kind
  | typeDescriptor _ => Starts.type kind
  | bindingPattern => Starts.bindingPattern kind
  | matchPattern => Starts.matchPattern kind
  | expression .. => Starts.expression kind
  | functionBody => kind == .openBrace || kind == .rightDoubleArrow || kind == .equal
  | elseBody => kind == .ifKeyword || kind == .openBrace
  | queryEnd .. => kind == .selectKeyword || kind == .doKeyword || Starts.intermediateClause kind
  | mappingField _ => Starts.mappingField kind

/-- The kind of token to put in when one has to be put in. -/
def primary : Request → Kind
  | token _ expected => expected
  | listEnd _ close _ => close
  | functionBody | elseBody => .openBrace
  | statementRhs .. | variableRhs .. => .semicolon
  | queryEnd .. => .selectKeyword
  | importDeclaration => .importKeyword
  | _ => .identifier

/-- How the absence of a token of this kind is reported. -/
def missingCode (request : Request) (kind : Kind) : DiagnosticCode :=
  match request with
  | expression .. | argument => .missingExpression
  | typeDescriptor _ => .missingTypeDescriptor
  | bindingPattern => .missingBindingPattern
  | matchPattern => .missingMatchPattern
  | _ => .missing kind

/-- A rule can continue with what would be put in for it. -/
theorem accepts_primary (request : Request) : request.accepts request.primary = true := by
  cases request <;> simp [accepts, primary] <;> decide

end Request

end TolerantSyntax
