import TolerantSyntax.Kind.Basic

/-!
# Contexts

While the grammar runs, it keeps the rules in progress as a list of contexts. The contexts serve
recovery alone: each of them owns the tokens that end or restart its rule, and recovery leaves a
token to the rule that owns it.
-/

namespace TolerantSyntax

/-- A rule in progress. -/
inductive Context where
  | compilationUnit | moduleMember | importDeclaration | importOrgOrModuleName | importModuleName
  | importPrefix | functionDefinition | functionSignature | parameterList | parameter
  | defaultableParameter | returnTypeDescriptor | functionBody | functionBodyBlock
  | externalFunctionBody | expressionFunctionBody | moduleVariableDeclaration
  | constantDeclaration | typeDefinition | classDefinition | classMember | objectField
  | enumDeclaration | enumMember | annotationDeclaration | annotationAttachPoints
  | listenerDeclaration | serviceDeclaration | servicePath | resourcePath | annotations
  | statement | blockStatement | localVariableDeclaration | variableDeclarationRhs
  | assignmentStatement | compoundAssignmentStatement | destructuringAssignment
  | expressionStatement | ifBlock | elseBlock | whileBlock | foreachStatement | matchStatement
  | matchBody | matchClause | matchPattern | listMatchPattern | mappingMatchPattern
  | errorMatchPattern | matchGuard | doBlock | onFailClause | returnStatement | breakStatement
  | continueStatement | panicStatement | failStatement | lockStatement | transactionStatement
  | retryStatement | rollbackStatement | forkStatement | namedWorkerDeclaration
  | typeDescriptor | typeParameter | arrayDimension | tupleTypeDescriptor | recordTypeDescriptor
  | recordField | objectTypeDescriptor | objectMember | functionTypeDescriptor
  | parenthesisedTypeDescriptor | streamTypeParams | typeTestExpression
  | bindingPattern | typedBindingPattern | listBindingPattern | mappingBindingPattern
  | errorBindingPattern
  | expression | bracedExpression | argumentList | argument | listConstructor
  | mappingConstructor | mappingField | computedFieldName | memberAccessKey | typeCast
  | conditionalExpression | anonymousFunction | arrowFunction | newExpression | letExpression
  | letVariableDeclaration | queryExpression | fromClause | whereClause | letClause | joinClause
  | onClause | orderByClause | limitClause | selectClause | queryAction
  | remoteCallAction | sendAction | receiveAction | startAction | waitAction | waitFields
  | flushAction
  | ambiguousList | ambiguousMapping | ambiguousParen
deriving DecidableEq, Repr, Inhabited

namespace Context

/-! ## Names -/

/-- The name of a context as it is shown. -/
def name : Context → String
  | .compilationUnit => "CompilationUnit"
  | .moduleMember => "ModuleMember"
  | .importDeclaration => "ImportDeclaration"
  | .importOrgOrModuleName => "ImportOrgOrModuleName"
  | .importModuleName => "ImportModuleName"
  | .importPrefix => "ImportPrefix"
  | .functionDefinition => "FunctionDefinition"
  | .functionSignature => "FunctionSignature"
  | .parameterList => "ParameterList"
  | .parameter => "Parameter"
  | .defaultableParameter => "DefaultableParameter"
  | .returnTypeDescriptor => "ReturnTypeDescriptor"
  | .functionBody => "FunctionBody"
  | .functionBodyBlock => "FunctionBodyBlock"
  | .externalFunctionBody => "ExternalFunctionBody"
  | .expressionFunctionBody => "ExpressionFunctionBody"
  | .moduleVariableDeclaration => "ModuleVariableDeclaration"
  | .constantDeclaration => "ConstantDeclaration"
  | .typeDefinition => "TypeDefinition"
  | .classDefinition => "ClassDefinition"
  | .classMember => "ClassMember"
  | .objectField => "ObjectField"
  | .enumDeclaration => "EnumDeclaration"
  | .enumMember => "EnumMember"
  | .annotationDeclaration => "AnnotationDeclaration"
  | .annotationAttachPoints => "AnnotationAttachPoints"
  | .listenerDeclaration => "ListenerDeclaration"
  | .serviceDeclaration => "ServiceDeclaration"
  | .servicePath => "ServicePath"
  | .resourcePath => "ResourcePath"
  | .annotations => "Annotations"
  | .statement => "Statement"
  | .blockStatement => "BlockStatement"
  | .localVariableDeclaration => "LocalVariableDeclaration"
  | .variableDeclarationRhs => "VariableDeclarationRhs"
  | .assignmentStatement => "AssignmentStatement"
  | .compoundAssignmentStatement => "CompoundAssignmentStatement"
  | .destructuringAssignment => "DestructuringAssignment"
  | .expressionStatement => "ExpressionStatement"
  | .ifBlock => "IfBlock"
  | .elseBlock => "ElseBlock"
  | .whileBlock => "WhileBlock"
  | .foreachStatement => "ForeachStatement"
  | .matchStatement => "MatchStatement"
  | .matchBody => "MatchBody"
  | .matchClause => "MatchClause"
  | .matchPattern => "MatchPattern"
  | .listMatchPattern => "ListMatchPattern"
  | .mappingMatchPattern => "MappingMatchPattern"
  | .errorMatchPattern => "ErrorMatchPattern"
  | .matchGuard => "MatchGuard"
  | .doBlock => "DoBlock"
  | .onFailClause => "OnFailClause"
  | .returnStatement => "ReturnStatement"
  | .breakStatement => "BreakStatement"
  | .continueStatement => "ContinueStatement"
  | .panicStatement => "PanicStatement"
  | .failStatement => "FailStatement"
  | .lockStatement => "LockStatement"
  | .transactionStatement => "TransactionStatement"
  | .retryStatement => "RetryStatement"
  | .rollbackStatement => "RollbackStatement"
  | .forkStatement => "ForkStatement"
  | .namedWorkerDeclaration => "NamedWorkerDeclaration"
  | .typeDescriptor => "TypeDescriptor"
  | .typeParameter => "TypeParameter"
  | .arrayDimension => "ArrayDimension"
  | .tupleTypeDescriptor => "TupleTypeDescriptor"
  | .recordTypeDescriptor => "RecordTypeDescriptor"
  | .recordField => "RecordField"
  | .objectTypeDescriptor => "ObjectTypeDescriptor"
  | .objectMember => "ObjectMember"
  | .functionTypeDescriptor => "FunctionTypeDescriptor"
  | .parenthesisedTypeDescriptor => "ParenthesisedTypeDescriptor"
  | .streamTypeParams => "StreamTypeParams"
  | .typeTestExpression => "TypeTestExpression"
  | .bindingPattern => "BindingPattern"
  | .typedBindingPattern => "TypedBindingPattern"
  | .listBindingPattern => "ListBindingPattern"
  | .mappingBindingPattern => "MappingBindingPattern"
  | .errorBindingPattern => "ErrorBindingPattern"
  | .expression => "Expression"
  | .bracedExpression => "BracedExpression"
  | .argumentList => "ArgumentList"
  | .argument => "Argument"
  | .listConstructor => "ListConstructor"
  | .mappingConstructor => "MappingConstructor"
  | .mappingField => "MappingField"
  | .computedFieldName => "ComputedFieldName"
  | .memberAccessKey => "MemberAccessKey"
  | .typeCast => "TypeCast"
  | .conditionalExpression => "ConditionalExpression"
  | .anonymousFunction => "AnonymousFunction"
  | .arrowFunction => "ArrowFunction"
  | .newExpression => "NewExpression"
  | .letExpression => "LetExpression"
  | .letVariableDeclaration => "LetVariableDeclaration"
  | .queryExpression => "QueryExpression"
  | .fromClause => "FromClause"
  | .whereClause => "WhereClause"
  | .letClause => "LetClause"
  | .joinClause => "JoinClause"
  | .onClause => "OnClause"
  | .orderByClause => "OrderByClause"
  | .limitClause => "LimitClause"
  | .selectClause => "SelectClause"
  | .queryAction => "QueryAction"
  | .remoteCallAction => "RemoteCallAction"
  | .sendAction => "SendAction"
  | .receiveAction => "ReceiveAction"
  | .startAction => "StartAction"
  | .waitAction => "WaitAction"
  | .waitFields => "WaitFields"
  | .flushAction => "FlushAction"
  | .ambiguousList => "AmbiguousList"
  | .ambiguousMapping => "AmbiguousMapping"
  | .ambiguousParen => "AmbiguousParen"

/-- Every context, in declaration order. -/
def all : List Context :=
  [.compilationUnit, .moduleMember, .importDeclaration, .importOrgOrModuleName,
   .importModuleName, .importPrefix, .functionDefinition, .functionSignature, .parameterList,
   .parameter, .defaultableParameter, .returnTypeDescriptor, .functionBody, .functionBodyBlock,
   .externalFunctionBody, .expressionFunctionBody, .moduleVariableDeclaration,
   .constantDeclaration, .typeDefinition, .classDefinition, .classMember, .objectField,
   .enumDeclaration, .enumMember, .annotationDeclaration, .annotationAttachPoints,
   .listenerDeclaration, .serviceDeclaration, .servicePath, .resourcePath, .annotations,
   .statement, .blockStatement, .localVariableDeclaration, .variableDeclarationRhs,
   .assignmentStatement, .compoundAssignmentStatement, .destructuringAssignment,
   .expressionStatement, .ifBlock, .elseBlock, .whileBlock, .foreachStatement, .matchStatement,
   .matchBody, .matchClause, .matchPattern, .listMatchPattern, .mappingMatchPattern,
   .errorMatchPattern, .matchGuard, .doBlock, .onFailClause, .returnStatement, .breakStatement,
   .continueStatement, .panicStatement, .failStatement, .lockStatement, .transactionStatement,
   .retryStatement, .rollbackStatement, .forkStatement, .namedWorkerDeclaration,
   .typeDescriptor, .typeParameter, .arrayDimension, .tupleTypeDescriptor,
   .recordTypeDescriptor, .recordField, .objectTypeDescriptor, .objectMember,
   .functionTypeDescriptor, .parenthesisedTypeDescriptor, .streamTypeParams,
   .typeTestExpression, .bindingPattern, .typedBindingPattern, .listBindingPattern,
   .mappingBindingPattern, .errorBindingPattern, .expression, .bracedExpression, .argumentList,
   .argument, .listConstructor, .mappingConstructor, .mappingField, .computedFieldName,
   .memberAccessKey, .typeCast, .conditionalExpression, .anonymousFunction, .arrowFunction,
   .newExpression, .letExpression, .letVariableDeclaration, .queryExpression, .fromClause,
   .whereClause, .letClause, .joinClause, .onClause, .orderByClause, .limitClause,
   .selectClause, .queryAction, .remoteCallAction, .sendAction, .receiveAction, .startAction,
   .waitAction, .waitFields, .flushAction, .ambiguousList, .ambiguousMapping, .ambiguousParen]

/-- The context of a given name. -/
def ofName? (text : String) : Option Context :=
  all.find? (fun context => context.name == text)

/-! ## Terminators -/

/-- Tokens that end a block or begin a statement that cannot be the rest of another one. -/
def blockStarters : List Kind :=
  [.closeBrace, .ifKeyword, .whileKeyword, .foreachKeyword, .matchKeyword, .returnKeyword,
   .breakKeyword, .continueKeyword, .panicKeyword, .lockKeyword, .doKeyword, .forkKeyword,
   .workerKeyword, .transactionKeyword, .retryKeyword, .rollbackKeyword, .finalKeyword,
   .varKeyword]

/-- Tokens that begin a declaration, and the end of input. -/
def moduleStarters : List Kind :=
  [.eof, .importKeyword, .publicKeyword, .functionKeyword, .typeKeyword, .constKeyword,
   .classKeyword, .enumKeyword, .listenerKeyword, .serviceKeyword, .annotationKeyword,
   .configurableKeyword]

/-- Tokens that begin a clause of a query or end its pipeline. -/
def queryClauseStarters : List Kind :=
  [.fromKeyword, .whereKeyword, .letKeyword, .joinKeyword, .outerKeyword, .orderKeyword,
   .limitKeyword, .selectKeyword, .doKeyword]

/-- Tokens that end or restart a rule; recovery leaves them to it. -/
def terminators : Context → List Kind
  | .compilationUnit => moduleStarters
  | .functionBodyBlock | .blockStatement | .ifBlock | .elseBlock | .whileBlock | .doBlock
  | .lockStatement | .transactionStatement | .onFailClause | .namedWorkerDeclaration =>
    blockStarters
  | .classDefinition | .objectTypeDescriptor | .serviceDeclaration | .enumDeclaration
  | .matchBody | .forkStatement | .mappingConstructor | .mappingBindingPattern
  | .mappingMatchPattern | .ambiguousMapping | .waitFields => [.closeBrace]
  | .recordTypeDescriptor => [.closeBrace, .closePipeBrace]
  | .parameterList | .argumentList | .bracedExpression | .parenthesisedTypeDescriptor
  | .errorBindingPattern | .errorMatchPattern | .ambiguousParen => [.closeParen]
  | .listConstructor | .listBindingPattern | .listMatchPattern | .tupleTypeDescriptor
  | .memberAccessKey | .arrayDimension | .computedFieldName | .ambiguousList => [.closeBracket]
  | .typeParameter | .streamTypeParams | .typeCast => [.gt]
  | .importDeclaration | .moduleVariableDeclaration | .constantDeclaration | .typeDefinition
  | .objectField | .recordField | .annotationDeclaration | .listenerDeclaration
  | .localVariableDeclaration | .variableDeclarationRhs | .assignmentStatement
  | .compoundAssignmentStatement | .destructuringAssignment | .expressionStatement
  | .returnStatement | .breakStatement | .continueStatement | .panicStatement | .failStatement
  | .rollbackStatement | .expressionFunctionBody | .externalFunctionBody => [.semicolon]
  | .matchClause | .matchGuard => [.rightDoubleArrow]
  | .conditionalExpression => [.colon]
  | .foreachStatement | .fromClause | .joinClause => [.inKeyword]
  | .queryExpression | .queryAction | .whereClause | .letClause | .onClause | .orderByClause
  | .limitClause => queryClauseStarters
  | .servicePath => [.onKeyword]
  | .letExpression => [.inKeyword]
  | .matchStatement => [.openBrace]
  | .functionSignature | .returnTypeDescriptor => [.openBrace, .rightDoubleArrow, .equal]
  | _ => []

/-- Should recovery leave a token of this kind to the rule? -/
def owns (context : Context) (kind : Kind) : Bool :=
  context.terminators.contains kind

end Context

/-! ## Stack -/

/-- The rules in progress, the innermost first. -/
abbrev ContextStack := List Context

namespace ContextStack

/-- Replaces the innermost rule. -/
def replaceTop (stack : ContextStack) (context : Context) : ContextStack :=
  context :: stack.tail

/-- Does any rule in progress own the kind? -/
def anyOwns (stack : ContextStack) (kind : Kind) : Bool :=
  stack.any (·.owns kind)

end ContextStack

end TolerantSyntax
