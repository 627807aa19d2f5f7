import TolerantSyntax.Kind.Basic

/-!
# Names of kinds

Each kind has one name, used where a tree is shown and where a kind is read from text. The list
`Kind.all` holds every kind in declaration order.
-/

namespace TolerantSyntax.Kind

/-- The name of a kind as it is shown. -/
def name : Kind → String
  | .publicKeyword => "PublicKeyword"
  | .privateKeyword => "PrivateKeyword"
  | .remoteKeyword => "RemoteKeyword"
  | .resourceKeyword => "ResourceKeyword"
  | .functionKeyword => "FunctionKeyword"
  | .returnsKeyword => "ReturnsKeyword"
  | .returnKeyword => "ReturnKeyword"
  | .externalKeyword => "ExternalKeyword"
  | .typeKeyword => "TypeKeyword"
  | .recordKeyword => "RecordKeyword"
  | .objectKeyword => "ObjectKeyword"
  | .readonlyKeyword => "ReadonlyKeyword"
  | .distinctKeyword => "DistinctKeyword"
  | .isolatedKeyword => "IsolatedKeyword"
  | .clientKeyword => "ClientKeyword"
  | .serviceKeyword => "ServiceKeyword"
  | .listenerKeyword => "ListenerKeyword"
  | .onKeyword => "OnKeyword"
  | .importKeyword => "ImportKeyword"
  | .asKeyword => "AsKeyword"
  | .constKeyword => "ConstKeyword"
  | .finalKeyword => "FinalKeyword"
  | .configurableKeyword => "ConfigurableKeyword"
  | .varKeyword => "VarKeyword"
  | .ifKeyword => "IfKeyword"
  | .elseKeyword => "ElseKeyword"
  | .whileKeyword => "WhileKeyword"
  | .foreachKeyword => "ForeachKeyword"
  | .inKeyword => "InKeyword"
  | .matchKeyword => "MatchKeyword"
  | .doKeyword => "DoKeyword"
  | .failKeyword => "FailKeyword"
  | .breakKeyword => "BreakKeyword"
  | .continueKeyword => "ContinueKeyword"
  | .panicKeyword => "PanicKeyword"
  | .checkKeyword => "CheckKeyword"
  | .checkpanicKeyword => "CheckpanicKeyword"
  | .trapKeyword => "TrapKeyword"
  | .newKeyword => "NewKeyword"
  | .trueKeyword => "TrueKeyword"
  | .falseKeyword => "FalseKeyword"
  | .nullKeyword => "NullKeyword"
  | .isKeyword => "IsKeyword"
  | .typeofKeyword => "TypeofKeyword"
  | .letKeyword => "LetKeyword"
  | .fromKeyword => "FromKeyword"
  | .whereKeyword => "WhereKeyword"
  | .selectKeyword => "SelectKeyword"
  | .limitKeyword => "LimitKeyword"
  | .orderKeyword => "OrderKeyword"
  | .byKeyword => "ByKeyword"
  | .ascendingKeyword => "AscendingKeyword"
  | .descendingKeyword => "DescendingKeyword"
  | .joinKeyword => "JoinKeyword"
  | .equalsKeyword => "EqualsKeyword"
  | .outerKeyword => "OuterKeyword"
  | .workerKeyword => "WorkerKeyword"
  | .forkKeyword => "ForkKeyword"
  | .startKeyword => "StartKeyword"
  | .waitKeyword => "WaitKeyword"
  | .flushKeyword => "FlushKeyword"
  | .commitKeyword => "CommitKeyword"
  | .rollbackKeyword => "RollbackKeyword"
  | .retryKeyword => "RetryKeyword"
  | .transactionKeyword => "TransactionKeyword"
  | .transactionalKeyword => "TransactionalKeyword"
  | .lockKeyword => "LockKeyword"
  | .classKeyword => "ClassKeyword"
  | .enumKeyword => "EnumKeyword"
  | .annotationKeyword => "AnnotationKeyword"
  | .sourceKeyword => "SourceKeyword"
  | .errorKeyword => "ErrorKeyword"
  | .neverKeyword => "NeverKeyword"
  | .intKeyword => "IntKeyword"
  | .floatKeyword => "FloatKeyword"
  | .decimalKeyword => "DecimalKeyword"
  | .stringKeyword => "StringKeyword"
  | .booleanKeyword => "BooleanKeyword"
  | .byteKeyword => "ByteKeyword"
  | .jsonKeyword => "JsonKeyword"
  | .xmlKeyword => "XmlKeyword"
  | .anydataKeyword => "AnydataKeyword"
  | .anyKeyword => "AnyKeyword"
  | .handleKeyword => "HandleKeyword"
  | .mapKeyword => "MapKeyword"
  | .futureKeyword => "FutureKeyword"
  | .typedescKeyword => "TypedescKeyword"
  | .streamKeyword => "StreamKeyword"
  | .openBrace => "OpenBrace"
  | .closeBrace => "CloseBrace"
  | .openBracePipe => "OpenBracePipe"
  | .closePipeBrace => "ClosePipeBrace"
  | .openParen => "OpenParen"
  | .closeParen => "CloseParen"
  | .openBracket => "OpenBracket"
  | .closeBracket => "CloseBracket"
  | .semicolon => "Semicolon"
  | .comma => "Comma"
  | .colon => "Colon"
  | .dot => "Dot"
  | .ellipsis => "Ellipsis"
  | .doubleDotLt => "DoubleDotLt"
  | .questionMark => "QuestionMark"
  | .optionalChaining => "OptionalChaining"
  | .elvis => "Elvis"
  | .atSign => "At"
  | .equal => "Equal"
  | .doubleEqual => "DoubleEqual"
  | .tripleEqual => "TripleEqual"
  | .notEqual => "NotEqual"
  | .notDoubleEqual => "NotDoubleEqual"
  | .notIs => "NotIs"
  | .lt => "Lt"
  | .gt => "Gt"
  | .ltEqual => "LtEqual"
  | .gtEqual => "GtEqual"
  | .doubleLt => "DoubleLt"
  | .plus => "Plus"
  | .minus => "Minus"
  | .asterisk => "Asterisk"
  | .slash => "Slash"
  | .percent => "Percent"
  | .exclamation => "Exclamation"
  | .tilde => "Tilde"
  | .bitwiseAnd => "BitwiseAnd"
  | .pipe => "Pipe"
  | .caret => "Caret"
  | .logicalAnd => "LogicalAnd"
  | .logicalOr => "LogicalOr"
  | .rightArrow => "RightArrow"
  | .syncSendArrow => "SyncSendArrow"
  | .leftArrow => "LeftArrow"
  | .rightDoubleArrow => "RightDoubleArrow"
  | .underscore => "Underscore"
  | .identifier => "Identifier"
  | .decimalIntegerLiteral => "DecimalIntegerLiteral"
  | .hexIntegerLiteral => "HexIntegerLiteral"
  | .decimalFloatingPointLiteral => "DecimalFloatingPointLiteral"
  | .stringLiteral => "StringLiteral"
  | .invalid => "Invalid"
  | .eof => "Eof"
  | .modulePart => "ModulePart"
  | .list => "List"
  | .importDeclaration => "ImportDeclaration"
  | .importOrgName => "ImportOrgName"
  | .importPrefix => "ImportPrefix"
  | .functionDefinition => "FunctionDefinition"
  | .methodDeclaration => "MethodDeclaration"
  | .functionSignature => "FunctionSignature"
  | .returnTypeDescriptor => "ReturnTypeDescriptor"
  | .functionBodyBlock => "FunctionBodyBlock"
  | .expressionFunctionBody => "ExpressionFunctionBody"
  | .externalFunctionBody => "ExternalFunctionBody"
  | .requiredParameter => "RequiredParameter"
  | .defaultableParameter => "DefaultableParameter"
  | .restParameter => "RestParameter"
  | .resourcePath => "ResourcePath"
  | .resourcePathParameter => "ResourcePathParameter"
  | .moduleVariableDeclaration => "ModuleVariableDeclaration"
  | .constantDeclaration => "ConstantDeclaration"
  | .typeDefinition => "TypeDefinition"
  | .classDefinition => "ClassDefinition"
  | .objectField => "ObjectField"
  | .typeReference => "TypeReference"
  | .enumDeclaration => "EnumDeclaration"
  | .enumMember => "EnumMember"
  | .annotationDeclaration => "AnnotationDeclaration"
  | .annotationAttachPoint => "AnnotationAttachPoint"
  | .listenerDeclaration => "ListenerDeclaration"
  | .serviceDeclaration => "ServiceDeclaration"
  | .metadata => "Metadata"
  | .annotationNode => "Annotation"
  | .blockStatement => "BlockStatement"
  | .localVariableDeclaration => "LocalVariableDeclaration"
  | .assignmentStatement => "AssignmentStatement"
  | .compoundAssignmentStatement => "CompoundAssignmentStatement"
  | .destructuringAssignmentStatement => "DestructuringAssignmentStatement"
  | .expressionStatement => "ExpressionStatement"
  | .callStatement => "CallStatement"
  | .actionStatement => "ActionStatement"
  | .ifElseStatement => "IfElseStatement"
  | .elseBlock => "ElseBlock"
  | .whileStatement => "WhileStatement"
  | .foreachStatement => "ForeachStatement"
  | .matchStatement => "MatchStatement"
  | .matchClause => "MatchClause"
  | .matchGuard => "MatchGuard"
  | .doStatement => "DoStatement"
  | .onFailClause => "OnFailClause"
  | .returnStatement => "ReturnStatement"
  | .breakStatement => "BreakStatement"
  | .continueStatement => "ContinueStatement"
  | .panicStatement => "PanicStatement"
  | .failStatement => "FailStatement"
  | .lockStatement => "LockStatement"
  | .transactionStatement => "TransactionStatement"
  | .retryStatement => "RetryStatement"
  | .rollbackStatement => "RollbackStatement"
  | .forkStatement => "ForkStatement"
  | .namedWorkerDeclaration => "NamedWorkerDeclaration"
  | .typedBindingPattern => "TypedBindingPattern"
  | .captureBindingPattern => "CaptureBindingPattern"
  | .wildcardBindingPattern => "WildcardBindingPattern"
  | .listBindingPattern => "ListBindingPattern"
  | .restBindingPattern => "RestBindingPattern"
  | .mappingBindingPattern => "MappingBindingPattern"
  | .fieldBindingPattern => "FieldBindingPattern"
  | .errorBindingPattern => "ErrorBindingPattern"
  | .namedArgBindingPattern => "NamedArgBindingPattern"
  | .listMatchPattern => "ListMatchPattern"
  | .restMatchPattern => "RestMatchPattern"
  | .mappingMatchPattern => "MappingMatchPattern"
  | .fieldMatchPattern => "FieldMatchPattern"
  | .errorMatchPattern => "ErrorMatchPattern"
  | .namedArgMatchPattern => "NamedArgMatchPattern"
  | .builtinSimpleTypeDescriptor => "BuiltinSimpleTypeDescriptor"
  | .nilTypeDescriptor => "NilTypeDescriptor"
  | .parameterizedTypeDescriptor => "ParameterizedTypeDescriptor"
  | .typeParameter => "TypeParameter"
  | .streamTypeDescriptor => "StreamTypeDescriptor"
  | .streamTypeParams => "StreamTypeParams"
  | .arrayTypeDescriptor => "ArrayTypeDescriptor"
  | .arrayDimension => "ArrayDimension"
  | .optionalTypeDescriptor => "OptionalTypeDescriptor"
  | .unionTypeDescriptor => "UnionTypeDescriptor"
  | .intersectionTypeDescriptor => "IntersectionTypeDescriptor"
  | .tupleTypeDescriptor => "TupleTypeDescriptor"
  | .restTypeDescriptor => "RestTypeDescriptor"
  | .recordTypeDescriptor => "RecordTypeDescriptor"
  | .recordField => "RecordField"
  | .recordFieldWithDefault => "RecordFieldWithDefault"
  | .recordRestDescriptor => "RecordRestDescriptor"
  | .objectTypeDescriptor => "ObjectTypeDescriptor"
  | .functionTypeDescriptor => "FunctionTypeDescriptor"
  | .parenthesisedTypeDescriptor => "ParenthesisedTypeDescriptor"
  | .singletonTypeDescriptor => "SingletonTypeDescriptor"
  | .distinctTypeDescriptor => "DistinctTypeDescriptor"
  | .simpleNameReference => "SimpleNameReference"
  | .qualifiedNameReference => "QualifiedNameReference"
  | .basicLiteral => "BasicLiteral"
  | .nilLiteral => "NilLiteral"
  | .unaryExpression => "UnaryExpression"
  | .binaryExpression => "BinaryExpression"
  | .compositeOperator => "CompositeOperator"
  | .bracedExpression => "BracedExpression"
  | .typeofExpression => "TypeofExpression"
  | .trapExpression => "TrapExpression"
  | .checkExpression => "CheckExpression"
  | .checkAction => "CheckAction"
  | .typeCastExpression => "TypeCastExpression"
  | .typeTestExpression => "TypeTestExpression"
  | .conditionalExpression => "ConditionalExpression"
  | .fieldAccess => "FieldAccess"
  | .optionalFieldAccess => "OptionalFieldAccess"
  | .indexedExpression => "IndexedExpression"
  | .functionCall => "FunctionCall"
  | .methodCall => "MethodCall"
  | .positionalArgument => "PositionalArgument"
  | .namedArgument => "NamedArgument"
  | .restArgument => "RestArgument"
  | .listConstructor => "ListConstructor"
  | .spreadMember => "SpreadMember"
  | .mappingConstructor => "MappingConstructor"
  | .specificField => "SpecificField"
  | .computedNameField => "ComputedNameField"
  | .spreadField => "SpreadField"
  | .errorConstructor => "ErrorConstructor"
  | .explicitAnonymousFunction => "ExplicitAnonymousFunction"
  | .implicitAnonymousFunction => "ImplicitAnonymousFunction"
  | .inferParamList => "InferParamList"
  | .implicitNewExpression => "ImplicitNewExpression"
  | .explicitNewExpression => "ExplicitNewExpression"
  | .parenthesizedArgList => "ParenthesizedArgList"
  | .letExpression => "LetExpression"
  | .letVariableDeclaration => "LetVariableDeclaration"
  | .requiredExpression => "RequiredExpression"
  | .alternateWaitExpression => "AlternateWaitExpression"
  | .queryExpression => "QueryExpression"
  | .queryPipeline => "QueryPipeline"
  | .fromClause => "FromClause"
  | .whereClause => "WhereClause"
  | .letClause => "LetClause"
  | .joinClause => "JoinClause"
  | .onClause => "OnClause"
  | .orderByClause => "OrderByClause"
  | .orderKey => "OrderKey"
  | .limitClause => "LimitClause"
  | .selectClause => "SelectClause"
  | .queryAction => "QueryAction"
  | .remoteMethodCallAction => "RemoteMethodCallAction"
  | .asyncSendAction => "AsyncSendAction"
  | .syncSendAction => "SyncSendAction"
  | .receiveAction => "ReceiveAction"
  | .startAction => "StartAction"
  | .waitAction => "WaitAction"
  | .waitFieldsList => "WaitFieldsList"
  | .waitField => "WaitField"
  | .flushAction => "FlushAction"
  | .commitAction => "CommitAction"

/-- Every kind, in declaration order. -/
def all : List Kind :=
  [.publicKeyword, .privateKeyword, .remoteKeyword, .resourceKeyword, .functionKeyword,
   .returnsKeyword, .returnKeyword, .externalKeyword, .typeKeyword, .recordKeyword,
   .objectKeyword, .readonlyKeyword, .distinctKeyword, .isolatedKeyword, .clientKeyword,
   .serviceKeyword, .listenerKeyword, .onKeyword, .importKeyword, .asKeyword, .constKeyword,
   .finalKeyword, .configurableKeyword, .varKeyword, .ifKeyword, .elseKeyword, .whileKeyword,
   .foreachKeyword, .inKeyword, .matchKeyword, .doKeyword, .failKeyword, .breakKeyword,
   .continueKeyword, .panicKeyword, .checkKeyword, .checkpanicKeyword, .trapKeyword, .newKeyword,
   .trueKeyword, .falseKeyword, .nullKeyword, .isKeyword, .typeofKeyword, .letKeyword,
   .fromKeyword, .whereKeyword, .selectKeyword, .limitKeyword, .orderKeyword, .byKeyword,
   .ascendingKeyword, .descendingKeyword, .joinKeyword, .equalsKeyword, .outerKeyword,
   .workerKeyword, .forkKeyword, .startKeyword, .waitKeyword, .flushKeyword, .commitKeyword,
   .rollbackKeyword, .retryKeyword, .transactionKeyword, .transactionalKeyword, .lockKeyword,
   .classKeyword, .enumKeyword, .annotationKeyword, .sourceKeyword, .errorKeyword, .neverKeyword,
   .intKeyword, .floatKeyword, .decimalKeyword, .stringKeyword, .booleanKeyword, .byteKeyword,
   .jsonKeyword, .xmlKeyword, .anydataKeyword, .anyKeyword, .handleKeyword, .mapKeyword,
   .futureKeyword, .typedescKeyword, .streamKeyword, .openBrace, .closeBrace, .openBracePipe,
   .closePipeBrace, .openParen, .closeParen, .openBracket, .closeBracket, .semicolon, .comma,
   .colon, .dot, .ellipsis, .doubleDotLt, .questionMark, .optionalChaining, .elvis, .atSign,
   .equal, .doubleEqual, .tripleEqual, .notEqual, .notDoubleEqual, .notIs, .lt, .gt, .ltEqual,
   .gtEqual, .doubleLt, .plus, .minus, .asterisk, .slash, .percent, .exclamation, .tilde,
   .bitwiseAnd, .pipe, .caret, .logicalAnd, .logicalOr, .rightArrow, .syncSendArrow, .leftArrow,
   .rightDoubleArrow, .underscore, .identifier, .decimalIntegerLiteral, .hexIntegerLiteral,
   .decimalFloatingPointLiteral, .stringLiteral, .invalid, .eof, .modulePart, .list,
   .importDeclaration, .importOrgName, .importPrefix, .functionDefinition, .methodDeclaration,
   .functionSignature, .returnTypeDescriptor, .functionBodyBlock, .expressionFunctionBody,
   .externalFunctionBody, .requiredParameter, .defaultableParameter, .restParameter,
   .resourcePath, .resourcePathParameter, .moduleVariableDeclaration, .constantDeclaration,
   .typeDefinition, .classDefinition, .objectField, .typeReference, .enumDeclaration, .enumMember,
   .annotationDeclaration, .annotationAttachPoint, .listenerDeclaration, .serviceDeclaration,
   .metadata, .annotationNode, .blockStatement, .localVariableDeclaration, .assignmentStatement,
   .compoundAssignmentStatement, .destructuringAssignmentStatement, .expressionStatement,
   .callStatement, .actionStatement, .ifElseStatement, .elseBlock, .whileStatement,
   .foreachStatement, .matchStatement, .matchClause, .matchGuard, .doStatement, .onFailClause,
   .returnStatement, .breakStatement, .continueStatement, .panicStatement, .failStatement,
   .lockStatement, .transactionStatement, .retryStatement, .rollbackStatement, .forkStatement,
   .namedWorkerDeclaration, .typedBindingPattern, .captureBindingPattern, .wildcardBindingPattern,
   .listBindingPattern, .restBindingPattern, .mappingBindingPattern, .fieldBindingPattern,
   .errorBindingPattern, .namedArgBindingPattern, .listMatchPattern, .restMatchPattern,
   .mappingMatchPattern, .fieldMatchPattern, .errorMatchPattern, .namedArgMatchPattern,
   .builtinSimpleTypeDescriptor, .nilTypeDescriptor, .parameterizedTypeDescriptor, .typeParameter,
   .streamTypeDescriptor, .streamTypeParams, .arrayTypeDescriptor, .arrayDimension,
   .optionalTypeDescriptor, .unionTypeDescriptor, .intersectionTypeDescriptor,
   .tupleTypeDescriptor, .restTypeDescriptor, .recordTypeDescriptor, .recordField,
   .recordFieldWithDefault, .recordRestDescriptor, .objectTypeDescriptor, .functionTypeDescriptor,
   .parenthesisedTypeDescriptor, .singletonTypeDescriptor, .distinctTypeDescriptor,
   .simpleNameReference, .qualifiedNameReference, .basicLiteral, .nilLiteral, .unaryExpression,
   .binaryExpression, .compositeOperator, .bracedExpression, .typeofExpression, .trapExpression,
   .checkExpression, .checkAction, .typeCastExpression, .typeTestExpression,
   .conditionalExpression, .fieldAccess, .optionalFieldAccess, .indexedExpression, .functionCall,
   .methodCall, .positionalArgument, .namedArgument, .restArgument, .listConstructor,
   .spreadMember, .mappingConstructor, .specificField, .computedNameField, .spreadField,
   .errorConstructor, .explicitAnonymousFunction, .implicitAnonymousFunction, .inferParamList,
   .implicitNewExpression, .explicitNewExpression, .parenthesizedArgList, .letExpression,
   .letVariableDeclaration, .requiredExpression, .alternateWaitExpression, .queryExpression,
   .queryPipeline, .fromClause, .whereClause, .letClause, .joinClause, .onClause, .orderByClause,
   .orderKey, .limitClause, .selectClause, .queryAction, .remoteMethodCallAction,
   .asyncSendAction, .syncSendAction, .receiveAction, .startAction, .waitAction, .waitFieldsList,
   .waitField, .flushAction, .commitAction]

/-- The kind of a given name. -/
def ofName? (text : String) : Option Kind :=
  all.find? (fun kind => kind.name == text)

/-- A kind is listed at its own place in the declaration. -/
theorem all_getElem?_ctorIdx (kind : Kind) : all[kind.ctorIdx]? = some kind := by
  cases kind <;> rfl

/-- Every kind is listed. -/
theorem mem_all (kind : Kind) : kind ∈ all :=
  List.mem_of_getElem? (all_getElem?_ctorIdx kind)

end TolerantSyntax.Kind
