/-!
# Kinds of tokens and nodes

Every leaf and every interior node of a tree has a `Kind`. One enumeration serves both, because
recovery speaks about either: a token may be taken for another kind, and a missing part is named by
the kind that was expected there.

The order of the constructors carries meaning. Keywords come first, then punctuation, then
identifiers and literals, and `eof` is the last of the token kinds. The kinds of interior nodes
follow, from `modulePart` on. `Kind.isKeywordToken` and `Kind.isToken` read this order
(`TolerantSyntax.Kind.Classes`).
-/

namespace TolerantSyntax

/-- What a token or a node is. -/
inductive Kind where
  | publicKeyword | privateKeyword | remoteKeyword | resourceKeyword | functionKeyword
  | returnsKeyword | returnKeyword | externalKeyword | typeKeyword | recordKeyword
  | objectKeyword | readonlyKeyword | distinctKeyword | isolatedKeyword | clientKeyword
  | serviceKeyword | listenerKeyword | onKeyword | importKeyword | asKeyword | constKeyword
  | finalKeyword | configurableKeyword | varKeyword | ifKeyword | elseKeyword | whileKeyword
  | foreachKeyword | inKeyword | matchKeyword | doKeyword | failKeyword | breakKeyword
  | continueKeyword | panicKeyword | checkKeyword | checkpanicKeyword | trapKeyword | newKeyword
  | trueKeyword | falseKeyword | nullKeyword | isKeyword | typeofKeyword | letKeyword
  | fromKeyword | whereKeyword | selectKeyword | limitKeyword | orderKeyword | byKeyword
  | ascendingKeyword | descendingKeyword | joinKeyword | equalsKeyword | outerKeyword
  | workerKeyword | forkKeyword | startKeyword | waitKeyword | flushKeyword | commitKeyword
  | rollbackKeyword | retryKeyword | transactionKeyword | transactionalKeyword | lockKeyword
  | classKeyword | enumKeyword | annotationKeyword | sourceKeyword | errorKeyword | neverKeyword
  | intKeyword | floatKeyword | decimalKeyword | stringKeyword | booleanKeyword | byteKeyword
  | jsonKeyword | xmlKeyword | anydataKeyword | anyKeyword | handleKeyword | mapKeyword
  | futureKeyword | typedescKeyword | streamKeyword
  | openBrace | closeBrace | openBracePipe | closePipeBrace | openParen | closeParen
  | openBracket | closeBracket | semicolon | comma | colon | dot | ellipsis | doubleDotLt
  | questionMark | optionalChaining | elvis | atSign | equal | doubleEqual | tripleEqual
  | notEqual | notDoubleEqual | notIs | lt | gt | ltEqual | gtEqual | doubleLt | plus | minus
  | asterisk | slash | percent | exclamation | tilde | bitwiseAnd | pipe | caret | logicalAnd
  | logicalOr | rightArrow | syncSendArrow | leftArrow | rightDoubleArrow | underscore
  | identifier | decimalIntegerLiteral | hexIntegerLiteral | decimalFloatingPointLiteral
  | stringLiteral
  | invalid | eof
  | modulePart | list
  | importDeclaration | importOrgName | importPrefix | functionDefinition | methodDeclaration
  | functionSignature | returnTypeDescriptor | functionBodyBlock | expressionFunctionBody
  | externalFunctionBody | requiredParameter | defaultableParameter | restParameter
  | resourcePath | resourcePathParameter | moduleVariableDeclaration | constantDeclaration
  | typeDefinition | classDefinition | objectField | typeReference | enumDeclaration | enumMember
  | annotationDeclaration | annotationAttachPoint | listenerDeclaration | serviceDeclaration
  | metadata | annotationNode
  | blockStatement | localVariableDeclaration | assignmentStatement | compoundAssignmentStatement
  | destructuringAssignmentStatement | expressionStatement | callStatement | actionStatement
  | ifElseStatement | elseBlock | whileStatement | foreachStatement | matchStatement
  | matchClause | matchGuard | doStatement | onFailClause | returnStatement | breakStatement
  | continueStatement | panicStatement | failStatement | lockStatement | transactionStatement
  | retryStatement | rollbackStatement | forkStatement | namedWorkerDeclaration
  | typedBindingPattern | captureBindingPattern | wildcardBindingPattern | listBindingPattern
  | restBindingPattern | mappingBindingPattern | fieldBindingPattern | errorBindingPattern
  | namedArgBindingPattern
  | listMatchPattern | restMatchPattern | mappingMatchPattern | fieldMatchPattern
  | errorMatchPattern | namedArgMatchPattern
  | builtinSimpleTypeDescriptor | nilTypeDescriptor | parameterizedTypeDescriptor | typeParameter
  | streamTypeDescriptor | streamTypeParams | arrayTypeDescriptor | arrayDimension
  | optionalTypeDescriptor | unionTypeDescriptor | intersectionTypeDescriptor
  | tupleTypeDescriptor | restTypeDescriptor | recordTypeDescriptor | recordField
  | recordFieldWithDefault | recordRestDescriptor | objectTypeDescriptor | functionTypeDescriptor
  | parenthesisedTypeDescriptor | singletonTypeDescriptor | distinctTypeDescriptor
  | simpleNameReference | qualifiedNameReference | basicLiteral | nilLiteral | unaryExpression
  | binaryExpression | compositeOperator | bracedExpression | typeofExpression | trapExpression
  | checkExpression | checkAction | typeCastExpression | typeTestExpression
  | conditionalExpression | fieldAccess | optionalFieldAccess | indexedExpression | functionCall
  | methodCall | positionalArgument | namedArgument | restArgument | listConstructor
  | spreadMember | mappingConstructor | specificField | computedNameField | spreadField
  | errorConstructor | explicitAnonymousFunction | implicitAnonymousFunction | inferParamList
  | implicitNewExpression | explicitNewExpression | parenthesizedArgList | letExpression
  | letVariableDeclaration | requiredExpression | alternateWaitExpression
  | queryExpression | queryPipeline | fromClause | whereClause | letClause | joinClause
  | onClause | orderByClause | orderKey | limitClause | selectClause | queryAction
  | remoteMethodCallAction | asyncSendAction | syncSendAction | receiveAction | startAction
  | waitAction | waitFieldsList | waitField | flushAction | commitAction
deriving DecidableEq, Repr, Inhabited

end TolerantSyntax
