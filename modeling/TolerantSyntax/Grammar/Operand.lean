import TolerantSyntax.Grammar.Function
import TolerantSyntax.Grammar.Lookahead
import TolerantSyntax.Grammar.Operator
import TolerantSyntax.Grammar.Query

/-!
# Operands

What an expression begins with: names, literals, constructors, functions, prefix operators, and the
actions that begin with a keyword.
-/

namespace TolerantSyntax.ParseM

/-! ## Prefix operators -/

/-- A sign or another prefix operator with its operand. -/
def unary (flags : ExpressionFlags) : ParseM Node := do
  let operator ← consumeNode
  return .of .unaryExpression [operator, ← expression .unary flags.nested.withoutActions]

/-- `typeof operand`. -/
def typeofExpression (flags : ExpressionFlags) : ParseM Node := do
  let keyword ← consumeNode
  return .of .typeofExpression [keyword, ← expression .unary flags.nested.withoutActions]

/-- `trap operand`. -/
def trapExpression (flags : ExpressionFlags) : ParseM Node := do
  let keyword ← consumeNode
  return .of .trapExpression [keyword, ← expression .trap flags.nested]

/-- `check operand`. The operand may be an action where actions are allowed. -/
def checkExpression (flags : ExpressionFlags) : ParseM Node := do
  let keyword ← consumeNode
  let first ← expression .unary flags.nested
  let kind ← nextKind
  let operand ←
    if flags.allowActions && (kind == .rightArrow || kind == .syncSendArrow) then
      operatorsAfter .trap first flags.nested
    else pure first
  let result := if operand.kind.isAction then .checkAction else .checkExpression
  return .of result [keyword, operand]

/-- `<type> operand`; before the type there may be annotations, and it may be left out behind
them. -/
def typeCast (flags : ExpressionFlags) : ParseM Node :=
  within .typeCast do
    let opening ← consumeNode
    let annotations ← metadata
    let type ← if ← isNext .gt then pure none else some <$> typeDescriptor .typeCast
    let close ← expect .gt .typeCast
    let operand ← expression .unary flags.nested.withoutActions
    return .ofSlots .typeCastExpression [some opening, annotations, type, some close, some operand]

/-! ## Functions -/

/-- `=> body` behind the parameters. -/
def arrowFunctionAfter (parameters : Node) (flags : ExpressionFlags) : ParseM Node := do
  let arrow ← expect .rightDoubleArrow .arrowFunction
  let body ← expression .anonFuncOrLet flags.nested.withoutActions
  return .of .implicitAnonymousFunction [parameters, arrow, body]

/-- `name => body`. -/
def namedArrowFunction (flags : ExpressionFlags) : ParseM Node :=
  within .arrowFunction do
    arrowFunctionAfter (simpleName (← consumeNode)) flags

/-- Names up to a closing parenthesis, with the commas behind them. -/
def inferredNames : ParseM (List Node) :=
  loop [] fun names => do
    if ← isNext .closeParen then return .inr names
    let name := simpleName (← consumeNode)
    let comma ← optional .comma
    return .inl (names ++ name :: comma.toList)

/-- `(names) => body`. -/
def inferredArrowFunction (flags : ExpressionFlags) : ParseM Node :=
  within .arrowFunction do
    let opening ← consumeNode
    let names ← inferredNames
    let close ← consumeNode
    arrowFunctionAfter (.of .inferParamList [opening, .list names, close]) flags

/-- The body of a function without a name. -/
def anonymousBody : ParseM Node := do
  if ← isNext .rightDoubleArrow then
    let arrow ← consumeNode
    let result ← value
    return .ofSlots .expressionFunctionBody [some arrow, some result, none]
  else functionBlock

/-- `function` with its qualifiers, signature and body. -/
def anonymousFunction : ParseM Node :=
  within .anonymousFunction do
    let qualifiers ← checkedFunctionQualifiers
    let keyword ← expect .functionKeyword .anonymousFunction
    let signature ← functionSignature
    let body ← anonymousBody
    return .of .explicitAnonymousFunction [qualifiers, keyword, signature, body]

/-! ## Parentheses and constructors -/

/-- `()` or `(expression)`. -/
def braced (flags : ExpressionFlags) : ParseM Node :=
  within .bracedExpression do
    let opening ← consumeNode
    if ← isNext .closeParen then return .of .nilLiteral [opening, ← consumeNode]
    else
      let inner ← expression .default flags.nested
      let close ← expect .closeParen .bracedExpression
      return .of .bracedExpression [opening, inner, close]

/-- What begins with a parenthesis: an expression, or the parameters of a function. -/
def bracedOrArrowFunction (flags : ExpressionFlags) : ParseM Node := do
  if Lookahead.infersParameters (← upcoming) then inferredArrowFunction flags else braced flags

/-- A member of a list constructor. -/
def listMember : ParseM Node := do
  if ← isNext .ellipsis then
    let ellipsis ← consumeNode
    return .of .spreadMember [ellipsis, ← value]
  else value

/-- The rest of a list constructor behind its opening bracket and some members. -/
def listConstructorAfter (opening : Node) (items : List Node) : ParseM Node := do
  let (members, close) ←
    delimitedAfter items .listConstructor .closeBracket .expression listMember
  return .of .listConstructor [opening, members, close]

/-- `[ members ]`. -/
def listConstructor : ParseM Node := do
  listConstructorAfter (← expect .openBracket .listConstructor) []

/-- `error type ( arguments )`, the type being optional. -/
def errorConstructor : ParseM Node := do
  let keyword ← expect .errorKeyword .expression
  let type ← ifNext .identifier typeReference
  let (opening, items, close) ← arguments
  return .ofSlots .errorConstructor [some keyword, type, some opening, some items, some close]

/-- `new`, with arguments, or with a type and arguments. -/
def newExpression : ParseM Node :=
  within .newExpression do
    let keyword ← consumeNode
    match ← nextKind with
    | .openParen => return .of .implicitNewExpression [keyword, ← argumentList]
    | .identifier =>
      let type ← typeReference
      return .of .explicitNewExpression [keyword, type, ← argumentList]
    | .streamKeyword =>
      let type ← typeDescriptor .newExpression
      return .of .explicitNewExpression [keyword, type, ← argumentList]
    | _ => return .ofSlots .implicitNewExpression [some keyword, none]

/-- `let declarations in body`. -/
def letExpression (flags : ExpressionFlags) : ParseM Node :=
  within .letExpression do
    let keyword ← consumeNode
    let (declarations, inKeyword) ←
      delimited .letExpression .inKeyword .typeDescriptor letVariable
    let body ← expression .anonFuncOrLet flags.nested.withoutActions
    return .of .letExpression [keyword, declarations, inKeyword, body]

/-! ## All together -/

/-- What begins with an identifier: a name, or the parameter of a function. -/
def nameOrArrowFunction (flags : ExpressionFlags) : ParseM Node := do
  if !flags.inMatchGuard && (← isSecond .rightDoubleArrow) then namedArrowFunction flags
  else nameReference flags.inConditional

/-- An operand; `kind` is what the next token is taken for. -/
def operandAs (kind : Kind) (floor : Precedence) (flags : ExpressionFlags) : ParseM Node := do
  if kind.isTypeKeyword && (← isSecond .colon) then keywordModuleReference
  else if kind.isLiteral then basicLiteral
  else
    match kind with
    | .identifier => nameOrArrowFunction flags
    | .openParen => bracedOrArrowFunction flags
    | .openBracket => listConstructor
    | .openBrace => mappingConstructor
    | .minus | .plus | .exclamation | .tilde => unary flags
    | .typeofKeyword => typeofExpression flags
    | .trapKeyword => trapExpression flags
    | .checkKeyword | .checkpanicKeyword => checkExpression flags
    | .lt => typeCast flags
    | .errorKeyword => errorConstructor
    | .functionKeyword | .isolatedKeyword | .transactionalKeyword => anonymousFunction
    | .newKeyword => newExpression
    | .letKeyword => letExpression flags
    | .fromKeyword => query flags
    | .startKeyword | .atSign => startAction flags
    | .waitKeyword => waitAction flags
    | .flushKeyword => flushAction flags
    | .commitKeyword => commitAction flags
    | .leftArrow => receiveAction flags
    | _ =>
      recoverAs (.operand floor flags) (.expression floor flags) fun token =>
        pure (simpleName token)

/-- An expression above a floor; `kind` is what the next token is taken for. -/
def expressionAs (kind : Kind) (floor : Precedence) (flags : ExpressionFlags) : ParseM Node :=
  within .expression do
    let operand ← parseAs (.operand floor flags) kind
    operatorsAfter floor operand flags

/-! ## Arguments and fields -/

/-- `name = value` as an argument. -/
def namedArgument : ParseM Node := do
  let name := simpleName (← consumeNode)
  let equal ← consumeNode
  return .of .namedArgument [name, equal, ← value]

/-- An argument; `kind` is what the next token is taken for. -/
def argumentAs (kind : Kind) : ParseM Node := do
  if kind == .ellipsis then
    let ellipsis ← consumeNode
    return .of .restArgument [ellipsis, ← value]
  else if kind == .identifier && (← isSecond .equal) then namedArgument
  else if Starts.expression kind then
    return .of .positionalArgument [← parseAs (.request (.expression .default .rhs)) kind]
  else
    recoverAs (.request .argument) .argument fun token =>
      pure (.of .positionalArgument [simpleName token])

/-- `key: value` with or without `readonly`; the value may be left out behind a name. -/
def specificField : ParseM Node :=
  within .mappingField do
    let isReadonly ← optional .readonlyKeyword
    let key ←
      if ← isNext .stringLiteral then consumeNode else expect .identifier .mappingField
    if (← isNext .colon) || key.kind == .stringLiteral then
      let colon ← expect .colon .mappingField
      let value ← value
      return .ofSlots .specificField [isReadonly, some key, some colon, some value]
    else return .ofSlots .specificField [isReadonly, some key, none, none]

/-- `[expression]: value`. -/
def computedField : ParseM Node :=
  within .computedFieldName do
    let opening ← consumeNode
    let key ← value
    let close ← expect .closeBracket .computedFieldName
    let colon ← expect .colon .mappingField
    let value ← value
    return .of .computedNameField [opening, key, close, colon, value]

/-- A field of a mapping constructor; `kind` is what the next token is taken for. -/
def mappingFieldAs (kind : Kind) (context : Context) : ParseM Node := do
  match kind with
  | .readonlyKeyword | .identifier | .stringLiteral => specificField
  | .openBracket => computedField
  | .ellipsis =>
    let ellipsis ← consumeNode
    return .of .spreadField [ellipsis, ← value]
  | _ =>
    recoverAs (.request (.mappingField context)) (.mappingField context) fun token =>
      pure (.ofSlots .specificField [none, some token, none, none])

end TolerantSyntax.ParseM
