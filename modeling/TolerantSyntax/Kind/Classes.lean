import TolerantSyntax.Kind.Name
import TolerantSyntax.Kind.Text

/-!
# Classes of kinds

The grammar asks the same questions of a kind in many places: is it a literal, may it begin a type,
may a node of this kind stand where a pattern is expected. Each class is a list of kinds and a test
on it.
-/

namespace TolerantSyntax.Kind

/-! ## Tokens and keywords -/

/-- Kinds of tokens are those declared before `modulePart`. -/
def isToken (kind : Kind) : Bool :=
  kind.ctorIdx < Kind.modulePart.ctorIdx

/-- Keywords are the kinds declared up to `streamKeyword`. -/
def isKeywordToken (kind : Kind) : Bool :=
  kind.ctorIdx ≤ Kind.streamKeyword.ctorIdx

/-- Words that are reserved inside query pipelines only; elsewhere each may serve as an
identifier. -/
def contextualKeywords : List Kind :=
  [.ascendingKeyword, .descendingKeyword, .equalsKeyword, .outerKeyword, .joinKeyword,
   .orderKeyword, .byKeyword, .limitKeyword, .sourceKeyword]

/-- Is it reserved only inside query pipelines? -/
def isContextualKeyword (kind : Kind) : Bool :=
  contextualKeywords.contains kind

/-- Tokens that are literal expressions. -/
def literals : List Kind :=
  [.decimalIntegerLiteral, .hexIntegerLiteral, .decimalFloatingPointLiteral, .stringLiteral,
   .trueKeyword, .falseKeyword, .nullKeyword]

/-- May the token stand alone as a literal expression? -/
def isLiteral (kind : Kind) : Bool :=
  literals.contains kind

/-- Literals that are numbers. -/
def numericLiterals : List Kind :=
  [.decimalIntegerLiteral, .hexIntegerLiteral, .decimalFloatingPointLiteral]

/-- Is it a number? -/
def isNumericLiteral (kind : Kind) : Bool :=
  numericLiterals.contains kind

/-! ## Type keywords -/

/-- Keywords that name a built-in type without parameters. -/
def simpleTypeKeywords : List Kind :=
  [.intKeyword, .floatKeyword, .decimalKeyword, .stringKeyword, .booleanKeyword,
   .byteKeyword, .jsonKeyword, .xmlKeyword, .anydataKeyword, .anyKeyword, .handleKeyword,
   .neverKeyword, .readonlyKeyword, .varKeyword]

/-- Does the keyword name a built-in type without parameters? -/
def isSimpleTypeKeyword (kind : Kind) : Bool :=
  simpleTypeKeywords.contains kind

/-- Keywords that take an optional `<type>` parameter. -/
def parameterizedTypeKeywords : List Kind :=
  [.mapKeyword, .futureKeyword, .typedescKeyword, .errorKeyword]

/-- Does the keyword take an optional type parameter? -/
def isParameterizedTypeKeyword (kind : Kind) : Bool :=
  parameterizedTypeKeywords.contains kind

/-- Keywords, besides the two classes above, that can begin a type. -/
def compoundTypeKeywords : List Kind :=
  [.recordKeyword, .objectKeyword, .streamKeyword, .distinctKeyword, .functionKeyword]

/-- Can the keyword begin a type? -/
def isTypeKeyword (kind : Kind) : Bool :=
  kind.isSimpleTypeKeyword || kind.isParameterizedTypeKeyword || compoundTypeKeywords.contains kind

/-! ## Operators and delimiters -/

/-- Operators that form a compound assignment when `=` touches them. -/
def compoundOperators : List Kind :=
  [.plus, .minus, .asterisk, .slash, .bitwiseAnd, .pipe, .caret, .doubleLt, .gt]

/-- Does the operator form a compound assignment when `=` touches it? -/
def isCompoundOperator (kind : Kind) : Bool :=
  compoundOperators.contains kind

/-- Closing delimiters. -/
def closingDelimiters : List Kind :=
  [.closeBrace, .closePipeBrace, .closeParen, .closeBracket]

/-- Is it a closing delimiter? -/
def isClosingDelimiter (kind : Kind) : Bool :=
  closingDelimiters.contains kind

/-! ## Nodes by role -/

/-- Nodes that can stand where a type is expected. -/
def typeDescriptors : List Kind :=
  [.builtinSimpleTypeDescriptor, .nilTypeDescriptor, .parameterizedTypeDescriptor,
   .streamTypeDescriptor, .arrayTypeDescriptor, .optionalTypeDescriptor,
   .unionTypeDescriptor, .intersectionTypeDescriptor, .tupleTypeDescriptor,
   .restTypeDescriptor, .recordTypeDescriptor, .objectTypeDescriptor,
   .functionTypeDescriptor, .parenthesisedTypeDescriptor, .singletonTypeDescriptor,
   .distinctTypeDescriptor, .simpleNameReference, .qualifiedNameReference]

/-- May a node of this kind stand where a type is expected? -/
def isTypeDescriptor (kind : Kind) : Bool :=
  typeDescriptors.contains kind

/-- Nodes that can stand where a binding pattern is expected. -/
def bindingPatterns : List Kind :=
  [.captureBindingPattern, .wildcardBindingPattern, .listBindingPattern,
   .restBindingPattern, .mappingBindingPattern, .fieldBindingPattern, .errorBindingPattern,
   .namedArgBindingPattern, .typedBindingPattern]

/-- May a node of this kind stand where a binding pattern is expected? -/
def isBindingPattern (kind : Kind) : Bool :=
  bindingPatterns.contains kind

/-- Nodes that are actions rather than expressions. -/
def actions : List Kind :=
  [.remoteMethodCallAction, .asyncSendAction, .syncSendAction, .receiveAction, .startAction,
   .waitAction, .flushAction, .commitAction, .queryAction, .checkAction]

/-- Is a node of this kind an action rather than an expression? -/
def isAction (kind : Kind) : Bool :=
  actions.contains kind

/-! ## Description -/

/-- How a message speaks of a kind: its fixed text in quotes, or what sort of token it is. -/
def describe (kind : Kind) : String :=
  match kind.text? with
  | some text => "'" ++ text ++ "'"
  | none =>
    match kind with
    | .identifier => "identifier"
    | .stringLiteral => "string literal"
    | .decimalIntegerLiteral | .hexIntegerLiteral => "integer literal"
    | .decimalFloatingPointLiteral => "floating point literal"
    | .eof => "end of input"
    | other => other.name

end TolerantSyntax.Kind
