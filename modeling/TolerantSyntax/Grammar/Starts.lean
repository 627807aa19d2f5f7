import TolerantSyntax.Kind.Classes

/-!
# Which tokens begin what

For each sort of construct, the kinds of token that it can begin with. Recovery stops skipping at
such a token, and lists use the same sets to tell a forgotten separator from junk.
-/

namespace TolerantSyntax.Starts

/-! ## Expressions, types and patterns -/

/-- Tokens, besides literals, that begin an expression. -/
def expressionTokens : List Kind :=
  [.identifier, .openParen, .openBracket, .openBrace, .minus, .plus, .exclamation, .tilde, .lt,
   .typeofKeyword, .trapKeyword, .checkKeyword, .checkpanicKeyword, .errorKeyword,
   .functionKeyword, .isolatedKeyword, .transactionalKeyword, .newKeyword, .letKeyword,
   .fromKeyword, .startKeyword, .waitKeyword, .flushKeyword, .commitKeyword, .leftArrow]

/-- Can the kind begin an expression? -/
def expression (kind : Kind) : Bool :=
  kind.isLiteral || expressionTokens.contains kind

/-- Tokens, besides type keywords and literals, that begin a type. -/
def typeTokens : List Kind :=
  [.identifier, .openParen, .openBracket, .minus, .isolatedKeyword, .clientKeyword]

/-- Can the kind begin a type? -/
def type (kind : Kind) : Bool :=
  kind.isTypeKeyword || kind.isLiteral || typeTokens.contains kind

/-- Tokens that begin a binding pattern. -/
def bindingPatternTokens : List Kind :=
  [.identifier, .underscore, .openBracket, .openBrace, .errorKeyword]

/-- Can the kind begin a binding pattern? -/
def bindingPattern (kind : Kind) : Bool :=
  bindingPatternTokens.contains kind

/-- Tokens, besides literals, that begin a match pattern. -/
def matchPatternTokens : List Kind :=
  [.identifier, .underscore, .varKeyword, .minus, .openParen, .openBracket, .openBrace,
   .errorKeyword]

/-- Can the kind begin a match pattern? -/
def matchPattern (kind : Kind) : Bool :=
  kind.isLiteral || matchPatternTokens.contains kind

/-- Tokens that begin a field of a mapping constructor. -/
def mappingFieldTokens : List Kind :=
  [.identifier, .stringLiteral, .openBracket, .ellipsis, .readonlyKeyword]

/-- Can the kind begin a field of a mapping constructor? -/
def mappingField (kind : Kind) : Bool :=
  mappingFieldTokens.contains kind

/-! ## Statements and clauses -/

/-- Tokens that begin a statement and neither an expression nor a type. -/
def statementTokens : List Kind :=
  [.openBrace, .atSign, .underscore, .finalKeyword, .ifKeyword, .whileKeyword, .foreachKeyword,
   .matchKeyword, .doKeyword, .returnKeyword, .breakKeyword, .continueKeyword, .panicKeyword,
   .failKeyword, .lockKeyword, .transactionKeyword, .retryKeyword, .rollbackKeyword,
   .forkKeyword, .workerKeyword]

/-- Can the kind begin a statement? -/
def statement (kind : Kind) : Bool :=
  statementTokens.contains kind || expression kind || type kind

/-- Keywords that begin declarations only; a list of statements ends before them. -/
def moduleOnlyKeywords : List Kind :=
  [.importKeyword, .publicKeyword, .constKeyword, .classKeyword, .enumKeyword, .listenerKeyword,
   .annotationKeyword, .configurableKeyword]

/-- Does the kind end a list of statements because it begins a declaration? -/
def moduleOnly (kind : Kind) : Bool :=
  moduleOnlyKeywords.contains kind

/-- Tokens that begin a clause in the middle of a query. -/
def intermediateClauseTokens : List Kind :=
  [.fromKeyword, .whereKeyword, .letKeyword, .joinKeyword, .outerKeyword, .orderKeyword,
   .limitKeyword]

/-- Can the kind begin a clause in the middle of a query? -/
def intermediateClause (kind : Kind) : Bool :=
  intermediateClauseTokens.contains kind

/-! ## Declarations and members -/

/-- Tokens, besides those of types, that begin a declaration. -/
def moduleMemberTokens : List Kind :=
  [.atSign, .importKeyword, .publicKeyword, .transactionalKeyword, .finalKeyword,
   .configurableKeyword, .functionKeyword, .constKeyword, .typeKeyword, .classKeyword,
   .enumKeyword, .annotationKeyword, .listenerKeyword, .serviceKeyword, .distinctKeyword]

/-- Can the kind begin a declaration? -/
def moduleMember (kind : Kind) : Bool :=
  moduleMemberTokens.contains kind || type kind

/-- Tokens, besides those of types, that begin a member of a class or an object type. -/
def classMemberTokens : List Kind :=
  [.atSign, .asterisk, .publicKeyword, .privateKeyword, .remoteKeyword, .resourceKeyword,
   .transactionalKeyword, .finalKeyword, .functionKeyword]

/-- Can the kind begin a member of a class or an object type? -/
def classMember (kind : Kind) : Bool :=
  classMemberTokens.contains kind || type kind

/-- Can the kind begin a field of a record type? -/
def recordField (kind : Kind) : Bool :=
  kind == .atSign || kind == .asterisk || type kind

end TolerantSyntax.Starts

namespace TolerantSyntax

/-! ## Items of lists -/

/-- What the items of a separated list are. -/
inductive ListItem where
  | expression
  | argument
  | typeDescriptor
  | bindingPattern
  | matchPattern
  | parameter
  | mappingField
  | waitField
  | identifier
  /-- Members of a list whose grammar is not decided yet. -/
  | ambiguous
deriving DecidableEq, Repr, Inhabited

/-- Can the kind begin an item? -/
def ListItem.starts (item : ListItem) (kind : Kind) : Bool :=
  match item with
  | .expression | .argument => Starts.expression kind || kind == .ellipsis
  | .typeDescriptor => Starts.type kind
  | .bindingPattern => Starts.bindingPattern kind || kind == .ellipsis
  | .matchPattern => Starts.matchPattern kind || kind == .ellipsis
  | .parameter => Starts.type kind || kind == .atSign
  | .mappingField => Starts.mappingField kind
  | .waitField | .identifier => kind == .identifier
  | .ambiguous => Starts.expression kind || Starts.type kind || kind == .ellipsis

end TolerantSyntax
