import TolerantSyntax.Kind.Basic

/-!
# Fixed texts

Keywords and punctuation are always written the same way. `Kind.text?` gives that text, and
`Kind.keyword?` finds the keyword that a word spells.
-/

namespace TolerantSyntax.Kind

/-! ## Keywords -/

/-- Each keyword with its spelling, in declaration order. -/
def keywords : List (String × Kind) :=
  [("public", .publicKeyword),
   ("private", .privateKeyword),
   ("remote", .remoteKeyword),
   ("resource", .resourceKeyword),
   ("function", .functionKeyword),
   ("returns", .returnsKeyword),
   ("return", .returnKeyword),
   ("external", .externalKeyword),
   ("type", .typeKeyword),
   ("record", .recordKeyword),
   ("object", .objectKeyword),
   ("readonly", .readonlyKeyword),
   ("distinct", .distinctKeyword),
   ("isolated", .isolatedKeyword),
   ("client", .clientKeyword),
   ("service", .serviceKeyword),
   ("listener", .listenerKeyword),
   ("on", .onKeyword),
   ("import", .importKeyword),
   ("as", .asKeyword),
   ("const", .constKeyword),
   ("final", .finalKeyword),
   ("configurable", .configurableKeyword),
   ("var", .varKeyword),
   ("if", .ifKeyword),
   ("else", .elseKeyword),
   ("while", .whileKeyword),
   ("foreach", .foreachKeyword),
   ("in", .inKeyword),
   ("match", .matchKeyword),
   ("do", .doKeyword),
   ("fail", .failKeyword),
   ("break", .breakKeyword),
   ("continue", .continueKeyword),
   ("panic", .panicKeyword),
   ("check", .checkKeyword),
   ("checkpanic", .checkpanicKeyword),
   ("trap", .trapKeyword),
   ("new", .newKeyword),
   ("true", .trueKeyword),
   ("false", .falseKeyword),
   ("null", .nullKeyword),
   ("is", .isKeyword),
   ("typeof", .typeofKeyword),
   ("let", .letKeyword),
   ("from", .fromKeyword),
   ("where", .whereKeyword),
   ("select", .selectKeyword),
   ("limit", .limitKeyword),
   ("order", .orderKeyword),
   ("by", .byKeyword),
   ("ascending", .ascendingKeyword),
   ("descending", .descendingKeyword),
   ("join", .joinKeyword),
   ("equals", .equalsKeyword),
   ("outer", .outerKeyword),
   ("worker", .workerKeyword),
   ("fork", .forkKeyword),
   ("start", .startKeyword),
   ("wait", .waitKeyword),
   ("flush", .flushKeyword),
   ("commit", .commitKeyword),
   ("rollback", .rollbackKeyword),
   ("retry", .retryKeyword),
   ("transaction", .transactionKeyword),
   ("transactional", .transactionalKeyword),
   ("lock", .lockKeyword),
   ("class", .classKeyword),
   ("enum", .enumKeyword),
   ("annotation", .annotationKeyword),
   ("source", .sourceKeyword),
   ("error", .errorKeyword),
   ("never", .neverKeyword),
   ("int", .intKeyword),
   ("float", .floatKeyword),
   ("decimal", .decimalKeyword),
   ("string", .stringKeyword),
   ("boolean", .booleanKeyword),
   ("byte", .byteKeyword),
   ("json", .jsonKeyword),
   ("xml", .xmlKeyword),
   ("anydata", .anydataKeyword),
   ("any", .anyKeyword),
   ("handle", .handleKeyword),
   ("map", .mapKeyword),
   ("future", .futureKeyword),
   ("typedesc", .typedescKeyword),
   ("stream", .streamKeyword)]

/-- The keyword that a word spells. -/
def keyword? (word : String) : Option Kind :=
  (keywords.find? (fun entry => entry.1 == word)).map (·.2)

/-- The spelling of a keyword. -/
def keywordText? (kind : Kind) : Option String :=
  (keywords.find? (fun entry => entry.2 == kind)).map (·.1)

/-! ## Punctuation -/

/-- The spelling of an operator or a delimiter. -/
def punctuationText? : Kind → Option String
  | .openBrace => some "\x7b"
  | .closeBrace => some "\x7d"
  | .openBracePipe => some "\x7b|"
  | .closePipeBrace => some "|\x7d"
  | .openParen => some "("
  | .closeParen => some ")"
  | .openBracket => some "["
  | .closeBracket => some "]"
  | .semicolon => some ";"
  | .comma => some ","
  | .colon => some ":"
  | .dot => some "."
  | .ellipsis => some "..."
  | .doubleDotLt => some "..<"
  | .questionMark => some "?"
  | .optionalChaining => some "?."
  | .elvis => some "?:"
  | .atSign => some "@"
  | .equal => some "="
  | .doubleEqual => some "=="
  | .tripleEqual => some "==="
  | .notEqual => some "!="
  | .notDoubleEqual => some "!=="
  | .notIs => some "!is"
  | .lt => some "<"
  | .gt => some ">"
  | .ltEqual => some "<="
  | .gtEqual => some ">="
  | .doubleLt => some "<<"
  | .plus => some "+"
  | .minus => some "-"
  | .asterisk => some "*"
  | .slash => some "/"
  | .percent => some "%"
  | .exclamation => some "!"
  | .tilde => some "~"
  | .bitwiseAnd => some "&"
  | .pipe => some "|"
  | .caret => some "^"
  | .logicalAnd => some "&&"
  | .logicalOr => some "||"
  | .rightArrow => some "->"
  | .syncSendArrow => some "->>"
  | .leftArrow => some "<-"
  | .rightDoubleArrow => some "=>"
  | .underscore => some "_"
  | _ => none

/-- The text that every token of this kind has, for kinds that have one. -/
def text? (kind : Kind) : Option String :=
  kind.keywordText? <|> kind.punctuationText?

end TolerantSyntax.Kind
