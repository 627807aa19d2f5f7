import TolerantSyntax.Grammar.Type

/-!
# Patterns

Binding patterns take values apart and name the parts; match patterns say which values a clause is
for.
-/

namespace TolerantSyntax.ParseM

/-! ## Binding patterns -/

/-- `...name`. -/
def restBinding : ParseM Node := do
  let ellipsis ← consumeNode
  return .of .restBindingPattern [ellipsis, ← expect .identifier .bindingPattern]

/-- Does a member of a list pattern come next that has a type of its own? -/
def isTypedMember : ParseM Bool := do
  match ← nextKind with
  | .identifier =>
    let qualified ← pure ((← kindAt 1) == .colon && (← kindAt 2) == .identifier)
    let kind ← kindAt (if qualified then 3 else 1)
    return kind == .identifier || kind == .underscore
  | .errorKeyword =>
    match ← kindAt 1 with
    | .identifier => return (← kindAt 2) != .openParen
    | .underscore | .lt => return true
    | _ => return false
  | kind => return kind.isTypeKeyword

/-- A member of a list binding pattern. -/
def listBindingMember : ParseM Node := do
  if ← isNext .ellipsis then restBinding
  else if ← isTypedMember then typedBinding
  else bindingPattern

/-- The rest of a list binding pattern behind its opening bracket and some members. -/
def listBindingAfter (opening : Node) (items : List Node) : ParseM Node := do
  let (members, close) ←
    delimitedAfter items .listBindingPattern .closeBracket .bindingPattern listBindingMember
  return .of .listBindingPattern [opening, members, close]

/-- `name` or `name: pattern`. -/
def fieldBinding : ParseM Node := do
  if ← isNext .ellipsis then restBinding
  else
    let name := simpleName (← expect .identifier .mappingBindingPattern)
    if ← isNext .colon then
      let colon ← consumeNode
      return .of .fieldBindingPattern [name, colon, ← bindingPattern]
    else return .ofSlots .fieldBindingPattern [some name, none, none]

/-- `{ fields }` as a binding pattern. -/
def mappingBinding : ParseM Node := do
  let opening ← consumeNode
  let (fields, close) ← delimited .mappingBindingPattern .closeBrace .identifier fieldBinding
  return .of .mappingBindingPattern [opening, fields, close]

/-- An argument of an error binding pattern. -/
def errorBindingArgument : ParseM Node := do
  if ← isNext .ellipsis then restBinding
  else if (← isNext .identifier) && (← isSecond .equal) then
    let name ← consumeNode
    let equal ← consumeNode
    return .of .namedArgBindingPattern [name, equal, ← bindingPattern]
  else bindingPattern

/-- `error type ( arguments )`, the type being optional. -/
def errorBinding : ParseM Node :=
  within .errorBindingPattern do
    let keyword ← consumeNode
    let type ← ifNext .identifier typeReference
    let opening ← expect .openParen .errorBindingPattern
    let (arguments, close) ←
      delimited .errorBindingPattern .closeParen .bindingPattern errorBindingArgument
    return .ofSlots .errorBindingPattern
      [some keyword, type, some opening, some arguments, some close]

/-- A binding pattern; `kind` is what the next token is taken for. -/
def bindingPatternAs (kind : Kind) : ParseM Node := do
  match kind with
  | .identifier =>
    return .of .captureBindingPattern [← expect .identifier .bindingPattern]
  | .underscore => return .of .wildcardBindingPattern [← consumeNode]
  | .openBracket => listBindingAfter (← consumeNode) []
  | .openBrace => mappingBinding
  | .errorKeyword => errorBinding
  | _ =>
    recoverAs (.request .bindingPattern) .bindingPattern fun token =>
      pure (.of .captureBindingPattern [token])

/-! ## Match patterns -/

/-- `...var name`. -/
def restMatch : ParseM Node := do
  let ellipsis ← consumeNode
  let var ← expect .varKeyword .matchPattern
  let name ← expect .identifier .matchPattern
  return .of .restMatchPattern [ellipsis, var, .of .captureBindingPattern [name]]

/-- A member of a list match pattern. -/
def listMatchMember : ParseM Node := do
  if ← isNext .ellipsis then restMatch else matchPattern

/-- `[ members ]` as a match pattern. -/
def listMatch : ParseM Node := do
  let opening ← consumeNode
  let (members, close) ← delimited .listMatchPattern .closeBracket .matchPattern listMatchMember
  return .of .listMatchPattern [opening, members, close]

/-- `name: pattern`. -/
def fieldMatch : ParseM Node := do
  if ← isNext .ellipsis then restMatch
  else
    let name ← expect .identifier .mappingMatchPattern
    let colon ← expect .colon .mappingMatchPattern
    return .of .fieldMatchPattern [name, colon, ← matchPattern]

/-- `{ fields }` as a match pattern. -/
def mappingMatch : ParseM Node := do
  let opening ← consumeNode
  let (fields, close) ← delimited .mappingMatchPattern .closeBrace .identifier fieldMatch
  return .of .mappingMatchPattern [opening, fields, close]

/-- An argument of an error match pattern. -/
def errorMatchArgument : ParseM Node := do
  if ← isNext .ellipsis then restMatch
  else if (← isNext .identifier) && (← isSecond .equal) then
    let name ← consumeNode
    let equal ← consumeNode
    return .of .namedArgMatchPattern [name, equal, ← matchPattern]
  else matchPattern

/-- `error type ( arguments )` as a match pattern, the type being optional. -/
def errorMatch : ParseM Node :=
  within .errorMatchPattern do
    let keyword ← consumeNode
    let type ← ifNext .identifier typeReference
    let opening ← expect .openParen .errorMatchPattern
    let (arguments, close) ←
      delimited .errorMatchPattern .closeParen .matchPattern errorMatchArgument
    return .ofSlots .errorMatchPattern
      [some keyword, type, some opening, some arguments, some close]

/-- A match pattern; `kind` is what the next token is taken for. -/
def matchPatternAs (kind : Kind) : ParseM Node := do
  if kind.isLiteral then basicLiteral
  else
    match kind with
    | .minus => negativeLiteral
    | .underscore => return .of .wildcardBindingPattern [← consumeNode]
    | .varKeyword => typedBindingAfter (.of .builtinSimpleTypeDescriptor [← consumeNode])
    | .identifier => nameReference false
    | .openParen =>
      let opening ← consumeNode
      return .of .nilLiteral [opening, ← expect .closeParen .matchPattern]
    | .openBracket => listMatch
    | .openBrace => mappingMatch
    | .errorKeyword => errorMatch
    | _ =>
      recoverAs (.request .matchPattern) .matchPattern fun token => pure (simpleName token)

end TolerantSyntax.ParseM
