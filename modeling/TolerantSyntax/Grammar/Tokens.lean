import TolerantSyntax.Grammar.Rule
import TolerantSyntax.Tree.Edit

/-!
# Tokens and recovery

The steps that all rules are made of: looking ahead, consuming a token, putting one in, and getting
past a token that does not fit.

Discarded tokens wait in the state until a token is consumed, and then stand before it as invalid
trivia. So the text of the source keeps its order, whatever recovery does.
-/

namespace TolerantSyntax.ParseM

/-! ## Looking ahead -/

/-- The token `ahead` tokens behind the next one. -/
def peekAt (ahead : Nat) : ParseM Token := do
  let parser ← get
  let (token, reader) := parser.reader.peek ahead
  set { parser with reader }
  pure token

/-- The kind of the token `ahead` tokens behind the next one. -/
def kindAt (ahead : Nat) : ParseM Kind := do
  return (← peekAt ahead).kind

/-- The kind of the next token. -/
def nextKind : ParseM Kind :=
  kindAt 0

/-- Is the next token of this kind? -/
def isNext (kind : Kind) : ParseM Bool := do
  return (← nextKind) == kind

/-- Is the token after the next one of this kind? -/
def isSecond (kind : Kind) : ParseM Bool := do
  return (← kindAt 1) == kind

/-- How many tokens have been consumed or discarded. -/
def position : ParseM Nat := do
  return (← get).reader.consumed

/-! ## Consuming -/

/-- Consumes the next token, with the discarded text before it. -/
def consume : ParseM Token := do
  let parser ← get
  let (token, reader) := parser.reader.consume
  set { parser with reader, pending := [], lastEnd := token.span.stop }
  pure (token.withLeading parser.pending)

/-- Consumes the next token as a leaf. -/
def consumeNode : ParseM Node := do
  return .leaf (← consume)

/-- Consumes the next token as a leaf of the given kind. -/
def consumeAs (kind : Kind) : ParseM Node := do
  return .leaf ((← consume).withKind kind)

/-- Consumes the next token if it is of this kind. -/
def optional (kind : Kind) : ParseM (Option Node) := do
  if ← isNext kind then some <$> consumeNode else pure none

/-- Reads a part if the next token is of this kind. -/
def ifNext (kind : Kind) (part : ParseM Node) : ParseM (Option Node) := do
  if ← isNext kind then some <$> part else pure none

/-- Discards the next token; at the end of input, does nothing. -/
def discard : ParseM Unit := do
  unless ← isNext .eof do
    let parser ← get
    let (token, reader) := parser.reader.consume
    let discarded := Node.setAside (.leaf token) (.invalidToken token.kind)
    set { parser with reader, pending := parser.pending ++ [discarded] }

/-- A token put in behind the last consumed one. -/
def missing (kind : Kind) (code : DiagnosticCode) : ParseM Node := do
  return .missing kind (← get).lastEnd code

/-! ## Contexts and lexical modes -/

/-- Runs a step with one more rule in progress. -/
def within {α : Type} (context : Context) (step : ParseM α) : ParseM α := do
  modify fun parser => { parser with contexts := context :: parser.contexts }
  let result ← step
  modify fun parser => { parser with contexts := parser.contexts.tail }
  pure result

/-- Says more exactly which the innermost rule in progress is. -/
def replaceContext (context : Context) : ParseM Unit :=
  modify fun parser => { parser with contexts := parser.contexts.replaceTop context }

/-- Runs a step with the words of the source read in another mode. -/
def withMode {α : Type} (mode : LexerMode) (step : ParseM α) : ParseM α := do
  modify fun parser => { parser with reader := parser.reader.startMode mode }
  let result ← step
  modify fun parser => { parser with reader := parser.reader.endMode }
  pure result

/-! ## Recovery -/

/-- Reads a rule at the next token. -/
def parse (rule : Rule) : ParseM Node := do
  parseAs rule (← nextKind)

/-- Reads the rule of a request at the next token. -/
def resume (request : Request) : ParseM Node :=
  parse (.request request)

/-- Asks the strategy what to do. -/
def decide (request : Request) : ParseM Decision := do
  let current ← nextKind
  let next ← kindAt 1
  let parser ← get
  let view : View := { current, next, contexts := parser.contexts }
  let decision := (← read).strategy parser.consulted.length request view
  let consultation := { request, view, decision, position := parser.reader.consumed }
  set { parser with consulted := consultation :: parser.consulted }
  pure (decision.atEnd request current)

/-- Discards tokens up to one at which the request can go on, or at which the strategy decides to do
something else. -/
def skip (request : Request) : ParseM Unit := do
  discard
  loop () fun _ => do
    let kind ← nextKind
    if kind == .eof || request.accepts kind then pure (.inr ())
    else if (← decide request) == .remove then
      discard
      pure (.inl ())
    else pure (.inr ())

/-- How a rule that was stuck goes on. -/
inductive Solution where
  /-- As if the next token were of this kind. -/
  | keep (kind : Kind)
  /-- As if a token of this kind were next; `missing` is that token. -/
  | insert (kind : Kind) (missing : Node)
  /-- Tokens were discarded and the rule was read behind them. -/
  | remove (node : Node)

/-- Gets past a token that a rule cannot continue with. -/
def recover (request : Request) : ParseM Solution := do
  match ← decide request with
  | .keep kind => pure (.keep kind)
  | .insert kind => return .insert kind (← missing kind (request.missingCode kind))
  | .remove =>
    skip request
    return .remove (← resume request)

/-- Gets past a token that a rule cannot continue with: `rule` is read again as if the next token
were of another kind, and `whenMissing` says what becomes of a token put in. -/
def recoverAs (rule : Rule) (request : Request) (whenMissing : Node → ParseM Node) :
    ParseM Node := do
  match ← recover request with
  | .remove node => pure node
  | .insert _ token => whenMissing token
  | .keep kind => parseAs rule kind

/-- Gets past a token that a rule cannot continue with, reading the rule again as if the next token
were of the kind that was chosen, be it kept or put in. -/
def recoverOver (request : Request) : ParseM Node := do
  match ← recover request with
  | .remove node => pure node
  | .insert kind _ => parseAs (.request request) kind
  | .keep kind => parseAs (.request request) kind

/-- Consumes a token of the given kind; `kind` is what the next token is taken for. -/
def expectAs (kind expected : Kind) (context : Context) : ParseM Node := do
  if kind == expected then consumeNode
  else
    match ← recover (.token context expected) with
    | .remove node => pure node
    | .insert _ token => pure token
    | .keep _ => consumeAs expected

/-- Consumes a token of the given kind. -/
def expect (expected : Kind) (context : Context) : ParseM Node := do
  expectAs (← nextKind) expected context

end TolerantSyntax.ParseM
