import TolerantSyntax.Grammar.Fragment

/-!
# Parsing

The entry points. A parse can read a fragment, or any rule that a request can enter, from wherever
it is in its source; the state that is handed back goes on from there.

## Fuel

Every rule that is entered either consumes a token within a bounded number of nested rules or asks
the strategy how to go on, and so the depth of a parse and the turns of its loops are bounded by a
multiple of the length of the source. The entry points start with such a multiple.
-/

namespace TolerantSyntax

/-! ## Steps of a parse -/

namespace Parser

/-- Fuel that suffices for a source. -/
def fuel (parser : Parser) : Nat :=
  200 * (parser.reader.scanner.source.length + 10)

/-- Performs a step of the grammar. There is no result if the fuel runs out. -/
def perform {α : Type} (parser : Parser) (strategy : Strategy) (step : ParseM α) :
    Option (α × Parser) :=
  step (.ofFuel strategy parser.fuel) parser

/-- Reads a fragment and all that is left of the source. -/
def parseFragment (parser : Parser) (strategy : Strategy) (kind : FragmentKind) :
    Option (Node × Parser) :=
  parser.perform strategy (ParseM.fragment kind)

/-- Reads a statement with its annotations. -/
def parseStatement (parser : Parser) (strategy : Strategy) : Option (Node × Parser) :=
  parser.perform strategy ParseM.statement

/-- Reads an expression above a floor. -/
def parseExpression (parser : Parser) (strategy : Strategy) (floor : Precedence)
    (flags : ExpressionFlags) : Option (Node × Parser) :=
  parser.perform strategy (ParseM.expression floor flags)

/-- Enters the rule of a request. -/
def resume (parser : Parser) (strategy : Strategy) (request : Request) : Option (Node × Parser) :=
  parser.perform strategy (ParseM.resume request)

/-- Gets past the next token as the rule of a request would. -/
def recover (parser : Parser) (strategy : Strategy) (request : Request) :
    Option (ParseM.Solution × Parser) :=
  parser.perform strategy (ParseM.recover request)

end Parser

/-! ## Entering a rule by its context -/

/-- Why a rule cannot be entered from nothing. -/
inductive ResumeError where
  /-- The rule goes on from something already read. -/
  | unsupportedContext (context : Context)
deriving DecidableEq, Repr

/-- What is said about the failure. -/
def ResumeError.message : ResumeError → String
  | unsupportedContext context =>
    "context " ++ context.name ++ " cannot be resumed without intermediate state"

/-- The request that enters the rule of a context from nothing. -/
def Request.ofContext (context : Context) : Except ResumeError Request :=
  match Request.ofContext? context with
  | some request => .ok request
  | none => .error (.unsupportedContext context)

/-- Enters the rule of a context, if it can be entered from nothing. -/
def ParseM.enterContext (context : Context) : ParseM (Except ResumeError Node) :=
  match Request.ofContext context with
  | .ok request => .ok <$> resume request
  | .error error => pure (.error error)

/-- Enters the rule of a context, wherever the parse stands. -/
def Parser.resumeContext (parser : Parser) (strategy : Strategy) (context : Context) :
    Option (Except ResumeError Node × Parser) :=
  parser.perform strategy (ParseM.enterContext context)

/-! ## Options -/

/-- Options of a parse. -/
structure ParseOptions where
  fragment : FragmentKind := .compilationUnit
  /-- A strategy in place of the standard one. -/
  strategy? : Option Strategy := none

namespace ParseOptions

/-- The strategy that is in force. -/
def strategy (options : ParseOptions) : Strategy :=
  options.strategy?.getD .standard

/-- How options are listed. -/
def text (options : ParseOptions) : String :=
  "ParserOptions \x7b fragment: " ++ options.fragment.label ++ ", custom_recovery: " ++
    toString options.strategy?.isSome ++ " \x7d"

end ParseOptions

/-! ## Sources -/

/-- The tree of a source. -/
def parseWith (source : String) (options : ParseOptions) : Option Node :=
  ((Parser.ofSource source).parseFragment options.strategy options.fragment).map (·.1)

/-- The tree of a fragment, with the standard strategy. -/
def parseFragment (source : String) (kind : FragmentKind) : Option Node :=
  parseWith source { fragment := kind }

/-- The tree of a whole source, with the standard strategy. -/
def parse (source : String) : Option Node :=
  parseFragment source .compilationUnit

end TolerantSyntax
