import TolerantSyntax.Grammar.Strategy
import TolerantSyntax.Lexer.Reader

/-!
# Rules and the state of a parse

A rule of the grammar reads a node from the state of the parse. Rules are written against an
environment that holds the recovery strategy and a way to run any rule, so no rule refers to itself:
the recursion of the whole grammar is tied once (`TolerantSyntax.Grammar.Run`). A rule is entered
together with the kind that the next token is taken for. That is its kind in the source, except
where recovery decided to take it for another one or to put a token in.

## Termination

A parse has fuel. It bounds how deep rules nest and how often a loop turns, and it is enough for any
source when the entry points hand it out; the outcome of a parse that runs out is no node at all.
-/

namespace TolerantSyntax

/-! ## Rules -/

/-- What the grammar can be asked to read. -/
inductive Rule where
  /-- The rule that a request belongs to. -/
  | request (request : Request)
  /-- An expression without the operators that follow it. -/
  | operand (floor : Precedence) (flags : ExpressionFlags)
  /-- A type without the suffixes and operators that follow it. -/
  | primaryType (context : Context)

/-! ## State -/

/-- One answer of a strategy, with what it was asked. -/
structure Consultation where
  request : Request
  view : View
  decision : Decision
  /-- How many tokens had been consumed or discarded. -/
  position : Nat

/-- How a consultation is listed: the rule, what was ahead, the answer, and the rules in progress,
the outermost first. -/
def Consultation.text (consultation : Consultation) : String :=
  String.intercalate " "
      [consultation.request.context.name, consultation.view.current.name,
        consultation.view.next.name, consultation.decision.text] ++
    " [" ++ String.intercalate " " (consultation.view.contexts.reverse.map Context.name) ++ "]"

/-- The state of a parse. -/
structure Parser where
  reader : TokenReader
  contexts : ContextStack
  /-- Discarded text that waits for the next token, in source order. -/
  pending : List Trivia
  /-- Where the last consumed token ends; tokens put in are placed there. -/
  lastEnd : Nat
  /-- Answers of the strategy so far, the last one first. -/
  consulted : List Consultation

/-- A parse at the beginning of a source. -/
def Parser.ofSource (source : String) : Parser :=
  { reader := .ofSource source, contexts := [], pending := [], lastEnd := 0, consulted := [] }

/-! ## Reading -/

/-- What rules are written against. -/
structure Env where
  strategy : Strategy
  /-- Bound on the turns of a loop. -/
  fuel : Nat
  /-- Reads a rule whose next token is taken for the given kind. -/
  call : Rule → Kind → Parser → Option (Node × Parser)

/-- A step of a parse; there is no result if the fuel runs out. -/
abbrev ParseM := ReaderT Env (StateT Parser Option)

namespace ParseM

/-- Reads a rule whose next token is taken for the given kind. -/
def parseAs (rule : Rule) (kind : Kind) : ParseM Node :=
  fun env parser => env.call rule kind parser

/-- The parse has no result. -/
def outOfFuel {α : Type} : ParseM α :=
  fun _ _ => none

/-- Repeats a step until it gives a result, at most `fuel` times. -/
def repeatUpTo {α β : Type} (step : α → ParseM (α ⊕ β)) : Nat → α → ParseM β
  | 0, _ => outOfFuel
  | fuel + 1, a => do
    match ← step a with
    | .inl next => repeatUpTo step fuel next
    | .inr result => pure result

/-- Repeats a step until it gives a result. -/
def loop {α β : Type} (start : α) (step : α → ParseM (α ⊕ β)) : ParseM β := do
  repeatUpTo step (← read).fuel start

end ParseM

end TolerantSyntax
