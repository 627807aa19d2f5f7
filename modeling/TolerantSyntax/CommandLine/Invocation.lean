import TolerantSyntax.CommandLine.Reading

/-!
# Invocations

A command line that has been read: the command with all that belongs to it, and the settings that
hold for every command. Switches for these may stand before the command or behind it; behind it they
win.
-/

namespace TolerantSyntax

/-- A command with its arguments. -/
inductive Command where
  | parse (fragment : FragmentKind) (files : List String) (noDiagnostics : Bool)
  | check (fragment : FragmentKind) (files : List String)
  | tokens (file : String) (trivia : Bool)
  | roundtrip (fragment : FragmentKind) (files : List String)
  | shell (fragment : Option FragmentKind)
deriving DecidableEq, Repr

/-- What the program is asked for. -/
structure Invocation where
  verbose : Bool
  /-- The settings document. -/
  config : Option String
  color : Option ColorChoice
  /-- Without a command, the shell is started. -/
  command : Option Command
deriving DecidableEq, Repr

namespace Invocation

/-- A command with what its words have set. -/
def commandOf (name : CommandName) (assigned : Assigned) : Command :=
  let fragment := assigned.fragment.getD .compilationUnit
  match name with
  | .parse => .parse fragment assigned.files assigned.noDiagnostics
  | .check => .check fragment assigned.files
  | .tokens => .tokens (assigned.files.headD "") assigned.trivia
  | .roundtrip => .roundtrip fragment assigned.files
  | .shell => .shell assigned.fragment

/-- The invocation from what the words before and behind the name of a command have set. -/
def of (before : Assigned) (behind : Option (CommandName × Assigned))
    (configVariable : Option String) : Invocation :=
  let inner := (behind.map (·.2)).getD {}
  { verbose := inner.verbose || before.verbose
    config := inner.config <|> before.config <|> configVariable
    color := inner.color <|> before.color
    command := behind.map fun (name, assigned) => commandOf name assigned }

/-- What `help` asks for: help about the program, or about the command named behind it. -/
def helpAbout : List String → UsageError
  | [] => .help none
  | [word] =>
    if word == "help" then .help none
    else
      match CommandName.ofWord? word with
      | some command => .help (some command)
      | none => .unknownCommand word
  | word :: next :: _ =>
    if word == "help" || (CommandName.ofWord? word).isSome then .unknownCommand next
    else .unknownCommand word

/-- Reads the words behind the name of a command. -/
def readCommand (name : CommandName) (words : List String) (configVariable : Option String) :
    Except UsageError Assigned := do
  let reading ← words.foldlM Reading.word { command := some name }
  reading.finish configVariable

/-- Reads words until the name of a command comes, and then those of the command. -/
def readFrom (reading : Reading) (configVariable : Option String) :
    List String → Except UsageError Invocation
  | [] => do return of (← reading.finish configVariable) none configVariable
  | word :: rest =>
    if reading.ended || reading.awaitsValue then do
      readFrom (← reading.word word) configVariable rest
    else if word == "help" then .error (helpAbout rest)
    else
      match CommandName.ofWord? word with
      | none => do readFrom (← reading.word word) configVariable rest
      | some name => do
        let assigned ← readCommand name rest configVariable
        let before ← reading.finish configVariable
        return of before (some (name, assigned)) configVariable

/-- Reads a command line, given the variable that names a settings document. -/
def ofWords (words : List String) (configVariable : Option String) :
    Except UsageError Invocation :=
  readFrom { command := none } configVariable words

end Invocation

end TolerantSyntax
