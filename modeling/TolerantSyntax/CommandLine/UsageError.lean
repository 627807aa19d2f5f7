import TolerantSyntax.CommandLine.Switch

/-!
# Usage errors

Why a command line cannot be followed, and what is said about it. Asking for help or for the version
also ends the reading of a command line, so these are among the outcomes.
-/

namespace TolerantSyntax

/-- Why a command line is not followed. -/
inductive UsageError where
  /-- A command needs files and got none. -/
  | operandsMissing
  /-- A switch that the command does not know, or one word too many. -/
  | unknownArgument (word : String)
  | unknownCommand (word : String)
  /-- A switch or an operand without its value. -/
  | valueMissing (label : String)
  /-- A value that is not among the possible ones. -/
  | invalidValue (value label : String)
  /-- A value that is refused, with the reason. -/
  | refusedValue (value label reason : String)
  /-- A value for a switch that takes none. -/
  | surplusValue (value label : String)
  /-- A switch that comes twice. -/
  | repeated (label : String)
  /-- Help is asked for. -/
  | help (command : Option CommandName)
  /-- The version is asked for. -/
  | version (command : Option CommandName)
deriving DecidableEq, Repr

/-- The version of the program. -/
def programVersion : String := "0.1.0"

/-- What is said about a name that is no kind of fragment. -/
def unknownFragmentMessage (name : String) : String :=
  "unknown fragment '" ++ name ++ "', expected one of: " ++
    String.intercalate ", " (FragmentKind.all.map FragmentKind.name)

namespace UsageError

/-- The line for a command in the help. -/
def commandLine (command : CommandName) : String :=
  "  " ++ command.name ++ "  " ++ command.summary ++ "\n"

/-- The line for a switch in the help. -/
def switchLine (switch : Switch) : String :=
  let short :=
    match switch.short? with
    | some letter => "-" ++ letter.toString ++ ", "
    | none => "    "
  "  " ++ short ++ switch.label ++ "\n"

/-- The help for a command or for the program. -/
def helpText (command : Option CommandName) : String :=
  let switches := "\nOptions:\n" ++ String.join ((Switch.of command).map switchLine)
  match command with
  | some command =>
    command.summary ++ "\n\nUsage: ballast " ++ command.name ++ " [OPTIONS] " ++
      (OperandCount.of command).label ++ "\n" ++ switches
  | none =>
    "ballast - error-tolerant parser for Ballerina-style sources\n\n" ++
      "Usage: ballast [OPTIONS] [COMMAND]\n\nCommands:\n" ++
      String.join (CommandName.all.map commandLine) ++ switches

/-- The version as a command shows it. -/
def versionText : Option CommandName → String
  | some command => "ballast-" ++ command.name ++ " " ++ programVersion ++ "\n"
  | none => "ballast " ++ programVersion ++ "\n"

/-- What is said about a command line. -/
def message : UsageError → String
  | operandsMissing => "the following required arguments were not provided:"
  | unknownArgument word => "unexpected argument '" ++ word ++ "' found"
  | unknownCommand word => "unrecognized subcommand '" ++ word ++ "'"
  | valueMissing label => "a value is required for '" ++ label ++ "' but none was supplied"
  | invalidValue value label => "invalid value '" ++ value ++ "' for '" ++ label ++ "'"
  | refusedValue value label reason =>
    "invalid value '" ++ value ++ "' for '" ++ label ++ "': " ++ reason
  | surplusValue value label =>
    "unexpected value '" ++ value ++ "' for '" ++ label ++ "' found; no more were expected"
  | repeated label => "the argument '" ++ label ++ "' cannot be used multiple times"
  | help command => helpText command
  | version command => versionText command

/-- Does the user get what was asked for? -/
def isInformation : UsageError → Bool
  | help _ | version _ => true
  | _ => false

end UsageError

end TolerantSyntax
