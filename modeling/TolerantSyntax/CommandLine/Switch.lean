import TolerantSyntax.Grammar.Fragment
import TolerantSyntax.Settings.Basic

/-!
# Commands and switches

What can be asked of the program, and the switches that each command knows. A switch is written
`--name`, some also by one letter; some take a value.
-/

namespace TolerantSyntax

/-! ## Commands -/

/-- What can be asked of the program. -/
inductive CommandName where
  /-- Print the tree of each file. -/
  | parse
  /-- Print what is wrong with each file. -/
  | check
  /-- Print the tokens of a file. -/
  | tokens
  /-- Compare each file with the text of its tree. -/
  | roundtrip
  /-- Read sources line by line and print their trees. -/
  | shell
deriving DecidableEq, Repr, Inhabited

namespace CommandName

/-- Every command. -/
def all : List CommandName :=
  [parse, check, tokens, roundtrip, shell]

/-- The name of a command. -/
def name : CommandName → String
  | parse => "parse"
  | check => "check"
  | tokens => "tokens"
  | roundtrip => "roundtrip"
  | shell => "repl"

/-- A shorter name, for some. -/
def shortName? : CommandName → Option String
  | parse => some "p"
  | check => some "c"
  | tokens => some "t"
  | roundtrip | shell => none

/-- The command with a name. -/
def ofWord? (word : String) : Option CommandName :=
  all.find? fun command => command.name == word || command.shortName? == some word

/-- What a command does. -/
def summary : CommandName → String
  | parse => "Print the syntax tree of each file"
  | check => "Report diagnostics with line and column"
  | tokens => "Print the token stream of a file"
  | roundtrip => "Verify that each tree reproduces its source exactly"
  | shell => "Start the interactive parser shell"

theorem mem_all (command : CommandName) : command ∈ all := by
  cases command <;> decide

theorem ofWord?_name (command : CommandName) : ofWord? command.name = some command := by
  cases command <;> decide

end CommandName

/-! ## Operands -/

/-- How many files a command is about. -/
inductive OperandCount where
  | zero
  | one
  | many
deriving DecidableEq, Repr, Inhabited

/-- How the operands are called in a message. -/
def OperandCount.label : OperandCount → String
  | zero => ""
  | one => "<FILE>"
  | many => "<FILES>..."

/-- How many files a command is about; without a command, none. -/
def OperandCount.of : Option CommandName → OperandCount
  | some .parse | some .check | some .roundtrip => .many
  | some .tokens => .one
  | some .shell | none => .zero

/-! ## Switches -/

/-- A switch. -/
inductive Switch where
  | verbose
  | config
  | color
  | help
  | version
  | fragment
  | noDiagnostics
  | trivia
deriving DecidableEq, Repr, Inhabited

namespace Switch

/-- The name behind two dashes. -/
def long : Switch → String
  | verbose => "verbose"
  | config => "config"
  | color => "color"
  | help => "help"
  | version => "version"
  | fragment => "fragment"
  | noDiagnostics => "no-diagnostics"
  | trivia => "trivia"

/-- The letter behind one dash. -/
def short? : Switch → Option Char
  | verbose => some 'v'
  | help => some 'h'
  | version => some 'V'
  | fragment => some 'f'
  | config | color | noDiagnostics | trivia => none

/-- What the value is called, if the switch takes one. -/
def valueName? : Switch → Option String
  | config => some "CONFIG"
  | color => some "COLOR"
  | fragment => some "FRAGMENT"
  | verbose | help | version | noDiagnostics | trivia => none

/-- Does the switch take a value? -/
def takesValue (switch : Switch) : Bool :=
  switch.valueName?.isSome

/-- How the switch is called in a message. -/
def label (switch : Switch) : String :=
  match switch.valueName? with
  | some value => "--" ++ switch.long ++ " <" ++ value ++ ">"
  | none => "--" ++ switch.long

/-- Switches that every command knows. -/
def general : List Switch :=
  [verbose, config, color, help, version]

/-- Switches that a command knows, or the program without a command. -/
def of : Option CommandName → List Switch
  | some .parse => [fragment, noDiagnostics] ++ general
  | some .check | some .roundtrip | some .shell => fragment :: general
  | some .tokens => trivia :: general
  | none => general

/-- The switch of a command with a name. -/
def ofLong? (command : Option CommandName) (name : String) : Option Switch :=
  (of command).find? (·.long == name)

/-- The switch of a command with a letter. -/
def ofShort? (command : Option CommandName) (letter : Char) : Option Switch :=
  (of command).find? (·.short? == some letter)

end Switch

end TolerantSyntax
