import TolerantSyntax.CommandLine.UsageError

/-!
# Reading a command line

A command line is read word by word: switches, the name of a command, and then the switches and
files of the command. The value of a switch may be joined to it or be the next word. A value that is
a word of its own, and files, wait until the next switch or the end before they are looked at; so of
two errors in a line, the one about an unknown word wins.
-/

namespace TolerantSyntax

/-! ## What has been read -/

/-- What the words of one command have set. -/
structure Assigned where
  verbose : Bool := false
  noDiagnostics : Bool := false
  trivia : Bool := false
  config : Option String := none
  color : Option ColorChoice := none
  fragment : Option FragmentKind := none
  files : List String := []
deriving DecidableEq, Repr, Inhabited

/-- Words that have not been looked at yet. -/
inductive Waiting where
  /-- The value of a switch, or none while it is still to come. -/
  | value (switch : Switch) (text : Option String)
  | files (texts : List String)
deriving DecidableEq, Repr

/-- The words of one command so far; without a command, those before it. -/
structure Reading where
  command : Option CommandName
  assigned : Assigned := {}
  waiting : Option Waiting := none
  /-- Is what follows a file, whatever it looks like? -/
  ended : Bool := false
deriving DecidableEq, Repr

namespace Assigned

/-- Has a switch been set before? -/
def has (assigned : Assigned) : Switch → Bool
  | .verbose => assigned.verbose
  | .noDiagnostics => assigned.noDiagnostics
  | .trivia => assigned.trivia
  | .config => assigned.config.isSome
  | .color => assigned.color.isSome
  | .fragment => assigned.fragment.isSome
  | .help | .version => false

/-- Sets a switch that takes no value. -/
def withFlag (assigned : Assigned) : Switch → Assigned
  | .verbose => { assigned with verbose := true }
  | .noDiagnostics => { assigned with noDiagnostics := true }
  | .trivia => { assigned with trivia := true }
  | _ => assigned

/-- Sets a switch to a value. -/
def withValue (assigned : Assigned) (switch : Switch) (text : String) :
    Except UsageError Assigned :=
  match switch with
  | .config =>
    if text.isEmpty then .error (.valueMissing switch.label)
    else .ok { assigned with config := some text }
  | .color =>
    match ColorChoice.ofName? text with
    | some color => .ok { assigned with color := some color }
    | none =>
      .error
        (if text.isEmpty then .valueMissing switch.label else .invalidValue text switch.label)
  | .fragment =>
    match FragmentKind.ofName? text with
    | some fragment => .ok { assigned with fragment := some fragment }
    | none => .error (.refusedValue text switch.label (unknownFragmentMessage text))
  | _ => .ok assigned

end Assigned

namespace Reading

/-- Sets a switch that may be set only once. -/
def assign (reading : Reading) (switch : Switch) (text : String) : Except UsageError Reading := do
  if reading.assigned.has switch then throw (.repeated switch.label)
  let assigned ← reading.assigned.withValue switch text
  return { reading with assigned }

/-- Looks at the words that wait. -/
def settle (reading : Reading) : Except UsageError Reading :=
  let settled := { reading with waiting := none }
  match reading.waiting with
  | none => .ok settled
  | some (.value switch none) => .error (.valueMissing switch.label)
  | some (.value switch (some text)) => settled.assign switch text
  | some (.files texts) =>
    if texts.any String.isEmpty then
      .error (.valueMissing (OperandCount.of reading.command).label)
    else
      let files := reading.assigned.files ++ texts
      .ok { settled with assigned := { reading.assigned with files } }

/-! ## Switches -/

/-- A switch without a value. -/
def flag (reading : Reading) (switch : Switch) : Except UsageError Reading := do
  let reading ← reading.settle
  match switch with
  | .help => throw (.help reading.command)
  | .version => throw (.version reading.command)
  | switch =>
    if reading.assigned.has switch then throw (.repeated switch.label)
    return { reading with assigned := reading.assigned.withFlag switch }

/-- A switch with its value, if that is joined to it. -/
def valued (reading : Reading) (switch : Switch) (joined : Option String) :
    Except UsageError Reading := do
  let reading ← reading.settle
  match joined with
  | some text => reading.assign switch text
  | none => return { reading with waiting := some (.value switch none) }

/-- A switch by its name. -/
def longSwitch (reading : Reading) (name : String) (joined : Option String) :
    Except UsageError Reading :=
  match Switch.ofLong? reading.command name with
  | none => .error (.unknownArgument ("--" ++ name))
  | some switch =>
    if switch.takesValue then reading.valued switch joined
    else
      match joined with
      | some value => .error (.surplusValue value switch.label)
      | none => reading.flag switch

/-- The value that follows a letter in the same word; an equals sign in front is not part of it. -/
def joinedValue : List Char → Option String
  | [] => none
  | '=' :: rest => some (String.ofList rest)
  | rest => some (String.ofList rest)

/-- Switches by their letters, all in one word. -/
def shortSwitches (reading : Reading) : List Char → Except UsageError Reading
  | [] => .ok reading
  | letter :: rest =>
    match Switch.ofShort? reading.command letter with
    | none => .error (.unknownArgument ("-" ++ letter.toString))
    | some switch =>
      if switch.takesValue then reading.valued switch (joinedValue rest)
      else do shortSwitches (← reading.flag switch) rest

/-! ## Files -/

/-- Have files been named? -/
def hasFiles (reading : Reading) : Bool :=
  match reading.waiting with
  | some (.files _) => true
  | _ => !reading.assigned.files.isEmpty

/-- A word that is no switch and no value of one. -/
def operand (reading : Reading) (word : String) : Except UsageError Reading := do
  match OperandCount.of reading.command with
  | .zero =>
    if reading.command.isNone && !(reading.ended && isCommand word) then
      throw (.unknownCommand word)
    else throw (.unknownArgument word)
  | .one =>
    if reading.hasFiles then throw (.unknownArgument word)
    let reading ← reading.settle
    return { reading with waiting := some (.files [word]) }
  | .many =>
    match reading.waiting with
    | some (.files texts) => return { reading with waiting := some (.files (texts ++ [word])) }
    | _ =>
      let reading ← reading.settle
      return { reading with waiting := some (.files [word]) }
where
  /-- Is it the name of a command? -/
  isCommand (word : String) : Bool :=
    word == "help" || (CommandName.ofWord? word).isSome

/-! ## Words -/

/-- Splits `name=value`. -/
def nameAndValue (chars : List Char) : String × Option String :=
  let name := String.ofList (chars.takeWhile (· != '='))
  match chars.dropWhile (· != '=') with
  | _ :: value => (name, some (String.ofList value))
  | [] => (name, none)

/-- A word that may be the value of the switch before it. -/
def plainWord (reading : Reading) (word : String) : Except UsageError Reading :=
  match reading.waiting with
  | some (.value switch none) =>
    .ok { reading with waiting := some (.value switch (some word)) }
  | _ => reading.operand word

/-- The next word. -/
def word (reading : Reading) (text : String) : Except UsageError Reading :=
  if reading.ended then reading.operand text
  else
    match text.toList with
    | ['-', '-'] => .ok { reading with ended := true }
    | '-' :: '-' :: rest =>
      let (name, value) := nameAndValue rest
      reading.longSwitch name value
    | '-' :: letter :: rest => reading.shortSwitches (letter :: rest)
    | _ => reading.plainWord text

/-- Is the next word the value of a switch, unless it is a switch itself? -/
def awaitsValue (reading : Reading) : Bool :=
  match reading.waiting with
  | some (.value _ none) => true
  | _ => false

/-- The end of the words of a command, given the variable that names a settings document. -/
def finish (reading : Reading) (configVariable : Option String) :
    Except UsageError Assigned := do
  let reading ← reading.settle
  if reading.assigned.config.isNone && configVariable == some "" then
    throw (.valueMissing Switch.config.label)
  if OperandCount.of reading.command != .zero && reading.assigned.files.isEmpty then
    throw .operandsMissing
  return reading.assigned

end Reading

end TolerantSyntax
