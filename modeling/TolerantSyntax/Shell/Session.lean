import TolerantSyntax.CommandLine.UsageError
import TolerantSyntax.Program.Files
import TolerantSyntax.Shell.Balance
import TolerantSyntax.Shell.Command

/-!
# Sessions of the shell

A session reads inputs one after another. An input is a line, with those after it as long as
something in it is still open. It is a command to the shell, or it is parsed and its tree printed.
-/

namespace TolerantSyntax

/-! ## Inputs -/

namespace Shell

/-- Is an input finished? A command is, whatever it holds. -/
def isFinished (input : String) : Bool :=
  (Text.trimStart input.toList).head? == some '.' || isBalanced input

/-- A line without the break at its end, given that it may have one. -/
def withoutBreak (line : List Char) : List Char :=
  match line.reverse with
  | '\n' :: '\r' :: before => before.reverse
  | '\n' :: before => before.reverse
  | _ => line

/-- The lines of a text with their breaks; there is none behind a last break. -/
def brokenLines : List Char → List (List Char)
  | [] => []
  | c :: rest =>
    if c = '\n' then [c] :: brokenLines rest
    else
      match brokenLines rest with
      | [] => [[c]]
      | line :: lines => (c :: line) :: lines

/-- The inputs that some lines make, behind those of an input that is not finished. What is not
finished at the end is dropped. -/
def inputsFrom (unfinished : List Char) : List (List Char) → List String
  | [] => []
  | line :: rest =>
    let input := String.ofList (unfinished ++ withoutBreak line)
    if isFinished input then input :: inputsFrom [] rest
    else inputsFrom (unfinished ++ line) rest

/-- The inputs of a text. -/
def inputsOf (text : String) : List String :=
  inputsFrom [] (brokenLines text.toList)

end Shell

/-! ## Sessions -/

/-- The state of a session. -/
structure Shell where
  fragment : FragmentKind
  painter : Painter
  showDiagnostics : Bool
  showSource : Bool := false
deriving DecidableEq, Repr

namespace Shell

variable {m : Type → Type} [Monad m]

/-- What is printed before the first input. -/
def banner (painter : Painter) : String :=
  painter.paint .path "ballast" ++ " " ++ programVersion ++ " " ++
    painter.paint .dim "error-tolerant parser shell" ++ "\n" ++
    painter.paint .dim "Type" ++ " " ++ painter.paint .node ".help" ++ " " ++
    painter.paint .dim "for available commands" ++ "\n"

/-- What is printed for the command `help`. -/
def helpText (painter : Painter) : String :=
  painter.paint .path "REPL Commands:" ++ "\n" ++
    String.join (ShellCommand.listing.map fun (command, summary) =>
      "  " ++ Report.padEnd 16 command ++ " " ++ painter.paint .dim summary ++ "\n") ++
    painter.paint .path "Fragment kinds:" ++ " " ++
    String.intercalate ", " (FragmentKind.all.map FragmentKind.name) ++ "\n"

/-- Prints the tree of a source, its text if that is asked for, and what is wrong with it. -/
def print (shell : Shell) (host : Host m) (fragment : FragmentKind) (name source : String) :
    m Unit := do
  let file := ParsedFile.ofSource fragment name source
  host.write (Report.tree shell.painter file.tree)
  if shell.showSource then
    host.write (shell.painter.paint .dim file.tree.source ++ "\n")
  if shell.showDiagnostics then host.write (file.findings shell.painter)

/-- Shows or sets the kind of fragment. -/
def mode (shell : Shell) (host : Host m) : Option String → m Shell
  | none => do
    host.write (shell.fragment.name ++ "\n")
    return shell
  | some name =>
    match FragmentKind.ofName? name with
    | some fragment => return { shell with fragment }
    | none => do
      host.complain (Program.complaint shell.painter (unknownFragmentMessage name))
      return shell

/-- Parses a file. -/
def load (shell : Shell) (host : Host m) : Option String → m Unit
  | none => host.complain (Program.complaint shell.painter ".load requires a file path")
  | some path => do
    match ← host.read path with
    | .ok source => shell.print host .compilationUnit path source
    | .error error =>
      host.complain (Program.complaint shell.painter (Program.unreadable path error))

/-- Obeys a command; after the last one there is no session. -/
def obey (shell : Shell) (host : Host m) (command : ShellCommand) (argument : Option String) :
    m (Option Shell) := do
  match command with
  | .exit => return none
  | .help => host.write (helpText shell.painter)
  | .clear => host.write "\x1b[2J\x1b[H"
  | .version => host.write (UsageError.versionText none)
  | .mode => return some (← shell.mode host argument)
  | .load => shell.load host argument
  | .source =>
    let shell := { shell with showSource := !shell.showSource }
    host.write ("source echo " ++ (if shell.showSource then "on" else "off") ++ "\n")
    return some shell
  return some shell

/-- Takes an input; after the last one there is no session. -/
def take (shell : Shell) (host : Host m) (input : String) : m (Option Shell) := do
  if (Text.trimmed input).isEmpty then return some shell
  match ShellCommand.ofLine? input with
  | some (command, argument) => shell.obey host command argument
  | none =>
    shell.print host shell.fragment "<input>" input
    return some shell

/-- Takes inputs until there are none, or one of them ends the session. -/
def takeAll (host : Host m) (shell : Shell) : List String → m Unit
  | [] => pure ()
  | input :: rest => do
    match ← shell.take host input with
    | some shell => takeAll host shell rest
    | none => pure ()

/-- A whole session. -/
def run (shell : Shell) (host : Host m) : m Unit := do
  host.write (banner shell.painter)
  takeAll host shell (inputsOf (← host.input))

end Shell

end TolerantSyntax
