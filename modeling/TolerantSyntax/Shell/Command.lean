import TolerantSyntax.Text.Blank

/-!
# Commands of the shell

A line that begins with a dot may be a command to the shell itself: a word, and perhaps an argument
behind a blank. Words count in any case; no character above ASCII is a capital of a letter in them.
-/

namespace TolerantSyntax

/-- What the shell can be told. -/
inductive ShellCommand where
  | help
  | exit
  /-- Clear the screen. -/
  | clear
  | version
  /-- Show or set the kind of fragment. -/
  | mode
  /-- Parse a file. -/
  | load
  /-- Print the text of each tree, or no longer. -/
  | source
deriving DecidableEq, Repr, Inhabited

namespace ShellCommand

/-- The command for a word. -/
def ofWord? : String → Option ShellCommand
  | "help" | "h" | "?" => some help
  | "exit" | "quit" | "q" => some exit
  | "clear" | "cls" => some clear
  | "version" | "v" => some version
  | "mode" | "m" => some mode
  | "load" | "l" => some load
  | "source" | "s" => some source
  | _ => none

/-- How commands are listed, and what they do. -/
def listing : List (String × String) :=
  [(".help", "Show this help message"),
   (".exit", "Exit the REPL"),
   (".clear", "Clear the screen"),
   (".version", "Show version information"),
   (".mode [kind]", "Show or set the fragment kind"),
   (".load <file>", "Parse a file as a module"),
   (".source", "Toggle printing the reconstructed source")]

/-- The argument behind the word of a command, unless it is blank. -/
def argument? (text : List Char) : Option String :=
  let argument := Text.trim text
  if argument.isEmpty then none else some (String.ofList argument)

/-- The command on a line, with its argument. -/
def ofLine? (line : String) : Option (ShellCommand × Option String) :=
  match Text.trim line.toList with
  | '.' :: rest =>
    let word := rest.takeWhile fun c => !Text.isBlank c
    let behind := rest.dropWhile fun c => !Text.isBlank c
    (ofWord? (Text.lowerAscii (String.ofList word))).map fun command =>
      (command, argument? behind)
  | _ => none

end ShellCommand

end TolerantSyntax
