/-!
# Hosts

What the program needs from its surroundings: files, the environment, and somewhere to write to. The
program is written for any host; the one in memory (`TolerantSyntax.Program.MemoryHost`) shows what
it writes as a value.
-/

namespace TolerantSyntax

/-- Why a file cannot be read. -/
inductive ReadError where
  | notFound
  | isDirectory
  /-- A part of the path is a file. -/
  | notDirectory
  | other (text : String)
deriving DecidableEq, Repr

/-- What is said about a file that cannot be read. -/
def ReadError.message : ReadError → String
  | notFound => "No such file or directory (os error 2)"
  | isDirectory => "Is a directory (os error 21)"
  | notDirectory => "Not a directory (os error 20)"
  | other text => text

/-- The surroundings of the program. -/
structure Host (m : Type → Type) where
  /-- The text of a file. -/
  read : String → m (Except ReadError String)
  /-- Is there a file with this path? -/
  isFile : String → m Bool
  /-- The value of a variable of the environment. -/
  lookup : String → m (Option String)
  /-- All that is typed. -/
  input : m String
  /-- Writes to the standard output. -/
  write : String → m Unit
  /-- Writes to the standard error output. -/
  complain : String → m Unit
  /-- Does a terminal show the standard output? -/
  terminal : Bool

end TolerantSyntax
