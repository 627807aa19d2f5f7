import TolerantSyntax.Program.Run

/-!
# The program

The outer layer: the surroundings of the running program as a host.
-/

namespace TolerantSyntax

/-- Why a file could not be read, by the failure of the system. -/
def ReadError.ofFailure : IO.Error → ReadError
  | .noFileOrDirectory .. => .notFound
  | failure => .other (toString failure)

/-- The text of a file. -/
def readText (path : String) : IO (Except ReadError String) := do
  try return .ok (← IO.FS.readFile path)
  catch failure => return .error (.ofFailure failure)

/-- All that is left to read from a stream, behind some text. -/
partial def readRest (stream : IO.FS.Stream) (text : String) : IO String := do
  let line ← stream.getLine
  if line.isEmpty then return text else readRest stream (text ++ line)

/-- The surroundings of the running program. -/
def systemHost (terminal : Bool) : Host IO where
  read := readText
  isFile path := do return (← readText path).isOk
  lookup name := IO.getEnv name
  input := do readRest (← IO.getStdin) ""
  write text := do (← IO.getStdout).putStr text
  complain text := do (← IO.getStderr).putStr text
  terminal

end TolerantSyntax

/-- Runs the program. -/
def main (arguments : List String) : IO UInt32 := do
  let terminal ← (← IO.getStdout).isTty
  let status ← TolerantSyntax.Program.run (TolerantSyntax.systemHost terminal) arguments
  return UInt32.ofNat status
