import TolerantSyntax.Parse
import TolerantSyntax.Program.Host
import TolerantSyntax.Report.Finding
import TolerantSyntax.Report.Token
import TolerantSyntax.Report.Tree

/-!
# Commands about files

Each command reads its files, reports those that cannot be read, and then goes through the others in
the order in which they were given. A command succeeds if its status is zero.
-/

namespace TolerantSyntax

/-- A file with its tree. -/
structure ParsedFile where
  path : String
  source : String
  tree : Node

namespace ParsedFile

/-- The file with the tree of a fragment; without a tree, it has an empty one. -/
def ofSource (fragment : FragmentKind) (path source : String) : ParsedFile :=
  { path, source, tree := (parseFragment source fragment).getD (.list []) }

/-- What is wrong with the file, as a report. -/
def findings (file : ParsedFile) (painter : Painter) : String :=
  Report.findings painter file.path file.source file.tree.diagnostics

/-- How many errors there are in the file; warnings do not count. -/
def errorCount (file : ParsedFile) : Nat :=
  (file.tree.diagnostics.filter (·.severity == .error)).length

end ParsedFile

/-- The first byte at which two texts differ, or the length of the shorter one. -/
def firstDifference : List UInt8 → List UInt8 → Nat
  | a :: as, b :: bs => if a = b then firstDifference as bs + 1 else 0
  | _, _ => 0

namespace Program

variable {m : Type → Type} [Monad m]

/-! ## Reading files -/

/-- What is said about a file that cannot be read. -/
def unreadable (path : String) (error : ReadError) : String :=
  "cannot read " ++ path ++ ": " ++ error.message

/-- A complaint about what was asked for. -/
def complaint (painter : Painter) (message : String) : String :=
  painter.paint .error "error" ++ ": " ++ message ++ "\n"

/-- Reads and parses files, the readable ones in order; also tells whether any could not be read. -/
def parseFiles (host : Host m) (painter : Painter) (fragment : FragmentKind) :
    List String → m (List ParsedFile × Bool)
  | [] => pure ([], false)
  | path :: rest => do
    match ← host.read path with
    | .ok source =>
      let (files, failed) ← parseFiles host painter fragment rest
      return (ParsedFile.ofSource fragment path source :: files, failed)
    | .error error =>
      host.complain (complaint painter (unreadable path error))
      let (files, _) ← parseFiles host painter fragment rest
      return (files, true)

/-- The status of a command. -/
def status (success : Bool) : Nat :=
  if success then 0 else 1

/-! ## Commands -/

/-- Prints the tree of a file, and what is wrong with it if that is asked for. -/
def showTree (host : Host m) (painter : Painter) (withHeading withFindings : Bool)
    (file : ParsedFile) : m Unit := do
  if withHeading then
    host.write (painter.paint .path ("==> " ++ file.path ++ " <==") ++ "\n")
  host.write (Report.tree painter file.tree)
  if withFindings then host.complain (file.findings painter)

/-- Prints the tree of each file; several have headings. -/
def showTrees (host : Host m) (painter : Painter) (fragment : FragmentKind)
    (paths : List String) (withFindings : Bool) : m Nat := do
  let (files, failed) ← parseFiles host painter fragment paths
  files.forM (showTree host painter (files.length > 1 || failed) withFindings)
  return status !failed

/-- The last line about files that have been checked. -/
def checkSummary (painter : Painter) (errors files : Nat) (success : Bool) : String :=
  if success then painter.paint .success "ok:" ++ " " ++ toString files ++ " file(s) checked\n"
  else toString errors ++ " error(s) in " ++ toString files ++ " file(s)\n"

/-- Prints what is wrong with each file. -/
def checkFiles (host : Host m) (painter : Painter) (fragment : FragmentKind)
    (paths : List String) : m Nat := do
  let (files, failed) ← parseFiles host painter fragment paths
  files.forM fun file => host.write (file.findings painter)
  let errors := files.foldl (fun count file => count + file.errorCount) 0
  let success := errors == 0 && !failed
  host.write (checkSummary painter errors files.length success)
  return status success

/-- Prints the tokens of a source. -/
def showTokens (host : Host m) (painter : Painter) (withTrivia : Bool) (source : String) :
    m Nat := do
  (Report.tokens painter withTrivia source).forM fun line => host.write (line ++ "\n")
  return status true

/-- Does the tree of a file print back to the file? -/
def reproduces (file : ParsedFile) : Bool :=
  file.tree.source == file.source

/-- The line about a file and the text of its tree. -/
def roundtripLine (painter : Painter) (file : ParsedFile) : String :=
  if reproduces file then painter.paint .success "ok" ++ " " ++ file.path ++ "\n"
  else
    let place := firstDifference file.tree.source.toUTF8.toList file.source.toUTF8.toList
    painter.paint .error "mismatch" ++ " " ++ file.path ++ " (differs at byte " ++
      toString place ++ ")\n"

/-- Compares each file with the text of its tree. -/
def compareFiles (host : Host m) (painter : Painter) (fragment : FragmentKind)
    (paths : List String) : m Nat := do
  let (files, failed) ← parseFiles host painter fragment paths
  files.forM fun file => host.write (roundtripLine painter file)
  return status (files.all reproduces && !failed)

end Program

end TolerantSyntax
