import TolerantSyntax.Program.Host

/-!
# A host in memory

A directory of files, an environment and an input, all given beforehand. What the program writes is
kept. Paths are those of the directory and of what is below it; anything above it is not found.
-/

namespace TolerantSyntax

/-- Files by their paths, the environment, and what is typed. Of two files with one path the later
counts. -/
structure MemoryHost where
  files : List (String × String)
  environment : List (String × String)
  input : String

/-- What has been written. -/
structure Transcript where
  output : String := ""
  errors : String := ""
deriving DecidableEq, Repr, Inhabited

namespace MemoryHost

/-- The parts of a path, with those left out that lead nowhere. -/
def partsOf (path : String) : List String :=
  (path.splitOn "/").filter fun part => part != "" && part != "."

/-- The text of the file with these parts. -/
def fileAt? (memory : MemoryHost) (parts : List String) : Option String :=
  (memory.files.reverse.find? fun file => partsOf file.1 == parts).map (·.2)

/-- Is there a directory with these parts? -/
def isDirectory (memory : MemoryHost) (parts : List String) : Bool :=
  parts.isEmpty ||
    memory.files.any fun file =>
      parts.length < (partsOf file.1).length && parts.isPrefixOf (partsOf file.1)

/-- Where a path leads, from a directory given by its parts. -/
def resolve (memory : MemoryHost) (directory : List String) :
    List String → Except ReadError (List String)
  | [] => .ok directory
  | ".." :: rest =>
    if directory.isEmpty then .error .notFound else resolve memory directory.dropLast rest
  | part :: rest =>
    let parts := directory ++ [part]
    if memory.isDirectory parts then resolve memory parts rest
    else if (memory.fileAt? parts).isSome then
      if rest.isEmpty then .ok parts else .error .notDirectory
    else .error .notFound

/-- Does a path say that it leads to a directory? -/
def endsInDirectory (path : String) : Bool :=
  ["", "."].contains ((path.splitOn "/").getLastD "")

/-- The text of a file. -/
def read (memory : MemoryHost) (path : String) : Except ReadError String := do
  if path.isEmpty || path.startsWith "/" then throw .notFound
  let parts ← memory.resolve [] (partsOf path)
  if memory.isDirectory parts then throw .isDirectory
  match memory.fileAt? parts with
  | some text => if endsInDirectory path then throw .notDirectory else return text
  | none => throw .notFound

/-- The host that reads from and writes to memory. -/
def host (memory : MemoryHost) : Host (StateM Transcript) where
  read path := pure (memory.read path)
  isFile path := pure (memory.read path).isOk
  lookup name := pure ((memory.environment.find? (·.1 == name)).map (·.2))
  input := pure memory.input
  write text := modify fun transcript => { transcript with output := transcript.output ++ text }
  complain text := modify fun transcript => { transcript with errors := transcript.errors ++ text }
  terminal := false

end MemoryHost

end TolerantSyntax
