import TolerantSyntax.CommandLine.Invocation
import TolerantSyntax.Shell.Session

/-!
# Running the program

The program reads its command line, finds its settings and does what it is asked for. Its status is
zero if that succeeds, one if it fails, and two if the command line cannot be followed.
-/

namespace TolerantSyntax.Program

/-! ## Failures -/

/-- Why a command is given up. -/
inductive Failure where
  /-- A file that the command is about. -/
  | file (path : String) (error : ReadError)
  /-- The settings document. -/
  | settingsFile (path : String) (error : ReadError)
  | settingsDocument (path : String)
  | environment (name value : String)
deriving DecidableEq, Repr

/-- What is said when a settings document is malformed. -/
def malformedDocument : String :=
  "TOML parse error"

/-- What is said about a failure: what was tried, what went wrong, and its cause. -/
def Failure.message : Failure → String
  | file path error => unreadable path error ++ ": " ++ error.message
  | settingsFile path error =>
    "failed to load configuration: " ++ unreadable path error ++ ": " ++ error.message
  | settingsDocument path =>
    "failed to load configuration: invalid config file " ++ path ++ ": " ++ malformedDocument ++
      ": " ++ malformedDocument
  | environment name value =>
    "failed to load configuration: " ++ environmentMessage name value

/-- The line about a failure; it has colours, whatever the settings are. -/
def failureLine (failure : Failure) : String :=
  escapeSequence "1" ++ escapeSequence "31" ++ "error" ++ escapeSequence "39" ++
    escapeSequence "0" ++ ": " ++ failure.message ++ "\n"

/-! ## Settings -/

/-- The settings document that is looked for where the program runs. -/
def settingsFile : String := "ballast.toml"

/-- The variable that names another settings document. -/
def settingsVariable : String := "BALLAST_CONFIG"

variable {m : Type → Type} [Monad m]

/-- The settings of a document. -/
def readSettings (host : Host m) (path : String) : m (Except Failure Settings) := do
  match ← host.read path with
  | .error error => return .error (.settingsFile path error)
  | .ok text =>
    match Settings.ofText text with
    | .ok settings => return .ok settings
    | .error _ => return .error (.settingsDocument path)

/-- The settings of the document that is named, else of the one that is found. -/
def findSettings (host : Host m) : Option String → m (Except Failure Settings)
  | some path => readSettings host path
  | none => do
    if ← host.isFile settingsFile then readSettings host settingsFile else return .ok {}

/-- Overrides settings by the environment. -/
def overrideSettings (host : Host m) (settings : Settings) : m (Except Failure Settings) := do
  let color ← host.lookup Settings.colorVariable
  let trivia ← host.lookup Settings.triviaVariable
  let lookup := fun name =>
    if name == Settings.colorVariable then color
    else if name == Settings.triviaVariable then trivia
    else none
  match settings.withEnvironment lookup with
  | .ok settings => return .ok settings
  | .error (.environment name value) => return .error (.environment name value)
  | .error .malformed => return .ok settings

/-- The settings in force for an invocation. -/
def settingsOf (host : Host m) (invocation : Invocation) : m (Except Failure Settings) := do
  match ← findSettings host invocation.config with
  | .error failure => return .error failure
  | .ok settings =>
    match ← overrideSettings host settings with
    | .error failure => return .error failure
    | .ok settings => return .ok { settings with color := invocation.color.getD settings.color }

/-! ## Commands -/

/-- Prints the tokens of a file. -/
def tokensOf (host : Host m) (painter : Painter) (path : String) (withTrivia : Bool) :
    m (Except Failure Nat) := do
  match ← host.read path with
  | .ok source => return .ok (← showTokens host painter withTrivia source)
  | .error error => return .error (.file path error)

/-- Starts the shell. -/
def startShell (host : Host m) (settings : Settings) (painter : Painter)
    (fragment : Option FragmentKind) : m Nat := do
  let shell : Shell :=
    { fragment := fragment.getD .statement, painter,
      showDiagnostics := settings.showDiagnostics }
  shell.run host
  return status true

/-- Does what a command asks for. -/
def obey (host : Host m) (settings : Settings) (command : Command) :
    m (Except Failure Nat) := do
  let painter : Painter := ⟨settings.color.enabled host.terminal⟩
  match command with
  | .parse fragment files noDiagnostics =>
    let withFindings := settings.showDiagnostics && !noDiagnostics
    return .ok (← showTrees host painter fragment files withFindings)
  | .check fragment files => return .ok (← checkFiles host painter fragment files)
  | .tokens file trivia => tokensOf host painter file (trivia || settings.showTrivia)
  | .roundtrip fragment files => return .ok (← compareFiles host painter fragment files)
  | .shell fragment => return .ok (← startShell host settings painter fragment)

/-- Does what an invocation asks for; without a command, the shell is started. -/
def perform (host : Host m) (invocation : Invocation) : m Nat := do
  let result ←
    match ← settingsOf host invocation with
    | .error failure => pure (.error failure)
    | .ok settings => obey host settings (invocation.command.getD (.shell none))
  match result with
  | .ok status => return status
  | .error failure =>
    host.complain (failureLine failure)
    return status false

/-- Says why a command line is not followed, or what it asks for. -/
def explain (host : Host m) (error : UsageError) : m Nat := do
  if error.isInformation then
    host.write error.message
    return 0
  else
    host.complain
      ("error: " ++ error.message ++ "\n\nFor more information, try '--help'.\n")
    return 2

/-- Runs the program with the words of its command line. -/
def run (host : Host m) (words : List String) : m Nat := do
  match Invocation.ofWords words (← host.lookup settingsVariable) with
  | .ok invocation => perform host invocation
  | .error error => explain host error

end TolerantSyntax.Program
