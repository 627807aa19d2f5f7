import TolerantSyntax.Settings.Document
import TolerantSyntax.Text.Blank
import TolerantSyntax.Text.Quoted

/-!
# Settings

What a user can set once and for all: colours, and how much reports say. Settings come from a
document and are overridden by the environment. What is not set keeps its default.
-/

namespace TolerantSyntax

/-- When reports have colours. -/
inductive ColorChoice where
  /-- If a terminal shows them. -/
  | auto
  | always
  | never
deriving DecidableEq, Repr, Inhabited

namespace ColorChoice

/-- Every choice. -/
def all : List ColorChoice :=
  [auto, always, never]

/-- The name of a choice in a document and on the command line. -/
def name : ColorChoice → String
  | auto => "auto"
  | always => "always"
  | never => "never"

/-- The choice with a name. -/
def ofName? (name : String) : Option ColorChoice :=
  all.find? (·.name == name)

/-- The choice that a word in the environment means. -/
def ofWord? (word : String) : Option ColorChoice :=
  match Text.lowerAscii (Text.trimmed word) with
  | "auto" => some auto
  | "always" | "1" | "true" | "yes" => some always
  | "never" | "0" | "false" | "no" => some never
  | _ => none

/-- Are there colours, given whether a terminal shows them? -/
def enabled (choice : ColorChoice) (terminal : Bool) : Bool :=
  match choice with
  | auto => terminal
  | always => true
  | never => false

theorem ofName?_name (choice : ColorChoice) : ofName? choice.name = some choice := by
  cases choice <;> decide

end ColorChoice

/-- What a word in the environment means for a setting that is on or off. -/
def flagOfWord? (word : String) : Option Bool :=
  match Text.lowerAscii (Text.trimmed word) with
  | "1" | "true" | "yes" | "on" => some true
  | "0" | "false" | "no" | "off" => some false
  | _ => none

/-- Settings in force. -/
structure Settings where
  color : ColorChoice := .auto
  /-- Do listings of tokens show trivia? -/
  showTrivia : Bool := false
  /-- Do diagnostics follow a tree? -/
  showDiagnostics : Bool := true
  /-- How many lines the shell remembers. -/
  historySize : Nat := 1000
deriving DecidableEq, Repr, Inhabited

/-- Why there are no settings. -/
inductive SettingsError where
  /-- The document is malformed, or a value in it has the wrong form. -/
  | malformed
  /-- A variable of the environment has a value without meaning. -/
  | environment (name value : String)
deriving DecidableEq, Repr

namespace Settings

/-! ## From a document -/

/-- The settings with one entry of a document. Keys without meaning are passed over. -/
def withEntry? (settings : Settings) : String × SettingValue → Option Settings
  | ("color", .text value) =>
    (ColorChoice.ofName? value).map fun color => { settings with color }
  | ("show_trivia", .flag showTrivia) => some { settings with showTrivia }
  | ("show_diagnostics", .flag showDiagnostics) => some { settings with showDiagnostics }
  | ("history_size", .number value) =>
    if 0 ≤ value then some { settings with historySize := value.toNat } else none
  | (key, _) =>
    if ["color", "show_trivia", "show_diagnostics", "history_size"].contains key then none
    else some settings

/-- The settings of a document. -/
def ofText (text : String) : Except SettingsError Settings :=
  match (SettingsDocument.ofText? text).bind fun document => document.foldlM withEntry? {} with
  | some settings => .ok settings
  | none => .error .malformed

/-! ## From the environment -/

/-- The variable that overrides the choice of colours. -/
def colorVariable : String := "BALLAST_COLOR"

/-- The variable that overrides whether trivia is shown. -/
def triviaVariable : String := "BALLAST_TRIVIA"

/-- Overrides a setting by a variable, if it is set. -/
def override {α : Type} (settings : Settings) (name : String) (value : Option String)
    (meaning : String → Option α) (put : α → Settings) : Except SettingsError Settings :=
  match value with
  | none => .ok settings
  | some word =>
    match meaning word with
    | some value => .ok (put value)
    | none => .error (.environment name word)

/-- The settings with the overrides of an environment. -/
def withEnvironment (settings : Settings) (lookup : String → Option String) :
    Except SettingsError Settings := do
  let settings ←
    settings.override colorVariable (lookup colorVariable) ColorChoice.ofWord? fun color =>
      { settings with color }
  settings.override triviaVariable (lookup triviaVariable) flagOfWord? fun showTrivia =>
    { settings with showTrivia }

end Settings

/-- What is said about a variable without meaning. -/
def environmentMessage (name value : String) : String :=
  "invalid value " ++ Text.quoted value ++ " for " ++ name

end TolerantSyntax
