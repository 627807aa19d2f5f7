import TolerantSyntax.Diagnostic

/-!
# Colours

Reports mark the parts of a line by colour. A coloured part stands between an escape sequence that
turns its style on and one that turns all styles off; without colours it stands alone.
-/

namespace TolerantSyntax

/-- What a part of a report is. -/
inductive Style where
  /-- The kind of a node. -/
  | node
  /-- The text of a token. -/
  | token
  /-- What matters less. -/
  | dim
  /-- The name of a file, or a heading. -/
  | path
  | error
  | warning
  | success
deriving DecidableEq, Repr, Inhabited

/-- The parameters of the escape sequence for a style. -/
def Style.parameters : Style → String
  | .node => "36"
  | .token => "32"
  | .dim => "2"
  | .path => "37;1"
  | .error => "31;1"
  | .warning => "33;1"
  | .success => "32;1"

/-- An escape sequence that sets display parameters. -/
def escapeSequence (parameters : String) : String :=
  "\x1b[" ++ parameters ++ "m"

/-- Puts colours into reports, or leaves them out. -/
structure Painter where
  color : Bool
deriving DecidableEq, Repr, Inhabited

namespace Painter

/-- A part of a report in its style. -/
def paint (painter : Painter) (style : Style) (text : String) : String :=
  if painter.color then escapeSequence style.parameters ++ text ++ escapeSequence "0" else text

/-- The word for a severity in its style. -/
def severity (painter : Painter) (severity : Severity) : String :=
  match severity with
  | .error => painter.paint .error severity.text
  | .warning => painter.paint .warning severity.text

@[simp] theorem paint_plain (style : Style) (text : String) : paint ⟨false⟩ style text = text := rfl

end Painter

end TolerantSyntax
