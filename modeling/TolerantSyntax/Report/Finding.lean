import TolerantSyntax.LineIndex
import TolerantSyntax.Report.Painter

/-!
# Report of diagnostics

One line for each diagnostic, with the place where its span begins. Lines and columns are counted
from one, as readers do.
-/

namespace TolerantSyntax.Report

/-- The line for a diagnostic at a place in a file. -/
def findingAt (painter : Painter) (file : String) (place : LineCol) (diagnostic : Diagnostic) :
    String :=
  painter.paint .path file ++ ":" ++ toString (place.line + 1) ++ ":" ++
    toString (place.col + 1) ++ ": " ++ painter.severity diagnostic.severity ++ "[" ++
    diagnostic.code.id ++ "]: " ++ diagnostic.code.message ++ "\n"

/-- The report of some diagnostics of a file. -/
def findings (painter : Painter) (file source : String) (diagnostics : List Diagnostic) : String :=
  let index := LineIndex.ofSource source
  String.join (diagnostics.map fun diagnostic =>
    findingAt painter file (index.lineCol source diagnostic.span.start) diagnostic)

end TolerantSyntax.Report
