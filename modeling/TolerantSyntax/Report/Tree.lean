import TolerantSyntax.Report.Painter
import TolerantSyntax.Text.Quoted
import TolerantSyntax.Tree.Basic

/-!
# Report of a tree

A tree as indented lines for a terminal, one for each node or token, with what is set aside and what
is wrong below it.
-/

namespace TolerantSyntax.Report

/-- A line at some depth, two blanks for each step. -/
def lineAt (depth : Nat) (text : String) : String :=
  String.ofList (List.replicate (2 * depth) ' ') ++ text ++ "\n"

/-- The lines for the diagnostics of a node or a token at some depth. -/
def diagnosticsAt (painter : Painter) (depth : Nat) (diagnostics : List Diagnostic) : String :=
  String.join (diagnostics.map fun diagnostic =>
    lineAt (depth + 1) (painter.paint .error "!" ++ " " ++ diagnostic.code.text))

/-- A token with its text, or with a mark if it is not in the source. -/
def tokenLine (painter : Painter) (kind : Kind) (text : String) (missing : Bool) : String :=
  painter.paint .dim kind.name ++ " " ++
    if missing then painter.paint .error "<missing>" else painter.paint .token (Text.quoted text)

mutual

/-- The lines for a token. -/
def tokenAt (painter : Painter) (depth : Nat) : Token → String
  | ⟨kind, text, _, leading, trailing, diagnostics, missing⟩ =>
    lineAt depth (tokenLine painter kind text missing) ++
      (if missing then ""
      else invalidAt painter depth leading ++ invalidAt painter depth trailing) ++
      diagnosticsAt painter depth diagnostics

/-- The lines for what is set aside in a run of trivia. -/
def invalidAt (painter : Painter) (depth : Nat) : List Trivia → String
  | [] => ""
  | .invalid node :: rest =>
    lineAt (depth + 1) (painter.paint .error "<invalid>") ++ nodeAt painter (depth + 2) node ++
      invalidAt painter depth rest
  | .whitespace _ :: rest => invalidAt painter depth rest
  | .endOfLine _ :: rest => invalidAt painter depth rest
  | .comment _ :: rest => invalidAt painter depth rest
  | .documentation _ :: rest => invalidAt painter depth rest

/-- The lines for a node. -/
def nodeAt (painter : Painter) (depth : Nat) : Node → String
  | .leaf token => tokenAt painter depth token
  | .composite kind slots diagnostics =>
    lineAt depth (painter.paint .node kind.name) ++ slotsAt painter (depth + 1) slots ++
      diagnosticsAt painter depth diagnostics

/-- The lines for the parts in a row of slots. -/
def slotsAt (painter : Painter) (depth : Nat) : List (Option Node) → String
  | [] => ""
  | none :: rest => slotsAt painter depth rest
  | some node :: rest => nodeAt painter depth node ++ slotsAt painter depth rest

end

/-- The report of a tree. -/
def tree (painter : Painter) (node : Node) : String :=
  nodeAt painter 0 node

end TolerantSyntax.Report
