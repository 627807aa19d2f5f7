import TolerantSyntax.Text.Quoted
import TolerantSyntax.Tree.Basic

/-!
# Listing of a tree

A tree as indented lines: each token with its text in quotes, each node with its kind, and after
each the diagnostics attached to it. Text set aside is listed below the token that carries it, under
a line of its own.
-/

namespace TolerantSyntax

/-- The blanks before a line at some depth. -/
def indentation (depth : Nat) : String :=
  String.ofList (List.replicate (2 * depth) ' ')

/-- The lines for diagnostics, one step deeper than their node. -/
def diagnosticLines (depth : Nat) (diagnostics : List Diagnostic) : String :=
  String.join (diagnostics.map fun diagnostic =>
    indentation depth ++ "  ! " ++ diagnostic.code.text ++ "\n")

mutual

/-- A token at some depth, with the text set aside at it. -/
def Token.listingAt (depth : Nat) : Token → String
  | ⟨kind, text, _, leading, trailing, diagnostics, missing⟩ =>
    (if missing then indentation depth ++ kind.name ++ " <missing>\n"
    else
      indentation depth ++ kind.name ++ " " ++ Text.quoted text ++ "\n" ++
        Trivia.listingAt depth leading ++ Trivia.listingAt depth trailing) ++
      diagnosticLines depth diagnostics

/-- The text set aside in a run of trivia. -/
def Trivia.listingAt (depth : Nat) : List Trivia → String
  | [] => ""
  | .invalid node :: rest =>
    indentation depth ++ "  <invalid>\n" ++ node.listingAt (depth + 2) ++
      Trivia.listingAt depth rest
  | .whitespace _ :: rest => Trivia.listingAt depth rest
  | .endOfLine _ :: rest => Trivia.listingAt depth rest
  | .comment _ :: rest => Trivia.listingAt depth rest
  | .documentation _ :: rest => Trivia.listingAt depth rest

/-- A node at some depth. -/
def Node.listingAt (depth : Nat) : Node → String
  | .leaf token => token.listingAt depth
  | .composite kind slots diagnostics =>
    indentation depth ++ kind.name ++ "\n" ++ Node.slotsListingAt depth slots ++
      diagnosticLines depth diagnostics

/-- The parts in a row of slots, one step deeper than their node. -/
def Node.slotsListingAt (depth : Nat) : List (Option Node) → String
  | [] => ""
  | none :: rest => Node.slotsListingAt depth rest
  | some node :: rest => node.listingAt (depth + 1) ++ Node.slotsListingAt depth rest

end

/-- The listing of a tree. -/
def Node.listing (node : Node) : String :=
  node.listingAt 0

end TolerantSyntax
