import TolerantSyntax.Report.Tree
import TolerantSyntax.Tree.Listing

/-!
# A report without colours is the listing

A tree is shown in two places: as the listing that belongs to the tree, and as the report for a
terminal, which can have colours. Both go down the tree with the depth of a line, and both list a
token before what is set aside at it, what is below a node after the node, and diagnostics last.
Without colours they show the same text (`tree_plain_eq_listing`).
-/

namespace TolerantSyntax.Report

theorem indentation_succ (depth : Nat) : indentation (depth + 1) = indentation depth ++ "  " := by
  rw [← String.toList_inj, String.toList_append, indentation, indentation, String.toList_ofList,
    String.toList_ofList, Nat.mul_succ, ← List.replicate_append_replicate]
  rfl

/-- A line is its blanks, its text and a break. -/
theorem lineAt_eq (depth : Nat) (text : String) :
    lineAt depth text = indentation depth ++ text ++ "\n" :=
  rfl

/-- A line that stands one step deeper than the lines around it. -/
theorem lineAt_succ (depth : Nat) (text : String) :
    lineAt (depth + 1) text = indentation depth ++ ("  " ++ text) ++ "\n" := by
  simp only [lineAt_eq, indentation_succ, String.append_assoc]

theorem diagnosticsAt_plain (depth : Nat) (diagnostics : List Diagnostic) :
    diagnosticsAt ⟨false⟩ depth diagnostics = diagnosticLines depth diagnostics := by
  rw [diagnosticsAt, diagnosticLines]
  congr 1
  refine List.map_congr_left fun diagnostic _ => ?_
  rw [lineAt_succ, Painter.paint_plain]
  simp only [String.append_assoc]
  rfl

theorem lineAt_tokenLine_plain (depth : Nat) (kind : Kind) (text : String) (missing : Bool) :
    lineAt depth (tokenLine ⟨false⟩ kind text missing) =
      if missing then indentation depth ++ kind.name ++ " <missing>\n"
      else indentation depth ++ kind.name ++ " " ++ Text.quoted text ++ "\n" := by
  cases missing <;>
    simp only [lineAt_eq, tokenLine, Painter.paint_plain, String.append_assoc] <;> rfl

mutual

theorem tokenAt_plain (depth : Nat) :
    (token : Token) → tokenAt ⟨false⟩ depth token = token.listingAt depth
  | ⟨kind, text, span, leading, trailing, diagnostics, missing⟩ => by
    rw [tokenAt, Token.listingAt, lineAt_tokenLine_plain, diagnosticsAt_plain,
      invalidAt_plain depth leading, invalidAt_plain depth trailing]
    cases missing
    · simp only [Bool.false_eq_true, if_false, String.append_assoc]
    · simp only [if_true, String.append_empty]

theorem invalidAt_plain (depth : Nat) :
    (trivia : List Trivia) → invalidAt ⟨false⟩ depth trivia = Trivia.listingAt depth trivia
  | [] => rfl
  | .invalid node :: rest => by
    rw [invalidAt, Trivia.listingAt, lineAt_succ, Painter.paint_plain,
      nodeAt_plain (depth + 2) node, invalidAt_plain depth rest]
    simp only [String.append_assoc]
    rfl
  | .whitespace _ :: rest => invalidAt_plain depth rest
  | .endOfLine _ :: rest => invalidAt_plain depth rest
  | .comment _ :: rest => invalidAt_plain depth rest
  | .documentation _ :: rest => invalidAt_plain depth rest

theorem nodeAt_plain (depth : Nat) :
    (node : Node) → nodeAt ⟨false⟩ depth node = node.listingAt depth
  | .leaf token => tokenAt_plain depth token
  | .composite kind slots diagnostics => by
    rw [nodeAt, Node.listingAt, lineAt_eq, Painter.paint_plain, diagnosticsAt_plain,
      slotsAt_plain depth slots]

/-- The parts of a node stand one step deeper than the node; the listing counts from the node. -/
theorem slotsAt_plain (depth : Nat) : (slots : List (Option Node)) →
    slotsAt ⟨false⟩ (depth + 1) slots = Node.slotsListingAt depth slots
  | [] => rfl
  | none :: rest => slotsAt_plain depth rest
  | some node :: rest => by
    rw [slotsAt, Node.slotsListingAt, nodeAt_plain (depth + 1) node, slotsAt_plain depth rest]

end

/-- **The two printers agree.** The report of a tree without colours is its listing. -/
theorem tree_plain_eq_listing (node : Node) : tree ⟨false⟩ node = node.listing :=
  nodeAt_plain 0 node

end TolerantSyntax.Report
