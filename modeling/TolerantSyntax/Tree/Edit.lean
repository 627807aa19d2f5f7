import TolerantSyntax.Tree.Findings

/-!
# Edits

Trees are values; an edit gives a new tree. Text that recovery sets aside becomes invalid trivia at
the first or the last token of a node. A node that has no token at all gets one to carry the trivia:
an absent token of kind `invalid` with no diagnostic.
-/

namespace TolerantSyntax

/-! ## Tokens -/

namespace Token

/-- The token under another kind. -/
def withKind (token : Token) (kind : Kind) : Token :=
  { token with kind }

/-- The token with one more diagnostic. -/
def withDiagnostic (token : Token) (diagnostic : Diagnostic) : Token :=
  { token with diagnostics := token.diagnostics ++ [diagnostic] }

/-- The token with more trivia in front. -/
def withLeading (token : Token) (trivia : List Trivia) : Token :=
  { token with leading := trivia ++ token.leading }

/-- The token with more trivia behind. -/
def withTrailing (token : Token) (trivia : List Trivia) : Token :=
  { token with trailing := token.trailing ++ trivia }

end Token

/-! ## First and last token -/

namespace Node

mutual

/-- Changes the first token, if there is one. -/
def mapFirstToken? (edit : Token → Token) : Node → Option Node
  | .leaf token => some (.leaf (edit token))
  | .composite kind slots diagnostics =>
    (slotsMapFirstToken? edit slots).map (.composite kind · diagnostics)

/-- Changes the first token of a row of slots. -/
def slotsMapFirstToken? (edit : Token → Token) : List (Option Node) → Option (List (Option Node))
  | [] => none
  | none :: rest => (slotsMapFirstToken? edit rest).map (none :: ·)
  | some node :: rest =>
    match mapFirstToken? edit node with
    | some changed => some (some changed :: rest)
    | none => (slotsMapFirstToken? edit rest).map (some node :: ·)

end

mutual

/-- Changes the last token, if there is one. -/
def mapLastToken? (edit : Token → Token) : Node → Option Node
  | .leaf token => some (.leaf (edit token))
  | .composite kind slots diagnostics =>
    (slotsMapLastToken? edit slots).map (.composite kind · diagnostics)

/-- Changes the last token of a row of slots. -/
def slotsMapLastToken? (edit : Token → Token) : List (Option Node) → Option (List (Option Node))
  | [] => none
  | none :: rest => (slotsMapLastToken? edit rest).map (none :: ·)
  | some node :: rest =>
    match slotsMapLastToken? edit rest with
    | some changed => some (some node :: changed)
    | none => (mapLastToken? edit node).map (some · :: rest)

end

/-- The token that carries trivia for a node without tokens. -/
def carrier (offset : Nat) : Token :=
  .absent .invalid offset []

/-- Trivia placed before everything in a node. -/
def withLeading (node : Node) (trivia : List Trivia) : Node :=
  match node.mapFirstToken? (·.withLeading trivia), node with
  | some changed, _ => changed
  | none, .composite kind slots diagnostics =>
    .composite kind (some (.leaf ((carrier node.span.start).withLeading trivia)) :: slots)
      diagnostics
  | none, .leaf token => .leaf token

/-- Trivia placed after everything in a node. -/
def withTrailing (node : Node) (trivia : List Trivia) : Node :=
  if trivia.isEmpty then node
  else
    match node.mapLastToken? (·.withTrailing trivia), node with
    | some changed, _ => changed
    | none, .composite kind slots diagnostics =>
      .composite kind (slots ++ [some (.leaf ((carrier node.span.stop).withTrailing trivia))])
        diagnostics
    | none, .leaf token => .leaf token

/-! ## Diagnostics and text set aside -/

/-- The node with one more diagnostic, at the span of the node. -/
def withDiagnostic (node : Node) (code : DiagnosticCode) : Node :=
  match node with
  | .leaf token => .leaf (token.withDiagnostic ⟨code, node.span⟩)
  | .composite kind slots diagnostics => .composite kind slots (diagnostics ++ [⟨code, node.span⟩])

/-- A node set aside for the given reason. -/
def setAside (node : Node) (code : DiagnosticCode) : Trivia :=
  .invalid (node.withDiagnostic code)

/-- The node with another one set aside in front of it. -/
def withLeadingInvalid (node invalid : Node) (code : DiagnosticCode) : Node :=
  node.withLeading [invalid.setAside code]

/-- The node with another one set aside behind it. -/
def withTrailingInvalid (node invalid : Node) (code : DiagnosticCode) : Node :=
  node.withTrailing [invalid.setAside code]

@[simp] theorem kind_withDiagnostic (node : Node) (code : DiagnosticCode) :
    (node.withDiagnostic code).kind = node.kind := by
  cases node <;> rfl

end Node

end TolerantSyntax
