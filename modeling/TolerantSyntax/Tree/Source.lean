import TolerantSyntax.Tree.Basic

/-!
# Source text of a tree

The source that a tree covers is the text of its tokens with their trivia, in order. The widths are
counted in bytes and without building the text.
-/

namespace TolerantSyntax

/-! ## Text -/

mutual

/-- The text of a token with its trivia. -/
def Token.source : Token → String
  | ⟨_, text, _, leading, trailing, _, _⟩ =>
    Trivia.sources leading ++ text ++ Trivia.sources trailing

/-- The text of a run of trivia. -/
def Trivia.sources : List Trivia → String
  | [] => ""
  | piece :: rest => piece.source ++ Trivia.sources rest

/-- The text of one piece of trivia. -/
def Trivia.source : Trivia → String
  | .whitespace text => text
  | .endOfLine text => text
  | .comment text => text
  | .documentation text => text
  | .invalid node => node.source

/-- The text that a node covers. -/
def Node.source : Node → String
  | .leaf token => token.source
  | .composite _ slots _ => Node.slotsSource slots

/-- The text that a row of slots covers. -/
def Node.slotsSource : List (Option Node) → String
  | [] => ""
  | none :: rest => Node.slotsSource rest
  | some node :: rest => node.source ++ Node.slotsSource rest

end

/-! ## Width -/

mutual

/-- Bytes of a token with its trivia. -/
def Token.fullWidth : Token → Nat
  | ⟨_, text, _, leading, trailing, _, _⟩ =>
    Trivia.widths leading + text.utf8ByteSize + Trivia.widths trailing

/-- Bytes of a run of trivia. -/
def Trivia.widths : List Trivia → Nat
  | [] => 0
  | piece :: rest => piece.width + Trivia.widths rest

/-- Bytes of one piece of trivia. -/
def Trivia.width : Trivia → Nat
  | .whitespace text => text.utf8ByteSize
  | .endOfLine text => text.utf8ByteSize
  | .comment text => text.utf8ByteSize
  | .documentation text => text.utf8ByteSize
  | .invalid node => node.fullWidth

/-- Bytes that a node covers, trivia included. -/
def Node.fullWidth : Node → Nat
  | .leaf token => token.fullWidth
  | .composite _ slots _ => Node.slotsWidth slots

/-- Bytes that a row of slots covers. -/
def Node.slotsWidth : List (Option Node) → Nat
  | [] => 0
  | none :: rest => Node.slotsWidth rest
  | some node :: rest => node.fullWidth + Node.slotsWidth rest

end

namespace Token

/-- Bytes of the trivia before a token. -/
def leadingWidth (token : Token) : Nat :=
  Trivia.widths token.leading

/-- Where the trivia before a token begins. -/
def fullStart (token : Token) : Nat :=
  token.span.start - token.leadingWidth

theorem source_eq (token : Token) :
    token.source = Trivia.sources token.leading ++ token.text ++ Trivia.sources token.trailing := by
  cases token; simp [Token.source]

end Token

/-! ## Laws -/

@[simp] theorem Trivia.sources_append (xs ys : List Trivia) :
    Trivia.sources (xs ++ ys) = Trivia.sources xs ++ Trivia.sources ys := by
  induction xs with
  | nil => simp [Trivia.sources]
  | cons x xs ih => simp [Trivia.sources, ih, String.append_assoc]

@[simp] theorem Node.slotsSource_append (xs ys : List (Option Node)) :
    Node.slotsSource (xs ++ ys) = Node.slotsSource xs ++ Node.slotsSource ys := by
  induction xs with
  | nil => simp [Node.slotsSource]
  | cons x xs ih => cases x <;> simp [Node.slotsSource, ih, String.append_assoc]

mutual

theorem Token.fullWidth_eq_utf8ByteSize :
    (token : Token) → token.fullWidth = token.source.utf8ByteSize
  | ⟨_, text, _, leading, trailing, _, _⟩ => by
    simp [Token.fullWidth, Token.source, Trivia.widths_eq_utf8ByteSize leading,
      Trivia.widths_eq_utf8ByteSize trailing]

theorem Trivia.widths_eq_utf8ByteSize :
    (pieces : List Trivia) → Trivia.widths pieces = (Trivia.sources pieces).utf8ByteSize
  | [] => by simp [Trivia.widths, Trivia.sources]
  | piece :: rest => by
    simp [Trivia.widths, Trivia.sources, Trivia.width_eq_utf8ByteSize piece,
      Trivia.widths_eq_utf8ByteSize rest]

theorem Trivia.width_eq_utf8ByteSize :
    (piece : Trivia) → piece.width = piece.source.utf8ByteSize
  | .whitespace _ => by simp [Trivia.width, Trivia.source]
  | .endOfLine _ => by simp [Trivia.width, Trivia.source]
  | .comment _ => by simp [Trivia.width, Trivia.source]
  | .documentation _ => by simp [Trivia.width, Trivia.source]
  | .invalid node => by simp [Trivia.width, Trivia.source, Node.fullWidth_eq_utf8ByteSize node]

theorem Node.fullWidth_eq_utf8ByteSize :
    (node : Node) → node.fullWidth = node.source.utf8ByteSize
  | .leaf token => by simp [Node.fullWidth, Node.source, Token.fullWidth_eq_utf8ByteSize token]
  | .composite _ slots _ => by
    simp [Node.fullWidth, Node.source, Node.slotsWidth_eq_utf8ByteSize slots]

theorem Node.slotsWidth_eq_utf8ByteSize :
    (slots : List (Option Node)) → Node.slotsWidth slots = (Node.slotsSource slots).utf8ByteSize
  | [] => by simp [Node.slotsWidth, Node.slotsSource]
  | none :: rest => by
    simp [Node.slotsWidth, Node.slotsSource, Node.slotsWidth_eq_utf8ByteSize rest]
  | some node :: rest => by
    simp [Node.slotsWidth, Node.slotsSource, Node.fullWidth_eq_utf8ByteSize node,
      Node.slotsWidth_eq_utf8ByteSize rest]

end

end TolerantSyntax
