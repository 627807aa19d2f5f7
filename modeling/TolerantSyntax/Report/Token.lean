import TolerantSyntax.LineIndex
import TolerantSyntax.Report.Painter
import TolerantSyntax.Text.Quoted

/-!
# Report of tokens

One line for each token, in columns: its place, its kind and its text, then its trivia if it is
asked for, and what is wrong with it. The width of a column counts the characters of the escape
sequences in it.
-/

namespace TolerantSyntax.Report

/-! ## Columns -/

/-- Text filled up with blanks behind it. -/
def padEnd (width : Nat) (text : String) : String :=
  text ++ String.ofList (List.replicate (width - text.length) ' ')

/-- Text filled up with blanks in front of it. -/
def padStart (width : Nat) (text : String) : String :=
  String.ofList (List.replicate (width - text.length) ' ') ++ text

/-- The place of a token, counted from one. -/
def placeColumns (place : LineCol) : String :=
  padStart 4 (toString (place.line + 1)) ++ ":" ++ padEnd 3 (toString (place.col + 1))

/-! ## Trivia -/

/-- A piece of trivia. -/
def triviaPiece : Trivia → String
  | .whitespace text => "ws" ++ Text.quoted text
  | .endOfLine _ => "eol"
  | .comment text => "comment" ++ Text.quoted text
  | .documentation text => "doc" ++ Text.quoted text
  | .invalid node => "invalid" ++ Text.quoted node.source

/-- A run of trivia. -/
def triviaPieces (trivia : List Trivia) : String :=
  String.intercalate " " (trivia.map triviaPiece)

/-- The trivia around a token, if there is any. -/
def triviaPart (painter : Painter) (token : Token) : String :=
  if token.leading.isEmpty && token.trailing.isEmpty then ""
  else
    " " ++ painter.paint .dim
      ("[" ++ triviaPieces token.leading ++ "] [" ++ triviaPieces token.trailing ++ "]")

/-! ## Tokens -/

/-- The line for a token, without a line break. -/
def tokenAtPlace (painter : Painter) (withTrivia : Bool) (place : LineCol) (token : Token) :
    String :=
  placeColumns place ++ " " ++ padEnd 28 (painter.paint .node token.kind.name) ++ " " ++
    painter.paint .token (Text.quoted token.text) ++
    (if withTrivia then triviaPart painter token else "") ++
    String.join (token.diagnostics.map fun diagnostic =>
      " " ++ painter.paint .error "!" ++ " " ++ diagnostic.code.text)

/-- The lines for the tokens of a source; the end of input has none. -/
def tokens (painter : Painter) (withTrivia : Bool) (source : String) : List String :=
  let index := LineIndex.ofSource source
  let listed := (Scanner.ofSource source).tokens.filter fun token => token.kind != .eof
  listed.map fun token =>
    tokenAtPlace painter withTrivia (index.lineCol source token.span.start) token

end TolerantSyntax.Report
