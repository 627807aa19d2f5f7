import TolerantSyntax.Lexer.Scanner

/-!
# Token reader

The grammar pulls tokens from a reader that can look ahead as far as it is asked to. Tokens that
have been looked at wait in a buffer. Lexical modes nest; when one begins or ends, the buffer is
dropped and the source is scanned again from its first token, since the words in it may be of
another kind now.
-/

namespace TolerantSyntax

/-- A stream of tokens with lookahead. -/
structure TokenReader where
  /-- Behind the last token of the buffer. -/
  scanner : Scanner
  buffer : List Token
  /-- Modes that have begun, the innermost first. -/
  modes : List LexerMode
  /-- Tokens consumed so far, the end of input not counted. -/
  consumed : Nat

namespace TokenReader

/-- A reader at the beginning of a source. -/
def ofSource (source : String) : TokenReader :=
  { scanner := .ofSource source, buffer := [], modes := [], consumed := 0 }

/-- The mode in force. -/
def mode (reader : TokenReader) : LexerMode :=
  reader.modes.head?.getD .code

/-- Makes the buffer hold at least `count` tokens. -/
def fill (reader : TokenReader) (count : Nat) : TokenReader :=
  let more := reader.scanner.take (count - reader.buffer.length)
  { reader with scanner := more.2, buffer := reader.buffer ++ more.1 }

theorem le_length_buffer_fill (reader : TokenReader) (count : Nat) :
    count ≤ (reader.fill count).buffer.length := by
  simp only [fill, List.length_append, Scanner.length_take]
  omega

/-- The token `ahead` tokens behind the next one, and the reader that has it buffered. -/
def peek (reader : TokenReader) (ahead : Nat) : Token × TokenReader :=
  match reader.buffer[ahead]? with
  | some token => (token, reader)
  | none =>
    let filled := reader.fill (ahead + 1)
    have : ahead < filled.buffer.length := reader.le_length_buffer_fill (ahead + 1)
    (filled.buffer[ahead], filled)

/-- All tokens ahead, the end of input among them, and the reader that has them buffered. -/
def upcoming (reader : TokenReader) : List Token × TokenReader :=
  if reader.buffer.any (·.kind == .eof) then (reader.buffer, reader)
  else
    let others := reader.scanner.drain
    let buffer := reader.buffer ++ others.1
    (buffer, { reader with scanner := others.2, buffer })

/-- Takes the next token off the stream. -/
def consume (reader : TokenReader) : Token × TokenReader :=
  let (token, filled) := reader.peek 0
  (token,
    { filled with
      buffer := filled.buffer.tail
      consumed := if token.kind = .eof then filled.consumed else filled.consumed + 1 })

/-- Scans what has been looked at again, in the mode now in force. -/
def relex (reader : TokenReader) : TokenReader :=
  match reader.buffer with
  | first :: _ =>
    { reader with buffer := [], scanner := reader.scanner.reset first.fullStart reader.mode }
  | [] => { reader with scanner := reader.scanner.reset reader.scanner.offset reader.mode }

/-- Begins a mode. -/
def startMode (reader : TokenReader) (mode : LexerMode) : TokenReader :=
  relex { reader with modes := mode :: reader.modes }

/-- Ends the innermost mode. -/
def endMode (reader : TokenReader) : TokenReader :=
  relex { reader with modes := reader.modes.tail }

end TokenReader

end TolerantSyntax
