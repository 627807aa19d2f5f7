import TolerantSyntax.Diagnostic
import TolerantSyntax.Text.Identifier

/-!
# Lexemes

Given the characters ahead, a lexeme says which token they begin with: its kind, how many characters
after the first belong to it, and what is wrong with it. Since a lexeme always takes the first
character, reading lexemes makes progress, and since it only counts characters, nothing of the
source can get lost.

There is one small function for each group of tokens. A function whose name begins with `after` is
given the characters behind the first one.

* Operators are recognised by looking one or two characters ahead. Two `>` never join: the grammar
  decides whether they are a shift or close two type parameters.
* A number goes on after a dot only if a digit follows the dot.
* A string ends at its quote or at the end of the line.
* A word is an identifier, or a keyword by its spelling; inside an import path only `as` is a
  keyword.

## Termination

`stringBody` recurses on what follows an escape, which is shorter than what the escape began.
-/

namespace TolerantSyntax

/-- How words are classified. -/
inductive LexerMode where
  /-- Regular source. -/
  | code
  /-- Inside an import path, where reserved words are names. -/
  | importPath
deriving DecidableEq, Repr, Inhabited

/-- The token that begins with the next character. -/
structure Lexeme where
  kind : Kind
  /-- How many characters belong to it after the first. -/
  more : Nat
  codes : List DiagnosticCode
deriving DecidableEq, Repr, Inhabited

namespace Lexeme

/-- A lexeme with nothing wrong about it. -/
def clean (kind : Kind) (more : Nat) : Lexeme := ⟨kind, more, []⟩

/-! ## Operators -/

/-- Behind an opening brace. -/
def afterBrace : List Char → Lexeme
  | '|' :: _ => clean .openBracePipe 1
  | _ => clean .openBrace 0

/-- Behind `-`. -/
def afterMinus : List Char → Lexeme
  | '>' :: '>' :: _ => clean .syncSendArrow 2
  | '>' :: _ => clean .rightArrow 1
  | _ => clean .minus 0

/-- Behind `<`. -/
def afterLess : List Char → Lexeme
  | '=' :: _ => clean .ltEqual 1
  | '<' :: _ => clean .doubleLt 1
  | '-' :: _ => clean .leftArrow 1
  | _ => clean .lt 0

/-- Behind `>`. -/
def afterGreater : List Char → Lexeme
  | '=' :: _ => clean .gtEqual 1
  | _ => clean .gt 0

/-- Behind `=`. -/
def afterEqual : List Char → Lexeme
  | '=' :: '=' :: _ => clean .tripleEqual 2
  | '=' :: _ => clean .doubleEqual 1
  | '>' :: _ => clean .rightDoubleArrow 1
  | _ => clean .equal 0

/-- Do the characters ahead go on a word? -/
def continuesWord : List Char → Bool
  | c :: _ => Text.isIdContinue c
  | [] => false

/-- Behind `!`. The operator `!is` is not the beginning of a longer word. -/
def afterBang : List Char → Lexeme
  | '=' :: '=' :: _ => clean .notDoubleEqual 2
  | '=' :: _ => clean .notEqual 1
  | 'i' :: 's' :: rest => if continuesWord rest then clean .exclamation 0 else clean .notIs 2
  | _ => clean .exclamation 0

/-- Behind `&`. -/
def afterAmpersand : List Char → Lexeme
  | '&' :: _ => clean .logicalAnd 1
  | _ => clean .bitwiseAnd 0

/-- Behind `|`. -/
def afterPipe : List Char → Lexeme
  | '|' :: _ => clean .logicalOr 1
  | '\x7d' :: _ => clean .closePipeBrace 1
  | _ => clean .pipe 0

/-- Do the characters ahead begin with a decimal digit? -/
def startsWithDigit : List Char → Bool
  | c :: _ => c.isDigit
  | [] => false

/-- Behind `?`. A dot before a digit belongs to the number. -/
def afterQuestion : List Char → Lexeme
  | '.' :: rest =>
    if startsWithDigit rest then clean .questionMark 0 else clean .optionalChaining 1
  | ':' :: _ => clean .elvis 1
  | _ => clean .questionMark 0

/-! ## Numbers -/

/-- Is it a hexadecimal digit? -/
def isHexDigit (c : Char) : Bool :=
  c.isDigit || ('a' ≤ c && c ≤ 'f') || ('A' ≤ c && c ≤ 'F')

/-- How many decimal digits are ahead. -/
def digitCount (input : List Char) : Nat :=
  (input.takeWhile Char.isDigit).length

/-- Length of the exponent ahead; none unless it has a digit. -/
def exponentLength : List Char → Nat
  | c :: sign :: rest =>
    if c == 'e' || c == 'E' then
      if sign == '+' || sign == '-' then
        if startsWithDigit rest then 2 + digitCount rest else 0
      else if sign.isDigit then 1 + digitCount (sign :: rest)
      else 0
    else 0
  | _ => 0

/-- Length of the suffix of a floating point number ahead: a letter that ends the word. -/
def suffixLength : List Char → Nat
  | c :: rest => if ['f', 'F', 'd', 'D'].contains c && !continuesWord rest then 1 else 0
  | [] => 0

/-- Length of what can follow the point of a number: digits, an exponent, a suffix. -/
def fractionLength (input : List Char) : Nat :=
  let digits := digitCount input
  let exponent := exponentLength (input.drop digits)
  digits + exponent + suffixLength (input.drop (digits + exponent))

/-- Behind `0x`. -/
def afterHexMark (input : List Char) : Lexeme :=
  let digits := (input.takeWhile isHexDigit).length
  ⟨.hexIntegerLiteral, 1 + digits, if digits = 0 then [.malformedNumber] else []⟩

/-- Behind the first digit of a decimal number. -/
def afterDigit (input : List Char) : Lexeme :=
  let digits := digitCount input
  let rest := input.drop digits
  if rest.head? = some '.' ∧ startsWithDigit rest.tail then
    clean .decimalFloatingPointLiteral (digits + 1 + fractionLength rest.tail)
  else
    let exponent := exponentLength rest
    let suffix := suffixLength (rest.drop exponent)
    if exponent + suffix = 0 then clean .decimalIntegerLiteral digits
    else clean .decimalFloatingPointLiteral (digits + exponent + suffix)

/-- Behind a digit that begins a number. -/
def number (first : Char) (input : List Char) : Lexeme :=
  match first, input with
  | '0', 'x' :: rest => afterHexMark rest
  | '0', 'X' :: rest => afterHexMark rest
  | _, _ => afterDigit input

/-- Behind a dot. Two dots alone are no token of the language. -/
def afterDot (input : List Char) : Lexeme :=
  if startsWithDigit input then clean .decimalFloatingPointLiteral (fractionLength input)
  else
    match input with
    | '.' :: '.' :: _ => clean .ellipsis 2
    | '.' :: '<' :: _ => clean .doubleDotLt 2
    | '.' :: _ => clean .invalid 1
    | _ => clean .dot 0

/-! ## Strings -/

/-- Characters that may follow a backslash. -/
def simpleEscapes : List Char :=
  ['"', '\\', 'n', 't', 'r', 'f', 'b', '\'']

/-- How many characters behind a backslash belong to the escape, and what is wrong with it. -/
def escape : List Char → Nat × List DiagnosticCode
  | 'u' :: '\x7b' :: rest =>
    let digits := (rest.takeWhile isHexDigit).length
    if digits = 0 then (2, [.invalidEscapeSequence])
    else if (rest.drop digits).head? = some '\x7d' then (digits + 3, [])
    else (digits + 2, [.invalidEscapeSequence])
  | c :: _ => if simpleEscapes.contains c then (1, []) else (0, [.invalidEscapeSequence])
  | [] => (0, [.invalidEscapeSequence])

/-- How many characters behind the opening quote belong to a string, the closing quote included, and
what is wrong with it. -/
def stringBody : List Char → Nat × List DiagnosticCode
  | [] => (0, [.unterminatedString])
  | c :: rest =>
    if c = '"' then (1, [])
    else if c = '\n' ∨ c = '\r' then (0, [.unterminatedString])
    else if c = '\\' then
      let (escaped, wrong) := escape rest
      let (body, codes) := stringBody (rest.drop escaped)
      (1 + escaped + body, wrong ++ codes)
    else
      let (body, codes) := stringBody rest
      (1 + body, codes)
termination_by input => input.length
decreasing_by
  · simp only [List.length_drop, List.length_cons]
    omega
  · simp

/-- Behind the opening quote of a string. -/
def afterQuote (input : List Char) : Lexeme :=
  let (body, codes) := stringBody input
  ⟨.stringLiteral, body, codes⟩

/-! ## Words -/

/-- How many characters ahead go on a word. -/
def wordLength (input : List Char) : Nat :=
  (input.takeWhile Text.isIdContinue).length

/-- Behind a single quote, which makes any word an identifier. -/
def afterApostrophe (input : List Char) : Lexeme :=
  if wordLength input = 0 then clean .invalid 0 else clean .identifier (wordLength input)

/-- The kind of a word. -/
def wordKind (mode : LexerMode) (word : String) : Kind :=
  match mode, Kind.keyword? word with
  | .code, some keyword => keyword
  | .importPath, some .asKeyword => .asKeyword
  | _, _ => .identifier

/-- Behind the first character of a word. -/
def word (mode : LexerMode) (first : Char) (input : List Char) : Lexeme :=
  let more := wordLength input
  clean (wordKind mode (String.ofList (first :: input.take more))) more

/-! ## All together -/

/-- The lexeme that begins with `first`, given what follows. -/
def next (mode : LexerMode) (first : Char) (input : List Char) : Lexeme :=
  match first with
  | '\x7d' => clean .closeBrace 0
  | '(' => clean .openParen 0
  | ')' => clean .closeParen 0
  | '[' => clean .openBracket 0
  | ']' => clean .closeBracket 0
  | ';' => clean .semicolon 0
  | ',' => clean .comma 0
  | ':' => clean .colon 0
  | '~' => clean .tilde 0
  | '@' => clean .atSign 0
  | '+' => clean .plus 0
  | '*' => clean .asterisk 0
  | '/' => clean .slash 0
  | '%' => clean .percent 0
  | '^' => clean .caret 0
  | '\x7b' => afterBrace input
  | '.' => afterDot input
  | '-' => afterMinus input
  | '<' => afterLess input
  | '>' => afterGreater input
  | '=' => afterEqual input
  | '!' => afterBang input
  | '&' => afterAmpersand input
  | '|' => afterPipe input
  | '?' => afterQuestion input
  | '"' => afterQuote input
  | '\'' => afterApostrophe input
  | _ =>
    if first.isDigit then number first input
    else if first = '_' ∧ ¬ continuesWord input then clean .underscore 0
    else if Text.isIdStart first then word mode first input
    else clean .invalid 0

end Lexeme

end TolerantSyntax
