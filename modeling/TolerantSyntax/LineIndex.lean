import TolerantSyntax.Lexer.Scanner

/-!
# Lines and columns

A byte offset is reported as a line and a column, both counted from zero. Lines are separated by
`\n` alone, and the column counts characters. The offsets at which lines begin are found once for a
source.
-/

namespace TolerantSyntax

/-- A place for a reader. -/
structure LineCol where
  line : Nat
  col : Nat
deriving DecidableEq, Repr, Inhabited

/-- Where the lines of a source begin, in ascending order. -/
structure LineIndex where
  starts : List Nat

namespace LineIndex

/-- Offsets behind each line break, for characters that begin at `offset`. -/
def breaksFrom (offset : Nat) : List Char → List Nat
  | [] => []
  | c :: rest =>
    let next := offset + c.utf8Size
    if c = '\n' then next :: breaksFrom next rest else breaksFrom next rest

/-- The index of a source. -/
def ofSource (source : String) : LineIndex :=
  ⟨0 :: breaksFrom 0 source.toList⟩

/-- How many characters fill exactly the first `bytes` bytes. -/
def charsIn? (bytes : Nat) : List Char → Option Nat
  | [] => if bytes = 0 then some 0 else none
  | c :: rest =>
    if bytes = 0 then some 0
    else if bytes < c.utf8Size then none
    else (charsIn? (bytes - c.utf8Size) rest).map (· + 1)

/-- The place of an offset; one behind the end of the source means its end, and one inside a
character has column zero. -/
def lineCol (index : LineIndex) (source : String) (offset : Nat) : LineCol :=
  let offset := min offset source.utf8ByteSize
  let begun := index.starts.takeWhile (· ≤ offset)
  let start := begun.getLastD 0
  let line := Scanner.dropBytes start source.toList
  { line := begun.length - 1, col := (charsIn? (offset - start) line).getD 0 }

end LineIndex

end TolerantSyntax
