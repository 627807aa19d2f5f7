import TolerantSyntax.Grammar.Fragment
import TolerantSyntax.Lexer.Scanner
import TolerantSyntax.Report.Painter
import TolerantSyntax.Shell.Command
import TolerantSyntax.Text.Alphanumeric

/-!
# Help with typing

While a line is typed the shell offers words that go on from the cursor, hints at the first of them,
and colours the line. Words are those of the language, of the shell and of fragments.

The word at the cursor is taken to begin one byte behind the separator before it. Behind a separator
of several bytes that is no place between characters, and there is no word.
-/

namespace TolerantSyntax.Shell

/-! ## Words -/

/-- The first word of the listing of a command. -/
def commandWord (listing : String) : String :=
  String.ofList (listing.toList.takeWhile fun c => !Text.isBlank c)

/-- A list in order without repetitions, if it is in order with them. -/
def withoutRepeats : List String → List String
  | a :: b :: rest =>
    if a == b then withoutRepeats (b :: rest) else a :: withoutRepeats (b :: rest)
  | words => words

/-- All words that are offered, in order. -/
def words : List String :=
  let all :=
    Kind.keywords.map (·.1) ++ ShellCommand.listing.map (fun entry => commandWord entry.1) ++
      FragmentKind.all.map FragmentKind.name
  withoutRepeats (all.mergeSort fun a b => !(b < a))

/-! ## The word at the cursor -/

/-- Can the character stand in a word? -/
def isWordChar (c : Char) : Bool :=
  Text.isLetterOrNumber c || c == '_' || c == '.'

/-- The byte at which the last word of a line begins. -/
def wordStart (line : List Char) : Nat :=
  match line.reverse.dropWhile isWordChar with
  | [] => 0
  | _ :: before => Scanner.byteLength before + 1

/-- The first `bytes` bytes, if they end between characters. -/
def before? (bytes : Nat) : List Char → Option (List Char)
  | [] => if bytes = 0 then some [] else none
  | c :: rest =>
    if bytes = 0 then some []
    else if bytes < c.utf8Size then none
    else (before? (bytes - c.utf8Size) rest).map (c :: ·)

/-- The last word of a line; there is none behind a separator of several bytes. -/
def lastWord? (line : List Char) : Option (List Char) :=
  Scanner.behind? (wordStart line) line

/-! ## Completions and hints -/

/-- A word that is offered, and what has to be typed to get it. -/
structure Completion where
  word : String
  rest : String
deriving DecidableEq, Repr

/-- The offer of a word, if it goes on from what is typed. -/
def completion? (typed : List Char) (word : String) : Option Completion :=
  if typed.isPrefixOf word.toList then some ⟨word, String.ofList (word.toList.drop typed.length)⟩
  else none

/-- The words that go on from the cursor, given the line before it. -/
def completions (line : List Char) : Option (List Completion) :=
  (lastWord? line).map fun typed =>
    if typed.isEmpty then [] else words.filterMap (completion? typed)

/-- What a hint shows behind a line; the cursor is at its end, and two bytes of a word have been
typed. -/
def hint (line : List Char) : Option (Option String) :=
  (lastWord? line).map fun typed =>
    if Scanner.byteLength typed < 2 then none
    else
      ((words.filterMap (completion? typed)).find? fun offer => !offer.rest.isEmpty).map
        Completion.rest

/-! ## Colours -/

/-- Text in a colour of letters; the colour alone is turned off behind it. -/
def colored (parameter text : String) : String :=
  escapeSequence parameter ++ text ++ escapeSequence "39"

/-- Brackets on a line that is coloured. -/
def brackets : List Char :=
  ['(', ')', '[', ']', '\x7b', '\x7d']

/-- Operators on a line that is coloured. -/
def operators : List Char :=
  ['+', '-', '*', '/', '%', '=', '<', '>', '!', '&', '|', '^', '?']

/-- A word on a line that is coloured. -/
def coloredWord (word : List Char) : String :=
  let text := String.ofList word
  if word.isEmpty then ""
  else if Kind.keywords.any (·.1 == text) then
    escapeSequence "1" ++ colored "35" text ++ escapeSequence "0"
  else if word.all Char.isDigit then colored "33" text
  else text

/-- A character between words on a line that is coloured. -/
def coloredChar (c : Char) : String :=
  if brackets.contains c then colored "33" c.toString
  else if operators.contains c then colored "36" c.toString
  else c.toString

/-- A line with its words in colour, `word` being the part of a word before it, last character
first. -/
def coloredFrom (word : List Char) : List Char → String
  | [] => coloredWord word.reverse
  | c :: rest =>
    if Text.isLetterOrNumber c || c == '_' then coloredFrom (c :: word) rest
    else coloredWord word.reverse ++ coloredChar c ++ coloredFrom [] rest

/-- A line in colour; a command of the shell has none. -/
def highlighted (color : Bool) (line : String) : String :=
  if !color || (Text.trimStart line.toList).head? == some '.' then line
  else coloredFrom [] line.toList

/-- A hint as it is shown. -/
def dimmedHint (color : Bool) (hint : String) : String :=
  if color then escapeSequence "2" ++ hint ++ escapeSequence "0" else hint

end TolerantSyntax.Shell
