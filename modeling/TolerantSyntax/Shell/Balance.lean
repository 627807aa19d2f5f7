/-!
# Unfinished input

The shell reads on as long as an input has a bracket or a string that is still open. It looks for
them character by character, without the tokens of the language: a bracket that closes nothing makes
the input finished, and the parser may say what is wrong with it.
-/

namespace TolerantSyntax.Shell

/-- What the characters at hand belong to. -/
inductive Region where
  /-- Neither a string nor a comment; `afterSlash` tells whether a slash came just before. -/
  | code (afterSlash : Bool)
  | string
  /-- Behind a backslash in a string. -/
  | escape
  | comment
deriving DecidableEq, Repr, Inhabited

/-- The bracket that closes an opening one. -/
def closerOf? : Char → Option Char
  | '(' => some ')'
  | '[' => some ']'
  | '\x7b' => some '\x7d'
  | _ => none

/-- Does the character close a bracket? -/
def isCloser (c : Char) : Bool :=
  c == ')' || c == ']' || c == '\x7d'

/-- The region behind a character of code that is no bracket. -/
def regionAfter (afterSlash : Bool) (c : Char) : Region :=
  if c = '"' then .string
  else if c = '#' || (c = '/' && afterSlash) then .comment
  else .code (c = '/')

/-- Is nothing open behind some characters, given the region and the brackets expected there, the
innermost first? -/
def balancedFrom (expected : List Char) : Region → List Char → Bool
  | .string, [] => false
  | .escape, [] => false
  | .code _, [] => expected.isEmpty
  | .comment, [] => expected.isEmpty
  | .comment, c :: rest =>
    balancedFrom expected (if c = '\n' then .code false else .comment) rest
  | .escape, _ :: rest => balancedFrom expected .string rest
  | .string, c :: rest =>
    balancedFrom expected
      (if c = '\\' then .escape else if c = '"' then .code false else .string) rest
  | .code afterSlash, c :: rest =>
    match closerOf? c with
    | some closer => balancedFrom (closer :: expected) (.code false) rest
    | none =>
      if isCloser c then
        match expected with
        | closer :: outer => if c = closer then balancedFrom outer (.code false) rest else true
        | [] => true
      else balancedFrom expected (regionAfter afterSlash c) rest

/-- Is no bracket and no string of a text still open? -/
def isBalanced (text : String) : Bool :=
  balancedFrom [] (.code false) text.toList

end TolerantSyntax.Shell
