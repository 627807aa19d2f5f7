import TolerantSyntax.Grammar.Tokens

/-!
# Lookahead

Some decisions depend on tokens arbitrarily far ahead: where a bracket closes, whether a row of
brackets is a row of array dimensions, whether a declaration begins here. They are functions of the
kinds of the tokens ahead, given as a list that begins with the next token and ends with the end of
input. Nothing is consumed.

## Termination

The functions recurse on the list of kinds; `afterDimensions?` goes on behind a closed bracket.
-/

namespace TolerantSyntax.Lookahead

/-! ## Brackets -/

/-- The place at which as many of `close` as of `opening` have been met, for the first time after
`depth` of them are open; none if the input ends before. -/
def closeFrom? (opening close : Kind) (depth : Nat) : List Kind → Option Nat
  | [] => none
  | kind :: rest =>
    if kind = .eof then none
    else if kind = opening then (closeFrom? opening close (depth + 1) rest).map (· + 1)
    else if kind = close then
      if depth ≤ 1 then some 0 else (closeFrom? opening close (depth - 1) rest).map (· + 1)
    else (closeFrom? opening close depth rest).map (· + 1)

/-- The delimiter that closes a kind of bracket. -/
def closerOf? : Kind → Option Kind
  | .openBracket => some .closeBracket
  | .openBrace => some .closeBrace
  | .openParen => some .closeParen
  | _ => none

/-- Where the bracket that comes next is closed, counted from itself. -/
def matchingClose? : List Kind → Option Nat
  | [] => none
  | opening :: rest =>
    match closerOf? opening with
    | some close => closeFrom? opening close 0 (opening :: rest)
    | none => none

/-- What follows the bracket that comes next and everything up to its closing delimiter. -/
def afterClose? (kinds : List Kind) : Option (List Kind) :=
  (matchingClose? kinds).map fun close => kinds.drop (close + 1)

/-- What follows the array dimensions that come next. A group of more than one token is no
dimension. -/
def afterDimensions? (kinds : List Kind) : Option (List Kind) :=
  match kinds with
  | .openBracket :: rest =>
    match matchingClose? (.openBracket :: rest) with
    | some close => if close > 2 then none else afterDimensions? (rest.drop close)
    | none => none
  | other => some other
termination_by kinds.length
decreasing_by
  simp only [List.length_drop, List.length_cons]
  omega

/-! ## Declarations -/

/-- Behind the name that a type begins with: does a declaration go on, with a variable or with more
of the type? -/
def declaresAfterName (kinds : List Kind) : Bool :=
  match kinds with
  | .identifier :: _ => true
  | .questionMark :: .identifier :: .equal :: _ => true
  | .questionMark :: .identifier :: .semicolon :: _ => true
  | .pipe :: _ => true
  | .bitwiseAnd :: _ => true
  | .openBracket :: _ =>
    match afterDimensions? kinds with
    | some (.identifier :: _) => true
    | some (.questionMark :: .identifier :: _) => true
    | _ => false
  | _ => false

/-- Does a declaration come next, whose type begins with an identifier? -/
def declaresFromIdentifier : List Kind → Bool
  | _ :: .colon :: .identifier :: rest => declaresAfterName rest
  | _ :: rest => declaresAfterName rest
  | [] => false

/-- Does a declaration come next, whose type begins with a parenthesis? -/
def declaresFromParen (kinds : List Kind) : Bool :=
  match afterClose? kinds with
  | some (.identifier :: _) => true
  | some (.questionMark :: .identifier :: _) => true
  | some (.openBracket :: rest) =>
    match afterDimensions? (.openBracket :: rest) with
    | some (.identifier :: _) => true
    | _ => false
  | _ => false

/-! ## Destructuring -/

/-- Does `=` follow the bracket that comes next? -/
def assignsAfterClose (kinds : List Kind) : Bool :=
  match afterClose? kinds with
  | some (.equal :: _) => true
  | _ => false

/-- Does an error pattern come next, with `=` behind it? -/
def destructuresError : List Kind → Bool
  | _ :: .identifier :: .openParen :: rest => assignsAfterClose (.openParen :: rest)
  | _ :: .openParen :: rest => assignsAfterClose (.openParen :: rest)
  | _ => false

/-- Is the bracket that comes next a binding pattern rather than an array dimension? -/
def bindsBracket : List Kind → Bool
  | _ :: .closeBracket :: _ => false
  | kinds =>
    match afterClose? kinds with
    | some (.equal :: _) => true
    | some (.semicolon :: _) => true
    | some (.inKeyword :: _) => true
    | _ => false

/-! ## Functions and classes -/

/-- Names with commas between them, then a closing parenthesis and an arrow. -/
def namesBeforeArrow : List Kind → Bool
  | .identifier :: .comma :: rest => namesBeforeArrow rest
  | .identifier :: .closeParen :: .rightDoubleArrow :: _ => true
  | _ => false

/-- Does a parenthesised list of names come next, with an arrow behind it? -/
def infersParameters : List Kind → Bool
  | _ :: .closeParen :: rest => rest.head? == some .rightDoubleArrow
  | _ :: rest => namesBeforeArrow rest
  | [] => false

/-- Keywords that qualify a class. -/
def classQualifiers : List Kind :=
  [.readonlyKeyword, .distinctKeyword, .clientKeyword, .serviceKeyword, .isolatedKeyword]

/-- Do qualifiers of a class come next, with `class` behind them? -/
def qualifiesClass (kinds : List Kind) : Bool :=
  (kinds.dropWhile classQualifiers.contains).head? == some .classKeyword

end TolerantSyntax.Lookahead

namespace TolerantSyntax.ParseM

/-- The kinds of all tokens ahead, up to the end of input. -/
def upcoming : ParseM (List Kind) := do
  let parser ← get
  let (tokens, reader) := parser.reader.upcoming
  set { parser with reader }
  pure (tokens.map (·.kind))

end TolerantSyntax.ParseM
