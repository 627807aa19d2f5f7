import TolerantSyntax.Kind.Basic

/-!
# Precedence

Levels of operators from the weakest to the tightest. An expression is read above a floor: an
operator belongs to it if its level is higher than the floor.
-/

namespace TolerantSyntax

/-- Levels of operators, the weakest first. -/
inductive Precedence where
  | default | query | trap | action | remoteCallAction | anonFuncOrLet | conditional | elvis
  | logicalOr | logicalAnd | bitwiseOr | bitwiseXor | bitwiseAnd | equality | binaryCompare
  | range | shift | additive | multiplicative | expressionAction | unary | memberAccess
deriving DecidableEq, Repr, Inhabited

namespace Precedence

/-- The place of a level, the weakest being zero. -/
def rank (level : Precedence) : Nat :=
  level.ctorIdx

/-- Does `a` bind no tighter than `b`? -/
def le (a b : Precedence) : Bool :=
  a.rank ≤ b.rank

/-- May an operator of this level follow an action? -/
def isHigherThanAction (level : Precedence) : Bool :=
  Precedence.action.rank < level.rank

/-- The name of a level as it is shown. -/
def name : Precedence → String
  | .default => "Default"
  | .query => "Query"
  | .trap => "Trap"
  | .action => "Action"
  | .remoteCallAction => "RemoteCallAction"
  | .anonFuncOrLet => "AnonFuncOrLet"
  | .conditional => "Conditional"
  | .elvis => "Elvis"
  | .logicalOr => "LogicalOr"
  | .logicalAnd => "LogicalAnd"
  | .bitwiseOr => "BitwiseOr"
  | .bitwiseXor => "BitwiseXor"
  | .bitwiseAnd => "BitwiseAnd"
  | .equality => "Equality"
  | .binaryCompare => "BinaryCompare"
  | .range => "Range"
  | .shift => "Shift"
  | .additive => "Additive"
  | .multiplicative => "Multiplicative"
  | .expressionAction => "ExpressionAction"
  | .unary => "Unary"
  | .memberAccess => "MemberAccess"

/-- Every level, the weakest first. -/
def all : List Precedence :=
  [.default, .query, .trap, .action, .remoteCallAction, .anonFuncOrLet, .conditional, .elvis,
   .logicalOr, .logicalAnd, .bitwiseOr, .bitwiseXor, .bitwiseAnd, .equality, .binaryCompare,
   .range, .shift, .additive, .multiplicative, .expressionAction, .unary, .memberAccess]

/-- The level of a given name. -/
def ofName? (text : String) : Option Precedence :=
  all.find? (fun level => level.name == text)

/-- The level of a binary operator. -/
def ofBinary? : Kind → Option Precedence
  | .asterisk | .slash | .percent => some .multiplicative
  | .plus | .minus => some .additive
  | .doubleLt => some .shift
  | .ellipsis | .doubleDotLt => some .range
  | .lt | .gt | .ltEqual | .gtEqual | .isKeyword | .notIs => some .binaryCompare
  | .doubleEqual | .tripleEqual | .notEqual | .notDoubleEqual => some .equality
  | .bitwiseAnd => some .bitwiseAnd
  | .caret => some .bitwiseXor
  | .pipe => some .bitwiseOr
  | .logicalAnd => some .logicalAnd
  | .logicalOr => some .logicalOr
  | .elvis => some .elvis
  | .questionMark => some .conditional
  | _ => none

/-- The level of whatever can follow an operand. -/
def ofOperator? : Kind → Option Precedence
  | .dot | .optionalChaining | .openBracket | .openParen => some .memberAccess
  | .rightArrow => some .remoteCallAction
  | .syncSendArrow => some .action
  | kind => ofBinary? kind

end Precedence

end TolerantSyntax
