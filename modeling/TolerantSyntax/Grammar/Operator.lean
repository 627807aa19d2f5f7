import TolerantSyntax.Grammar.Action
import TolerantSyntax.Grammar.Type

/-!
# Operators

Operators and suffixes are folded onto an operand as long as their level is above the floor. The
right operand of a binary operator is read with the level of the operator as its floor, so operators
of one level associate to the left. `?:` reads its right operand one level lower and associates to
the right.

There is no token for a shift to the right. Two or three `>` in a row are taken for one, and flagged
if they do not touch. Nor is there a token for a compound assignment: an operator that touches an
`=` is one, at the start of a statement.
-/

namespace TolerantSyntax

/-- Do two tokens touch, with no trivia between them? -/
def Token.touches (first second : Token) : Bool :=
  first.trailing.isEmpty && second.leading.isEmpty && first.span.stop == second.span.start

/-- Does each token touch the one after it? -/
def Token.allTouch : List Token → Bool
  | first :: second :: rest => first.touches second && allTouch (second :: rest)
  | _ => true

/-- The operator of a compound assignment. -/
structure CompoundOperator where
  /-- How many tokens it is made of. -/
  width : Nat
  /-- Is the `=` part of its last token, as in `>=`? -/
  fused : Bool
deriving DecidableEq, Repr

namespace ParseM

/-! ## Recognising operators -/

/-- The level of the operator that comes next, and how many tokens it is made of. -/
def operatorAhead? : ParseM (Option (Precedence × Nat)) := do
  let kind ← nextKind
  if kind == .gt && (← kindAt 1) == .gt then
    return some (.shift, if (← kindAt 2) == .gt then 3 else 2)
  else return (Precedence.ofOperator? kind).map (·, 1)

/-- The operator of a compound assignment that comes next. -/
def compoundAhead? : ParseM (Option CompoundOperator) := do
  let first ← peekAt 0
  let second ← peekAt 1
  if !first.kind.isCompoundOperator || !first.touches second then return none
  match first.kind, second.kind with
  | .gt, .gtEqual => return some ⟨2, true⟩
  | .gt, .gt =>
    let third ← peekAt 2
    return if third.kind == .gtEqual && second.touches third then some ⟨3, true⟩ else none
  | .gt, _ => return none
  | _, .equal => return some ⟨1, false⟩
  | _, _ => return none

/-! ## Consuming operators -/

/-- Consumes some tokens. -/
def consumeTokens : Nat → ParseM (List Token)
  | 0 => pure []
  | count + 1 => do
    let token ← consume
    return token :: (← consumeTokens count)

/-- An operator of several tokens. -/
def compositeOperator (tokens : List Token) : Node :=
  .of .compositeOperator (tokens.map Node.leaf)

/-- Consumes an operator of the given width; several tokens make a shift operator. -/
def operatorOf (width : Nat) : ParseM Node := do
  if width == 1 then consumeNode
  else
    let tokens ← consumeTokens width
    let operator := compositeOperator tokens
    return if Token.allTouch tokens then operator else operator.withDiagnostic .invalidShiftOperator

/-- Consumes the operator of a compound assignment, and the `=` if it is a token of its own. -/
def compoundOperatorOf (shape : CompoundOperator) : ParseM (Node × Option Node) := do
  let operator ←
    if shape.width == 1 then consumeNode else compositeOperator <$> consumeTokens shape.width
  let equal ← if shape.fused then pure none else some <$> consumeNode
  return (operator, equal)

/-! ## Suffixes and operators -/

/-- `operand(arguments)`. -/
def callAfter (callee : Node) : ParseM Node := do
  let (opening, items, close) ← arguments
  return .of .functionCall [callee, opening, items, close]

/-- `operand.name` or `operand.name(arguments)`. -/
def memberAfter (target : Node) : ParseM Node := do
  let dot ← consumeNode
  let name ← expect .identifier .expression
  if ← isNext .openParen then
    let (opening, items, close) ← arguments
    return .of .methodCall [target, dot, name, opening, items, close]
  else return .of .fieldAccess [target, dot, name]

/-- `operand?.name`. -/
def optionalMemberAfter (target : Node) : ParseM Node := do
  let operator ← consumeNode
  return .of .optionalFieldAccess [target, operator, ← expect .identifier .expression]

/-- `operand[keys]`. -/
def indexAfter (container : Node) : ParseM Node := do
  let opening ← consumeNode
  let (keys, close) ← delimited .memberAccessKey .closeBracket .expression value
  return .of .indexedExpression [container, opening, keys, close]

/-- `operand is type`. -/
def typeTestAfter (operand : Node) : ParseM Node := do
  let operator ← consumeNode
  return .of .typeTestExpression [operand, operator, ← typeDescriptor .typeTestExpression]

/-- `condition ? middle : end`. -/
def conditionalAfter (condition : Node) (flags : ExpressionFlags) : ParseM Node :=
  within .conditionalExpression do
    let question ← consumeNode
    let nested := flags.nested.withoutActions
    let middle ← expression .anonFuncOrLet nested.withConditional
    let colon ← expect .colon .conditionalExpression
    let otherwise ← expression .anonFuncOrLet nested
    return .of .conditionalExpression [condition, question, middle, colon, otherwise]

/-- `lhs operator rhs`, the right operand above a floor. -/
def binaryAfter (lhs : Node) (width : Nat) (floor : Precedence) (flags : ExpressionFlags) :
    ParseM Node := do
  let operator ← operatorOf width
  let rhs ← expression floor flags.nested.withoutActions
  return .of .binaryExpression [lhs, operator, rhs]

/-- Folds the operator that comes next onto its left operand. -/
def foldOperator (lhs : Node) (level : Precedence) (width : Nat) (flags : ExpressionFlags) :
    ParseM Node := do
  match ← nextKind with
  | .openParen => callAfter lhs
  | .dot => memberAfter lhs
  | .optionalChaining => optionalMemberAfter lhs
  | .openBracket => indexAfter lhs
  | .rightArrow => remoteCallOrSend lhs flags
  | .syncSendArrow => syncSend lhs flags
  | .isKeyword | .notIs => typeTestAfter lhs
  | .questionMark => conditionalAfter lhs flags
  | .elvis => binaryAfter lhs 1 .conditional flags
  | _ => binaryAfter lhs width level flags

/-- The operator that comes next, if it belongs to an expression above the floor. -/
def operatorAbove? (floor : Precedence) (flags : ExpressionFlags) :
    ParseM (Option (Precedence × Nat)) := do
  if !flags.isRhs && (← compoundAhead?).isSome then return none
  return (← operatorAhead?).filter fun operator => !operator.1.le floor

/-- Folds the operators above the floor onto an operand. -/
def operatorsAfter (floor : Precedence) (operand : Node) (flags : ExpressionFlags) : ParseM Node :=
  loop operand fun lhs => do
    match ← operatorAbove? floor flags with
    | some (level, width) => return .inl (← foldOperator lhs level width flags)
    | none => return .inr lhs

end ParseM

end TolerantSyntax
