import TolerantSyntax.Grammar.Bracketed.Lowering
import TolerantSyntax.Grammar.Operand
import TolerantSyntax.Grammar.Pattern

/-!
# Resolving a bracketed list

Members are read one after another until one decides for a grammar; the list is then finished in
that grammar. A list that closes undecided is a member itself, and the token behind it decides.

## Termination

Members nest. `depth` bounds how deep, and a member below that depth has no result.
-/

namespace TolerantSyntax.ParseM

open Bracketed

/-! ## What can follow a member -/

/-- Does the kind end a member? -/
def endsMember (kind : Kind) : Bool :=
  [.comma, .closeBracket, .closeBrace, .closeParen].contains kind

/-- Does a suffix come next that only types have? -/
def isTypeSuffix (kind : Kind) : ParseM Bool := do
  match kind with
  | .questionMark | .ellipsis => return endsMember (← kindAt 1)
  | .openBracket => isSecond .closeBracket
  | .pipe | .bitwiseAnd => return true
  | _ => return false

/-- A type as a member, or a typed binding if a binding pattern follows it. -/
def typeMember (type : Node) : ParseM Member := do
  if Starts.bindingPattern (← nextKind) then return .decided .pattern (← typedBindingAfter type)
  else return .decided .type (← restTypeAfter type)

/-- A member with what follows it: the suffix of a type, a name to bind, or an operator. -/
def memberWithSuffix (member : Member) : ParseM Member := do
  let kind ← nextKind
  if endsMember kind then return member
  else if (← isTypeSuffix kind) && member.mayBeType then
    typeMember (← typeAfter member.toType {})
  else if (kind == .identifier || kind == .underscore) && member.mayBeType then
    return .decided .pattern (← typedBindingAfter member.toType)
  else
    match member with
    | .decided .pattern node => return .decided .pattern node
    | member =>
      if (Precedence.ofOperator? kind).isSome then
        return .decided .expression (← operatorsAfter .default member.toExpression .rhs)
      else return member

/-- Finishes a list in the grammar that its last member decided for. -/
def decidedList (grammar : Grammar) (opening : Node) (items : List Item) : ParseM Member := do
  let items := Item.toNodes items grammar
  match grammar with
  | .type => return .decided .type (← tupleTypeAfter opening items)
  | .pattern => return .decided .pattern (← listBindingAfter opening items)
  | .expression => return .decided .expression (← listConstructorAfter opening items)

/-! ## Members -/

/-- Does an error value come next? -/
def isErrorValue : ParseM Bool := do
  match ← kindAt 1 with
  | .openParen => return true
  | .identifier => return (← kindAt 2) == .openParen
  | _ => return false

/-- Does `...name` come next with the end of a member behind it? -/
def isRestName : ParseM Bool := do
  return (← isNext .ellipsis) && (← isSecond .identifier) && endsMember (← kindAt 2)

/-- A name or a qualified name. -/
def nameMember : ParseM Member := do
  if (← isSecond .colon) && (← kindAt 2) == .identifier then
    let module ← consumeNode
    let colon ← consumeNode
    return .qualified module colon (← consumeNode)
  else return .name (← consumeNode)

/-- `...name`, or `...` before any other expression. -/
def restMember : ParseM Member := do
  let ellipsis ← consumeNode
  if (← isNext .identifier) && endsMember (← kindAt 1) then return .rest ellipsis (← consumeNode)
  else return .decided .expression (.of .spreadMember [ellipsis, ← value])

/-- A type that begins with a keyword or a parenthesis. -/
def keywordTypeMember : ParseM Member := do
  typeMember (← typeDescriptor .tupleTypeDescriptor)

/-- What a turn of reading a list of items came to. -/
def afterItem {α β : Type} (start : Nat) (items : List α) (separator : Node → α)
    (finish : Node → β) (token : Node) : ParseM (List α ⊕ β) := do
  if token.kind == .comma then
    if (← position) == start then discard
    return .inl (items ++ [separator token])
  else return .inr (finish token)

mutual

/-- A member whose grammar may not be decided yet. -/
def ambiguousMember : Nat → ParseM Member
  | 0 => outOfFuel
  | depth + 1 => do
    let kind ← nextKind
    if kind == .identifier then memberWithSuffix (← nameMember)
    else if kind == .underscore then return .wildcard (← consumeNode)
    else if kind == .ellipsis then restMember
    else if kind == .openBracket then
      let opening ← consumeNode
      memberWithSuffix (← bracketedList depth opening)
    else if kind == .openBrace then memberWithSuffix (← ambiguousMapping depth)
    else if kind == .openParen && (← isSecond .closeParen) then
      let opening ← consumeNode
      memberWithSuffix (.nil opening (← consumeNode))
    else if kind == .openParen && (← kindAt 1).isTypeKeyword && (← kindAt 2) != .colon then
      keywordTypeMember
    else if kind == .errorKeyword && (← isErrorValue) then
      memberWithSuffix (← ambiguousError depth)
    else if kind.isLiteral then memberWithSuffix (.literal (← consumeNode))
    else if kind.isTypeKeyword && !(← isSecond .colon) then keywordTypeMember
    else return .decided .expression (← value)

/-- A bracketed list behind its opening bracket. -/
def bracketedList : Nat → Node → ParseM Member
  | 0, _ => outOfFuel
  | depth + 1, opening =>
    within .ambiguousList do
      if ← isNext .closeBracket then return .list opening [] (← consumeNode)
      else
        loop [] fun items => do
          let start ← position
          let member ← ambiguousMember depth
          let items := items ++ [Item.member member]
          match member.decides? with
          | some grammar => return .inr (← decidedList grammar opening items)
          | none =>
            let token ← listEnd .ambiguousList .closeBracket .ambiguous
            afterItem start items .separator (.list opening items) token

/-- `{ fields }`. -/
def ambiguousMapping : Nat → ParseM Member
  | 0 => outOfFuel
  | depth + 1 => do
    let opening ← consumeNode
    within .ambiguousMapping do
      if ← isNext .closeBrace then return .mapping opening [] (← consumeNode)
      else
        loop [] fun items => do
          let start ← position
          let items := items ++ [← ambiguousField depth]
          let token ← listEnd .ambiguousMapping .closeBrace .mappingField
          afterItem start items .separator (.mapping opening items) token

/-- A field of a mapping. -/
def ambiguousField : Nat → ParseM FieldItem
  | 0 => outOfFuel
  | depth + 1 => do
    if ← isNext .identifier then
      let name ← consumeNode
      if ← isNext .colon then
        let colon ← consumeNode
        return .field name (some colon) (some (← ambiguousMember depth))
      else return .field name none none
    else if ← isRestName then
      let ellipsis ← consumeNode
      return .rest ellipsis (← consumeNode)
    else return .expression (← mappingField .ambiguousMapping)

/-- `error type ( arguments )`, the type being optional. -/
def ambiguousError : Nat → ParseM Member
  | 0 => outOfFuel
  | depth + 1 => do
    let keyword ← consumeNode
    let type ← ifNext .identifier typeReference
    let opening ← expect .openParen .ambiguousParen
    within .ambiguousParen do
      if ← isNext .closeParen then return .error keyword type opening [] (← consumeNode)
      else
        loop [] fun items => do
          let start ← position
          let items := items ++ [← ambiguousArgument depth]
          let token ← listEnd .ambiguousParen .closeParen .argument
          afterItem start items .separator (.error keyword type opening items) token

/-- An argument of an error. -/
def ambiguousArgument : Nat → ParseM ArgumentItem
  | 0 => outOfFuel
  | depth + 1 => do
    if (← isNext .identifier) && (← isSecond .equal) then
      let name ← consumeNode
      let equal ← consumeNode
      return .named name equal (← ambiguousMember depth)
    else if ← isRestName then
      let ellipsis ← consumeNode
      return .rest ellipsis (← consumeNode)
    else return .positional (← ambiguousMember depth)

end

/-- A bracketed list from its opening bracket on. -/
def bracketed : ParseM Member := do
  let opening ← consumeNode
  bracketedList (← read).fuel opening

/-- The grammar of an undecided list, by what follows it. -/
def grammarAhead : ParseM Grammar := do
  match ← nextKind with
  | .equal => return .pattern
  | .identifier | .openBrace | .pipe | .bitwiseAnd | .questionMark => return .type
  | .openBracket => return if ← isSecond .closeBracket then .type else .expression
  | _ => return .expression

end TolerantSyntax.ParseM
