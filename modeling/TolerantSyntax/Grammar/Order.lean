import TolerantSyntax.Tree.Edit

/-!
# Order of parameters, arguments and qualifiers

Parameters and arguments have to come in a certain order, and a qualifier may stand only once and
only where it is allowed. What is out of order stays in its place and gets a diagnostic.
-/

namespace TolerantSyntax

/-! ## Order of items -/

/-- An order for the items of a list: `early` items do not follow `late` ones, and nothing follows a
`last` one. -/
structure ItemOrder where
  early : Kind
  late : Kind
  last : Kind
  /-- For an early item behind a late one. -/
  earlyCode : DiagnosticCode
  /-- For any item behind a last one. -/
  afterLastCode : DiagnosticCode

namespace ItemOrder

/-- Required parameters come before defaultable ones, and a rest parameter comes last. -/
def parameters : ItemOrder where
  early := .requiredParameter
  late := .defaultableParameter
  last := .restParameter
  earlyCode := .requiredParamAfterDefaultable
  afterLastCode := .paramAfterRestParam

/-- Positional arguments come before named ones, and a rest argument comes last. -/
def arguments : ItemOrder where
  early := .positionalArgument
  late := .namedArgument
  last := .restArgument
  earlyCode := .positionalArgAfterNamedArg
  afterLastCode := .restArgFollowedByAnotherArg

/-- What is wrong with an item, given whether a late and a last one have come before. -/
def offence? (order : ItemOrder) (afterLate afterLast : Bool) (kind : Kind) :
    Option DiagnosticCode :=
  if afterLast then some order.afterLastCode
  else if afterLate && kind == order.early then some order.earlyCode
  else none

/-- Flags the items that are out of order; separators are passed over. -/
def flag (order : ItemOrder) (afterLate afterLast : Bool) : List Node → List Node
  | [] => []
  | item :: rest =>
    if item.kind = .comma then item :: flag order afterLate afterLast rest
    else
      let flagged :=
        match order.offence? afterLate afterLast item.kind with
        | some code => item.withDiagnostic code
        | none => item
      flagged ::
        flag order (afterLate || item.kind == order.late) (afterLast || item.kind == order.last)
          rest

/-- Flags the items of a list that are out of order. -/
def check (order : ItemOrder) (list : Node) : Node :=
  .list (order.flag false false list.children)

end ItemOrder

/-! ## Qualifiers -/

namespace Qualifiers

/-- Flags the qualifiers that repeat one of `seen` or an earlier one, and those that are not
allowed. -/
def flag (allowed : List Kind) (seen : List Kind) : List Node → List Node
  | [] => []
  | qualifier :: rest =>
    let flagged :=
      if seen.contains qualifier.kind then qualifier.withDiagnostic .duplicateQualifier
      else if allowed.contains qualifier.kind then qualifier
      else qualifier.withDiagnostic .qualifierNotAllowed
    flagged :: flag allowed (qualifier.kind :: seen) rest

/-- The list of qualifiers, with those flagged that are repeated or not allowed. -/
def check (allowed : List Kind) (qualifiers : List Node) : Node :=
  .list (flag allowed [] qualifiers)

end Qualifiers

end TolerantSyntax
