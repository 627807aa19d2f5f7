import TolerantSyntax.Grammar.Bracketed.Lowering
import TolerantSyntax.Proofs.Parse.Checks
import TolerantSyntax.Proofs.Parse.Name

/-!
# Members as pieces

A member is made of the pieces that were read for it, and so is what it becomes in any grammar.
-/

namespace TolerantSyntax

namespace Bracketed

open ParseM (simpleName qualifiedName hasToken_simpleName)

/-! ## Pieces -/

mutual

/-- The pieces of a member. -/
def Member.row : Member → Row
  | .literal token => [some token]
  | .name token => [some token]
  | .qualified module colon name => [some module, some colon, some name]
  | .wildcard underscore => [some underscore]
  | .rest ellipsis name => [some ellipsis, some name]
  | .list opening items close => [some opening] ++ Item.row items ++ [some close]
  | .mapping opening items close => [some opening] ++ FieldItem.row items ++ [some close]
  | .nil opening close => [some opening, some close]
  | .error keyword type opening items close =>
    [some keyword, type, some opening] ++ ArgumentItem.row items ++ [some close]
  | .decided _ node => [some node]

/-- The pieces of the items of a list. -/
def Item.row : List Item → Row
  | [] => []
  | .member member :: rest => member.row ++ Item.row rest
  | .separator token :: rest => [some token] ++ Item.row rest

/-- The pieces of the items of a mapping. -/
def FieldItem.row : List FieldItem → Row
  | [] => []
  | .field name colon none :: rest => [some name, colon] ++ FieldItem.row rest
  | .field name colon (some value) :: rest =>
    [some name, colon] ++ value.row ++ FieldItem.row rest
  | .rest ellipsis name :: rest => [some ellipsis, some name] ++ FieldItem.row rest
  | .expression node :: rest => [some node] ++ FieldItem.row rest
  | .separator token :: rest => [some token] ++ FieldItem.row rest

/-- The pieces of the items of an error. -/
def ArgumentItem.row : List ArgumentItem → Row
  | [] => []
  | .positional member :: rest => member.row ++ ArgumentItem.row rest
  | .named name equal value :: rest =>
    [some name, some equal] ++ value.row ++ ArgumentItem.row rest
  | .rest ellipsis name :: rest => [some ellipsis, some name] ++ ArgumentItem.row rest
  | .separator token :: rest => [some token] ++ ArgumentItem.row rest

end

/-- Items that are read one after the other stand so in the row. -/
theorem Item.row_append (xs ys : List Item) : Item.row (xs ++ ys) = Item.row xs ++ Item.row ys := by
  induction xs with
  | nil => rfl
  | cons x xs ih => cases x <;> simp [Item.row, ih]

/-- So do fields. -/
theorem FieldItem.row_append (xs ys : List FieldItem) :
    FieldItem.row (xs ++ ys) = FieldItem.row xs ++ FieldItem.row ys := by
  induction xs with
  | nil => rfl
  | cons x xs ih =>
    cases x with
    | field name colon value => cases value <;> simp [FieldItem.row, ih]
    | _ => simp [FieldItem.row, ih]

/-- And arguments. -/
theorem ArgumentItem.row_append (xs ys : List ArgumentItem) :
    ArgumentItem.row (xs ++ ys) = ArgumentItem.row xs ++ ArgumentItem.row ys := by
  induction xs with
  | nil => rfl
  | cons x xs ih => cases x <;> simp [ArgumentItem.row, ih]

/-- The first piece of a member has a token. -/
def Member.HasToken : Member → Prop
  | .literal token => token.HasToken
  | .name token => token.HasToken
  | .qualified module _ _ => module.HasToken
  | .wildcard underscore => underscore.HasToken
  | .rest ellipsis _ => ellipsis.HasToken
  | .list opening _ _ => opening.HasToken
  | .mapping opening _ _ => opening.HasToken
  | .nil opening _ => opening.HasToken
  | .error keyword _ _ _ _ => keyword.HasToken
  | .decided _ node => node.HasToken

/-! ## Names and enclosed items -/

/-- A name becomes a node around its token. -/
theorem regroups_simpleName (name : Node) : Row.Regroups [some name] [some (simpleName name)] :=
  .group .simpleNameReference [some name] rfl

theorem regroups_enclosed {items : Row} {nodes : List Node} (front back : Row)
    (h : items.Regroups (nodes.map some)) :
    Row.Regroups (front ++ items ++ back) (front ++ [some (.list nodes)] ++ back) :=
  ((h.trans (.group .list _ rfl)).append_left front).append_right back

theorem regroups_delimited (kind : Kind) {items : Row} {nodes : List Node} (opening close : Node)
    (h : items.Regroups (nodes.map some))
    (ha : kind.composes [some opening, some (.list nodes), some close] = true) :
    Row.Regroups ([some opening] ++ items ++ [some close])
      [some (.of kind [opening, .list nodes, close])] :=
  (regroups_enclosed [some opening] [some close] h).trans (.group kind _ ha)

/-! ## Expressions -/

mutual

/-- As an expression, a member has the parts that it had, in their order. -/
theorem Member.regroups_toExpression :
    (member : Member) → Row.Regroups member.row [some member.toExpression]
  | .literal token => .group .basicLiteral [some token] rfl
  | .name token => regroups_simpleName token
  | .qualified module colon name =>
    .group .qualifiedNameReference [some module, some colon, some name] rfl
  | .wildcard underscore =>
    (Row.Regroups.group .wildcardBindingPattern [some underscore] rfl).trans (.flag _ _)
  | .rest ellipsis name =>
    ((regroups_simpleName name).cons (some ellipsis)).trans (.group .spreadMember _ rfl)
  | .list opening items close =>
    regroups_delimited .listConstructor opening close (Item.regroups_toExpressions items) rfl
  | .mapping opening items close =>
    regroups_delimited .mappingConstructor opening close (FieldItem.regroups_toFields items) rfl
  | .nil opening close => .group .nilLiteral [some opening, some close] rfl
  | .error keyword type opening items close => by
    have hitems := regroups_enclosed [some keyword, type, some opening] [some close]
      (ArgumentItem.regroups_toArguments items)
    have hordered := ItemOrder.arguments.regroups_check (ArgumentItem.toArguments items)
    have hcheck := (hordered.append_left [some keyword, type, some opening]).append_right
      [some close]
    exact (hitems.trans hcheck).trans (.group .errorConstructor _ rfl)
  | .decided .expression _ => .refl _
  | .decided .type _ => .flag _ _
  | .decided .pattern _ => .flag _ _

/-- Members one after the other, and commas as they are. -/
theorem Item.regroups_toExpressions :
    (items : List Item) → Row.Regroups (Item.row items) ((Item.toExpressions items).map some)
  | [] => .refl _
  | .member member :: rest =>
    member.regroups_toExpression.append (Item.regroups_toExpressions rest)
  | .separator token :: rest => (Item.regroups_toExpressions rest).cons (some token)

theorem FieldItem.regroups_toFields :
    (items : List FieldItem) →
      Row.Regroups (FieldItem.row items) ((FieldItem.toFields items).map some)
  | [] => .refl _
  | .field name colon none :: rest => by
    have hname : Row.Regroups [some name, colon] [none, some name, colon, none] :=
      (Row.Regroups.gap.append_right [some name, colon]).trans (.withGap _)
    exact (hname.trans (.group .specificField _ rfl)).append (FieldItem.regroups_toFields rest)
  | .field name colon (some value) :: rest => by
    have hvalue := value.regroups_toExpression.append_left [some name, colon]
    have hfield := (Row.Regroups.gap.append hvalue).trans (.group .specificField _ rfl)
    exact hfield.append (FieldItem.regroups_toFields rest)
  | .rest ellipsis name :: rest => by
    have hname := (regroups_simpleName name).cons (some ellipsis)
    exact (hname.trans (.group .spreadField _ rfl)).append (FieldItem.regroups_toFields rest)
  | .expression node :: rest => (FieldItem.regroups_toFields rest).cons (some node)
  | .separator token :: rest => (FieldItem.regroups_toFields rest).cons (some token)

theorem ArgumentItem.regroups_toArguments :
    (items : List ArgumentItem) →
      Row.Regroups (ArgumentItem.row items) ((ArgumentItem.toArguments items).map some)
  | [] => .refl _
  | .positional member :: rest => by
    have hmember := member.regroups_toExpression.trans (.group .positionalArgument _ rfl)
    exact hmember.append (ArgumentItem.regroups_toArguments rest)
  | .named name equal value :: rest => by
    have hvalue := (((regroups_simpleName name).append_right [some equal]).append
      value.regroups_toExpression).trans (.group .namedArgument _ rfl)
    exact hvalue.append (ArgumentItem.regroups_toArguments rest)
  | .rest ellipsis name :: rest => by
    have hrest :=
      ((regroups_simpleName name).cons (some ellipsis)).trans (.group .restArgument _ rfl)
    exact hrest.append (ArgumentItem.regroups_toArguments rest)
  | .separator token :: rest => (ArgumentItem.regroups_toArguments rest).cons (some token)

end

/-! ## Binding patterns -/

mutual

/-- As a binding pattern, with a diagnostic where it is none. -/
theorem Member.regroups_toPattern :
    (member : Member) → Row.Regroups member.row [some member.toPattern]
  | .literal token => (Row.Regroups.group .basicLiteral [some token] rfl).trans (.flag _ _)
  | .name token => .group .captureBindingPattern [some token] rfl
  | .qualified module colon name =>
    (Row.Regroups.group .qualifiedNameReference [some module, some colon, some name] rfl).trans
      (.flag _ _)
  | .wildcard underscore => .group .wildcardBindingPattern [some underscore] rfl
  | .rest ellipsis name => .group .restBindingPattern [some ellipsis, some name] rfl
  | .list opening items close =>
    regroups_delimited .listBindingPattern opening close (Item.regroups_toPatterns items) rfl
  | .mapping opening items close =>
    regroups_delimited .mappingBindingPattern opening close
      (FieldItem.regroups_toPatterns items) rfl
  | .nil opening close =>
    (Row.Regroups.group .nilLiteral [some opening, some close] rfl).trans (.flag _ _)
  | .error keyword type opening items close =>
    (regroups_enclosed [some keyword, type, some opening] [some close]
      (ArgumentItem.regroups_toPatterns items)).trans (.group .errorBindingPattern _ rfl)
  | .decided .pattern _ => .refl _
  | .decided .type _ => .flag _ _
  | .decided .expression _ => .flag _ _

theorem Item.regroups_toPatterns :
    (items : List Item) → Row.Regroups (Item.row items) ((Item.toPatterns items).map some)
  | [] => .refl _
  | .member member :: rest => member.regroups_toPattern.append (Item.regroups_toPatterns rest)
  | .separator token :: rest => (Item.regroups_toPatterns rest).cons (some token)

theorem FieldItem.regroups_toPatterns :
    (items : List FieldItem) →
      Row.Regroups (FieldItem.row items) ((FieldItem.toPatterns items).map some)
  | [] => .refl _
  | .field name colon none :: rest => by
    have hname := ((regroups_simpleName name).append_right [colon]).trans (.withGap _)
    exact (hname.trans (.group .fieldBindingPattern _ rfl)).append
      (FieldItem.regroups_toPatterns rest)
  | .field name colon (some value) :: rest => by
    have hvalue := (((regroups_simpleName name).append_right [colon]).append
      value.regroups_toPattern).trans (.group .fieldBindingPattern _ rfl)
    exact hvalue.append (FieldItem.regroups_toPatterns rest)
  | .rest ellipsis name :: rest =>
    (Row.Regroups.group .restBindingPattern [some ellipsis, some name] rfl).append
      (FieldItem.regroups_toPatterns rest)
  | .expression node :: rest =>
    (Row.Regroups.flag node _).append (FieldItem.regroups_toPatterns rest)
  | .separator token :: rest => (FieldItem.regroups_toPatterns rest).cons (some token)

theorem ArgumentItem.regroups_toPatterns :
    (items : List ArgumentItem) →
      Row.Regroups (ArgumentItem.row items) ((ArgumentItem.toPatterns items).map some)
  | [] => .refl _
  | .positional member :: rest =>
    member.regroups_toPattern.append (ArgumentItem.regroups_toPatterns rest)
  | .named name equal value :: rest => by
    have hvalue := (value.regroups_toPattern.append_left [some name, some equal]).trans
      (.group .namedArgBindingPattern _ rfl)
    exact hvalue.append (ArgumentItem.regroups_toPatterns rest)
  | .rest ellipsis name :: rest =>
    (Row.Regroups.group .restBindingPattern [some ellipsis, some name] rfl).append
      (ArgumentItem.regroups_toPatterns rest)
  | .separator token :: rest => (ArgumentItem.regroups_toPatterns rest).cons (some token)

end

/-! ## Types -/

mutual

/-- As a type, with a diagnostic where it is none. -/
theorem Member.regroups_toType : (member : Member) → Row.Regroups member.row [some member.toType]
  | .literal token =>
    (Row.Regroups.group .basicLiteral [some token] rfl).trans
      (.group .singletonTypeDescriptor _ rfl)
  | .name token => regroups_simpleName token
  | .qualified module colon name =>
    .group .qualifiedNameReference [some module, some colon, some name] rfl
  | .wildcard underscore =>
    (Row.Regroups.group .wildcardBindingPattern [some underscore] rfl).trans (.flag _ _)
  | .rest ellipsis name =>
    (Row.Regroups.group .restBindingPattern [some ellipsis, some name] rfl).trans (.flag _ _)
  | .list opening items close =>
    regroups_delimited .tupleTypeDescriptor opening close (Item.regroups_toTypes items) rfl
  | .mapping opening items close =>
    (Member.mapping opening items close).regroups_toExpression.trans (.flag _ _)
  | .nil opening close => .group .nilTypeDescriptor [some opening, some close] rfl
  | .error keyword type opening items close =>
    (Member.error keyword type opening items close).regroups_toExpression.trans (.flag _ _)
  | .decided .type _ => .refl _
  | .decided .pattern _ => .flag _ _
  | .decided .expression _ => .flag _ _

theorem Item.regroups_toTypes :
    (items : List Item) → Row.Regroups (Item.row items) ((Item.toTypes items).map some)
  | [] => .refl _
  | .member member :: rest => member.regroups_toType.append (Item.regroups_toTypes rest)
  | .separator token :: rest => (Item.regroups_toTypes rest).cons (some token)

end

/-! ## Any grammar -/

/-- A member in a grammar is made of the pieces of the member. -/
theorem Member.regroups_toNode (member : Member) (grammar : Grammar) :
    Row.Regroups member.row [some (member.toNode grammar)] := by
  cases grammar with
  | type => exact member.regroups_toType
  | pattern => exact member.regroups_toPattern
  | expression => exact member.regroups_toExpression

/-- In any grammar, what was read of a member becomes one node. -/
theorem Member.becomes_toNode (member : Member) (grammar : Grammar) :
    Row.Becomes member.row [some (member.toNode grammar)] :=
  (member.regroups_toNode grammar).becomes

/-- In any grammar, what was read of a list becomes its items. -/
theorem Item.regroups_toNodes (items : List Item) (grammar : Grammar) :
    Row.Regroups (Item.row items) ((Item.toNodes items grammar).map some) := by
  cases grammar with
  | type => exact Item.regroups_toTypes items
  | pattern => exact Item.regroups_toPatterns items
  | expression => exact Item.regroups_toExpressions items

theorem Item.becomes_toNodes (items : List Item) (grammar : Grammar) :
    Row.Becomes (Item.row items) ((Item.toNodes items grammar).map some) :=
  (Item.regroups_toNodes items grammar).becomes

/-- Whatever a member becomes, its first piece is the first part, or the first part of that. -/
theorem Member.hasToken_toNode {member : Member} (h : member.HasToken) (grammar : Grammar) :
    (member.toNode grammar).HasToken := by
  have hfirst {kind : Kind} {first : Node} {rest : Row} {diagnostics : List Diagnostic}
      (ht : first.HasToken) : (Node.composite kind (some first :: rest) diagnostics).HasToken :=
    Node.hasToken_composite (List.mem_cons_self ..) ht
  have hflag {node : Node} {code : DiagnosticCode} (ht : node.HasToken) :
      (node.withDiagnostic code).HasToken :=
    Node.hasToken_withDiagnostic.mpr ht
  cases member with
  | decided decided node => cases decided <;> cases grammar <;> first | exact h | exact hflag h
  | literal token => cases grammar <;> first | exact hfirst h | exact hfirst (hfirst h)
  | _ => cases grammar <;> exact hfirst h

/-- A type keeps the token that the member had. -/
theorem Member.hasToken_toType {member : Member} (h : member.HasToken) :
    member.toType.HasToken :=
  Member.hasToken_toNode h .type

theorem Member.hasToken_toExpression {member : Member} (h : member.HasToken) :
    member.toExpression.HasToken :=
  Member.hasToken_toNode h .expression

/-! ## Tuple types as patterns -/

/-- Slots that were filled stay filled, and no others are. -/
theorem map_isSome_patternOfSlots (slots : List (Option Node)) :
    (Node.outlines (patternOfSlots slots)).map Option.isSome =
      (Node.outlines slots).map Option.isSome := by
  induction slots with
  | nil => rfl
  | cons slot rest ih =>
    cases slot with
    | none => exact congrArg (false :: ·) ih
    | some node => exact congrArg (true :: ·) ih

/-- A pattern has the slots of the type that spells it. -/
theorem admits_patternOfSlots {kind other : Kind} {count : Nat} (hk : kind.layout = .filled count)
    (ho : other.layout = .filled count) (slots : List (Option Node))
    (h : kind.admits slots = true) : other.admits (patternOfSlots slots) = true := by
  rw [Kind.admits, hk, Layout.admits_filled] at h
  rw [Kind.admits, ho, Layout.admits_filled, map_isSome_patternOfSlots, h]

mutual

/-- A tuple type is relabelled, and its members with it. -/
theorem regroups_patternOfTuple :
    (node : Node) → Row.Regroups [some node] [some (patternOfTuple node)]
  | .leaf token => .refl _
  | .composite kind slots diagnostics => by
    unfold patternOfTuple
    split
    · exact .relabel _ diagnostics (by decide) (admits_patternOfSlots rfl rfl slots) rfl
        (regroups_patternOfSlots slots)
    · exact .relabel _ diagnostics (by decide) (fun _ => rfl) rfl (regroups_patternOfSlots slots)
    · exact .relabel _ diagnostics (by decide) (admits_patternOfSlots rfl rfl slots) rfl
        (regroups_patternOfSlots slots)
    · exact .flag _ _

/-- Each part is turned into a pattern where it stands. -/
theorem regroups_patternOfSlots :
    (slots : List (Option Node)) → Row.Regroups slots (patternOfSlots slots)
  | [] => .refl _
  | none :: rest => (regroups_patternOfSlots rest).cons none
  | some node :: rest => (regroups_patternOfTuple node).append (regroups_patternOfSlots rest)

end

end Bracketed

end TolerantSyntax
