import TolerantSyntax.Grammar.Order
import TolerantSyntax.Proofs.Edits

/-!
# The order checks flag the offenders

A check of order goes through a list once and keeps in two flags what it has seen. Here the same is
said of each item by itself: whether it is out of order depends on the kinds of the items before it.
The checks flag the items that are out of order, each with one diagnostic, and leave all others as
they are (`flags_offenders`).
-/

namespace TolerantSyntax

/-! ## What is wrong with an item -/

/-- What is wrong with an item that stands behind the items `before`. -/
def ItemOrder.offenceBehind? (order : ItemOrder) (before : List Node) (item : Node) :
    Option DiagnosticCode :=
  if item.kind = .comma then none
  else if ∃ earlier ∈ before, earlier.kind = order.last then some order.afterLastCode
  else if item.kind = order.early ∧ ∃ earlier ∈ before, earlier.kind = order.late then
    some order.earlyCode
  else none

/-- What is wrong with a qualifier that stands behind the qualifiers `before`. -/
def Qualifiers.offenceBehind? (allowed : List Kind) (before : List Node) (qualifier : Node) :
    Option DiagnosticCode :=
  if ∃ earlier ∈ before, earlier.kind = qualifier.kind then some .duplicateQualifier
  else if qualifier.kind ∉ allowed then some .qualifierNotAllowed
  else none

/-! ## Flagged items -/

/-- The node with a diagnostic, if there is one to add. -/
def Node.flagged (node : Node) : Option DiagnosticCode → Node
  | some code => node.withDiagnostic code
  | none => node

/-- The items, each flagged with what is wrong with it behind those before it. -/
def flagEach (offence? : List Node → Node → Option DiagnosticCode) (items : List Node) :
    List Node :=
  items.mapIdx fun index item => item.flagged (offence? (items.take index) item)

/-- What an offence behind some items is to the items that follow them. -/
theorem flagEach_cons (offence? : List Node → Node → Option DiagnosticCode) (item : Node)
    (rest : List Node) :
    flagEach offence? (item :: rest) =
      item.flagged (offence? [] item) ::
        flagEach (fun before => offence? (item :: before)) rest := by
  simp [flagEach, List.mapIdx_cons]

theorem Node.isIsomorphic_flagged (node : Node) (code? : Option DiagnosticCode) :
    (node.flagged code?).isIsomorphic node = true := by
  rcases code? with _ | code
  · exact node.isIsomorphic_self
  · exact isIsomorphic_withDiagnostic node code

theorem isIsomorphic_list_flagEach (offence? : List Node → Node → Option DiagnosticCode)
    (items : List Node) :
    (Node.list (flagEach offence? items)).isIsomorphic (.list items) = true := by
  simp only [Node.list, Node.of, Node.isIsomorphic, beq_self_eq_true, Bool.true_and]
  induction items generalizing offence? with
  | nil => rfl
  | cons item rest ih =>
    rw [flagEach_cons, List.map_cons, List.map_cons, Node.isomorphicSlots, ih, Bool.and_true]
    exact item.isIsomorphic_flagged _

/-! ## Each check goes by what came before -/

/-- The flags of the loop say which kinds have come before. -/
theorem ItemOrder.flag_eq_flagEach (order : ItemOrder) (hlate : order.late ≠ .comma)
    (hlast : order.last ≠ .comma) (before items : List Node) :
    order.flag (before.any (·.kind == order.late)) (before.any (·.kind == order.last)) items =
      flagEach (fun between => order.offenceBehind? (before ++ between)) items := by
  induction items generalizing before with
  | nil => rfl
  | cons item rest ih =>
    have hrest := ih (before ++ [item])
    simp only [List.any_append, List.any_cons, List.any_nil, Bool.or_false, List.append_assoc,
      List.singleton_append] at hrest
    rw [flagEach_cons, ← hrest, flag]
    by_cases hcomma : item.kind = .comma
    · have hnlate : (item.kind == order.late) = false := by simp [hcomma, hlate.symm]
      have hnlast : (item.kind == order.last) = false := by simp [hcomma, hlast.symm]
      rw [if_pos hcomma, hnlate, hnlast, Bool.or_false, Bool.or_false]
      simp [offenceBehind?, hcomma, Node.flagged]
    · have hoffence : order.offence? (before.any (·.kind == order.late))
          (before.any (·.kind == order.last)) item.kind = order.offenceBehind? before item := by
        simp [offence?, offenceBehind?, hcomma, and_comm]
      rw [if_neg hcomma, hoffence, List.append_nil]
      cases order.offenceBehind? before item <;> rfl

theorem ItemOrder.check_list (order : ItemOrder) (hlate : order.late ≠ .comma)
    (hlast : order.last ≠ .comma) (items : List Node) :
    order.check (.list items) = .list (flagEach order.offenceBehind? items) := by
  rw [check, Node.children_list]
  congr 1
  exact order.flag_eq_flagEach hlate hlast [] items

/-- The kinds seen are those of the qualifiers before. -/
theorem Qualifiers.flag_eq_flagEach (allowed : List Kind) (before qualifiers : List Node) :
    flag allowed (before.map Node.kind).reverse qualifiers =
      flagEach (fun between => offenceBehind? allowed (before ++ between)) qualifiers := by
  induction qualifiers generalizing before with
  | nil => rfl
  | cons qualifier rest ih =>
    have hrest := ih (before ++ [qualifier])
    simp only [List.map_append, List.map_cons, List.map_nil, List.reverse_append,
      List.reverse_singleton, List.append_assoc, List.singleton_append] at hrest
    rw [flagEach_cons, ← hrest, flag, List.append_nil, offenceBehind?]
    congr 1
    by_cases hseen : ∃ earlier ∈ before, earlier.kind = qualifier.kind
    · simp [hseen, Node.flagged]
    · by_cases hallowed : qualifier.kind ∈ allowed <;> simp [hseen, hallowed, Node.flagged]

theorem Qualifiers.check_eq (allowed : List Kind) (qualifiers : List Node) :
    check allowed qualifiers = .list (flagEach (offenceBehind? allowed) qualifiers) :=
  congrArg Node.list (flag_eq_flagEach allowed [] qualifiers)

/-! ## The offenders and no others -/

/-- The list has the shape of `items`. Each item that is an offence behind those before it has one
diagnostic more, at its span, and all others are as they were. -/
structure FlagsOffenders (offence? : List Node → Node → Option DiagnosticCode)
    (items : List Node) (list : Node) : Prop where
  isIsomorphic : list.isIsomorphic (.list items) = true
  list_children : list = .list list.children
  length : list.children.length = items.length
  offender : ∀ index item code, items[index]? = some item →
    offence? (items.take index) item = some code → ∃ flagged,
      list.children[index]? = some flagged ∧ flagged = item.withDiagnostic code ∧
        flagged.diagnostics.Perm (item.diagnostics ++ [⟨code, item.span⟩])
  other : ∀ index item, items[index]? = some item → offence? (items.take index) item = none →
    list.children[index]? = some item

theorem flagsOffenders_flagEach (offence? : List Node → Node → Option DiagnosticCode)
    (items : List Node) : FlagsOffenders offence? items (.list (flagEach offence? items)) := by
  have hitem : ∀ (index : Nat) (item : Node), items[index]? = some item →
      (Node.list (flagEach offence? items)).children[index]? =
        some (item.flagged (offence? (items.take index) item)) := by
    intro index item h
    rw [Node.children_list, flagEach, List.getElem?_mapIdx, h]
    rfl
  constructor
  · exact isIsomorphic_list_flagEach offence? items
  · rw [Node.children_list]
  · rw [Node.children_list, flagEach, List.length_mapIdx]
  · intro index item code h hcode
    have hflagged := hitem index item h
    rw [hcode] at hflagged
    exact ⟨_, hflagged, rfl, (item.conserves_withDiagnostic code).diagnostics⟩
  · intro index item h hnone
    have hflagged := hitem index item h
    rw [hnone] at hflagged
    exact hflagged

/-- Each check of order flags exactly the offenders. -/
theorem flags_offenders (items : List Node) (allowed : List Kind) :
    FlagsOffenders
        (ItemOrder.offenceBehind?
          { early := .requiredParameter, late := .defaultableParameter, last := .restParameter
            earlyCode := .requiredParamAfterDefaultable, afterLastCode := .paramAfterRestParam })
        items (ItemOrder.parameters.check (.list items)) ∧
      FlagsOffenders
        (ItemOrder.offenceBehind?
          { early := .positionalArgument, late := .namedArgument, last := .restArgument
            earlyCode := .positionalArgAfterNamedArg
            afterLastCode := .restArgFollowedByAnotherArg })
        items (ItemOrder.arguments.check (.list items)) ∧
      FlagsOffenders (Qualifiers.offenceBehind? allowed) items
        (Qualifiers.check allowed items) := by
  rw [ItemOrder.check_list _ (by decide) (by decide),
    ItemOrder.check_list _ (by decide) (by decide),
    Qualifiers.check_eq]
  exact ⟨flagsOffenders_flagEach _ items, flagsOffenders_flagEach _ items,
    flagsOffenders_flagEach _ items⟩

end TolerantSyntax
