import TolerantSyntax.Grammar.Bracketed.Lowering
import TolerantSyntax.Proofs.Twin.Lists
import TolerantSyntax.Proofs.Twin.Name

/-!
# Members that are twins

Members that are twins become twins in every grammar, and what they become suits the grammar: it is
of a kind that the grammar has, or it is flagged. A member that has been read in one grammar and
ends up in another is flagged as a whole, so it suits by its flag. Items of a list become items, and
the commas between them stay where they were.
-/

namespace TolerantSyntax.Bracketed

open Node (PartTwin Twins)
open ParseM (ItemTwins nameTwin_simpleName nameTwin_qualifiedName)

/-! ## Twins -/

mutual

/-- Members of one form, made of twins. -/
inductive Member.Twin : Member → Member → Prop where
  | literal {a b : Node} (h : a.Twin b) : Member.Twin (.literal a) (.literal b)
  | name {a b : Node} (h : a.Twin b) : Member.Twin (.name a) (.name b)
  | qualified {m m' c c' n n' : Node} (hm : m.Twin m') (hc : c.Twin c') (hn : n.Twin n') :
      Member.Twin (.qualified m c n) (.qualified m' c' n')
  | wildcard {a b : Node} (h : a.Twin b) : Member.Twin (.wildcard a) (.wildcard b)
  | rest {e e' n n' : Node} (he : e.Twin e') (hn : n.Twin n') :
      Member.Twin (.rest e n) (.rest e' n')
  | list {o o' c c' : Node} {last : Bool} {xs ys : List Item} (ho : o.Twin o')
      (hi : Item.Twins false last xs ys) (hl : xs = [] ∨ last = true) (hc : c.Twin c') :
      Member.Twin (.list o xs c) (.list o' ys c')
  | mapping {o o' c c' : Node} {last : Bool} {xs ys : List FieldItem} (ho : o.Twin o')
      (hi : FieldItem.Twins false last xs ys) (hl : xs = [] ∨ last = true) (hc : c.Twin c') :
      Member.Twin (.mapping o xs c) (.mapping o' ys c')
  | nil {o o' c c' : Node} (ho : o.Twin o') (hc : c.Twin c') : Member.Twin (.nil o c) (.nil o' c')
  | error {k k' o o' c c' : Node} {t t' : Option Node} {last : Bool} {xs ys : List ArgumentItem}
      (hk : k.Twin k') (ht : PartTwin t t') (ho : o.Twin o')
      (hi : ArgumentItem.Twins false last xs ys) (hl : xs = [] ∨ last = true) (hc : c.Twin c') :
      Member.Twin (.error k t o xs c) (.error k' t' o' ys c')
  | decided (grammar : Grammar) {a b : Node} (h : a.TwinIn (some grammar) b) :
      Member.Twin (.decided grammar a) (.decided grammar b)

/-- Items of a list and commas by turns, in pairs. The flags tell whether an item stands before them
and whether an item stands last. -/
inductive Item.Twins : Bool → Bool → List Item → List Item → Prop where
  | nil {last : Bool} : Item.Twins last last [] []
  | member {last : Bool} {m m' : Member} {xs ys : List Item} (hm : Member.Twin m m')
      (hx : Item.Twins true last xs ys) : Item.Twins false last (.member m :: xs) (.member m' :: ys)
  | separator {last : Bool} {a b : Node} {xs ys : List Item} (h : a.LeafTwin b)
      (hc : a.kind = .comma) (hx : Item.Twins false last xs ys) :
      Item.Twins true last (.separator a :: xs) (.separator b :: ys)

/-- Fields of a mapping and commas by turns, in pairs. -/
inductive FieldItem.Twins : Bool → Bool → List FieldItem → List FieldItem → Prop where
  | nil {last : Bool} : FieldItem.Twins last last [] []
  | name {last : Bool} {a b : Node} {xs ys : List FieldItem} (h : a.Twin b)
      (hx : FieldItem.Twins true last xs ys) :
      FieldItem.Twins false last (.field a none none :: xs) (.field b none none :: ys)
  | field {last : Bool} {n n' c c' : Node} {m m' : Member} {xs ys : List FieldItem}
      (hn : n.Twin n') (hc : c.Twin c') (hm : Member.Twin m m')
      (hx : FieldItem.Twins true last xs ys) :
      FieldItem.Twins false last (.field n (some c) (some m) :: xs)
        (.field n' (some c') (some m') :: ys)
  | rest {last : Bool} {e e' n n' : Node} {xs ys : List FieldItem} (he : e.Twin e')
      (hn : n.Twin n') (hx : FieldItem.Twins true last xs ys) :
      FieldItem.Twins false last (.rest e n :: xs) (.rest e' n' :: ys)
  | expression {last : Bool} {a b : Node} {xs ys : List FieldItem} (h : a.TwinIn none b)
      (hx : FieldItem.Twins true last xs ys) :
      FieldItem.Twins false last (.expression a :: xs) (.expression b :: ys)
  | separator {last : Bool} {a b : Node} {xs ys : List FieldItem} (h : a.LeafTwin b)
      (hc : a.kind = .comma) (hx : FieldItem.Twins false last xs ys) :
      FieldItem.Twins true last (.separator a :: xs) (.separator b :: ys)

/-- Arguments of an error and commas by turns, in pairs. -/
inductive ArgumentItem.Twins : Bool → Bool → List ArgumentItem → List ArgumentItem → Prop where
  | nil {last : Bool} : ArgumentItem.Twins last last [] []
  | positional {last : Bool} {m m' : Member} {xs ys : List ArgumentItem} (hm : Member.Twin m m')
      (hx : ArgumentItem.Twins true last xs ys) :
      ArgumentItem.Twins false last (.positional m :: xs) (.positional m' :: ys)
  | named {last : Bool} {n n' e e' : Node} {m m' : Member} {xs ys : List ArgumentItem}
      (hn : n.Twin n') (he : e.Twin e') (hm : Member.Twin m m')
      (hx : ArgumentItem.Twins true last xs ys) :
      ArgumentItem.Twins false last (.named n e m :: xs) (.named n' e' m' :: ys)
  | rest {last : Bool} {e e' n n' : Node} {xs ys : List ArgumentItem} (he : e.Twin e')
      (hn : n.Twin n') (hx : ArgumentItem.Twins true last xs ys) :
      ArgumentItem.Twins false last (.rest e n :: xs) (.rest e' n' :: ys)
  | separator {last : Bool} {a b : Node} {xs ys : List ArgumentItem} (h : a.LeafTwin b)
      (hc : a.kind = .comma) (hx : ArgumentItem.Twins false last xs ys) :
      ArgumentItem.Twins true last (.separator a :: xs) (.separator b :: ys)

end

section Append

variable {before middle last : Bool}

/-- Items are put behind those that have been read, if a comma or an item is due there. -/
theorem Item.Twins.append {xs ys xs' ys' : List Item} (h : Item.Twins before middle xs ys)
    (h' : Item.Twins middle last xs' ys') : Item.Twins before last (xs ++ xs') (ys ++ ys') := by
  induction xs generalizing before ys with
  | nil =>
    cases h
    exact h'
  | cons x xs ih =>
    cases h with
    | member hm hx => exact .member hm (ih hx)
    | separator ht hc hx => exact .separator ht hc (ih hx)

theorem FieldItem.Twins.append {xs ys xs' ys' : List FieldItem}
    (h : FieldItem.Twins before middle xs ys) (h' : FieldItem.Twins middle last xs' ys') :
    FieldItem.Twins before last (xs ++ xs') (ys ++ ys') := by
  induction xs generalizing before ys with
  | nil =>
    cases h
    exact h'
  | cons x xs ih =>
    cases h with
    | name ht hx => exact .name ht (ih hx)
    | field hn hc hm hx => exact .field hn hc hm (ih hx)
    | rest he hn hx => exact .rest he hn (ih hx)
    | expression ht hx => exact .expression ht (ih hx)
    | separator ht hc hx => exact .separator ht hc (ih hx)

theorem ArgumentItem.Twins.append {xs ys xs' ys' : List ArgumentItem}
    (h : ArgumentItem.Twins before middle xs ys) (h' : ArgumentItem.Twins middle last xs' ys') :
    ArgumentItem.Twins before last (xs ++ xs') (ys ++ ys') := by
  induction xs generalizing before ys with
  | nil =>
    cases h
    exact h'
  | cons x xs ih =>
    cases h with
    | positional hm hx => exact .positional hm (ih hx)
    | named hn he hm hx => exact .named hn he hm (ih hx)
    | rest he hn hx => exact .rest he hn (ih hx)
    | separator ht hc hx => exact .separator ht hc (ih hx)

end Append

/-! ## Deciding -/

mutual

/-- What a member decides of its list, its twin decides. -/
theorem Member.Twin.decides?_eq : {m m' : Member} → m.Twin m' → m.decides? = m'.decides?
  | _, _, .literal _ => rfl
  | _, _, .name _ => rfl
  | _, _, .qualified _ _ _ => rfl
  | _, _, .wildcard _ => rfl
  | _, _, .rest _ _ => rfl
  | _, _, .list _ hi _ _ => hi.decide?_eq
  | _, _, .mapping _ hi _ _ => hi.decide?_eq
  | _, _, .nil _ _ => rfl
  | _, _, .error _ _ _ hi _ _ => hi.decide?_eq
  | _, _, .decided _ _ => rfl

/-- The first member that decides is the same among twins. -/
theorem Item.Twins.decide?_eq : {before last : Bool} → {xs ys : List Item} →
    Item.Twins before last xs ys → Item.decide? xs = Item.decide? ys
  | _, _, _, _, .nil => rfl
  | _, _, _, _, .member hm hx => by
    rw [Item.decide?, Item.decide?, hm.decides?_eq, hx.decide?_eq]
  | _, _, _, _, .separator _ _ hx => hx.decide?_eq

theorem FieldItem.Twins.decide?_eq : {before last : Bool} → {xs ys : List FieldItem} →
    FieldItem.Twins before last xs ys → FieldItem.decide? xs = FieldItem.decide? ys
  | _, _, _, _, .nil => rfl
  | _, _, _, _, .name _ hx => hx.decide?_eq
  | _, _, _, _, .field _ _ hm hx => by
    rw [FieldItem.decide?, FieldItem.decide?, hm.decides?_eq, hx.decide?_eq]
  | _, _, _, _, .rest _ _ hx => hx.decide?_eq
  | _, _, _, _, .expression _ _ => rfl
  | _, _, _, _, .separator _ _ hx => hx.decide?_eq

theorem ArgumentItem.Twins.decide?_eq : {before last : Bool} → {xs ys : List ArgumentItem} →
    ArgumentItem.Twins before last xs ys → ArgumentItem.decide? xs = ArgumentItem.decide? ys
  | _, _, _, _, .nil => rfl
  | _, _, _, _, .positional hm hx => by
    rw [ArgumentItem.decide?, ArgumentItem.decide?, hm.decides?_eq, hx.decide?_eq]
  | _, _, _, _, .named _ _ hm hx => by
    rw [ArgumentItem.decide?, ArgumentItem.decide?, hm.decides?_eq, hx.decide?_eq]
  | _, _, _, _, .rest _ _ hx => hx.decide?_eq
  | _, _, _, _, .separator _ _ hx => hx.decide?_eq

end

/-- A twin may be a type as well. -/
theorem Member.Twin.mayBeType_eq {m m' : Member} (h : m.Twin m') : m.mayBeType = m'.mayBeType := by
  cases h with
  | decided grammar => cases grammar <;> rfl
  | _ => rfl

/-! ## Flagged members -/

section Flagged

variable {a b : Node} {grammar : Grammar} {last : Bool}

/-- What is flagged as no member of a grammar suits it. -/
theorem twinIn_flagged (h : a.Twin b) (hi : a.isToken = false) (hl : a.kind ≠ .list) :
    (a.withDiagnostic grammar.invalidCode).TwinIn (some grammar)
      (b.withDiagnostic grammar.invalidCode) := by
  refine ⟨h.withDiagnostic _, (Node.isToken_withDiagnostic a _).trans hi, fun _ hg => ?_⟩
  cases hg
  exact Grammar.suits_invalid hi hl

/-- A member of one grammar that is flagged in another. -/
theorem twinIn_flagged_of_twinIn {other : Grammar} (h : a.TwinIn (some other) b) :
    (a.withDiagnostic grammar.invalidCode).TwinIn (some grammar)
      (b.withDiagnostic grammar.invalidCode) :=
  twinIn_flagged h.toTwin h.interior h.suits.single

/-- A node of another grammar is flagged, and so it suits the grammar. -/
theorem twinIn_flaggedOf {kind : Kind} {xs ys : List Node} (hk : kind.itemsSlot? = none)
    (hl : kind ≠ .list) (h : Node.Twins xs ys) :
    ((Node.of kind xs).withDiagnostic grammar.invalidCode).TwinIn (some grammar)
      ((Node.of kind ys).withDiagnostic grammar.invalidCode) :=
  twinIn_flagged (.of hk h) rfl hl

/-- A list whose members suit it. -/
theorem twinIn_bracketed {kind : Kind} (hk : kind.memberGrammar? = some grammar)
    {outer : Grammar} (hg : outer.seats kind = true) {o o' c c' : Node} {xs ys : List Node}
    (ho : o.Twin o') (hx : ItemTwins (some grammar) false last xs ys) (hl : xs = [] ∨ last = true)
    (hc : c.Twin c') :
    (Node.of kind [o, .list xs, c]).TwinIn (some outer) (.of kind [o', .list ys, c']) :=
  .bracketed hk hg ho (.list hx.items) (hx.isItemList hl) (by simpa using hx.joins grammar rfl) hc

end Flagged

/-! ## Expressions -/

mutual

/-- A member as an expression: twins that suit the grammar of expressions. -/
theorem Member.Twin.toExpression : {m m' : Member} → m.Twin m' →
    m.toExpression.TwinIn (some .expression) m'.toExpression
  | _, _, .literal h => .of rfl rfl (.cons h .nil)
  | _, _, .name h => (nameTwin_simpleName h).2
  | _, _, .qualified hm hc hn => (nameTwin_qualifiedName hm hc hn).2
  | _, _, .wildcard h => twinIn_flaggedOf rfl (by decide) (.cons h .nil)
  | _, _, .rest he hn => .of rfl rfl (.cons he (.cons (nameTwin_simpleName hn).2.toTwin .nil))
  | _, _, .list ho hi hl hc =>
    twinIn_bracketed rfl rfl ho hi.toExpressions (hl.imp_left (congrArg Item.toExpressions)) hc
  | _, _, .mapping ho hi hl hc => by
    have hfields := hi.toFields
    have hitems := hfields.isItemList (hl.imp_left (congrArg FieldItem.toFields))
    exact .ofItems rfl rfl rfl rfl hitems (by simp [ho, Node.Twin.list hfields.items, hc])
  | _, _, .nil ho hc => .of rfl rfl (.cons ho (.cons hc .nil))
  | _, _, .error hk ht ho hi hl hc => by
    have harguments := hi.toArguments
    have hitems := harguments.isItemList (hl.imp_left (congrArg ArgumentItem.toArguments))
    have hchecked := ItemOrder.arguments.twin_check (Node.Twin.list harguments.items)
    exact .ofItems rfl rfl rfl rfl (ItemOrder.arguments.isItemList_check hitems)
      (by simp [hk, ht, ho, hchecked, hc])
  | _, _, .decided .expression h => h
  | _, _, .decided .type h => twinIn_flagged_of_twinIn h
  | _, _, .decided .pattern h => twinIn_flagged_of_twinIn h

/-- The members of a list as expressions, with the commas between them. -/
theorem Item.Twins.toExpressions : {before last : Bool} → {xs ys : List Item} →
    Item.Twins before last xs ys →
    ItemTwins (some .expression) before last (Item.toExpressions xs) (Item.toExpressions ys)
  | _, _, _, _, .nil => .nil
  | _, _, _, _, .member hm hx => .cons hm.toExpression hx.toExpressions
  | _, _, _, _, .separator h hc hx => .comma h hc hx.toExpressions

/-- The fields of a mapping constructor. -/
theorem FieldItem.Twins.toFields : {before last : Bool} → {xs ys : List FieldItem} →
    FieldItem.Twins before last xs ys →
    ItemTwins none before last (FieldItem.toFields xs) (FieldItem.toFields ys)
  | _, _, _, _, .nil => .nil
  | _, _, _, _, .name h hx => .cons (.ofSlots rfl rfl (by simp [h])) hx.toFields
  | _, _, _, _, .field hn hc hm hx => by
    have hvalue := hm.toExpression.toTwin
    exact .cons (.ofSlots rfl rfl (by simp [hn, hc, hvalue])) hx.toFields
  | _, _, _, _, .rest he hn hx => by
    have hname := (nameTwin_simpleName hn).2.toTwin
    exact .cons (.of rfl rfl (.cons he (.cons hname .nil))) hx.toFields
  | _, _, _, _, .expression h hx => .cons h hx.toFields
  | _, _, _, _, .separator h hc hx => .comma h hc hx.toFields

/-- The arguments of an error constructor. -/
theorem ArgumentItem.Twins.toArguments : {before last : Bool} → {xs ys : List ArgumentItem} →
    ArgumentItem.Twins before last xs ys →
    ItemTwins none before last (ArgumentItem.toArguments xs) (ArgumentItem.toArguments ys)
  | _, _, _, _, .nil => .nil
  | _, _, _, _, .positional hm hx => by
    have hvalue := hm.toExpression.toTwin
    exact .cons (.of rfl rfl (.cons hvalue .nil)) hx.toArguments
  | _, _, _, _, .named hn he hm hx => by
    have hname := (nameTwin_simpleName hn).2.toTwin
    have hvalue := hm.toExpression.toTwin
    exact .cons (.of rfl rfl (.cons hname (.cons he (.cons hvalue .nil)))) hx.toArguments
  | _, _, _, _, .rest he hn hx => by
    have hname := (nameTwin_simpleName hn).2.toTwin
    exact .cons (.of rfl rfl (.cons he (.cons hname .nil))) hx.toArguments
  | _, _, _, _, .separator h hc hx => .comma h hc hx.toArguments

end

/-! ## Binding patterns -/

mutual

/-- A member as a binding pattern. -/
theorem Member.Twin.toPattern : {m m' : Member} → m.Twin m' →
    m.toPattern.TwinIn (some .pattern) m'.toPattern
  | _, _, .literal h => twinIn_flaggedOf rfl (by decide) (.cons h .nil)
  | _, _, .name h => .of rfl rfl (.cons h .nil)
  | _, _, .qualified hm hc hn => twinIn_flagged_of_twinIn (nameTwin_qualifiedName hm hc hn).2
  | _, _, .wildcard h => .of rfl rfl (.cons h .nil)
  | _, _, .rest he hn => .of rfl rfl (.cons he (.cons hn .nil))
  | _, _, .list ho hi hl hc =>
    twinIn_bracketed rfl rfl ho hi.toPatterns (hl.imp_left (congrArg Item.toPatterns)) hc
  | _, _, .mapping ho hi hl hc => by
    have hfields := hi.toPatterns
    have hitems := hfields.isItemList (hl.imp_left (congrArg FieldItem.toPatterns))
    exact .ofItems rfl rfl rfl rfl hitems (by simp [ho, Node.Twin.list hfields.items, hc])
  | _, _, .nil ho hc => twinIn_flaggedOf rfl (by decide) (.cons ho (.cons hc .nil))
  | _, _, .error hk ht ho hi hl hc => by
    have harguments := hi.toPatterns
    have hitems := harguments.isItemList (hl.imp_left (congrArg ArgumentItem.toPatterns))
    exact .ofItems rfl rfl rfl rfl hitems
      (by simp [hk, ht, ho, Node.Twin.list harguments.items, hc])
  | _, _, .decided .pattern h => h
  | _, _, .decided .type h => twinIn_flagged_of_twinIn h
  | _, _, .decided .expression h => twinIn_flagged_of_twinIn h

/-- The members of a list as binding patterns, with the commas between them. -/
theorem Item.Twins.toPatterns : {before last : Bool} → {xs ys : List Item} →
    Item.Twins before last xs ys →
    ItemTwins (some .pattern) before last (Item.toPatterns xs) (Item.toPatterns ys)
  | _, _, _, _, .nil => .nil
  | _, _, _, _, .member hm hx => .cons hm.toPattern hx.toPatterns
  | _, _, _, _, .separator h hc hx => .comma h hc hx.toPatterns

theorem FieldItem.Twins.toPatterns : {before last : Bool} → {xs ys : List FieldItem} →
    FieldItem.Twins before last xs ys →
    ItemTwins none before last (FieldItem.toPatterns xs) (FieldItem.toPatterns ys)
  | _, _, _, _, .nil => .nil
  | _, _, _, _, .name h hx => by
    have hname := (nameTwin_simpleName h).2.toTwin
    exact .cons (.ofSlots rfl rfl (by simp [hname])) hx.toPatterns
  | _, _, _, _, .field hn hc hm hx => by
    have hname := (nameTwin_simpleName hn).2.toTwin
    have hvalue := hm.toPattern.toTwin
    exact .cons (.ofSlots rfl rfl (by simp [hname, hc, hvalue])) hx.toPatterns
  | _, _, _, _, .rest he hn hx => .cons (.of rfl rfl (.cons he (.cons hn .nil))) hx.toPatterns
  | _, _, _, _, .expression h hx => .cons (h.withDiagnostic _) hx.toPatterns
  | _, _, _, _, .separator h hc hx => .comma h hc hx.toPatterns

theorem ArgumentItem.Twins.toPatterns : {before last : Bool} → {xs ys : List ArgumentItem} →
    ArgumentItem.Twins before last xs ys →
    ItemTwins none before last (ArgumentItem.toPatterns xs) (ArgumentItem.toPatterns ys)
  | _, _, _, _, .nil => .nil
  | _, _, _, _, .positional hm hx => .cons hm.toPattern.item hx.toPatterns
  | _, _, _, _, .named hn he hm hx => by
    have hvalue := hm.toPattern.toTwin
    exact .cons (.of rfl rfl (.cons hn (.cons he (.cons hvalue .nil)))) hx.toPatterns
  | _, _, _, _, .rest he hn hx => .cons (.of rfl rfl (.cons he (.cons hn .nil))) hx.toPatterns
  | _, _, _, _, .separator h hc hx => .comma h hc hx.toPatterns

end

/-! ## Types -/

mutual

/-- A member as a type; what is none is flagged. -/
theorem Member.Twin.toType : {m m' : Member} → m.Twin m' →
    m.toType.TwinIn (some .type) m'.toType
  | _, _, .literal h => .of rfl rfl (.cons (.of rfl (.cons h .nil)) .nil)
  | _, _, .name h => (nameTwin_simpleName h).1
  | _, _, .qualified hm hc hn => (nameTwin_qualifiedName hm hc hn).1
  | _, _, .wildcard h => twinIn_flaggedOf rfl (by decide) (.cons h .nil)
  | _, _, .rest he hn => twinIn_flaggedOf rfl (by decide) (.cons he (.cons hn .nil))
  | _, _, .list ho hi hl hc =>
    twinIn_bracketed rfl rfl ho hi.toTypes (hl.imp_left (congrArg Item.toTypes)) hc
  | _, _, .mapping ho hi hl hc =>
    twinIn_flagged_of_twinIn (Member.Twin.mapping ho hi hl hc).toExpression
  | _, _, .nil ho hc => .of rfl rfl (.cons ho (.cons hc .nil))
  | _, _, .error hk ht ho hi hl hc =>
    twinIn_flagged_of_twinIn (Member.Twin.error hk ht ho hi hl hc).toExpression
  | _, _, .decided .type h => h
  | _, _, .decided .pattern h => twinIn_flagged_of_twinIn h
  | _, _, .decided .expression h => twinIn_flagged_of_twinIn h

/-- The members of a list as types, with the commas between them. -/
theorem Item.Twins.toTypes : {before last : Bool} → {xs ys : List Item} →
    Item.Twins before last xs ys →
    ItemTwins (some .type) before last (Item.toTypes xs) (Item.toTypes ys)
  | _, _, _, _, .nil => .nil
  | _, _, _, _, .member hm hx => .cons hm.toType hx.toTypes
  | _, _, _, _, .separator h hc hx => .comma h hc hx.toTypes

end

/-- Whatever grammar is decided on, a member suits it. -/
theorem Member.Twin.toNode {m m' : Member} (h : m.Twin m') (grammar : Grammar) :
    (m.toNode grammar).TwinIn (some grammar) (m'.toNode grammar) := by
  cases grammar with
  | type => exact h.toType
  | pattern => exact h.toPattern
  | expression => exact h.toExpression

/-! ## Tuple types as patterns -/

mutual

/-- The pattern that a tuple type spells does not depend on its layout. -/
theorem bare_patternOfTuple : (node : Node) →
    (patternOfTuple node).bare = (patternOfTuple node.bare).bare
  | .leaf token => (Node.bare_bare (.leaf token)).symm
  | .composite kind slots diagnostics => by
    have hslots := bareSlots_patternOfSlots slots
    have hcodes : (diagnostics.map Diagnostic.bare).map Diagnostic.bare =
        diagnostics.map Diagnostic.bare := by simp
    rw [Node.bare, patternOfTuple.eq_def,
      patternOfTuple.eq_def (.composite kind (Node.bareSlots slots) _)]
    dsimp only
    split
    iterate 3 rw [Node.bare, Node.bare, hslots, hcodes]
    · exact Node.bare_withDiagnostic (.composite kind slots diagnostics) _

/-- What becomes of the parts of a tuple type can be told without layout. -/
theorem bareSlots_patternOfSlots : (slots : List (Option Node)) →
    Node.bareSlots (patternOfSlots slots) =
      Node.bareSlots (patternOfSlots (Node.bareSlots slots))
  | [] => rfl
  | none :: rest => by
    simp [patternOfSlots, Node.bareSlots, bareSlots_patternOfSlots rest]
  | some node :: rest => by
    simp [patternOfSlots, Node.bareSlots, bareSlots_patternOfSlots rest, bare_patternOfTuple node]

end

/-- What suits a tuple type suits a list pattern as a pattern. -/
theorem suits_patternOfTuple {node : Node} (h : Grammar.type.Suits node) :
    Grammar.pattern.Suits (patternOfTuple node) := by
  cases node with
  | leaf token => cases h.interior
  | composite kind slots diagnostics =>
    rw [patternOfTuple.eq_def]
    dsimp only
    split
    · exact Grammar.suits_composite rfl
    · exact absurd rfl h.single
    · exact Grammar.suits_composite rfl
    · exact Grammar.pattern.suits_invalid rfl h.single

/-- A member of a tuple type is made into a member of a binding pattern. -/
theorem joins_patternOfTuple {node : Node} (h : Grammar.type.Joins node) :
    Grammar.pattern.Joins (patternOfTuple node) := by
  refine h.imp (fun hc => ?_) suits_patternOfTuple
  cases node with
  | leaf token => exact hc
  | composite kind slots diagnostics =>
    cases hc
    rfl

/-- Each part is turned into a pattern by itself. -/
theorem patternOfSlots_eq_map (slots : List (Option Node)) :
    patternOfSlots slots = slots.map (Option.map patternOfTuple) := by
  induction slots with
  | nil => rfl
  | cons slot rest ih => cases slot <;> simp [patternOfSlots, ih]

/-- The members of a list stay its members. -/
theorem list_patternOfTuple {list : Node} (h : list.kind = .list) :
    (patternOfTuple list).kind = .list ∧
      (patternOfTuple list).slots = list.slots.map (Option.map patternOfTuple) := by
  cases list with
  | leaf token => exact ⟨h, rfl⟩
  | composite kind slots diagnostics =>
    cases h
    exact ⟨rfl, patternOfSlots_eq_map slots⟩

theorem children_patternOfTuple {list : Node} (h : list.kind = .list) :
    (patternOfTuple list).children = list.children.map patternOfTuple := by
  rw [Node.children, (list_patternOfTuple h).2, List.filterMap_map, Node.children,
    List.map_filterMap]
  rfl

/-- Commas stay commas, and items stay items. -/
theorem leafKind?_patternOfTuple (node : Node) :
    (patternOfTuple node).leafKind? = node.leafKind? := by
  cases node with
  | leaf token => rfl
  | composite kind slots diagnostics =>
    rw [patternOfTuple.eq_def]
    dsimp only
    split <;> rfl

/-- The items of a list stay items, and the commas between them commas. -/
theorem isItemList_patternOfTuple {list : Node} (h : list.IsItemList) :
    (patternOfTuple list).IsItemList := by
  obtain ⟨hkind, hslots⟩ := list_patternOfTuple h.kind
  refine ⟨hkind, ?_, ?_, Node.alternates_of_leafKinds ?_ h.alternates⟩
  · rw [← Node.leafKind?_eq_none_iff, leafKind?_patternOfTuple, Node.leafKind?_eq_none_iff]
    exact h.interior
  · rw [hslots]
    simpa using h.filled
  · rw [children_patternOfTuple h.kind, List.map_map]
    exact List.map_congr_left fun item _ => leafKind?_patternOfTuple item

theorem getElem?_patternOfSlots {slots : List (Option Node)} {index : Nat} {part : Node}
    (h : slots[index]? = some (some part)) :
    (patternOfSlots slots)[index]? = some (some (patternOfTuple part)) := by
  rw [patternOfSlots_eq_map, List.getElem?_map, h]
  rfl

/-- The members of the pattern that a tuple type spells suit it, and are its items. -/
theorem inOrder_patternOfSlots {slots : List (Option Node)} {diagnostics : List Diagnostic}
    (h : (Node.composite .tupleTypeDescriptor slots diagnostics).InOrder) :
    (Node.composite .listBindingPattern (patternOfSlots slots) diagnostics).InOrder := by
  obtain ⟨hseats, hlists⟩ := h
  constructor
  · intro grammar hg _
    cases hg
    obtain ⟨list, hl, hlist, hmembers⟩ := hseats .type rfl rfl
    have hslot := getElem?_patternOfSlots (Option.join_eq_some_iff.mp hl)
    refine ⟨patternOfTuple list, Option.join_eq_some_iff.mpr hslot, (list_patternOfTuple hlist).1,
      fun _ hm => ?_⟩
    rw [children_patternOfTuple hlist] at hm
    obtain ⟨before, hbefore, rfl⟩ := List.mem_map.mp hm
    exact joins_patternOfTuple (hmembers before hbefore)
  · obtain ⟨list, hl, hitems⟩ := hlists 1 rfl rfl
    have hslot := getElem?_patternOfSlots (Option.join_eq_some_iff.mp hl)
    exact Node.listsItems_of_slot rfl hslot (isItemList_patternOfTuple hitems)

mutual

/-- The pattern that a tidy tuple type spells is tidy. -/
theorem tidy_patternOfTuple : (node : Node) → node.Tidy → (patternOfTuple node).Tidy
  | .leaf token, h => h
  | .composite kind slots diagnostics, h => by
    obtain ⟨hself, hslots⟩ := Node.tidy_composite.mp h
    have hparts := slotsTidy_patternOfSlots slots hslots
    rw [patternOfTuple.eq_def]
    dsimp only
    split
    · exact Node.tidy_composite.mpr ⟨inOrder_patternOfSlots hself, hparts⟩
    iterate 2 exact Node.tidy_composite.mpr ⟨Node.inOrder_of_slots rfl, hparts⟩
    · exact h.withDiagnostic _

/-- The parts stay tidy. -/
theorem slotsTidy_patternOfSlots : (slots : List (Option Node)) → Node.SlotsTidy slots →
    Node.SlotsTidy (patternOfSlots slots)
  | [], h => h
  | none :: rest, h => by
    have hrest := slotsTidy_patternOfSlots rest (Node.slotsTidy_cons.mp h).2
    exact Node.slotsTidy_cons.mpr ⟨fun _ hm => (nomatch hm), hrest⟩
  | some node :: rest, h => by
    obtain ⟨hnode, hrest⟩ := Node.slotsTidy_cons.mp h
    refine Node.slotsTidy_cons.mpr ⟨fun _ hm => ?_, slotsTidy_patternOfSlots rest hrest⟩
    exact Option.some.inj hm ▸ tidy_patternOfTuple node (hnode node rfl)

end

/-- Tuple types that are twins are turned into patterns that are. -/
theorem twin_patternOfTuple {a b : Node} (h : a.Twin b) :
    (patternOfTuple a).Twin (patternOfTuple b) :=
  ⟨by rw [bare_patternOfTuple, bare_patternOfTuple b, h.bare], tidy_patternOfTuple a h.tidy⟩

end TolerantSyntax.Bracketed
