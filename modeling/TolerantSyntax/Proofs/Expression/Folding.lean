import TolerantSyntax.Proofs.Expression.Extent
import TolerantSyntax.Proofs.Expression.Reading
import TolerantSyntax.Proofs.Parse.Operator

/-!
# Folding operators and suffixes

What a parse that faces words does with the operator or the suffix behind an operand: it is
recognised by its first words, and folded onto the operand together with what belongs to it.
Operands and items are read by rules; that these give the right trees is assumed here, and is what
an induction over expressions provides.
-/

namespace TolerantSyntax

open Word (Stops ahead symbol)

namespace Expression

theorem nodes_eq_map (list : List Expression) : nodes list = list.map node := by
  induction list with
  | nil => simp [nodes]
  | cons first rest ih => simp [nodes, ih]

theorem argumentNodes_eq_map (list : List Expression) :
    argumentNodes list = list.map fun e => .of .positionalArgument [e.node] := by
  induction list with
  | nil => simp [argumentNodes]
  | cons first rest ih => simp [argumentNodes, ih]

/-- Positional arguments with commas between them are nothing else. -/
theorem kind_of_mem_separated_argumentNodes {list : List Expression} {node : Node}
    (h : node ∈ separated (argumentNodes list)) :
    node.kind = .positionalArgument ∨ node.kind = .comma := by
  rw [argumentNodes_eq_map] at h
  cases list with
  | nil => cases h
  | cons first rest =>
    simp only [separated, List.map_cons, List.mem_cons, List.mem_flatMap, List.mem_map] at h
    rcases h with rfl | ⟨_, ⟨e, -, rfl⟩, rfl | rfl | h⟩
    · exact .inl rfl
    · exact .inr rfl
    · exact .inl rfl
    · cases h

end Expression

namespace ItemOrder

/-- Items of which none is a late or a last one are in order. -/
theorem flag_eq_self (order : ItemOrder) {items : List Node}
    (h : ∀ item ∈ items, item.kind ≠ order.late ∧ item.kind ≠ order.last) :
    order.flag false false items = items := by
  induction items with
  | nil => rfl
  | cons item rest ih =>
    obtain ⟨⟨hlate, hlast⟩, hrest⟩ := List.forall_mem_cons.mp h
    have hlate' : (item.kind == order.late) = false := beq_eq_false_iff_ne.mpr hlate
    have hlast' : (item.kind == order.last) = false := beq_eq_false_iff_ne.mpr hlast
    simp [flag, offence?, hlate', hlast', ih hrest]

end ItemOrder

namespace ParseM

section

variable {kinds : List Kind} {total : Nat} {floor level : Precedence} {flags : ExpressionFlags}
  {word : Word} {words rest : List Word} {lhs tree : Node} {list : List Expression}
  {name : Identifier}

/-! ## Recognising operators -/

theorem gives_operatorAhead? :
    GivesAmong kinds total operatorAhead? words words (· = Word.operatorAhead? words) := by
  refine gives_nextKind.bind fun first hfirst => (gives_kindAt 1).bind fun second hsecond => ?_
  subst hfirst hsecond
  unfold Word.operatorAhead?
  split
  · refine (gives_kindAt 2).map fun third hthird => ?_
    rw [hthird]
  · exact gives_pure rfl

/-- Where no operator of a compound assignment can begin, none is found. -/
theorem gives_compoundAhead? (h : (ahead words).isCompoundOperator = false) :
    GivesAmong kinds total compoundAhead? words words (· = none) := by
  refine (gives_of_looks looks_compoundAhead?).mono fun found hfound => ?_
  by_contra hsome
  rw [hfound (Option.isSome_iff_ne_none.mpr hsome)] at h
  cases h

/-- On the right of something an operator is taken for what it is, also before `=`; elsewhere it is
if it cannot be one of a compound assignment. -/
theorem gives_operatorAbove?
    (hplain : flags.isRhs = true ∨ (ahead words).isCompoundOperator = false) :
    GivesAmong kinds total (operatorAbove? floor flags) words words
      (· = (Word.operatorAhead? words).filter fun operator => !operator.1.le floor) := by
  have hfind : GivesAmong kinds total
      (do return (← operatorAhead?).filter fun operator => !operator.1.le floor) words words
      (· = (Word.operatorAhead? words).filter fun operator => !operator.1.le floor) :=
    gives_operatorAhead?.map fun _ h => h ▸ rfl
  rcases hplain with hrhs | hkind
  · refine (gives_of_looks looks_compoundAhead?).bind fun compound _ => ?_
    rw [hrhs]
    exact hfind
  · refine (gives_compoundAhead? hkind).bind fun compound hcompound => ?_
    rw [hcompound, Option.isSome_none, Bool.and_false]
    exact hfind

/-- One turn of folding. -/
def foldStep (floor : Precedence) (flags : ExpressionFlags) (lhs : Node) :
    ParseM (Node ⊕ Node) := do
  match ← operatorAbove? floor flags with
  | some (level, width) => return .inl (← foldOperator lhs level width flags)
  | none => return .inr lhs

/-- An operator above the floor is folded. -/
theorem gives_foldStep {width : Nat}
    (hplain : flags.isRhs = true ∨ (ahead words).isCompoundOperator = false)
    (hahead : Word.operatorAhead? words = some (level, width)) (habove : level.le floor = false)
    (hfold : GivesAmong kinds total (foldOperator lhs level width flags) words rest
      (Node.Renders · tree)) :
    GivesAmong kinds total (foldStep floor flags lhs) words rest fun r =>
      ∃ b, r = .inl b ∧ b.Renders tree := by
  refine (gives_operatorAbove? hplain).bind fun found hfound => ?_
  rw [hahead, Option.filter_some, if_pos (by simp [habove])] at hfound
  subst hfound
  exact hfold.map fun node hnode => ⟨node, rfl, hnode⟩

/-- Where no operator above the floor comes next, folding ends. -/
theorem gives_foldStep_of_stops
    (hplain : flags.isRhs = true ∨ (ahead words).isCompoundOperator = false)
    (hstops : Stops floor words) :
    GivesAmong kinds total (foldStep floor flags lhs) words words (· = .inr lhs) := by
  refine (gives_operatorAbove? hplain).bind fun found hfound => ?_
  have hnone : found = none := by
    rw [hfound, Option.filter_eq_none_iff]
    rintro ⟨level, width⟩ hmem
    have hle : level.le floor = true :=
      hstops level (Option.mem_map_of_mem (·.1) hmem)
    simp [hle]
  subst hnone
  exact gives_pure rfl

/-! ## Binary operators -/

/-- The words of an operator are read as its node. -/
theorem gives_operatorOf (operator : BinaryOperator) :
    GivesAmong kinds total (operatorOf operator.words.length) (operator.words ++ rest) rest
      (Node.Renders · operator.node) := by
  have hcomposite (hwidth : operator.words.length ≠ 1)
      (hnode : operator.node = .of .compositeOperator (operator.words.map Word.leaf))
      (htight : ∀ word ∈ operator.words.dropLast, word.tight = true) :
      GivesAmong kinds total (operatorOf operator.words.length) (operator.words ++ rest) rest
        (Node.Renders · operator.node) := by
    rw [operatorOf, if_neg (by simpa using hwidth), hnode]
    refine (gives_consumeTokens htight).map fun tokens ⟨htokens, htouch⟩ => ?_
    rw [if_pos htouch]
    refine Node.renders_of _ ?_
    rw [List.forall₂_map_left_iff, List.forall₂_map_right_iff]
    exact (htokens.imp fun _ _ h => Node.renders_leaf h).flip
  cases operator with
  | shiftRight => exact hcomposite (by decide) rfl (by decide)
  | shiftRightUnsigned => exact hcomposite (by decide) rfl (by decide)
  | _ => exact gives_consumeNode

/-- A binary operator is folded with its right operand, which is read above its floor. -/
theorem gives_foldOperator_binary {operator : BinaryOperator} {right : Expression}
    (hlhs : lhs.Renders tree)
    (hright : GivesAmong kinds total (expression operator.floor flags.nested.withoutActions)
      (right.words ++ rest) rest (Node.Renders · right.node)) :
    GivesAmong kinds total (foldOperator lhs operator.level operator.words.length flags)
      (operator.words ++ (right.words ++ rest)) rest
      (Node.Renders · (.of .binaryExpression [tree, operator.node, right.node])) := by
  have hbinary : GivesAmong kinds total (binaryAfter lhs operator.words.length operator.floor flags)
      (operator.words ++ (right.words ++ rest)) rest
      (Node.Renders · (.of .binaryExpression [tree, operator.node, right.node])) :=
    (gives_operatorOf operator).bind fun node hnode => hright.map fun rhs hrhs =>
      Node.renders_of _ (.cons hlhs (.cons hnode (.cons hrhs .nil)))
  refine gives_nextKind.bind fun kind hkind => ?_
  subst hkind
  cases operator <;> exact hbinary

/-! ## Lists -/

/-- What may close a list of expressions. -/
def IsCloser (close : Kind) : Prop :=
  close = .closeParen ∨ close = .closeBracket

/-- No operator can follow an item of a list. -/
theorem levelAhead?_of_endsItem {close : Kind} (hclose : IsCloser close)
    (h : EndsItem close rest) : Word.levelAhead? rest = none := by
  rcases h with h | h
  · simp [Word.levelAhead?, Word.operatorAhead?, h, Precedence.ofOperator?, Precedence.ofBinary?]
  · rcases hclose with rfl | rfl <;>
      simp [Word.levelAhead?, Word.operatorAhead?, h, Precedence.ofOperator?, Precedence.ofBinary?]

variable {context : Context} {close : Kind} {item : ListItem} {readItem : ParseM Node}
  {itemTree : Expression → Node}

/-- A list of expressions is read item by item up to its closing delimiter. -/
theorem gives_expressions (hclose : IsCloser close)
    (hitem : item = .expression ∨ item = .argument)
    (hread : GivesEachAmong kinds total readItem Expression.words itemTree close list) :
    GivesAmong kinds total (delimited context close item readItem)
      (Expression.listWords list ++ symbol close :: rest) rest fun r =>
        (∃ nodes, r.1 = .list nodes ∧
          List.Forall₂ Node.Renders nodes (Expression.separated (list.map itemTree))) ∧
        r.2.Renders (symbol close).leaf := by
  rw [Expression.listWords_eq_joined]
  refine gives_delimited ?_ (fun e _ rest => ?_) hread
  · rcases hitem with rfl | rfl <;> rcases hclose with rfl | rfl <;> decide
  · have hbegins := e.starts_words rest
    rcases hitem with rfl | rfl <;> exact Bool.or_eq_true_iff.mpr (.inl hbegins)

/-! ## Suffixes -/

theorem gives_arguments
    (hread : GivesEachAmong kinds total argument Expression.words
      (fun e => .of .positionalArgument [e.node]) .closeParen list) :
    GivesAmong kinds total arguments
      (symbol .openParen :: (Expression.listWords list ++ symbol .closeParen :: rest)) rest fun r =>
        r.1.Renders (symbol .openParen).leaf ∧
        r.2.1.Renders (.list (Expression.separated (Expression.argumentNodes list))) ∧
        r.2.2.Renders (symbol .closeParen).leaf := by
  refine (gives_expect _ rfl).bind fun opening hopening => ?_
  refine (gives_expressions (.inl rfl) (.inr rfl) hread).map
    fun ⟨items, close⟩ ⟨⟨nodes, hnodes, hrenders⟩, hclose⟩ => ⟨hopening, ?_, hclose⟩
  -- positional arguments are in order, so the check leaves them alone
  have hkinds : ∀ node ∈ nodes, node.kind = .positionalArgument ∨ node.kind = .comma := by
    intro node hnode
    have hmem : node.kind ∈ nodes.map Node.kind := List.mem_map_of_mem hnode
    rw [Node.map_kind_eq hrenders, ← Expression.argumentNodes_eq_map, List.mem_map] at hmem
    obtain ⟨tree, htree, hkind⟩ := hmem
    exact hkind ▸ Expression.kind_of_mem_separated_argumentNodes htree
  have hnodes : items = .list nodes := hnodes
  have hchecked : ItemOrder.arguments.check items = .list nodes := by
    rw [ItemOrder.check, hnodes, Node.children_list, ItemOrder.flag_eq_self]
    intro node hnode
    rcases hkinds node hnode with h | h <;> rw [h] <;> decide
  rw [hchecked, Expression.argumentNodes_eq_map]
  exact Node.renders_list hrenders

/-- `(arguments)` behind an operand. -/
theorem gives_callAfter (hlhs : lhs.Renders tree)
    (hread : GivesEachAmong kinds total argument Expression.words
      (fun e => .of .positionalArgument [e.node]) .closeParen list) :
    GivesAmong kinds total (callAfter lhs)
      (symbol .openParen :: (Expression.listWords list ++ symbol .closeParen :: rest)) rest
      (Node.Renders · (.of .functionCall [tree, (symbol .openParen).leaf,
        .list (Expression.separated (Expression.argumentNodes list)),
        (symbol .closeParen).leaf])) :=
  (gives_arguments hread).map fun _ ⟨hopening, hitems, hclose⟩ =>
    Node.renders_of _ (.cons hlhs (.cons hopening (.cons hitems (.cons hclose .nil))))

/-- `.name` behind an operand. -/
theorem gives_memberAfter_field (hlhs : lhs.Renders tree) (hrest : ahead rest ≠ .openParen) :
    GivesAmong kinds total (memberAfter lhs) (symbol .dot :: name.word :: rest) rest
      (Node.Renders · (.of .fieldAccess [tree, (symbol .dot).leaf, name.word.leaf])) := by
  refine gives_consumeNode.bind fun dot hdot => (gives_expect _ rfl).bind fun word hword => ?_
  refine (gives_isNext _).bind fun called hcalled => ?_
  have hcalled : called = false := hcalled.trans (beq_eq_false_iff_ne.mpr hrest)
  rw [hcalled]
  exact gives_pure (Node.renders_of _ (.cons hlhs (.cons hdot (.cons hword .nil))))

/-- `.name(arguments)` behind an operand. -/
theorem gives_memberAfter_method (hlhs : lhs.Renders tree)
    (hread : GivesEachAmong kinds total argument Expression.words
      (fun e => .of .positionalArgument [e.node]) .closeParen list) :
    GivesAmong kinds total (memberAfter lhs)
      (symbol .dot :: name.word :: symbol .openParen ::
        (Expression.listWords list ++ symbol .closeParen :: rest)) rest
      (Node.Renders · (.of .methodCall [tree, (symbol .dot).leaf, name.word.leaf,
        (symbol .openParen).leaf, .list (Expression.separated (Expression.argumentNodes list)),
        (symbol .closeParen).leaf])) := by
  refine gives_consumeNode.bind fun dot hdot => (gives_expect _ rfl).bind fun word hword => ?_
  refine (gives_isNext _).bind fun called hcalled => ?_
  subst hcalled
  exact (gives_arguments hread).map fun _ ⟨hopening, hitems, hclose⟩ =>
    Node.renders_of _ (.cons hlhs (.cons hdot (.cons hword (.cons hopening
      (.cons hitems (.cons hclose .nil))))))

/-- `[keys]` behind an operand. -/
theorem gives_indexAfter (hlhs : lhs.Renders tree)
    (hread : GivesEachAmong kinds total value Expression.words Expression.node .closeBracket list) :
    GivesAmong kinds total (indexAfter lhs)
      (symbol .openBracket :: (Expression.listWords list ++ symbol .closeBracket :: rest)) rest
      (Node.Renders · (.of .indexedExpression [tree, (symbol .openBracket).leaf,
        .list (Expression.separated (Expression.nodes list)), (symbol .closeBracket).leaf])) := by
  refine gives_consumeNode.bind fun opening hopening => ?_
  refine (gives_expressions (.inr rfl) (.inl rfl) hread).map
    fun ⟨keys, close⟩ ⟨⟨nodes, hnodes, hrenders⟩, hclose⟩ => ?_
  have hkeys : keys = .list nodes := hnodes
  rw [hkeys, Expression.nodes_eq_map]
  exact Node.renders_of _ (.cons hlhs (.cons hopening
    (.cons (Node.renders_list hrenders) (.cons hclose .nil))))

end

end ParseM

end TolerantSyntax
