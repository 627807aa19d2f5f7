import TolerantSyntax.Proofs.Type.Concrete

/-!
# Reading a type back

A type that is well-formed is read back from what it is written as, wherever a type definition puts
it, and nothing is wrong.

A type is read in three loops, one inside the other: suffixes, then `&`, then `|`. A turn of a loop
folds one suffix or operator onto what has been read. So `IsReadAt` says of a type that the loop of
some level has it in hand after its words, with turns still to come, and the induction goes down the
left edge of the type.
-/

namespace TolerantSyntax

open ParseM
open Word (ahead symbol)

/-! ## Levels -/

namespace TypeLevel

/-- Tokens that the loop of a level goes on with. -/
def continues : TypeLevel → List Kind
  | suffixed => [.openBracket, .questionMark]
  | intersection => [.bitwiseAnd]
  | union => [.pipe]

/-- Tokens that would go on a part of a type before the loop of the level gets to them. -/
def inside : TypeLevel → List Kind
  | suffixed => [.colon]
  | intersection => .colon :: suffixed.continues
  | union => .colon :: (suffixed.continues ++ intersection.continues)

/-- Tokens that would go on a type of the level. -/
def through (level : TypeLevel) : List Kind :=
  level.inside ++ level.continues

end TypeLevel

namespace ParseM

/-! ## Loops -/

/-- The right operand of `|`. -/
def unionOperand (options : TypeOptions) : ParseM Node := do
  intersectionsAfter (← typeOperand options) options

/-- A turn of the loop of a level behind a type. -/
def typeStep (options : TypeOptions) : TypeLevel → Node → ParseM (Node ⊕ Node)
  | .suffixed, type => do
    match ← nextKind with
    | .openBracket =>
      if options.binding && Lookahead.bindsBracket (← upcoming) then return .inr type
      return .inl (.of .arrayTypeDescriptor [type, ← arrayDimension])
    | .questionMark =>
      if options.typeTest && Starts.expression (← kindAt 1) then return .inr type
      return .inl (.of .optionalTypeDescriptor [type, ← consumeNode])
    | _ => return .inr type
  | .intersection, type => do
    if ← isNext .bitwiseAnd then
      let operator ← consumeNode
      return .inl (.of .intersectionTypeDescriptor [type, operator, ← typeOperand options])
    else return .inr type
  | .union, type => do
    if ← isNext .pipe then
      let operator ← consumeNode
      return .inl (.of .unionTypeDescriptor [type, operator, ← unionOperand options])
    else return .inr type

/-- A type with its suffixes; `kind` is what the next token is taken for. -/
def suffixedType (options : TypeOptions) (context : Context) (kind : Kind) : ParseM Node := do
  loop (← parseAs (.primaryType context) kind) (typeStep options .suffixed)

/-- A type with its suffixes and intersections. -/
def intersectionType (options : TypeOptions) (context : Context) (kind : Kind) : ParseM Node := do
  loop (← suffixedType options context kind) (typeStep options .intersection)

/-- A type with its suffixes, intersections and unions. -/
def unionType (options : TypeOptions) (context : Context) (kind : Kind) : ParseM Node := do
  loop (← intersectionType options context kind) (typeStep options .union)

/-- A type up to a level. -/
def typeUpTo (options : TypeOptions) (context : Context) (kind : Kind) : TypeLevel → ParseM Node
  | .suffixed => suffixedType options context kind
  | .intersection => intersectionType options context kind
  | .union => unionType options context kind

theorem typeOperand_eq (options : TypeOptions) :
    typeOperand options = nextKind >>= fun kind =>
      typeUpTo options .typeDescriptor kind .suffixed := by
  rw [typeOperand, primaryType, parse, bind_assoc]
  rfl

theorem unionOperand_eq (options : TypeOptions) :
    unionOperand options = nextKind >>= fun kind =>
      typeUpTo options .typeDescriptor kind .intersection := by
  rw [unionOperand, typeOperand_eq, bind_assoc]
  rfl

theorem unionsAfter_eq (type : Node) (options : TypeOptions) :
    unionsAfter type options = loop type (typeStep options .union) := by
  refine congrArg (loop type) (funext fun type => ?_)
  simp only [typeStep, unionOperand, bind_assoc]

/-- A type in any position is read up to the last level. -/
theorem typeDescriptorAs_eq (kind : Kind) (context : Context) :
    typeDescriptorAs kind context = typeUpTo (.ofContext context) context kind .union := by
  have hafter (primary : Node) (options : TypeOptions) :
      typeAfter primary options =
        loop primary (typeStep options .suffixed) >>= fun suffixed =>
          loop suffixed (typeStep options .intersection) >>= fun intersection =>
            loop intersection (typeStep options .union) := by
    simp only [← unionsAfter_eq]
    rfl
  simp only [typeDescriptorAs, hafter, typeUpTo, unionType, intersectionType, suffixedType,
    bind_assoc]

variable {kinds : List Kind} {total : Nat} {words rest : List Word} {level : TypeLevel}
  {type : Node}

/-- The loop of a level ends where none of its tokens comes next. -/
theorem gives_typeStep_of_notMem {options : TypeOptions} (h : ahead rest ∉ level.continues) :
    GivesAmong kinds total (typeStep options level type) rest rest
      fun r => ∃ b, r = .inr b ∧ b = type := by
  cases level with
  | suffixed =>
    refine gives_nextKind.bind fun kind hkind => ?_
    subst hkind
    split
    · next hbracket => exact absurd (by rw [hbracket]; decide) h
    · next hquestion => exact absurd (by rw [hquestion]; decide) h
    · exact gives_pure ⟨type, rfl, rfl⟩
  | intersection | union =>
    refine (gives_isNext _).bind fun goesOn hgoesOn => ?_
    rw [beq_eq_false_iff_ne.mpr fun heq => h (by rw [heq]; decide)] at hgoesOn
    subst hgoesOn
    exact gives_pure ⟨type, rfl, rfl⟩

end ParseM

/-! ## Positions -/

/-- Tokens behind a bracket that make a binding pattern of it where a binding follows the type. -/
def TypeOptions.binders : List Kind :=
  [.equal, .semicolon, .inKeyword]

/-- Where the type stands, what follows it makes no other thing of its suffixes. -/
structure TypeOptions.Admits (options : TypeOptions) (rest : List Word) : Prop where
  optional : options.typeTest = false
  array : options.binding = true → ahead rest ∉ binders

/-- In most positions a suffix is always one. -/
theorem TypeOptions.Admits.of_eq {options : TypeOptions} {rest : List Word} (h : options = {}) :
    options.Admits rest := by
  subst h
  exact ⟨rfl, fun h => absurd h Bool.false_ne_true⟩

/-! ## Reading on -/

namespace ConcreteType

/-- After the words of the type, the loop of the level has the tree of the type in hand. -/
def IsReadAt (level : TypeLevel) (type : ConcreteType) : Prop :=
  ∀ (kinds : List Kind) (total : Nat) (options : TypeOptions) (context : Context)
    (rest final : List Word) (good : Node → Prop), options.Admits rest →
    ahead rest ∉ level.inside →
    (∀ node : Node, node.Renders type.node → ∀ turns,
      GivesAmong kinds total (repeatUpTo (typeStep options level) turns node) rest final good) →
    GivesAmong kinds total (typeUpTo options context (ahead (type.words ++ rest)) level)
      (type.words ++ rest) final good

variable {kinds : List Kind} {total : Nat} {options : TypeOptions} {context : Context}
  {rest : List Word} {level : TypeLevel} {type target left right : ConcreteType}
  {members : List ConcreteType}

/-- A type is read on its own if nothing behind it goes on it. -/
theorem IsReadAt.whole (h : type.IsReadAt level) (hadmits : options.Admits rest)
    (hends : ahead rest ∉ level.through) :
    GivesAmong kinds total (typeUpTo options context (ahead (type.words ++ rest)) level)
      (type.words ++ rest) rest (Node.Renders · type.node) := by
  rw [TypeLevel.through, List.mem_append, not_or] at hends
  refine h _ _ _ _ _ _ _ hadmits hends.1 fun node hnode turns => gives_lastTurn ?_ turns
  exact (gives_typeStep_of_notMem hends.2).mono fun r hr => by
    obtain ⟨b, rfl, rfl⟩ := hr
    exact ⟨_, rfl, hnode⟩

/-- What the loop for suffixes reads, the loop for `&` gets from it. -/
theorem IsReadAt.intersection (h : type.IsReadAt .suffixed) : type.IsReadAt .intersection :=
  fun _ _ _ _ _ _ _ hadmits hends hmore =>
    (h.whole hadmits hends).bind fun node hnode => gives_loop (hmore node hnode)

/-- What the loop for `&` reads, the loop for `|` gets from it. -/
theorem IsReadAt.union (h : type.IsReadAt .intersection) : type.IsReadAt .union :=
  fun _ _ _ _ _ _ _ hadmits hends hmore =>
    (h.whole hadmits hends).bind fun node hnode => gives_loop (hmore node hnode)

/-- A type that a loop reads is what the loops behind it read. -/
theorem IsReadAt.ofLevel (h : type.IsReadAt type.level) :
    (type.level ≠ .union → type.IsReadAt .intersection) ∧ type.IsReadAt .union := by
  cases hlevel : type.level with
  | suffixed =>
    rw [hlevel] at h
    exact ⟨fun _ => h.intersection, h.intersection.union⟩
  | intersection =>
    rw [hlevel] at h
    exact ⟨fun _ => h, h.union⟩
  | union =>
    rw [hlevel] at h
    exact ⟨fun hne => absurd rfl hne, h⟩

/-- A type in a position of its own is read if nothing behind it goes on it. -/
theorem IsReadAt.gives_typeDescriptor (h : type.IsReadAt .union)
    (hadmits : (TypeOptions.ofContext context).Admits rest)
    (hends : ahead rest ∉ TypeLevel.union.through) :
    GivesAmong kinds total (typeDescriptor context) (type.words ++ rest) rest
      (Node.Renders · type.node) := by
  refine gives_resume (gives_parseAs ?_)
  show GivesAmong kinds total (typeDescriptorAs _ context) _ _ _
  rw [typeDescriptorAs_eq]
  exact h.whole hadmits hends

/-- A type without suffixes is read by the rule for primary types. -/
theorem isReadAt_of_primary
    (h : ∀ {kinds : List Kind} {total : Nat} {context : Context} {rest : List Word},
      ahead rest ≠ .colon →
      GivesAmong kinds total (primaryTypeAs (ahead (type.words ++ rest)) context)
        (type.words ++ rest) rest (Node.Renders · type.node)) : type.IsReadAt .suffixed :=
  fun _ _ _ _ _ _ _ _ hends hmore =>
    (gives_parseAs (h (List.ne_of_not_mem_cons hends))).bind fun node hnode =>
      gives_loop (hmore node hnode)

/-- A type that goes on from another one is read by folding onto that one. -/
theorem isReadAt_of_suffix {suffix : List Word} (hwords : type.words = target.words ++ suffix)
    (htarget : target.IsReadAt level)
    (hbegins : ∀ rest, ahead (suffix ++ rest) ∉ level.inside ++ TypeOptions.binders)
    (hstep : ∀ {kinds : List Kind} {total : Nat} {options : TypeOptions} {rest : List Word}
      {lhs : Node}, options.Admits rest → ahead rest ∉ level.inside → lhs.Renders target.node →
      GivesAmong kinds total (typeStep options level lhs) (suffix ++ rest) rest
        fun r => ∃ b, r = .inl b ∧ b.Renders type.node) : type.IsReadAt level := by
  intro kinds total options context rest final good hadmits hends hmore
  obtain ⟨hinside, hbinders⟩ := not_or.mp fun h => hbegins rest (List.mem_append.mpr h)
  rw [hwords, List.append_assoc]
  exact htarget _ _ _ _ _ _ _ ⟨hadmits.optional, fun _ => hbinders⟩ hinside
    fun node hnode turns => gives_turn _ _ (hstep hadmits hends hnode) hmore turns

/-! ## Types without operators -/

theorem isReadAt_keyword (name : TypeKeyword) : (keyword name).IsReadAt .suffixed := by
  refine isReadAt_of_primary fun {kinds total context rest} _ => ?_
  have hkeywords : ∀ kind ∈ Kind.simpleTypeKeywords, kind.isParameterizedTypeKeyword = false := by
    decide
  have hparameterized := hkeywords _ (List.contains_iff_mem.mp name.isSimple)
  show GivesAmong kinds total (primaryTypeAs name.kind context) _ _ _
  unfold primaryTypeAs
  rw [hparameterized, if_neg Bool.false_ne_true, if_pos name.isSimple]
  exact gives_consumeNode.map fun node hnode => Node.renders_of _ (.cons hnode .nil)

/-- A name is that of a module if a colon and another name follow. -/
theorem isReadAt_named (name : Identifier) : (named name).IsReadAt .suffixed := by
  refine isReadAt_of_primary fun {kinds total context rest} hcolon => ?_
  refine (gives_expect _ rfl).bind fun word hword => gives_isColonName.bind fun colon h => ?_
  have hplain : colon = false := by
    have hne : (ahead rest == .colon) = false := beq_eq_false_iff_ne.mpr hcolon
    rw [h, show [].append rest = rest from rfl, hne, Bool.false_and]
  subst hplain
  exact gives_pure (Node.renders_of _ (.cons hword .nil))

theorem isReadAt_qualified (module name : Identifier) :
    (qualified module name).IsReadAt .suffixed := by
  refine isReadAt_of_primary fun {kinds total context rest} _ => ?_
  refine (gives_expect _ rfl).bind fun first hfirst => gives_isColonName.bind fun qualified h => ?_
  subst h
  refine gives_consumeNode.bind fun colon hcolon => gives_consumeNode.map fun second hsecond => ?_
  exact Node.renders_of _ (.cons hfirst (.cons hcolon (.cons hsecond .nil)))

theorem isReadAt_map {parameter : ConcreteType} (h : parameter.IsReadAt .union) :
    (map parameter).IsReadAt .suffixed := by
  refine isReadAt_of_primary fun {kinds total context rest} _ => ?_
  rw [words, List.cons_append, List.cons_append, List.append_assoc, List.singleton_append]
  have hparameter : GivesAmong kinds total typeParameter
      (symbol .lt :: (parameter.words ++ symbol .gt :: rest)) rest
      (Node.Renders ·
        (.of .typeParameter [(symbol .lt).leaf, parameter.node, (symbol .gt).leaf])) := by
    refine GivesAmong.within (gives_consumeNode.bind fun opening hopening => ?_) _
    refine (h.gives_typeDescriptor (.of_eq rfl)
      (show Kind.gt ∉ _ by decide)).bind fun type htype => ?_
    refine (gives_expect _ rfl).map fun close hclose => ?_
    exact Node.renders_of _ (.cons hopening (.cons htype (.cons hclose .nil)))
  have hslot : GivesAmong kinds total (ifNext .lt typeParameter)
      (symbol .lt :: (parameter.words ++ symbol .gt :: rest)) rest
      (Option.Rel Node.Renders · (some (.of .typeParameter
        [(symbol .lt).leaf, parameter.node, (symbol .gt).leaf]))) := by
    refine (gives_isNext _).bind fun found hfound => ?_
    subst hfound
    exact hparameter.functor fun _ h => .some h
  refine gives_consumeNode.bind fun word hword => hslot.map fun slot hslot => ?_
  exact Node.renders_ofSlots _ (.cons (.some hword) (.cons hslot .nil))

theorem isReadAt_braced {inner : ConcreteType} (h : inner.IsReadAt .union) :
    (braced inner).IsReadAt .suffixed := by
  refine isReadAt_of_primary fun {kinds total context rest} _ => ?_
  rw [words, List.cons_append, List.append_assoc, List.singleton_append]
  refine GivesAmong.within (gives_consumeNode.bind fun opening hopening => ?_) _
  refine (gives_isNext _).bind fun closed hclosed => ?_
  have hopen : closed = false := by
    rw [hclosed, beq_eq_false_iff_ne]
    intro heq
    have hstarts := inner.starts_words (symbol .closeParen :: rest)
    rw [heq] at hstarts
    exact absurd hstarts (by decide)
  subst hopen
  refine (h.gives_typeDescriptor (.of_eq rfl)
    (show Kind.closeParen ∉ _ by decide)).bind fun type htype => ?_
  refine (gives_expect _ rfl).map fun close hclose => ?_
  exact Node.renders_of _ (.cons hopening (.cons htype (.cons hclose .nil)))

theorem givesEach_tupleMember (h : ∀ member ∈ members, member.IsReadAt .union) :
    GivesEachAmong kinds total tupleMember words node .closeBracket members := by
  intro member hmember rest hends
  have hrest : ahead rest ∉ TypeLevel.union.through := by
    rcases hends with hends | hends <;> rw [hends] <;> decide
  refine ((h member hmember).gives_typeDescriptor (.of_eq rfl) hrest).bind fun type htype => ?_
  refine (gives_isNext _).bind fun more hmore => ?_
  have hlast : more = false := by
    rcases hends with hends | hends <;> rw [hmore, hends] <;> rfl
  subst hlast
  exact gives_pure htype

theorem isReadAt_tuple (h : ∀ member ∈ members, member.IsReadAt .union) :
    (tuple members).IsReadAt .suffixed := by
  refine isReadAt_of_primary fun {kinds total context rest} _ => ?_
  rw [words_tuple, List.cons_append, List.append_assoc, node, nodes_eq_map]
  refine gives_consumeNode.bind fun opening hopening => ?_
  have hlist : GivesAmong kinds total
      (delimited .tupleTypeDescriptor .closeBracket .typeDescriptor tupleMember)
      (Word.joined words members ++ ([symbol .closeBracket] ++ rest)) rest _ :=
    gives_delimited (by decide) (fun member _ => member.starts_words) (givesEach_tupleMember h)
  refine hlist.bind fun read hread => gives_pure ?_
  obtain ⟨⟨items, hitems, hrenders⟩, hclose⟩ := hread
  rw [hitems]
  exact Node.renders_of _ (.cons hopening (.cons (Node.renders_list hrenders) (.cons hclose .nil)))

/-! ## Suffixes -/

theorem isReadAt_optional (h : target.IsReadAt .suffixed) :
    (optional target).IsReadAt .suffixed := by
  refine isReadAt_of_suffix rfl h (fun _ => show Kind.questionMark ∉ _ by decide)
    fun {kinds total options rest lhs} hadmits _ hlhs => ?_
  refine gives_nextKind.bind fun kind hkind => ?_
  subst hkind
  refine (gives_kindAt 1).bind fun second _ => ?_
  rw [hadmits.optional, Bool.false_and, if_neg Bool.false_ne_true]
  exact gives_consumeNode.map fun question hquestion =>
    ⟨_, rfl, Node.renders_of _ (.cons hlhs (.cons hquestion .nil))⟩

/-- Brackets with an integer or nothing between them are a dimension. -/
theorem gives_arrayDimension (length : Option Numeral) :
    GivesAmong kinds total arrayDimension
      (symbol .openBracket :: (lengthWords length ++ symbol .closeBracket :: rest)) rest
      (Node.Renders · (dimension length)) := by
  refine GivesAmong.within (gives_consumeNode.bind fun opening hopening => ?_) _
  refine gives_nextKind.bind fun kind hkind => ?_
  extract_lets finish
  have hfinish {slot : Option Node}
      (h : Option.Rel Node.Renders slot
        (length.map fun value => .of .basicLiteral [value.word.leaf])) :
      GivesAmong kinds total (finish slot) (symbol .closeBracket :: rest) rest
        (Node.Renders · (dimension length)) :=
    (gives_expect _ rfl).map fun close hclose =>
      Node.renders_ofSlots _ (.cons (.some hopening) (.cons h (.cons (.some hclose) .nil)))
  cases length with
  | none =>
    subst hkind
    exact hfinish .none
  | some value =>
    have hnumeral : kind ≠ .asterisk ∧ kind.isNumericLiteral = true := by
      rw [show kind = value.kind from hkind]
      obtain ⟨kind, text, h⟩ := value
      cases h
      · exact ⟨Kind.noConfusion, rfl⟩
      · exact ⟨Kind.noConfusion, rfl⟩
    rw [if_neg (by simpa using hnumeral.1), if_pos hnumeral.2]
    have hliteral : GivesAmong kinds total basicLiteral
        (value.word :: symbol .closeBracket :: rest) (symbol .closeBracket :: rest)
        (Node.Renders · (.of .basicLiteral [value.word.leaf])) :=
      gives_consumeNode.map fun token htoken => Node.renders_of _ (.cons htoken .nil)
    have hslot : GivesAmong kinds total (some <$> basicLiteral)
        (value.word :: symbol .closeBracket :: rest) (symbol .closeBracket :: rest)
        (Option.Rel Node.Renders · (some (.of .basicLiteral [value.word.leaf]))) :=
      hliteral.functor fun node hnode => .some hnode
    exact hslot.bind fun slot hslot => hfinish hslot

/-- A dimension is no binding pattern if nothing behind it makes one of it. -/
theorem bindsBracket_dimension (length : Option Numeral) {count : Nat}
    (h : ahead rest ∉ TypeOptions.binders) :
    Lookahead.bindsBracket
      ((symbol .openBracket :: (lengthWords length ++ ([symbol .closeBracket] ++ rest))).map
        Word.kind ++ List.replicate (count + 1) .eof) = false := by
  cases length with
  | none => rfl
  | some value =>
    obtain ⟨kind, text, hvalue⟩ := value
    obtain ⟨more, hmore⟩ := List.head?_eq_some_iff.mp (Word.head?_upcoming rest count)
    simp only [TypeOptions.binders, List.mem_cons, List.not_mem_nil, or_false, not_or] at h
    have hafter : Lookahead.afterClose? (.openBracket :: kind :: .closeBracket ::
        (rest.map Word.kind ++ List.replicate (count + 1) .eof)) = some (ahead rest :: more) := by
      rw [hmore]
      cases hvalue <;> rfl
    show Lookahead.bindsBracket (.openBracket :: kind :: .closeBracket ::
      (rest.map Word.kind ++ List.replicate (count + 1) .eof)) = false
    unfold Lookahead.bindsBracket
    split
    · rfl
    · rw [hafter]
      split
      · next heq => exact absurd (List.cons.inj (Option.some.inj heq)).1 h.1
      · next heq => exact absurd (List.cons.inj (Option.some.inj heq)).1 h.2.1
      · next heq => exact absurd (List.cons.inj (Option.some.inj heq)).1 h.2.2
      · rfl

theorem isReadAt_array (length : Option Numeral) (h : target.IsReadAt .suffixed) :
    (array target length).IsReadAt .suffixed := by
  refine isReadAt_of_suffix rfl h (fun _ => show Kind.openBracket ∉ _ by decide)
    fun {kinds total options rest lhs} hadmits _ hlhs => ?_
  rw [List.cons_append, List.append_assoc]
  refine gives_nextKind.bind fun kind hkind => ?_
  subst hkind
  refine gives_upcoming.bind fun upcoming hupcoming => ?_
  obtain ⟨count, hupcoming⟩ := hupcoming
  have hdimension : (options.binding && Lookahead.bindsBracket upcoming) = false := by
    cases hbinding : options.binding with
    | false => rfl
    | true =>
      rw [hupcoming]
      exact bindsBracket_dimension length (hadmits.array hbinding)
  rw [hdimension, if_neg Bool.false_ne_true]
  exact (gives_arrayDimension length).map fun node hnode =>
    ⟨_, rfl, Node.renders_of _ (.cons hlhs (.cons hnode .nil))⟩

/-! ## Operators -/

theorem isReadAt_intersection (hl : left.IsReadAt .intersection) (hr : right.IsReadAt .suffixed) :
    (intersection left right).IsReadAt .intersection := by
  refine isReadAt_of_suffix rfl hl (fun _ => show Kind.bitwiseAnd ∉ _ by decide)
    fun {kinds total options rest lhs} hadmits hends hlhs => ?_
  refine (gives_isNext _).bind fun found hfound => ?_
  subst hfound
  refine gives_consumeNode.bind fun operator hoperator => ?_
  rw [typeOperand_eq]
  have hright : GivesAmong kinds total (nextKind >>= (typeUpTo options .typeDescriptor · .suffixed))
      (right.words ++ rest) rest (Node.Renders · right.node) :=
    gives_nextKind.bind fun kind hkind => hkind ▸ hr.whole hadmits hends
  exact hright.map fun node hnode =>
    ⟨_, rfl, Node.renders_of _ (.cons hlhs (.cons hoperator (.cons hnode .nil)))⟩

theorem isReadAt_union (hl : left.IsReadAt .union) (hr : right.IsReadAt .intersection) :
    (union left right).IsReadAt .union := by
  refine isReadAt_of_suffix rfl hl (fun _ => show Kind.pipe ∉ _ by decide)
    fun {kinds total options rest lhs} hadmits hends hlhs => ?_
  refine (gives_isNext _).bind fun found hfound => ?_
  subst hfound
  refine gives_consumeNode.bind fun operator hoperator => ?_
  rw [unionOperand_eq]
  have hright : GivesAmong kinds total
      (nextKind >>= (typeUpTo options .typeDescriptor · .intersection)) (right.words ++ rest) rest
      (Node.Renders · right.node) :=
    gives_nextKind.bind fun kind hkind => hkind ▸ hr.whole hadmits hends
  exact hright.map fun node hnode =>
    ⟨_, rfl, Node.renders_of _ (.cons hlhs (.cons hoperator (.cons hnode .nil)))⟩

/-- **Every well-formed type is read as its tree.** -/
theorem isReadAt_level (type : ConcreteType) (hwf : type.WellFormed) :
    type.IsReadAt type.level := by
  induction type using induct with
  | keyword name => exact isReadAt_keyword name
  | named name => exact isReadAt_named name
  | qualified module name => exact isReadAt_qualified module name
  | optional target ih => exact isReadAt_optional (hwf.2 ▸ ih hwf.1)
  | array target length ih => exact isReadAt_array length (hwf.2 ▸ ih hwf.1)
  | map parameter ih => exact isReadAt_map (ih hwf).ofLevel.2
  | braced inner ih => exact isReadAt_braced (ih hwf).ofLevel.2
  | tuple members ih =>
    have hall := (allWellFormed_iff members).mp hwf
    exact isReadAt_tuple fun member hmember => (ih member hmember (hall member hmember)).ofLevel.2
  | intersection left right ihl ihr =>
    obtain ⟨hleft, hright, hunion, hsuffixed⟩ := hwf
    exact isReadAt_intersection ((ihl hleft).ofLevel.1 hunion) (hsuffixed ▸ ihr hright)
  | union left right ihl ihr =>
    obtain ⟨hleft, hright, hunion⟩ := hwf
    exact isReadAt_union (ihl hleft).ofLevel.2 ((ihr hright).ofLevel.1 hunion)

/-! ## Definitions -/

/-- The words of the definition of a type. -/
def definitionWords (name : Identifier) (type : ConcreteType) : List Word :=
  Word.keyword .typeKeyword :: name.word :: (type.words ++ [symbol .semicolon])

/-- The tree of the definition of a type. -/
def definitionNode (name : Identifier) (type : ConcreteType) : Node :=
  .ofSlots .typeDefinition
    [none, some (.list []), some (Word.keyword .typeKeyword).leaf, some name.word.leaf,
      some type.node, some (symbol .semicolon).leaf]

theorem isTypeWord_definitionWords (name : Identifier) (type : ConcreteType) :
    ∀ word ∈ definitionWords name type, word.IsTypeWord :=
  List.forall_mem_cons.mpr ⟨.keyword (by decide), List.forall_mem_cons.mpr ⟨.name name,
    List.forall_mem_append.mpr
      ⟨type.isTypeWord_words, List.forall_mem_singleton.mpr (.symbol (by decide))⟩⟩⟩

/-- The words of a definition are written around what the type is written as. -/
theorem write_definitionWords (touching : Bool) (name : Identifier) (type : ConcreteType) :
    String.ofList (Word.write touching (definitionWords name type)) =
      "type " ++ String.ofList name.text ++ " " ++ type.print touching ++ " ;" := by
  have hbody : Word.write touching (type.words ++ [symbol .semicolon]) =
      Word.write touching type.words ++ [' ', ';'] :=
    Word.write_concat type.words_ne_nil (by decide)
  obtain ⟨first, others, hwords⟩ := List.exists_cons_of_ne_nil
    (List.append_ne_nil_of_left_ne_nil type.words_ne_nil [symbol .semicolon])
  have hwrite : Word.write touching (definitionWords name type) =
      "type ".toList ++ (name.text ++ ' ' :: (Word.write touching type.words ++ [' ', ';'])) := by
    rw [← hbody, definitionWords, Word.write, Word.write, hwords]
    have hkeyword : Word.between touching (Word.keyword .typeKeyword)
        (name.word :: first :: others) = [' '] := by
      cases touching <;> rfl
    have hname : Word.between touching name.word (first :: others) = [' '] := by
      cases touching <;> rfl
    rw [hkeyword, hname]
    rfl
  rw [hwrite, String.ofList_append, String.ofList_toList]
  apply String.toList_injective
  simp [print, String.toList_append]

/-- Neither annotations nor qualifiers come before the keyword. -/
theorem gives_moduleMember {words : List Word} {tree : Node}
    (h : GivesAmong kinds total (typeDefinitionAfter none [])
      (Word.keyword .typeKeyword :: words) rest (Node.Renders · tree)) :
    GivesAmong kinds total moduleMember (Word.keyword .typeKeyword :: words) rest
      (Node.Renders · tree) := by
  refine GivesAmong.within ?_ _
  have hmetadata : GivesAmong kinds total metadata (Word.keyword .typeKeyword :: words)
      (Word.keyword .typeKeyword :: words) (· = none) := by
    refine (gives_isNext _).bind fun annotated hannotated => ?_
    subst hannotated
    exact gives_pure rfl
  have hqualifiers : GivesAmong kinds total (consumeWhile qualifiesDeclaration)
      (Word.keyword .typeKeyword :: words) (Word.keyword .typeKeyword :: words) (· = []) := by
    have hplain : GivesAmong kinds total qualifiesDeclaration (Word.keyword .typeKeyword :: words)
        (Word.keyword .typeKeyword :: words) (· = false) := by
      refine gives_nextKind.bind fun kind hkind => ?_
      subst hkind
      exact gives_pure rfl
    refine gives_loop (gives_lastTurn (hplain.bind fun qualifies h => ?_))
    subst h
    exact gives_pure ⟨[], rfl, rfl⟩
  refine hmetadata.bind fun annotations hannotations => ?_
  refine hqualifiers.bind fun qualifiers hq => ?_
  subst hannotations hq
  refine gives_resume (gives_parseAs ?_)
  exact (gives_isSecond _).bind fun named _ => h

theorem gives_typeDefinitionAfter (name : Identifier) (hwf : type.WellFormed) :
    GivesAmong kinds total (typeDefinitionAfter none []) (definitionWords name type) []
      (Node.Renders · (definitionNode name type)) := by
  refine GivesAmong.within (gives_consumeNode.bind fun word hword => ?_) _
  refine (gives_expect _ rfl).bind fun identifier hidentifier => ?_
  have htype : GivesAmong kinds total (typeDescriptor .typeDefinition)
      (type.words ++ [symbol .semicolon]) [symbol .semicolon] (Node.Renders · type.node) :=
    (type.isReadAt_level hwf).ofLevel.2.gives_typeDescriptor (.of_eq rfl) (by decide)
  refine htype.bind fun node hnode => (gives_expect _ rfl).map fun close hclose => ?_
  exact Node.renders_ofSlots _ (.cons .none (.cons (.some (Node.renders_list .nil))
    (.cons (.some hword) (.cons (.some hidentifier) (.cons (.some hnode)
      (.cons (.some hclose) .nil))))))

/-- **Reading gives back what was written**: the definition of a well-formed type, written with
single spaces between its words and with each `>` touching the next one or not, is parsed to the
tree of the definition, with the tree of the type in its slot, and nothing is wrong. -/
theorem parse_typeDefinition (touching : Bool) (name : Identifier) (type : ConcreteType)
    (hwf : type.WellFormed) :
    ∃ node part,
      parseFragment ("type " ++ String.ofList name.text ++ " " ++ type.print touching ++ " ;")
        .moduleMember = some node ∧
      node.kind = .typeDefinition ∧ node.diagnostics = [] ∧
      node.isIsomorphic (definitionNode name type) = true ∧
      node.slot? 4 = some part ∧ part.isIsomorphic type.node = true := by
  rw [← write_definitionWords]
  have hwords := isTypeWord_definitionWords name type
  have hfaces : (Scanner.ofSource
      (String.ofList (Word.write touching (definitionWords name type)))).FacesAmong
        ((definitionWords name type).map Word.kind) (definitionWords name type) := by
    refine (Word.spells_write hwords).faces ?_ fun word hmem =>
      ⟨List.mem_map_of_mem hmem, (hwords word hmem).tight_eq_false⟩
    intro hmem
    obtain ⟨word, hword, heof⟩ := List.mem_map.mp hmem
    exact (hwords word hword).kind_ne_eof heof
  have hfragment : GivesAmong ((definitionWords name type).map Word.kind)
      (definitionWords name type).length (fragment .moduleMember) (definitionWords name type) []
      (Node.Renders · (definitionNode name type)) := by
    refine GivesAmong.within ((gives_isNext _).bind fun imports himports => ?_) _
    subst himports
    refine ((gives_moduleMember (gives_typeDefinitionAfter name hwf)).hasToken
      reads_moduleMember).bind fun node hnode => ?_
    exact gives_finishFragment hnode.1 hnode.2
  obtain ⟨node, hparse, hrenders⟩ := parseFragment_of_gives hfaces hfragment
  obtain ⟨part, hpart, hiso⟩ := Node.exists_slot?_of_isIsomorphic hrenders.isIsomorphic
    (show (definitionNode name type).slot? 4 = some type.node from rfl)
  exact ⟨node, part, hparse, hrenders.kind_eq, hrenders.diagnostics_eq_nil, hrenders.isIsomorphic,
    hpart, hiso⟩

/-- `map < map < int >> [ ] | m : t & string ? | [ s [ 0x1F ] , ( byte ) ]`. -/
def mixed : ConcreteType :=
  let m : Identifier := ⟨['m'], .plain (by decide) (by simp) (by decide) (by decide)⟩
  let t : Identifier := ⟨['t'], .plain (by decide) (by simp) (by decide) (by decide)⟩
  let s : Identifier := ⟨['s'], .plain (by decide) (by simp) (by decide) (by decide)⟩
  let length : Numeral :=
    ⟨_, ['0', 'x', '1', 'F'], .hexadecimal (.inl rfl) (List.all_eq_true.mp rfl)⟩
  .union
    (.union (.array (.map (.map (.keyword ⟨.intKeyword, rfl⟩))) none)
      (.intersection (.qualified m t) (.optional (.keyword ⟨.stringKeyword, rfl⟩))))
    (.tuple [.array (.named s) (some length), .braced (.keyword ⟨.byteKeyword, rfl⟩)])

theorem wellFormed_mixed : mixed.WellFormed := by
  simp [mixed, WellFormed, AllWellFormed, level]

theorem parse_typeDefinition_mixed :
    let name : Identifier := ⟨['N'], .plain (by decide) (by simp) (by decide) (by decide)⟩
    mixed.WellFormed ∧
      "type " ++ String.ofList name.text ++ " " ++ mixed.print true ++ " ;" =
        "type N map < map < int >> [ ] | m : t & string ? | [ s [ 0x1F ] , ( byte ) ] ;" ∧
      ∃ node part,
        parseFragment ("type " ++ String.ofList name.text ++ " " ++ mixed.print true ++ " ;")
          .moduleMember = some node ∧
        node.kind = .typeDefinition ∧ node.diagnostics = [] ∧
        node.isIsomorphic (definitionNode name mixed) = true ∧
        node.slot? 4 = some part ∧ part.isIsomorphic mixed.node = true :=
  ⟨wellFormed_mixed, by decide, parse_typeDefinition true _ mixed wellFormed_mixed⟩

end ConcreteType

end TolerantSyntax
