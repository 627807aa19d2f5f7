import TolerantSyntax.Proofs.Bracketed.Nested
import TolerantSyntax.Proofs.Expression.RoundTrip

/-!
# Nested lists in one grammar

A parse that knows which grammar a list is in reads the words of a nested list to the tree of that
grammar. The three readers differ in what they look for behind a member and in what else a member
may be; what they do with brackets and commas is the same. So a list is read if its members are, in
every grammar by the same argument, and the induction is over the list.
-/

namespace TolerantSyntax

open Bracketed (Grammar)
open Word (ahead joined symbol)

namespace ParseM

variable {total : Nat} {rest : List Word} {members : List Nested} {nested : Nested}

/-! ## Lists -/

/-- Reads a member of a list. -/
def memberIn : Grammar → ParseM Node
  | .type => tupleMember
  | .pattern => listBindingMember
  | .expression => listMember

/-- Reads a list behind its opening bracket. -/
def listIn (opening : Node) : Grammar → ParseM Node
  | .type => tupleTypeAfter opening []
  | .pattern => listBindingAfter opening []
  | .expression => listConstructorAfter opening []

/-- A list is read if its members are. -/
theorem gives_listIn (grammar : Grammar) {opening : Node}
    (ho : opening.Renders (symbol .openBracket).leaf)
    (h : GivesEach total (memberIn grammar) Nested.words (Nested.tree grammar) .closeBracket
      members) :
    Gives total (listIn opening grammar)
      (joined Nested.words members ++ symbol .closeBracket :: rest) rest
      (Node.Renders · ((Nested.list members).tree grammar)) := by
  have hread {context : Context} {item : ListItem}
      (hitem : item.starts .closeBracket = false ∧ item.starts .eof = false)
      (hstarts : item.starts .identifier = true ∧ item.starts .openBracket = true) :
      Gives total (delimited context .closeBracket item (memberIn grammar))
        (joined Nested.words members ++ symbol .closeBracket :: rest) rest fun read =>
          (Node.of grammar.listKind [opening, read.1, read.2]).Renders
            ((Nested.list members).tree grammar) := by
    have hbegins : ∀ nested ∈ members, ∀ rest,
        item.starts (ahead (nested.words ++ rest)) = true := by
      intro nested _ rest
      rcases nested.ahead_words rest with hahead | hahead <;> rw [hahead]
      · exact hstarts.1
      · exact hstarts.2
    refine (gives_delimited ⟨by decide, hitem⟩ hbegins h).mono fun read hread => ?_
    obtain ⟨⟨nodes, hnodes, hrenders⟩, hclose⟩ := hread
    rw [hnodes, Nested.tree, Nested.trees_eq_map]
    exact Node.renders_of _ (.cons ho (.cons (Node.renders_list hrenders) (.cons hclose .nil)))
  -- the three readers are one reader with other contexts and items
  cases grammar with
  | type => exact (hread (by decide) (by decide)).bind fun _ hread => gives_pure hread
  | pattern => exact (hread (by decide) (by decide)).bind fun _ hread => gives_pure hread
  | expression => exact (hread (by decide) (by decide)).bind fun _ hread => gives_pure hread

end ParseM

/-- The words are read as a member of a list, to the tree of the grammar. -/
def Nested.IsRead (grammar : Grammar) (nested : Nested) : Prop :=
  ∀ (total : Nat) (rest : List Word), ParseM.EndsItem .closeBracket rest →
    ParseM.Gives total (ParseM.memberIn grammar) (nested.words ++ rest) rest
      (Node.Renders · (nested.tree grammar))

namespace ParseM

variable {total : Nat} {rest : List Word} {nested : Nested} {context : Context}
  {type lhs : Node} {options : TypeOptions} {floor : Precedence} {flags : ExpressionFlags}

/-! ## Types -/

theorem gives_typeSuffixes (hbracket : ahead rest ≠ .openBracket)
    (hquestion : ahead rest ≠ .questionMark) :
    Gives total (typeSuffixes type options) rest rest (· = type) := by
  refine gives_loop (gives_lastTurn (gives_nextKind.bind fun kind hkind => ?_))
  subst hkind
  split
  · next h => exact absurd h hbracket
  · next h => exact absurd h hquestion
  · exact gives_pure ⟨type, rfl, rfl⟩

theorem gives_intersectionsAfter (h : ahead rest ≠ .bitwiseAnd) :
    Gives total (intersectionsAfter type options) rest rest (· = type) := by
  refine gives_loop (gives_lastTurn ((gives_isNext _).bind fun goesOn hgoesOn => ?_))
  have hend : goesOn = false := hgoesOn.trans (beq_eq_false_iff_ne.mpr h)
  rw [hend]
  exact gives_pure ⟨type, rfl, rfl⟩

theorem gives_unionsAfter (h : ahead rest ≠ .pipe) :
    Gives total (unionsAfter type options) rest rest (· = type) := by
  refine gives_loop (gives_lastTurn ((gives_isNext _).bind fun goesOn hgoesOn => ?_))
  have hend : goesOn = false := hgoesOn.trans (beq_eq_false_iff_ne.mpr h)
  rw [hend]
  exact gives_pure ⟨type, rfl, rfl⟩

/-- A type ends where neither a suffix nor an operator of types follows. -/
theorem gives_typeAfter
    (h : ahead rest ∉ [Kind.openBracket, .questionMark, .bitwiseAnd, .pipe]) :
    Gives total (typeAfter type options) rest rest (· = type) := by
  simp only [List.mem_cons, List.not_mem_nil, or_false, not_or] at h
  obtain ⟨hbracket, hquestion, hand, hpipe⟩ := h
  refine (gives_typeSuffixes hbracket hquestion).bind fun suffixed hsuffixed => ?_
  subst hsuffixed
  refine (gives_intersectionsAfter hand).bind fun intersection hintersection => ?_
  subst hintersection
  exact gives_unionsAfter hpipe

/-- A name with no colon behind it is a reference to a type. -/
theorem gives_typeReference (name : Identifier) :
    Gives total typeReference (name.word :: rest) rest
      (Node.Renders · (.of .simpleNameReference [name.word.leaf])) := by
  refine (gives_expect _ rfl).bind fun word hword => ?_
  have hplain : Gives total isColonName rest rest (· = false) := by
    refine (gives_isNext_of_notMem (by decide)).bind fun colon hcolon => ?_
    exact (gives_isSecond _).map fun second _ => by rw [hcolon, Bool.false_and]
  refine hplain.bind fun colon hcolon => ?_
  subst hcolon
  exact gives_pure (Node.renders_of _ (.cons hword .nil))

/-- In any position, a list of types is read as a tuple type. -/
theorem gives_typeDescriptor (h : ∀ member ∈ nested.members, member.IsRead .type)
    (hends : ahead rest ∉ [Kind.openBracket, .questionMark, .bitwiseAnd, .pipe]) :
    Gives total (typeDescriptor context) (nested.words ++ rest) rest
      (Node.Renders · (nested.tree .type)) := by
  refine gives_resume (gives_parseAs ?_)
  have hprimary : Gives total (parseAs (.primaryType context) (ahead (nested.words ++ rest)))
      (nested.words ++ rest) rest (Node.Renders · (nested.tree .type)) := by
    refine gives_parseAs ?_
    cases nested with
    | name identifier => exact gives_typeReference identifier
    | list members =>
      rw [Nested.words_list, List.cons_append, List.append_assoc]
      exact gives_consumeNode.bind fun opening ho =>
        gives_listIn .type ho fun member hmember rest hends => h member hmember _ rest hends
  exact hprimary.bind fun type htype => (gives_typeAfter hends).mono fun _ h => h ▸ htype

/-! ## Binding patterns -/

theorem gives_capture {kinds : List Kind} (name : Identifier) :
    GivesAmong kinds total (bindingPatternAs .identifier) (name.word :: rest) rest
      (Node.Renders · (.of .captureBindingPattern [name.word.leaf])) :=
  (gives_expect _ rfl).map fun _ hword => Node.renders_of _ (.cons hword .nil)

/-- Whatever follows, a list of names is read as a list binding pattern. -/
theorem gives_bindingPattern (h : ∀ member ∈ nested.members, member.IsRead .pattern) :
    Gives total bindingPattern (nested.words ++ rest) rest
      (Node.Renders · (nested.tree .pattern)) := by
  refine gives_resume (gives_parseAs ?_)
  cases nested with
  | name identifier => exact gives_capture identifier
  | list members =>
    rw [Nested.words_list, List.cons_append, List.append_assoc]
    exact gives_consumeNode.bind fun opening ho =>
      gives_listIn .pattern ho fun member hmember rest hends => h member hmember _ rest hends

/-- A name has no type before it where no other name follows. -/
theorem gives_isTypedMember (hends : EndsItem .closeBracket rest) :
    Gives total isTypedMember (nested.words ++ rest) (nested.words ++ rest) (· = false) := by
  refine gives_nextKind.bind fun kind hkind => ?_
  subst hkind
  cases nested with
  | name identifier =>
    refine (gives_kindAt 1).bind fun second hsecond => (gives_kindAt 2).bind fun third _ => ?_
    have hsecond : second = ahead rest := hsecond
    -- behind a name there is a comma or a bracket, so the name is not qualified
    have hplain : (second == .colon && third == .identifier) = false := by
      rcases hends with hends | hends <;> rw [hsecond, hends] <;> rfl
    rw [hplain, pure_bind, if_neg Bool.false_ne_true]
    refine (gives_kindAt 1).map fun behind hbehind => ?_
    have hbehind : behind = ahead rest := hbehind
    rcases hends with hends | hends <;> rw [hbehind, hends] <;> rfl
  | list members => exact gives_pure rfl

/-! ## Expressions -/

/-- Folding ends where no operator follows. -/
theorem gives_operatorsAfter_of_none
    (hplain : flags.isRhs = true ∨ (ahead rest).isCompoundOperator = false)
    (hnone : Word.levelAhead? rest = none) :
    Gives total (operatorsAfter floor lhs flags) rest rest (· = lhs) :=
  gives_loop (gives_lastTurn ((gives_foldStep_of_stops hplain (Word.stops_of_none hnone)).mono
    fun _ h => ⟨lhs, h, rfl⟩))

/-- A list of expressions is read as a list constructor. -/
theorem gives_expression (h : ∀ member ∈ nested.members, member.IsRead .expression)
    (hrhs : flags.isRhs = true) (hnone : Word.levelAhead? rest = none) :
    Gives total (expression .default flags) (nested.words ++ rest) rest
      (Node.Renders · (nested.tree .expression)) := by
  cases nested with
  | name identifier =>
    exact gives_resume ((Expression.isRead_identifier identifier).gives_whole trivial hrhs hnone)
  | list members =>
    have hoperand : Gives total (operandAs .openBracket .default flags)
        ((Nested.list members).words ++ rest) rest
        (Node.Renders · ((Nested.list members).tree .expression)) := by
      rw [Nested.words_list, List.cons_append, List.append_assoc]
      refine (gives_isSecond _).bind fun colon _ => (gives_expect _ rfl).bind fun opening ho => ?_
      exact gives_listIn .expression ho fun member hmember rest hends =>
        h member hmember _ rest hends
    refine gives_resume (gives_parseAs (GivesAmong.within ?_ _))
    exact (gives_parseAs hoperand).bind fun node hnode =>
      (gives_operatorsAfter_of_none (.inl hrhs) hnone).mono fun _ h => h ▸ hnode

/-! ## Members -/

/-- Names and lists are read as members in every grammar if the members of the list are. -/
theorem isRead_of_members {grammar : Grammar}
    (h : ∀ member ∈ nested.members, member.IsRead grammar) : nested.IsRead grammar := by
  intro total rest hends
  cases grammar with
  | type =>
    have hrest : ahead rest ∉ [Kind.openBracket, .questionMark, .bitwiseAnd, .pipe] := by
      rcases hends with hends | hends <;> rw [hends] <;> decide
    refine (gives_typeDescriptor h hrest).bind fun type htype => ?_
    refine (gives_isNext _).bind fun more hmore => ?_
    have hlast : more = false := by
      rcases hends with hends | hends <;> rw [hmore, hends] <;> rfl
    rw [hlast]
    exact gives_pure htype
  | pattern =>
    refine (gives_isNext .ellipsis).bind fun ellipsis hellipsis => ?_
    rw [beq_eq_false_iff_ne.mpr (nested.ahead_words_ne (by decide) (by decide) rest)] at hellipsis
    subst hellipsis
    refine (gives_isTypedMember hends).bind fun typed htyped => ?_
    subst htyped
    exact gives_bindingPattern h
  | expression =>
    refine (gives_isNext .ellipsis).bind fun ellipsis hellipsis => ?_
    rw [beq_eq_false_iff_ne.mpr (nested.ahead_words_ne (by decide) (by decide) rest)] at hellipsis
    subst hellipsis
    exact gives_expression h rfl (levelAhead?_of_endsItem (.inr rfl) hends)

end ParseM

/-- **Every nested list is read to its tree in every grammar.** -/
theorem Nested.isRead (grammar : Grammar) (nested : Nested) : nested.IsRead grammar := by
  induction nested using induct with
  | name identifier => exact ParseM.isRead_of_members (List.forall_mem_nil _)
  | list members ih => exact ParseM.isRead_of_members ih

end TolerantSyntax
