import TolerantSyntax.Grammar.Bracketed.Resolve
import TolerantSyntax.Proofs.Bracketed.Nested
import TolerantSyntax.Proofs.Expression.Reading

/-!
# Nested lists in no grammar yet

At the start of a statement the grammar of a list is not known. Its members are read in a grammar
that admits all three, and nothing in a nested list decides: names are names and lists are lists.
What has been read is then, in each grammar, the tree that the grammar itself would have made.
-/

namespace TolerantSyntax

namespace Bracketed

/-! ## Items one by one -/

namespace Item

/-- The grammar that an item decides for. -/
def decides? : Item → Option Grammar
  | .member inner => inner.decides?
  | .separator _ => none

/-- An item in a grammar. -/
def toNode (grammar : Grammar) : Item → Node
  | .member inner => inner.toNode grammar
  | .separator token => token

theorem decide?_eq_findSome? (items : List Item) : decide? items = items.findSome? decides? := by
  induction items with
  | nil => rw [decide?, List.findSome?_nil]
  | cons item rest ih =>
    cases item with
    | member inner =>
      rw [decide?, ih, List.findSome?_cons, decides?]
      cases inner.decides? <;> rfl
    | separator token => rw [decide?, ih, List.findSome?_cons, decides?]

theorem toNodes_eq_map (items : List Item) (grammar : Grammar) :
    toNodes items grammar = items.map (toNode grammar) := by
  induction items with
  | nil => cases grammar <;> rfl
  | cons item rest ih =>
    rw [List.map_cons, ← ih]
    cases grammar <;> cases item <;> rfl

end Item

theorem Member.toNode_name (token : Node) (grammar : Grammar) :
    (Member.name token).toNode grammar = .of grammar.nameKind [token] := by
  cases grammar <;> rfl

theorem Member.toNode_list (opening : Node) (items : List Item) (close : Node)
    (grammar : Grammar) :
    (Member.list opening items close).toNode grammar =
      .of grammar.listKind [opening, .list (items.map (Item.toNode grammar)), close] := by
  rw [← Item.toNodes_eq_map]
  cases grammar <;> rfl

/-! ## Possible in every grammar -/

/-- The member decides for no grammar, and in each it renders the tree of the grammar. -/
structure Member.Admits (member : Member) (trees : Grammar → Node) : Prop where
  undecided : member.decides? = none
  renders : ∀ grammar, (member.toNode grammar).Renders (trees grammar)

/-- No item decides for a grammar, and in each they render the trees of the grammar. -/
structure Item.Admit (items : List Item) (trees : Grammar → List Node) : Prop where
  undecided : ∀ item ∈ items, item.decides? = none
  renders : ∀ grammar, List.Forall₂ Node.Renders (items.map (Item.toNode grammar)) (trees grammar)

theorem Item.admit_nil : Item.Admit [] fun _ => [] :=
  ⟨List.forall_mem_nil _, fun _ => .nil⟩

section

variable {items : List Item} {trees : Grammar → List Node}

theorem Item.Admit.concat {item : Item} {tree : Grammar → Node} (h : Item.Admit items trees)
    (hitem : item.decides? = none)
    (hrenders : ∀ grammar, (item.toNode grammar).Renders (tree grammar)) :
    Item.Admit (items ++ [item]) fun grammar => trees grammar ++ [tree grammar] := by
  refine ⟨?_, fun grammar => ?_⟩
  · rw [List.forall_mem_append]
    exact ⟨h.undecided, List.forall_mem_singleton.mpr hitem⟩
  · rw [List.map_append]
    exact List.rel_append (h.renders grammar) (.cons (hrenders grammar) .nil)

theorem Item.Admit.concat_member {member : Member} {tree : Grammar → Node}
    (h : Item.Admit items trees) (hmember : member.Admits tree) :
    Item.Admit (items ++ [.member member]) fun grammar => trees grammar ++ [tree grammar] :=
  h.concat hmember.undecided hmember.renders

theorem Item.Admit.concat_separator {token tree : Node} (h : Item.Admit items trees)
    (htoken : token.Renders tree) :
    Item.Admit (items ++ [.separator token]) fun grammar => trees grammar ++ [tree] :=
  h.concat rfl fun _ => htoken

end

theorem Member.admits_list {opening close : Node} {items : List Item}
    {trees : Grammar → List Node} (ho : opening.Renders (Word.symbol .openBracket).leaf)
    (h : Item.Admit items trees) (hc : close.Renders (Word.symbol .closeBracket).leaf) :
    (Member.list opening items close).Admits fun grammar =>
      .of grammar.listKind
        [(Word.symbol .openBracket).leaf, .list (trees grammar),
          (Word.symbol .closeBracket).leaf] := by
  refine ⟨?_, fun grammar => ?_⟩
  · rw [Member.decides?, Item.decide?_eq_findSome?, List.findSome?_eq_none_iff]
    exact h.undecided
  · rw [Member.toNode_list]
    exact Node.renders_of _
      (.cons ho (.cons (Node.renders_list (h.renders grammar)) (.cons hc .nil)))

end Bracketed

open Bracketed
open Word (ahead commaEach joined symbol)

namespace ParseM

variable {total : Nat} {rest : List Word} {members : List Nested} {nested : Nested}
  {opening : Node} {items : List Item} {trees : Grammar → List Node}

/-! ## Reading members -/

/-- Behind a member of a list, nothing belongs to it. -/
theorem gives_memberWithSuffix {member : Member} (hends : EndsItem .closeBracket rest) :
    Gives total (memberWithSuffix member) rest rest (· = member) := by
  refine gives_nextKind.bind fun kind hkind => ?_
  have hend : endsMember kind = true := by
    rcases hends with hends | hends <;> rw [hkind, hends] <;> rfl
  rw [hend]
  exact gives_pure rfl

/-- A name with no colon behind it is a plain name. -/
theorem gives_nameMember (name : Identifier) :
    Gives total nameMember (name.word :: rest) rest
      (·.Admits fun grammar => .of grammar.nameKind [name.word.leaf]) := by
  refine (gives_isSecond_of_notMem (by decide)).bind fun colon hcolon => ?_
  refine (gives_kindAt 2).bind fun third _ => ?_
  rw [hcolon]
  refine gives_consumeNode.map fun token htoken => ⟨by rw [Member.decides?], fun grammar => ?_⟩
  rw [Member.toNode_name]
  exact Node.renders_of _ (.cons htoken .nil)

end ParseM

/-- The words are read as a member that is possible in every grammar, however deep it may nest. -/
def Nested.IsUndecided (nested : Nested) : Prop :=
  ∀ (depth total : Nat) (rest : List Word), ParseM.EndsItem .closeBracket rest →
    ParseM.Gives total (ParseM.ambiguousMember depth) (nested.words ++ rest) rest
      (·.Admits (nested.tree ·))

namespace ParseM

variable {total depth : Nat} {rest : List Word} {members : List Nested} {nested : Nested}
  {opening : Node}

/-- The rest of a list is read member by member, and stays undecided. -/
theorem gives_moreMembers {read : List Item} {trees : Grammar → List Node} {first : Nested}
    (hread : Item.Admit read trees) (hfirst : first.IsUndecided)
    (hothers : ∀ member ∈ members, member.IsUndecided)
    (ho : opening.Renders (symbol .openBracket).leaf) :
    Gives total
      (loop read fun items => do
        let start ← position
        let member ← ambiguousMember depth
        let items := items ++ [Item.member member]
        match member.decides? with
        | some grammar => return .inr (← decidedList grammar opening items)
        | none =>
          let token ← listEnd .ambiguousList .closeBracket .ambiguous
          afterItem start items .separator (.list opening items) token)
      (first.words ++ (commaEach Nested.words members ++ symbol .closeBracket :: rest)) rest
      (·.Admits fun grammar => .of grammar.listKind
        [(symbol .openBracket).leaf,
          .list (trees grammar ++
            Expression.separated ((first :: members).map (Nested.tree grammar))),
          (symbol .closeBracket).leaf]) := by
  refine gives_loop fun turns => ?_
  induction members generalizing first read trees turns with
  | nil =>
    refine gives_lastTurn ?_ turns
    refine gives_position.bind fun start _ => ?_
    refine (hfirst _ _ _ (.inr rfl)).bind fun member hmember => ?_
    extract_lets items
    rw [hmember.undecided]
    refine (gives_listEnd (.inr rfl)).bind fun token htoken => ?_
    rw [afterItem, htoken.kind_eq, if_neg (by decide)]
    exact gives_pure ⟨_, rfl, Member.admits_list ho (hread.concat_member hmember) htoken⟩
  | cons second others ih =>
    obtain ⟨hsecond, hothers⟩ := List.forall_mem_cons.mp hothers
    rw [Word.commaEach_cons, List.cons_append, List.append_assoc]
    refine gives_turn
      (second.words ++ (commaEach Nested.words others ++ symbol .closeBracket :: rest))
      (Item.Admit · fun grammar => trees grammar ++ [first.tree grammar] ++ [(symbol .comma).leaf])
      ?_ (fun items hitems turns => ?_) turns
    · refine gives_position.bind fun start hstart => ?_
      refine (hfirst _ _ _ (.inl rfl)).bind fun member hmember => ?_
      extract_lets items
      rw [hmember.undecided]
      refine (gives_listEnd (.inl rfl)).bind fun token htoken => ?_
      rw [afterItem, htoken.kind_eq, if_pos (by decide)]
      refine gives_position.bind fun stop hstop => ?_
      -- The member and the comma were consumed, so nothing has to be discarded.
      have hmoved : (stop == start) = false := by
        rw [beq_eq_false_iff_ne]
        simp only [List.length_cons, List.length_append] at hstart hstop
        omega
      rw [hmoved]
      exact gives_pure ⟨_, rfl, (hread.concat_member hmember).concat_separator htoken⟩
    · simpa [Expression.separated] using ih hitems hsecond hothers turns

theorem gives_bracketedList (h : ∀ member ∈ members, member.IsUndecided)
    (ho : opening.Renders (symbol .openBracket).leaf) :
    Gives total (bracketedList depth opening)
      (joined Nested.words members ++ symbol .closeBracket :: rest) rest
      (·.Admits ((Nested.list members).tree ·)) := by
  cases depth with
  | zero =>
    rw [bracketedList]
    exact gives_outOfFuel
  | succ depth =>
    rw [bracketedList]
    refine GivesAmong.within ((gives_isNext _).bind fun closed hclosed => ?_) _
    simp only [Nested.tree, Nested.trees_eq_map]
    cases members with
    | nil =>
      subst hclosed
      exact gives_consumeNode.map fun close hc => Member.admits_list ho Item.admit_nil hc
    | cons first others =>
      obtain ⟨hfirst, hothers⟩ := List.forall_mem_cons.mp h
      rw [joined, List.append_assoc] at hclosed ⊢
      -- a member begins with a name or a bracket, so the list is not empty
      have hopen : closed = false := by
        rw [hclosed, beq_eq_false_iff_ne]
        exact first.ahead_words_ne (by decide) (by decide) _
      rw [hopen]
      exact gives_moreMembers Item.admit_nil hfirst hothers ho

/-- Names and lists are undecided if the members of the list are. -/
theorem isUndecided_of_members (h : ∀ member ∈ nested.members, member.IsUndecided) :
    nested.IsUndecided := by
  intro depth total rest hends
  cases depth with
  | zero =>
    rw [ambiguousMember]
    exact gives_outOfFuel
  | succ depth =>
    rw [ambiguousMember]
    refine gives_nextKind.bind fun kind hkind => ?_
    subst hkind
    cases nested with
    | name identifier =>
      refine (gives_nameMember identifier).bind fun member hmember => ?_
      exact (gives_memberWithSuffix hends).mono fun _ h => h ▸ hmember
    | list members =>
      rw [Nested.words_list, List.cons_append, List.append_assoc]
      refine gives_consumeNode.bind fun opening ho => ?_
      -- what follows ends a member, so no suffix is taken for a part of it
      refine (gives_bracketedList h ho).bind fun member hmember => ?_
      exact (gives_memberWithSuffix hends).mono fun _ h => h ▸ hmember

end ParseM

/-- **Every nested list is undecided.** -/
theorem Nested.isUndecided (nested : Nested) : nested.IsUndecided := by
  induction nested using induct with
  | name identifier => exact ParseM.isUndecided_of_members (List.forall_mem_nil _)
  | list members ih => exact ParseM.isUndecided_of_members ih

end TolerantSyntax
