import TolerantSyntax.Grammar.Bracketed.Resolve
import TolerantSyntax.Proofs.Parse.Bracketed.Lowering
import TolerantSyntax.Proofs.Parse.Operand
import TolerantSyntax.Proofs.Parse.Pattern

/-!
# Resolving a bracketed list

Members nest no deeper than there are opening delimiters ahead, so a depth of four for each
character that is left is enough for them.
-/

namespace TolerantSyntax

instance : Nonempty Bracketed.Member :=
  ⟨.literal default⟩

namespace Yield

open Bracketed

/-- A member with a token. -/
def member : Yield Member :=
  ⟨Member.row, Member.HasToken⟩

/-- A field of a mapping. -/
def fieldItem : Yield FieldItem :=
  ⟨fun item => FieldItem.row [item], fun _ => True⟩

/-- An argument of an error. -/
def argumentItem : Yield ArgumentItem :=
  ⟨fun item => ArgumentItem.row [item], fun _ => True⟩

end Yield

namespace ParseM

open Bracketed

variable {bound : Nat}

/-! ## What can follow a member -/

/-- Whether a suffix makes a type of a member is told by looking. -/
theorem looks_isTypeSuffix (kind : Kind) : Looks (isTypeSuffix kind) fun _ _ => True := by
  unfold isTypeSuffix
  split
  · exact (looks_kindAt 1).andThen fun _ => looks_pure _
  · exact (looks_kindAt 1).andThen fun _ => looks_pure _
  · exact (looks_isSecond _).weaken fun _ _ _ => trivial
  all_goals exact looks_pure _

/-- The type is the member, or the first part of it. -/
theorem reads_typeMember {type : Node} (ht : type.HasToken) :
    Reads 2 [some type] (typeMember type) .member := by
  refine looks_nextKind.meets fun kind => ?_
  split
  · exact (reads_typedBindingAfter ht).bindOn [] rfl fun binding hb => Reads.pure hb rfl
  · exact (reads_restTypeAfter ht).bindOn [] rfl fun type ht => Reads.pure ht rfl

/-- A member that has been read becomes the beginning of a type, a pattern or an expression, or
stays one. -/
theorem reads_memberWithSuffix {member : Member} (hm : member.HasToken) :
    Reads 2 member.row (memberWithSuffix member) .member := by
  refine looks_nextKind.meets fun kind => ?_
  split
  · exact Reads.pure hm rfl
  · refine (looks_isTypeSuffix kind).meets fun b => ?_
    have htype := Member.hasToken_toType hm
    split
    · refine Meets.before (member.becomes_toNode .type) ?_
      exact (reads_typeAfter htype {}).bindOn [] rfl fun type ht => reads_typeMember ht
    · split
      · refine Meets.before (member.becomes_toNode .type) ?_
        exact (reads_typedBindingAfter htype).bindOn [] rfl fun binding hb => Reads.pure hb rfl
      · split
        · exact Reads.pure hm rfl
        · split
          · refine Meets.before (Member.becomes_toNode _ .expression) ?_
            exact (reads_operatorsAfter (Member.hasToken_toExpression hm) _ _).bindOn [] rfl
              fun expression he => Reads.pure he rfl
          · exact Reads.pure hm rfl

/-- The members in the grammar that was decided on begin the list that is read on. -/
theorem reads_decidedList (grammar : Grammar) {opening : Node} (ho : opening.HasToken)
    (items : List Item) :
    Reads 4 (some opening :: Item.row items) (decidedList grammar opening items) .member := by
  have hitems := (Item.becomes_toNodes items grammar).cons (some opening)
  refine Meets.before hitems ?_
  cases grammar with
  | type => exact (reads_tupleTypeAfter ho _).bindOn [] rfl fun type ht => Reads.pure ht rfl
  | pattern => exact (reads_listBindingAfter ho _).bindOn [] rfl fun pattern hp => Reads.pure hp rfl
  | expression =>
    exact (reads_listConstructorAfter ho _).bindOn [] rfl fun expression he => Reads.pure he rfl

/-! ## Members -/

theorem looks_isErrorValue : Looks isErrorValue fun _ _ => True := by
  refine (looks_kindAt 1).andThen fun second => ?_
  split
  · exact looks_pure _
  · exact (looks_kindAt 2).andThen fun _ => looks_pure _
  · exact looks_pure _

theorem looks_isRestName : Looks isRestName fun _ _ => True :=
  (looks_isNext _).andThen fun _ => (looks_isSecond _).andThen fun _ =>
    (looks_kindAt 2).andThen fun _ => .pure fun _ => trivial

/-- The name is consumed, and with it the module where a colon and an identifier come next. -/
theorem reads_nameMember : Reads 0 [] nameMember .member := by
  refine (looks_isSecond .colon).meets fun b => (looks_kindAt 2).meets fun third => ?_
  split
  · refine reads_consumeNode.bind fun module hm => ?_
    refine reads_consumeNode.bind fun colon _ => ?_
    exact reads_consumeNode.bind fun name _ => Reads.pure hm rfl
  · exact reads_consumeNode.bind fun name hn => Reads.pure hn rfl

/-- A name behind `...` leaves the member undecided; any other expression decides it. -/
theorem reads_restMember : Reads 4 [] restMember .member := by
  refine reads_consumeNode.bind fun ellipsis he => ?_
  refine (looks_isNext .identifier).meets fun b => (looks_kindAt 1).meets fun second => ?_
  split
  · exact reads_consumeNode.bind fun name _ => Reads.pure he rfl
  · refine reads_value.bind fun value _ => ?_
    have ht : (Node.of .spreadMember [ellipsis, value]).HasToken :=
      Node.hasToken_composite (List.mem_cons_self ..) he
    exact Meets.before (.group .spreadMember [some ellipsis, some value] rfl) (Reads.pure ht rfl)

theorem reads_keywordTypeMember : Reads 4 [] keywordTypeMember .member :=
  (reads_typeDescriptor _).bind fun _ ht => (reads_typeMember ht).weaken

/-! ## Items -/

section AfterItem

variable {α β : Type} {begun : Nat} {items : List α} {separator : Node → α} {finish : Node → β}
  {token : Node}

/-- Behind an item and a separator the loop goes on, ends, or ends without the separator. -/
theorem reads_afterItem {given : Row} {state : Yield (List α)} {result : Yield β}
    (hmore : given.Becomes (state.row (items ++ [separator token])))
    (hstate : state.good (items ++ [separator token]))
    (hfinish : given.Becomes (result.row (finish token))) (hresult : result.good (finish token)) :
    Reads 0 given (afterItem begun items separator finish token) (.turn state result) := by
  unfold afterItem
  split
  · refine looks_position.meets fun ended => ?_
    split
    · refine reads_discard.bind fun _ _ => ?_
      exact Meets.pure ((List.append_nil given).symm ▸ hmore) hstate id
    · exact Meets.pure hmore hstate id
  · exact Meets.pure hfinish hresult id

/-- A turn that goes on consumes something, if all before the separator led onward. -/
theorem left_afterItem_lt {context : Context} {close : Kind} {item : ListItem} {env : Env}
    {p q r s : Parser} {xs : Row} {next : List α} (hclose : close ≠ .comma) (he : env.Sound)
    (hadm : env.strategy.Admissible) (hpq : p.Leads [] q xs)
    (hend : listEnd context close item env q = some (token, r))
    (hrun : afterItem p.reader.consumed items separator finish token env r = some (.inl next, s)) :
    s.left < p.left := by
  have hqr := ((reads_listEnd context close item).leads he hpq.valid hend).1
  unfold afterItem at hrun
  split at hrun
  · next hc =>
    refine left_discard_lt he hadm hqr.valid ?_
      (moved_or_stalled_of_comma hclose he hadm hpq hend (beq_iff_eq.mp hc) (.refl hqr.valid []))
      (Nat.le_trans hqr.left_le hpq.left_le) hrun
    intro t u ht hrest
    cases hrest
    exact Nat.le_refl _
  · cases hrun

/-- A run between two states that went on behind a separator. -/
inductive Separated (begun : Nat) (env : Env) (p : Parser) (next : List α) (q : Parser) : Prop where
  | intro {context : Context} {close : Kind} {item : ListItem} {items : List α}
      {separator : Node → α} {finish : Node → β} {token : Node} {r : Parser}
      (hclose : close ≠ .comma)
      (hend : listEnd context close item env p = some (token, r))
      (hrun : afterItem begun items separator finish token env r = some (.inl next, q))

/-- A turn that reads an item, and goes on behind a separator only. -/
theorem turns_item {γ : Type} [Nonempty β] {limit : Option Nat} {given : Row} {item : Yield γ}
    {state : Yield (List α)} {result : Yield β} {readItem : ParseM γ}
    {rest : Nat → γ → ParseM (List α ⊕ β)}
    (hitem : Meets limit (fun _ => True) bound [] readItem item (fun _ => False))
    (hrest : ∀ begun a, item.good a →
      Reads bound (given ++ item.row a) (rest begun a) (.turn state result))
    (hnext : ∀ {begun a env p next q}, rest begun a env p = some (.inl next, q) →
      Separated (β := β) begun env p next q) :
    Meets limit (fun _ => True) bound given
      (do
        let begun ← position
        let a ← readItem
        rest begun a)
      (.turn state result) (fun r => r.isLeft = true) := by
  have h : Meets limit (fun _ => True) bound given
      (do
        let begun ← position
        let a ← readItem
        rest begun a)
      (.turn state result) (fun _ => False) := by
    refine looks_position.meets fun begun => ?_
    exact Meets.bind (hitem.narrow fun _ _ => trivial) fun a ha => (hrest begun a ha).upTo limit
  -- a turn that goes on has passed a separator, and so it has moved
  refine ⟨h.leads, h.returns, ?_,
    fun {_ _ _ r} _ _ _ _ hzero hmoves => (Free.turn.claimless hzero hmoves r).elim⟩
  intro env p s r he hadm hv _ hrun hmoves
  obtain ⟨_, _, hp, hrun⟩ := bind_eq_some_iff.mp hrun
  cases hp
  obtain ⟨a, q, ha, hrun⟩ := bind_eq_some_iff.mp hrun
  cases r with
  | inr result => exact absurd hmoves Bool.false_ne_true
  | inl next =>
    obtain ⟨hclose, hend, hrun⟩ := hnext hrun
    exact left_afterItem_lt hclose he hadm (hitem.leads he hv ha).1 hend hrun

end AfterItem

/-! ## Depth -/

/-- What the readers of members come to at a depth. Each has a result where a quarter of the depth,
or a little more, is ahead. -/
structure Depth (depth : Nat) : Prop where
  member : ∀ {limit : Nat}, 4 * limit ≤ depth + 2 →
    Meets (some limit) (fun _ => True) Rule.maxRank [] (ambiguousMember depth) .member
      (fun _ => False)
  list : ∀ {limit : Nat} {opening : Node}, opening.HasToken → 4 * limit ≤ depth + 1 →
    Meets (some limit) (fun _ => True) Rule.maxRank [some opening] (bracketedList depth opening)
      .member (fun _ => False)
  mapping : ∀ {limit : Nat}, 4 * limit ≤ depth + 3 →
    Meets (some limit) HasNext Rule.maxRank [] (ambiguousMapping depth) .member (fun _ => False)
  field : ∀ {limit : Nat}, 4 * limit ≤ depth + 2 →
    Meets (some limit) (fun _ => True) Rule.maxRank [] (ambiguousField depth) .fieldItem
      (fun _ => False)
  error : ∀ {limit : Nat}, 4 * limit ≤ depth + 3 →
    Meets (some limit) HasNext Rule.maxRank [] (ambiguousError depth) .member (fun _ => False)
  argument : ∀ {limit : Nat}, 4 * limit ≤ depth + 1 →
    Meets (some limit) (fun _ => True) Rule.maxRank [] (ambiguousArgument depth) .argumentItem
      (fun _ => False)

/-- Where nothing may be ahead, no result is needed. -/
theorem meets_outOfFuel {α : Type} {limit : Nat} {start : Kind → Prop} {given : Row} {y : Yield α}
    (h : limit = 0) : Meets (some limit) start bound given outOfFuel y (fun _ => False) where
  leads _ _ hrun := by cases hrun
  returns _ _ _ hlim _ := absurd (hlim limit rfl) (h ▸ Nat.not_lt_zero _)
  goes _ _ _ _ _ hmoves := hmoves.elim
  heeds {_ _ _ a} _ _ _ _ _ hmoves := (hmoves a).elim

/-- At depth zero the readers give up. Nothing is ahead there by the bound of each clause, so no
result is asked for. -/
theorem depth_zero : Depth 0 := by
  constructor
  · intro limit h
    rw [ambiguousMember]
    exact meets_outOfFuel (by omega)
  · intro limit opening _ h
    rw [bracketedList]
    exact meets_outOfFuel (by omega)
  · intro limit h
    rw [ambiguousMapping]
    exact meets_outOfFuel (by omega)
  · intro limit h
    rw [ambiguousField]
    exact meets_outOfFuel (by omega)
  · intro limit h
    rw [ambiguousError]
    exact meets_outOfFuel (by omega)
  · intro limit h
    rw [ambiguousArgument]
    exact meets_outOfFuel (by omega)

section

variable {depth limit : Nat} (hd : Depth depth)
include hd

/-- At a depth, a list returns if less is left than the depth allows for. -/
theorem meets_bracketedList {opening : Node} (ho : opening.HasToken) (h : 4 * limit ≤ depth + 2) :
    Meets (some limit) (fun _ => True) Rule.maxRank [some opening]
      (bracketedList (depth + 1) opening) .member (fun _ => False) := by
  have hitem (items : List Item) (item : Item) :
      some opening :: Item.row (items ++ [item]) =
        (some opening :: Item.row items) ++ Item.row [item] := by
    rw [Item.row_append, List.cons_append]
  rw [bracketedList]
  refine Meets.within (Meets.isNext ?_ ?_)
  · exact reads_consumeNode.bind fun close _ => Reads.pure ho rfl
  · let state : Yield (List Item) := ⟨fun items => some opening :: Item.row items, fun _ => True⟩
    refine Reads.loop state (fun items _ => ?_) trivial rfl
    refine turns_item (hd.member h) (fun begun member hm => ?_) ?_
    · have hrow : state.row items ++ Yield.member.row member =
          some opening :: Item.row (items ++ [.member member]) := by
        simp [hitem, Item.row, state, Yield.member]
      rw [hrow]
      extract_lets items
      cases member.decides? with
      | some grammar =>
        -- a list that is decided ends here, in the rules of its grammar
        exact (reads_decidedList _ ho _).bindOn [] rfl fun member hm => Reads.pure hm rfl
      | none =>
        refine (reads_listEnd _ _ _).bind fun token _ => ?_
        refine (reads_afterItem ?_ trivial ?_ ho).weaken
        · rw [show state.row (items ++ [Item.separator token]) = _ from hitem _ _]
          exact .refl _
        · exact .refl _
    · intro begun member env p next q hrun
      split at hrun
      · obtain ⟨_, _, _, hrun⟩ := bind_eq_some_iff.mp hrun
        cases hrun
      · obtain ⟨token, r, hend, hrun⟩ := bind_eq_some_iff.mp hrun
        exact ⟨by decide, hend, hrun⟩

/-- A mapping consumes its brace, and so has one more to go down. -/
theorem meets_ambiguousMapping (h : 4 * limit ≤ depth + 4) :
    Meets (some limit) HasNext Rule.maxRank [] (ambiguousMapping (depth + 1)) .member
      (fun _ => False) := by
  have hitem (opening : Node) (items : List FieldItem) (item : FieldItem) :
      some opening :: FieldItem.row (items ++ [item]) =
        (some opening :: FieldItem.row items) ++ FieldItem.row [item] := by
    rw [FieldItem.row_append, List.cons_append]
  rw [ambiguousMapping]
  refine begins_consumeNode.bindLess (fun _ h => h) fun opening ho =>
    Meets.within (Meets.isNext ?_ ?_)
  · exact reads_consumeNode.bind fun close _ => Reads.pure ho rfl
  · let state : Yield (List FieldItem) :=
      ⟨fun items => some opening :: FieldItem.row items, fun _ => True⟩
    refine Reads.loop state (fun items _ => ?_) trivial rfl
    refine turns_item (hd.field (by omega)) (fun begun item _ => ?_) ?_
    · rw [show state.row items ++ Yield.fieldItem.row item = _ from (hitem opening items item).symm]
      refine (reads_listEnd _ _ _).bind fun token _ => (reads_afterItem ?_ trivial ?_ ho).weaken
      · rw [show state.row (items ++ [item] ++ [FieldItem.separator token]) = _ from
          hitem opening _ _]
        exact .refl _
      · exact .refl _
    · intro begun item env p next q hrun
      obtain ⟨token, r, hend, hrun⟩ := bind_eq_some_iff.mp hrun
      exact ⟨by decide, hend, hrun⟩

/-- A field refers to the member of the depth below. -/
theorem meets_ambiguousField (h : 4 * limit ≤ depth + 3) :
    Meets (some limit) (fun _ => True) Rule.maxRank [] (ambiguousField (depth + 1)) .fieldItem
      (fun _ => False) := by
  rw [ambiguousField]
  refine Meets.isNext ?_ ?_
  · refine begins_consumeNode.bindLess (by simp +contextual) fun name hn =>
      Meets.isNext ?_ (Meets.pure (Row.Becomes.withGap _) trivial id)
    refine reads_consumeNode.bind fun colon _ => ?_
    refine Meets.bind ((hd.member (by omega)).narrow fun _ _ => trivial) fun member _ => ?_
    exact Reads.pure trivial (by simp [Yield.fieldItem, Yield.member, Yield.node, FieldItem.row])
  · refine looks_isRestName.meets fun isRest => ?_
    split
    · refine reads_consumeNode.bind fun ellipsis _ => ?_
      exact reads_consumeNode.bind fun name _ => Reads.pure trivial rfl
    · exact (reads_mappingField _).bind fun node _ => Reads.pure trivial rfl

/-- An error consumes its keyword first. -/
theorem meets_ambiguousError (h : 4 * limit ≤ depth + 4) :
    Meets (some limit) HasNext Rule.maxRank [] (ambiguousError (depth + 1)) .member
      (fun _ => False) := by
  rw [ambiguousError]
  refine begins_consumeNode.bindLess (fun _ h => h) fun keyword hk => ?_
  refine (reads_ifNext opens_typeReference.begins (by simp)).bind fun type _ => ?_
  refine (reads_expect _ _).bind fun opening _ => Meets.within (Meets.isNext ?_ ?_)
  · exact reads_consumeNode.bind fun close _ => Reads.pure hk rfl
  · have hitem (items : List ArgumentItem) (item : ArgumentItem) :
        [some keyword, type, some opening] ++ ArgumentItem.row (items ++ [item]) =
          [some keyword, type, some opening] ++ ArgumentItem.row items ++
            ArgumentItem.row [item] := by
      rw [ArgumentItem.row_append, List.append_assoc]
    let state : Yield (List ArgumentItem) :=
      ⟨fun items => [some keyword, type, some opening] ++ ArgumentItem.row items, fun _ => True⟩
    refine Reads.loop state (fun items _ => ?_) trivial rfl
    refine turns_item (hd.argument (by omega)) (fun begun item _ => ?_) ?_
    · rw [show state.row items ++ Yield.argumentItem.row item = _ from (hitem items item).symm]
      refine (reads_listEnd _ _ _).bind fun token _ => (reads_afterItem ?_ trivial ?_ hk).weaken
      · rw [show state.row (items ++ [item] ++ [ArgumentItem.separator token]) = _ from hitem _ _]
        exact .refl _
      · exact .refl _
    · intro begun item env p next q hrun
      obtain ⟨token, r, hend, hrun⟩ := bind_eq_some_iff.mp hrun
      exact ⟨by decide, hend, hrun⟩

theorem meets_ambiguousArgument (h : 4 * limit ≤ depth + 2) :
    Meets (some limit) (fun _ => True) Rule.maxRank [] (ambiguousArgument (depth + 1))
      .argumentItem (fun _ => False) := by
  rw [ambiguousArgument]
  refine (looks_isNext _).meets fun isName => (looks_isSecond _).meets fun isNamed => ?_
  have hmember {given : Row} (make : Member → ArgumentItem)
      (hmake : ∀ member, given ++ member.row = ArgumentItem.row [make member]) :
      Meets (some limit) (fun _ => True) Rule.maxRank given
        (ambiguousMember depth >>= fun member => pure (make member)) .argumentItem
        (fun _ => False) := by
    refine Meets.bind (hd.member h) fun member _ => ?_
    exact Reads.pure trivial (hmake member)
  split
  · refine reads_consumeNode.bind fun name _ => reads_consumeNode.bind fun equal _ => ?_
    exact hmember (.named name equal) fun member => by simp [Yield.node, ArgumentItem.row]
  · refine looks_isRestName.meets fun isRest => ?_
    split
    · refine reads_consumeNode.bind fun ellipsis _ => ?_
      exact reads_consumeNode.bind fun name _ => Reads.pure trivial rfl
    · refine (hmember .positional fun member => ?_).narrow fun _ _ => trivial
      simp [ArgumentItem.row]

/-- A member refers to the lists of the depth below. -/
theorem meets_ambiguousMember (h : 4 * limit ≤ depth + 3) :
    Meets (some limit) (fun _ => True) Rule.maxRank [] (ambiguousMember (depth + 1)) .member
      (fun _ => False) := by
  have hsuffix (member : Member) (hm : member.HasToken) (limit : Nat) :
      Meets (some limit) (fun _ => True) Rule.maxRank member.row (memberWithSuffix member) .member
        (fun _ => False) :=
    (reads_memberWithSuffix hm).weaken
  rw [ambiguousMember]
  refine looks_nextKind.meets fun kind => ?_
  split
  · exact reads_nameMember.bind fun member hm => hsuffix member hm limit
  · split
    · exact reads_consumeNode.bind fun underscore hu => Reads.pure hu rfl
    · split
      · exact reads_restMember.weaken
      · split
        · next hk =>
          cases beq_iff_eq.mp hk
          -- the bracket is consumed, so the list has one token less for its depth
          refine begins_consumeNode.bindLess (by simp +contextual) fun opening ho => ?_
          refine Meets.bindOn [] (hd.list ho (by omega)) ?_ (fun _ h => h) (Nat.le_refl _)
          exact fun member hm => hsuffix member hm _
        · split
          · next hk =>
            cases beq_iff_eq.mp hk
            have hmapping : Meets (some limit) (fun k => True ∧ k = .openBrace) Rule.maxRank []
                (ambiguousMapping depth) .member (fun _ => False) :=
              (hd.mapping h).narrow (by simp +contextual)
            exact hmapping.bind fun member hm => hsuffix member hm limit
          · refine (looks_isSecond .closeParen).meets fun closes => ?_
            split
            · refine reads_consumeNode.bind fun opening ho => ?_
              refine reads_consumeNode.bind fun close _ => ?_
              exact hsuffix (.nil opening close) ho limit
            · refine (looks_kindAt 1).meets fun second => (looks_kindAt 2).meets fun third => ?_
              split
              · exact reads_keywordTypeMember.weaken
              · refine looks_isErrorValue.meets fun isError => ?_
                split
                · next hk =>
                  -- `error` is a token, so there is one to consume
                  have hkind := beq_iff_eq.mp ((Bool.and_eq_true _ _).mp hk).1
                  refine Meets.bind ((hd.error h).narrow fun k hk => ?_)
                    fun member hm => hsuffix member hm limit
                  rw [hk.1.1.1.1.2, hkind]
                  decide
                · split
                  · refine reads_consumeNode.bind fun token ht => ?_
                    exact hsuffix (.literal token) ht limit
                  · refine (looks_isSecond .colon).meets fun second => ?_
                    split
                    · exact reads_keywordTypeMember.weaken
                    · exact reads_value.bind fun value hv => Reads.pure hv rfl

end

/-- Every depth is enough for a quarter of it. -/
theorem depth_all : ∀ depth, Depth depth
  | 0 => depth_zero
  | d + 1 => by
    have hd := depth_all d
    constructor
    · intro limit h
      exact meets_ambiguousMember hd (by omega)
    · intro limit opening ho h
      exact meets_bracketedList hd ho (by omega)
    · intro limit h
      exact meets_ambiguousMapping hd (by omega)
    · intro limit h
      exact meets_ambiguousField hd (by omega)
    · intro limit h
      exact meets_ambiguousError hd (by omega)
    · intro limit h
      exact meets_ambiguousArgument hd (by omega)

/-! ## Bracketed lists -/

/-- The depth is the fuel of the environment, which exceeds four times what is left. -/
theorem reads_bracketedList {opening : Node} (ho : opening.HasToken) :
    Reads Rule.maxRank [some opening]
      (read >>= fun env : Env => bracketedList env.fuel opening) .member where
  leads {env p q member} he hv hrun := by
    obtain ⟨_, _, hr, hrun⟩ := bind_eq_some_iff.mp hrun
    cases hr
    exact (@Depth.list _ (depth_all env.fuel) 0 _ ho (by omega)).leads he hv hrun
  returns {env p} he hv _ _ hr := by
    refine isSome_bind rfl fun env' p' hr' => ?_
    cases hr'
    have hfuel := hr.fuel
    refine (@Depth.list _ (depth_all env.fuel) (p.left + 1) _ ho (by omega)).returns he hv trivial
      (fun most hm => ?_) hr
    cases hm
    omega
  goes _ _ _ _ _ hmoves := hmoves.elim
  heeds {_ _ _ a} _ _ _ _ _ hmoves := (hmoves a).elim

theorem begins_bracketed : Begins HasNext [] bracketed .member :=
  begins_consumeNode.bind fun _ ho => reads_bracketedList ho

theorem looks_grammarAhead : Looks grammarAhead fun _ _ => True := by
  refine looks_nextKind.andThen fun kind => ?_
  split
  all_goals first | exact looks_pure _ | exact (looks_isSecond _).andThen fun _ => looks_pure _

end ParseM

end TolerantSyntax
