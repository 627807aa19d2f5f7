import TolerantSyntax.Proofs.Conservative
import TolerantSyntax.Proofs.Twin.Tokens

/-!
# Lists in step

A list that is read twice has twins as items and ends at the same token. Between delimiters items
and commas come by turns and an item stands last: where the first item is left out, the list is
closed at once. If the items suit a grammar, so do the members of the list.
-/

namespace TolerantSyntax

open Bracketed (Grammar)
open Node (PartTwin Twins)

namespace ParseM

variable {grammar? : Option Grammar} {item item' : ParseM Node}

/-- Items as long as the next token begins one. -/
theorem inStep_many (more : Kind → Bool) (h : InStep Node.Twin item item') :
    InStep Twins (many more item) (many more item') := by
  refine .loop (R := Twins) .nil fun xs ys hx => inStep_nextKind.same fun kind => ?_
  refine .ite (fun _ => ?_) fun _ => .pure (.inr hx)
  exact h.bind fun _ _ ht => .pure (.inl (List.rel_append hx (.cons ht .nil)))

theorem inStep_manyUntil (isEnd : Kind → Bool) (h : InStep Node.Twin item item') :
    InStep Node.Twin (manyUntil isEnd item) (manyUntil isEnd item') := by
  refine InStep.bind (R := Twins) (.loop (R := Twins) .nil fun xs ys hx => ?_) fun _ _ hx =>
    .pure (.list hx)
  refine inStep_nextKind.same fun kind => .ite (fun _ => .pure (.inr hx)) fun _ => ?_
  refine InStep.noting fun start start' => h.since fun a b ht => ?_
  have hmore : Twins (xs ++ [a]) (ys ++ [b]) := List.rel_append hx (.cons ht .nil)
  refine .ifStill (inStep_discard.bind fun _ _ _ => ?_) (.pure (.inl hmore))
  rw [ht.isMissing_eq]
  exact .ite (fun _ => .pure (.inl hx)) fun _ => .pure (.inl hmore)

theorem inStep_separated (separator : Kind) (h : InStep Node.Twin item item') :
    InStep Twins (separated separator item) (separated separator item') := by
  refine h.bind fun _ _ ht => .loop (R := Twins) (.cons ht .nil) fun xs ys hx => ?_
  refine (inStep_isNext separator).same fun more => .ite (fun _ => ?_) fun _ => .pure (.inr hx)
  refine inStep_consumeNode.bind fun _ _ hs => h.bind fun _ _ ht => .pure (.inl ?_)
  exact List.rel_append hx (.cons hs (.cons ht .nil))

/-! ## Items -/

/-- Items of a list and commas by turns, where items suit the grammar if there is one. The flags
tell whether an item stands before them and whether an item stands last. -/
structure ItemTwins (grammar? : Option Grammar) (before last : Bool) (xs ys : List Node) :
    Prop where
  items : Twins xs ys
  joins : ∀ grammar ∈ grammar?, ∀ x ∈ xs, grammar.Joins x
  alternating : Alternating before last (xs.map Node.leafKind?)

/-- A list and what closes it. The members of the list suit the grammar. -/
structure ListTwin (grammar? : Option Grammar) (r r' : Node × Node) : Prop where
  list : r.1.Twin r'.1
  items : r.1.IsItemList
  joins : ∀ grammar ∈ grammar?, ∀ x ∈ r.1.children, grammar.Joins x
  close : r.2.Twin r'.2

namespace ItemTwins

variable {before middle last : Bool} {xs ys xs' ys' : List Node}

/-- Nothing has been read. -/
theorem nil : ItemTwins grammar? last last [] [] :=
  ⟨.nil, fun _ _ _ hm => (nomatch hm), .nil⟩

/-- What has been read goes on with more of it. -/
theorem append (h : ItemTwins grammar? before middle xs ys)
    (h' : ItemTwins grammar? middle last xs' ys') :
    ItemTwins grammar? before last (xs ++ xs') (ys ++ ys') := by
  refine ⟨List.rel_append h.items h'.items, fun grammar hg x hm => ?_, ?_⟩
  · exact (List.mem_append.mp hm).elim (h.joins grammar hg x) (h'.joins grammar hg x)
  · rw [List.map_append]
    exact h.alternating.append h'.alternating

theorem member {a b : Node} (h : a.TwinIn grammar? b) : ItemTwins grammar? false true [a] [b] := by
  refine ⟨.cons h.toTwin .nil, fun grammar hg x hm => .inr ?_, ?_⟩
  · exact List.mem_singleton.mp hm ▸ h.fits.2 grammar hg
  · rw [List.map_singleton, Node.leafKind?_eq, h.interior]
    exact .item .nil

theorem separator {a b : Node} (h : a.LeafTwin b) (hc : a.kind = .comma) :
    ItemTwins grammar? true false [a] [b] := by
  refine ⟨.cons h.toTwin .nil, fun _ _ _ hm => .inl (List.mem_singleton.mp hm ▸ hc), ?_⟩
  rw [List.map_singleton, Node.leafKind?_eq, h.fits, if_pos rfl, hc]
  exact .comma .nil

/-- An item in front of what must begin with a comma. -/
theorem cons {a b : Node} (h : a.TwinIn grammar? b) (hx : ItemTwins grammar? true last xs ys) :
    ItemTwins grammar? false last (a :: xs) (b :: ys) :=
  (member h).append hx

/-- A comma in front of what must begin with an item. -/
theorem comma {a b : Node} (h : a.LeafTwin b) (hc : a.kind = .comma)
    (hx : ItemTwins grammar? false last xs ys) :
    ItemTwins grammar? true last (a :: xs) (b :: ys) :=
  (separator h hc).append hx

/-- What has an item last makes a list, and so does nothing. -/
theorem isItemList (h : ItemTwins grammar? false last xs ys) (hl : xs = [] ∨ last = true) :
    (Node.list xs).IsItemList := by
  refine Node.isItemList_list (hl.imp_right fun hlast => ?_)
  rw [← hlast]
  exact h.alternating

/-- A list that ends with an item can be closed. -/
theorem listTwin (h : ItemTwins grammar? false last xs ys) (hl : xs = [] ∨ last = true)
    {c c' : Node} (hc : c.Twin c') : ListTwin grammar? (.list xs, c) (.list ys, c') :=
  ⟨.list h.items, h.isItemList hl, by simpa using h.joins, hc⟩

end ItemTwins

/-! ## Separators and closing delimiters -/

/-- A comma, put in or not, or the token that closes the list. -/
theorem inStep_listEndAs (kind : Kind) (context : Context) (close : Kind) (list : ListItem) :
    InStep Node.LeafTwin (listEndAs kind context close list)
      (listEndAs kind context close list) := by
  refine .ite (fun _ => inStep_consumeLeaf) fun _ => ?_
  refine (inStep_recover (.listEnd context close list)).bind fun s s' hs => ?_
  cases hs with
  | keep kind => exact inStep_consumeAs kind
  | insert kind ht => exact .pure ht
  | remove ht => exact .pure ht

/-- The rule that both parses refer to for it. -/
theorem inStep_listEnd (context : Context) (close : Kind) (list : ListItem) :
    InStep Node.LeafTwin (listEnd context close list) (listEnd context close list) :=
  inStep_nextKind.same fun kind => inStep_listEndAs kind context close list

end ParseM

/-! ## Lists without a first item -/

/-- No rule owns commas. -/
theorem ContextStack.anyOwns_comma (stack : ContextStack) : stack.anyOwns .comma = false := by
  rw [anyOwns, List.any_eq_false]
  intro context _
  cases context <;> decide

/-- The next token is no item of a list and does not close it: it belongs to a rule in progress, or
the input ends. -/
structure Parser.LeavesOut (close : Kind) (list : ListItem) (parser : Parser) : Prop where
  isOpen : parser.ahead ≠ close
  owned : parser.ahead = .eof ∨
    list.starts parser.ahead = false ∧ parser.contexts.anyOwns parser.ahead = true

/-- A list whose first item is left out has no comma ahead, for none is put in there. -/
theorem Parser.LeavesOut.ahead_ne_comma {close : Kind} {list : ListItem} {parser : Parser}
    (h : parser.LeavesOut close list) : parser.ahead ≠ .comma := by
  intro hcomma
  rcases h.owned with heof | ⟨-, howned⟩
  · rw [hcomma] at heof
    cases heof
  · rw [hcomma, ContextStack.anyOwns_comma] at howned
    cases howned

namespace Strategy

/-- At a token that some other rule owns, a list is closed. -/
theorem answer_listEnd {context : Context} {close : Kind} {list : ListItem} {view : View}
    (hclose : close ≠ .identifier)
    (h : view.current = .eof ∨ list.starts view.current = false ∧ view.ownedByEnclosing = true) :
    answer (.listEnd context close list) view = .insert close := by
  unfold answer
  rcases h with heof | ⟨hstarts, howned⟩
  · rw [if_pos heof]
    rfl
  · split
    · rfl
    · have haccepts : (Request.listEnd context close list).accepts .identifier = false := by
        simpa [Request.accepts] using hclose.symm
      simp [haccepts, startsForgottenItem, hstarts, howned, Request.primary]

end Strategy

namespace ParseM

variable {grammar? : Option Grammar} {item item' : ParseM Node} {env : Env} {p q : Parser}
  {context : Context} {close : Kind} {list : ListItem}

/-- Where an item is left out, the list is closed: its delimiter is put in. -/
theorem kind_of_listEnd (hs : env.strategy = .standard) (hv : p.Valid) {node : Node}
    (hclose : close ≠ .identifier) (h : p.LeavesOut close list)
    (hrun : listEnd context close list env p = some (node, q)) : node.kind = close := by
  obtain ⟨kind, r, hnext, hrun⟩ := bind_eq_some_iff.mp hrun
  obtain ⟨_, _, hlook, hsame, rfl⟩ := looks_nextKind.look env hv
  cases hnext.symm.trans hlook
  rw [listEndAs, if_neg (by simp [h.ahead_ne_comma, h.isOpen])] at hrun
  obtain ⟨solution, s, hrecover, hrun⟩ := bind_eq_some_iff.mp hrun
  obtain ⟨decision, t, hdecide, hrecover⟩ := bind_eq_some_iff.mp hrecover
  obtain ⟨_, hdecide', -⟩ := decide_standard hs hsame.valid (.listEnd context close list)
  cases hdecide.symm.trans hdecide'
  have hanswer : Strategy.answer (.listEnd context close list) (r.viewAt 0) = .insert close := by
    refine Strategy.answer_listEnd hclose ?_
    rw [View.ownedByEnclosing, show (r.viewAt 0).current = p.ahead from hsame.ahead,
      show (r.viewAt 0).contexts = p.contexts from hsame.contexts]
    exact h.owned
  rw [hanswer] at hrecover
  cases hrecover
  cases hrun
  rfl

/-- A list that has not been closed has no first item only where that is left out. -/
theorem leavesOut_of_firstItem (hv : p.Valid) (hopen : p.ahead ≠ close)
    (hrun : firstItem list item env p = some ([], q)) : q.LeavesOut close list := by
  obtain ⟨kind, r, hnext, hrun⟩ := bind_eq_some_iff.mp hrun
  obtain ⟨_, _, hlook, hsame, rfl⟩ := looks_nextKind.look env hv
  cases hnext.symm.trans hlook
  obtain ⟨_, _, hget, hrun⟩ := bind_eq_some_iff.mp hrun
  cases hget
  split at hrun
  · next h =>
    cases hrun
    refine ⟨hsame.ahead ▸ hopen, ?_⟩
    rw [hsame.ahead]
    simpa using h
  · obtain ⟨_, _, -, hrun⟩ := bind_eq_some_iff.mp hrun
    cases hrun

/-- The first item, unless the strategy discards all that could begin it. -/
theorem inStep_firstItem (list : ListItem) (h : InStep (Node.TwinIn grammar?) item item') :
    InStep (fun xs ys => ∃ last, ItemTwins grammar? false last xs ys ∧ (xs = [] ∨ last = true))
      (firstItem list item) (firstItem list item') := by
  refine inStep_nextKind.same fun kind => inStep_get.bind fun p q hp => ?_
  obtain ⟨_, hp⟩ := hp
  rw [hp.contexts]
  refine .ite (fun _ => .pure ⟨false, .nil, .inl rfl⟩) fun _ => ?_
  exact h.bind fun _ _ ht => .pure ⟨true, .member ht, .inr rfl⟩

/-- Without a first item the list has no items. It must not be closed by a word: then the strategy
could take the next token for that word. -/
theorem inStep_moreItems_nil (hclose : close ∉ [Kind.comma, .identifier]) :
    InStepWhere (fun p _ => p.LeavesOut close list) (ListTwin grammar?)
      (moreItems context close list [] item) (moreItems context close list [] item') := by
  obtain ⟨hcomma, hword⟩ : close ≠ .comma ∧ close ≠ .identifier := by simpa using hclose
  have hend : InStepWhere (fun p _ => p.LeavesOut close list)
      (fun a b => a.LeafTwin b ∧ a.kind = close) (listEnd context close list)
      (listEnd context close list) := by
    constructor
    intro _ _ p q _ _ _ _ _ he hp hout hrun hrun'
    obtain ⟨ht, hq⟩ := (inStep_listEnd context close list).run he hp hrun hrun'
    exact ⟨⟨ht, kind_of_listEnd he.standard hp.left hword hout hrun⟩, hq⟩
  -- what closes the list ends the loop in its first turn
  refine .loop (R := fun _ _ => False) ⟨fun he hp hout hrun hrun' => ?_⟩ fun _ _ h => h.elim
  obtain ⟨_, _, hposition, hrun⟩ := bind_eq_some_iff.mp hrun
  obtain ⟨_, _, hposition', hrun'⟩ := bind_eq_some_iff.mp hrun'
  cases hposition
  cases hposition'
  refine (hend.bind fun a b h => ?_).run he hp hout hrun hrun'
  have hcloses : ¬(close == .comma) = true := by simpa using hcomma
  rw [← h.1.kind_eq, h.2, if_neg hcloses, if_neg hcloses]
  exact .pure (.inr (ItemTwins.nil.listTwin (.inl rfl) h.1.toTwin))

/-! ## Delimited lists -/

/-- Each turn adds a comma and an item, or closes the list behind an item. -/
theorem inStep_moreItems (context : Context) (close : Kind) (list : ListItem) {xs ys : List Node}
    (hx : ItemTwins grammar? false true xs ys) (h : InStep (Node.TwinIn grammar?) item item') :
    InStep (ListTwin grammar?) (moreItems context close list xs item)
      (moreItems context close list ys item') := by
  refine .loop hx fun xs ys hx => InStep.noting fun start start' => ?_
  refine (inStep_listEnd context close list).since fun a b hs => ?_
  rw [← hs.kind_eq]
  refine .ite (fun hc => ?_) fun _ =>
    (InStep.pure (.inr (hx.listTwin (.inr rfl) hs.toTwin))).anywhere
  refine h.since fun _ _ ht => ?_
  have hmore := (hx.append (.separator hs (beq_iff_eq.mp hc))).append (.member ht)
  rw [List.append_assoc, List.append_assoc] at hmore
  exact .ifStill (inStep_discard.bind fun _ _ _ => .pure (.inl hmore)) (.pure (.inl hmore))

/-- A delimited list is twins with commas between its items, whether it has any or not. -/
theorem inStep_delimited (context : Context) (close : Kind) (list : ListItem)
    (hclose : close ∉ [Kind.comma, .identifier]) (h : InStep (Node.TwinIn grammar?) item item') :
    InStep (ListTwin grammar?) (delimited context close list item)
      (delimited context close list item') := by
  refine .within context (InStepWhere.inStep ?_)
  refine (inStep_isNext close).finding (fun closes p => closes = true ↔ p.ahead = close) ?_
    fun closes _ heq => ?_
  · intro env p p' closes hv _ hrun
    obtain ⟨_, _, hlook, hsame, hcloses⟩ := (looks_isNext close).look env hv
    cases hrun.symm.trans hlook
    exact hsame.ahead ▸ hcloses
  subst heq
  refine .ite (fun _ => InStep.anywhere ?_) fun hopen => ?_
  · exact inStep_consumeNode.bind fun _ _ hc => .pure (ItemTwins.nil.listTwin (.inl rfl) hc)
  refine (inStep_firstItem list h).finding (fun xs p => xs = [] → p.LeavesOut close list) ?_
    fun xs ys hx => ?_
  · rintro env p p' xs hv hcloses hrun rfl
    exact leavesOut_of_firstItem hv (fun hahead => hopen (hcloses.mpr hahead)) hrun
  obtain ⟨last, hx, rfl | rfl⟩ := hx
  · cases hx.items
    exact (inStep_moreItems_nil hclose).weaken fun _ _ hout => hout rfl
  · exact (inStep_moreItems context close list hx h).anywhere

/-- A list that goes on behind items which have been read. -/
theorem inStep_delimitedAfter {last : Bool} {xs ys : List Node}
    (hx : ItemTwins grammar? false last xs ys) (hl : xs = [] ∨ last = true) (context : Context)
    (close : Kind) (list : ListItem) (hclose : close ∉ [Kind.comma, .identifier])
    (h : InStep (Node.TwinIn grammar?) item item') :
    InStep (ListTwin grammar?) (delimitedAfter xs context close list item)
      (delimitedAfter ys context close list item') := by
  rcases hl with rfl | rfl
  · cases hx.items
    exact inStep_delimited context close list hclose h
  · have hmore := inStep_moreItems context close list hx h
    cases hx.items with
    | nil => cases hx.alternating
    | cons _ _ => exact .within context hmore

end ParseM

end TolerantSyntax
