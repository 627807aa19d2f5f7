import TolerantSyntax.Grammar.Run
import TolerantSyntax.Proofs.Expression.Concrete
import TolerantSyntax.Proofs.Parse.Tokens
import TolerantSyntax.Tree.Equality

/-!
# Reading words

A parse that faces a row of words reads them one by one: what it looks at are their kinds, and what
it consumes are their leaves. `Gives` says of a step of the grammar which words it reads and what it
makes of them. It speaks of every strategy, since a strategy is not asked where nothing is wrong,
and of every amount of fuel, since a parse that runs out of it has no result.
-/

namespace TolerantSyntax

/-! ## Trees -/

/-- The node has the shape of the tree and the same tokens, and nothing is wrong with it. -/
structure Node.Renders (node tree : Node) : Prop where
  isIsomorphic : node.isIsomorphic tree = true
  clean : node.collect = []

namespace Node

theorem renders_leaf {word : Word} {token : Token} (h : word.IsToken token) :
    (leaf token).Renders word.leaf := by
  refine ⟨?_, ?_⟩
  · simp [isIsomorphic, Word.leaf, Token.alike, Token.ofText, h.kind, h.text, h.present]
  · rw [collect, h.clean]

theorem renders_slots {slots trees : List (Option Node)}
    (h : List.Forall₂ (Option.Rel Renders) slots trees) :
    isomorphicSlots slots trees = true ∧ collectSlots slots = [] := by
  induction h with
  | nil => exact ⟨rfl, rfl⟩
  | cons hfirst _ ih =>
    cases hfirst with
    | none => exact ⟨ih.1, ih.2⟩
    | some hfirst => simp [isomorphicSlots, collectSlots, hfirst.isIsomorphic, hfirst.clean, ih]

theorem Renders.kind_eq {node tree : Node} (h : node.Renders tree) : node.kind = tree.kind := by
  obtain ⟨hiso, -⟩ := h
  cases node <;> cases tree <;> simp_all [Node.isIsomorphic, Token.alike, kind]

/-- Nothing is wrong anywhere in the node. -/
theorem Renders.diagnostics_eq_nil {node tree : Node} (h : node.Renders tree) :
    node.diagnostics = [] := by
  rw [diagnostics, h.clean, List.mergeSort_nil]

theorem map_kind_eq {nodes trees : List Node} (h : List.Forall₂ Renders nodes trees) :
    nodes.map kind = trees.map kind := by
  induction h with
  | nil => rfl
  | cons hfirst _ ih => rw [List.map_cons, List.map_cons, hfirst.kind_eq, ih]

/-- Trivia with nothing wrong in it may come behind a node. -/
theorem Renders.withTrailing {node tree : Node} (h : node.Renders tree) (ht : node.HasToken)
    {pieces : List Trivia} (hclean : Trivia.collectAll pieces = []) :
    (node.withTrailing pieces).Renders tree := by
  have hgains := gains_withTrailing ht pieces
  have hfound := hgains.collect
  have hiso := hgains.isomorphic
  simp only [collectSlots, hclean, h.clean, Trivia.collectAll, List.append_nil,
    List.perm_nil] at hfound
  simp only [isomorphicSlots, Bool.and_true] at hiso
  exact ⟨isIsomorphic_trans hiso h.isIsomorphic, hfound⟩

/-- A node of slots that render the slots of a tree renders the tree. -/
theorem renders_ofSlots (kind : Kind) {slots trees : List (Option Node)}
    (h : List.Forall₂ (Option.Rel Renders) slots trees) :
    (ofSlots kind slots).Renders (ofSlots kind trees) := by
  obtain ⟨hslots, hclean⟩ := renders_slots h
  exact ⟨by simp [ofSlots, isIsomorphic, hslots], by simp [ofSlots, collect, hclean]⟩

theorem renders_of (kind : Kind) {parts trees : List Node} (h : List.Forall₂ Renders parts trees) :
    (of kind parts).Renders (of kind trees) := by
  refine renders_ofSlots kind ?_
  rw [List.forall₂_map_left_iff, List.forall₂_map_right_iff]
  exact h.imp fun _ _ => .some

theorem renders_list {items trees : List Node} (h : List.Forall₂ Renders items trees) :
    (list items).Renders (list trees) :=
  renders_of .list h

end Node

/-! ## Facing words -/

/-- The words, which are of some kinds, are all that is ahead of the scanner: it gives their tokens
one by one, with nothing between the tokens of words that touch, and then the end of input. -/
def Scanner.FacesAmong (kinds : List Kind) (scanner : Scanner) : List Word → Prop
  | [] => scanner.next.1.kind = .eof
  | word :: rest =>
    (word.kind ∈ kinds ∧ word.kind ≠ .eof) ∧ word.IsToken scanner.next.1 ∧
      (word.tight = true → scanner.next.1.trailing = [] ∧ scanner.next.2.next.1.leading = []) ∧
      scanner.next.2.FacesAmong kinds rest

/-- The words of expressions and statements are all that is ahead of the scanner. -/
abbrev Scanner.Faces (scanner : Scanner) (words : List Word) : Prop :=
  scanner.FacesAmong Word.kinds words

namespace Scanner.FacesAmong

variable {kinds : List Kind} {scanner : Scanner} {word : Word} {words rest : List Word}

/-- A row of words that is ahead as it is written is faced. -/
theorem of_row (hrow : Word.IsRow words) (hkinds : ∀ word ∈ words, word.kind ∈ kinds)
    (hend : .eof ∉ kinds) (hmode : scanner.mode = .code) (hrest : scanner.rest = Word.spell words) :
    scanner.FacesAmong kinds words := by
  induction words generalizing scanner with
  | nil =>
    refine (isStep_next scanner).kind_eq_eof_iff.mpr ?_
    rw [hrest, Word.spell, Trivia.leading_of_piece?_eq_none rfl]
  | cons word rest ih =>
    obtain ⟨hkind, hothers⟩ := List.forall_mem_cons.mp hkinds
    obtain ⟨htoken, -, htrailing, hbehind⟩ := next_of_spell hrow hmode hrest
    have hmode' : scanner.next.2.mode = .code := (isStep_next scanner).same.2.trans hmode
    have hne : word.kind ≠ .eof := fun heof => hend (heof ▸ hkind)
    have hleading := leading_next_of_spell hrow.2 hmode' hbehind
    exact ⟨⟨hkind, hne⟩, htoken, fun ht => ⟨htrailing ht, hleading⟩,
      ih hrow.2 hothers hmode' hbehind⟩

/-- So is a row of words of expressions and statements. -/
theorem of_spell (hrow : Word.InRow words) (hmode : scanner.mode = .code)
    (hrest : scanner.rest = Word.spell words) : scanner.Faces words := by
  have h : Word.IsRow (words ++ []) := Word.isRow_append hrow trivial
  rw [List.append_nil] at h
  exact of_row h hrow.mem_kinds (by decide) hmode hrest

theorem mem_kinds (h : scanner.FacesAmong kinds words) : ∀ word ∈ words, word.kind ∈ kinds := by
  induction words generalizing scanner with
  | nil => exact List.forall_mem_nil _
  | cons word rest ih => exact List.forall_mem_cons.mpr ⟨h.1.1, ih h.2.2.2⟩

/-- Behind the end of input there is nothing else. -/
theorem next_nil (h : scanner.FacesAmong kinds []) :
    Trivia.collectAll scanner.next.1.leading = [] ∧ scanner.next.1.trailing = [] ∧
      scanner.next.2.FacesAmong kinds [] := by
  have hstep := isStep_next scanner
  refine ⟨Trivia.collectAll_of_isPlain (List.forall_mem_append.mp hstep.plain).1,
    trailing_of_eof h, (isStep_next scanner.next.2).kind_eq_eof_iff.mpr ?_⟩
  rw [hstep.rest_of_eof h, Trivia.leading_of_piece?_eq_none rfl]

/-- The kind of the next token is that of the next word. -/
theorem kind_next (h : scanner.FacesAmong kinds words) :
    scanner.next.1.kind = Word.ahead words := by
  cases words with
  | nil => exact h
  | cons word rest => exact h.2.1.kind

/-- Behind the next token there are the other words. -/
theorem tail (h : scanner.FacesAmong kinds words) : scanner.next.2.FacesAmong kinds words.tail := by
  cases words with
  | nil => exact h.next_nil.2.2
  | cons word rest => exact h.2.2.2

/-- The kind of a token further ahead is that of a word further ahead. -/
theorem kind_take (h : scanner.FacesAmong kinds words) (index : Nat) :
    (scanner.take (index + 1)).1[index]?.map Token.kind = some (Word.ahead (words.drop index)) := by
  induction index generalizing scanner words with
  | zero => simp [take, h.kind_next]
  | succ index ih =>
    rw [take, List.getElem?_cons_succ, ih h.tail, List.drop_tail]

/-- All tokens ahead are of the kinds of words, or the end of input. -/
theorem kind_of_mem_take (h : scanner.FacesAmong kinds words) (count : Nat) :
    ∀ token ∈ (scanner.take count).1, token.kind ∈ Kind.eof :: kinds := by
  induction count generalizing scanner words with
  | zero => simp [take]
  | succ count ih =>
    rw [take, List.forall_mem_cons]
    refine ⟨?_, ih h.tail⟩
    rw [h.kind_next]
    cases words with
    | nil => exact List.mem_cons_self
    | cons word rest => exact List.mem_cons_of_mem _ h.1.1

/-- Tokens ahead that reach the end of input are all words, and the end of input. -/
theorem kinds_take_of_eof (h : scanner.FacesAmong kinds words) {count : Nat} {eof : Token}
    (hmem : eof ∈ (scanner.take count).1) (heof : eof.kind = .eof) :
    ∃ more, (scanner.take count).1.map Token.kind =
      words.map Word.kind ++ List.replicate (more + 1) .eof := by
  induction count generalizing scanner words with
  | zero => cases hmem
  | succ count ih =>
    rw [take, List.map_cons, h.kind_next]
    cases words with
    | nil =>
      -- behind the end of input there is nothing else, whatever the kinds of words
      have hnone : scanner.next.2.FacesAmong [] [] := h.next_nil.2.2
      have hends : ∀ token ∈ (scanner.next.2.take count).1, token.kind = .eof := fun token ht =>
        List.mem_singleton.mp (hnone.kind_of_mem_take count token ht)
      refine ⟨count, ?_⟩
      rw [List.map_nil, List.nil_append, List.replicate_succ]
      refine congrArg (Kind.eof :: ·) (List.eq_replicate_iff.mpr ⟨?_, ?_⟩)
      · rw [List.length_map, length_take]
      · exact List.forall_mem_map.mpr hends
    | cons word rest =>
      rcases List.mem_cons.mp hmem with rfl | hmem
      · exact absurd (h.2.1.kind.symm.trans heof) h.1.2
      · obtain ⟨more, hmore⟩ := ih h.2.2.2 hmem
        exact ⟨more, congrArg (word.kind :: ·) hmore⟩

/-- The tokens of words in front of a row. -/
theorem isToken_take (h : scanner.FacesAmong kinds (words ++ rest)) :
    List.Forall₂ Word.IsToken words (scanner.take words.length).1 ∧
      (scanner.take words.length).2.FacesAmong kinds rest := by
  induction words generalizing scanner with
  | nil => exact ⟨.nil, h⟩
  | cons word words ih =>
    obtain ⟨-, htoken, -, hnext⟩ := h
    obtain ⟨htokens, hrest⟩ := ih hnext
    exact ⟨.cons htoken htokens, hrest⟩

/-- Words that touch are tokens that touch. -/
theorem allTouch_take (h : scanner.FacesAmong kinds (words ++ rest))
    (htight : ∀ word ∈ words.dropLast, word.tight = true) :
    Token.allTouch (scanner.take words.length).1 = true := by
  induction words generalizing scanner with
  | nil => rfl
  | cons word words ih =>
    cases words with
    | nil => rfl
    | cons second words =>
      rw [List.dropLast_cons_cons, List.forall_mem_cons] at htight
      obtain ⟨-, -, htouch, hnext⟩ := h
      obtain ⟨htrailing, hleading⟩ := htouch htight.1
      have habuts := abuts_next scanner
      rw [Token.Abuts, Token.fullStop, htrailing, Token.leadingWidth, hleading] at habuts
      have hmore := ih hnext htight.2
      simp only [List.length_cons, take, Token.allTouch, Bool.and_eq_true] at hmore ⊢
      refine ⟨?_, hmore⟩
      simp [Token.touches, htrailing, hleading, habuts, Trivia.widths]

end Scanner.FacesAmong

/-- The words, which are of some kinds, are all that is ahead of the parse, and nothing waits for
the next token. With those consumed there are `total` of them. -/
structure Parser.FacesAmong (kinds : List Kind) (parser : Parser) (total : Nat)
    (words : List Word) : Prop where
  valid : parser.Valid
  place : parser.reader.place.FacesAmong kinds words
  pending : parser.pending = []
  count : parser.reader.consumed + words.length = total

namespace Parser.FacesAmong

variable {kinds : List Kind} {p q : Parser} {total : Nat} {word : Word} {words rest : List Word}

theorem same (h : p.FacesAmong kinds total words) (hs : ParseM.Same p q) :
    q.FacesAmong kinds total words :=
  ⟨hs.valid, hs.place ▸ h.place, hs.pending.trans h.pending, hs.consumed ▸ h.count⟩

theorem ahead (h : p.FacesAmong kinds total words) : p.ahead = Word.ahead words :=
  h.place.kind_next

/-- Consuming takes the next word off the row, if there is one. -/
theorem consume (h : p.FacesAmong kinds total words) (env : Env) :
    ∃ q, ParseM.consume env p = some (p.reader.place.next.1, q) ∧
      q.FacesAmong kinds total words.tail ∧ q.reader.place = p.reader.place.next.2 := by
  obtain ⟨htoken, hat, -, hconsumed⟩ := TokenReader.IsAt.consume h.valid
  have hbare : p.reader.consume.1.withLeading p.pending = p.reader.place.next.1 := by
    rw [h.pending, htoken]
    cases p.reader.place.next.1
    rfl
  have hcount : p.reader.consume.2.consumed + words.tail.length = total := by
    rw [hconsumed, h.place.kind_next, ← h.count]
    -- the end of input is not counted
    cases words with
    | nil => rfl
    | cons word rest =>
      rw [if_neg (show Word.ahead (word :: rest) ≠ .eof from h.place.1.2), List.tail_cons,
        List.length_cons]
      omega
  refine ⟨{ p with
      reader := p.reader.consume.2
      pending := []
      lastEnd := p.reader.consume.1.span.stop }, ?_, ⟨hat.toValid, ?_, rfl, hcount⟩, hat.place_eq⟩
  · exact congrArg (fun token => some (token, _)) hbare
  · show p.reader.consume.2.place.FacesAmong kinds words.tail
    rw [hat.place_eq]
    exact h.place.tail

end Parser.FacesAmong

namespace ParseM

/-! ## What a step makes of words -/

/-- Wherever the step is entered with the words ahead, all of some kinds, and has a result, the
result is good and what is ahead is the rest. -/
def GivesAmong {α : Type} (kinds : List Kind) (total : Nat) (m : ParseM α)
    (words rest : List Word) (good : α → Prop) : Prop :=
  ∀ (strategy : Strategy) (fuel : Nat) (p q : Parser) (a : α), p.FacesAmong kinds total words →
    m (.ofFuel strategy fuel) p = some (a, q) → good a ∧ q.FacesAmong kinds total rest

/-- What the step makes of words of expressions and statements. -/
abbrev Gives {α : Type} (total : Nat) (m : ParseM α) (words rest : List Word)
    (good : α → Prop) : Prop :=
  GivesAmong Word.kinds total m words rest good

section

variable {α β : Type} {kinds : List Kind} {total : Nat} {m : ParseM α} {f : α → ParseM β}
  {word : Word} {words mid rest : List Word} {good : α → Prop} {fine : β → Prop}

theorem gives_pure {a : α} (h : good a) : GivesAmong kinds total (pure a) words words good := by
  intro strategy fuel p q b hp hrun
  cases hrun
  exact ⟨h, hp⟩

theorem gives_outOfFuel : GivesAmong kinds total (outOfFuel : ParseM α) words rest good := by
  intro strategy fuel p q a hp hrun
  cases hrun

theorem GivesAmong.bind (hm : GivesAmong kinds total m words mid good)
    (hf : ∀ a, good a → GivesAmong kinds total (f a) mid rest fine) :
    GivesAmong kinds total (m >>= f) words rest fine := by
  intro strategy fuel p r b hp hrun
  obtain ⟨a, q, hrun, hrun'⟩ := bind_eq_some_iff.mp hrun
  obtain ⟨ha, hq⟩ := hm strategy fuel p q a hp hrun
  exact hf a ha strategy fuel q r b hq hrun'

/-- The words ahead are of the kinds of words. -/
theorem GivesAmong.ofKinds
    (h : (∀ word ∈ words, word.kind ∈ kinds) → GivesAmong kinds total m words rest good) :
    GivesAmong kinds total m words rest good :=
  fun strategy fuel p q a hp hrun => h hp.place.mem_kinds strategy fuel p q a hp hrun

/-- So is what is found of them. -/
theorem GivesAmong.withKinds {better : α → Prop} (hm : GivesAmong kinds total m words rest better)
    (h : (∀ word ∈ words, word.kind ∈ kinds) → ∀ a, better a → good a) :
    GivesAmong kinds total m words rest good := by
  intro strategy fuel p q a hp hrun
  obtain ⟨ha, hq⟩ := hm strategy fuel p q a hp hrun
  exact ⟨h hp.place.mem_kinds a ha, hq⟩

theorem GivesAmong.mono {better : α → Prop} (hm : GivesAmong kinds total m words rest better)
    (h : ∀ a, better a → good a) : GivesAmong kinds total m words rest good :=
  hm.withKinds fun _ => h

/-- A step whose result is changed. -/
theorem GivesAmong.map {g : α → β} (hm : GivesAmong kinds total m words rest good)
    (h : ∀ a, good a → fine (g a)) :
    GivesAmong kinds total (m >>= fun a => pure (g a)) words rest fine :=
  hm.bind fun a ha => gives_pure (h a ha)

theorem GivesAmong.functor {g : α → β} (hm : GivesAmong kinds total m words rest good)
    (h : ∀ a, good a → fine (g a)) : GivesAmong kinds total (g <$> m) words rest fine := by
  rw [map_eq_pure_bind]
  exact hm.map h

theorem GivesAmong.within (hm : GivesAmong kinds total m words rest good) (context : Context) :
    GivesAmong kinds total (within context m) words rest good := by
  intro strategy fuel p q a hp hrun
  obtain ⟨r, hinner, rfl⟩ := within_eq_some_iff.mp hrun
  have hp' : Parser.FacesAmong kinds { p with contexts := context :: p.contexts } total words :=
    ⟨hp.valid, hp.place, hp.pending, hp.count⟩
  obtain ⟨ha, hr⟩ := hm strategy fuel _ r a hp' hinner
  exact ⟨ha, hr.valid, hr.place, hr.pending, hr.count⟩

/-! ## Looking ahead -/

theorem gives_of_looks {info : Kind → α → Prop} (h : Looks m info) :
    GivesAmong kinds total m words words (info (Word.ahead words)) := by
  intro strategy fuel p q a hp hrun
  obtain ⟨b, r, hrun', hs, hb⟩ := h.look (.ofFuel strategy fuel) hp.valid
  cases hrun.symm.trans hrun'
  exact ⟨hp.ahead ▸ hb, hp.same hs⟩

theorem gives_kindAt (index : Nat) :
    GivesAmong kinds total (kindAt index) words words (· = Word.ahead (words.drop index)) := by
  intro strategy fuel p q a hp hrun
  obtain ⟨htoken, hat, hmodes, hconsumed⟩ := TokenReader.IsAt.peek hp.valid index
  cases hrun
  refine ⟨?_, hp.same ⟨hat.toValid, hat.place_eq, rfl, rfl, hconsumed, rfl, hmodes, .of_eq rfl⟩⟩
  have hkind := hp.place.kind_take index
  rw [htoken] at hkind
  exact Option.some.inj hkind

theorem gives_nextKind : GivesAmong kinds total nextKind words words (· = Word.ahead words) :=
  gives_kindAt 0

theorem gives_isNext (kind : Kind) :
    GivesAmong kinds total (isNext kind) words words (· = (Word.ahead words == kind)) :=
  gives_nextKind.map fun _ h => h ▸ rfl

theorem gives_isSecond (kind : Kind) :
    GivesAmong kinds total (isSecond kind) words words (· = (Word.ahead (words.drop 1) == kind)) :=
  (gives_kindAt 1).map fun _ h => h ▸ rfl

/-- What is a little further ahead is of the kind of a word, or the end of input. -/
theorem gives_isSecond_of_notMem {kind : Kind} (h : kind ∉ Kind.eof :: kinds) :
    GivesAmong kinds total (isSecond kind) words words (· = false) := by
  refine (gives_isSecond kind).withKinds fun hkinds b hb => ?_
  rw [hb, beq_eq_false_iff_ne]
  exact fun heq => h (heq ▸ Word.ahead_drop_mem hkinds 1)

theorem gives_isNext_of_notMem {kind : Kind} (h : kind ∉ Kind.eof :: kinds) :
    GivesAmong kinds total (isNext kind) words words (· = false) := by
  refine (gives_isNext kind).withKinds fun hkinds b hb => ?_
  rw [hb, beq_eq_false_iff_ne]
  exact fun heq => h (heq ▸ Word.ahead_drop_mem hkinds 0)

/-- A name goes on with a colon and another name. -/
theorem gives_isColonName :
    GivesAmong kinds total isColonName words words
      (· = (Word.ahead words == .colon && Word.ahead (words.drop 1) == .identifier)) := by
  refine (gives_isNext _).bind fun colon hcolon => (gives_isSecond _).map fun second hsecond => ?_
  rw [hcolon, hsecond]

theorem gives_get : GivesAmong kinds total (get : ParseM Parser) words words fun _ => True := by
  intro strategy fuel p q a hp hrun
  cases hrun
  exact ⟨trivial, hp⟩

theorem gives_read : GivesAmong kinds total (read : ParseM Env) words words fun _ => True := by
  intro strategy fuel p q a hp hrun
  cases hrun
  exact ⟨trivial, hp⟩

theorem gives_position :
    GivesAmong kinds total position words words (· + words.length = total) := by
  intro strategy fuel p q a hp hrun
  cases hrun
  exact ⟨hp.count, hp⟩

/-- All that is upcoming are the words, and then the end of input as often as it was looked at. -/
theorem gives_upcoming :
    GivesAmong kinds total upcoming words words fun upcoming =>
      ∃ count, upcoming = words.map Word.kind ++ List.replicate (count + 1) .eof := by
  intro strategy fuel p q a hp hrun
  obtain ⟨⟨count, hcount⟩, hat, hmodes, hconsumed⟩ := TokenReader.IsAt.upcoming hp.valid
  have hresult : (p.reader.upcoming.1.map Token.kind, { p with reader := p.reader.upcoming.2 }) =
      (a, q) := Option.some.inj hrun
  obtain ⟨rfl, rfl⟩ := Prod.mk.inj hresult
  refine ⟨?_, hp.same ⟨hat.toValid, hat.place_eq, rfl, rfl, hconsumed, rfl, hmodes, .of_eq rfl⟩⟩
  obtain ⟨eof, hmem, heof⟩ := TokenReader.eof_mem_upcoming p.reader
  rw [hcount] at hmem ⊢
  exact hp.place.kinds_take_of_eof hmem heof

/-! ## Consuming -/

theorem gives_consume : GivesAmong kinds total consume (word :: rest) rest word.IsToken := by
  intro strategy fuel p q token hp hrun
  obtain ⟨r, hrun', hr, -⟩ := hp.consume (.ofFuel strategy fuel)
  cases hrun.symm.trans hrun'
  exact ⟨hp.place.2.1, hr⟩

/-- Behind the last word there is nothing left. -/
theorem gives_consume_nil :
    GivesAmong kinds total consume [] [] fun token =>
      Trivia.collectAll (token.leading ++ token.trailing) = [] := by
  intro strategy fuel p q token hp hrun
  obtain ⟨r, hrun', hr, -⟩ := hp.consume (.ofFuel strategy fuel)
  cases hrun.symm.trans hrun'
  obtain ⟨hleading, htrailing, -⟩ := hp.place.next_nil
  refine ⟨?_, hr⟩
  show Trivia.collectAll (_ ++ _) = []
  rw [htrailing, List.append_nil, hleading]

theorem gives_consumeNode :
    GivesAmong kinds total consumeNode (word :: rest) rest (Node.Renders · word.leaf) :=
  gives_consume.map fun _ h => Node.renders_leaf h

theorem gives_expectAs (context : Context) :
    GivesAmong kinds total (expectAs word.kind word.kind context) (word :: rest) rest
      (Node.Renders · word.leaf) := by
  rw [expectAs, if_pos (beq_self_eq_true _)]
  exact gives_consumeNode

/-- A token that is there is consumed. -/
theorem gives_expect {kind : Kind} (context : Context) (hk : word.kind = kind) :
    GivesAmong kinds total (expect kind context) (word :: rest) rest
      (Node.Renders · word.leaf) := by
  refine gives_nextKind.bind fun _ h => ?_
  subst hk
  subst h
  exact gives_expectAs context

/-- Words that are consumed together, touching if they are written so. -/
theorem gives_consumeTokens (htight : ∀ word ∈ words.dropLast, word.tight = true) :
    GivesAmong kinds total (consumeTokens words.length) (words ++ rest) rest fun tokens =>
      List.Forall₂ Word.IsToken words tokens ∧ Token.allTouch tokens = true := by
  have hrun (strategy : Strategy) (fuel : Nat) : ∀ {words : List Word} {p : Parser},
      p.FacesAmong kinds total (words ++ rest) → ∃ q,
        consumeTokens words.length (.ofFuel strategy fuel) p =
          some ((p.reader.place.take words.length).1, q) ∧ q.FacesAmong kinds total rest := by
    intro words
    induction words with
    | nil => exact fun {p} hp => ⟨p, rfl, hp⟩
    | cons word words ih =>
      intro p hp
      obtain ⟨r, hconsume, hr, hplace⟩ := hp.consume (.ofFuel strategy fuel)
      obtain ⟨q, hmore, hq⟩ := ih hr
      rw [hplace] at hmore
      exact ⟨q, bind_eq_some_iff.mpr ⟨_, r, hconsume, bind_eq_some_iff.mpr ⟨_, q, hmore, rfl⟩⟩, hq⟩
  intro strategy fuel p q tokens hp hq
  obtain ⟨r, hr, hfaces⟩ := hrun strategy fuel hp
  cases hq.symm.trans hr
  exact ⟨⟨hp.place.isToken_take.1, hp.place.allTouch_take htight⟩, hfaces⟩

/-! ## Rules and loops -/

/-- A rule gives what its definition does, with less fuel. -/
theorem gives_parseAs {rule : Rule} {kind : Kind} {good : Node → Prop}
    (h : GivesAmong kinds total (enter rule kind) words rest good) :
    GivesAmong kinds total (parseAs rule kind) words rest good := by
  intro strategy fuel p q node hp hrun
  cases fuel with
  | zero => cases hrun
  | succ fuel => exact h strategy fuel p q node hp hrun

theorem gives_resume {request : Request} {good : Node → Prop}
    (h : GivesAmong kinds total (parseAs (.request request) (Word.ahead words)) words rest good) :
    GivesAmong kinds total (resume request) words rest good :=
  gives_nextKind.bind fun _ hk => hk ▸ h

variable {step : α → ParseM (α ⊕ β)} {a : α}

theorem gives_loop (h : ∀ turns, GivesAmong kinds total (repeatUpTo step turns a) words rest fine) :
    GivesAmong kinds total (loop a step) words rest fine := by
  intro strategy fuel p q b hp hrun
  exact h fuel strategy fuel p q b hp hrun

/-- A turn of a loop, and the turns behind it. -/
theorem gives_turn (mid : List Word) (next : α → Prop)
    (hstep : GivesAmong kinds total (step a) words mid fun r => ∃ b, r = .inl b ∧ next b)
    (h : ∀ b, next b → ∀ turns, GivesAmong kinds total (repeatUpTo step turns b) mid rest fine)
    (turns : Nat) : GivesAmong kinds total (repeatUpTo step turns a) words rest fine := by
  cases turns with
  | zero => exact gives_outOfFuel
  | succ turns =>
    refine hstep.bind fun r hr => ?_
    obtain ⟨b, rfl, hb⟩ := hr
    exact h b hb turns

/-- The last turn of a loop. -/
theorem gives_lastTurn
    (hstep : GivesAmong kinds total (step a) words rest fun r => ∃ b, r = .inr b ∧ fine b)
    (turns : Nat) : GivesAmong kinds total (repeatUpTo step turns a) words rest fine := by
  cases turns with
  | zero => exact gives_outOfFuel
  | succ turns =>
    refine hstep.bind fun r hr => ?_
    obtain ⟨b, rfl, hb⟩ := hr
    exact gives_pure hb

end

/-! ## Lists of items -/

section

variable {ι : Type} {kinds : List Kind} {total : Nat} {word : Word} {rest : List Word}
  {context : Context} {close : Kind} {item : ListItem} {readItem : ParseM Node}
  {wordsOf : ι → List Word} {treeOf : ι → Node} {list : List ι}

open Word (ahead symbol)

/-- What may stand behind an item of a list: a comma or what closes the list. -/
def EndsItem (close : Kind) (rest : List Word) : Prop :=
  ahead rest = .comma ∨ ahead rest = close

/-- Each of the things is read as an item of a list. -/
def GivesEachAmong (kinds : List Kind) (total : Nat) (readItem : ParseM Node)
    (wordsOf : ι → List Word) (treeOf : ι → Node) (close : Kind) (list : List ι) : Prop :=
  ∀ i ∈ list, ∀ rest, EndsItem close rest →
    GivesAmong kinds total readItem (wordsOf i ++ rest) rest (Node.Renders · (treeOf i))

/-- Each of the things, written in words of expressions, is read as an item of a list. -/
abbrev GivesEach (total : Nat) (readItem : ParseM Node) (wordsOf : ι → List Word)
    (treeOf : ι → Node) (close : Kind) (list : List ι) : Prop :=
  GivesEachAmong Word.kinds total readItem wordsOf treeOf close list

theorem endsItem_moreWords (wordsOf : ι → List Word) (list : List ι) :
    EndsItem close (Word.commaEach wordsOf list ++ symbol close :: rest) := by
  cases list with
  | nil => exact .inr rfl
  | cons => exact .inl rfl

/-- A comma or the closing delimiter is consumed. -/
theorem gives_listEnd (h : word.kind = .comma ∨ word.kind = close) :
    GivesAmong kinds total (listEnd context close item) (word :: rest) rest
      (Node.Renders · word.leaf) := by
  refine gives_nextKind.bind fun kind hkind => ?_
  have hkind : kind = word.kind := hkind
  rw [listEndAs, if_pos (by simpa [hkind] using h)]
  exact gives_consumeNode

/-- The rest of a list is read item by item. -/
theorem gives_moreItems (hclose : close ≠ .comma) {items trees : List Node}
    (hitems : List.Forall₂ Node.Renders items trees)
    (hread : GivesEachAmong kinds total readItem wordsOf treeOf close list) :
    GivesAmong kinds total (moreItems context close item items readItem)
      (Word.commaEach wordsOf list ++ symbol close :: rest) rest fun r =>
        (∃ nodes, r.1 = .list nodes ∧ List.Forall₂ Node.Renders nodes
          (trees ++ (list.map treeOf).flatMap fun node => [(symbol .comma).leaf, node])) ∧
        r.2.Renders (symbol close).leaf := by
  refine gives_loop fun turns => ?_
  induction list generalizing items trees turns with
  | nil =>
    refine gives_lastTurn ?_ turns
    refine gives_position.bind fun start _ => (gives_listEnd (.inr rfl)).bind fun token htoken => ?_
    have hcomma : (token.kind == .comma) = false := by
      rw [htoken.kind_eq]
      exact beq_eq_false_iff_ne.mpr hclose
    rw [hcomma]
    exact gives_pure ⟨_, rfl, ⟨items, rfl, by simpa using hitems⟩, htoken⟩
  | cons first others ih =>
    obtain ⟨hfirst, hothers⟩ := List.forall_mem_cons.mp hread
    refine gives_turn (Word.commaEach wordsOf others ++ symbol close :: rest)
      (List.Forall₂ Node.Renders · (trees ++ [(symbol .comma).leaf, treeOf first])) ?_
      (fun nodes hnodes turns => ?_) turns
    · rw [Word.commaEach_cons, List.cons_append, List.append_assoc]
      refine gives_position.bind fun start hstart => ?_
      refine (gives_listEnd (.inl rfl)).bind fun token htoken => ?_
      rw [if_pos (by rw [htoken.kind_eq]; rfl)]
      refine (hfirst _ (endsItem_moreWords wordsOf others)).bind fun node hnode => ?_
      refine gives_position.bind fun stop hstop => ?_
      -- The comma was consumed, so nothing has to be discarded.
      have hmoved : (stop == start) = false := by
        rw [beq_eq_false_iff_ne]
        simp only [List.length_cons, List.length_append] at hstart hstop
        omega
      rw [hmoved]
      exact gives_pure ⟨_, rfl, List.rel_append hitems (.cons htoken (.cons hnode .nil))⟩
    · simpa using ih hnodes hothers turns

/-- A list is read item by item up to its closing delimiter, which begins no item. -/
theorem gives_delimited
    (hitem : close ≠ .comma ∧ item.starts close = false ∧ item.starts .eof = false)
    (hstarts : ∀ i ∈ list, ∀ rest, item.starts (ahead (wordsOf i ++ rest)) = true)
    (hread : GivesEachAmong kinds total readItem wordsOf treeOf close list) :
    GivesAmong kinds total (delimited context close item readItem)
      (Word.joined wordsOf list ++ symbol close :: rest) rest fun r =>
        (∃ nodes, r.1 = .list nodes ∧
          List.Forall₂ Node.Renders nodes (Expression.separated (list.map treeOf))) ∧
        r.2.Renders (symbol close).leaf := by
  obtain ⟨hcomma, hclose, heof⟩ := hitem
  refine GivesAmong.within ?_ context
  refine (gives_isNext close).bind fun closed hclosed => ?_
  cases list with
  | nil =>
    have hclosed : closed = true := hclosed.trans (beq_self_eq_true close)
    rw [hclosed]
    exact gives_consumeNode.map fun token htoken => ⟨⟨[], rfl, .nil⟩, htoken⟩
  | cons first others =>
    obtain ⟨hfirst, hothers⟩ := List.forall_mem_cons.mp hread
    rw [Word.joined, List.append_assoc] at hclosed ⊢
    have hbegins := (List.forall_mem_cons.mp hstarts).1
      (Word.commaEach wordsOf others ++ symbol close :: rest)
    -- what begins an item does not close the list
    have hopen : closed = false := by
      rw [hclosed, beq_eq_false_iff_ne]
      intro heq
      rw [heq, hclose] at hbegins
      cases hbegins
    rw [hopen]
    have hitem : GivesAmong kinds total (firstItem item readItem)
        (wordsOf first ++ (Word.commaEach wordsOf others ++ symbol close :: rest))
        (Word.commaEach wordsOf others ++ symbol close :: rest)
        (List.Forall₂ Node.Renders · [treeOf first]) := by
      refine gives_nextKind.bind fun kind hkind => gives_get.bind fun parser _ => ?_
      subst hkind
      rw [hbegins, if_neg]
      · exact (hfirst _ (endsItem_moreWords wordsOf others)).map fun node hnode => .cons hnode .nil
      · -- nor is it the end of input
        simp only [Bool.not_true, Bool.false_and, Bool.or_false, beq_iff_eq]
        intro hend
        rw [hend, heof] at hbegins
        cases hbegins
    exact hitem.bind fun items hitems => gives_moreItems hcomma hitems hothers

end

end ParseM

end TolerantSyntax
