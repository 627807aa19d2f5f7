import TolerantSyntax.Proofs.Import.Path
import TolerantSyntax.Proofs.Twin.Tokens

/-!
# Reading an import

A parse that has the words of an import ahead reads them one by one and looks at nothing behind the
semicolon. Where a lexical mode begins or ends, what has been looked at is scanned again; so the
words that are offered are those of regular source, and the mode in force says what they are taken
for. `ReadsOff` says which words a step takes and what it makes of them.
-/

namespace TolerantSyntax

/-! ## Modes -/

/-- What a word of regular source is taken for in a mode. -/
def Word.inMode (word : Word) (mode : LexerMode) : Word :=
  { word with kind := mode.kindOf word.kind }

/-- The mode in force when some have begun. -/
def LexerMode.inForce (modes : List LexerMode) : LexerMode :=
  modes.head?.getD .code

theorem Word.IsToken.inMode {word : Word} {token : Token} (h : word.IsToken token)
    (mode : LexerMode) : (word.inMode mode).IsToken (token.withKind (mode.kindOf token.kind)) := by
  refine ⟨congrArg mode.kindOf h.kind, h.text, ?_, h.present⟩
  have hclean := h.clean
  rw [Token.collect_eq] at hclean ⊢
  exact hclean

namespace Scanner

/-- The same place, where words are read as in regular source. -/
def inCode (scanner : Scanner) : Scanner :=
  { scanner with mode := .code }

/-- The tokens ahead are those of regular source, as they are taken in the mode. -/
theorem tokenAt_eq_withKind (scanner : Scanner) (ahead : Nat) :
    scanner.tokenAt ahead = (scanner.inCode.tokenAt ahead).withKind
      (scanner.mode.kindOf (scanner.inCode.tokenAt ahead).kind) :=
  @tokenAt_withMode scanner.inCode rfl scanner.mode ahead

theorem Offers.isToken {scanner : Scanner} {behind : List Char} {words : List Word}
    (h : scanner.Offers behind words) {ahead : Nat} {word : Word}
    (hword : words[ahead]? = some word) : word.IsToken (scanner.tokenAt ahead) := by
  induction ahead generalizing scanner words with
  | zero =>
    cases words with
    | nil => cases hword
    | cons first rest =>
      cases hword
      exact h.1
  | succ ahead ih =>
    cases words with
    | nil => cases hword
    | cons first rest => exact ih h.2 hword

end Scanner

/-! ## States -/

/-- The words are ahead of the parse as regular source, and behind them is text of which nothing has
been looked at. Some modes have begun, and no text waits for the next token. -/
structure Parser.Offers (parser : Parser) (modes : List LexerMode) (behind : List Char)
    (words : List Word) : Prop where
  valid : parser.Valid
  modes : parser.reader.modes = modes
  scan : parser.reader.place.inCode.Offers behind words
  looked : parser.reader.buffer.length ≤ words.length
  pending : parser.pending = []

namespace Parser.Offers

variable {parser : Parser} {modes : List LexerMode} {behind : List Char} {word : Word}
  {words : List Word}

/-- The tokens ahead are the words as they are taken in the mode in force. -/
theorem isToken (h : parser.Offers modes behind words) {ahead : Nat}
    (hword : words[ahead]? = some word) :
    (word.inMode (.inForce modes)).IsToken (parser.reader.place.tokenAt ahead) := by
  have hmode : parser.reader.place.mode = .inForce modes := by
    rw [TokenReader.IsAt.mode h.valid, TokenReader.mode, h.modes]
    rfl
  rw [Scanner.tokenAt_eq_withKind, hmode]
  exact (h.scan.isToken hword).inMode _

/-- To look at a word changes nothing. -/
theorem peek (h : parser.Offers modes behind words) {ahead : Nat} (hlt : ahead < words.length) :
    Offers { parser with reader := (parser.reader.peek ahead).2 } modes behind words := by
  obtain ⟨-, hat, hmodes, -⟩ := TokenReader.IsAt.peek h.valid ahead
  refine ⟨hat.toValid, hmodes.trans h.modes, ?_, ?_, h.pending⟩
  · show (parser.reader.peek ahead).2.place.inCode.Offers behind words
    rw [hat.place_eq]
    exact h.scan
  · show (parser.reader.peek ahead).2.buffer.length ≤ words.length
    rw [TokenReader.length_buffer_peek]
    exact Nat.max_le.mpr ⟨h.looked, hlt⟩

/-- Consuming takes the first word. -/
theorem consume (h : parser.Offers modes behind (word :: words)) (env : Env) :
    ∃ token q, ParseM.consume env parser = some (token, q) ∧
      (word.inMode (.inForce modes)).IsToken token ∧ q.Offers modes behind words := by
  obtain ⟨htoken, hat, hmodes, -⟩ := TokenReader.IsAt.consume h.valid
  have hfirst : parser.reader.consume.1.withLeading parser.pending =
      parser.reader.place.tokenAt 0 := by
    rw [h.pending, htoken]
    exact Token.withLeading_nil _
  refine ⟨_, _, rfl, hfirst ▸ h.isToken rfl, hat.toValid, hmodes.trans h.modes, ?_, ?_, rfl⟩
  · show parser.reader.consume.2.place.inCode.Offers behind words
    rw [hat.place_eq, Scanner.inCode, Scanner.next_inCode]
    exact h.scan.2
  · show (parser.reader.peek 0).2.buffer.tail.length ≤ words.length
    have hlooked := h.looked
    rw [List.length_cons] at hlooked
    rw [List.length_tail, TokenReader.length_buffer_peek]
    omega

/-- Where the modes in force change, nothing that is ahead has been looked at. -/
theorem relex (h : parser.Offers modes behind words) (modes' : List LexerMode) :
    Offers { parser with reader := .relex { parser.reader with modes := modes' } } modes' behind
      words := by
  have hat := TokenReader.IsAt.relex h.valid modes'
  refine ⟨hat.toValid, TokenReader.modes_relex _, ?_, ?_, h.pending⟩
  · show (TokenReader.relex { parser.reader with modes := modes' }).place.inCode.Offers behind words
    rw [hat.place_eq]
    exact h.scan
  · show (TokenReader.relex { parser.reader with modes := modes' }).buffer.length ≤ words.length
    rw [TokenReader.buffer_relex]
    exact Nat.zero_le _

end Parser.Offers

namespace ParseM

/-! ## What a step makes of words -/

/-- Wherever the step is entered with the words ahead and has a result, the result is good and the
rest of the words is ahead. -/
def ReadsOff {α : Type} (modes : List LexerMode) (behind : List Char) (m : ParseM α)
    (words rest : List Word) (good : α → Prop) : Prop :=
  ∀ (env : Env) (p q : Parser) (a : α), p.Offers modes behind words →
    m env p = some (a, q) → good a ∧ q.Offers modes behind rest

section

variable {α β : Type} {modes : List LexerMode} {behind : List Char} {m : ParseM α}
  {f : α → ParseM β} {word : Word} {words mid rest : List Word} {good : α → Prop}
  {fine : β → Prop} {kind : Kind}

theorem readsOff_pure {a : α} (h : good a) : ReadsOff modes behind (pure a) words words good := by
  intro env p q b hp hrun
  cases hrun
  exact ⟨h, hp⟩

theorem ReadsOff.bind (hm : ReadsOff modes behind m words mid good)
    (hf : ∀ a, good a → ReadsOff modes behind (f a) mid rest fine) :
    ReadsOff modes behind (m >>= f) words rest fine := by
  intro env p r b hp hrun
  obtain ⟨a, q, hrun, hrun'⟩ := bind_eq_some_iff.mp hrun
  obtain ⟨ha, hq⟩ := hm env p q a hp hrun
  exact hf a ha env q r b hq hrun'

/-- A step whose result is changed. -/
theorem ReadsOff.map {g : α → β} (hm : ReadsOff modes behind m words rest good)
    (h : ∀ a, good a → fine (g a)) :
    ReadsOff modes behind (m >>= fun a => pure (g a)) words rest fine :=
  hm.bind fun a ha => readsOff_pure (h a ha)

theorem ReadsOff.mono {better : α → Prop} (hm : ReadsOff modes behind m words rest better)
    (h : ∀ a, better a → good a) : ReadsOff modes behind m words rest good :=
  fun env p q a hp hrun => (hm env p q a hp hrun).imp_left (h a)

theorem ReadsOff.within (hm : ReadsOff modes behind m words rest good) (context : Context) :
    ReadsOff modes behind (ParseM.within context m) words rest good := by
  intro env p q a hp hrun
  obtain ⟨r, hinner, rfl⟩ := within_eq_some_iff.mp hrun
  have hp' : Parser.Offers { p with contexts := context :: p.contexts } modes behind words :=
    ⟨hp.valid, hp.modes, hp.scan, hp.looked, hp.pending⟩
  obtain ⟨ha, hr⟩ := hm env _ r a hp' hinner
  exact ⟨ha, hr.valid, hr.modes, hr.scan, hr.looked, hr.pending⟩

theorem ReadsOff.withMode {mode : LexerMode}
    (hm : ReadsOff (mode :: modes) behind m words rest good) :
    ReadsOff modes behind (ParseM.withMode mode m) words rest good := by
  intro env p q a hp hrun
  obtain ⟨r, hinner, rfl⟩ := withMode_eq_some_iff.mp hrun
  have hp' := hp.relex (mode :: modes)
  rw [← hp.modes] at hp' hm
  obtain ⟨ha, hr⟩ := hm env _ r a hp' hinner
  have hr' := hr.relex r.reader.modes.tail
  rw [hr.modes, List.tail_cons, hp.modes] at hr'
  refine ⟨ha, ?_⟩
  rw [TokenReader.endMode, hr.modes, List.tail_cons, hp.modes]
  exact hr'

/-! ## Loops -/

section

variable {step : α → ParseM (α ⊕ β)} {a : α}

/-- A turn of a loop, and the turns behind it. -/
theorem readsOff_turn {next : α → Prop}
    (hstep : ReadsOff modes behind (step a) words mid fun r => ∃ b, r = .inl b ∧ next b)
    (h : ∀ b, next b → ∀ turns, ReadsOff modes behind (repeatUpTo step turns b) mid rest fine)
    (turns : Nat) : ReadsOff modes behind (repeatUpTo step turns a) words rest fine := by
  cases turns with
  | zero =>
    intro _ _ _ _ _ hrun
    cases hrun
  | succ turns =>
    refine hstep.bind fun r hr => ?_
    obtain ⟨b, rfl, hb⟩ := hr
    exact h b hb turns

/-- The last turn of a loop. -/
theorem readsOff_lastTurn
    (hstep : ReadsOff modes behind (step a) words rest fun r => ∃ b, r = .inr b ∧ fine b)
    (turns : Nat) : ReadsOff modes behind (repeatUpTo step turns a) words rest fine := by
  cases turns with
  | zero =>
    intro _ _ _ _ _ hrun
    cases hrun
  | succ turns =>
    refine hstep.bind fun r hr => ?_
    obtain ⟨b, rfl, hb⟩ := hr
    exact readsOff_pure hb

end

/-! ## Words -/

theorem readsOff_kindAt {ahead : Nat} (hword : words[ahead]? = some word) :
    ReadsOff modes behind (kindAt ahead) words words
      (· = (LexerMode.inForce modes).kindOf word.kind) := by
  intro env p q a hp hrun
  cases hrun
  have hlt := (List.getElem?_eq_some_iff.mp hword).1
  refine ⟨?_, hp.peek hlt⟩
  have hpeek := congrArg Token.kind (TokenReader.IsAt.peek_eq hp.valid ahead)
  exact hpeek.trans (hp.isToken hword).kind

theorem readsOff_isNext :
    ReadsOff modes behind (isNext kind) (word :: words) (word :: words)
      (· = ((LexerMode.inForce modes).kindOf word.kind == kind)) :=
  (readsOff_kindAt rfl).map fun _ h => h ▸ rfl

theorem readsOff_isSecond {first : Word} :
    ReadsOff modes behind (isSecond kind) (first :: word :: words) (first :: word :: words)
      (· = ((LexerMode.inForce modes).kindOf word.kind == kind)) :=
  (readsOff_kindAt rfl).map fun _ h => h ▸ rfl

theorem readsOff_consumeNode :
    ReadsOff modes behind consumeNode (word :: rest) rest
      (Node.Renders · (word.inMode (.inForce modes)).leaf) := by
  intro env p r node hp hrun
  obtain ⟨token, q, hconsume, htoken, hq⟩ := hp.consume env
  obtain ⟨_, _, hconsume', hpure⟩ := bind_eq_some_iff.mp hrun
  cases hconsume.symm.trans hconsume'
  cases hpure
  exact ⟨Node.renders_leaf htoken, hq⟩

/-- A token that is there is consumed. -/
theorem readsOff_expect (context : Context)
    (hk : (LexerMode.inForce modes).kindOf word.kind = kind) :
    ReadsOff modes behind (expect kind context) (word :: rest) rest
      (Node.Renders · (word.inMode (.inForce modes)).leaf) := by
  refine (readsOff_kindAt rfl).bind fun ahead hahead => ?_
  rw [hahead, hk, expectAs, if_pos (beq_self_eq_true kind)]
  exact readsOff_consumeNode

/-- A part that is there. -/
theorem readsOff_ifNext {part : ParseM Node} {tree : Node}
    (hk : (LexerMode.inForce modes).kindOf word.kind = kind)
    (h : ReadsOff modes behind part (word :: words) rest (Node.Renders · tree)) :
    ReadsOff modes behind (ifNext kind part) (word :: words) rest
      (Option.Rel Node.Renders · (some tree)) := by
  refine readsOff_isNext.bind fun isNext hnext => ?_
  rw [hnext, hk, if_pos (beq_self_eq_true kind), map_eq_pure_bind]
  exact h.map fun _ => .some

/-- A part that is left out. -/
theorem readsOff_ifNext_none {part : ParseM Node}
    (hk : (LexerMode.inForce modes).kindOf word.kind ≠ kind) :
    ReadsOff modes behind (ifNext kind part) (word :: words) (word :: words)
      (Option.Rel Node.Renders · none) := by
  refine readsOff_isNext.bind fun isNext hnext => ?_
  rw [hnext, if_neg (by simpa using hk)]
  exact readsOff_pure .none

end

/-! ## Paths -/

/-- In a path, a word is read as a name. -/
theorem leaf_inMode (name : PathWord) : (name.word.inMode .importPath).leaf = name.leaf := by
  rw [PathWord.leaf, Word.leaf, Word.leaf, Word.inMode]
  exact congrArg (fun kind => Node.leaf (.ofText kind (String.ofList name.text) 0 [] []))
    name.kindOf_eq

variable {path : ImportPath} {behind : List Char} {rest : List Word}

/-- The modes in force while a path is read. -/
abbrev pathModes : List LexerMode := [.importPath]

theorem readsOff_pathWord (context : Context) (name : PathWord) :
    ReadsOff pathModes behind (expect .identifier context) (name.word :: rest) rest
      (Node.Renders · name.leaf) := by
  rw [← leaf_inMode]
  exact readsOff_expect context name.kindOf_eq

/-- The slot of the organisation. -/
abbrev organisationSlot (path : ImportPath) : Option Node :=
  path.organisation.map fun name =>
    .of .importOrgName [name.leaf, (Word.symbol .slash).leaf]

/-- The slot of the other name. -/
abbrev aliasSlot (path : ImportPath) : Option Node :=
  path.importedAs.map fun name =>
    .of .importPrefix [(Word.keyword .asKeyword).leaf, name.leaf]

/-- The names behind a name, and what is between them. -/
abbrev othersNodes (others : List PathWord) : List Node :=
  others.flatMap fun name => [(Word.symbol .dot).leaf, name.leaf]

/-- No dot goes on the names of the module. -/
theorem exists_aliasWords (path : ImportPath) :
    ∃ word rest, path.aliasWords = word :: rest ∧
      LexerMode.importPath.kindOf word.kind ≠ .dot ∧
      LexerMode.importPath.kindOf word.kind ≠ .slash := by
  unfold ImportPath.aliasWords
  split
  · exact ⟨_, _, rfl, by decide, by decide⟩
  · exact ⟨_, _, rfl, by decide, by decide⟩

/-- No slash does. -/
theorem exists_othersWords (path : ImportPath) (others : List PathWord) :
    ∃ word rest, path.othersWords others = word :: rest ∧
      LexerMode.importPath.kindOf word.kind ≠ .slash := by
  cases others with
  | nil =>
    obtain ⟨word, rest, hwords, -, hslash⟩ := exists_aliasWords path
    exact ⟨word, rest, hwords, hslash⟩
  | cons name others => exact ⟨_, _, rfl, by decide⟩

theorem readsOff_importOrganisation :
    ReadsOff pathModes behind importOrganisation path.pathWords
      (path.first.word :: path.othersWords path.others)
      (Option.Rel Node.Renders · (organisationSlot path)) := by
  unfold ImportPath.pathWords organisationSlot
  cases path.organisation with
  | some name =>
    refine readsOff_isNext.bind fun isName hname => readsOff_isSecond.bind fun isSlash hslash => ?_
    rw [show isName = true from hname.trans (beq_iff_eq.mpr name.kindOf_eq),
      show isSlash = true from hslash]
    refine readsOff_consumeNode.bind fun token htoken => readsOff_consumeNode.map fun slash hs => ?_
    refine .some (Node.renders_of .importOrgName (.cons ?_ (.cons hs .nil)))
    rwa [← leaf_inMode]
  | none =>
    obtain ⟨word, rest, hwords, hslash⟩ := exists_othersWords path path.others
    rw [hwords]
    refine readsOff_isNext.bind fun isName _ => readsOff_isSecond.bind fun isSlash hsecond => ?_
    rw [show isSlash = false from hsecond.trans (beq_eq_false_iff_ne.mpr hslash), Bool.and_false]
    exact readsOff_pure .none

/-- A turn of reading the names of a module. -/
def namesTurn (items : List Node) : ParseM (List Node ⊕ List Node) := do
  if ← isNext .dot then
    let token ← consumeNode
    return .inl (items ++ [token, ← expect .identifier .importModuleName])
  else return .inr items

theorem separated_eq : separated .dot (expect .identifier .importModuleName) =
    expect .identifier .importModuleName >>= fun first => loop [first] namesTurn :=
  rfl

/-- A dot goes on with another name. -/
theorem readsOff_namesTurn (items : List Node) (name : PathWord) :
    ReadsOff pathModes behind (namesTurn items) (.symbol .dot :: name.word :: rest) rest fun r =>
      ∃ both, r = .inl both ∧ ∃ more, both = items ++ more ∧
        List.Forall₂ Node.Renders more [(Word.symbol .dot).leaf, name.leaf] := by
  refine readsOff_isNext.bind fun isDot hnext => ?_
  rw [show isDot = true from hnext]
  refine readsOff_consumeNode.bind fun token htoken => ?_
  exact (readsOff_pathWord _ name).map fun node hnode =>
    ⟨_, rfl, _, rfl, .cons htoken (.cons hnode .nil)⟩

/-- Without a dot, the names are those that have been read. -/
theorem readsOff_namesTurn_last (items : List Node) :
    ReadsOff pathModes behind (namesTurn items) path.aliasWords path.aliasWords
      (· = .inr items) := by
  obtain ⟨word, rest, hwords, hdot, -⟩ := exists_aliasWords path
  rw [hwords]
  refine readsOff_isNext.bind fun isDot hnext => ?_
  rw [show isDot = false from hnext.trans (beq_eq_false_iff_ne.mpr hdot)]
  exact readsOff_pure rfl

/-- The names behind those that have been read, by induction on them. -/
theorem readsOff_others (others : List PathWord) {items trees : List Node}
    (h : List.Forall₂ Node.Renders items trees) (turns : Nat) :
    ReadsOff pathModes behind (repeatUpTo namesTurn turns items) (path.othersWords others)
      path.aliasWords (List.Forall₂ Node.Renders · (trees ++ othersNodes others)) := by
  induction others generalizing items trees turns with
  | nil =>
    refine readsOff_lastTurn ((readsOff_namesTurn_last items).mono ?_) turns
    rintro _ rfl
    exact ⟨items, rfl, by rwa [othersNodes, List.flatMap_nil, List.append_nil]⟩
  | cons name others ih =>
    refine readsOff_turn (readsOff_namesTurn items name) (fun both hboth turns => ?_) turns
    obtain ⟨more, rfl, hmore⟩ := hboth
    have hothers := ih (List.rel_append h hmore) turns
    rwa [List.append_assoc] at hothers

/-- `as name`, if the path has one. -/
theorem readsOff_alias :
    ReadsOff pathModes behind (ifNext .asKeyword importAlias) path.aliasWords [.symbol .semicolon]
      (Option.Rel Node.Renders · (aliasSlot path)) := by
  unfold ImportPath.aliasWords aliasSlot
  cases path.importedAs with
  | some name =>
    refine readsOff_ifNext rfl (readsOff_consumeNode.bind fun keyword hkeyword => ?_)
    exact (readsOff_pathWord _ name).map fun node hnode =>
      Node.renders_of .importPrefix (.cons hkeyword (.cons hnode .nil))
  | none => exact readsOff_ifNext_none (by decide)

/-- What is read between `import` and the semicolon renders the slots of the path. -/
structure PathRenders (path : ImportPath) (r : Option Node × List Node × Option Node) : Prop where
  organisation : Option.Rel Node.Renders r.1 (organisationSlot path)
  names : List.Forall₂ Node.Renders r.2.1 (path.first.leaf :: othersNodes path.others)
  importedAs : Option.Rel Node.Renders r.2.2 (aliasSlot path)

/-- **An import is read as its path says**, with keywords as names, and nothing behind the semicolon
has been looked at. -/
theorem readsOff_importDeclaration :
    ReadsOff [] behind importDeclaration path.words [] (Node.Renders · path.node) := by
  have hkeyword : ReadsOff [] behind (expect .importKeyword .importDeclaration) path.words
      path.pathWords (Node.Renders · (Word.keyword .importKeyword).leaf) :=
    readsOff_expect _ rfl
  have hsemicolon : ReadsOff [] behind (expect .semicolon .importDeclaration)
      [.symbol .semicolon] [] (Node.Renders · (Word.symbol .semicolon).leaf) :=
    readsOff_expect _ rfl
  have hnames : ReadsOff pathModes behind
      (separated .dot (expect .identifier .importModuleName))
      (path.first.word :: path.othersWords path.others) path.aliasWords
      (List.Forall₂ Node.Renders · (path.first.leaf :: othersNodes path.others)) := by
    rw [separated_eq]
    refine (readsOff_pathWord _ path.first).bind fun first hfirst env => ?_
    exact readsOff_others path.others (.cons hfirst .nil) env.fuel env
  have hpath : ReadsOff [] behind
      (withMode .importPath do
        let organisation ← importOrganisation
        let names ← separated .dot (expect .identifier .importModuleName)
        return (organisation, names, ← ifNext .asKeyword importAlias))
      path.pathWords [.symbol .semicolon] (PathRenders path) := by
    refine ReadsOff.withMode (readsOff_importOrganisation.bind fun organisation ho => ?_)
    exact hnames.bind fun names hn => readsOff_alias.map fun importedAs ha => ⟨ho, hn, ha⟩
  refine ReadsOff.within (hkeyword.bind fun keyword hk => ?_) _
  refine hpath.bind fun ⟨organisation, names, importedAs⟩ hr => hsemicolon.map fun token hs => ?_
  exact Node.renders_ofSlots .importDeclaration
    (.cons (.some hk) (.cons hr.organisation (.cons (.some (Node.renders_list hr.names))
      (.cons hr.importedAs (.cons (.some hs) .nil)))))

end ParseM

end TolerantSyntax
