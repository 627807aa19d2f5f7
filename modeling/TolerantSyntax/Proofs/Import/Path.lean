import TolerantSyntax.Proofs.Expression.Compact
import TolerantSyntax.Proofs.Twin.Scanner
import TolerantSyntax.Proofs.Type.Concrete

/-!
# Import paths

The words of an import path as they are written: an organisation before a slash, the names of a
module with dots between them, and a name behind `as`. Each name may be any word but `as`, so a scan
of regular source finds keywords among them. It finds one token for each word, and behind the
semicolon it goes on with what is written there.
-/

namespace TolerantSyntax

/-! ## Words of a path -/

/-- A word of an import path: a name, or a word that is reserved elsewhere, `as` apart. The kind is
what the word is elsewhere. -/
inductive IsPathWord : Kind → List Char → Prop where
  | name {text : List Char} (h : IsName text) : IsPathWord .identifier text
  | reserved {keyword : Kind} {text : List Char}
      (h : Kind.keyword? (String.ofList text) = some keyword) (hne : keyword ≠ .asKeyword) :
      IsPathWord keyword text

/-- A word of an import path. -/
structure PathWord where
  kind : Kind
  text : List Char
  isPathWord : IsPathWord kind text

/-- What an import names: `organisation/first.other as importedAs`. -/
structure ImportPath where
  organisation : Option PathWord
  first : PathWord
  others : List PathWord
  importedAs : Option PathWord

namespace PathWord

/-- The word as a scan of regular source finds it. -/
def word (name : PathWord) : Word :=
  .loose name.kind name.text

/-- The leaf that the word is read as: a name. -/
def leaf (name : PathWord) : Node :=
  (Word.loose .identifier name.text).leaf

end PathWord

namespace ImportPath

/-! ## Text -/

/-- The organisation as it is written. -/
def organisationText (path : ImportPath) : List Char :=
  match path.organisation with
  | some name => name.text ++ ['/']
  | none => []

/-- What is behind a name as it is written. -/
def othersText (others : List PathWord) : List Char :=
  others.flatMap fun name => '.' :: name.text

/-- The other name of the module as it is written. -/
def aliasText (path : ImportPath) : List Char :=
  match path.importedAs with
  | some name => " as ".toList ++ name.text
  | none => []

/-- A path as it is written. -/
def text (path : ImportPath) : List Char :=
  path.organisationText ++ (path.first.text ++ (othersText path.others ++ path.aliasText))

/-! ## Tree -/

/-- The tree that an import of the path should be read as. -/
def node (path : ImportPath) : Node :=
  .ofSlots .importDeclaration
    [some (Word.keyword .importKeyword).leaf,
      path.organisation.map fun name =>
        .of .importOrgName [name.leaf, (Word.symbol .slash).leaf],
      some (.list (path.first.leaf ::
        path.others.flatMap fun name => [(Word.symbol .dot).leaf, name.leaf])),
      path.importedAs.map fun name =>
        .of .importPrefix [(Word.keyword .asKeyword).leaf, name.leaf],
      some (Word.symbol .semicolon).leaf]

/-! ## Words -/

/-- The words behind the names of the module. -/
def aliasWords (path : ImportPath) : List Word :=
  match path.importedAs with
  | some name => [.keyword .asKeyword, name.word, .symbol .semicolon]
  | none => [.symbol .semicolon]

/-- The words behind a name of the module. -/
def othersWords (path : ImportPath) (others : List PathWord) : List Word :=
  others.foldr (fun name rest => .symbol .dot :: name.word :: rest) path.aliasWords

/-- The words behind `import`. -/
def pathWords (path : ImportPath) : List Word :=
  let moduleWords := path.first.word :: path.othersWords path.others
  match path.organisation with
  | some name => name.word :: .symbol .slash :: moduleWords
  | none => moduleWords

/-- The words of an import of the path. -/
def words (path : ImportPath) : List Word :=
  .keyword .importKeyword :: path.pathWords

end ImportPath

/-! ## Words in front of other text -/

/-- The words are ahead of the scanner, one token each, and behind them the text. -/
def Scanner.Offers (scanner : Scanner) (behind : List Char) : List Word → Prop
  | [] => scanner.rest = behind
  | word :: rest => word.IsToken scanner.next.1 ∧ scanner.next.2.Offers behind rest

/-- The characters do not begin with trivia, and a scan of them as regular source finds the words
and then the text. -/
structure Word.Written (behind : List Char) (words : List Word) (chars : List Char) : Prop where
  visible : Trivia.piece? chars = none
  offers : ∀ scanner : Scanner, scanner.mode = .code → scanner.rest = chars →
    scanner.Offers behind words

/-- The characters do not go on a word. -/
def Word.EndsWord (chars : List Char) : Prop :=
  ∀ c ∈ chars.head?, Text.isIdContinue c = false

namespace Word.Written

variable {behind after : List Char} {word : Word} {rest : List Word}

/-- A lexeme in front of what is written behind it, a space between them or none. -/
theorem cons (h : Written behind rest after) (hword : word.IsLexemeBefore after) :
    Written behind (word :: rest) (word.text ++ after) := by
  refine ⟨hword.visible, fun scanner hmode hrest => ?_⟩
  obtain ⟨htoken, -, -, hbehind⟩ := Scanner.next_of_isLexemeBefore hmode hrest hword
    (Trivia.trailing_of_piece?_eq_none h.visible)
  exact ⟨htoken, h.offers _ ((Scanner.isStep_next scanner).same.2.trans hmode) hbehind⟩

theorem spaced (h : Written behind rest after) (hword : word.IsLexemeBefore (' ' :: after)) :
    Written behind (word :: rest) (word.text ++ ' ' :: after) := by
  refine ⟨hword.visible, fun scanner hmode hrest => ?_⟩
  obtain ⟨htoken, -, -, hbehind⟩ := Scanner.next_of_isLexemeBefore hmode hrest hword
    (Trivia.trailing_space h.visible)
  exact ⟨htoken, h.offers _ ((Scanner.isStep_next scanner).same.2.trans hmode) hbehind⟩

/-- A semicolon ends its line. -/
theorem semicolon (behind : List Char) :
    Written behind [symbol .semicolon] (';' :: '\n' :: behind) := by
  have htrailing : Trivia.trailing ('\n' :: behind) = ([.endOfLine "\n"], behind) := by
    rw [Trivia.trailing]
    rfl
  have hvisible : Trivia.piece? (';' :: '\n' :: behind) = none :=
    Trivia.piece?_of_notMem (by decide)
  refine ⟨hvisible, fun scanner hmode hrest => ?_⟩
  have hword : (symbol .semicolon).IsLexemeBefore ('\n' :: behind) :=
    ⟨hvisible, ';', [], rfl, rfl⟩
  obtain ⟨htoken, -, -, hbehind⟩ :=
    Scanner.next_of_isLexemeBefore hmode hrest hword htrailing
  exact ⟨htoken, hbehind⟩

/-- A keyword with a space behind it. -/
theorem keyword (h : Written behind rest after) (kind : Kind)
    (hk : kind ∈ Kind.keywords.map (·.2)) :
    Written behind (.keyword kind :: rest) ((Word.keyword kind).text ++ ' ' :: after) :=
  h.spaced ((isLexeme_keyword hk).before (by simp [Follows, Word.keyword, loose]))

end Word.Written

namespace PathWord

open Word (EndsWord Written)

variable {behind after : List Char} {rest : List Word}

/-- A word of a path begins like a name, and is one lexeme wherever its last character is the last
one of a word. -/
theorem exists_lexeme (name : PathWord) :
    ∃ first more, name.text = first :: more ∧ (Text.isIdStart first = true ∨ first = '\'') ∧
      ∀ after, EndsWord after →
        Lexeme.next .code first (more ++ after) = .clean name.kind more.length := by
  obtain ⟨kind, text, hpath⟩ := name
  cases hpath with
  | name h => exact Word.next_of_isName h
  | reserved h hne =>
    -- the table of keywords has letters only
    have htable : ∀ entry ∈ Kind.keywords,
        Word.spellsKeyword entry.2 entry.1.toList = true := by decide +kernel
    obtain ⟨entry, hfound, rfl⟩ := Option.map_eq_some_iff.mp h
    have hspells := htable entry (List.mem_of_find?_eq_some hfound)
    have hfits := List.find?_some hfound
    have htext : entry.1 = String.ofList text := beq_iff_eq.mp hfits
    rw [htext, String.toList_ofList] at hspells
    cases text with
    | nil => cases hspells
    | cons first rest =>
      simp only [Word.spellsKeyword, Bool.and_eq_true, List.all_eq_true, bne_iff_ne, ne_eq,
        beq_iff_eq] at hspells
      obtain ⟨⟨⟨hfirst, hrest⟩, hline⟩, hkeyword⟩ := hspells
      refine ⟨first, rest, rfl, .inl hfirst, fun after hafter => ?_⟩
      rw [Word.next_of_isIdContinue hfirst hrest hline after hafter]
      unfold Lexeme.wordKind
      rw [hkeyword]

/-- In a path, the word is a name. -/
theorem kindOf_eq (name : PathWord) : LexerMode.importPath.kindOf name.kind = .identifier := by
  obtain ⟨kind, text, hpath⟩ := name
  cases hpath with
  | name => rfl
  | reserved h hne => simp [LexerMode.kindOf, Lexeme.isKeywordToken_of_keyword? h, hne]

theorem isLexemeBefore (name : PathWord) (hafter : EndsWord after) :
    name.word.IsLexemeBefore after := by
  obtain ⟨first, more, htext, hfirst, hnext⟩ := name.exists_lexeme
  refine ⟨?_, first, more, htext, hnext after hafter⟩
  show Trivia.piece? (name.text ++ after) = none
  rw [htext]
  exact Trivia.piece?_of_notMem (Word.notMem_beginnings hfirst)

theorem written (name : PathWord) (h : Written behind rest after) (hafter : EndsWord after) :
    Written behind (name.word :: rest) (name.text ++ after) :=
  h.cons (name.isLexemeBefore hafter)

/-- A character of ASCII ends a word if it is none of a word. -/
theorem endsWord_cons {c : Char}
    (h : c.toNat < 0x80 ∧ (c == '_' || c.isAlpha || c.isDigit) = false) :
    EndsWord (c :: after) := by
  rintro _ ⟨⟩
  rw [Text.isIdContinue_ascii h.1, h.2]

theorem written_space (name : PathWord) (h : Written behind rest after) :
    Written behind (name.word :: rest) (name.text ++ ' ' :: after) :=
  h.spaced (name.isLexemeBefore (endsWord_cons (by decide)))

/-- A dot in front of a word is a token of its own. -/
theorem written_dot (name : PathWord) (h : Written behind rest (name.text ++ after)) :
    Written behind (.symbol .dot :: rest) ('.' :: (name.text ++ after)) := by
  refine h.cons ⟨Trivia.piece?_of_notMem (by decide), '.', [], rfl, ?_⟩
  obtain ⟨first, more, htext, hfirst, -⟩ := name.exists_lexeme
  refine Word.afterDot_of_head? fun c hc => ?_
  rw [htext] at hc
  cases hc
  rcases hfirst with hfirst | rfl
  · refine ⟨Text.isDigit_eq_false_of_isIdStart hfirst, ?_⟩
    rintro rfl
    rw [Text.isIdStart_ascii (by decide)] at hfirst
    exact absurd hfirst (by decide)
  · decide

/-- So is a slash. -/
theorem written_slash (name : PathWord) (h : Written behind rest (name.text ++ after)) :
    Written behind (.symbol .slash :: rest) ('/' :: (name.text ++ after)) := by
  refine h.cons ⟨?_, '/', [], rfl, rfl⟩
  obtain ⟨first, more, htext, hfirst, -⟩ := name.exists_lexeme
  have hne : first ≠ '/' := by
    rintro rfl
    exact Word.notMem_beginnings hfirst (by decide)
  show Trivia.piece? ('/' :: (name.text ++ after)) = none
  rw [htext, Trivia.piece?, Trivia.inLine?]
  simp [Trivia.isBlank, Trivia.lineBreak?, hne]

end PathWord

namespace ImportPath

open PathWord (endsWord_cons)
open Word (Written)

variable (path : ImportPath) (behind : List Char)

/-! ## The words of an import -/

/-- The last name of a module, and what is behind it. -/
theorem written_alias (name : PathWord) :
    Written behind (name.word :: path.aliasWords)
      (name.text ++ (path.aliasText ++ ';' :: '\n' :: behind)) := by
  unfold aliasWords aliasText
  split
  · next other _ =>
    have hother := other.written (.semicolon behind) (endsWord_cons (by decide))
    exact name.written_space (hother.keyword .asKeyword (by decide))
  · exact name.written (.semicolon behind) (endsWord_cons (by decide))

/-- A name of a module, and the names behind it. -/
theorem written_others (name : PathWord) (others : List PathWord) :
    Written behind (name.word :: path.othersWords others)
      (name.text ++ (othersText others ++ (path.aliasText ++ ';' :: '\n' :: behind))) := by
  induction others generalizing name with
  | nil => exact path.written_alias behind name
  | cons other others ih =>
    have hother := other.written_dot (ih other)
    simpa [othersText, othersWords] using name.written hother (endsWord_cons (by decide))

/-- **An import as it is written offers its words**, and then what is on the next line. -/
theorem written_words :
    Written behind path.words
      ("import ".toList ++ (path.text ++ (";\n".toList ++ behind))) := by
  have hmodule := path.written_others behind path.first path.others
  have hpath : Written behind path.pathWords (path.text ++ (";\n".toList ++ behind)) := by
    unfold pathWords text organisationText
    split
    · next name _ =>
      simpa using
        name.written (path.first.written_slash hmodule) (endsWord_cons (by decide))
    · simpa using hmodule
  exact hpath.keyword .importKeyword (by decide)

end ImportPath

end TolerantSyntax
