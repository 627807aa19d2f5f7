import TolerantSyntax.Proofs.Expression.Source

/-!
# Concrete types

Types as they are written, with their parentheses: the words of a type, the tree that it should be
read as, and what it takes for the words to be read that way. A suffix is applied to a type without
operators, `&` has one on its right, and `|` has no other `|` on its right.

The words are written with single spaces between them, or so that each `>` touches the one behind
it. Both are texts of the same tokens (`spells_write`): two `>` are never one operator.
-/

namespace TolerantSyntax

/-! ## Words of types -/

namespace Word

/-- The word of a keyword. -/
def keyword (kind : Kind) : Word :=
  loose kind ((Kind.keywordText? kind).getD "").toList

/-- Symbols of types and of the definitions around them; each is always written the same way. -/
def typeSymbols : List Kind :=
  [.questionMark, .colon, .openParen, .closeParen, .openBracket, .closeBracket, .comma, .lt, .gt,
   .pipe, .bitwiseAnd, .semicolon]

/-- A word of a type or of the definition around it. -/
inductive IsTypeWord : Word → Prop where
  | name (identifier : Identifier) : IsTypeWord identifier.word
  | numeral (value : Numeral) : IsTypeWord value.word
  | keyword {kind : Kind} (h : kind ∈ Kind.keywords.map (·.2)) : IsTypeWord (keyword kind)
  | symbol {kind : Kind} (h : kind ∈ typeSymbols) : IsTypeWord (symbol kind)

/-- Does the text, in characters of words, spell the keyword? -/
def spellsKeyword (kind : Kind) : List Char → Bool
  | [] => false
  | first :: rest =>
    Text.isIdStart first && rest.all Text.isIdContinue && first :: rest != ['_'] &&
      Kind.keyword? (String.ofList (first :: rest)) == some kind

/-- The word of a keyword is one lexeme. -/
theorem isLexeme_keyword {kind : Kind} (h : kind ∈ Kind.keywords.map (·.2)) :
    (keyword kind).IsLexeme := by
  have htable :
      ∀ kind ∈ Kind.keywords.map (·.2), spellsKeyword kind (keyword kind).text = true := by
    decide +kernel
  have hspells := htable kind h
  obtain ⟨text, hword⟩ : ∃ text, keyword kind = loose kind text := ⟨_, rfl⟩
  rw [hword] at hspells ⊢
  cases text with
  | nil => cases hspells
  | cons first rest =>
    simp only [loose, spellsKeyword, Bool.and_eq_true, List.all_eq_true, bne_iff_ne, ne_eq,
      beq_iff_eq] at hspells
    obtain ⟨⟨⟨hfirst, hrest⟩, hline⟩, hkeyword⟩ := hspells
    refine isLexeme_loose (notMem_beginnings (.inl hfirst)) fun after hafter => ?_
    have hkind : Lexeme.wordKind .code (String.ofList (first :: rest)) = kind := by
      unfold Lexeme.wordKind
      rw [hkeyword]
    rw [next_of_isIdContinue hfirst hrest hline after
      (Lexeme.stops_of_follows isIdContinue_space hafter), hkind]

theorem isLexeme_typeSymbol {kind : Kind} (h : kind ∈ typeSymbols) : (symbol kind).IsLexeme := by
  rcases List.mem_cons.mp h with rfl | h
  · exact isLexeme_of_space (by decide) rfl fun _ => rfl
  rcases List.mem_cons.mp h with rfl | h
  · exact isLexeme_of_space (by decide) rfl fun _ => rfl
  -- all others are symbols of expressions too
  have hsymbols : ∀ kind ∈ typeSymbols.drop 2, kind ∈ symbols := by decide
  exact isLexeme_symbol (hsymbols kind h)

namespace IsTypeWord

variable {word : Word} {words : List Word}

theorem isLexeme (h : word.IsTypeWord) : word.IsLexeme := by
  cases h with
  | name identifier => exact isLexeme_name identifier.isName
  | numeral value => exact isLexeme_integer value.isInteger
  | keyword h => exact isLexeme_keyword h
  | symbol h => exact isLexeme_typeSymbol h

theorem tight_eq_false (h : word.IsTypeWord) : word.tight = false := by
  cases h <;> rfl

theorem kind_ne_eof (h : word.IsTypeWord) : word.kind ≠ .eof := by
  cases h with
  | name identifier => exact fun heof => Kind.noConfusion heof
  | numeral value =>
    intro heof
    have hliteral := value.isLiteral
    rw [show value.kind = .eof from heof] at hliteral
    exact absurd hliteral (by decide)
  | @keyword kind h =>
    have htable : ∀ kind ∈ Kind.keywords.map (·.2), kind ≠ .eof := by decide
    exact htable kind h
  | @symbol kind h =>
    have htable : ∀ kind ∈ typeSymbols, kind ≠ .eof := by decide
    exact htable kind h

/-- The only word of the kind of `>` is `>`. -/
theorem eq_symbol_gt (h : word.IsTypeWord) (hkind : word.kind = .gt) : word = Word.symbol .gt := by
  cases h with
  | name identifier => cases hkind
  | numeral value =>
    have hliteral := value.isLiteral
    rw [show value.kind = .gt from hkind] at hliteral
    exact absurd hliteral (by decide)
  | @keyword kind h =>
    have htable : ∀ kind ∈ Kind.keywords.map (·.2), kind ≠ .gt := by decide
    exact absurd hkind (htable kind h)
  | symbol h => exact congrArg Word.symbol hkind

end IsTypeWord

/-! ## Writing words -/

/-- What is written between a word and those behind it: a space, but nothing between two `>` that
are to touch, nor at the end. -/
def between (touching : Bool) (word : Word) : List Word → List Char
  | [] => []
  | next :: _ => if touching && word.kind == .gt && next.kind == .gt then [] else [' ']

/-- Words as they are written, with two `>` in a row touching or not. -/
def write (touching : Bool) : List Word → List Char
  | [] => []
  | word :: rest => word.text ++ (between touching word rest ++ write touching rest)

variable {touching : Bool} {word : Word} {words rest : List Word}

theorem between_eq_nil_or (touching : Bool) (word : Word) (rest : List Word) :
    between touching word rest = [] ∨ between touching word rest = [' '] := by
  cases rest with
  | nil => exact .inl rfl
  | cons next others =>
    rw [between]
    split
    · exact .inl rfl
    · exact .inr rfl

/-- Behind some words there is a space, unless a `>` follows. -/
theorem write_concat {next : Word} (hwords : words ≠ []) (hnext : next.kind ≠ .gt) :
    write touching (words ++ [next]) = write touching words ++ ' ' :: next.text := by
  have hgap (word : Word) : between touching word [next] = [' '] := by
    rw [between, beq_eq_false_iff_ne.mpr hnext, Bool.and_false, if_neg Bool.false_ne_true]
  induction words with
  | nil => exact absurd rfl hwords
  | cons word rest ih =>
    cases rest with
    | nil =>
      rw [List.singleton_append, write, hgap]
      simp [write, between]
    | cons other others =>
      have hbetween : between touching word (other :: others ++ [next]) =
          between touching word (other :: others) := rfl
      rw [List.cons_append, write, ih (List.cons_ne_nil _ _), hbetween,
        write.eq_2 touching word (other :: others)]
      simp only [List.append_assoc]

/-- A word of a type is visible, and one lexeme in front of what is written behind it. -/
theorem IsTypeWord.exists_lexeme (hword : word.IsTypeWord)
    (hrest : ∀ word ∈ rest, word.IsTypeWord) :
    Trivia.piece? (word.text ++ (between touching word rest ++ write touching rest)) = none ∧
      ∃ first more, word.text = first :: more ∧
        Lexeme.next .code first (more ++ (between touching word rest ++ write touching rest)) =
          .clean word.kind more.length := by
  obtain ⟨hvisible, first, more, htext, hnext⟩ := hword.isLexeme
  have hfollows {after : List Char} (h : after = [] ∨ after.head? = some ' ') :
      word.Follows after := by
    rw [Follows, hword.tight_eq_false]
    exact h
  cases rest with
  | nil =>
    exact ⟨hvisible _ (hfollows (.inl rfl)), first, more, htext, hnext _ (hfollows (.inl rfl))⟩
  | cons next others =>
    rw [between]
    split
    · next hgt =>
      -- a `>` is one lexeme in front of another one
      simp only [Bool.and_eq_true, beq_iff_eq] at hgt
      obtain rfl := hword.eq_symbol_gt hgt.1.2
      obtain rfl := (hrest next List.mem_cons_self).eq_symbol_gt hgt.2
      exact ⟨Trivia.piece?_of_notMem (by decide), '>', [], rfl, rfl⟩
    · exact ⟨hvisible _ (hfollows (.inr rfl)), first, more, htext, hnext _ (hfollows (.inr rfl))⟩

theorem piece?_write (h : ∀ word ∈ words, word.IsTypeWord) :
    Trivia.piece? (write touching words) = none := by
  cases words with
  | nil => rfl
  | cons word rest =>
    obtain ⟨hword, hrest⟩ := List.forall_mem_cons.mp h
    exact (hword.exists_lexeme hrest).1

/-- **Words of types are the tokens of what is written**, however they are spaced. -/
theorem spells_write (h : ∀ word ∈ words, word.IsTypeWord) :
    Spells (String.ofList (write touching words)) words := by
  have hyields {scanner : Scanner} (hmode : scanner.mode = .code)
      (hrest : scanner.rest = write touching words) : scanner.Yields words := by
    induction words generalizing scanner with
    | nil => exact Scanner.yields_nil hrest
    | cons word rest ih =>
      obtain ⟨hword, hothers⟩ := List.forall_mem_cons.mp h
      obtain ⟨hvisible, first, more, htext, hlexeme⟩ := hword.exists_lexeme hothers
      obtain ⟨htoken, -, -, hbehind⟩ := Scanner.next_of_lexeme hmode hrest htext
        (hrest ▸ hvisible) hlexeme (between_eq_nil_or touching word rest)
        (piece?_write hothers)
      exact (ih hothers ((Scanner.isStep_next scanner).same.2.trans hmode) hbehind).cons
        hword.kind_ne_eof htoken
  exact hyields rfl String.toList_ofList

end Word

open Word (joined keyword symbol)

/-! ## Types -/

/-- A keyword that names a type on its own. -/
structure TypeKeyword where
  kind : Kind
  isSimple : kind.isSimpleTypeKeyword = true

/-- The word that a keyword is written as. -/
def TypeKeyword.word (name : TypeKeyword) : Word :=
  .keyword name.kind

theorem TypeKeyword.mem_keywords (name : TypeKeyword) :
    name.kind ∈ Kind.keywords.map (·.2) := by
  have htable : ∀ kind ∈ Kind.simpleTypeKeywords, kind ∈ Kind.keywords.map (·.2) := by decide
  exact htable _ (List.contains_iff_mem.mp name.isSimple)

/-- A type as it is written. -/
inductive ConcreteType where
  | keyword (name : TypeKeyword)
  | named (name : Identifier)
  | qualified (module name : Identifier)
  | optional (target : ConcreteType)
  | array (target : ConcreteType) (length : Option Numeral)
  | map (parameter : ConcreteType)
  | braced (inner : ConcreteType)
  | tuple (members : List ConcreteType)
  | intersection (left right : ConcreteType)
  | union (left right : ConcreteType)

/-- How tightly the operator on top of a type binds. -/
inductive TypeLevel where
  /-- A type without operators: on its own, or with suffixes behind it. -/
  | suffixed
  | intersection
  | union
deriving DecidableEq

namespace ConcreteType

/-- How tightly the operator on top binds. -/
def level : ConcreteType → TypeLevel
  | .intersection _ _ => .intersection
  | .union _ _ => .union
  | _ => .suffixed

/-- The words of the length of an array. -/
def lengthWords (length : Option Numeral) : List Word :=
  length.toList.map Numeral.word

/-- The node of the brackets behind an array type. -/
def dimension (length : Option Numeral) : Node :=
  .ofSlots .arrayDimension
    [some (symbol .openBracket).leaf, length.map fun value => .of .basicLiteral [value.word.leaf],
      some (symbol .closeBracket).leaf]

mutual

/-- The words of a type. -/
def words : ConcreteType → List Word
  | .keyword name => [name.word]
  | .named name => [name.word]
  | .qualified module name => [module.word, symbol .colon, name.word]
  | .optional target => target.words ++ [symbol .questionMark]
  | .array target length =>
    target.words ++ (symbol .openBracket :: (lengthWords length ++ [symbol .closeBracket]))
  | .map parameter =>
    Word.keyword .mapKeyword :: symbol .lt :: (parameter.words ++ [symbol .gt])
  | .braced inner => symbol .openParen :: (inner.words ++ [symbol .closeParen])
  | .tuple members => symbol .openBracket :: (listWords members ++ [symbol .closeBracket])
  | .intersection left right => left.words ++ (symbol .bitwiseAnd :: right.words)
  | .union left right => left.words ++ (symbol .pipe :: right.words)

/-- The words of some types with commas between them. -/
def listWords : List ConcreteType → List Word
  | [] => []
  | first :: rest => first.words ++ moreWords rest

/-- The words of some types with a comma before each. -/
def moreWords : List ConcreteType → List Word
  | [] => []
  | first :: rest => symbol .comma :: (first.words ++ moreWords rest)

end

mutual

/-- The tree that a type should be read as. -/
def node : ConcreteType → Node
  | .keyword name => .of .builtinSimpleTypeDescriptor [name.word.leaf]
  | .named name => .of .simpleNameReference [name.word.leaf]
  | .qualified module name =>
    .of .qualifiedNameReference [module.word.leaf, (symbol .colon).leaf, name.word.leaf]
  | .optional target => .of .optionalTypeDescriptor [target.node, (symbol .questionMark).leaf]
  | .array target length => .of .arrayTypeDescriptor [target.node, dimension length]
  | .map parameter =>
    .of .parameterizedTypeDescriptor
      [(Word.keyword .mapKeyword).leaf,
        .of .typeParameter [(symbol .lt).leaf, parameter.node, (symbol .gt).leaf]]
  | .braced inner =>
    .of .parenthesisedTypeDescriptor
      [(symbol .openParen).leaf, inner.node, (symbol .closeParen).leaf]
  | .tuple members =>
    .of .tupleTypeDescriptor
      [(symbol .openBracket).leaf, .list (Expression.separated (nodes members)),
        (symbol .closeBracket).leaf]
  | .intersection left right =>
    .of .intersectionTypeDescriptor [left.node, (symbol .bitwiseAnd).leaf, right.node]
  | .union left right => .of .unionTypeDescriptor [left.node, (symbol .pipe).leaf, right.node]

/-- The trees of some types. -/
def nodes : List ConcreteType → List Node
  | [] => []
  | first :: rest => first.node :: nodes rest

end

/-- The type as it is written: its words with single spaces between them, except that `>` may touch
the `>` behind it. -/
def print (touching : Bool) (type : ConcreteType) : String :=
  String.ofList (Word.write touching type.words)

mutual

/-- Suffixes and operators have operands that bind tightly enough. -/
def WellFormed : ConcreteType → Prop
  | .keyword _ | .named _ | .qualified _ _ => True
  | .optional target => target.WellFormed ∧ target.level = .suffixed
  | .array target _ => target.WellFormed ∧ target.level = .suffixed
  | .map parameter => parameter.WellFormed
  | .braced inner => inner.WellFormed
  | .tuple members => AllWellFormed members
  | .intersection left right =>
    left.WellFormed ∧ right.WellFormed ∧ left.level ≠ .union ∧ right.level = .suffixed
  | .union left right => left.WellFormed ∧ right.WellFormed ∧ right.level ≠ .union

/-- All of them are well-formed. -/
def AllWellFormed : List ConcreteType → Prop
  | [] => True
  | first :: rest => first.WellFormed ∧ AllWellFormed rest

end

/-! ## Lists of types -/

/-- Induction over a type, with the members of a tuple as parts. -/
theorem induct {motive : ConcreteType → Prop}
    (keyword : ∀ name, motive (.keyword name)) (named : ∀ name, motive (.named name))
    (qualified : ∀ module name, motive (.qualified module name))
    (optional : ∀ target, motive target → motive (.optional target))
    (array : ∀ target length, motive target → motive (.array target length))
    (map : ∀ parameter, motive parameter → motive (.map parameter))
    (braced : ∀ inner, motive inner → motive (.braced inner))
    (tuple : ∀ members, (∀ member ∈ members, motive member) → motive (.tuple members))
    (intersection : ∀ left right, motive left → motive right → motive (.intersection left right))
    (union : ∀ left right, motive left → motive right → motive (.union left right))
    (type : ConcreteType) : motive type :=
  ConcreteType.rec (motive_2 := fun members => ∀ member ∈ members, motive member)
    keyword named qualified optional array map braced tuple intersection union
    (List.forall_mem_nil motive) (fun _ _ ihh iht => List.forall_mem_cons.mpr ⟨ihh, iht⟩) type

theorem allWellFormed_iff (members : List ConcreteType) :
    AllWellFormed members ↔ ∀ member ∈ members, member.WellFormed := by
  induction members with
  | nil => simp [AllWellFormed]
  | cons first rest ih => simp [AllWellFormed, ih]

theorem moreWords_eq_commaEach (members : List ConcreteType) :
    moreWords members = Word.commaEach words members := by
  induction members with
  | nil => rw [moreWords, Word.commaEach, List.flatMap_nil]
  | cons first rest ih => rw [moreWords, ih, Word.commaEach_cons]

theorem words_tuple (members : List ConcreteType) :
    (tuple members).words =
      symbol .openBracket :: (joined words members ++ [symbol .closeBracket]) := by
  cases members with
  | nil => rw [words, listWords, joined]
  | cons first rest => rw [words, listWords, moreWords_eq_commaEach, joined]

theorem nodes_eq_map (members : List ConcreteType) : nodes members = members.map node := by
  induction members with
  | nil => rw [nodes, List.map_nil]
  | cons first rest ih => rw [nodes, ih, List.map_cons]

/-! ## Rows of words -/

theorem isTypeWord_words (type : ConcreteType) : ∀ word ∈ type.words, word.IsTypeWord := by
  have hsymbol {kind : Kind} (h : kind ∈ Word.typeSymbols) :
      ∀ word ∈ [symbol kind], word.IsTypeWord := List.forall_mem_singleton.mpr (.symbol h)
  induction type using induct with
  | keyword name => exact List.forall_mem_singleton.mpr (.keyword name.mem_keywords)
  | named name => exact List.forall_mem_singleton.mpr (.name name)
  | qualified module name =>
    exact List.forall_mem_cons.mpr ⟨.name module, List.forall_mem_cons.mpr
      ⟨.symbol (by decide), List.forall_mem_singleton.mpr (.name name)⟩⟩
  | optional target ih => exact List.forall_mem_append.mpr ⟨ih, hsymbol (by decide)⟩
  | array target length ih =>
    refine List.forall_mem_append.mpr ⟨ih, List.forall_mem_cons.mpr ⟨.symbol (by decide), ?_⟩⟩
    refine List.forall_mem_append.mpr ⟨?_, hsymbol (by decide)⟩
    exact List.forall_mem_map.mpr fun value _ => .numeral value
  | map parameter ih =>
    exact List.forall_mem_cons.mpr ⟨.keyword (by decide), List.forall_mem_cons.mpr
      ⟨.symbol (by decide), List.forall_mem_append.mpr ⟨ih, hsymbol (by decide)⟩⟩⟩
  | braced inner ih =>
    exact List.forall_mem_cons.mpr
      ⟨.symbol (by decide), List.forall_mem_append.mpr ⟨ih, hsymbol (by decide)⟩⟩
  | tuple members ih =>
    rw [words_tuple]
    exact List.forall_mem_cons.mpr ⟨.symbol (by decide), List.forall_mem_append.mpr
      ⟨Word.forall_mem_joined (.symbol (by decide)) ih, hsymbol (by decide)⟩⟩
  | intersection left right ihl ihr =>
    exact List.forall_mem_append.mpr
      ⟨ihl, List.forall_mem_cons.mpr ⟨.symbol (by decide), ihr⟩⟩
  | union left right ihl ihr =>
    exact List.forall_mem_append.mpr
      ⟨ihl, List.forall_mem_cons.mpr ⟨.symbol (by decide), ihr⟩⟩

/-- The first word of a type can begin one. -/
theorem starts_words (type : ConcreteType) :
    ∀ rest, Starts.type (Word.ahead (type.words ++ rest)) = true := by
  induction type using induct with
  | keyword name =>
    intro rest
    show Starts.type name.kind = true
    rw [Starts.type, Kind.isTypeKeyword, name.isSimple]
    rfl
  | optional target ih | array target length ih | intersection target right ih
  | union target right ih =>
    intro rest
    rw [words, List.append_assoc]
    exact ih _
  | _ => exact fun _ => rfl

theorem words_ne_nil (type : ConcreteType) : type.words ≠ [] := by
  intro h
  have hstarts := type.starts_words []
  rw [h] at hstarts
  exact absurd hstarts (by decide)

end ConcreteType

end TolerantSyntax
