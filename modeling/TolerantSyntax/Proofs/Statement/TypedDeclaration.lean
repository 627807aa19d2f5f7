import TolerantSyntax.Proofs.Bracketed.Resolution
import TolerantSyntax.Proofs.Statement.Lookahead
import TolerantSyntax.Proofs.Type.RoundTrip

/-!
# Recognising a declaration by its type

A statement that begins with a name is a declaration if lookahead takes what it begins with for a
type. Lookahead is bounded: behind the name of the type it foresees an operator, or dimensions, a
`?` and the name of the variable, in this order. Types of other forms are types too, but a statement
that begins with one of them is taken for an expression.
-/

namespace TolerantSyntax

open ParseM
open Word (ahead symbol)

namespace ConcreteType

/-! ## Types that are foreseen -/

/-- Is it the name of a type, of a module or not? -/
def isName : ConcreteType → Bool
  | .named _ | .qualified _ _ => true
  | _ => false

/-- Is it a name with dimensions behind it, or none? -/
def isDimensioned : ConcreteType → Bool
  | .array target _ => target.isDimensioned
  | type => type.isName

/-- Is the leftmost operand of its operators a name? -/
def joinsName : ConcreteType → Bool
  | .intersection left _ | .union left _ => left.joinsName
  | type => type.isName

/-- Does lookahead foresee the type? -/
def isForeseen : ConcreteType → Bool
  | .intersection left _ | .union left _ => left.joinsName
  | .optional target => target.isDimensioned
  | type => type.isDimensioned

end ConcreteType

namespace Lookahead

open ConcreteType (lengthWords)

variable {tail : List Kind}

/-- Do dimensions come next, with the name of a variable behind them? -/
def declaresAfterDimensions (kinds : List Kind) : Bool :=
  match afterDimensions? kinds with
  | some (.identifier :: _) => true
  | some (.questionMark :: .identifier :: _) => true
  | _ => false

/-- A dimension is passed over. -/
theorem afterDimensions?_dimension (length : Option Numeral) :
    afterDimensions? ((symbol .openBracket :: (lengthWords length ++ [symbol .closeBracket])).map
      Word.kind ++ tail) = afterDimensions? tail := by
  cases length with
  | none =>
    show afterDimensions? (.openBracket :: .closeBracket :: tail) = _
    rw [afterDimensions?]
    rfl
  | some value =>
    obtain ⟨kind, text, hvalue⟩ := value
    show afterDimensions? (.openBracket :: kind :: .closeBracket :: tail) = _
    have hclose : matchingClose? (.openBracket :: kind :: .closeBracket :: tail) = some 2 := by
      cases hvalue <;> rfl
    rw [afterDimensions?, hclose]
    rfl

theorem declaresAfterDimensions_dimension (length : Option Numeral) :
    declaresAfterDimensions ((symbol .openBracket ::
      (lengthWords length ++ [symbol .closeBracket])).map Word.kind ++ tail) =
        declaresAfterDimensions tail := by
  rw [declaresAfterDimensions, afterDimensions?_dimension]
  rfl

/-- What follows the name of a type decides. -/
theorem declaresFromIdentifier_name {type : ConcreteType} (h : type.isName = true)
    (hcolon : tail.head? ≠ some .colon) :
    declaresFromIdentifier (type.words.map Word.kind ++ tail) = declaresAfterName tail := by
  cases type with
  | named name => exact declaresFromIdentifier_of_ne hcolon
  | qualified module name => rfl
  | _ => cases h

/-- Dimensions behind the name are passed over. -/
theorem declaresFromIdentifier_dimensions {type : ConcreteType} (h : type.isDimensioned = true)
    (kinds : List Kind) :
    declaresFromIdentifier (type.words.map Word.kind ++ .openBracket :: kinds) =
      declaresAfterDimensions (.openBracket :: kinds) := by
  induction type using ConcreteType.induct generalizing kinds with
  | array target length ih =>
    rw [ConcreteType.words, List.map_append, List.append_assoc]
    exact (ih h _).trans (declaresAfterDimensions_dimension length)
  | named name => exact declaresFromIdentifier_name rfl (by simp)
  | qualified module name => exact declaresFromIdentifier_name rfl (by simp)
  | _ => cases h

/-- What declares a variable behind a name and behind dimensions does so behind both. -/
theorem declaresFromIdentifier_dimensioned {type : ConcreteType} (h : type.isDimensioned = true)
    (hcolon : tail.head? ≠ some .colon) (hname : declaresAfterName tail = true)
    (hdimensions : declaresAfterDimensions tail = true) :
    declaresFromIdentifier (type.words.map Word.kind ++ tail) = true := by
  cases type with
  | array target length =>
    have htarget : target.isDimensioned = true := h
    rw [ConcreteType.words, List.map_append, List.append_assoc]
    exact (declaresFromIdentifier_dimensions htarget _).trans
      ((declaresAfterDimensions_dimension length).trans hdimensions)
  | named name => exact (declaresFromIdentifier_name rfl hcolon).trans hname
  | qualified module name => exact (declaresFromIdentifier_name rfl hcolon).trans hname
  | _ => cases h

/-- An operator that joins types declares, whatever is behind it. -/
theorem declaresFromIdentifier_operator {type : ConcreteType} (h : type.joinsName = true)
    {operator : Kind} (hoperator : operator = .pipe ∨ operator = .bitwiseAnd) (kinds : List Kind) :
    declaresFromIdentifier (type.words.map Word.kind ++ operator :: kinds) = true := by
  have hname {type : ConcreteType} (h : type.isName = true) {operator : Kind}
      (hoperator : operator = .pipe ∨ operator = .bitwiseAnd) (kinds : List Kind) :
      declaresFromIdentifier (type.words.map Word.kind ++ operator :: kinds) = true := by
    rcases hoperator with rfl | rfl <;> exact declaresFromIdentifier_name h (by simp)
  induction type using ConcreteType.induct generalizing operator kinds with
  | intersection left right ih =>
    rw [ConcreteType.words, List.map_append, List.append_assoc]
    exact ih h (.inr rfl) _
  | union left right ih =>
    rw [ConcreteType.words, List.map_append, List.append_assoc]
    exact ih h (.inl rfl) _
  | named name => exact hname rfl hoperator kinds
  | qualified module name => exact hname rfl hoperator kinds
  | _ => cases h

/-- **A type that is foreseen declares the variable behind it.** -/
theorem declaresFromIdentifier_foreseen {type : ConcreteType} (h : type.isForeseen = true)
    (kinds : List Kind) :
    declaresFromIdentifier (type.words.map Word.kind ++ .identifier :: .equal :: kinds) = true := by
  have hvariable : declaresAfterDimensions (.identifier :: .equal :: kinds) = true := by
    simp [declaresAfterDimensions, afterDimensions?]
  have hoptional :
      declaresAfterDimensions (.questionMark :: .identifier :: .equal :: kinds) = true := by
    simp [declaresAfterDimensions, afterDimensions?]
  cases type with
  | intersection left right =>
    rw [ConcreteType.words, List.map_append, List.append_assoc]
    exact declaresFromIdentifier_operator h (.inr rfl) _
  | union left right =>
    rw [ConcreteType.words, List.map_append, List.append_assoc]
    exact declaresFromIdentifier_operator h (.inl rfl) _
  | optional target =>
    rw [ConcreteType.words, List.map_append, List.append_assoc]
    exact declaresFromIdentifier_dimensioned h (show some Kind.questionMark ≠ _ by decide) rfl
      hoptional
  | _ => exact declaresFromIdentifier_dimensioned h (by simp) rfl hvariable

end Lookahead

/-! ## Reading a declaration -/

namespace ConcreteType

variable {kinds : List Kind} {total : Nat} {type : ConcreteType}

/-- The type is read up to the name of the variable, which makes nothing else of its suffixes. -/
theorem gives_localDeclaration (hwf : type.WellFormed) (name value : Identifier) :
    GivesAmong kinds total (localDeclaration none)
      (type.words ++ (ListUse.declare name value).words) []
      (Node.Renders · ((ListUse.declare name value).tree type.node)) := by
  have htype : GivesAmong kinds total (typeDescriptor .typedBindingPattern)
      (type.words ++ (ListUse.declare name value).words) (ListUse.declare name value).words
      (Node.Renders · type.node) :=
    (type.isReadAt_level hwf).ofLevel.2.gives_typeDescriptor
      ⟨rfl, fun _ => show Kind.identifier ∉ _ by decide⟩ (show Kind.identifier ∉ _ by decide)
  have hbinding : GivesAmong kinds total typedBinding
      (type.words ++ (ListUse.declare name value).words) (ListUse.assign value).words
      (Node.Renders · (.of .typedBindingPattern
        [type.node, .of .captureBindingPattern [name.word.leaf]])) :=
    GivesAmong.within (htype.bind fun node hnode => gives_typedBindingAfter name hnode) _
  exact GivesAmong.within (hbinding.bind fun node hnode => gives_variableRhs value hnode) _

theorem ahead_words_of_name (h : type.isDimensioned = true ∨ type.joinsName = true)
    (rest : List Word) : ahead (type.words ++ rest) = .identifier := by
  induction type using induct generalizing rest with
  | named name => rfl
  | qualified module name => rfl
  | array target length ih =>
    rw [words, List.append_assoc]
    exact ih (.inl (h.resolve_right Bool.false_ne_true)) _
  | intersection left right ih =>
    rw [words, List.append_assoc]
    exact ih (.inr (h.resolve_left Bool.false_ne_true)) _
  | union left right ih =>
    rw [words, List.append_assoc]
    exact ih (.inr (h.resolve_left Bool.false_ne_true)) _
  | _ => rcases h with h | h <;> cases h

/-- A type that is foreseen begins with a name. -/
theorem ahead_words_of_isForeseen (h : type.isForeseen = true) (rest : List Word) :
    ahead (type.words ++ rest) = .identifier := by
  cases type with
  | intersection left right =>
    have hjoins : (intersection left right).joinsName = true := h
    exact ahead_words_of_name (.inr hjoins) rest
  | union left right =>
    have hjoins : (union left right).joinsName = true := h
    exact ahead_words_of_name (.inr hjoins) rest
  | optional target =>
    rw [words, List.append_assoc]
    exact ahead_words_of_name (.inl h) _
  | _ => exact ahead_words_of_name (.inl h) rest

/-- Kinds of the words of types and of the declarations around them. -/
def declarationKinds : List Kind :=
  [.equal, .identifier, .decimalIntegerLiteral, .hexIntegerLiteral] ++
    (Word.typeSymbols ++ Kind.keywords.map (·.2))

theorem loose_typeWord {word : Word} (h : word.IsTypeWord) :
    word.kind ∈ declarationKinds ∧ word.tight = false := by
  refine ⟨?_, h.tight_eq_false⟩
  cases h with
  | name identifier => exact List.mem_append_left _ (show Kind.identifier ∈ _ by decide)
  | numeral value =>
    obtain ⟨kind, text, hvalue⟩ := value
    refine List.mem_append_left _ (show kind ∈ _ from ?_)
    cases hvalue <;> decide
  | keyword h => exact List.mem_append_right _ (List.mem_append_right _ h)
  | symbol h => exact List.mem_append_right _ (List.mem_append_left _ h)

/-- **A declaration is recognised by its type**, if lookahead foresees the type: the statement is
the declaration of a variable, nothing is wrong with it, and the type in it has the shape and the
tokens of the type on its own. How the words are laid out does not matter. -/
theorem declares_variable (hwf : type.WellFormed) (hforeseen : type.isForeseen = true)
    (name value : Identifier) {source alone : String}
    (hsource : Word.Spells source (type.words ++ (ListUse.declare name value).words))
    (halone : Word.Spells alone type.words) :
    ∃ statement part node, parseFragment source .statement = some statement ∧
      statement.kind = .localVariableDeclaration ∧ statement.diagnostics = [] ∧
      (ListUse.declare name value).list? statement = some part ∧
      resumeContext alone .typeDescriptor = some node ∧ part.isIsomorphic node = true := by
  have htype : ∀ word ∈ type.words, word.kind ∈ declarationKinds ∧ word.tight = false :=
    fun word hmem => loose_typeWord (type.isTypeWord_words word hmem)
  have hwords : ∀ word ∈ type.words ++ (ListUse.declare name value).words,
      word.kind ∈ declarationKinds ∧ word.tight = false := by
    refine List.forall_mem_append.mpr ⟨htype, List.forall_mem_cons.mpr ⟨loose_typeWord (.name name),
      List.forall_mem_cons.mpr ⟨⟨by decide, rfl⟩, List.forall_mem_cons.mpr
        ⟨loose_typeWord (.name value), List.forall_mem_singleton.mpr ⟨by decide, rfl⟩⟩⟩⟩⟩
  have hlook (count : Nat) : Lookahead.declaresFromIdentifier
      ((type.words ++ (ListUse.declare name value).words).map Word.kind ++
        List.replicate (count + 1) .eof) = true := by
    rw [List.map_append, List.append_assoc]
    exact Lookahead.declaresFromIdentifier_foreseen hforeseen _
  obtain ⟨statement, hparse, hrenders⟩ := parseFragment_of_gives
    (hsource.faces (by decide) hwords) (gives_loneStatement (by decide)
      (gives_statementOfName (ahead_words_of_isForeseen hforeseen _) hlook
        (gives_localDeclaration hwf name value)))
  obtain ⟨part, hpart, hiso⟩ := ListUse.exists_list?_of_isIsomorphic hrenders.isIsomorphic
  have hfaces : (Scanner.ofSource alone).FacesAmong declarationKinds (type.words ++ []) := by
    rw [List.append_nil]
    exact halone.faces (by decide) htype
  have hresume : ∃ node, resumeContext alone .typeDescriptor = some node ∧
      node.Renders type.node :=
    exists_resumeContext rfl hfaces ((type.isReadAt_level hwf).ofLevel.2.gives_typeDescriptor
      (.of_eq rfl) (show Kind.eof ∉ _ by decide))
  obtain ⟨node, hnode, hlike⟩ := hresume
  exact ⟨statement, part, node, hparse, hrenders.kind_eq, hrenders.diagnostics_eq_nil, hpart,
    hnode, Node.isIsomorphic_of_both part hiso hlike.isIsomorphic⟩

/-- A type that goes on behind its `?` is not foreseen. -/
example :
    ((ParseM.fragment .statement (.ofFuel .standard 60) (.ofSource "a?|b x = v;")).map fun r =>
      (r.1.kind, r.1.collect.isEmpty)) = some (.expressionStatement, false) := by
  decide +kernel

end ConcreteType

end TolerantSyntax
