import TolerantSyntax.Grammar.Bracketed.Member
import TolerantSyntax.Proofs.Expression.Compact

/-!
# Nested lists

A list in brackets whose members are names and such lists is a tuple type, a list binding pattern
and a list constructor at once. Here are its words, which are the same in all three grammars, and
the tree that each grammar makes of them.
-/

namespace TolerantSyntax

open Bracketed (Grammar)
open Word (ahead commaEach joined symbol)

/-- A name, or a list in brackets of names and lists, as it is written. -/
inductive Nested where
  | name (identifier : Identifier)
  | list (members : List Nested)

/-! ## Kinds of a grammar -/

namespace Bracketed.Grammar

/-- The kind of a list. -/
def listKind : Grammar → Kind
  | .type => .tupleTypeDescriptor
  | .pattern => .listBindingPattern
  | .expression => .listConstructor

/-- The kind of a name as a member of a list. -/
def nameKind : Grammar → Kind
  | .pattern => .captureBindingPattern
  | .type | .expression => .simpleNameReference

end Bracketed.Grammar

namespace Nested

/-- The members of a list; a name has none. -/
def members : Nested → List Nested
  | .name _ => []
  | .list members => members

/-! ## Words and trees -/

mutual

/-- The words of a name or a list. -/
def words : Nested → List Word
  | .name identifier => [identifier.word]
  | .list members => symbol .openBracket :: (listWords members ++ [symbol .closeBracket])

/-- The words of some members with commas between them. -/
def listWords : List Nested → List Word
  | [] => []
  | first :: rest => first.words ++ moreWords rest

/-- The words of some members with a comma before each. -/
def moreWords : List Nested → List Word
  | [] => []
  | first :: rest => symbol .comma :: (first.words ++ moreWords rest)

end

mutual

/-- The tree that a grammar makes of a name or a list. -/
def tree (grammar : Grammar) : Nested → Node
  | .name identifier => .of grammar.nameKind [identifier.word.leaf]
  | .list members =>
    .of grammar.listKind
      [(symbol .openBracket).leaf, .list (Expression.separated (trees grammar members)),
        (symbol .closeBracket).leaf]

/-- The trees that a grammar makes of some members. -/
def trees (grammar : Grammar) : List Nested → List Node
  | [] => []
  | first :: rest => first.tree grammar :: trees grammar rest

end

theorem moreWords_eq_commaEach (members : List Nested) :
    moreWords members = commaEach words members := by
  induction members with
  | nil => rw [moreWords, commaEach, List.flatMap_nil]
  | cons first rest ih => rw [moreWords, ih, Word.commaEach_cons]

theorem words_list (members : List Nested) :
    (list members).words =
      symbol .openBracket :: (joined words members ++ [symbol .closeBracket]) := by
  cases members with
  | nil => rw [words, listWords, joined]
  | cons first rest => rw [words, listWords, moreWords_eq_commaEach, joined]

theorem trees_eq_map (grammar : Grammar) (members : List Nested) :
    trees grammar members = members.map (tree grammar) := by
  induction members with
  | nil => rw [trees, List.map_nil]
  | cons first rest ih => rw [trees, ih, List.map_cons]

/-- Induction over a name or a list, with the members as parts. -/
theorem induct {motive : Nested → Prop} (name : ∀ identifier, motive (.name identifier))
    (list : ∀ members, (∀ member ∈ members, motive member) → motive (.list members))
    (nested : Nested) : motive nested :=
  Nested.rec (motive_2 := fun members => ∀ member ∈ members, motive member) name list
    (List.forall_mem_nil motive) (fun _ _ ihh iht => List.forall_mem_cons.mpr ⟨ihh, iht⟩) nested

/-! ## Rows of words -/

theorem isPlain_words (nested : Nested) : ∀ word ∈ nested.words, word.IsPlain := by
  induction nested using induct with
  | name identifier => exact Word.forall_isPlain_name identifier (List.forall_mem_nil _)
  | list members ih =>
    rw [words_list]
    refine Word.forall_isPlain_symbol (by decide) (List.forall_mem_append.mpr ⟨?_, ?_⟩)
    · exact Word.forall_mem_joined (.delimiter (by decide)) ih
    · exact Word.forall_isPlain_symbol (by decide) (List.forall_mem_nil _)

/-- Names and lists begin with a name or a bracket. -/
theorem ahead_words (nested : Nested) (rest : List Word) :
    ahead (nested.words ++ rest) = .identifier ∨ ahead (nested.words ++ rest) = .openBracket := by
  cases nested with
  | name identifier => exact .inl rfl
  | list members => exact .inr rfl

theorem ahead_words_ne (nested : Nested) {kind : Kind} (hname : kind ≠ .identifier)
    (hbracket : kind ≠ .openBracket) (rest : List Word) : ahead (nested.words ++ rest) ≠ kind := by
  rcases nested.ahead_words rest with hahead | hahead <;> rw [hahead]
  · exact hname.symm
  · exact hbracket.symm

end Nested

end TolerantSyntax
