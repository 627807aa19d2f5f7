import TolerantSyntax.Proofs.Expression.Extent
import TolerantSyntax.Proofs.Lookahead.Dimensions

/-!
# What lookahead takes for a declaration

A statement that begins with a name is taken for a declaration if what follows the name could go on
a type. An access to a member or to a part cannot: none is followed by a name, as the brackets of a
type are. Only an operator that joins types, right behind a name that stands alone, is taken for
what it is not.
-/

namespace TolerantSyntax

open Word (ahead symbol)

namespace Lookahead

/-! ## Brackets -/

variable {kinds rest : List Kind}

/-- Behind dimensions there is what stands behind a closing bracket. -/
theorem eq_or_of_afterDimensions? (h : afterDimensions? kinds = some rest) :
    kinds = rest ∨ ∃ dimensions, kinds = dimensions ++ .closeBracket :: rest := by
  obtain ⟨dimensions, other, hreads⟩ := reads_afterDimensions? kinds
  obtain rfl : other = rest := by
    have hafter := hreads.afterDimensions?.symm.trans h
    split at hafter
    · cases hafter
    · exact Option.some.inj hafter
  rw [hreads.eq_append]
  rcases List.eq_nil_or_concat dimensions with rfl | ⟨before, last, rfl⟩
  · exact .inl rfl
  · have hlast : IsDimension last := hreads.isDimension last (by simp)
    obtain ⟨inner, rfl⟩ := hlast.exists_eq_append
    exact .inr ⟨before.flatten ++ inner, by simp⟩

/-! ## Names that are not followed by a name -/

/-- No bracket is followed by a name, nor by a `?` that a name could follow. -/
def Unnamed (kinds : List Kind) : Prop :=
  kinds.IsChain fun first second =>
    first = .closeBracket → second ≠ .identifier ∧ second ≠ .questionMark

theorem unnamed_cons {first : Kind} (hfirst : first ≠ .closeBracket) (h : Unnamed kinds) :
    Unnamed (first :: kinds) :=
  List.isChain_cons.mpr ⟨fun _ _ heq => absurd heq hfirst, h⟩

theorem unnamed_eof (count : Nat) : Unnamed (List.replicate count .eof) := by
  induction count with
  | zero => exact .nil
  | succ count ih => exact unnamed_cons (by decide) ih

/-- The kinds may stand behind a bracket, and no bracket among them is followed by a name. -/
structure FollowsBracket (kinds : List Kind) : Prop where
  unnamed : Unnamed kinds
  head : kinds.head? ≠ some .identifier ∧ kinds.head? ≠ some .questionMark

theorem followsBracket_cons {kind : Kind} (h : Unnamed kinds)
    (hkind : kind ∉ [.closeBracket, .identifier, .questionMark]) :
    FollowsBracket (kind :: kinds) := by
  simp only [List.mem_cons, List.not_mem_nil, or_false, not_or] at hkind
  exact ⟨unnamed_cons hkind.1 h, by simp [hkind], by simp [hkind]⟩

theorem followsBracket_close (h : FollowsBracket kinds) :
    FollowsBracket (.closeBracket :: kinds) := by
  refine ⟨List.isChain_cons.mpr ⟨fun second hsecond _ => ?_, h.unnamed⟩, by simp, by simp⟩
  exact ⟨fun heq => h.head.1 (heq ▸ hsecond), fun heq => h.head.2 (heq ▸ hsecond)⟩

/-- Kinds behind the name that begins a type that make a declaration of the statement. -/
def declaring : List Kind :=
  [.colon, .identifier, .questionMark, .pipe, .bitwiseAnd]

/-- Nor are dimensions followed by a name then, nor by a `?`. -/
theorem Unnamed.head_ne {second : Kind} (h : Unnamed (.openBracket :: kinds))
    (hbehind : afterDimensions? (.openBracket :: kinds) = some (second :: rest)) :
    second ≠ .identifier ∧ second ≠ .questionMark := by
  rcases eq_or_of_afterDimensions? hbehind with heq | ⟨dimensions, hsplit⟩
  · rw [← (List.cons.inj heq).1]
    decide
  · rw [hsplit] at h
    have hclose : Unnamed (.closeBracket :: second :: rest) := List.IsChain.right_of_append h
    exact (List.isChain_cons_cons.mp hclose).1 rfl

/-- If a name is not that of a module, what follows it decides. -/
theorem declaresFromIdentifier_of_ne {first : Kind} (hcolon : kinds.head? ≠ some .colon) :
    declaresFromIdentifier (first :: kinds) = declaresAfterName kinds := by
  unfold declaresFromIdentifier
  split
  · next heq =>
    rw [(List.cons.inj heq).2] at hcolon
    exact absurd rfl hcolon
  · next heq => rw [(List.cons.inj heq).2]
  · next heq => cases heq

/-- Where no bracket is followed by a name, a declaration is one by what stands right behind the
name that begins it. -/
theorem declaresFromIdentifier_eq_false {first second : Kind} (hsecond : second ∉ declaring)
    (h : Unnamed (second :: rest)) : declaresFromIdentifier (first :: second :: rest) = false := by
  simp only [declaring, List.mem_cons, List.not_mem_nil, or_false, not_or] at hsecond
  obtain ⟨hcolon, hname, hquestion, hpipe, hand⟩ := hsecond
  rw [declaresFromIdentifier_of_ne (by simp [hcolon])]
  unfold declaresAfterName
  split
  · next heq => exact absurd (List.cons.inj heq).1 hname
  · next heq => exact absurd (List.cons.inj heq).1 hquestion
  · next heq => exact absurd (List.cons.inj heq).1 hquestion
  · next heq => exact absurd (List.cons.inj heq).1 hpipe
  · next heq => exact absurd (List.cons.inj heq).1 hand
  · next kinds heq =>
    rw [heq] at h ⊢
    split
    · next hbehind => exact absurd rfl (h.head_ne hbehind).1
    · next hbehind => exact absurd rfl (h.head_ne hbehind).2
    · rfl
  · rfl

end Lookahead

/-! ## Expressions -/

namespace Expression

open Lookahead

variable {list : List Expression} {tail : List Kind}

theorem unnamed_listWords
    (h : ∀ e ∈ list, ∀ tail, FollowsBracket tail → Unnamed (e.words.map Word.kind ++ tail))
    (htail : FollowsBracket tail) : Unnamed ((listWords list).map Word.kind ++ tail) := by
  rw [listWords_eq_joined]
  have hmore (others : List Expression)
      (h : ∀ e ∈ others, ∀ tail, FollowsBracket tail → Unnamed (e.words.map Word.kind ++ tail)) :
      FollowsBracket ((Word.commaEach words others).map Word.kind ++ tail) := by
    induction others with
    | nil => exact htail
    | cons first others ih =>
      obtain ⟨hfirst, hothers⟩ := List.forall_mem_cons.mp h
      rw [Word.commaEach_cons, List.map_cons, List.map_append, List.cons_append, List.append_assoc]
      exact followsBracket_cons (hfirst _ (ih hothers)) (show Kind.comma ∉ _ by decide)
  cases list with
  | nil => exact htail.unnamed
  | cons first others =>
    obtain ⟨hfirst, hothers⟩ := List.forall_mem_cons.mp h
    rw [Word.joined, List.map_append, List.append_assoc]
    exact hfirst _ (hmore others hothers)

/-- **In the words of an expression, no bracket is followed by a name.** -/
theorem unnamed_words (e : Expression) :
    ∀ tail, FollowsBracket tail → Unnamed (e.words.map Word.kind ++ tail) := by
  have hsymbol {kind : Kind} {tail : List Kind} (h : Unnamed tail)
      (hkind : kind ∉ [.closeBracket, .identifier, .questionMark] := by decide) :
      FollowsBracket (kind :: tail) := followsBracket_cons h hkind
  have hname {tail : List Kind} (h : Unnamed tail) : Unnamed (.identifier :: tail) :=
    unnamed_cons (by decide) h
  induction e using induct with
  | identifier name => exact fun tail h => hname h.unnamed
  | integer value =>
    obtain ⟨kind, text, hvalue⟩ := value
    intro tail h
    have hkind : kind ≠ .closeBracket := by cases hvalue <;> decide
    exact unnamed_cons hkind h.unnamed
  | braced inner ih =>
    intro tail h
    simp only [words, List.map_cons, List.map_append, List.map_nil, List.cons_append,
      List.append_assoc, List.nil_append]
    exact (hsymbol (ih _ (hsymbol h.unnamed))).unnamed
  | unary operator operand ih =>
    intro tail h
    refine unnamed_cons ?_ (ih tail h)
    cases operator <;> decide
  | binary operator left right ihl ihr =>
    intro tail h
    have hright := ihr tail h
    simp only [words, List.map_append, List.append_assoc]
    refine ihl _ ?_
    cases operator with
    | shiftRight => exact hsymbol (hsymbol hright).unnamed
    | shiftRightUnsigned => exact hsymbol (hsymbol (hsymbol hright).unnamed).unnamed
    | _ => exact hsymbol hright
  | field target name ih =>
    intro tail h
    simp only [words, List.map_append, List.append_assoc]
    exact ih _ (hsymbol (hname h.unnamed))
  | methodCall target name arguments ih iha =>
    intro tail h
    simp only [words, List.map_append, List.map_cons, List.map_nil, List.append_assoc,
      List.cons_append, List.nil_append]
    exact ih _ (hsymbol (hname (hsymbol (unnamed_listWords iha (hsymbol h.unnamed))).unnamed))
  | call callee arguments ih iha =>
    intro tail h
    simp only [words, List.map_append, List.map_cons, List.map_nil, List.append_assoc,
      List.cons_append, List.nil_append]
    exact ih _ (hsymbol (unnamed_listWords iha (hsymbol h.unnamed)))
  | index container keys ih ihk =>
    intro tail h
    simp only [words, List.map_append, List.map_cons, List.map_nil, List.append_assoc,
      List.cons_append, List.nil_append]
    exact ih _ (hsymbol (unnamed_listWords ihk (followsBracket_close h)))

/-- Behind the name that an operand begins with there is a suffix, or what follows the name. -/
theorem second_words_of_name {p : Kind → Prop} (e : Expression) (hwf : e.WellFormed)
    (hlevel : e.level = .memberAccess) (hname : ahead e.words = .identifier)
    (hsuffix : ∀ kind ∈ [.dot, .openParen, .openBracket], p kind) (rest : List Word)
    (hrest : e.endsInName = true → p (ahead rest)) : p (ahead ((e.words ++ rest).drop 1)) := by
  induction e using induct generalizing rest with
  | identifier name => exact hrest rfl
  | integer value =>
    obtain ⟨kind, text, hvalue⟩ := value
    cases hvalue <;> cases hname
  | braced inner => cases hname
  | unary operator operand => cases hlevel
  | binary operator left right =>
    have hlt := operator.rank_level.2
    rw [show operator.level = .memberAccess from hlevel] at hlt
    exact absurd hlt (by decide)
  | field target name ih =>
    rw [words, ahead_words_append] at hname
    rw [words, List.append_assoc]
    exact ih hwf.1 hwf.2 hname _ fun _ => hsuffix .dot (by decide)
  | methodCall target name arguments ih =>
    rw [words, ahead_words_append] at hname
    rw [words, List.append_assoc]
    exact ih hwf.1 hwf.2.1 hname _ fun _ => hsuffix .dot (by decide)
  | call callee arguments ih =>
    rw [words, ahead_words_append] at hname
    rw [words, List.append_assoc]
    exact ih hwf.1 hwf.2.1 hname _ fun _ => hsuffix .openParen (by decide)
  | index container keys ih =>
    rw [words, ahead_words_append] at hname
    rw [words, List.append_assoc]
    exact ih hwf.1 hwf.2.1 hname _ fun _ => hsuffix .openBracket (by decide)

/-- An operand that begins with a name begins no declaration, unless it is the name alone and what
follows makes one of it. -/
theorem declaresFromIdentifier_words (e : Expression) (hwf : e.WellFormed)
    (hlevel : e.level = .memberAccess) (hname : ahead e.words = .identifier) {rest : List Word}
    {count : Nat} (hsecond : e.endsInName = true → ahead rest ∉ declaring)
    (hrest : FollowsBracket (rest.map Word.kind ++ List.replicate (count + 1) .eof)) :
    declaresFromIdentifier
      ((e.words ++ rest).map Word.kind ++ List.replicate (count + 1) .eof) = false := by
  have hnone := e.second_words_of_name hwf hlevel hname (p := (· ∉ declaring)) (by decide) rest
    hsecond
  have hunnamed := e.unnamed_words _ hrest
  rw [← List.append_assoc, ← List.map_append] at hunnamed
  cases hwords : e.words ++ rest with
  | nil =>
    have hbegins := e.ahead_words_append rest
    rw [hwords, hname] at hbegins
    cases hbegins
  | cons first others =>
    rw [hwords] at hnone hunnamed
    obtain ⟨more, hmore⟩ := List.head?_eq_some_iff.mp (Word.head?_upcoming others count)
    rw [List.map_cons, List.cons_append, hmore] at hunnamed ⊢
    exact declaresFromIdentifier_eq_false hnone hunnamed.tail

end Expression

end TolerantSyntax
