import TolerantSyntax.Proofs.Expression.Source

/-!
# Words written closely

Names and delimiters need few spaces between them: two names need one, `=` has one on both sides so
that no longer operator is read, and a comma has one behind it because that is how it is written.
Written like this, too, they are read as the tokens that they are.
-/

namespace TolerantSyntax

namespace Word

/-! ## Writing words closely -/

/-- Symbols that can be written closely. -/
def delimiters : List Kind :=
  [.equal, .dot, .openParen, .closeParen, .openBracket, .closeBracket, .comma, .semicolon]

/-- A name or a delimiter. -/
inductive IsPlain : Word → Prop where
  | name (identifier : Identifier) : IsPlain identifier.word
  | delimiter {kind : Kind} (h : kind ∈ delimiters) : IsPlain (symbol kind)

/-- Is there a space between two words? -/
def isSpaced (word next : Word) : Bool :=
  word.kind == .comma || word.kind == .equal || next.kind == .equal ||
    (word.kind == .dot && next.kind == .dot) ||
    ([.closeBracket, .identifier].contains word.kind && next.kind == .identifier)

/-- The space behind a word, if there is one. -/
def space (word : Word) : List Word → List Char
  | [] => []
  | next :: _ => if isSpaced word next then [' '] else []

/-- Words as they are written closely. -/
def compact : List Word → List Char
  | [] => []
  | word :: rest => word.text ++ (space word rest ++ compact rest)

/-! ## Reading them back -/

variable {word : Word} {words rest : List Word}

theorem space_eq_nil_or (word : Word) (rest : List Word) :
    space word rest = [] ∨ space word rest = [' '] := by
  cases rest with
  | nil => exact .inl rfl
  | cons next others =>
    rw [space]
    split
    · exact .inr rfl
    · exact .inl rfl

/-- What a name or a delimiter begins with. -/
theorem IsPlain.exists_first (h : word.IsPlain) :
    ∃ first more, word.text = first :: more ∧ first ∉ Trivia.beginnings ∧
      first.isDigit = false ∧ (first = '.' → word.kind = .dot) ∧
      (word.kind ≠ .identifier → Text.isIdContinue first = false) := by
  cases h with
  | name identifier =>
    obtain ⟨first, more, htext, hfirst, -⟩ := next_of_isName identifier.isName
    have hdot : first ≠ '.' := by
      rintro rfl
      rw [Text.isIdStart_ascii (by decide)] at hfirst
      exact absurd hfirst (by decide)
    have hdigit : first.isDigit = false := by
      rcases hfirst with hfirst | rfl
      · exact Text.isDigit_eq_false_of_isIdStart hfirst
      · rfl
    exact ⟨first, more, htext, notMem_beginnings hfirst, hdigit, fun h => absurd h hdot,
      fun h => absurd rfl h⟩
  | @delimiter kind h =>
    simp only [delimiters, List.mem_cons, List.not_mem_nil, or_false] at h
    rcases h with rfl | rfl | rfl | rfl | rfl | rfl | rfl | rfl <;>
      exact ⟨_, _, rfl, by decide, by decide, by decide, fun _ => by
        rw [Text.isIdContinue_ascii (by decide)]; decide⟩

theorem IsPlain.loose (h : word.IsPlain) : word.kind ∈ kinds ∧ word.tight = false := by
  cases h with
  | name identifier => exact ⟨List.mem_cons_self, rfl⟩
  | @delimiter kind h =>
    have hmem : ∀ kind ∈ delimiters, kind ∈ kinds := by decide
    exact ⟨hmem kind h, rfl⟩

theorem IsPlain.kind_ne_eof (h : word.IsPlain) : word.kind ≠ .eof := fun heof =>
  absurd (heof ▸ h.loose.1 : Kind.eof ∈ kinds) (by decide)

theorem forall_isPlain_name (identifier : Identifier) (h : ∀ word ∈ rest, word.IsPlain) :
    ∀ word ∈ identifier.word :: rest, word.IsPlain :=
  List.forall_mem_cons.mpr ⟨.name identifier, h⟩

theorem forall_isPlain_symbol {kind : Kind} (hk : kind ∈ delimiters)
    (h : ∀ word ∈ rest, word.IsPlain) : ∀ word ∈ symbol kind :: rest, word.IsPlain :=
  List.forall_mem_cons.mpr ⟨.delimiter hk, h⟩

/-- Names and delimiters do not begin with trivia. -/
theorem piece?_compact (h : ∀ word ∈ words, word.IsPlain) :
    Trivia.piece? (compact words) = none := by
  cases words with
  | nil => rfl
  | cons word rest =>
    obtain ⟨first, more, htext, hvisible, -⟩ := (h word List.mem_cons_self).exists_first
    rw [compact, htext]
    exact Trivia.piece?_of_notMem hvisible

/-- What is right behind a word is a space, or the next word if there is none between them. -/
theorem eq_space_or_of_mem_head? {c : Char} (hrest : ∀ word ∈ rest, word.IsPlain)
    (hc : c ∈ (space word rest ++ compact rest).head?) :
    c = ' ' ∨ ∃ next more, next.IsPlain ∧ next.text = c :: more ∧ isSpaced word next = false := by
  cases rest with
  | nil => cases hc
  | cons next others =>
    have hnext := hrest next List.mem_cons_self
    obtain ⟨first, more, htext, -⟩ := hnext.exists_first
    rw [space, compact, htext] at hc
    by_cases hspaced : isSpaced word next = true
    · rw [if_pos hspaced] at hc
      exact .inl (Option.some.inj hc).symm
    · rw [if_neg hspaced] at hc
      cases hc
      exact .inr ⟨next, more, hnext, htext, (Bool.not_eq_true _).mp hspaced⟩

/-- A dot is a token of its own if neither a digit nor another dot follows. -/
theorem afterDot_of_head? {after : List Char}
    (h : ∀ c ∈ after.head?, c.isDigit = false ∧ c ≠ '.') :
    Lexeme.afterDot after = .clean .dot 0 := by
  cases after with
  | nil => rfl
  | cons c rest =>
    obtain ⟨hdigit, hdot⟩ := h c rfl
    simp [Lexeme.afterDot, Lexeme.startsWithDigit, hdigit, hdot]

/-- A name or a delimiter is one lexeme in front of names and delimiters. -/
theorem exists_lexeme_compact (hword : word.IsPlain) (hrest : ∀ word ∈ rest, word.IsPlain) :
    ∃ first more, word.text = first :: more ∧
      Lexeme.next .code first (more ++ (space word rest ++ compact rest)) =
        .clean word.kind more.length := by
  cases hword with
  | name identifier =>
    obtain ⟨first, more, htext, -, hnext⟩ := next_of_isName identifier.isName
    refine ⟨first, more, htext, hnext _ fun c hc => ?_⟩
    rcases eq_space_or_of_mem_head? hrest hc with rfl | ⟨next, others, hplain, htext, hspaced⟩
    · exact isIdContinue_space
    · obtain ⟨c', more', htext', -, -, -, hcontinue⟩ := hplain.exists_first
      cases htext.symm.trans htext'
      -- two names have a space between them
      refine hcontinue fun hname => ?_
      rw [isSpaced, hname] at hspaced
      cases hspaced
  | @delimiter kind h =>
    simp only [delimiters, List.mem_cons, List.not_mem_nil, or_false] at h
    rcases h with rfl | rfl | rfl | rfl | rfl | rfl | rfl | rfl
    · -- a space follows, so that no longer operator is read
      refine ⟨'=', [], rfl, ?_⟩
      cases rest <;> rfl
    · refine ⟨'.', [], rfl, afterDot_of_head? fun c hc => ?_⟩
      rcases eq_space_or_of_mem_head? hrest hc with rfl | ⟨next, others, hplain, htext, hspaced⟩
      · decide
      · obtain ⟨c', more', htext', -, hdigit, hdot, -⟩ := hplain.exists_first
        cases htext.symm.trans htext'
        refine ⟨hdigit, fun h => ?_⟩
        rw [isSpaced, hdot h] at hspaced
        cases hspaced
    all_goals exact ⟨_, _, rfl, rfl⟩

/-- **Names and delimiters that are written closely are the tokens of what is written.** -/
theorem spells_compact (h : ∀ word ∈ words, word.IsPlain) :
    Spells (String.ofList (compact words)) words := by
  have hyields {scanner : Scanner} (hmode : scanner.mode = .code)
      (hrest : scanner.rest = compact words) : scanner.Yields words := by
    induction words generalizing scanner with
    | nil => exact Scanner.yields_nil hrest
    | cons word rest ih =>
      obtain ⟨hword, hothers⟩ := List.forall_mem_cons.mp h
      obtain ⟨first, more, htext, hlexeme⟩ := exists_lexeme_compact hword hothers
      obtain ⟨htoken, -, -, hbehind⟩ := Scanner.next_of_lexeme hmode hrest htext
        (hrest ▸ piece?_compact h) hlexeme (space_eq_nil_or word rest) (piece?_compact hothers)
      exact (ih hothers ((Scanner.isStep_next scanner).same.2.trans hmode) hbehind).cons
        hword.kind_ne_eof htoken
  exact hyields rfl String.toList_ofList

end Word

end TolerantSyntax
