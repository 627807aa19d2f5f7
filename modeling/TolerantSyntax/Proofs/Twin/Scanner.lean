import TolerantSyntax.Proofs.Lexer.Cursor
import TolerantSyntax.Proofs.Tree.Bare
import TolerantSyntax.Grammar.Operator

/-!
# Scans of one text in two layouts

Two scanners are alike if they find the same tokens, layout apart, and the same of them touch. Words
are of other kinds in an import path, but those follow from the kinds that they have elsewhere, and
nothing else changes. So scanners that are alike in one mode are alike in the other, though the
source is scanned again when the mode changes.
-/

namespace TolerantSyntax

/-! ## Modes -/

/-- What a token of some kind becomes in a mode. -/
def LexerMode.kindOf : LexerMode → Kind → Kind
  | .code, kind => kind
  | .importPath, kind =>
    if kind.isKeywordToken && kind != .asKeyword then .identifier else kind

namespace Lexeme

/-- Reserved words are keyword tokens. -/
theorem isKeywordToken_of_keyword? {word : String} {kind : Kind}
    (h : Kind.keyword? word = some kind) : kind.isKeywordToken = true := by
  obtain ⟨entry, he, rfl⟩ := Option.map_eq_some_iff.mp h
  have hall : ∀ entry ∈ Kind.keywords, entry.2.isKeywordToken = true := by decide
  exact hall entry (List.mem_of_find?_eq_some he)

/-- In an import path a word is of the kind that it has elsewhere, unless that is a keyword. -/
theorem wordKind_eq (mode : LexerMode) (word : String) :
    wordKind mode word = mode.kindOf (wordKind .code word) := by
  cases mode with
  | code => rfl
  | importPath =>
    unfold wordKind
    cases hk : Kind.keyword? word with
    | none => rfl
    | some kind =>
      have hkey := isKeywordToken_of_keyword? hk
      by_cases ha : kind = .asKeyword
      · subst ha
        rfl
      · simp [LexerMode.kindOf, hkey, ha]

/-- What is no word is of the same kind in every mode. -/
theorem kindOf_eq {kind : Kind} (mode : LexerMode) (h : kind.isKeywordToken = false) :
    mode.kindOf kind = kind := by
  cases mode with
  | code => rfl
  | importPath => simp [LexerMode.kindOf, h]

/-- A number is no keyword, in either mode. -/
theorem isKeywordToken_number (first : Char) (input : List Char) :
    (number first input).kind.isKeywordToken = false := by
  have hdigit (input : List Char) : (afterDigit input).kind.isKeywordToken = false := by
    simp only [afterDigit]
    split
    · rfl
    · split <;> rfl
  unfold number
  split
  · rfl
  · rfl
  · exact hdigit _

/-- The mode matters to the kind of a lexeme only. -/
theorem next_eq (mode : LexerMode) (first : Char) (input : List Char) :
    next mode first input =
      { next .code first input with kind := mode.kindOf (next .code first input).kind } := by
  have hsame {lexeme : Lexeme} (h : lexeme.kind.isKeywordToken = false) :
      lexeme = { lexeme with kind := mode.kindOf lexeme.kind } := by
    rw [kindOf_eq mode h]
  unfold next
  split
  all_goals try exact hsame rfl
  · exact hsame (by unfold afterBrace; split <;> rfl)
  · refine hsame ?_
    unfold afterDot
    split
    · rfl
    · split <;> rfl
  · exact hsame (by unfold afterMinus; split <;> rfl)
  · exact hsame (by unfold afterLess; split <;> rfl)
  · exact hsame (by unfold afterGreater; split <;> rfl)
  · exact hsame (by unfold afterEqual; split <;> rfl)
  · refine hsame ?_
    unfold afterBang
    split
    · rfl
    · rfl
    · split <;> rfl
    · rfl
  · exact hsame (by unfold afterAmpersand; split <;> rfl)
  · exact hsame (by unfold afterPipe; split <;> rfl)
  · refine hsame ?_
    unfold afterQuestion
    split
    · split <;> rfl
    · rfl
    · rfl
  · exact hsame (by unfold afterApostrophe; split <;> rfl)
  · split
    · exact hsame (isKeywordToken_number _ _)
    · split
      · exact hsame rfl
      · split
        · simp only [word, clean]
          rw [wordKind_eq mode]
        · exact hsame rfl

end Lexeme

namespace Scanner

/-- In another mode, the next token is another kind of the same one. -/
theorem next_withMode {scanner : Scanner} (h : scanner.mode = .code) (mode : LexerMode) :
    ({ scanner with mode } : Scanner).next =
      (scanner.next.1.withKind (mode.kindOf scanner.next.1.kind),
        { scanner.next.2 with mode }) := by
  unfold next
  simp only
  split
  · cases mode <;> rfl
  · next first rest hr =>
    rw [Lexeme.next_eq mode, h]
    rfl

/-- The mode does not matter to where the next token ends. -/
theorem next_inCode (scanner : Scanner) :
    ({ scanner.next.2 with mode := .code } : Scanner) =
      ({ scanner with mode := .code } : Scanner).next.2 := by
  have hnext := @next_withMode { scanner with mode := .code } rfl scanner.mode
  have hmode := (isStep_next ({ scanner with mode := .code } : Scanner)).same.2
  have hsecond := congrArg (fun r => ({ r.2 with mode := .code } : Scanner)) hnext
  refine Eq.trans hsecond ?_
  exact congrArg (fun mode => { ({ scanner with mode := .code } : Scanner).next.2 with mode })
    hmode.symm

/-- So the mode changes nothing of a token but its kind. -/
theorem tokenAt_withMode {scanner : Scanner} (h : scanner.mode = .code) (mode : LexerMode)
    (ahead : Nat) :
    ({ scanner with mode } : Scanner).tokenAt ahead =
      (scanner.tokenAt ahead).withKind (mode.kindOf (scanner.tokenAt ahead).kind) := by
  induction ahead generalizing scanner with
  | zero => exact congrArg Prod.fst (next_withMode h mode)
  | succ ahead ih =>
    rw [tokenAt, tokenAt, next_withMode h mode]
    exact ih ((isStep_next scanner).same.2.trans h)

/-! ## Scanners that are alike -/

/-- The scanners find the same tokens, and of the tokens before the end of input the same touch. -/
structure Alike (s t : Scanner) : Prop where
  token : ∀ ahead, (s.tokenAt ahead).bare = (t.tokenAt ahead).bare
  touch : ∀ ahead, (s.tokenAt (ahead + 1)).kind ≠ .eof →
    (s.tokenAt ahead).touches (s.tokenAt (ahead + 1)) =
      (t.tokenAt ahead).touches (t.tokenAt (ahead + 1))

namespace Alike

variable {s t : Scanner}

/-- Tokens that are as far ahead are of one kind. -/
theorem kind_eq (h : s.Alike t) (ahead : Nat) :
    (s.tokenAt ahead).kind = (t.tokenAt ahead).kind := by
  rw [← Token.kind_bare, h.token, Token.kind_bare]

/-- Behind the next token, scanners are still alike. -/
theorem next (h : s.Alike t) : s.next.2.Alike t.next.2 :=
  ⟨fun ahead => h.token (ahead + 1), fun ahead => h.touch (ahead + 1)⟩

theorem refl (s : Scanner) : s.Alike s :=
  ⟨fun _ => rfl, fun _ _ => rfl⟩

/-- Scanners that are alike in regular source are alike in every mode. -/
theorem withMode (h : s.Alike t) (hs : s.mode = .code) (ht : t.mode = .code) (mode : LexerMode) :
    ({ s with mode } : Scanner).Alike { t with mode } := by
  have hkind : ∀ kind, mode.kindOf kind ≠ .eof → kind ≠ .eof := by
    rintro _ hk rfl
    cases mode <;> exact hk rfl
  constructor
  · intro ahead
    have hbare := h.token ahead
    simp only [Token.bare_eq, Token.mk.injEq] at hbare
    obtain ⟨hkind, htext, -, hleading, htrailing, hcodes, hmissing⟩ := hbare
    rw [tokenAt_withMode hs, tokenAt_withMode ht]
    simp only [Token.bare_eq, Token.withKind, hkind, htext, hleading, htrailing, hcodes, hmissing]
  · intro ahead hne
    rw [tokenAt_withMode hs] at hne
    rw [tokenAt_withMode hs mode ahead, tokenAt_withMode hs mode (ahead + 1),
      tokenAt_withMode ht mode ahead, tokenAt_withMode ht mode (ahead + 1)]
    exact h.touch ahead (hkind _ hne)

/-- The next tokens are the same without layout. -/
theorem take (h : s.Alike t) (count : Nat) :
    (s.take count).1.map Token.bare = (t.take count).1.map Token.bare := by
  induction count generalizing s t with
  | zero => rfl
  | succ count ih =>
    rw [Scanner.take, Scanner.take, List.map_cons, List.map_cons, ih h.next]
    exact congrArg (· :: _) (h.token 0)

theorem after_take (h : s.Alike t) (count : Nat) : (s.take count).2.Alike (t.take count).2 := by
  induction count generalizing s t with
  | zero => exact h
  | succ count ih => exact ih h.next

/-- The scans have the same length. -/
theorem length_tokens (h : s.Alike t) : s.tokens.length = t.tokens.length := by
  induction s using scan_induction generalizing t with
  | eof s he =>
    have he' : t.next.1.kind = .eof := (h.kind_eq 0).symm.trans he
    rw [tokens_of_eof he, tokens_of_eof he']
    rfl
  | step s hne ih =>
    have hne' : t.next.1.kind ≠ .eof := fun he => hne ((h.kind_eq 0).trans he)
    rw [tokens_of_ne_eof hne, tokens_of_ne_eof hne', List.length_cons, List.length_cons,
      ih h.next]

end Alike

end Scanner

end TolerantSyntax
