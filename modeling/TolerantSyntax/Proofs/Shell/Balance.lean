import Mathlib.Data.List.Infix
import TolerantSyntax.Proofs.Lexer.Lexicon
import TolerantSyntax.Shell.Balance

/-!
# Balance of characters and of tokens

The shell looks for open brackets in the characters of an input and does not scan it. It sees what
the scanner sees. Of the characters that mean something to the shell none is in a word or a number,
and comments and strings end where the scanner ends them, if each carriage return is part of a line
break and each string is closed. So a lexeme does to the brackets that the shell expects what its
kind does to a stack of brackets (`balancedFrom_lexeme`), and an input is finished where the stack
of its tokens is settled (`isBalanced_iff`).
-/

namespace TolerantSyntax.Shell

/-! ## Brackets of tokens -/

/-- The sorts of brackets; braces with and without a bar are of one sort. -/
inductive Bracket where
  | paren
  | square
  | brace
deriving DecidableEq, Repr

namespace Bracket

/-- The character that ends the closing bracket. -/
def closer : Bracket → Char
  | paren => ')'
  | square => ']'
  | brace => '\x7d'

/-- What a token of the kind opens. -/
def opened? : Kind → Option Bracket
  | .openParen => some paren
  | .openBracket => some square
  | .openBrace | .openBracePipe => some brace
  | _ => none

/-- What a token of the kind closes. -/
def closed? : Kind → Option Bracket
  | .closeParen => some paren
  | .closeBracket => some square
  | .closeBrace | .closePipeBrace => some brace
  | _ => none

/-- The brackets open behind a token of the kind, the innermost first; none if it closes another
bracket than the innermost. -/
def after? (opened : List Bracket) (kind : Kind) : Option (List Bracket) :=
  match opened? kind, closed? kind with
  | some bracket, _ => some (bracket :: opened)
  | none, some bracket => if opened.head? = some bracket then some opened.tail else none
  | none, none => some opened

/-- The brackets open behind a row of tokens; none once one of them closes another bracket than the
innermost. -/
def openBehind? (opened : List Bracket) (tokens : List Token) : Option (List Bracket) :=
  tokens.foldlM (fun opened token => after? opened token.kind) opened

theorem openBehind?_cons (opened : List Bracket) (token : Token) (rest : List Token) :
    openBehind? opened (token :: rest) =
      (after? opened token.kind).bind (openBehind? · rest) := by
  simp only [openBehind?, List.foldlM_cons]
  rfl

/-- A token that neither opens nor closes leaves the open brackets as they are. -/
theorem after?_of_other {kind : Kind} (hopen : opened? kind = none) (hclose : closed? kind = none)
    (opened : List Bracket) : after? opened kind = some opened := by
  rw [after?, hopen, hclose]

/-- A character closes one sort of bracket only. -/
theorem closer_injective : Function.Injective closer := by
  intro bracket other h
  cases bracket <;> cases other <;> first | rfl | exact absurd h (by decide)

theorem closerOf?_closer (bracket : Bracket) : closerOf? bracket.closer = none := by
  cases bracket <;> rfl

theorem isCloser_closer (bracket : Bracket) : isCloser bracket.closer = true := by
  cases bracket <;> rfl

end Bracket

/-! ## Characters that mean nothing -/

/-- The characters that the shell tells apart outside strings and comments. -/
def marks : List Char :=
  ['"', '#', '/', '(', ')', '[', ']', '\x7b', '\x7d']

theorem forall_notMem_of_all {chars others : List Char}
    (h : chars.all (!others.contains ·) = true) : ∀ c ∈ chars, c ∉ others := by
  simpa using h

theorem notMem_of_all {p : Char → Bool} {others : List Char} (h : others.all (!p ·) = true)
    {c : Char} (hc : p c = true) : c ∉ others := by
  intro hmem
  simpa [hc] using List.all_eq_true.mp h c hmem

variable {expected : List Char}

theorem balancedFrom_code (afterSlash : Bool) (c : Char) (rest : List Char) :
    balancedFrom expected (.code afterSlash) (c :: rest) =
      match closerOf? c with
      | some closer => balancedFrom (closer :: expected) (.code false) rest
      | none =>
        if isCloser c then
          match expected with
          | closer :: outer => if c = closer then balancedFrom outer (.code false) rest else true
          | [] => true
        else balancedFrom expected (regionAfter afterSlash c) rest :=
  (balancedFrom.eq_def ..).trans rfl

/-- Characters that are no marks change nothing but whether a slash was just before. -/
theorem balancedFrom_plain {c : Char} (h : c ∉ marks) (afterSlash : Bool) (rest : List Char) :
    balancedFrom expected (.code afterSlash) (c :: rest) =
      balancedFrom expected (.code false) rest := by
  simp only [marks, List.mem_cons, List.not_mem_nil, or_false, not_or] at h
  obtain ⟨hquote, hhash, hslash, hparen, hparen', hsquare, hsquare', hbrace, hbrace'⟩ := h
  have hopen : closerOf? c = none := by
    unfold closerOf?
    split <;> first | rfl | contradiction
  have hclose : isCloser c = false := by simp [isCloser, hparen', hsquare', hbrace']
  have hregion : regionAfter afterSlash c = .code false := by
    simp [regionAfter, hquote, hhash, hslash]
  rw [balancedFrom_code, hopen]
  simp only [hclose, hregion, Bool.false_eq_true, if_false]

theorem balancedFrom_plains {chars : List Char} (h : ∀ c ∈ chars, c ∉ marks) (rest : List Char) :
    balancedFrom expected (.code false) (chars ++ rest) =
      balancedFrom expected (.code false) rest := by
  induction chars with
  | nil => rfl
  | cons c chars ih =>
    obtain ⟨hc, hchars⟩ := List.forall_mem_cons.mp h
    rw [List.cons_append, balancedFrom_plain hc, ih hchars]

/-- A slash matters only if another one follows it. -/
theorem balancedFrom_slash {rest : List Char} (h : rest.head? ≠ some '/') :
    balancedFrom expected (.code true) rest = balancedFrom expected (.code false) rest := by
  cases rest with
  | nil => rfl
  | cons c rest =>
    have hregion : regionAfter true c = regionAfter false c := by
      have hc : c ≠ '/' := by simpa using h
      simp [regionAfter, hc]
    rw [balancedFrom_code, balancedFrom_code, hregion]

/-! ## Trivia -/

/-- Each carriage return is part of a line break. -/
def NoLoneReturn (text : List Char) : Prop :=
  ∀ rest, '\r' :: rest <:+ text → rest.head? = some '\n'

/-- The hypothesis on carriage returns, as one on all that is left of the text at some point. -/
theorem noLoneReturn_iff (text : List Char) :
    NoLoneReturn text ↔
      ∀ tail ∈ text.tails, tail.head? = some '\r' → tail.tail.head? = some '\n' := by
  constructor
  · intro h tail htail hhead
    obtain ⟨rest, rfl⟩ := List.head?_eq_some_iff.mp hhead
    exact h rest ((List.mem_tails ..).mp htail)
  · intro h rest hsuffix
    exact h _ ((List.mem_tails ..).mpr hsuffix) rfl

instance : DecidablePred NoLoneReturn :=
  fun text => decidable_of_iff _ (noLoneReturn_iff text).symm

/-- So it holds of what is left. -/
theorem NoLoneReturn.of_suffix {text rest : List Char} (h : NoLoneReturn text)
    (hsuffix : rest <:+ text) : NoLoneReturn rest :=
  fun _ hbehind => h _ (hbehind.trans hsuffix)

theorem NoLoneReturn.head? {text rest : List Char} (h : NoLoneReturn text)
    (htext : text = '\r' :: rest) : rest.head? = some '\n' :=
  h rest (htext ▸ List.suffix_refl _)

/-- A comment ends at the line break. -/
theorem balancedFrom_comment {input : List Char} (h : NoLoneReturn input) :
    balancedFrom expected .comment input =
      balancedFrom expected (.code false) (input.dropWhile (!Trivia.isLineEnd ·)) := by
  induction input with
  | nil => rfl
  | cons c rest ih =>
    have hrest := ih (h.of_suffix (List.suffix_cons c rest))
    by_cases hline : c = '\n'
    · subst hline
      rw [balancedFrom, if_pos rfl, List.dropWhile_cons_of_neg (by decide),
        balancedFrom_plain (by decide)]
    · rw [balancedFrom, if_neg hline]
      by_cases hreturn : c = '\r'
      · subst hreturn
        obtain ⟨others, rfl⟩ := List.head?_eq_some_iff.mp (h.head? rfl)
        rw [List.dropWhile_cons_of_neg (by decide), balancedFrom_plain (by decide), hrest,
          List.dropWhile_cons_of_neg (by decide)]
      · rw [List.dropWhile_cons_of_pos (by simp [Trivia.isLineEnd, hline, hreturn]), hrest]

theorem suffix_of_source {text : String} {input rest : List Char}
    (h : text ++ String.ofList rest = String.ofList input) : rest <:+ input := by
  rw [← String.toList_inj, String.toList_append, String.toList_ofList, String.toList_ofList] at h
  exact ⟨_, h⟩

/-- A comment is skipped up to the end of its line, and so are blanks. -/
theorem balancedFrom_inLine? {input rest : List Char} {piece : Trivia}
    (h : Trivia.inLine? input = some (piece, rest)) (hreturn : NoLoneReturn input) :
    balancedFrom expected (.code false) input = balancedFrom expected (.code false) rest := by
  -- behind the mark that begins a comment
  have hcomment {mark : List Char} {others : List Char} (hinput : input = mark ++ others)
      (hbegins : balancedFrom expected (.code false) input =
        balancedFrom expected .comment others)
      (hmark : mark.all (!Trivia.isLineEnd ·) = true) :
      balancedFrom expected (.code false) input =
        balancedFrom expected (.code false) (input.dropWhile (!Trivia.isLineEnd ·)) := by
    have hothers := hreturn.of_suffix ⟨mark, hinput.symm⟩
    rw [hbegins, balancedFrom_comment hothers, hinput,
      List.dropWhile_append_of_pos (List.all_eq_true.mp hmark)]
  cases input with
  | nil => cases h
  | cons c others =>
    rw [Trivia.inLine?] at h
    split at h
    · obtain ⟨-, rfl⟩ := Prod.mk.inj (Option.some.inj h)
      have hblanks : ∀ blank ∈ (c :: others).takeWhile Trivia.isBlank, blank ∉ marks :=
        fun _ hblank => notMem_of_all (p := Trivia.isBlank) (by decide)
          (List.mem_takeWhile_imp hblank)
      have hskip := @balancedFrom_plains expected _ hblanks
        ((c :: others).dropWhile Trivia.isBlank)
      rwa [List.takeWhile_append_dropWhile] at hskip
    · split at h
      · next hslashes =>
        obtain ⟨-, rfl⟩ := Prod.mk.inj (Option.some.inj h)
        obtain ⟨rfl, hnext⟩ := hslashes
        obtain ⟨others, rfl⟩ := List.head?_eq_some_iff.mp hnext
        exact @hcomment ['/', '/'] others rfl rfl (by decide)
      · split at h
        · next hhash =>
          obtain ⟨-, rfl⟩ := Prod.mk.inj (Option.some.inj h)
          subst hhash
          exact @hcomment ['#'] others rfl rfl (by decide)
        · cases h

theorem balancedFrom_lineBreak? {input rest : List Char} {piece : Trivia}
    (h : Trivia.lineBreak? input = some (piece, rest)) :
    balancedFrom expected (.code false) input = balancedFrom expected (.code false) rest := by
  have hplain : ∀ c ∈ ['\r', '\n'], c ∉ marks := forall_notMem_of_all (by decide)
  unfold Trivia.lineBreak? at h
  split at h
  · cases h
    exact balancedFrom_plain (by decide) ..
  · cases h
    exact balancedFrom_plains hplain _
  · cases h
    exact balancedFrom_plain (by decide) ..
  · cases h

/-- By induction on the trivia: no piece of it changes the state. -/
theorem balancedFrom_leading {input : List Char} (h : NoLoneReturn input) :
    balancedFrom expected (.code false) input =
      balancedFrom expected (.code false) (Trivia.leading input).2 := by
  fun_induction Trivia.leading input with
  | case1 => rfl
  | case2 input piece rest hpiece ih =>
    obtain ⟨_, htakes⟩ := Trivia.exists_takes_of_piece? hpiece
    rw [← ih (h.of_suffix (suffix_of_source htakes.source))]
    rcases Option.or_eq_some_iff.mp hpiece with hpiece | ⟨-, hpiece⟩
    · exact balancedFrom_inLine? hpiece h
    · exact balancedFrom_lineBreak? hpiece

theorem balancedFrom_trailing {input : List Char} (h : NoLoneReturn input) :
    balancedFrom expected (.code false) input =
      balancedFrom expected (.code false) (Trivia.trailing input).2 := by
  fun_induction Trivia.trailing input with
  | case1 input piece rest hpiece ih =>
    have hsuffix := suffix_of_source (Trivia.takes_of_inLine? hpiece).source
    rw [← ih (h.of_suffix hsuffix), balancedFrom_inLine? hpiece h]
  | case2 input _ piece rest hpiece => exact balancedFrom_lineBreak? hpiece
  | case3 => rfl

/-! ## Strings -/

/-- In a string, only quotes and backslashes are looked at. -/
theorem balancedFrom_string_plains {chars : List Char} (h : ∀ c ∈ chars, c ∉ ['"', '\\'])
    (rest : List Char) :
    balancedFrom expected .string (chars ++ rest) = balancedFrom expected .string rest := by
  induction chars with
  | nil => rfl
  | cons c chars ih =>
    obtain ⟨hc, hchars⟩ := List.forall_mem_cons.mp h
    simp only [List.mem_cons, List.not_mem_nil, or_false, not_or] at hc
    rw [List.cons_append, balancedFrom, if_neg hc.2, if_neg hc.1, ih hchars]

/-- The shell skips the digits of a code. -/
theorem balancedFrom_string_digits (input : List Char) :
    balancedFrom expected .string input =
      balancedFrom expected .string (input.drop (input.takeWhile Lexeme.isHexDigit).length) := by
  have hplain : ∀ c ∈ input.take (input.takeWhile Lexeme.isHexDigit).length, c ∉ ['"', '\\'] := by
    rw [← List.prefix_iff_eq_take.mp (List.takeWhile_prefix _)]
    intro c hc
    exact notMem_of_all (p := Lexeme.isHexDigit) (by decide) (List.mem_takeWhile_imp hc)
  have hskip := @balancedFrom_string_plains expected _ hplain
    (input.drop (input.takeWhile Lexeme.isHexDigit).length)
  rwa [List.take_append_drop] at hskip

/-- Behind a backslash the shell skips one character, the scanner an escape or nothing. -/
theorem balancedFrom_escape (c : Char) (rest : List Char) :
    balancedFrom expected .escape (c :: rest) =
      balancedFrom expected .string ((c :: rest).drop (Lexeme.escape (c :: rest)).1) := by
  rw [balancedFrom]
  by_cases hmark : c = 'u' ∧ ∃ others, rest = '\x7b' :: others
  · obtain ⟨rfl, others, rfl⟩ := hmark
    have hbrace := @balancedFrom_string_plains expected ['\x7b']
      (forall_notMem_of_all (by decide)) others
    have hdigits := @balancedFrom_string_digits expected others
    rw [Lexeme.escape_of_mark]
    generalize (others.takeWhile Lexeme.isHexDigit).length = digits at hdigits ⊢
    dsimp only
    split
    · exact hbrace
    · split
      · next hclose =>
        obtain ⟨tail, htail⟩ := List.head?_eq_some_iff.mp hclose
        have hdrop : others.drop (digits + 1) = tail := by
          rw [← List.drop_drop, htail, List.drop_one, List.tail_cons]
        rw [htail] at hdigits
        rw [List.drop_succ_cons, List.drop_succ_cons, hdrop]
        exact hbrace.trans (hdigits.trans (@balancedFrom_string_plains expected ['\x7d']
          (forall_notMem_of_all (by decide)) tail))
      · exact hbrace.trans hdigits
  · rw [Lexeme.escape_of_noMark fun hfirst hhead =>
      hmark ⟨hfirst, List.head?_eq_some_iff.mp hhead⟩]
    split
    · rfl
    · next hsimple =>
      have hplain : ∀ other ∈ [c], other ∉ ['"', '\\'] := by
        have hall : ['"', '\\'].all Lexeme.simpleEscapes.contains = true := by decide
        exact List.forall_mem_singleton.mpr fun hmem =>
          hsimple (List.all_eq_true.mp hall c hmem)
      exact (balancedFrom_string_plains hplain rest).symm

/-- A string that the scanner finds closed ends for the shell at the same quote. -/
theorem balancedFrom_stringBody {input : List Char}
    (h : DiagnosticCode.unterminatedString ∉ (Lexeme.stringBody input).2) :
    balancedFrom expected .string input =
      balancedFrom expected (.code false) (input.drop (Lexeme.stringBody input).1) := by
  fun_induction Lexeme.stringBody input with
  | case1 => exact absurd (List.mem_singleton_self _) h
  | case2 rest => rfl
  | case3 => exact absurd (List.mem_singleton_self _) h
  | case4 rest escaped wrong hesc body codes hbody _ _ ih =>
    rw [hbody] at ih
    rw [Nat.add_assoc, Nat.add_comm 1, List.drop_succ_cons, ← List.drop_drop,
      ← ih fun hmem => h (List.mem_append_right _ hmem), balancedFrom, if_pos rfl]
    cases rest with
    | nil =>
      rw [List.drop_nil, Lexeme.stringBody] at hbody
      obtain ⟨rfl, rfl⟩ := Prod.mk.inj hbody
      exact absurd (List.mem_append_right _ (List.mem_singleton_self _)) h
    | cons c rest => rw [balancedFrom_escape, hesc]
  | case5 c rest hquote hline hescape body codes hbody ih =>
    rw [hbody] at ih
    rw [Nat.add_comm 1, List.drop_succ_cons, ← ih h, balancedFrom, if_neg hescape, if_neg hquote]

/-! ## Tokens -/

/-- No numeral is a mark. -/
theorem notMem_marks_of_isNumeral {c : Char} (h : Lexeme.isNumeral c = true) : c ∉ marks :=
  notMem_of_all (p := Lexeme.isNumeral) (by decide) h

theorem notMem_marks_of_isIdContinue {c : Char} (h : Text.isIdContinue c = true) : c ∉ marks :=
  notMem_of_all (p := Text.isIdContinue) (by decide +kernel) h

theorem notMem_marks_of_isName {word : List Char} (h : IsName word) : ∀ c ∈ word, c ∉ marks := by
  cases h with
  | plain hfirst hrest =>
    exact List.forall_mem_cons.mpr
      ⟨notMem_marks_of_isIdContinue (Text.isIdContinue_of_isIdStart hfirst),
        fun c hc => notMem_marks_of_isIdContinue (hrest c hc)⟩
  | quoted hword =>
    exact List.forall_mem_cons.mpr
      ⟨by decide, fun c hc => notMem_marks_of_isIdContinue (hword c hc)⟩

/-- Each mark but those of comments and strings is a token by itself. -/
theorem exists_text?_of_mem_marks {c : Char} (h : c ∈ marks) (hquote : c ≠ '"') (hhash : c ≠ '#') :
    ∃ kind : Kind, kind.text? = some (String.ofList [c]) := by
  simp only [marks, List.mem_cons, List.not_mem_nil, or_false] at h
  rcases h with rfl | rfl | rfl | rfl | rfl | rfl | rfl | rfl | rfl
  · exact absurd rfl hquote
  · exact absurd rfl hhash
  · exact ⟨.slash, rfl⟩
  · exact ⟨.openParen, rfl⟩
  · exact ⟨.closeParen, rfl⟩
  · exact ⟨.openBracket, rfl⟩
  · exact ⟨.closeBracket, rfl⟩
  · exact ⟨.openBrace, rfl⟩
  · exact ⟨.closeBrace, rfl⟩

namespace Bracket

/-- A token that opens a bracket begins with the character that the shell takes for it. -/
theorem text?_of_opened? {kind : Kind} {bracket : Bracket} {text : String}
    (h : opened? kind = some bracket) (htext : kind.text? = some text) :
    ∃ first rest, text.toList = first :: rest ∧ closerOf? first = some bracket.closer ∧
      ∀ c ∈ rest, c ∉ marks := by
  have hall : ∀ kind ∈ Kind.all, ∀ bracket ∈ opened? kind, ∀ text ∈ kind.text?,
      (text.toList.head?.bind closerOf?) = some bracket.closer ∧
        text.toList.tail.all (!marks.contains ·) = true := by
    decide +kernel
  obtain ⟨hfirst, hrest⟩ := hall kind (Kind.mem_all kind) bracket h text htext
  cases hchars : text.toList with
  | nil =>
    rw [hchars] at hfirst
    cases hfirst
  | cons first rest =>
    rw [hchars] at hfirst hrest
    exact ⟨first, rest, rfl, hfirst, forall_notMem_of_all hrest⟩

/-- A token that closes a bracket ends with the character that the shell takes for it. -/
theorem text?_of_closed? {kind : Kind} {bracket : Bracket} {text : String}
    (h : closed? kind = some bracket) (htext : kind.text? = some text) :
    ∃ before, text.toList = before ++ [bracket.closer] ∧ ∀ c ∈ before, c ∉ marks := by
  have hall : ∀ kind ∈ Kind.all, ∀ bracket ∈ closed? kind, ∀ text ∈ kind.text?,
      text.toList = text.toList.dropLast ++ [bracket.closer] ∧
        text.toList.dropLast.all (!marks.contains ·) = true := by
    decide +kernel
  obtain ⟨hlast, hbefore⟩ := hall kind (Kind.mem_all kind) bracket h text htext
  exact ⟨_, hlast, forall_notMem_of_all hbefore⟩

/-- No other token has a character in it that means something to the shell, the slash apart. -/
theorem text?_of_other {kind : Kind} {text : String} (hopen : opened? kind = none)
    (hclose : closed? kind = none) (htext : kind.text? = some text) :
    text.toList = ['/'] ∨ ∀ c ∈ text.toList, c ∉ marks := by
  have hkeywords : ∀ entry ∈ Kind.keywords, entry.1.toList.all (!marks.contains ·) = true := by
    decide +kernel
  have hpunctuation : ∀ kind ∈ Kind.all, ∀ text ∈ kind.punctuationText?,
      opened? kind = none → closed? kind = none →
        text.toList = ['/'] ∨ text.toList.all (!marks.contains ·) = true := by
    decide +kernel
  refine Or.imp_right forall_notMem_of_all ?_
  rcases Kind.mem_keywords_or_of_text? htext with hword | hsign
  · exact .inr (hkeywords _ hword)
  · exact hpunctuation kind (Kind.mem_all kind) text hsign hopen hclose

end Bracket

variable {opened : List Bracket}

/-- What a token that is always written the same does to the open brackets, by character and by
kind. -/
theorem balancedFrom_text? {kind : Kind} {text : String} (htext : kind.text? = some text)
    {rest : List Char} (hslash : text.toList = ['/'] → rest.head? ≠ some '/') :
    balancedFrom (opened.map Bracket.closer) (.code false) (text.toList ++ rest) =
      (Bracket.after? opened kind).all fun opened =>
        balancedFrom (opened.map Bracket.closer) (.code false) rest := by
  cases hopen : Bracket.opened? kind with
  | some bracket =>
    obtain ⟨first, more, hchars, hfirst, hmore⟩ := Bracket.text?_of_opened? hopen htext
    rw [hchars, List.cons_append, balancedFrom_code, hfirst, Bracket.after?, hopen, Option.all_some,
      List.map_cons]
    exact balancedFrom_plains hmore rest
  | none =>
    cases hclose : Bracket.closed? kind with
    | some bracket =>
      obtain ⟨before, hchars, hbefore⟩ := Bracket.text?_of_closed? hclose htext
      rw [hchars, List.append_assoc, balancedFrom_plains hbefore, List.singleton_append,
        balancedFrom_code, bracket.closerOf?_closer, Bracket.after?, hopen, hclose]
      simp only [bracket.isCloser_closer, if_true]
      cases opened with
      | nil => rfl
      | cons innermost outer =>
        by_cases hsame : innermost = bracket
        · subst hsame
          simp
        · have hcloser : bracket.closer ≠ innermost.closer := fun h =>
            hsame (Bracket.closer_injective h).symm
          simp [hsame, hcloser]
    | none =>
      rw [Bracket.after?_of_other hopen hclose, Option.all_some]
      rcases Bracket.text?_of_other hopen hclose htext with hchars | hchars
      · rw [hchars, List.singleton_append]
        exact balancedFrom_slash (hslash hchars)
      · exact balancedFrom_plains hchars rest

/-- What a lexeme does to the open brackets, by character and by kind. -/
theorem balancedFrom_lexeme {first : Char} {rest : List Char}
    (hpiece : Trivia.piece? (first :: rest) = none)
    (hstring : .unterminatedString ∉ (Lexeme.next .code first rest).codes) :
    balancedFrom (opened.map Bracket.closer) (.code false) (first :: rest) =
      (Bracket.after? opened (Lexeme.next .code first rest).kind).all fun opened =>
        balancedFrom (opened.map Bracket.closer) (.code false)
          (rest.drop (Lexeme.next .code first rest).more) := by
  have hinline := (Option.or_eq_none_iff.mp hpiece).1
  have hform := Lexeme.isForm_next first rest
  generalize Lexeme.next .code first rest = lexeme at *
  -- a lexeme in which nothing means anything to the shell
  have hplain (hkind : Bracket.opened? lexeme.kind = none ∧ Bracket.closed? lexeme.kind = none)
      (hchars : ∀ c ∈ first :: rest.take lexeme.more, c ∉ marks) :
      balancedFrom (opened.map Bracket.closer) (.code false) (first :: rest) =
        (Bracket.after? opened lexeme.kind).all fun opened =>
          balancedFrom (opened.map Bracket.closer) (.code false) (rest.drop lexeme.more) := by
    have hskip := @balancedFrom_plains (opened.map Bracket.closer) _ hchars
      (rest.drop lexeme.more)
    rw [List.cons_append, List.take_append_drop] at hskip
    rw [Bracket.after?_of_other hkind.1 hkind.2, Option.all_some, hskip]
  cases hform with
  | @fixed kind more htext =>
    have hslash (hchars : (String.ofList (first :: rest.take more)).toList = ['/']) :
        (rest.drop more).head? ≠ some '/' := by
      -- a slash before another one begins a comment
      rw [String.toList_ofList] at hchars
      obtain ⟨rfl, htake⟩ := List.cons.inj hchars
      have hdrop : rest.drop more = rest := by
        rcases List.take_eq_nil_iff.mp htake with rfl | rfl <;> simp
      intro hnext
      rw [hdrop] at hnext
      simp [Trivia.inLine?, Trivia.isBlank, hnext] at hinline
    have hskip := @balancedFrom_text? opened _ _ htext (rest.drop more) hslash
    rwa [String.toList_ofList, List.cons_append, List.take_append_drop] at hskip
  | number hkind hfirst hmore =>
    have hall : ∀ kind ∈ Kind.numericLiterals,
        Bracket.opened? kind = none ∧ Bracket.closed? kind = none := by
      decide
    refine hplain (hall _ (List.contains_iff_mem.mp hkind)) (List.forall_mem_cons.mpr
      ⟨?_, fun c hc => notMem_marks_of_isNumeral (hmore c hc)⟩)
    rcases hfirst with hdigit | ⟨rfl, -⟩
    · exact notMem_marks_of_isNumeral (by simp [Lexeme.isNumeral, Lexeme.isHexDigit, hdigit])
    · decide
  | string hfirst =>
    subst hfirst
    exact balancedFrom_stringBody hstring
  | name hname => exact hplain ⟨rfl, rfl⟩ (notMem_marks_of_isName hname)
  | @invalid more hfirst hnone hmore =>
    refine hplain ⟨rfl, rfl⟩ ?_
    rcases hmore with hdots | rfl
    · show ∀ c ∈ first :: rest.take more, c ∉ marks
      rw [hdots]
      exact forall_notMem_of_all (by decide)
    · refine List.forall_mem_singleton.mpr fun hmem => ?_
      have hhash : first ≠ '#' := by
        rintro rfl
        simp [Trivia.inLine?, Trivia.isBlank] at hinline
      obtain ⟨kind, htext⟩ := exists_text?_of_mem_marks hmem hfirst hhash
      exact hnone kind htext

/-! ## Scans -/

/-- The run of the shell over the characters ahead is a replay of the brackets of the tokens. -/
theorem balancedFrom_rest (scanner : Scanner) (hmode : scanner.mode = .code)
    (hreturn : NoLoneReturn scanner.rest)
    (hstrings : ∀ token ∈ scanner.tokens, .unterminatedString ∉ token.spelling.codes) :
    balancedFrom (opened.map Bracket.closer) (.code false) scanner.rest =
      (Bracket.openBehind? opened scanner.tokens).all List.isEmpty := by
  induction scanner using Scanner.scan_induction generalizing opened with
  | eof scanner h =>
    have hleading := (Scanner.isStep_next scanner).kind_eq_eof_iff.mp h
    rw [balancedFrom_leading hreturn, hleading, Scanner.tokens_of_eof h, Bracket.openBehind?_cons,
      h, Bracket.after?_of_other rfl rfl]
    simp [balancedFrom, Bracket.openBehind?]
  | step scanner h ih =>
    have hstep := Scanner.isStep_next scanner
    obtain ⟨first, rest, hleading⟩ := List.exists_cons_of_ne_nil (mt hstep.kind_eq_eof_iff.mpr h)
    obtain ⟨hspelling, hrest⟩ := Scanner.next_of_cons hleading
    rw [hmode] at hspelling hrest
    rw [Scanner.tokens_of_ne_eof h] at hstrings ⊢
    obtain ⟨hstring, hstrings⟩ := List.forall_mem_cons.mp hstrings
    rw [hspelling] at hstring
    have hkind : scanner.next.1.kind = _ := congrArg Token.Spelling.kind hspelling
    have hbehind {opened : List Bracket} := @ih opened (hstep.same.2.trans hmode)
      (hreturn.of_suffix (suffix_of_source hstep.source)) hstrings
    rw [balancedFrom_leading hreturn, hleading,
      balancedFrom_lexeme (hleading ▸ Trivia.piece?_leading scanner.rest) hstring,
      Bracket.openBehind?_cons, hkind, Option.all_bind]
    congr 1
    funext opened
    rw [Function.comp_apply, ← hbehind, hrest]
    have hafter := hreturn.of_suffix (suffix_of_source (Trivia.source_leading scanner.rest))
    rw [hleading] at hafter
    exact balancedFrom_trailing
      (hafter.of_suffix ((List.drop_suffix _ rest).trans (List.suffix_cons first rest)))

/-- **The shell looks for open brackets as the scanner finds them.** If each carriage return of a
text is part of a line break and each string in it is closed, the text is finished just if one of
its tokens closes another bracket than the innermost open one, or no bracket is open at its end. -/
theorem isBalanced_iff {text : String} (hreturn : NoLoneReturn text.toList)
    (hstrings : ∀ token ∈ (Scanner.ofSource text).tokens, ∀ finding ∈ token.diagnostics,
      finding.code ≠ .unterminatedString) :
    isBalanced text = true ↔
      Bracket.openBehind? [] (Scanner.ofSource text).tokens = none ∨
        Bracket.openBehind? [] (Scanner.ofSource text).tokens = some [] := by
  have hcodes : ∀ token ∈ (Scanner.ofSource text).tokens,
      .unterminatedString ∉ token.spelling.codes := by
    intro token hmem hcode
    obtain ⟨finding, hfinding, hsame⟩ := List.mem_map.mp hcode
    exact hstrings token hmem finding hfinding hsame
  have hrun := @balancedFrom_rest [] (Scanner.ofSource text) rfl hreturn hcodes
  rw [isBalanced, show text.toList = (Scanner.ofSource text).rest from rfl,
    show ([] : List Char) = [].map Bracket.closer from rfl, hrun]
  cases Bracket.openBehind? [] (Scanner.ofSource text).tokens with
  | none => simp
  | some opened => simp

/-- Brackets in a string behind escapes and in comments, and a brace with a bar. -/
theorem isBalanced_escapes :
    isBalanced "f(\"\\u\x7b28\x7d(\\\"\") \x7b| a / // (\r\n|\x7d #\x7b" = true :=
  (isBalanced_iff (by decide) (by decide +kernel)).mpr (.inr (by decide +kernel))

end TolerantSyntax.Shell
