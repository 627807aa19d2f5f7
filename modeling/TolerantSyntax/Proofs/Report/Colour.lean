import TolerantSyntax.Proofs.Lexer.Lexicon
import TolerantSyntax.Report.Finding
import TolerantSyntax.Report.Token
import TolerantSyntax.Report.Tree

/-!
# What colours add to a report

Colours put escape sequences around the parts of a report. If these are deleted again, the report of
a tree is the one without colours (`withoutColours_tree`), and so is that of diagnostics
(`withoutColours_findings`). The text of a token cannot be mistaken for a sequence, since it is
quoted: the character that begins a sequence is written by its code point.

The line of a token is filled up in columns, and the column of its kind is filled up with the
sequences in it. They take their length from the blanks, so the column that is left is narrower
(`withoutColours_tokenAtPlace`), and the line is another one unless the name of the kind fills the
whole column (`withoutColours_tokenAtPlace_eq_iff`). No token of a source is of such a kind
(`withoutColours_tokenAtPlace_ne`).
-/

namespace TolerantSyntax.Report

/-! ## Deleting escape sequences -/

/-- Parameters of an escape sequence are numbers with semicolons between them. -/
def isParameter (c : Char) : Bool :=
  c.isDigit || c = ';'

/-- What stands behind the escape sequence that comes next, if one does. -/
def behindSequence? : List Char → Option (List Char)
  | '\x1b' :: '[' :: rest =>
    match rest.dropWhile isParameter with
    | 'm' :: behind => some behind
    | _ => none
  | _ => none

/-- A sequence has its two first characters at least, so deleting comes to an end. -/
theorem length_behindSequence? {chars behind : List Char}
    (h : behindSequence? chars = some behind) : behind.length < chars.length := by
  unfold behindSequence? at h
  split at h
  · next rest =>
    split at h
    · next hdrop =>
      cases h
      have hle := (rest.dropWhile_sublist isParameter).length_le
      rw [hdrop] at hle
      simp only [List.length_cons] at hle ⊢
      omega
    · cases h
  · cases h

/-- The characters without the escape sequences among them. -/
def withoutSequences (chars : List Char) : List Char :=
  match h : behindSequence? chars with
  | some behind =>
    have : behind.length < chars.length := length_behindSequence? h
    withoutSequences behind
  | none =>
    match chars with
    | [] => []
    | c :: rest => c :: withoutSequences rest
termination_by chars.length

/-- A text without the escape sequences in it. -/
def withoutColours (text : String) : String :=
  String.ofList (withoutSequences text.toList)

/-- There is nothing in a text that could begin an escape sequence. -/
def Plain (text : String) : Prop :=
  '\x1b' ∉ text.toList

instance (text : String) : Decidable (Plain text) :=
  inferInstanceAs (Decidable ('\x1b' ∉ text.toList))

theorem withoutSequences_cons {c : Char} (h : c ≠ '\x1b') (rest : List Char) :
    withoutSequences (c :: rest) = c :: withoutSequences rest := by
  have hnone : behindSequence? (c :: rest) = none := by
    unfold behindSequence?
    split
    · next heq => exact absurd (List.cons.inj heq).1 h
    · rfl
  rw [withoutSequences]
  split
  · next hsome => rw [hnone] at hsome; cases hsome
  · rfl

/-- Where there is no escape character, nothing is deleted. -/
theorem withoutSequences_append {chars : List Char} (h : '\x1b' ∉ chars) (rest : List Char) :
    withoutSequences (chars ++ rest) = chars ++ withoutSequences rest := by
  induction chars with
  | nil => rfl
  | cons c chars ih =>
    rw [List.mem_cons, not_or] at h
    rw [List.cons_append, withoutSequences_cons (Ne.symm h.1), ih h.2, List.cons_append]

/-- An escape sequence is deleted. -/
theorem withoutSequences_escapeSequence {parameters : String}
    (h : parameters.toList.all isParameter = true) (rest : List Char) :
    withoutSequences ((escapeSequence parameters).toList ++ rest) = withoutSequences rest := by
  have hchars : (escapeSequence parameters).toList ++ rest =
      '\x1b' :: '[' :: (parameters.toList ++ 'm' :: rest) := by
    simp [escapeSequence]
  have hsome : behindSequence? ('\x1b' :: '[' :: (parameters.toList ++ 'm' :: rest)) =
      some rest := by
    have hm : isParameter 'm' = false := by decide
    simp only [behindSequence?, List.dropWhile_append_of_pos (List.all_eq_true.mp h),
      List.dropWhile_cons, hm, Bool.false_eq_true, if_false]
  rw [hchars, withoutSequences]
  split
  · next hbehind =>
    rw [hsome] at hbehind
    cases hbehind
    rfl
  · next hnone => rw [hsome] at hnone; cases hnone

/-! ## What has no escape sequence in it -/

theorem Plain.append {first second : String} (h : Plain first) (h' : Plain second) :
    Plain (first ++ second) := by
  rw [Plain, String.toList_append, List.mem_append, not_or]
  exact ⟨h, h'⟩

/-- A text whose characters are known is looked through without decoding it. -/
theorem plain_of_eq_ofList {text : String} (chars : List Char) (heq : text = String.ofList chars)
    (h : chars.contains '\x1b' = false) : Plain text := by
  rw [heq, Plain, String.toList_ofList]
  simpa using h

theorem plain_blanks (count : Nat) : Plain (String.ofList (List.replicate count ' ')) := by
  rw [Plain, String.toList_ofList]
  intro hmem
  exact absurd (List.eq_of_mem_replicate hmem) (by decide)

theorem plain_space : Plain " " := by decide

theorem plain_colon : Plain ":" := by decide

theorem plain_break : Plain "\n" := by decide

/-- Digits of any base are digits or letters. -/
theorem notMem_toDigits (base n : Nat) (hbase : 1 < base) : '\x1b' ∉ Nat.toDigits base n := by
  induction n using Nat.strongRecOn with
  | ind n ih =>
    by_cases hlt : n < base
    · rw [Nat.toDigits_of_lt_base hlt]
      simp
    · have hdiv : 0 < n / base := Nat.div_pos (Nat.le_of_not_lt hlt) (by omega)
      have hsplit := Nat.toDigits_append_toDigits hbase hdiv (Nat.mod_lt n (by omega))
      rw [Nat.div_add_mod] at hsplit
      rw [← hsplit, List.mem_append, not_or, Nat.toDigits_of_lt_base (Nat.mod_lt n (by omega))]
      exact ⟨ih _ (Nat.div_lt_self (by omega) hbase), by simp⟩

theorem plain_toString (n : Nat) : Plain (toString n) := by
  rw [Plain, Nat.toString_eq_repr, Nat.repr]
  simpa using notMem_toDigits 10 n (by decide)

/-- A quoted character is not the one that begins a sequence. -/
theorem notMem_quoteChar (c : Char) : '\x1b' ∉ Text.quoteChar c := by
  unfold Text.quoteChar
  split
  case h_7 =>
    split
    · simpa [Text.hexDigits] using notMem_toDigits 16 c.toNat (by decide)
    · next hprintable =>
      rw [List.mem_singleton]
      rintro rfl
      exact hprintable (by decide)
  all_goals decide

/-- Quoting writes an escape character as digits. -/
theorem plain_quoted (text : String) : Plain (Text.quoted text) := by
  rw [Plain, Text.quoted, String.toList_ofList, List.cons_append, List.mem_cons, List.mem_append,
    List.mem_flatMap]
  rintro (hmem | ⟨c, -, hmem⟩ | hmem)
  · exact absurd hmem (by decide)
  · exact notMem_quoteChar c hmem
  · exact absurd hmem (by decide)

theorem plain_name (kind : Kind) : Plain kind.name := by
  cases kind <;> exact plain_of_eq_ofList _ rfl rfl

theorem plain_describe (kind : Kind) : Plain kind.describe := by
  have htexts : ∀ kind ∈ Kind.all, ∀ text ∈ kind.text?, Plain text := by decide +kernel
  have hquote : Plain "'" := by decide
  unfold Kind.describe
  split
  · next text htext => exact (hquote.append (htexts kind kind.mem_all text htext)).append hquote
  · split <;> first | decide | exact plain_name _

theorem plain_id (code : DiagnosticCode) : Plain code.id := by
  cases code <;> exact plain_of_eq_ofList _ rfl rfl

theorem plain_message (code : DiagnosticCode) : Plain code.message := by
  cases code with
  | missingToken kind => exact .append (by decide) (plain_describe kind)
  | invalidToken kind => exact .append (by decide) (plain_describe kind)
  | _ => exact plain_of_eq_ofList _ rfl rfl

theorem plain_text (code : DiagnosticCode) : Plain code.text :=
  ((plain_id code).append (by decide)).append (plain_message code)

/-! ## Coloured texts -/

/-- If the sequences in the coloured text are deleted, the plain one is left, whatever stands
behind. -/
def Strips (colored plain : String) : Prop :=
  ∀ rest, withoutSequences (colored.toList ++ rest) = plain.toList ++ withoutSequences rest

theorem Strips.eq {colored plain : String} (h : Strips colored plain) :
    withoutColours colored = plain := by
  have hend := h []
  have hnil : withoutSequences [] = [] := by rw [withoutSequences]; rfl
  rw [List.append_nil, hnil, List.append_nil] at hend
  rw [withoutColours, hend, String.ofList_toList]

theorem Plain.strips {text : String} (h : Plain text) : Strips text text :=
  withoutSequences_append h

theorem strips_empty : Strips "" "" :=
  fun _ => rfl

/-- Sequences are closed within each part, so parts can be put together. -/
theorem Strips.append {colored plain colored' plain' : String} (h : Strips colored plain)
    (h' : Strips colored' plain') : Strips (colored ++ colored') (plain ++ plain') := by
  intro rest
  simp only [String.toList_append, List.append_assoc]
  rw [h, h']

/-- A sequence is deleted as a whole. -/
theorem strips_escapeSequence {parameters : String}
    (h : parameters.toList.all isParameter = true) : Strips (escapeSequence parameters) "" :=
  withoutSequences_escapeSequence h

theorem all_isParameter (style : Style) : style.parameters.toList.all isParameter = true := by
  cases style <;> decide

/-- **A painted text** between the sequences of its style. -/
theorem Plain.strips_paint {text : String} (h : Plain text) (style : Style) :
    Strips (Painter.paint ⟨true⟩ style text) (Painter.paint ⟨false⟩ style text) := by
  have hon := strips_escapeSequence (all_isParameter style)
  have hoff : Strips (escapeSequence "0") "" := strips_escapeSequence (by decide)
  have hall := (hon.append h.strips).append hoff
  rwa [String.empty_append, String.append_empty] at hall

/-- Lists of parts, one after the other. -/
theorem strips_join {α : Type} {colored plain : α → String}
    (h : ∀ item, Strips (colored item) (plain item)) (items : List α) :
    Strips (String.join (items.map colored)) (String.join (items.map plain)) := by
  induction items with
  | nil => exact strips_empty
  | cons item items ih =>
    rw [List.map_cons, List.map_cons, String.join_cons, String.join_cons]
    exact (h item).append ih

/-! ## The report of a tree -/

/-- A line is indented by blanks and ends with a line feed. -/
theorem Strips.lineAt {colored plain : String} (h : Strips colored plain) (depth : Nat) :
    Strips (lineAt depth colored) (lineAt depth plain) :=
  ((plain_blanks _).strips.append h).append plain_break.strips

/-- What is wrong with a part: a mark, and the code behind it. -/
theorem strips_mark (code : DiagnosticCode) :
    Strips (Painter.paint ⟨true⟩ .error "!" ++ " " ++ code.text)
      (Painter.paint ⟨false⟩ .error "!" ++ " " ++ code.text) := by
  have hmark : Plain "!" := by decide
  exact ((hmark.strips_paint .error).append plain_space.strips).append (plain_text code).strips

theorem strips_diagnosticsAt (depth : Nat) (diagnostics : List Diagnostic) :
    Strips (diagnosticsAt ⟨true⟩ depth diagnostics) (diagnosticsAt ⟨false⟩ depth diagnostics) := by
  rw [diagnosticsAt, diagnosticsAt]
  refine strips_join (fun diagnostic => ?_) diagnostics
  exact (strips_mark diagnostic.code).lineAt (depth + 1)

theorem strips_tokenLine (kind : Kind) (text : String) (missing : Bool) :
    Strips (tokenLine ⟨true⟩ kind text missing) (tokenLine ⟨false⟩ kind text missing) := by
  refine (((plain_name kind).strips_paint .dim).append plain_space.strips).append ?_
  cases missing with
  | true =>
    have hmissing : Plain "<missing>" := by decide
    exact hmissing.strips_paint .error
  | false => exact (plain_quoted text).strips_paint .token

mutual

/-- A token with its diagnostics and what is set aside at it; by induction on the tree. -/
theorem strips_tokenAt (depth : Nat) : (token : Token) →
    Strips (tokenAt ⟨true⟩ depth token) (tokenAt ⟨false⟩ depth token)
  | ⟨kind, text, span, leading, trailing, diagnostics, missing⟩ => by
    have hline := (strips_tokenLine kind text missing).lineAt depth
    rw [tokenAt, tokenAt]
    refine (hline.append ?_).append (strips_diagnosticsAt depth diagnostics)
    cases missing with
    | true => exact strips_empty
    | false => exact (strips_invalidAt depth leading).append (strips_invalidAt depth trailing)

theorem strips_invalidAt (depth : Nat) : (trivia : List Trivia) →
    Strips (invalidAt ⟨true⟩ depth trivia) (invalidAt ⟨false⟩ depth trivia)
  | [] => strips_empty
  | .invalid node :: rest => by
    have hinvalid : Plain "<invalid>" := by decide
    have hline := (hinvalid.strips_paint .error).lineAt (depth + 1)
    exact (hline.append (strips_nodeAt (depth + 2) node)).append (strips_invalidAt depth rest)
  | .whitespace _ :: rest => strips_invalidAt depth rest
  | .endOfLine _ :: rest => strips_invalidAt depth rest
  | .comment _ :: rest => strips_invalidAt depth rest
  | .documentation _ :: rest => strips_invalidAt depth rest

theorem strips_nodeAt (depth : Nat) : (node : Node) →
    Strips (nodeAt ⟨true⟩ depth node) (nodeAt ⟨false⟩ depth node)
  | .leaf token => strips_tokenAt depth token
  | .composite kind slots diagnostics => by
    have hline := ((plain_name kind).strips_paint .node).lineAt depth
    exact (hline.append (strips_slotsAt (depth + 1) slots)).append
      (strips_diagnosticsAt depth diagnostics)

theorem strips_slotsAt (depth : Nat) : (slots : List (Option Node)) →
    Strips (slotsAt ⟨true⟩ depth slots) (slotsAt ⟨false⟩ depth slots)
  | [] => strips_empty
  | none :: rest => strips_slotsAt depth rest
  | some node :: rest => (strips_nodeAt depth node).append (strips_slotsAt depth rest)

end

/-- **Colours change nothing else in the report of a tree.** -/
theorem withoutColours_tree (node : Node) :
    withoutColours (tree ⟨true⟩ node) = tree ⟨false⟩ node :=
  (strips_nodeAt 0 node).eq

/-! ## The report of diagnostics -/

theorem strips_severity (severity : Severity) :
    Strips (Painter.severity ⟨true⟩ severity) (Painter.severity ⟨false⟩ severity) := by
  have hword : Plain severity.text := by cases severity <;> decide
  cases severity with
  | error => exact hword.strips_paint .error
  | warning => exact hword.strips_paint .warning

/-- The name of the file comes from outside, so it must have no escape character itself. -/
theorem strips_findingAt {file : String} (hfile : Plain file) (place : LineCol)
    (diagnostic : Diagnostic) :
    Strips (findingAt ⟨true⟩ file place diagnostic) (findingAt ⟨false⟩ file place diagnostic) := by
  have hbehind : Plain ": " := by decide
  have hopen : Plain "[" := by decide
  have hclose : Plain "]: " := by decide
  have hplace := (hfile.strips_paint .path).append plain_colon.strips
    |>.append (plain_toString (place.line + 1)).strips |>.append plain_colon.strips
    |>.append (plain_toString (place.col + 1)).strips |>.append hbehind.strips
  exact hplace.append (strips_severity diagnostic.severity) |>.append hopen.strips
    |>.append (plain_id diagnostic.code).strips |>.append hclose.strips
    |>.append (plain_message diagnostic.code).strips |>.append plain_break.strips

/-- **Colours change nothing else in the report of diagnostics** of a file, if there is no escape
character in its name. -/
theorem withoutColours_findings {file : String} (hfile : Plain file) (source : String)
    (diagnostics : List Diagnostic) :
    withoutColours (findings ⟨true⟩ file source diagnostics) =
      findings ⟨false⟩ file source diagnostics :=
  (strips_join (fun _ => strips_findingAt hfile _ _) diagnostics).eq

/-! ## The line of a token -/

/-- The line of a token without colours, with a column of some width for its kind. -/
def lineOfWidth (width : Nat) (withTrivia : Bool) (place : LineCol) (token : Token) : String :=
  placeColumns place ++ " " ++ padEnd width token.kind.name ++ " " ++ Text.quoted token.text ++
    (if withTrivia then triviaPart ⟨false⟩ token else "") ++
    String.join (token.diagnostics.map fun diagnostic => " " ++ "!" ++ " " ++ diagnostic.code.text)

/-- Without colours the kind is padded to 28 characters. -/
theorem tokenAtPlace_plain (withTrivia : Bool) (place : LineCol) (token : Token) :
    tokenAtPlace ⟨false⟩ withTrivia place token = lineOfWidth 28 withTrivia place token :=
  rfl

theorem Plain.padEnd {text : String} (h : Plain text) (width : Nat) : Plain (padEnd width text) :=
  h.append (plain_blanks _)

theorem Plain.padStart {text : String} (h : Plain text) (width : Nat) :
    Plain (padStart width text) :=
  (plain_blanks _).append h

theorem plain_placeColumns (place : LineCol) : Plain (placeColumns place) := by
  exact (((plain_toString _).padStart 4).append plain_colon).append ((plain_toString _).padEnd 3)

/-- **The sequences take their length from the blanks**: nine characters of the column are theirs.
-/
theorem strips_padEnd_paint {text : String} (h : Plain text) (width : Nat) :
    Strips (padEnd width (Painter.paint ⟨true⟩ .node text)) (padEnd (width - 9) text) := by
  have hlength : (Painter.paint ⟨true⟩ .node text).length = text.length + 9 := by
    have hon : (escapeSequence Style.node.parameters).length = 5 := by decide
    have hoff : (escapeSequence "0").length = 4 := by decide
    rw [Painter.paint, if_pos rfl, String.length_append, String.length_append, hon, hoff]
    omega
  have hblanks : width - (text.length + 9) = width - 9 - text.length := by omega
  rw [padEnd, hlength, hblanks]
  exact (h.strips_paint .node).append (plain_blanks _).strips

theorem plain_triviaPiece (trivia : Trivia) : Plain (triviaPiece trivia) := by
  cases trivia with
  | endOfLine text => exact (by decide : Plain "eol")
  | whitespace text | comment text | documentation text =>
    exact .append (by decide) (plain_quoted text)
  | invalid node => exact .append (by decide) (plain_quoted node.source)

theorem plain_intercalate {separator : String} (hseparator : Plain separator) {texts : List String}
    (h : ∀ text ∈ texts, Plain text) : Plain (String.intercalate separator texts) := by
  induction texts with
  | nil => exact List.not_mem_nil
  | cons text others ih =>
    obtain ⟨htext, hothers⟩ := List.forall_mem_cons.mp h
    cases others with
    | nil => rwa [String.intercalate_singleton]
    | cons other others =>
      rw [String.intercalate_cons_cons]
      exact (htext.append hseparator).append (ih hothers)

theorem plain_triviaPieces (trivia : List Trivia) : Plain (triviaPieces trivia) := by
  refine plain_intercalate (by decide) fun text htext => ?_
  obtain ⟨piece, -, rfl⟩ := List.mem_map.mp htext
  exact plain_triviaPiece piece

theorem strips_triviaPart (token : Token) :
    Strips (triviaPart ⟨true⟩ token) (triviaPart ⟨false⟩ token) := by
  unfold triviaPart
  split
  · exact strips_empty
  · have hopen : Plain "[" := by decide
    have hbetween : Plain "] [" := by decide
    have hclose : Plain "]" := by decide
    have hpieces := hopen.append (plain_triviaPieces token.leading) |>.append hbetween
      |>.append (plain_triviaPieces token.trailing) |>.append hclose
    exact plain_space.strips.append (hpieces.strips_paint .dim)

/-- With colours, nine characters of the padding are taken up by the sequences, so that 19 are left.
-/
theorem strips_tokenAtPlace (withTrivia : Bool) (place : LineCol) (token : Token) :
    Strips (tokenAtPlace ⟨true⟩ withTrivia place token)
      (lineOfWidth 19 withTrivia place token) := by
  have hplace := (plain_placeColumns place).strips
  have hkind := strips_padEnd_paint (plain_name token.kind) 28
  have htext := (plain_quoted token.text).strips_paint .token
  have htrivia : Strips (if withTrivia then triviaPart ⟨true⟩ token else "")
      (if withTrivia then triviaPart ⟨false⟩ token else "") := by
    split
    · exact strips_triviaPart token
    · exact strips_empty
  have hmarks : Strips
      (String.join (token.diagnostics.map fun diagnostic =>
        " " ++ Painter.paint ⟨true⟩ .error "!" ++ " " ++ diagnostic.code.text))
      (String.join (token.diagnostics.map fun diagnostic =>
        " " ++ "!" ++ " " ++ diagnostic.code.text)) := by
    refine strips_join (fun diagnostic => ?_) token.diagnostics
    have hmark := plain_space.strips.append (strips_mark diagnostic.code)
    simpa only [Painter.paint_plain, String.append_assoc] using hmark
  rw [Painter.paint_plain] at htext
  rw [tokenAtPlace, lineOfWidth]
  exact hplace.append plain_space.strips |>.append hkind |>.append plain_space.strips
    |>.append htext |>.append htrivia |>.append hmarks

/-- **Deleted sequences leave a narrower column** for the kind of a token. -/
theorem withoutColours_tokenAtPlace (withTrivia : Bool) (place : LineCol) (token : Token) :
    withoutColours (tokenAtPlace ⟨true⟩ withTrivia place token) =
      lineOfWidth 19 withTrivia place token :=
  (strips_tokenAtPlace withTrivia place token).eq

/-- A wider column makes the line longer by as many blanks. -/
theorem length_lineOfWidth (width : Nat) (withTrivia : Bool) (place : LineCol) (token : Token) :
    (lineOfWidth width withTrivia place token).length + token.kind.name.length =
      (lineOfWidth 0 withTrivia place token).length + max width token.kind.name.length := by
  simp only [lineOfWidth, padEnd, String.length_append, String.length_ofList, List.length_replicate]
  omega

/-- Without its colours, the line of a token is the line without colours only if the name of its
kind leaves no blanks in the column. -/
theorem withoutColours_tokenAtPlace_eq_iff (withTrivia : Bool) (place : LineCol) (token : Token) :
    withoutColours (tokenAtPlace ⟨true⟩ withTrivia place token) =
        tokenAtPlace ⟨false⟩ withTrivia place token ↔
      28 ≤ token.kind.name.length := by
  rw [withoutColours_tokenAtPlace, tokenAtPlace_plain]
  constructor
  · intro heq
    have hnarrow := length_lineOfWidth 19 withTrivia place token
    have hwide := length_lineOfWidth 28 withTrivia place token
    rw [heq] at hnarrow
    omega
  · intro hlength
    have hpadding (width : Nat) (hwidth : width ≤ 28) :
        padEnd width token.kind.name = token.kind.name := by
      rw [padEnd, Nat.sub_eq_zero_of_le (by omega), List.replicate_zero, String.ofList_nil,
        String.append_empty]
    rw [lineOfWidth, lineOfWidth, hpadding 19 (by decide), hpadding 28 (by decide)]

/-- The names of kinds that tokens are read as are shorter than the column. -/
theorem length_name_of_isForm {first : Char} {input : List Char} {lexeme : Lexeme}
    (h : Lexeme.IsForm first input lexeme) : lexeme.kind.name.length < 28 := by
  cases h with
  | fixed htext =>
    have hall : ∀ kind ∈ Kind.all, kind.text?.isSome = true → kind.name.length < 28 := by
      decide +kernel
    exact hall _ (Kind.mem_all _) (Option.isSome_of_eq_some htext)
  | number hkind =>
    have hall : ∀ kind ∈ Kind.numericLiterals, kind.name.length < 28 := by decide
    exact hall _ (List.contains_iff_mem.mp hkind)
  | string => exact (by decide : Kind.stringLiteral.name.length < 28)
  | name => exact (by decide : Kind.identifier.name.length < 28)
  | invalid => exact (by decide : Kind.invalid.name.length < 28)

/-- No kind of a token has a name that fills the column. -/
theorem length_name_next {scanner : Scanner} (h : scanner.mode = .code) :
    scanner.next.1.kind.name.length < 28 := by
  cases hleading : (Trivia.leading scanner.rest).2 with
  | nil =>
    have hkind : scanner.next.1.kind = .eof :=
      congrArg Token.Spelling.kind (Scanner.spelling_of_leading_nil hleading)
    rw [hkind]
    decide
  | cons first rest =>
    have hkind : scanner.next.1.kind = _ :=
      congrArg Token.Spelling.kind (Scanner.next_of_cons hleading).1
    rw [hkind, h]
    exact length_name_of_isForm (Lexeme.isForm_next first rest)

/-- **Colours change the blanks in the line of every token** of a source. -/
theorem withoutColours_tokenAtPlace_ne (withTrivia : Bool) (place : LineCol) (source : String) :
    ∀ token ∈ (Scanner.ofSource source).tokens,
      withoutColours (tokenAtPlace ⟨true⟩ withTrivia place token) ≠
        tokenAtPlace ⟨false⟩ withTrivia place token := by
  refine Scanner.forall_mem_tokens_of_next (fun scanner h heq => ?_) _ rfl
  have hlength := (withoutColours_tokenAtPlace_eq_iff withTrivia place _).mp heq
  exact absurd hlength (Nat.not_le_of_lt (length_name_next h))

end TolerantSyntax.Report
