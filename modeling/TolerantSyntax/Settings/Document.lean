/-!
# Settings documents

A document has one setting on a line, `key = value`, and comments from `#` on. A value is a text in
quotes, an integer, or `true` or `false`. A document is malformed as a whole if any line of it is,
or if a key comes twice.
-/

namespace TolerantSyntax

/-- The value of a setting. -/
inductive SettingValue where
  | text (value : String)
  | flag (value : Bool)
  | number (value : Int)
deriving DecidableEq, Repr, Inhabited

/-- Settings in the order of their lines, no key twice. -/
abbrev SettingsDocument := List (String × SettingValue)

namespace SettingsDocument

/-! ## Lines -/

/-- The lines of a text, without their breaks; a line may end with a carriage return before the
break. -/
def linesOf : List Char → List (List Char)
  | [] => [[]]
  | '\n' :: rest => [] :: linesOf rest
  | '\r' :: '\n' :: rest => [] :: linesOf rest
  | c :: rest =>
    match linesOf rest with
    | [] => [[c]]
    | line :: lines => (c :: line) :: lines

/-- Is it a blank within a line? -/
def isSpace (c : Char) : Bool :=
  c == ' ' || c == '\t'

/-- May the character stand in a comment or a quoted text? -/
def isPlain (c : Char) : Bool :=
  c == '\t' || (0x20 ≤ c.toNat && c.toNat != 0x7F)

/-- Is it a comment, or nothing? -/
def isRemark : List Char → Bool
  | [] => true
  | c :: rest => c == '#' && rest.all isPlain

/-! ## Numbers -/

/-- The value of digits in a base, with single underscores between them. -/
def digits? (base : Nat) (value : Nat) : List Char → Option Nat
  | [] => none
  | [c] => (digit? c).map (value * base + ·)
  | c :: '_' :: rest => (digit? c).bind fun digit => digits? base (value * base + digit) rest
  | c :: rest => (digit? c).bind fun digit => digits? base (value * base + digit) rest
where
  /-- The value of a digit. -/
  digit? (c : Char) : Option Nat :=
    let value :=
      if c.isDigit then c.toNat - '0'.toNat
      else if 'a' ≤ c && c ≤ 'f' then c.toNat - 'a'.toNat + 10
      else if 'A' ≤ c && c ≤ 'F' then c.toNat - 'A'.toNat + 10
      else base
    if value < base then some value else none

/-- A decimal number; one of several digits does not begin with zero. -/
def decimal? : List Char → Option Nat
  | ['0'] => some 0
  | '0' :: _ => none
  | chars => digits? 10 0 chars

/-- An integer as it is written, if it fits into 64 bits. -/
def integer? (chars : List Char) : Option Int :=
  let value : Option Int :=
    match chars with
    | '0' :: 'x' :: rest => (digits? 16 0 rest).map Int.ofNat
    | '0' :: 'o' :: rest => (digits? 8 0 rest).map Int.ofNat
    | '0' :: 'b' :: rest => (digits? 2 0 rest).map Int.ofNat
    | '+' :: rest => (decimal? rest).map Int.ofNat
    | '-' :: rest => (decimal? rest).map fun value => -Int.ofNat value
    | chars => (decimal? chars).map Int.ofNat
  value.filter fun value => Int64.minValue.toInt ≤ value && value ≤ Int64.maxValue.toInt

/-! ## Quoted texts -/

/-- The character with a code, if there is one. -/
def charOfCode? (code : Nat) : Option Char :=
  if h : code.isValidChar then some (Char.ofNatAux code h) else none

/-- The character of an escape, given by what follows the backslash, and what follows the escape. -/
def escape? : List Char → Option (Char × List Char)
  | 'b' :: rest => some ('\x08', rest)
  | 't' :: rest => some ('\t', rest)
  | 'n' :: rest => some ('\n', rest)
  | 'f' :: rest => some ('\x0c', rest)
  | 'r' :: rest => some ('\r', rest)
  | '"' :: rest => some ('"', rest)
  | '\\' :: rest => some ('\\', rest)
  | 'u' :: rest => byCode 4 rest
  | 'U' :: rest => byCode 8 rest
  | _ => none
where
  /-- An escape by a code of so many digits. -/
  byCode (width : Nat) (rest : List Char) : Option (Char × List Char) :=
    if rest.length < width || (rest.take width).contains '_' then none
    else
      ((digits? 16 0 (rest.take width)).bind charOfCode?).map fun c => (c, rest.drop width)

theorem length_lt_of_escape? {chars rest : List Char} {c : Char}
    (h : escape? chars = some (c, rest)) : rest.length < chars.length := by
  unfold escape? at h
  split at h
  all_goals first
    | contradiction
    | (simp only [Option.some.injEq, Prod.mk.injEq] at h; obtain ⟨_, rfl⟩ := h; simp)
    | (unfold escape?.byCode at h
       split at h
       · contradiction
       · obtain ⟨_, _, he⟩ := Option.map_eq_some_iff.1 h
         simp only [Prod.mk.injEq] at he
         obtain ⟨_, rfl⟩ := he
         simp only [List.length_drop, List.length_cons]
         omega)

/-- A text up to its closing quote, behind the opening one, and what follows it. Escapes count only
between double quotes. -/
def quoted? (quote : Char) (chars : List Char) : Option (List Char × List Char) :=
  match chars with
  | [] => none
  | c :: rest =>
    if c = quote then some ([], rest)
    else if c = '\\' && quote = '"' then
      match _h : escape? rest with
      | some (escaped, rest) => (quoted? quote rest).map fun (text, rest) => (escaped :: text, rest)
      | none => none
    else if isPlain c then (quoted? quote rest).map fun (text, rest) => (c :: text, rest)
    else none
termination_by chars.length
decreasing_by
  · have := length_lt_of_escape? _h
    simp only [List.length_cons]
    omega
  · simp

/-! ## Settings -/

/-- Does the character stand in a key without quotes? -/
def isKeyChar (c : Char) : Bool :=
  c.isAlphanum || c == '_' || c == '-'

/-- A key, and what follows it. -/
def key? : List Char → Option (List Char × List Char)
  | '"' :: rest => quoted? '"' rest
  | '\'' :: rest => quoted? '\'' rest
  | chars =>
    let key := chars.takeWhile isKeyChar
    if key.isEmpty then none else some (key, chars.dropWhile isKeyChar)

/-- Does the character stand in a value without quotes? -/
def isBareChar (c : Char) : Bool :=
  isKeyChar c || c == '+'

/-- A value, and what follows it. -/
def value? : List Char → Option (SettingValue × List Char)
  | '"' :: rest => (quoted? '"' rest).map fun (text, rest) => (.text (String.ofList text), rest)
  | '\'' :: rest => (quoted? '\'' rest).map fun (text, rest) => (.text (String.ofList text), rest)
  | chars =>
    let word := chars.takeWhile isBareChar
    let value :=
      match String.ofList word with
      | "true" => some (SettingValue.flag true)
      | "false" => some (SettingValue.flag false)
      | _ => (integer? word).map SettingValue.number
    value.map (·, chars.dropWhile isBareChar)

/-- The setting of a line; a line of blanks or a comment has none. -/
def setting? (line : List Char) : Option (Option (String × SettingValue)) :=
  let line := line.dropWhile isSpace
  if isRemark line then some none
  else
    match key? line with
    | none => none
    | some (key, rest) =>
      match rest.dropWhile isSpace with
      | '=' :: rest =>
        match value? (rest.dropWhile isSpace) with
        | some (value, rest) =>
          if isRemark (rest.dropWhile isSpace) then some (some (String.ofList key, value))
          else none
        | none => none
      | _ => none

/-- The settings of the lines of a document. -/
def ofLines? (document : SettingsDocument) : List (List Char) → Option SettingsDocument
  | [] => some document
  | line :: rest =>
    match setting? line with
    | none => none
    | some none => ofLines? document rest
    | some (some (key, value)) =>
      if document.any (·.1 == key) then none else ofLines? (document ++ [(key, value)]) rest

/-- The settings of a document, unless it is malformed. -/
def ofText? (text : String) : Option SettingsDocument :=
  ofLines? [] (linesOf text.toList)

end SettingsDocument

end TolerantSyntax
