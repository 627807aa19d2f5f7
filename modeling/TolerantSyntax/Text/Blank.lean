/-!
# Blanks

The characters of the property White_Space, and text with the blanks at its ends taken off.
-/

namespace TolerantSyntax.Text

/-- Is it a character of the property White_Space? -/
def isBlank (c : Char) : Bool :=
  let code := c.toNat
  (9 ≤ code && code ≤ 13) || code == 0x20 || code == 0x85 || code == 0xA0 || code == 0x1680 ||
    (0x2000 ≤ code && code ≤ 0x200A) || code == 0x2028 || code == 0x2029 || code == 0x202F ||
    code == 0x205F || code == 0x3000

/-- The blanks of ASCII that separate words are among them. -/
theorem isBlank_of_isWhitespace {c : Char} (h : c.isWhitespace = true) : isBlank c = true := by
  simp only [Char.isWhitespace, Bool.or_eq_true, decide_eq_true_eq] at h
  rcases h with ((h | h) | h) | h <;> subst h <;> decide

/-- Text without the blanks in front. -/
def trimStart (text : List Char) : List Char :=
  text.dropWhile isBlank

/-- Text without the blanks behind. -/
def trimEnd (text : List Char) : List Char :=
  (text.reverse.dropWhile isBlank).reverse

/-- Text without the blanks at its ends. -/
def trim (text : List Char) : List Char :=
  trimEnd (trimStart text)

/-- Text without the blanks at its ends. -/
def trimmed (text : String) : String :=
  String.ofList (trim text.toList)

/-- Letters of ASCII in lower case; all else stays. -/
def lowerAscii (text : String) : String :=
  String.ofList (text.toList.map Char.toLower)

end TolerantSyntax.Text
