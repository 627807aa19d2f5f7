import Mathlib.Data.List.DropRight
import TolerantSyntax.Proofs.Place
import TolerantSyntax.Shell.Assist

/-!
# Words at the cursor

The shell completes the word that the line before the cursor ends with. It takes this word to begin
one byte behind the character before it, so there are words to offer just where this character is of
one byte, or the word begins the line (`isSome_lastWord?_iff`). There the offers are the listed
words that go on from it, each with what is left of it (`completions_at_cursor`), and what a hint
shows behind the line makes a listed word of its last one (`mem_words_of_hint`).
-/

namespace TolerantSyntax.Shell

/-! ## The listing -/

theorem mem_withoutRepeats {word : String} {listed : List String} :
    word ∈ withoutRepeats listed ↔ word ∈ listed := by
  fun_induction withoutRepeats listed with
  | case1 a b rest hsame ih =>
    rw [ih, beq_iff_eq.mp hsame]
    simp
  | case2 a b rest hsame ih => rw [List.mem_cons, ih, List.mem_cons (b := a)]
  | case3 => rfl

/-- The words of the language, of the shell and of fragments are listed. -/
theorem mem_words_iff {word : String} :
    word ∈ words ↔ (∃ kind, (word, kind) ∈ Kind.keywords) ∨
      (∃ entry ∈ ShellCommand.listing, commandWord entry.1 = word) ∨
        ∃ kind ∈ FragmentKind.all, kind.name = word := by
  rw [words, mem_withoutRepeats, List.mem_mergeSort]
  simp

/-! ## Cutting a line at a byte -/

theorem before?_append (before after : List Char) :
    before? (Scanner.byteLength before) (before ++ after) = some before := by
  induction before with
  | nil => cases after <;> rfl
  | cons c before ih =>
    have hpos := c.utf8Size_pos
    rw [Scanner.byteLength_cons, List.cons_append, before?, if_neg (by omega), if_neg (by omega),
      Nat.add_sub_cancel_left, ih, Option.map_some]

/-! ## The word at the end of a line -/

/-- The word that a line ends with; it is empty behind a character of another sort. -/
def wordAtEnd (line : List Char) : List Char :=
  line.rtakeWhile isWordChar

/-- The character before that word. -/
def separator? (line : List Char) : Option Char :=
  (line.reverse.dropWhile isWordChar).head?

/-- The word at the end begins the line or stands behind a character of one byte. -/
def SeparatedByByte (line : List Char) : Prop :=
  ∀ c ∈ separator? line, c.utf8Size = 1

/-- A line is its last word, or something, a separator and its last word. -/
theorem exists_eq_append_wordAtEnd (line : List Char) :
    (line = wordAtEnd line ∧ separator? line = none ∧ wordStart line = 0) ∨
      ∃ before c, line = before ++ c :: wordAtEnd line ∧ separator? line = some c ∧
        wordStart line = Scanner.byteLength before + 1 := by
  have hline : line = (line.reverse.dropWhile isWordChar).reverse ++ wordAtEnd line :=
    List.rdropWhile_append_rtakeWhile.symm
  cases hbefore : line.reverse.dropWhile isWordChar with
  | nil =>
    rw [hbefore, List.reverse_nil, List.nil_append] at hline
    exact .inl ⟨hline, by rw [separator?, hbefore]; rfl, by rw [wordStart, hbefore]⟩
  | cons c before =>
    rw [hbefore, List.reverse_cons, List.append_assoc, List.singleton_append] at hline
    refine .inr ⟨before.reverse, c, hline, by rw [separator?, hbefore]; rfl, ?_⟩
    rw [wordStart, hbefore, Scanner.byteLength_reverse]

theorem lastWord?_of_separatedByByte {line : List Char} (h : SeparatedByByte line) :
    lastWord? line = some (wordAtEnd line) := by
  rw [lastWord?]
  rcases exists_eq_append_wordAtEnd line with ⟨hline, -, hstart⟩ | ⟨before, c, hline, hc, hstart⟩
  · rw [hstart, ← hline]
    exact Scanner.behind?_append [] line
  · have hbytes : wordStart line = Scanner.byteLength (before ++ [c]) := by
      rw [hstart, Scanner.byteLength_append, Scanner.byteLength_cons, h c hc]
      rfl
    rw [hbytes]
    have hcut := Scanner.behind?_append (before ++ [c]) (wordAtEnd line)
    rwa [← List.append_cons, ← hline] at hcut

theorem lastWord?_of_not_separatedByByte {line : List Char} (h : ¬SeparatedByByte line) :
    lastWord? line = none := by
  rw [lastWord?]
  rcases exists_eq_append_wordAtEnd line with ⟨-, hnone, -⟩ | ⟨before, c, hline, hc, hstart⟩
  · exact absurd (fun c hc => by rw [hnone] at hc; cases hc) h
  · have hsize : c.utf8Size ≠ 1 := fun hsize => h fun d hd => by
      rw [hc] at hd
      rw [← Option.some.inj hd, hsize]
    have hpos := c.utf8Size_pos
    have hcut := @Scanner.behind?_within c 1 Nat.one_pos (by omega) before (wordAtEnd line)
    rwa [← hline, ← hstart] at hcut

/-- The last word of a line is found just where it stands behind a character of one byte. -/
theorem isSome_lastWord?_iff {line : List Char} :
    (lastWord? line).isSome ↔ SeparatedByByte line := by
  by_cases h : SeparatedByByte line
  · simp [lastWord?_of_separatedByByte h, h]
  · simp [lastWord?_of_not_separatedByByte h, h]

/-- A word begins between two characters of a line just where it can be found. -/
theorem isBoundary_wordStart_iff {line : List Char} :
    IsBoundary (String.ofList line) (wordStart line) ↔ SeparatedByByte line := by
  rw [← Scanner.isSome_behind?_iff, ← isSome_lastWord?_iff, lastWord?]

theorem wordStart_le (line : List Char) : wordStart line ≤ Scanner.byteLength line := by
  rcases exists_eq_append_wordAtEnd line with ⟨-, -, hstart⟩ | ⟨before, c, hline, -, hstart⟩
  · omega
  · have hbytes := congrArg Scanner.byteLength hline
    have hpos := c.utf8Size_pos
    rw [Scanner.byteLength_append, Scanner.byteLength_cons] at hbytes
    omega

/-! ## Offers -/

theorem completion?_eq_some_iff {typed : List Char} {word : String} {offer : Completion} :
    completion? typed word = some offer ↔
      offer.word = word ∧ String.ofList typed ++ offer.rest = word := by
  obtain ⟨offered, rest⟩ := offer
  have hchars : String.ofList typed ++ rest = word ↔ typed ++ rest.toList = word.toList := by
    rw [← String.toList_inj, String.toList_append, String.toList_ofList]
  rw [hchars, completion?]
  split
  · next hprefix =>
    obtain ⟨left, hleft⟩ := List.isPrefixOf_iff_prefix.mp hprefix
    rw [← hleft, List.drop_left]
    constructor
    · rintro ⟨⟩
      exact ⟨rfl, by rw [String.toList_ofList]⟩
    · rintro ⟨rfl, hrest⟩
      rw [← List.append_cancel_left hrest, String.ofList_toList]
  · next hprefix =>
    refine iff_of_false (by simp) fun h => hprefix ?_
    exact List.isPrefixOf_iff_prefix.mpr ⟨rest.toList, h.2⟩

/-- The offers for what is typed are the listed words that go on from it. -/
theorem mem_offers_iff {typed : List Char} {offer : Completion} :
    offer ∈ words.filterMap (completion? typed) ↔
      offer.word ∈ words ∧ String.ofList typed ++ offer.rest = offer.word := by
  simp only [List.mem_filterMap, completion?_eq_some_iff]
  constructor
  · rintro ⟨word, hword, rfl, hrest⟩
    exact ⟨hword, hrest⟩
  · rintro ⟨hword, hrest⟩
    exact ⟨offer.word, hword, rfl, hrest⟩

theorem mem_completions_iff {line : List Char} {offers : List Completion}
    (h : completions line = some offers) {offer : Completion} :
    offer ∈ offers ↔ wordAtEnd line ≠ [] ∧ offer.word ∈ words ∧
      String.ofList (wordAtEnd line) ++ offer.rest = offer.word := by
  obtain ⟨typed, htyped, rfl⟩ := Option.map_eq_some_iff.mp h
  have hsome : (lastWord? line).isSome := by rw [htyped]; rfl
  rw [lastWord?_of_separatedByByte (isSome_lastWord?_iff.mp hsome)] at htyped
  obtain rfl := Option.some.inj htyped
  by_cases hempty : wordAtEnd line = []
  · simp [hempty]
  · rw [if_neg (by simpa using hempty), mem_offers_iff, and_iff_right hempty]

/-- **Completion at the cursor.** Wherever the cursor stands between two characters of a line, the
word before it is taken to begin there or before. Behind a character of one byte, and at the
beginning of the line, it does begin between characters, and if there is a word, the listed words
that go on from it are offered, each with what has to be typed to get it. Behind another character
the line would be cut within this one, and nothing is offered. -/
theorem completions_at_cursor {line : String} {position : Nat} (h : IsBoundary line position) :
    ∃ typed, before? position line.toList = some typed ∧ wordStart typed ≤ position ∧
      (SeparatedByByte typed → IsBoundary line (wordStart typed) ∧
        ∃ offers, completions typed = some offers ∧
          ∀ offer, offer ∈ offers ↔ wordAtEnd typed ≠ [] ∧ offer.word ∈ words ∧
            String.ofList (wordAtEnd typed) ++ offer.rest = offer.word) ∧
      (¬SeparatedByByte typed → completions typed = none) := by
  obtain ⟨typed, behind, hline, rfl⟩ := Scanner.isBoundary_iff.mp h
  refine ⟨typed, by rw [hline, before?_append], wordStart_le typed, fun hbyte => ⟨?_, ?_⟩,
    fun hbyte => ?_⟩
  · obtain ⟨before, after, htyped, hstart⟩ :=
      Scanner.isBoundary_iff.mp (isBoundary_wordStart_iff.mpr hbyte)
    rw [String.toList_ofList] at htyped
    exact Scanner.isBoundary_iff.mpr
      ⟨before, after ++ behind, by rw [hline, htyped, List.append_assoc], hstart⟩
  · have hsome : (completions typed).isSome := by
      rw [completions, Option.isSome_map, isSome_lastWord?_iff]
      exact hbyte
    obtain ⟨offers, hoffers⟩ := Option.isSome_iff_exists.mp hsome
    exact ⟨offers, hoffers, fun _ => mem_completions_iff hoffers⟩
  · rw [completions, lastWord?_of_not_separatedByByte hbyte, Option.map_none]

/-- Behind a character of three bytes nothing is offered. -/
example : completions ['€', 'f', 'u'] = none := by decide +kernel

/-- What a hint shows goes on from the last word of the line and makes a listed word of it. -/
theorem mem_words_of_hint {line : List Char} {rest : String} (h : hint line = some (some rest)) :
    String.ofList (wordAtEnd line) ++ rest ∈ words ∧ rest ≠ "" := by
  obtain ⟨typed, htyped, hrest⟩ := Option.map_eq_some_iff.mp h
  have hsome : (lastWord? line).isSome := by rw [htyped]; rfl
  rw [lastWord?_of_separatedByByte (isSome_lastWord?_iff.mp hsome)] at htyped
  obtain rfl := Option.some.inj htyped
  split at hrest
  · cases hrest
  · obtain ⟨offer, hfind, rfl⟩ := Option.map_eq_some_iff.mp hrest
    obtain ⟨hword, hmakes⟩ := mem_offers_iff.mp (List.mem_of_find?_eq_some hfind)
    refine ⟨hmakes ▸ hword, fun hempty => ?_⟩
    have hmore := List.find?_some hfind
    rw [hempty] at hmore
    cases hmore

end TolerantSyntax.Shell
