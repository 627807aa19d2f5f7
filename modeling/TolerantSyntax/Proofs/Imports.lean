import TolerantSyntax.Proofs.Adjacency
import TolerantSyntax.Proofs.Import.Reading
import TolerantSyntax.Proofs.Scope

/-!
# Imports in front of a source

Between `import` and the semicolon every word but `as` is a name, and nowhere else: an import in
front of a source is read as its path says, and what is behind it is read as it would be by itself.
The parse of the rest begins with more tokens consumed and further on in its source, so it is
compared with a parse of the rest alone, which keeps in step with it.
-/

namespace TolerantSyntax

open Node (Twins)

/-! ## Scans of the same characters -/

namespace Scanner

variable {s t : Scanner}

/-- The next tokens differ in their places at most, and the same is ahead behind them. -/
structure SameNext (s t : Scanner) : Prop where
  spelling : s.next.1.spelling = t.next.1.spelling
  leading : s.next.1.leading = t.next.1.leading
  trailing : s.next.1.trailing = t.next.1.trailing
  rest : s.next.2.rest = t.next.2.rest
  mode : s.next.2.mode = t.next.2.mode

/-- Where in its source a scanner is does not matter to what it finds. -/
theorem sameNext_of_rest (hrest : s.rest = t.rest) (hmode : s.mode = t.mode) : SameNext s t := by
  have hsame : s.next.2.mode = t.next.2.mode := by
    rw [(isStep_next s).same.2, (isStep_next t).same.2, hmode]
  constructor
  case mode => exact hsame
  all_goals
    cases hleading : (Trivia.leading t.rest).2 <;>
      simp [next, hrest, hmode, hleading, Token.spelling, Token.ofText, Function.comp_def]

/-- Tokens in a row touch if there is no trivia between them. -/
theorem touches_next (scanner : Scanner) :
    scanner.next.1.touches scanner.next.2.next.1 =
      (scanner.next.1.trailing.isEmpty && scanner.next.2.next.1.leading.isEmpty) := by
  cases htrailing : scanner.next.1.trailing with
  | cons => simp [Token.touches, htrailing]
  | nil =>
    cases hleading : scanner.next.2.next.1.leading with
    | cons => simp [Token.touches, hleading]
    | nil =>
      have habuts := abuts_next scanner
      rw [Token.Abuts, Token.fullStop, htrailing, Token.leadingWidth, hleading] at habuts
      simp [Token.touches, htrailing, hleading, habuts, Trivia.widths]

/-- Scanners with the same characters ahead are alike, wherever these are in their sources. -/
theorem alike_of_rest (hrest : s.rest = t.rest) (hmode : s.mode = t.mode) : s.Alike t := by
  constructor
  · intro ahead
    induction ahead generalizing s t with
    | zero => exact bare_eq_of_spelling (sameNext_of_rest hrest hmode).spelling
    | succ ahead ih =>
      have hsame := sameNext_of_rest hrest hmode
      exact ih hsame.rest hsame.mode
  · intro ahead hne
    induction ahead generalizing s t with
    | zero =>
      have hsame := sameNext_of_rest hrest hmode
      have hsecond := sameNext_of_rest hsame.rest hsame.mode
      show s.next.1.touches s.next.2.next.1 = t.next.1.touches t.next.2.next.1
      rw [touches_next, touches_next, hsame.trailing, hsecond.leading]
    | succ ahead ih =>
      have hsame := sameNext_of_rest hrest hmode
      exact ih hsame.rest hsame.mode hne

end Scanner

namespace ParseM

/-! ## The first import -/

variable {behind : List Char} {path : ImportPath}

/-- An import is the first thing that is read of a source. -/
theorem readsOff_membersTurn :
    ReadsOff [] behind (membersTurn ([], [])) path.words [] fun r =>
      ∃ declaration, r = .inl ([declaration], []) ∧ declaration.Renders path.node := by
  refine (readsOff_kindAt rfl).bind fun kind hkind => ?_
  obtain rfl : kind = .importKeyword := hkind
  have hmember : ReadsOff [] behind unitMember path.words [] fun part =>
      ∃ declaration, part = some declaration ∧ declaration.Renders path.node := by
    refine readsOff_isNext.bind fun isImport himport => ?_
    rw [show isImport = true from himport, if_pos rfl, map_eq_pure_bind]
    exact readsOff_importDeclaration.map fun declaration h => ⟨declaration, rfl, h⟩
  refine hmember.bind fun part hpart => ?_
  obtain ⟨declaration, rfl, hdeclaration⟩ := hpart
  exact readsOff_pure ⟨declaration, rfl, hdeclaration⟩

instance restores_membersTurn {depth : Nat} (nodes : List Node × List Node) :
    Restores depth (membersTurn nodes) := by
  refine .behind fun kind => ?_
  split
  · infer_instance
  · refine .behind fun member? => ?_
    cases member? <;> infer_instance

/-- What is behind an import is read by the turns that follow, with the same in force. -/
theorem unitMembers_import {fuel : Nat} {p after : Parser} {r : List Node × List Node}
    (hp : p.Offers [] behind path.words)
    (hrun : unitMembers (.ofFuel .standard fuel) p = some (r, after)) :
    ∃ declaration q turns, declaration.Renders path.node ∧ q.Offers [] behind [] ∧
      q.contexts = p.contexts ∧
      repeatUpTo membersTurn turns ([declaration], []) (.ofFuel .standard fuel) q =
        some (r, after) := by
  rw [unitMembers_eq] at hrun
  change repeatUpTo membersTurn (Env.ofFuel .standard fuel).fuel ([], []) _ p = _ at hrun
  cases hturns : (Env.ofFuel .standard fuel).fuel with
  | zero =>
    rw [hturns] at hrun
    cases hrun
  | succ turns =>
    rw [hturns] at hrun
    obtain ⟨first, q, hfirst, hrun⟩ := bind_eq_some_iff.mp hrun
    obtain ⟨⟨declaration, rfl, hdeclaration⟩, hq⟩ := readsOff_membersTurn _ p q first hp hfirst
    have hkept : Parser.Restored 0 p q :=
      (restores_membersTurn _).run (Env.restores_ofFuel _ _) hfirst
    exact ⟨declaration, q, turns, hdeclaration, hq, hkept.contexts, hrun⟩

/-- A parse of a whole source reads its imports and its declarations within one context. -/
theorem exists_unitMembers (source : String) :
    ∃ imports members eof after,
      parseFragment source .compilationUnit =
        some (.of .modulePart [.list imports, .list members, eof]) ∧
      unitMembers (.ofFuel .standard (Parser.ofSource source).fuel)
        { Parser.ofSource source with contexts := [.compilationUnit] } =
          some ((imports, members), after) := by
  have hreturns := Parser.isSome_parseFragment Strategy.admissible_standard source .compilationUnit
  obtain ⟨⟨tree, last⟩, hrun⟩ := Option.isSome_iff_exists.mp hreturns
  obtain ⟨_, hinner, -⟩ := within_eq_some_iff.mp hrun
  obtain ⟨⟨imports, members⟩, after, hmembers, hinner⟩ := bind_eq_some_iff.mp hinner
  obtain ⟨eof, _, -, hinner⟩ := bind_eq_some_iff.mp hinner
  cases hinner
  exact ⟨imports, members, eof, after, Option.map_eq_some_iff.mpr ⟨_, hrun, rfl⟩, hmembers⟩

end ParseM

/-! ## Imports in front -/

/-- Where an import has been read of a source, what is behind it is ahead as in a source of its
own. -/
theorem Parser.Offers.alike {q : Parser} {rest : String} (h : q.Offers [] rest.toList [])
    (hcontexts : q.contexts = [.compilationUnit]) :
    q.Alike q.reader.consumed { Parser.ofSource rest with contexts := [.compilationUnit] } where
  left := h.valid
  right := valid_ofSource rest
  scan := by
    refine Scanner.alike_of_rest (h.scan.trans ?_) rfl
    exact congrArg Scanner.rest (TokenReader.isAt_ofSource rest).place_eq.symm
  modes := h.modes
  looked := Nat.le_zero.mp h.looked
  consumed := (Nat.zero_add _).symm
  contexts := hcontexts
  pending := by rw [h.pending]; rfl
  tidy := by
    rw [h.pending]
    exact (Parser.alike_ofSource (.refl (.ofSource rest))).tidy

/-- A parse of a source that begins with an import has its words ahead. -/
theorem ImportPath.offers_ofSource (path : ImportPath) (rest : String) (contexts : ContextStack) :
    Parser.Offers
      { Parser.ofSource ("import " ++ String.ofList path.text ++ ";\n" ++ rest) with contexts }
      [] rest.toList path.words := by
  refine ⟨Parser.valid_ofSource _, rfl, ?_, Nat.zero_le _, rfl⟩
  refine (path.written_words rest.toList).offers _ rfl ?_
  refine (congrArg Scanner.rest (TokenReader.isAt_ofSource _).place_eq).trans ?_
  simp [Scanner.ofSource]

/-- **An import in front of a source** is read as its path says, whatever words are in it, and the
source behind it as by itself: the mode in which the words of a path are names ends with the path,
and nothing of what is behind the semicolon was read in it. -/
theorem parse_import (path : ImportPath) (rest : String) :
    ∃ declaration imports members eof imports' members' eof',
      parse ("import " ++ String.ofList path.text ++ ";\n" ++ rest) =
        some (.of .modulePart [.list (declaration :: imports), .list members, eof]) ∧
      parse rest = some (.of .modulePart [.list imports', .list members', eof']) ∧
      declaration.isIsomorphic path.node = true ∧ declaration.diagnostics = [] ∧
      List.Forall₂ (fun node node' => node.isIsomorphic node' = true) imports imports' ∧
      List.Forall₂ (fun node node' => node.isIsomorphic node' = true) members members' := by
  obtain ⟨all, members, eof, after, hparse, hrun⟩ :=
    ParseM.exists_unitMembers ("import " ++ String.ofList path.text ++ ";\n" ++ rest)
  obtain ⟨imports', members', eof', after', hparse', hrun'⟩ := ParseM.exists_unitMembers rest
  obtain ⟨declaration, q, turns, hdeclaration, hq, hcontexts, hrun⟩ :=
    ParseM.unitMembers_import (path.offers_ofSource rest _) hrun
  have hbegun : ParseM.MembersTwin [declaration] ([declaration], []) ([], []) :=
    ⟨⟨[], rfl, .nil⟩, .nil⟩
  obtain ⟨⟨⟨imports, rfl, himports⟩, hmembers⟩, -⟩ :=
    (ParseM.InStep.repeatUpTo (fun _ _ h => ParseM.inStep_membersTurn h) turns _ hbegun).run
      (Env.alike_ofFuel _ _) (hq.alike hcontexts) hrun hrun'
  have hiso {node node' : Node} (h : node.Twin node') : node.isIsomorphic node' = true :=
    Node.isIsomorphic_of_bare_eq h.bare
  exact ⟨declaration, imports, members, eof, imports', members', eof', hparse, hparse',
    hdeclaration.isIsomorphic, hdeclaration.diagnostics_eq_nil, himports.imp fun _ _ => hiso,
    hmembers.imp fun _ _ => hiso⟩

end TolerantSyntax
