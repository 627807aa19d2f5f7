import TolerantSyntax.Parse
import TolerantSyntax.Proofs.Parse.Fragment

/-!
# No text is lost

At every moment of a parse the pieces read so far, the discarded text that waits and what is ahead
are the source. Only the rest descriptor of a record type drops pieces, and where that has happened
the tree shows it. The same holds of a rule that is resumed, with the pieces that it is given before
what it reads.
-/

namespace TolerantSyntax

namespace Front

open Node

/-- The text of a parse: of its pieces, of what waits for a token, and of what is ahead. -/
def text (front : Front) (row : Row) : String :=
  slotsSource row ++ (Trivia.sources front.pending ++ String.ofList front.rest)

theorem slotsSource_leaf (token : Token) : slotsSource [some (.leaf token)] = token.source := by
  rw [slotsSource, slotsSource, String.append_empty, Node.source]

/-- A token goes from what is ahead to what has been read. -/
theorem source_next (front : Front) (mode : LexerMode) :
    (front.next mode).source ++ String.ofList (front.scanner mode).next.2.rest =
      String.ofList front.rest :=
  (Scanner.isStep_next (front.scanner mode)).source

theorem source_leaf (front : Front) (mode : LexerMode) (kind : Kind) :
    (front.leaf mode kind).source = Trivia.sources front.pending ++ (front.next mode).source := by
  simp only [leaf, Node.source, Token.source_eq, Token.withKind, Token.withLeading,
    Trivia.sources_append, String.append_assoc]

theorem text_shift (front : Front) (row : Row) (mode : LexerMode) (kind : Kind) :
    (front.shift mode).text (row ++ [some (front.leaf mode kind)]) = front.text row := by
  rw [text, text, slotsSource_append, ← front.source_next mode, String.append_assoc]
  congr 1
  rw [slotsSource, slotsSource, String.append_empty, source_leaf, String.append_assoc]
  rfl

theorem text_discard (front : Front) (row : Row) (mode : LexerMode) :
    (front.discard mode).text row = front.text row := by
  have hpending : Trivia.sources (front.discard mode).pending =
      Trivia.sources front.pending ++ (front.next mode).source := by
    have h := slotsSource_withDiagnostic (.leaf (front.next mode))
      (.invalidToken (front.next mode).kind)
    rw [slotsSource_leaf, slotsSource, slotsSource, String.append_empty] at h
    rw [discard, advance, Trivia.sources_append, Trivia.sources, Trivia.sources,
      String.append_empty, Node.setAside, Trivia.source, h]
  rw [text, text, hpending, ← front.source_next mode, String.append_assoc]
  rfl

theorem text_insert (front : Front) (row : Row) (kind : Kind) (code : DiagnosticCode) :
    front.text (row ++ [some (.missing kind front.lastEnd code)]) = front.text row := by
  have hmissing : slotsSource [some (.missing kind front.lastEnd code)] = "" := by
    rw [Node.missing, slotsSource_leaf, Token.source_eq]
    simp [Token.absent, Trivia.sources]
  rw [text, text, slotsSource_append, hmissing, String.append_empty]

/-- A run keeps the text, unless the rest descriptor of a record type is in what it made. -/
theorem Steps.text_eq {f g : Front} {xs ys : Row} (h : Steps f xs g ys)
    (hrest : slotsContain .recordRestDescriptor ys = false) : g.text ys = f.text xs := by
  induction h with
  | refl => rfl
  | @shift front row _ mode kind ih =>
    rw [slotsContain_append, Bool.or_eq_false_iff] at hrest
    rw [text_shift, ih hrest.1]
  | discard _ mode _ ih => rw [text_discard, ih hrest]
  | @insert front row _ kind code ih =>
    rw [slotsContain_append, Bool.or_eq_false_iff] at hrest
    rw [text_insert, ih hrest.1]
  | become _ hb ih =>
    -- had a rest descriptor been made on the way, it would still be there
    rcases hb.source with hc | ⟨hs, hc⟩
    · exact absurd (hc.symm.trans hrest) (by decide)
    · rw [text, hs]
      exact ih (hc ▸ hrest)

/-- What is left is the end of what was ahead. -/
theorem Steps.exists_rest_eq_append {f g : Front} {xs ys : Row} (h : Steps f xs g ys) :
    ∃ consumed, f.rest = consumed ++ g.rest := by
  have hadvance (front : Front) (mode : LexerMode) (pending : List Trivia) (lastEnd : Nat) :
      front.rest =
        (front.next mode).source.toList ++ (front.advance mode pending lastEnd).rest := by
    have hsource := congrArg String.toList (front.source_next mode)
    rw [String.toList_append, String.toList_ofList, String.toList_ofList] at hsource
    exact hsource.symm
  induction h with
  | refl => exact ⟨[], rfl⟩
  | shift _ mode kind ih =>
    obtain ⟨consumed, heq⟩ := ih
    exact ⟨consumed ++ _, by rw [heq, List.append_assoc, Front.shift, ← hadvance]⟩
  | discard _ mode _ ih =>
    obtain ⟨consumed, heq⟩ := ih
    exact ⟨consumed ++ _, by rw [heq, List.append_assoc, Front.discard, ← hadvance]⟩
  | insert _ kind code ih => exact ih
  | become _ _ ih => exact ih

end Front

/-! ## Whole parses -/

/-- **A tree keeps its source.** Whatever the strategy answers and however much fuel there is, the
text of the tree of a fragment is the source, character for character, unless a rest descriptor of a
record type is in it. -/
theorem source_of_fragment {strategy : Strategy} {fuel : Nat} {kind : FragmentKind}
    {source : String} {tree : Node} {after : Parser}
    (hrun : ParseM.fragment kind (.ofFuel strategy fuel) (.ofSource source) = some (tree, after))
    (hrest : tree.contains .recordRestDescriptor = false) : tree.source = source := by
  obtain ⟨hl, hdone⟩ := (ParseM.finishes_fragment kind).leads (Env.sound_ofFuel strategy fuel)
    (Parser.valid_ofSource source) hrun
  have h := hl.steps.text_eq (by simpa [Node.slotsContain] using hrest)
  rw [Front.text, Front.text, hdone.rest, hdone.pending, Parser.front_ofSource] at h
  simpa [Node.slotsSource, Trivia.sources] using h

/-- A parse that discards all that it gets stuck at. -/
theorem source_of_fragment_removing :
    ∃ tree after, ParseM.fragment .expression (.ofFuel (fun _ _ _ => .remove) 60)
      (.ofSource ") a") = some (tree, after) ∧ tree.source = ") a" := by
  have hsome : ((ParseM.fragment .expression (.ofFuel (fun _ _ _ => .remove) 60)
      (.ofSource ") a")).map fun r => r.1.contains .recordRestDescriptor) = some false := by
    decide +kernel
  obtain ⟨⟨tree, after⟩, hrun, hrest⟩ := Option.map_eq_some_iff.mp hsome
  exact ⟨tree, after, hrun, source_of_fragment hrun hrest⟩

/-! ## Resumed rules -/

/-- **A rule that is resumed keeps the pieces that it is given.** Their text, and behind it that of
what is read, is the text of the node, and behind it that of what was discarded last. So much is not
claimed where a rest descriptor of a record type is made, and the pieces have to be of the form that
the rule expects: a variable of a block keeps one qualifier, and a clause is put behind those that
the list of a pipeline has. -/
theorem source_of_resume {strategy : Strategy} {fuel : Nat} {request : Request}
    {parser after : Parser} {node : Node} (hv : parser.Valid) (hpending : parser.pending = [])
    (hw : (Rule.request request).WellFormed)
    (hrun : ParseM.resume request (.ofFuel strategy fuel) parser = some (node, after))
    (hrest : node.contains .recordRestDescriptor = false) :
    ∃ consumed, parser.front.rest = consumed ++ after.front.rest ∧
      Node.slotsSource (Rule.request request).given ++ String.ofList consumed =
        node.source ++ Trivia.sources after.pending := by
  have hreads : ParseM.Reads Rule.maxRank (Rule.request request).given (ParseM.resume request)
      .node := ParseM.reads_resume hw (Rule.rank_lt_maxRank _) rfl
  obtain ⟨hl, -⟩ := hreads.leads (Env.sound_ofFuel strategy fuel) hv hrun
  obtain ⟨consumed, hconsumed⟩ := hl.steps.exists_rest_eq_append
  refine ⟨consumed, hconsumed, ?_⟩
  -- what is ahead at the end stands on both sides and is cancelled
  have htext := hl.steps.text_eq (by simpa [Yield.node, Node.slotsContain] using hrest)
  rw [Front.text, Front.text, hconsumed, show parser.front.pending = [] from hpending,
    Trivia.sources, String.empty_append, String.ofList_append, ← String.append_assoc,
    ← String.append_assoc, String.append_left_inj] at htext
  rw [← htext, Yield.node, Node.slotsSource, Node.slotsSource, String.append_empty]
  rfl

/-- An assignment that goes on from a name, and discards a token on the way. -/
theorem source_of_resume_assignment :
    ∃ node after, ParseM.resume
        (.statementRhs none (ParseM.simpleName (.leaf (.ofText .identifier "x" 0 [] []))))
        (.ofFuel .standard 60) (.ofSource "= ) y; z") = some (node, after) ∧
      node.kind = .assignmentStatement ∧
      ∃ consumed, "= ) y; z".toList = consumed ++ after.front.rest ∧
        "x" ++ String.ofList consumed = node.source ++ Trivia.sources after.pending := by
  have hsome : ((ParseM.resume
      (.statementRhs none (ParseM.simpleName (.leaf (.ofText .identifier "x" 0 [] []))))
      (.ofFuel .standard 60) (.ofSource "= ) y; z")).map
        fun r => (r.1.kind, r.1.contains .recordRestDescriptor)) =
          some (.assignmentStatement, false) := by
    decide +kernel
  obtain ⟨⟨node, after⟩, hrun, hshape⟩ := Option.map_eq_some_iff.mp hsome
  rw [Prod.mk.injEq] at hshape
  obtain ⟨consumed, hrest, htext⟩ :=
    source_of_resume (Parser.valid_ofSource "= ) y; z") rfl (by trivial) hrun hshape.2
  exact ⟨node, after, hrun, hshape.1, consumed, hrest, htext⟩

/-- The end of the declaration of `x` in a block, behind the qualifier `final` twice. -/
def Request.doublyFinal : Request :=
  .variableRhs none
    [.leaf (.ofText .finalKeyword "final" 0 [] []), .leaf (.ofText .finalKeyword "final" 5 [] [])]
    (.leaf (.ofText .identifier "x" 10 [] [])) false

/-- A variable of a block keeps one qualifier only. -/
theorem not_source_of_resume :
    ¬∀ (strategy : Strategy) (fuel : Nat) (request : Request) (parser after : Parser) (node : Node),
      parser.Valid → parser.pending = [] →
      ParseM.resume request (.ofFuel strategy fuel) parser = some (node, after) →
      ∃ consumed, parser.front.rest = consumed ++ after.front.rest ∧
        Node.slotsSource (Rule.request request).given ++ String.ofList consumed =
          node.source ++ Trivia.sources after.pending := by
  intro hkeeps
  have hsome : ((ParseM.resume .doublyFinal (.ofFuel .standard 60) (.ofSource ";")).map
      fun r => (r.1.source, Trivia.sources r.2.pending, r.2.front.rest)) =
        some ("finalx;", "", []) := by
    decide +kernel
  obtain ⟨⟨node, after⟩, hrun, hshape⟩ := Option.map_eq_some_iff.mp hsome
  simp only [Prod.mk.injEq] at hshape
  obtain ⟨hsource, hpending, hrest⟩ := hshape
  obtain ⟨consumed, hconsumed, htext⟩ :=
    hkeeps .standard 60 .doublyFinal (.ofSource ";") after node (Parser.valid_ofSource ";") rfl hrun
  rw [hrest, List.append_nil] at hconsumed
  rw [hsource, hpending, ← hconsumed] at htext
  exact absurd htext (by decide +kernel)

end TolerantSyntax
