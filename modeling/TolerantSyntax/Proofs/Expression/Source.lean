import TolerantSyntax.Proofs.Expression.Reading
import TolerantSyntax.Proofs.Termination

/-!
# Sources that are words

A source spells a row of words if its tokens are these words, whatever blank space and comments
stand around them. A parse of such a source faces the words, so what a step of the grammar gives of
them is what an entry point returns: here `Gives`, which speaks of the parses that have a result,
meets the fact that a parse of a whole source has one.
-/

namespace TolerantSyntax

/-! ## Spelling -/

/-- The tokens ahead are the words and then the end of input, and nothing is wrong with them. -/
def Scanner.Yields (scanner : Scanner) (words : List Word) : Prop :=
  scanner.tokens.map (fun token => (token.kind, token.text, token.diagnostics)) =
    words.map (fun word => (word.kind, String.ofList word.text, [])) ++ [(.eof, "", [])]

/-- The tokens of the source are the words and then the end of input, and nothing is wrong with
them. -/
def Word.Spells (source : String) (words : List Word) : Prop :=
  (Scanner.ofSource source).Yields words

instance (source : String) (words : List Word) : Decidable (Word.Spells source words) :=
  inferInstanceAs (Decidable (_ = _))

namespace Scanner

variable {kinds : List Kind} {scanner : Scanner} {word : Word} {words : List Word}

/-- A scanner that yields words that do not touch faces the words. -/
theorem Yields.faces (h : scanner.Yields words) (hend : .eof ∉ kinds)
    (hloose : ∀ word ∈ words, word.kind ∈ kinds ∧ word.tight = false) :
    scanner.FacesAmong kinds words := by
  unfold Yields at h
  induction words generalizing scanner with
  | nil =>
    have hhead := congrArg List.head? h
    rw [List.head?_map, head?_tokens] at hhead
    exact congrArg (·.1) (Option.some.inj hhead)
  | cons word rest ih =>
    obtain ⟨⟨hmem, htight⟩, hothers⟩ := List.forall_mem_cons.mp hloose
    have hhead := congrArg List.head? h
    rw [List.head?_map, head?_tokens] at hhead
    obtain ⟨hkind, hrest⟩ := Prod.mk.inj (Option.some.inj hhead)
    obtain ⟨htext, hclean⟩ := Prod.mk.inj hrest
    have hword : word.kind ≠ .eof := fun heof => hend (heof ▸ hmem)
    have hne : scanner.next.1.kind ≠ .eof := hkind ▸ hword
    rw [tokens_of_ne_eof hne] at h
    refine ⟨⟨hmem, hword⟩, isToken_next hkind htext hclean, fun ht => ?_,
      ih (List.cons.inj h).2 hothers⟩
    exact absurd (htight.symm.trans ht) Bool.false_ne_true

theorem yields_nil (h : scanner.rest = []) : scanner.Yields [] := by
  have hnil : (Trivia.leading scanner.rest).2 = [] := by
    rw [h, Trivia.leading_of_piece?_eq_none rfl]
  rw [Yields, tokens_of_eof ((isStep_next scanner).kind_eq_eof_iff.mpr hnil), next_of_nil hnil]
  rfl

theorem Yields.cons (h : scanner.next.2.Yields words) (hword : word.kind ≠ .eof)
    (htoken : word.IsToken scanner.next.1) : scanner.Yields (word :: words) := by
  have hne : scanner.next.1.kind ≠ .eof := htoken.kind ▸ hword
  have hclean : scanner.next.1.diagnostics = [] := by
    have hcollect := htoken.clean
    rw [Token.collect_eq, List.append_eq_nil_iff, List.append_eq_nil_iff] at hcollect
    exact hcollect.1.1
  rw [Yields, tokens_of_ne_eof hne, List.map_cons, List.map_cons, List.cons_append, h,
    htoken.kind, htoken.text, hclean]

end Scanner

/-! ## Entry points -/

namespace ParseM

variable {kinds : List Kind} {total bound : Nat} {m : ParseM Node} {words rest : List Word}
  {good : Node → Prop} {node tree : Node} {source : String}

/-- What a rule reads has a token. -/
theorem GivesAmong.hasToken (hm : GivesAmong kinds total m words rest good)
    (h : Reads bound [] m .node) :
    GivesAmong kinds total m words rest fun node => good node ∧ node.HasToken := by
  intro strategy fuel p q node hp hrun
  obtain ⟨hgood, hq⟩ := hm strategy fuel p q node hp hrun
  exact ⟨⟨hgood, (h.leads (Env.sound_ofFuel strategy fuel) hp.valid hrun).2⟩, hq⟩

/-- With nothing left of the source, the node of a fragment is what was read. -/
theorem gives_finishFragment (h : node.Renders tree) (ht : node.HasToken) :
    GivesAmong kinds total (finishFragment node) [] [] (Node.Renders · tree) := by
  have hend : GivesAmong kinds total
      (loop () fun _ => do
        if ← isNext .eof then return .inr ()
        else
          discard
          return .inl ())
      [] [] fun _ => True := by
    refine gives_loop (gives_lastTurn ((gives_isNext _).bind fun ended hended => ?_))
    subst hended
    exact gives_pure ⟨(), rfl, trivial⟩
  exact hend.bind fun _ _ => gives_consume_nil.map fun eof hclean => h.withTrailing ht hclean

/-- A source that spells words is faced by its parse. -/
theorem faces_ofSource (h : (Scanner.ofSource source).FacesAmong kinds words) :
    (Parser.ofSource source).FacesAmong kinds words.length words :=
  ⟨(TokenReader.isAt_ofSource _).toValid, h, rfl, Nat.zero_add _⟩

/-- A fragment is parsed to what it gives. -/
theorem parseFragment_of_gives {kind : FragmentKind}
    (h : (Scanner.ofSource source).FacesAmong kinds words)
    (hm : GivesAmong kinds words.length (fragment kind) words rest good) :
    ∃ node, parseFragment source kind = some node ∧ good node := by
  obtain ⟨⟨node, parser⟩, hrun⟩ := Option.isSome_iff_exists.mp
    (Parser.isSome_parseFragment Strategy.admissible_standard source kind)
  exact ⟨node, Option.map_eq_some_iff.mpr ⟨(node, parser), hrun, rfl⟩,
    (hm _ _ _ _ _ (faces_ofSource h) hrun).1⟩

/-- An expression that is read up to the end of its source is what the source is parsed to. -/
theorem exists_parseExpression (h : (Scanner.ofSource source).FacesAmong kinds words)
    (hm : GivesAmong kinds words.length valueOrAction words [] (Node.Renders · tree)) :
    ∃ node, parseFragment source .expression = some node ∧ node.Renders tree := by
  have hfragment : GivesAmong kinds words.length (fragment .expression) words []
      (Node.Renders · tree) :=
    (hm.hasToken reads_valueOrAction).bind fun node hnode => gives_finishFragment hnode.1 hnode.2
  exact parseFragment_of_gives h hfragment

/-- A rule that is resumed returns what it gives. -/
theorem resume_of_gives {request : Request} (hw : (Rule.request request).WellFormed)
    (h : (Scanner.ofSource source).FacesAmong kinds words)
    (hm : GivesAmong kinds words.length (resume request) words rest good) :
    ∃ node after, (Parser.ofSource source).resume .standard request = some (node, after) ∧
      good node := by
  have hv : (Parser.ofSource source).Valid := Parser.valid_ofSource source
  have hreads : Reads Rule.maxRank (Rule.request request).given (resume request) .node :=
    reads_resume hw (Rule.rank_lt_maxRank _) rfl
  obtain ⟨⟨node, after⟩, hrun⟩ := Option.isSome_iff_exists.mp
    (hreads.returns (Env.sound_ofFuel _ _) hv trivial
      (Parser.returns_fuel Strategy.admissible_standard hv))
  exact ⟨node, after, hrun, (hm _ _ _ _ _ (faces_ofSource h) hrun).1⟩

end ParseM

end TolerantSyntax
