import TolerantSyntax.Parse
import TolerantSyntax.Proofs.Parse.Recovery

/-!
# Contextual keywords as names

Some keywords are reserved only inside queries. No rule knows them: a rule that meets one where it
could continue with an identifier gets stuck, and the standard strategy takes the keyword for an
identifier. So a name may be spelled like such a keyword wherever a rule asks for it. It may not
where a rule looks further ahead for an identifier, since what is looked at is only the kind.
-/

namespace TolerantSyntax

namespace Strategy

/-- The standard answer at a contextual keyword, if an identifier could stand there. -/
theorem answer_of_isContextualKeyword {request : Request} {view : View}
    (hk : view.current.isContextualKeyword = true) (ha : request.accepts .identifier = true) :
    answer request view = .keep .identifier := by
  have hne : view.current ≠ .eof := by
    rintro heq
    rw [heq] at hk
    cases hk
  rw [answer, if_neg hne, if_pos (by rw [hk, ha]; rfl)]

end Strategy

namespace ParseM

variable {env : Env} {p : Parser}

/-- The rule is told to take the keyword for an identifier, and the parse stands where it stood. -/
theorem decide_of_isContextualKeyword {request : Request} (hs : env.strategy = .standard)
    (hw : (Rule.request request).WellFormed) (hv : p.Valid)
    (hk : p.ahead.isContextualKeyword = true) (ha : request.accepts .identifier = true) :
    ∃ q, decide request env p = some (.keep .identifier, q) ∧ Same p q := by
  obtain ⟨decision, q, hrun, hsame, -⟩ := decide_eq hw env hv
  obtain ⟨current, p₁, hcurrent, hrest⟩ := bind_eq_some_iff.mp hrun
  obtain ⟨_, _, hcurrent', -, rfl⟩ := looks_nextKind.look env hv
  cases hcurrent.symm.trans hcurrent'
  obtain ⟨next, p₂, _, hrest⟩ := bind_eq_some_iff.mp hrest
  cases hrest
  refine ⟨_, ?_, hsame⟩
  rw [hrun, hs]
  have hanswer : Strategy.standard p₂.consulted.length request
      { current := p.ahead, next, contexts := p₂.contexts } = .keep .identifier :=
    Strategy.answer_of_isContextualKeyword hk ha
  rw [hanswer]
  rfl

theorem recover_of_isContextualKeyword {request : Request} (hs : env.strategy = .standard)
    (hw : (Rule.request request).WellFormed) (hv : p.Valid)
    (hk : p.ahead.isContextualKeyword = true) (ha : request.accepts .identifier = true) :
    ∃ q, recover request env p = some (.keep .identifier, q) ∧ Same p q := by
  obtain ⟨q, hdecide, hsame⟩ := decide_of_isContextualKeyword hs hw hv hk ha
  exact ⟨q, bind_of_eq_some hdecide, hsame⟩

/-- A rule that has got stuck at a contextual keyword is read again as if an identifier were
there. -/
theorem recoverAs_of_isContextualKeyword {rule : Rule} {request : Request}
    {whenMissing : Node → ParseM Node} (hs : env.strategy = .standard)
    (hw : (Rule.request request).WellFormed) (hv : p.Valid)
    (hk : p.ahead.isContextualKeyword = true) (ha : request.accepts .identifier = true) :
    ∃ q, Same p q ∧
      recoverAs rule request whenMissing env p = parseAs rule .identifier env q := by
  obtain ⟨q, hrecover, hsame⟩ := recover_of_isContextualKeyword hs hw hv hk ha
  exact ⟨q, hsame, bind_of_eq_some hrecover⟩

theorem kind_next_front (hv : p.Valid) : (p.front.next p.reader.mode).kind = p.ahead := by
  rw [Front.next, Parser.scanner_front hv, Parser.ahead]

/-- The next token is consumed under some kind. -/
theorem exists_consumeAs (hv : p.Valid) (kind : Kind) :
    ∃ q, consumeAs kind env p = some (p.front.leaf p.reader.mode kind, q) ∧
      q.contexts = p.contexts ∧ q.front = p.front.shift p.reader.mode := by
  obtain ⟨q, hconsume, -, hcontexts, -, hfront, -⟩ := exists_consume hv env
  exact ⟨q, bind_of_eq_some hconsume, hcontexts, hfront⟩

/-- The next token is consumed as what it is. -/
theorem exists_consumeNode (hv : p.Valid) :
    ∃ q, consumeNode env p = some (p.front.leaf p.reader.mode p.ahead, q) ∧
      q.contexts = p.contexts ∧ q.front = p.front.shift p.reader.mode := by
  obtain ⟨q, hconsume, -, hcontexts, -, hfront, -⟩ := exists_consume hv env
  refine ⟨q, ?_, hcontexts, hfront⟩
  rw [consumeNode, bind_of_eq_some hconsume, Front.leaf, ← kind_next_front hv]
  exact congrArg (fun token => some (Node.leaf token, q)) (withKind_kind _).symm

/-- **Where an identifier is expected, a contextual keyword is one**: whichever of them is ahead, it
is consumed as an identifier, and nothing else is. -/
theorem expect_identifier (hs : env.strategy = .standard) (hv : p.Valid)
    (hk : p.ahead = .identifier ∨ p.ahead.isContextualKeyword = true) (context : Context) :
    ∃ q, expect .identifier context env p =
        some (p.front.leaf p.reader.mode .identifier, q) ∧
      q.contexts = p.contexts ∧ q.front = p.front.shift p.reader.mode := by
  obtain ⟨kind, p₁, hnext, hsame, rfl⟩ := looks_nextKind.look env hv
  have hmode {q : Parser} (h : Same p q) : q.reader.mode = p.reader.mode :=
    congrArg (fun modes : List LexerMode => modes.head?.getD .code) h.modes
  rw [expect, bind_of_eq_some hnext, expectAs]
  split
  · next heq =>
    obtain ⟨q, hconsume, hcontexts, hfront⟩ := @exists_consumeNode env p₁ hsame.valid
    rw [hsame.ahead, beq_iff_eq.mp heq, hsame.front, hmode hsame] at hconsume
    exact ⟨q, hconsume, hcontexts.trans hsame.contexts, by rw [hfront, hsame.front, hmode hsame]⟩
  · next hne =>
    have hk := hk.resolve_left fun heq => hne (beq_iff_eq.mpr heq)
    rw [← hsame.ahead] at hk
    obtain ⟨p₂, hrecover, hsame'⟩ := @recover_of_isContextualKeyword env p₁
      (.token context .identifier) hs trivial hsame.valid hk rfl
    have hsame := hsame.trans hsame'
    obtain ⟨q, hconsume, hcontexts, hfront⟩ := @exists_consumeAs env p₂ hsame.valid .identifier
    rw [hsame.front, hmode hsame] at hconsume
    refine ⟨q, (bind_of_eq_some hrecover).trans hconsume, hcontexts.trans hsame.contexts, ?_⟩
    rw [hfront, hsame.front, hmode hsame]

end ParseM

/-- It is not one where a rule depends on an identifier further ahead: that a statement declares a
variable is told by the name behind the type, and a keyword there is discarded. -/
example :
    ["T lemon = 1;", "T limit = 1;"].map (fun source => (parseFragment source .statement).map
        fun tree => (tree.kind, tree.diagnostics.map (·.code))) =
      [some (.localVariableDeclaration, []),
        some (.assignmentStatement, [.invalidToken .limitKeyword])] := by
  decide +kernel

end TolerantSyntax
