import TolerantSyntax.Grammar.Statement
import TolerantSyntax.Proofs.Parse.Action
import TolerantSyntax.Proofs.Parse.Assignment
import TolerantSyntax.Proofs.Parse.Bracketed.Resolve
import TolerantSyntax.Proofs.Parse.ControlFlow

/-!
# Statements

A statement with a keyword of its own begins with it. Any other may refer to an expression at once,
and so stands above the rules of expressions.
-/

namespace TolerantSyntax

namespace ParseM

open Bracketed

variable {start : Kind → Prop} {bound : Nat}

/-! ## Statements by their keyword -/

/-- Whatever a keyword begins, the keyword is consumed first. -/
theorem begins_keywordStatement? {kind : Kind} {statement : ParseM Node}
    (h : keywordStatement? kind = some statement) : Begins HasNext [] statement .node := by
  unfold keywordStatement? at h
  split at h <;> cases h
  · exact begins_ifStatement
  · exact begins_whileStatement
  · exact begins_foreachStatement
  · exact begins_matchStatement
  · exact begins_guardedBlock _ _ rfl
  · exact begins_guardedBlock _ _ rfl
  · exact begins_transaction
  · exact begins_retryStatement
  · exact begins_forkStatement
  · exact begins_valueStatement _ _ _ rfl
  · exact begins_valueStatement _ _ _ rfl
  · exact begins_valueStatement _ _ _ rfl
  · exact begins_valueStatement _ _ _ rfl
  · exact begins_keywordStatement _ _ rfl
  · exact begins_keywordStatement _ _ rfl

/-- Annotations before a statement that takes none. -/
theorem Meets.rejecting {m : ParseM Node} (annotations : Option Node)
    (h : Enters start bound [] m .node (fun _ => False)) :
    Enters start bound [annotations]
      (m >>= fun node => Pure.pure (rejectAnnotations node annotations)) .node
      (fun _ => False) := by
  refine Meets.bind h fun node hn => ?_
  obtain ⟨hrow, ht⟩ := becomes_rejectAnnotations hn annotations
  exact .pure hrow ht id

/-! ## Declarations -/

theorem accepts_localDeclaration (annotations : Option Node) :
    Accepts (fun k => Starts.type k = true) 4 [annotations] (localDeclaration annotations) .node :=
  Accepts.within (accepts_localVariable annotations [] (by decide))

theorem begins_finalDeclaration (annotations : Option Node) :
    Begins HasNext [annotations] (finalDeclaration annotations) .node :=
  Meets.within (begins_consumeNode.bind fun qualifier _ =>
    (accepts_localVariable annotations [qualifier] (Nat.le_refl 1)).reads.weaken)

/-- The pattern and the rest of a declaration follow its type. -/
theorem reads_localDeclarationAfter (annotations : Option Node) {type : Node} (ht : type.HasToken) :
    Reads 2 [annotations, some type] (localDeclarationAfter annotations type) .node := by
  refine Meets.within ((reads_typeAfter ht _).bindOn [annotations] rfl fun type ht => ?_)
  refine (reads_typedBindingAfter ht).bindOn [annotations] rfl fun binding _ => ?_
  exact reads_resume (fun _ => Nat.zero_le _) (Nat.le_refl _) rfl

/-! ## Expressions and patterns -/

/-- No annotations before what is assigned to. -/
theorem becomes_unannotated (lhs : Node) : Row.Becomes [some lhs] [none, some lhs] :=
  Row.Becomes.gap.append_right [some lhs]

theorem accepts_destructuring :
    Accepts (fun k => Starts.bindingPattern k = true) 6 [] destructuring .node :=
  accepts_bindingPattern.bind fun pattern _ =>
    Meets.before (becomes_unannotated pattern) (reads_statementRhs none pattern)

/-- What is assigned to a pattern, behind the `=` that has been seen to come. -/
theorem reads_parseAs_equal (pattern : Node) :
    Reads 6 [some pattern] (parseAs (.request (.statementRhs none pattern)) .equal) .node := by
  refine Meets.before (becomes_unannotated pattern) ?_
  have hb : 2 * (Rule.request (.statementRhs none pattern)).level + 1 < 6 := by simp [Rule.level]
  exact meets_parseAs trivial (fun _ _ => Or.inr (Or.inr ⟨_, _, rfl, rfl⟩))
    (Nat.lt_of_le_of_lt (Rule.rank_le _ _) hb) rfl

/-- A pattern and a block both begin with the brace; which of them it is, is told by looking. -/
theorem meets_mappingOrBlock :
    Enters (· = .openBrace) 6 [] mappingOrBlock .node (fun _ => False) := by
  refine looks_upcoming.meets fun kinds => ?_
  split
  · exact reads_bindingPattern.bind fun pattern _ => (reads_parseAs_equal pattern).weaken
  · exact opens_block.begins.weaken (by simp +contextual)

theorem heeds_mappingOrBlock : Heeds (fun k _ => k = .openBrace) mappingOrBlock := by
  refine looks_upcoming.heeds fun kinds => ?_
  split
  · have h := accepts_bindingPattern.heeds.bind reads_bindingPattern fun pattern _ =>
      (reads_parseAs_equal pattern).weaken
    exact h.mono fun _ _ hk => by rw [hk.1]; rfl
  · exact opens_block.begins.heedsWhere fun _ _ h _ => h.1

/-- The rest of a statement behind `start` and what is called. -/
theorem reads_startStatementAfter {action : Node} (ha : action.HasToken) :
    Reads 6 [some action]
      (do statementRhs none (← operatorsAfter .default action .statementStart)) .node :=
  (reads_operatorsAfter ha _ _).bindOn [] rfl fun whole _ =>
    Meets.before (becomes_unannotated whole) (reads_statementRhs none whole)

/-- The rest of a statement behind an expression. -/
theorem reads_expressionStatementAfter (annotations : Option Node) (expression : Node) :
    Reads 6 [annotations, some expression]
      (do return rejectAnnotations (← statementRhs none expression) annotations) .node := by
  refine Meets.before ((becomes_unannotated expression).append_left [annotations]) ?_
  refine (reads_statementRhs none expression).bindOn [annotations] rfl fun statement hs => ?_
  obtain ⟨hrow, ht⟩ := becomes_rejectAnnotations hs annotations
  exact Meets.pure hrow ht id

theorem accepts_expressionStatement (annotations : Option Node) :
    Accepts (fun k => Starts.expression k = true) 6 [annotations]
      (expressionStatement annotations) .node := by
  have hstart := opens_startActionAfter annotations .statementStart
  have hother := accepts_expression .default .statementStart
  constructor
  · refine (looks_isNext .startKeyword).meets fun isStart => ?_
    split
    · exact hstart.reads.bindOn [] rfl fun action ha => (reads_startStatementAfter ha).weaken
    · exact hother.reads.bind fun expression _ =>
        (reads_expressionStatementAfter annotations expression).weaken
  · refine (looks_isNext .startKeyword).heeds fun isStart => ?_
    split
    · next hs =>
      refine Heeds.bindOn [] (hstart.begins.heedsWhere fun k _ h _ => ?_) hstart.reads
        fun action ha => (reads_startStatementAfter ha).weaken
      exact h.2.mp ((Bool.and_eq_true _ _).mp hs).2
    · refine Heeds.mono ?_ fun _ _ h => h.1
      exact hother.heeds.bindOn [annotations] hother.reads fun expression _ =>
        (reads_expressionStatementAfter annotations expression).weaken

/-! ## Statements that begin with a bracket -/

/-- How the statement goes on depends on the grammar that was decided on; the list is its first
part. -/
theorem reads_statementAfterBracketed (annotations : Option Node) (grammar : Bracketed.Grammar)
    {node : Node} (hn : node.HasToken) :
    Reads 6 [annotations, some node] (statementAfterBracketed annotations grammar node) .node := by
  cases grammar with
  | type => exact (reads_localDeclarationAfter annotations hn).weaken
  | pattern => exact reads_statementRhs annotations node
  | expression =>
    refine (reads_operatorsAfter hn _ _).bindOn [annotations] rfl fun whole _ => ?_
    exact reads_statementRhs annotations whole

theorem begins_bracketedStatement (annotations : Option Node) :
    Begins HasNext [annotations] (bracketedStatement annotations) .node := by
  refine begins_bracketed.bind fun member hm => ?_
  split
  · next type =>
    refine Meets.isNext ?_ (reads_localDeclarationAfter annotations hm).weaken
    refine Meets.before ((regroups_patternOfTuple type).becomes.append_left [annotations]) ?_
    exact (reads_statementRhs annotations _).weaken
  · exact (reads_statementAfterBracketed annotations _ hm).weaken
  · refine looks_grammarAhead.meets fun grammar => ?_
    refine Meets.before ((Member.becomes_toNode _ grammar).append_left [annotations]) ?_
    exact (reads_statementAfterBracketed annotations _ (Member.hasToken_toNode hm grammar)).weaken

/-! ## All together -/

/-- The look ahead finds what it finds without moving the parse. -/
theorem looks_declaresAs (kind : Kind) : Looks (declaresAs kind) fun _ _ => True := by
  unfold declaresAs
  split
  · exact looks_upcoming.andThen fun _ => looks_pure _
  · exact looks_upcoming.andThen fun _ => looks_pure _
  · exact looks_pure _
  · exact (looks_kindAt 1).andThen fun _ => looks_pure _
  · exact (looks_kindAt 1).andThen fun _ => looks_pure _

theorem looks_isQualifiedWorker (kind : Kind) :
    Looks (isQualifiedWorker kind) fun _ b => b = true → functionQualifiers.contains kind = true :=
  (looks_isSecond .workerKeyword).bind fun _ => .pure fun _ _ hb => ((Bool.and_eq_true _ _).mp hb).1

/-- What no keyword begins is a worker, a declaration or an expression, each entered at its first
token; what begins none of them is recovered from. -/
theorem meets_otherStatementAs {kind : Kind} (annotations : Option Node) (hb : 6 ≤ bound)
    (hb' : kind ≠ .identifier → 7 ≤ bound) :
    Enters (fun k => k = kind ∨ kind = .identifier) bound [annotations]
      (otherStatementAs kind annotations) .node (fun _ => False) := by
  have : AtMost 6 bound := ⟨hb⟩
  have : AtMost 4 bound := ⟨by omega⟩
  refine (looks_isQualifiedWorker kind).meets fun isWorker => ?_
  split
  · next hw =>
    refine (opens_workerAfter annotations).begins.weaken fun k hk => ?_
    have hkind : kind = .workerKeyword ∨ functionQualifiers.contains kind = true :=
      ((Bool.or_eq_true _ _).mp hw).imp beq_iff_eq.mp hk.2
    have hne : kind ≠ .identifier := by
      rintro rfl
      exact absurd hkind (by decide)
    rwa [hk.1.resolve_right hne]
  · refine (looks_declaresAs kind).meets fun declares => ?_
    split
    · exact (accepts_localDeclaration annotations).reads.weaken
    · split
      · exact (accepts_expressionStatement annotations).reads.weaken
      · next hexpression =>
        have hne : kind ≠ .identifier := by
          rintro rfl
          exact hexpression rfl
        exact reads_recoverOver trivial (by simp) (hb' hne) rfl

/-- **A statement is entered at its first token, and refers to lower rules alone before that is
consumed.** -/
theorem meets_statementAs {kind : Kind} (annotations : Option Node) (hb : 6 ≤ bound)
    (hb' : kind ≠ .identifier → 7 ≤ bound) :
    Enters (fun k => k = kind ∨ kind = .identifier) bound [annotations]
      (statementAs kind annotations) .node (fun _ => False) := by
  have : AtMost 6 bound := ⟨hb⟩
  unfold statementAs
  split
  · exact (begins_finalDeclaration annotations).weaken (by simp +contextual)
  · exact (begins_bracketedStatement annotations).weaken (by simp +contextual)
  · refine Meets.rejecting annotations (meets_mappingOrBlock.mono ?_ (fun _ hf => hf))
    simp
  · exact Meets.rejecting annotations accepts_destructuring.reads.weaken
  · refine looks_upcoming.meets fun kinds => ?_
    split
    · exact Meets.rejecting annotations accepts_destructuring.reads.weaken
    · exact (meets_otherStatementAs annotations hb hb').mono (fun _ h => h.1) (fun _ hf => hf)
  · split
    · next statement hs =>
      refine Meets.rejecting annotations ((begins_keywordStatement? hs).weaken fun k hk => ?_)
      rintro rfl
      rcases hk with rfl | rfl <;> cases hs
    · exact meets_otherStatementAs annotations hb hb'

/-! ## What a statement goes on with -/

/-- A declaration comes next only if a type does, and not one of a module; and if a type comes next,
but no declaration, then an expression does, or a type keyword with a colon behind it. -/
theorem sees_declaresAs (kind : Kind) :
    Sees (declaresAs kind) fun _ s b =>
      (b = true → Starts.type kind = true ∧
        (kind.isTypeKeyword = true → s = .colon → Starts.expression kind = true)) ∧
      (b = false → Starts.type kind = true →
        Starts.expression kind = true ∨ kind.isTypeKeyword = true ∧ s = .colon) := by
  unfold declaresAs
  split
  · exact looks_upcoming.sees.bind fun _ => .pure fun _ _ _ =>
      ⟨fun _ => ⟨rfl, fun _ _ => rfl⟩, fun _ _ => Or.inl rfl⟩
  · exact looks_upcoming.sees.bind fun _ => .pure fun _ _ _ =>
      ⟨fun _ => ⟨rfl, fun _ _ => rfl⟩, fun _ _ => Or.inl rfl⟩
  · exact .pure fun _ _ =>
      ⟨fun _ => ⟨rfl, fun h => absurd h (by decide)⟩, fun h => absurd h.symm Bool.false_ne_true⟩
  · exact sees_kindAt_one.bind fun _ => .pure fun _ _ _ =>
      ⟨fun _ => ⟨rfl, fun _ _ => rfl⟩, fun _ _ => Or.inl rfl⟩
  · refine sees_kindAt_one.bind fun second => .pure fun _ s hs => ?_
    subst hs
    refine ⟨fun hb => ?_, fun hb htype => ?_⟩
    · simp_all [Starts.type]
    · simp_all [Starts.type, Starts.typeTokens, Starts.expression, Starts.expressionTokens]
      tauto

/-- The next token can begin a statement that no keyword of its own begins. -/
structure BeginsOther (kind second : Kind) : Prop where
  starts : kind = .workerKeyword ∨ Starts.expression kind = true ∨ Starts.type kind = true
  /-- A type keyword with a colon behind it is a module in an expression, if it is anything. -/
  colon : kind.isTypeKeyword = true → second = .colon → Starts.expression kind = true

theorem heeds_otherStatementAs (kind : Kind) (annotations : Option Node) :
    Heeds (fun k s => k = kind ∧ BeginsOther kind s) (otherStatementAs kind annotations) := by
  refine (looks_isQualifiedWorker kind).heeds fun isWorker => ?_
  split
  · next hw =>
    refine (opens_workerAfter annotations).begins.heedsWhere fun k _ hk _ => ?_
    rw [hk.1.1]
    exact ((Bool.or_eq_true _ _).mp hw).imp beq_iff_eq.mp hk.2
  · next hw =>
    refine (sees_declaresAs kind).heeds fun declares => ?_
    split
    · next hd =>
      exact (accepts_localDeclaration annotations).heeds.mono fun _ _ hk =>
        hk.1.1.1 ▸ (hk.2.1 hd).1
    · next hd =>
      split
      · next hexpression =>
        exact (accepts_expressionStatement annotations).heeds.mono fun _ _ hk =>
          hk.1.1.1 ▸ hexpression
      · next hexpression =>
        refine Heeds.unreachable ?_
        rintro _ s ⟨⟨⟨-, hk⟩, -⟩, -, hnone⟩
        rcases hk.starts with rfl | he | htype
        · exact hw rfl
        · exact hexpression he
        · rcases hnone (by simpa using hd) htype with he | ⟨hkeyword, hcolon⟩
          · exact hexpression he
          · exact hexpression (hk.colon hkeyword hcolon)

/-- What a statement goes on with has a rule of its own, or begins another statement. -/
theorem begins_of_continues {annotations : Option Node} {kind second : Kind}
    (h : (Rule.request (.statement annotations)).continues kind second = true) :
    kind = .finalKeyword ∨ kind = .openBrace ∨ kind = .underscore ∨
      (keywordStatement? kind).isSome = true ∨ BeginsOther kind second := by
  simp only [Rule.continues, Request.accepts, Request.overstates, Starts.statement,
    Bool.and_eq_true, Bool.or_eq_true, Bool.not_eq_true', Bool.or_eq_false_iff] at h
  obtain ⟨hstarts, hsign, hkeyword⟩ := h
  have hcolon (ht : kind.isTypeKeyword = true) (hs : second = .colon) :
      Starts.expression kind = true := by simpa [ht, hs] using hkeyword
  rcases hstarts with (htoken | hexpression) | htype
  · simp only [Starts.statementTokens, List.contains_eq_mem, List.mem_cons, List.not_mem_nil,
      or_false, decide_eq_true_eq] at htoken
    rcases htoken with rfl | rfl | rfl | rfl | rfl | rfl | rfl | rfl | rfl | rfl | rfl | rfl |
      rfl | rfl | rfl | rfl | rfl | rfl | rfl | rfl
    all_goals first
      | exact absurd hsign (by decide)
      | exact Or.inl rfl
      | exact Or.inr (Or.inl rfl)
      | exact Or.inr (Or.inr (Or.inl rfl))
      | exact Or.inr (Or.inr (Or.inr (Or.inl rfl)))
      | exact Or.inr (Or.inr (Or.inr (Or.inr ⟨Or.inl rfl, hcolon⟩)))
  · exact Or.inr (Or.inr (Or.inr (Or.inr ⟨Or.inr (Or.inl hexpression), hcolon⟩)))
  · exact Or.inr (Or.inr (Or.inr (Or.inr ⟨Or.inr (Or.inr htype), hcolon⟩)))

/-- A statement goes on with its first token, unless that is an annotation, or a keyword of a type
with a colon behind it. -/
theorem heeds_statementAs (kind : Kind) (annotations : Option Node) :
    Heeds (fun k s => k = kind ∧ (Rule.request (.statement annotations)).continues k s = true)
      (statementAs kind annotations) := by
  unfold statementAs
  split
  · exact (begins_finalDeclaration annotations).heedsWhere fun _ _ _ h => h
  · exact (begins_bracketedStatement annotations).heedsWhere fun _ _ _ h => h
  · exact (heeds_mappingOrBlock.mono fun _ _ h => h.1).bindPure
  · refine Heeds.bindPure (accepts_destructuring.heeds.mono ?_)
    rintro _ _ ⟨rfl, -⟩
    rfl
  · refine looks_upcoming.heeds fun kinds => ?_
    split
    · refine Heeds.bindPure (accepts_destructuring.heeds.mono ?_)
      rintro _ _ ⟨⟨rfl, -⟩, -⟩
      rfl
    · refine (heeds_otherStatementAs _ annotations).mono fun _ _ h => ⟨h.1.1, ?_, ?_⟩
      · exact Or.inr (Or.inl rfl)
      · exact fun _ _ => rfl
  · split
    · next statement hs =>
      exact ((begins_keywordStatement? hs).heedsWhere fun _ _ _ h => h).bindPure
    · next hnone =>
      refine (heeds_otherStatementAs kind annotations).mono fun _ s h => ⟨h.1, ?_⟩
      obtain ⟨rfl, hcontinues⟩ := h
      rcases begins_of_continues hcontinues with rfl | rfl | rfl | hsome | hother
      · contradiction
      · contradiction
      · contradiction
      · rw [hnone] at hsome
        cases hsome
      · exact hother

theorem asks_otherStatementAs (kind : Kind) (annotations : Option Node) :
    Asks (fun _ s => Request.overstates (.statement annotations) kind s = true)
      (otherStatementAs kind annotations) := by
  have hsplit {second : Kind}
      (h : Request.overstates (.statement annotations) kind second = true) :
      kind = .atSign ∨ kind.isTypeKeyword = true ∧ Starts.expression kind = false ∧
        second = .colon := by
    simpa [Request.overstates, and_assoc] using h
  refine (looks_isQualifiedWorker kind).asks fun isWorker => ?_
  split
  · next hw =>
    refine Asks.unreachable ?_
    rintro _ _ ⟨h, hqualifier⟩
    rcases (Bool.or_eq_true _ _).mp hw with hw | hw
    · cases beq_iff_eq.mp hw
      exact Bool.false_ne_true h
    · have hk := hqualifier hw
      simp only [functionQualifiers, List.contains_eq_mem, List.mem_cons, List.not_mem_nil,
        or_false, decide_eq_true_eq] at hk
      rcases hk with rfl | rfl <;> exact Bool.false_ne_true h
  · refine (sees_declaresAs kind).asks fun declares => ?_
    split
    · next hd =>
      refine Asks.unreachable ?_
      rintro _ _ ⟨⟨h, -⟩, htype, -⟩
      obtain ⟨htype, hcolon⟩ := htype hd
      rcases hsplit h with rfl | ⟨hkeyword, hexpression, hs⟩
      · exact Bool.false_ne_true htype
      · exact Bool.false_ne_true (hexpression.symm.trans (hcolon hkeyword hs))
    · split
      · next hexpression =>
        refine Asks.unreachable ?_
        rintro _ _ ⟨⟨h, -⟩, -⟩
        rcases hsplit h with rfl | ⟨-, hne, -⟩
        · exact Bool.false_ne_true hexpression
        · exact Bool.false_ne_true (hne.symm.trans hexpression)
      · exact asks_recoverOver trivial

/-- An annotation a second time is asked about, though a statement says that it goes on with one. -/
theorem asks_statementAs (kind : Kind) (annotations : Option Node) :
    Asks (fun _ s => Request.overstates (.statement annotations) kind s = true)
      (statementAs kind annotations) := by
  have hkeyword {statement : ParseM Node} (h : keywordStatement? kind = some statement)
      (second : Kind) : Request.overstates (.statement annotations) kind second = false := by
    unfold keywordStatement? at h
    split at h <;> first | rfl | cases h
  unfold statementAs
  split
  · exact Asks.unreachable fun _ _ h => Bool.false_ne_true h
  · exact Asks.unreachable fun _ _ h => Bool.false_ne_true h
  · exact Asks.unreachable fun _ _ h => Bool.false_ne_true h
  · exact Asks.unreachable fun _ _ h => Bool.false_ne_true h
  · exact Asks.unreachable fun _ _ h => Bool.false_ne_true h
  · split
    · next statement hs =>
      exact Asks.unreachable fun _ s h => Bool.false_ne_true ((hkeyword hs s).symm.trans h)
    · exact asks_otherStatementAs kind annotations

end ParseM

end TolerantSyntax
