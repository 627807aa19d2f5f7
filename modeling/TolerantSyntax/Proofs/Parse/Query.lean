import TolerantSyntax.Grammar.Query
import TolerantSyntax.Proofs.Parse.Action
import TolerantSyntax.Proofs.Parse.Type

/-!
# Queries

Every clause begins with a keyword. The end of a query is entered with the pipeline of all clauses
before it; a clause that comes where the end is expected is put into that pipeline.
-/

namespace TolerantSyntax

namespace ParseM

variable {bound : Nat}

/-- The value of a clause ends where the next clause begins. -/
theorem reads_clauseValue : Reads 4 [] clauseValue .node :=
  reads_expression _ _

/-! ## Clauses -/

theorem begins_fromClause : Begins (· = .fromKeyword) [] fromClause .node := by
  refine Meets.within ((begins_expect (by decide) _).bind fun keyword hk => ?_)
  refine reads_typedBinding.bind fun binding _ => ?_
  refine (reads_expect _ _).bind fun inKeyword _ => ?_
  exact reads_clauseValue.bind fun source _ => Reads.of hk (by simp) rfl rfl

theorem begins_whereClause : Begins HasNext [] whereClause .node := by
  refine Meets.within (begins_consumeNode.bind fun keyword hk => ?_)
  exact reads_clauseValue.bind fun condition _ => Reads.of hk (by simp) rfl rfl

theorem reads_letVariable : Reads 4 [] letVariable .node := by
  refine Meets.within (reads_metadata.bind fun annotations _ => ?_)
  refine reads_typedBinding.bind fun binding hb => ?_
  refine (reads_expect _ _).bind fun equal _ => ?_
  exact (reads_expression _ _).bind fun initial _ => Reads.ofSlots hb (by simp) rfl rfl

theorem begins_letClause : Begins HasNext [] letClause .node := by
  refine Meets.within (begins_consumeNode.bind fun keyword hk => ?_)
  refine (reads_separated (by decide) reads_letVariable).bind fun declarations _ => ?_
  exact Meets.before ((Row.Becomes.group .list _ rfl).append_left [some keyword])
    (Reads.of hk (by simp) rfl rfl)

theorem reads_onClause : Reads 4 [] onClause .node := by
  refine Meets.within ((reads_expect _ _).bind fun keyword hk => ?_)
  refine reads_clauseValue.bind fun lhs _ => ?_
  refine (reads_expect _ _).bind fun equals _ => ?_
  exact reads_clauseValue.bind fun rhs _ => Reads.of hk (by simp) rfl rfl

theorem begins_joinClause :
    Begins (fun k => k = .joinKeyword ∨ k = .outerKeyword) [] joinClause .node := by
  have hjoin (outer : Option Node) : Opens (· = .joinKeyword) 4 [outer]
      (do
        let join ← expect .joinKeyword .joinClause
        let binding ← typedBinding
        let inKeyword ← expect .inKeyword .joinClause
        let source ← clauseValue
        let on ← onClause
        return .ofSlots .joinClause
          [outer, some join, some binding, some inKeyword, some source, some on]) .node := by
    refine (opens_expect (by decide) _).bind fun join hj => ?_
    refine reads_typedBinding.bind fun binding _ => ?_
    refine (reads_expect _ _).bind fun inKeyword _ => ?_
    refine reads_clauseValue.bind fun source _ => ?_
    exact reads_onClause.bind fun on _ => Reads.ofSlots hj (by simp) rfl rfl
  refine Meets.within ((perhaps_optional (by decide)).bind (fun outer _ => ?_) ?_)
  · exact (hjoin outer).reads.weaken
  · refine (hjoin none).begins.weaken ?_
    rintro k ⟨hk, hne⟩
    exact hk.resolve_right hne

theorem reads_orderKey : Reads 4 [] orderKey .node := by
  refine reads_clauseValue.bind fun key hk => looks_nextKind.meets fun kind => ?_
  split
  · exact reads_consumeNode.part.bind fun direction _ => Reads.ofSlots hk (by simp) rfl rfl
  · exact Reads.noPart.bind fun direction _ => Reads.ofSlots hk (by simp) rfl rfl

theorem begins_orderByClause : Begins HasNext [] orderByClause .node := by
  refine Meets.within (begins_consumeNode.bind fun order ho => ?_)
  refine (reads_expect _ _).bind fun byKeyword _ => ?_
  refine (reads_separated (by decide) reads_orderKey).bind fun keys _ => ?_
  have hlist :=
    (Row.Becomes.group .list (keys.map some) rfl).append_left [some order, some byKeyword]
  exact Meets.before hlist (Reads.of ho (by simp) rfl rfl)

theorem begins_limitClause : Begins HasNext [] limitClause .node := by
  refine Meets.within (begins_consumeNode.bind fun keyword hk => ?_)
  exact reads_clauseValue.bind fun count _ => Reads.of hk (by simp) rfl rfl

/-- Whatever clause comes next, it begins with its keyword. -/
theorem begins_intermediateClause :
    Begins (fun k => Starts.intermediateClause k = true) [] intermediateClause .node := by
  refine looks_nextKind.meets fun kind => ?_
  split
  · exact begins_whereClause.weaken (by simp +contextual)
  · exact begins_letClause.weaken (by simp +contextual)
  · exact begins_joinClause.weaken (by simp +contextual)
  · exact begins_joinClause.weaken (by simp +contextual)
  · exact begins_orderByClause.weaken (by simp +contextual)
  · exact begins_limitClause.weaken (by simp +contextual)
  · refine begins_fromClause.weaken ?_
    rintro k ⟨hk, rfl⟩
    simp only [Starts.intermediateClause, Starts.intermediateClauseTokens] at hk
    simp_all

/-! ## Pipelines -/

/-- What clauses are appended to is a pipeline with a clause that begins it. -/
theorem isPipeline_queryPipeline (first : Node) (clauses : List Node) :
    (queryPipeline (some first) clauses).IsPipeline :=
  ⟨first, clauses.map some, [], [], rfl⟩

/-- The first clause stands before the others in it. -/
theorem becomes_queryPipeline (first : Node) (clauses : List Node) :
    Row.Becomes (some first :: clauses.map some) [some (queryPipeline (some first) clauses)] :=
  ((Row.Becomes.group .list (clauses.map some) rfl).cons (some first)).trans
    (.group .queryPipeline _ rfl)

/-- A clause at the end of a pipeline makes another one. -/
theorem becomes_appendClause {pipeline : Node} (hp : pipeline.IsPipeline) (clause : Node) :
    Row.Becomes [some pipeline, some clause] [some (appendClause pipeline clause)] ∧
      (appendClause pipeline clause).IsPipeline := by
  obtain ⟨first, clauses, listed, diagnostics, rfl⟩ := hp
  have heq : appendClause (.composite .queryPipeline
      [some first, some (.composite .list clauses listed)] diagnostics) clause =
        queryPipeline (some first) (clauses.filterMap id ++ [clause]) := rfl
  have hparts : Row.Becomes [some (.composite .queryPipeline
      [some first, some (.composite .list clauses listed)] diagnostics)]
        (some first :: (clauses.filterMap id).map some) := by
    refine .trans (.ungroup _ diagnostics (by decide)) ?_
    exact ((Row.Becomes.ungroup clauses listed (by decide)).trans (.present clauses)).cons _
  rw [heq]
  refine ⟨(hparts.append_right [some clause]).trans ?_, isPipeline_queryPipeline first _⟩
  simpa using becomes_queryPipeline first (clauses.filterMap id ++ [clause])

/-- Pipeline and keyword are what the query begins with. -/
theorem reads_selectAfter (pipeline : Node) {keyword : Node} (hk : keyword.HasToken) :
    Reads 4 [some pipeline, some keyword] (selectAfter pipeline keyword) .node := by
  refine reads_clauseValue.bind fun value _ => ?_
  have ht : (Node.of .selectClause [keyword, value]).HasToken :=
    Node.hasToken_composite (List.mem_cons_self ..) hk
  exact Meets.before ((Row.Becomes.group .selectClause _ rfl).append_left [some pipeline])
    (Reads.of ht (by simp) rfl rfl)

theorem begins_queryActionAfter (pipeline : Node) (flags : ExpressionFlags) :
    Begins HasNext [some pipeline] (queryActionAfter pipeline flags) .node := by
  refine Meets.within (begins_consumeNode.bind fun keyword hk => ?_)
  exact opens_block.reads.bind fun body _ => Reads.action hk flags (by simp) rfl rfl

/-- The end of a query, behind a clause that comes where it was expected. -/
theorem reads_resume_appendClause {pipeline : Node} (flags : ExpressionFlags)
    (hp : pipeline.IsPipeline) (clause : Node) :
    Reads Rule.maxRank [some pipeline, some clause]
      (resume (.queryEnd (appendClause pipeline clause) flags)) .node := by
  obtain ⟨hrow, hp'⟩ := becomes_appendClause hp clause
  exact Meets.before hrow (reads_resume hp' (Rule.rank_lt_maxRank _) rfl)

/-- A query ends with `select` or `do`, and clauses that come here are appended. -/
theorem meets_queryEndAs {kind : Kind} {pipeline : Node} (flags : ExpressionFlags)
    (hp : pipeline.IsPipeline) (hb : 4 ≤ bound)
    (hb' : kind ≠ .selectKeyword → 5 ≤ bound) :
    Enters (fun k => k = kind ∨ kind = .selectKeyword) bound [some pipeline]
      (queryEndAs kind pipeline flags) .node (fun _ => False) := by
  have : AtMost 4 bound := ⟨hb⟩
  unfold queryEndAs
  split
  · exact reads_consumeNode.bind fun keyword hk => (reads_selectAfter pipeline hk).weaken
  · split
    · next h =>
      cases beq_iff_eq.mp h
      exact (begins_queryActionAfter pipeline flags).weaken (by simp +contextual)
    · split
      · next h =>
        exact begins_intermediateClause.bindFrom (taken h (by decide)) fun clause _ =>
          reads_resume_appendClause flags hp clause
      · next hs _ _ =>
        have hne : kind ≠ .selectKeyword := by
          rintro rfl
          exact hs rfl
        exact reads_recoverAs hp hp (by simp) (fun _ ht => (reads_selectAfter pipeline ht).weaken)
          (hb' hne) rfl rfl rfl

/-- Both ends, and all clauses, begin with a token that is consumed. -/
theorem heeds_queryEndAs (kind : Kind) {pipeline : Node} (flags : ExpressionFlags)
    (hp : pipeline.IsPipeline) :
    Heeds (fun k s => k = kind ∧ (Rule.request (.queryEnd pipeline flags)).continues k s = true)
      (queryEndAs kind pipeline flags) := by
  unfold queryEndAs
  split
  · exact (begins_consumeNode.heedsWhere fun _ _ _ h => h).bindOn [some pipeline] reads_consumeNode
      fun keyword hk => (reads_selectAfter pipeline hk).weaken
  · split
    · exact (begins_queryActionAfter pipeline flags).heedsWhere fun _ _ _ h => h
    · split
      · next h =>
        have hclause : Heeds (fun k _ => k = kind) intermediateClause :=
          begins_intermediateClause.heedsWhere fun _ _ hk _ => hk ▸ h
        refine Heeds.mono ?_ fun _ _ hk => hk.1
        exact hclause.bindOn [some pipeline] begins_intermediateClause fun clause _ =>
          reads_resume_appendClause flags hp clause
      · refine Heeds.unreachable ?_
        rintro _ _ ⟨rfl, h⟩
        simp_all [Rule.continues, Request.accepts, Request.overstates]

theorem begins_query (flags : ExpressionFlags) :
    Begins (· = .fromKeyword) [] (query flags) .node := by
  refine Meets.within (begins_fromClause.bind fun first _ => ?_)
  refine (reads_many begins_intermediateClause).bind fun clauses _ => ?_
  refine Meets.before (becomes_queryPipeline first clauses) ?_
  exact reads_resume (isPipeline_queryPipeline first clauses) (Rule.rank_lt_maxRank _) rfl

end ParseM

end TolerantSyntax
