import TolerantSyntax.Proofs.Parse.Enter

/-!
# Actions

An action consumes its arrow or its keyword. Where it is not allowed it is flagged, which keeps its
place.
-/

namespace TolerantSyntax

namespace ParseM

variable {start : Kind → Prop} {bound : Nat} {given : Row}

/-- An action is made of all pieces. -/
theorem Reads.action {kind : Kind} {row : Row} {node : Node} (hn : node.HasToken)
    (flags : ExpressionFlags) (hm : some node ∈ row) (hrow : given = row)
    (ha : kind.composes row = true) :
    Enters start bound given (Pure.pure (checkAction (Node.ofSlots kind row) flags)) .node
      (fun _ => False) := by
  have ht : (Node.ofSlots kind row).HasToken := Node.hasToken_composite hm hn
  obtain ⟨hb, ht'⟩ := becomes_checkAction ht flags
  exact Meets.pure (hrow ▸ (Row.Becomes.group kind row ha).trans hb) ht' id

/-- `function` names the worker around a worker. -/
theorem reads_peerWorker (context : Context) : Reads 0 [] (peerWorker context) .node := by
  unfold peerWorker
  refine Meets.isNext ?_ ?_
  · exact reads_consumeNode.bind fun _ ht => Reads.simpleName ht
  · exact (reads_expect _ _).bind fun _ ht => Reads.simpleName ht

/-! ## Behind an operand -/

/-- Operand and arrow are what the call begins with. -/
theorem reads_remoteCallAfter {target : Node} (ht : target.HasToken) (arrow : Node) :
    Reads 6 [some target, some arrow] (remoteCallAfter target arrow) .node := by
  refine Meets.within (reads_consumeNode.bind fun token _ => ?_)
  refine Meets.before ((becomes_simpleName token).append_left [some target, some arrow]) ?_
  exact opens_arguments.reads.bind fun ⟨opening, items, close⟩ _ => Reads.of ht (by simp) rfl rfl

/-- The arrow is consumed, be it that of a call or of a message. -/
theorem begins_remoteCallOrSend {target : Node} (ht : target.HasToken) (flags : ExpressionFlags) :
    Begins HasNext [some target] (remoteCallOrSend target flags) .node := by
  refine (looks_kindAt 1).meets fun second => (looks_kindAt 2).meets fun third => ?_
  refine (looks_pure _).meets fun isCall => ?_
  refine begins_consumeNode.bindFrom (by simp +contextual) fun arrow _ => ?_
  split
  · refine (reads_remoteCallAfter ht arrow).bindOn [] rfl fun action ha => ?_
    obtain ⟨hb, ha'⟩ := becomes_checkAction ha flags
    exact Meets.pure hb ha' id
  · exact (reads_peerWorker _).bind fun peer _ => Reads.action ht flags (by simp) rfl rfl

theorem begins_syncSend {message : Node} (hm : message.HasToken) (flags : ExpressionFlags) :
    Begins HasNext [some message] (syncSend message flags) .node := by
  refine begins_consumeNode.bind fun arrow _ => ?_
  exact (reads_peerWorker _).bind fun peer _ => Reads.action hm flags (by simp) rfl rfl

/-! ## From their first token -/

theorem begins_receiveAction (flags : ExpressionFlags) :
    Begins HasNext [] (receiveAction flags) .node := by
  refine begins_consumeNode.bind fun arrow ha => ?_
  exact (reads_peerWorker _).bind fun peer _ => Reads.action ha flags (by simp) rfl rfl

/-- Annotations are the first slot of the action. -/
theorem opens_startActionAfter (annotations : Option Node) (flags : ExpressionFlags) :
    Opens (· = .startKeyword) 4 [annotations] (startActionAfter annotations flags) .node := by
  refine Opens.within ((opens_expect (by decide) _).bind fun keyword hk => ?_)
  exact (reads_expression _ _).bind fun call _ => Reads.action hk flags (by simp) rfl rfl

/-- Annotations or the keyword are consumed first. -/
theorem begins_startAction (flags : ExpressionFlags) :
    Begins (fun k => k = .startKeyword ∨ k = .atSign) [] (startAction flags) .node := by
  refine perhaps_metadata.bind (fun annotations _ => ?_) ?_
  · exact (opens_startActionAfter annotations flags).reads.weaken
  · refine (opens_startActionAfter none flags).begins.weaken ?_
    rintro k ⟨hk, hne⟩
    exact hk.resolve_right hne

theorem reads_waitField : Reads 4 [] waitField .node := by
  refine (reads_expect _ _).bind fun token ht => ?_
  refine Meets.before (becomes_simpleName token) (Meets.isNext ?_ ?_)
  · refine reads_consumeNode.bind fun colon _ => ?_
    exact reads_value.bind fun value _ => Reads.of (hasToken_simpleName ht) (by simp) rfl rfl
  · refine Meets.before ((Row.Becomes.withGap _).trans (.withGap _)) ?_
    exact Reads.ofSlots (hasToken_simpleName ht) (by simp) rfl rfl

theorem begins_waitFields : Begins HasNext [] waitFields .node := by
  refine begins_consumeNode.bind fun opening ho => ?_
  refine (reads_delimited (by decide) reads_waitField).bind fun ⟨fields, close⟩ _ => ?_
  exact Reads.of ho (by simp) rfl rfl

/-- One future is itself, and several become one node. -/
theorem reads_waitAlternates : Reads 4 [] waitAlternates .node := by
  refine (reads_separated (by decide) (reads_expression _ _)).bind fun futures hf => ?_
  obtain ⟨future, hm, hf⟩ := hf
  split
  · rw [List.mem_singleton.mp hm] at hf
    exact Reads.pure hf rfl
  · have ht : (Node.list futures).HasToken := Node.hasToken_composite (List.mem_map_of_mem hm) hf
    exact Meets.before (.group .list _ rfl) (Reads.of ht (by simp) rfl rfl)

theorem begins_waitAction (flags : ExpressionFlags) :
    Begins HasNext [] (waitAction flags) .node := by
  refine Meets.within (begins_consumeNode.bind fun keyword hk => ?_)
  refine Meets.isNext ?_ ?_
  · exact begins_waitFields.bindFrom (by simp +contextual) fun futures _ =>
      Reads.action hk flags (by simp) rfl rfl
  · exact reads_waitAlternates.bind fun futures _ => Reads.action hk flags (by simp) rfl rfl

/-- The worker may be left out. -/
theorem begins_flushAction (flags : ExpressionFlags) :
    Begins HasNext [] (flushAction flags) .node := by
  refine begins_consumeNode.bind fun keyword hk => looks_nextKind.meets fun kind => ?_
  split
  · exact (reads_peerWorker _).part.bind fun peer _ => Reads.action hk flags (by simp) rfl rfl
  · exact Reads.noPart.bind fun peer _ => Reads.action hk flags (by simp) rfl rfl

theorem begins_commitAction (flags : ExpressionFlags) :
    Begins HasNext [] (commitAction flags) .node :=
  begins_consumeNode.bind fun _ hk => Reads.action hk flags (by simp) rfl rfl

end ParseM

end TolerantSyntax
