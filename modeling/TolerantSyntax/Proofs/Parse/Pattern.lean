import TolerantSyntax.Grammar.Pattern
import TolerantSyntax.Proofs.Parse.Type

/-!
# Patterns

A pattern that is no name begins with a token of its own, and its members are patterns again or have
a type before them.
-/

namespace TolerantSyntax

namespace ParseM

variable {bound : Nat}

/-! ## Binding patterns -/

theorem reads_restBinding : Reads 0 [] restBinding .node := by
  refine reads_consumeNode.bind fun ellipsis he => ?_
  exact (reads_expect _ _).bind fun name _ => Reads.of he (by simp) rfl rfl

/-- Whether a type comes before the pattern is told by looking. -/
theorem looks_isTypedMember : Looks isTypedMember fun _ _ => True := by
  refine looks_nextKind.andThen fun kind => ?_
  split
  · refine (looks_kindAt 1).andThen fun second => (looks_kindAt 2).andThen fun third => ?_
    exact (looks_pure _).andThen fun qualified => (looks_kindAt _).andThen fun _ => looks_pure _
  · refine (looks_kindAt 1).andThen fun second => ?_
    split
    · exact (looks_kindAt 2).andThen fun _ => looks_pure _
    all_goals exact looks_pure _
  · exact looks_pure _

/-- A member begins with a type or a pattern, and neither need be there. -/
theorem reads_listBindingMember : Reads 4 [] listBindingMember .node := by
  refine Meets.isNext reads_restBinding.weaken ?_
  exact looks_isTypedMember.ite reads_typedBinding.weaken reads_bindingPattern.weaken

/-- Members that have been read before, and those that follow, go into one list. -/
theorem reads_listBindingAfter {opening : Node} (ho : opening.HasToken) (items : List Node) :
    Reads 4 (some opening :: items.map some) (listBindingAfter opening items) .node := by
  refine (reads_delimitedAfter items (by decide) reads_listBindingMember).bindOn [some opening] rfl
    ?_
  exact fun ⟨members, close⟩ _ => Reads.of ho (by simp) rfl rfl

/-- A name is consumed or put in, and the pattern may be left out behind it. -/
theorem reads_fieldBinding : Reads 2 [] fieldBinding .node := by
  refine Meets.isNext reads_restBinding.weaken ?_
  refine (reads_expect _ _).bind fun token ht => ?_
  refine Meets.before (becomes_simpleName token) (Meets.isNext ?_ ?_)
  · refine reads_consumeNode.bind fun colon _ => ?_
    exact reads_bindingPattern.bind fun pattern _ =>
      Reads.of (hasToken_simpleName ht) (by simp) rfl rfl
  · refine Meets.before ((Row.Becomes.withGap _).trans (.withGap _)) ?_
    exact Reads.ofSlots (hasToken_simpleName ht) (by simp) rfl rfl

theorem begins_mappingBinding : Begins HasNext [] mappingBinding .node := by
  refine begins_consumeNode.bind fun opening ho => ?_
  refine (reads_delimited (by decide) reads_fieldBinding).bind fun ⟨fields, close⟩ _ => ?_
  exact Reads.of ho (by simp) rfl rfl

theorem reads_errorBindingArgument : Reads 2 [] errorBindingArgument .node := by
  refine Meets.isNext reads_restBinding.weaken ?_
  refine (looks_isNext .identifier).meets fun a => (looks_isSecond .equal).meets fun b => ?_
  split
  · refine reads_consumeNode.bind fun name hn => ?_
    refine reads_consumeNode.bind fun equal _ => ?_
    exact reads_bindingPattern.bind fun pattern _ => Reads.of hn (by simp) rfl rfl
  · exact reads_bindingPattern.weaken

theorem begins_errorBinding : Begins HasNext [] errorBinding .node := by
  refine Meets.within (begins_consumeNode.bind fun keyword hk => ?_)
  refine (reads_ifNext opens_typeReference.begins (by simp)).bind fun type _ => ?_
  refine (reads_expect _ _).bind fun opening _ => ?_
  refine (reads_delimited (by decide) reads_errorBindingArgument).bind fun ⟨arguments, close⟩ _ =>
    ?_
  exact Reads.ofSlots hk (by simp) rfl rfl

/-- Each form begins with a token of its own, and what is none of them is recovered from. -/
theorem meets_bindingPatternAs {kind : Kind} (hb : kind ≠ .identifier → 1 ≤ bound) :
    Enters (fun k => k = kind ∨ kind = .identifier) bound [] (bindingPatternAs kind) .node
      (fun _ => False) := by
  unfold bindingPatternAs
  split
  · exact (reads_expect _ _).bind fun name hn => Reads.of hn (by simp) rfl rfl
  · exact reads_consumeNode.bind fun underscore hu => Reads.of hu (by simp) rfl rfl
  · exact begins_consumeNode.bindFrom (by simp +contextual) fun opening ho =>
      (reads_listBindingAfter ho []).weaken
  · exact begins_mappingBinding.weaken (by simp +contextual)
  · exact begins_errorBinding.weaken (by simp +contextual)
  · have hpos : 1 ≤ bound := hb (by assumption)
    exact reads_recoverAs trivial trivial (by simp) (fun _ ht => Reads.of ht (by simp) rfl rfl)
      hpos rfl
      rfl rfl

/-- A pattern goes on with every token that it says it does. -/
theorem heeds_bindingPatternAs (kind : Kind) :
    Heeds (fun k s => k = kind ∧ (Rule.request .bindingPattern).continues k s = true)
      (bindingPatternAs kind) := by
  unfold bindingPatternAs
  split
  · exact ((begins_expect (by decide) _).heedsWhere fun _ _ h _ => h.1).bindPure
  · exact (begins_consumeNode.heedsWhere fun _ _ _ h => h).bindPure
  · exact (begins_consumeNode.heedsWhere fun _ _ _ h => h).bind reads_consumeNode fun _ ho =>
      (reads_listBindingAfter ho []).weaken
  · exact begins_mappingBinding.heedsWhere fun _ _ _ h => h
  · exact begins_errorBinding.heedsWhere fun _ _ _ h => h
  · refine Heeds.unreachable ?_
    rintro _ _ ⟨rfl, h⟩
    simp_all [Rule.continues, Request.accepts, Request.overstates, Starts.bindingPattern,
      Starts.bindingPatternTokens]

/-! ## Match patterns -/

theorem reads_restMatch : Reads 0 [] restMatch .node := by
  refine reads_consumeNode.bind fun ellipsis he => ?_
  refine (reads_expect _ _).bind fun var _ => ?_
  refine (reads_expect _ _).bind fun name _ => ?_
  have hname : Row.Becomes [some name] [some (.of .captureBindingPattern [name])] := .group _ _ rfl
  exact Meets.before (hname.append_left [some ellipsis, some var]) (Reads.of he (by simp) rfl rfl)

/-- A member is a match pattern, or `...var` and a name. -/
theorem reads_listMatchMember : Reads 2 [] listMatchMember .node :=
  Meets.isNext reads_restMatch.weaken reads_matchPattern.weaken

theorem begins_listMatch : Begins HasNext [] listMatch .node := by
  refine begins_consumeNode.bind fun opening ho => ?_
  refine (reads_delimited (by decide) reads_listMatchMember).bind fun ⟨members, close⟩ _ => ?_
  exact Reads.of ho (by simp) rfl rfl

theorem reads_fieldMatch : Reads 2 [] fieldMatch .node := by
  refine Meets.isNext reads_restMatch.weaken ?_
  refine (reads_expect _ _).bind fun name hn => ?_
  refine (reads_expect _ _).bind fun colon _ => ?_
  exact reads_matchPattern.bind fun pattern _ => Reads.of hn (by simp) rfl rfl

theorem begins_mappingMatch : Begins HasNext [] mappingMatch .node := by
  refine begins_consumeNode.bind fun opening ho => ?_
  refine (reads_delimited (by decide) reads_fieldMatch).bind fun ⟨fields, close⟩ _ => ?_
  exact Reads.of ho (by simp) rfl rfl

/-- An argument may have a name in front of its pattern. -/
theorem reads_errorMatchArgument : Reads 2 [] errorMatchArgument .node := by
  refine Meets.isNext reads_restMatch.weaken ?_
  refine (looks_isNext .identifier).meets fun a => (looks_isSecond .equal).meets fun b => ?_
  split
  · refine reads_consumeNode.bind fun name hn => ?_
    refine reads_consumeNode.bind fun equal _ => ?_
    exact reads_matchPattern.bind fun pattern _ => Reads.of hn (by simp) rfl rfl
  · exact reads_matchPattern.weaken

theorem begins_errorMatch : Begins HasNext [] errorMatch .node := by
  refine Meets.within (begins_consumeNode.bind fun keyword hk => ?_)
  refine (reads_ifNext opens_typeReference.begins (by simp)).bind fun type _ => ?_
  refine (reads_expect _ _).bind fun opening _ => ?_
  refine (reads_delimited (by decide) reads_errorMatchArgument).bind fun ⟨arguments, close⟩ _ => ?_
  exact Reads.ofSlots hk (by simp) rfl rfl

/-- `var` as a type, and the pattern behind it. -/
theorem reads_bindingAfterVar {var : Node} (hv : var.HasToken) :
    Reads 2 [some var] (typedBindingAfter (.of .builtinSimpleTypeDescriptor [var])) .node :=
  Meets.before (.group _ [some var] rfl)
    (reads_typedBindingAfter (Node.hasToken_composite (List.mem_singleton_self _) hv))

/-- A literal, a name, or a pattern that begins with a token of its own. -/
theorem meets_matchPatternAs {kind : Kind} (hb : kind ≠ .identifier → 1 ≤ bound) :
    Enters (fun k => k = kind ∨ kind = .identifier) bound [] (matchPatternAs kind) .node
      (fun _ => False) := by
  unfold matchPatternAs
  split
  · exact opens_basicLiteral.reads.weaken
  · split
    · exact opens_negativeLiteral.reads.weaken
    · exact reads_consumeNode.bind fun underscore hu => Reads.of hu (by simp) rfl rfl
    · exact begins_consumeNode.bindFrom (by simp +contextual) fun var hv =>
        (reads_bindingAfterVar hv).weaken
    · exact (opens_nameReference false).reads.weaken
    · refine reads_consumeNode.bind fun opening ho => ?_
      exact (reads_expect _ _).bind fun close _ => Reads.of ho (by simp) rfl rfl
    · exact begins_listMatch.weaken (by simp +contextual)
    · exact begins_mappingMatch.weaken (by simp +contextual)
    · exact begins_errorMatch.weaken (by simp +contextual)
    · have hpos : 1 ≤ bound := hb (by assumption)
      exact reads_recoverAs trivial trivial (by simp) (fun _ ht => Reads.simpleName ht) hpos rfl
        rfl rfl

/-- A match pattern goes on with every token that it says it does. -/
theorem heeds_matchPatternAs (kind : Kind) :
    Heeds (fun k s => k = kind ∧ (Rule.request .matchPattern).continues k s = true)
      (matchPatternAs kind) := by
  unfold matchPatternAs
  split
  · exact opens_basicLiteral.begins.heedsWhere fun _ _ _ h => h
  · split
    · exact opens_negativeLiteral.begins.heedsWhere fun _ _ _ h => h
    · exact (begins_consumeNode.heedsWhere fun _ _ _ h => h).bindPure
    · exact (begins_consumeNode.heedsWhere fun _ _ _ h => h).bind reads_consumeNode fun var hv =>
        (reads_bindingAfterVar hv).weaken
    · exact (opens_nameReference false).begins.heedsWhere fun _ _ h _ => h.1
    · exact (begins_consumeNode.heedsWhere fun _ _ _ h => h).bind reads_consumeNode fun _ ho =>
        (reads_expect _ _).bind fun close _ => Reads.of ho (by simp) rfl rfl
    · exact begins_listMatch.heedsWhere fun _ _ _ h => h
    · exact begins_mappingMatch.heedsWhere fun _ _ _ h => h
    · exact begins_errorMatch.heedsWhere fun _ _ _ h => h
    · refine Heeds.unreachable ?_
      rintro _ _ ⟨rfl, h⟩
      simp_all [Rule.continues, Request.accepts, Request.overstates, Starts.matchPattern,
        Starts.matchPatternTokens]

end ParseM

end TolerantSyntax
