import TolerantSyntax.Grammar.Member
import TolerantSyntax.Proofs.Parse.Function

/-!
# Members of classes and object types
-/

namespace TolerantSyntax

namespace ParseM

variable {start : Kind → Prop} {bound : Nat}

/-- What is read behind qualifiers that have been checked. -/
theorem Meets.checked {m : ParseM Node} {moves : Node → Prop} {metadata : Option Node}
    {qualifiers : List Node} (allowed : List Kind)
    (h : Enters start bound [metadata, some (Qualifiers.check allowed qualifiers)] m .node moves) :
    Enters start bound (metadata :: qualifiers.map some) m .node moves :=
  Meets.before ((Qualifiers.becomes_check allowed qualifiers).cons metadata) h

/-- Qualifiers become a list, in which some are flagged. -/
theorem Accepts.checked {m : ParseM Node} {metadata : Option Node} {qualifiers : List Node}
    (allowed : List Kind)
    (h : Accepts start bound [metadata, some (Qualifiers.check allowed qualifiers)] m .node) :
    Accepts start bound (metadata :: qualifiers.map some) m .node :=
  h.before ((Qualifiers.becomes_check allowed qualifiers).cons metadata)

/-! ## Resource paths -/

theorem reads_pathParameter : Reads 4 [] pathParameter .node := by
  refine reads_consumeNode.bind fun opening ho => ?_
  refine (reads_typeDescriptor _).bind fun type ht => ?_
  refine (reads_restTypeAfter ht).bindOn [some opening] rfl fun type _ => ?_
  refine (reads_optional (by decide)).bind fun name _ => ?_
  exact (reads_expect _ _).bind fun close _ => Reads.ofSlots ho (by simp) rfl rfl

/-- A parameter in brackets, or a name that may be put in. -/
theorem reads_pathSegment : Reads 4 [] pathSegment .node :=
  Meets.isNext reads_pathParameter.weaken (reads_expect _ _).weaken

/-- Each turn consumes a slash, so the segments end. -/
theorem reads_pathSegments : Reads 4 [] pathSegments .items := by
  refine looks_nextKind.meets fun kind => ?_
  split
  · exact reads_consumeNode.bind fun dot _ => Reads.pure trivial rfl
  · exact Reads.pure trivial rfl
  · have h : Reads 4 [] (separated .slash pathSegment) .items :=
      Meets.after (reads_separated (by decide) reads_pathSegment) fun _ _ => ⟨.refl _, trivial⟩
    exact h.weaken

theorem reads_resourcePath : Reads 4 [] resourcePath .node := by
  refine Meets.within ((reads_expect _ _).bind fun accessor ha => ?_)
  refine reads_pathSegments.bind fun segments _ => ?_
  exact Meets.before ((Row.Becomes.group .list _ rfl).append_left [some accessor])
    (Reads.of ha (by simp) rfl rfl)

/-! ## Members -/

/-- A method may have a path, and a body only outside of object types. -/
theorem begins_methodAfter (metadata : Option Node) (qualifiers : List Node) (objectType : Bool) :
    Begins HasNext (metadata :: qualifiers.map some) (methodAfter metadata qualifiers objectType)
      .node := by
  refine Meets.within (Meets.checked Qualifiers.ofMethod ?_)
  refine begins_consumeNode.bind fun keyword hk => ?_
  extract_lets rest
  have hrest (name : Node) : Reads Rule.maxRank
      [metadata, some (Qualifiers.check Qualifiers.ofMethod qualifiers), some keyword, some name]
      (rest name) .node := by
    refine opens_functionSignature.reads.bind fun signature _ => ?_
    split
    · exact (reads_expect _ _).bind fun semicolon _ => Reads.ofSlots hk (by simp) rfl rfl
    · exact reads_functionBody.bind fun body _ => Reads.ofSlots hk (by simp) rfl rfl
  split
  · exact reads_resourcePath.bind fun name _ => hrest name
  · exact (reads_expect _ _).bind fun name _ => hrest name

/-- `=` and the value, or two empty slots. -/
theorem reads_fieldValue : Reads 4 [] fieldValue .slots := by
  refine Meets.isNext ?_ Reads.noParts.weaken
  refine reads_consumeNode.bind fun equal _ => ?_
  exact reads_value.bind fun value _ => Reads.pure trivial rfl

/-- A field goes on with what begins its type. -/
theorem accepts_objectFieldAfter (metadata : Option Node) (qualifiers : List Node) :
    Accepts (fun k => Starts.type k = true) 4 (metadata :: qualifiers.map some)
      (objectFieldAfter metadata qualifiers) .node := by
  refine Accepts.within (Accepts.checked Qualifiers.ofField ?_)
  refine (accepts_typeDescriptor _).bind fun type ht => (reads_expect _ _).bind fun name _ => ?_
  refine reads_fieldValue.bind fun ⟨equal, value⟩ _ => ?_
  exact (reads_expect _ _).bind fun semicolon _ => Reads.ofSlots ht (by simp) rfl rfl

/-- An inclusion takes neither metadata nor qualifiers: they become trivia of it. -/
theorem meets_classMemberAs {kind : Kind} (metadata : Option Node) (qualifiers : List Node)
    (objectType : Bool) (hb : 4 ≤ bound) (hb' : kind ≠ .identifier → 5 ≤ bound) :
    Enters (fun k => k = kind ∨ kind = .identifier) bound (metadata :: qualifiers.map some)
      (classMemberAs kind metadata qualifiers objectType) .node (fun _ => False) := by
  have : AtMost 4 bound := ⟨hb⟩
  unfold classMemberAs
  split
  · refine (opens_typeInclusion _).reads.bind fun inclusion hi => ?_
    obtain ⟨hrow, ht⟩ := Qualifiers.becomes_reject hi qualifiers
    obtain ⟨hrow', ht'⟩ := becomes_rejectAnnotations ht metadata
    exact Meets.pure ((hrow.cons metadata).trans hrow') ht' id
  · split
    · next hk =>
      cases beq_iff_eq.mp hk
      exact (begins_methodAfter metadata qualifiers objectType).weaken (by simp +contextual)
    · split
      · exact (accepts_objectFieldAfter metadata qualifiers).reads.weaken
      · next htype =>
        have hne : kind ≠ .identifier := by
          rintro rfl
          exact htype rfl
        exact reads_recoverOver trivial (by simp) (hb' hne) rfl

/-- A member goes on with what it says, qualifiers and annotations apart. -/
theorem heeds_classMemberAs (kind : Kind) (metadata : Option Node) (qualifiers : List Node)
    (objectType : Bool) :
    Heeds (fun k s => k = kind ∧
        (Rule.request (.classMember metadata qualifiers objectType)).continues k s = true)
      (classMemberAs kind metadata qualifiers objectType) := by
  unfold classMemberAs
  split
  · exact ((opens_typeInclusion _).begins.heedsWhere fun _ _ _ h => h).bindPure
  · split
    · exact (begins_methodAfter metadata qualifiers objectType).heedsWhere fun _ _ _ h => h
    · split
      · next htype =>
        exact (accepts_objectFieldAfter metadata qualifiers).heeds.mono fun k s h => h.1 ▸ htype
      · refine Heeds.unreachable ?_
        rintro _ _ ⟨rfl, h⟩
        simp_all [Rule.continues, Request.accepts, Request.overstates, Starts.classMember,
          Starts.classMemberTokens, memberQualifiers]

theorem asks_classMemberAs (kind : Kind) (metadata : Option Node) (qualifiers : List Node)
    (objectType : Bool) :
    Asks (fun _ s => Request.overstates (.classMember metadata qualifiers objectType) kind s = true)
      (classMemberAs kind metadata qualifiers objectType) := by
  have hnever {kind : Kind} (h : (kind == .atSign || memberQualifiers.contains kind) = true) :
      kind ≠ .asterisk ∧ kind ≠ .functionKeyword ∧ Starts.type kind = false := by
    simp only [memberQualifiers, List.contains_eq_mem, List.mem_cons, List.not_mem_nil, or_false,
      Bool.or_eq_true, beq_iff_eq, decide_eq_true_eq] at h
    rcases h with rfl | rfl | rfl | rfl | rfl | rfl | rfl <;> decide
  unfold classMemberAs
  split
  · next hk => exact Asks.unreachable fun _ _ h => (hnever h).1 (beq_iff_eq.mp hk)
  · split
    · next hk => exact Asks.unreachable fun _ _ h => (hnever h).2.1 (beq_iff_eq.mp hk)
    · split
      · next hk =>
        exact Asks.unreachable fun _ _ h => Bool.false_ne_true ((hnever h).2.2.symm.trans hk)
      · exact asks_recoverOver trivial

theorem reads_classMembers : Reads 6 [] classMembers .piece :=
  reads_manyUntil (reads_classMember false)

end ParseM

end TolerantSyntax
