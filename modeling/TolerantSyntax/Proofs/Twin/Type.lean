import TolerantSyntax.Grammar.Action
import TolerantSyntax.Proofs.Parse.Type
import TolerantSyntax.Proofs.Twin.Name

/-!
# Types and actions in step

Whatever is read as a type suits the grammar of types: its kind is that of a type, also where the
type was put in.
-/

namespace TolerantSyntax

open Bracketed (Grammar)
open Node (PartTwin Twins)

namespace ParseM

variable {a b c d a' b' c' d' : Node} {m m' o o' : Option Node} {grammar? : Option Grammar}

/-! ## Suffixes and operators -/

theorem inStep_arrayDimension : InStep Node.Twin arrayDimension arrayDimension := by
  refine .within _ (inStep_consumeNode.bind fun _ _ ho => inStep_nextKind.same fun kind => ?_)
  refine .ite (fun _ => inStep_consumeNode.part.bind fun _ _ hl => ?_) fun _ =>
    .ite (fun _ => inStep_basicLiteral.twin.part.bind fun _ _ hl => ?_) fun _ =>
      .ite (fun _ => inStep_typeReference.name.part.bind fun _ _ hl => ?_) fun _ =>
        InStep.noPart.bind fun _ _ hl => ?_
  all_goals
    refine (inStep_expect _ _).bind fun _ _ hc => ?_
    exact .ofSlots rfl (by simp [ho, hl, hc])

/-- Dimensions and `?` are folded onto a type as long as they come next in both parses. -/
theorem inStep_typeSuffixes (options : TypeOptions) (h : a.TwinIn (some .type) b) :
    InStep (Node.TwinIn (some .type)) (typeSuffixes a options) (typeSuffixes b options) := by
  refine .loop h fun a b h => inStep_nextKind.same fun kind => ?_
  split
  · refine inStep_upcoming.same fun kinds => .ite (fun _ => .pure (.inr h)) fun _ => ?_
    refine inStep_arrayDimension.bind fun _ _ hd => .pure (.inl ?_)
    exact .of rfl rfl (by simp [h.toTwin, hd])
  · refine (inStep_kindAt 1).same fun second => .ite (fun _ => .pure (.inr h)) fun _ => ?_
    refine inStep_consumeNode.bind fun _ _ hm => .pure (.inl ?_)
    exact .of rfl rfl (by simp [h.toTwin, hm])
  · exact .pure (.inr h)

/-- A reference to the rule for primary types. -/
theorem inStep_primaryType (context : Context) :
    InStep (Node.TwinIn (some .type)) (primaryType context) (primaryType context) :=
  inStep_parse (.primaryType context)

/-- An operand of `|` or `&`, with its suffixes. -/
theorem inStep_typeOperand (options : TypeOptions) :
    InStep (Node.TwinIn (some .type)) (typeOperand options) (typeOperand options) :=
  (inStep_primaryType _).bind fun _ _ ht => inStep_typeSuffixes options ht

/-- Intersections are folded from the left. -/
theorem inStep_intersectionsAfter (options : TypeOptions) (h : a.TwinIn (some .type) b) :
    InStep (Node.TwinIn (some .type)) (intersectionsAfter a options)
      (intersectionsAfter b options) := by
  refine .loop h fun a b h => (inStep_isNext _).same fun _ => ?_
  refine .ite (fun _ => ?_) fun _ => .pure (.inr h)
  refine inStep_consumeNode.bind fun _ _ ho => (inStep_typeOperand _).bind fun _ _ ht => ?_
  exact .pure (.inl (.of rfl rfl (by simp [h.toTwin, ho, ht.toTwin])))

theorem inStep_unionsAfter (options : TypeOptions) (h : a.TwinIn (some .type) b) :
    InStep (Node.TwinIn (some .type)) (unionsAfter a options) (unionsAfter b options) := by
  refine .loop h fun a b h => (inStep_isNext _).same fun _ => ?_
  refine .ite (fun _ => ?_) fun _ => .pure (.inr h)
  refine inStep_consumeNode.bind fun _ _ ho => (inStep_typeOperand _).bind fun _ _ ht => ?_
  refine (inStep_intersectionsAfter options ht).bind fun _ _ hi => ?_
  exact .pure (.inl (.of rfl rfl (by simp [h.toTwin, ho, hi.toTwin])))

/-- All that can follow a primary type, by the three levels of it. -/
theorem inStep_typeAfter (options : TypeOptions) (h : a.TwinIn (some .type) b) :
    InStep (Node.TwinIn (some .type)) (typeAfter a options) (typeAfter b options) := by
  refine (inStep_typeSuffixes options h).bind fun _ _ hs => ?_
  exact (inStep_intersectionsAfter options hs).bind fun _ _ hi => inStep_unionsAfter options hi

/-- A type in some position, whatever its first token was taken for. -/
theorem inStep_typeDescriptorAs (kind : Kind) (context : Context) :
    InStep (Node.TwinIn (some .type)) (typeDescriptorAs kind context)
      (typeDescriptorAs kind context) :=
  (InStep.parseAs (.primaryType context) kind).bind fun _ _ ht => inStep_typeAfter _ ht

/-! ## Primary types -/

theorem inStep_typeParameter : InStep Node.Twin typeParameter typeParameter := by
  refine .within _ (inStep_consumeNode.bind fun _ _ ho => ?_)
  refine (inStep_typeDescriptor _).twin.bind fun _ _ ht => (inStep_expect _ _).bind fun _ _ hc => ?_
  exact .of rfl (by simp [ho, ht, hc])

theorem inStep_parameterizedType :
    InStep (Node.TwinIn (some .type)) parameterizedType parameterizedType := by
  refine inStep_consumeNode.bind fun _ _ hk => ?_
  refine (inStep_ifNext _ inStep_typeParameter).bind fun _ _ hp => ?_
  exact .pure (.ofSlots rfl rfl (by simp [hk, hp]))

theorem inStep_streamParameters : InStep Node.Twin streamParameters streamParameters := by
  refine .within _ (inStep_consumeNode.bind fun _ _ ho => ?_)
  refine (inStep_typeDescriptor _).twin.bind fun _ _ hv => (inStep_isNext _).same fun _ => ?_
  have hpair {o o' m m' : Option Node} (ho : PartTwin o o') (hm : PartTwin m m') :
      InStep (fun r r' => PartTwin r.1 r'.1 ∧ PartTwin r.2 r'.2) (pure (o, m)) (pure (o', m')) :=
    .pure ⟨ho, hm⟩
  refine .ite (fun _ => ?_) fun _ => (hpair .none .none).bind fun _ _ hp => ?_
  · refine inStep_consumeNode.bind fun _ _ hm => ?_
    refine (inStep_typeDescriptor _).twin.bind fun _ _ ht => ?_
    refine (hpair (.some hm) (.some ht)).bind fun _ _ hp => ?_
    refine (inStep_expect _ _).bind fun _ _ hc => ?_
    exact .ofSlots rfl (by simp [ho, hv, hp, hc])
  · exact (inStep_expect _ _).bind fun _ _ hc => .ofSlots rfl (by simp [ho, hv, hp, hc])

theorem inStep_streamType : InStep (Node.TwinIn (some .type)) streamType streamType := by
  refine inStep_consumeNode.bind fun _ _ hk => ?_
  refine (inStep_ifNext _ inStep_streamParameters).bind fun _ _ hp => ?_
  exact .pure (.ofSlots rfl rfl (by simp [hk, hp]))

theorem inStep_parenthesisedType :
    InStep (Node.TwinIn (some .type)) parenthesisedType parenthesisedType := by
  refine .within _ (inStep_consumeNode.bind fun _ _ ho => (inStep_isNext _).same fun _ => ?_)
  refine .ite (fun _ => ?_) fun _ => ?_
  · exact inStep_consumeNode.bind fun _ _ hc => .pure (.of rfl rfl (by simp [ho, hc]))
  · refine (inStep_typeDescriptor _).twin.bind fun _ _ ht => ?_
    exact (inStep_expect _ _).bind fun _ _ hc => .pure (.of rfl rfl (by simp [ho, ht, hc]))

/-- A type with `...` behind it is still a member of a tuple type. -/
theorem inStep_restTypeAfter (h : a.TwinIn (some .type) b) :
    InStep (Node.TwinIn (some .type)) (restTypeAfter a) (restTypeAfter b) := by
  refine (inStep_isNext _).same fun _ => .ite (fun _ => ?_) fun _ => .pure h
  exact inStep_consumeNode.bind fun _ _ he => .pure (.of rfl rfl (by simp [h.toTwin, he]))

/-- A member of a tuple type suits the grammar of types, with `...` and without. -/
theorem inStep_tupleMember : InStep (Node.TwinIn (some .type)) tupleMember tupleMember :=
  (inStep_typeDescriptor _).bind fun _ _ ht => inStep_restTypeAfter ht

/-- The members of a tuple type are types, if those that have been read are. -/
theorem inStep_tupleTypeAfter {last : Bool} {xs ys : List Node} (ho : a.Twin b)
    (hx : ItemTwins (some .type) false last xs ys) (hl : xs = [] ∨ last = true) :
    InStep (Node.TwinIn (some .type)) (tupleTypeAfter a xs) (tupleTypeAfter b ys) :=
  (inStep_delimitedAfter hx hl _ _ _ (by decide) inStep_tupleMember).bind fun _ _ hm =>
    .pure (.bracketed rfl rfl ho hm.list hm.items (hm.joins _ rfl) hm.close)

theorem inStep_singletonType : InStep (Node.TwinIn (some .type)) singletonType singletonType := by
  refine (inStep_isNext _).same fun _ => .ite (fun _ => ?_) fun _ => ?_
  · exact inStep_negativeLiteral.twin.bind fun _ _ hl => .pure (.of rfl rfl (.cons hl .nil))
  · exact inStep_basicLiteral.twin.bind fun _ _ hl => .pure (.of rfl rfl (.cons hl .nil))

/-! ## Records and objects -/

/-- Both parses tell the qualifier `readonly` from the type. -/
theorem inStep_qualifiesReadonly : InStep Eq qualifiesReadonly qualifiesReadonly := by
  refine (inStep_isNext _).same fun _ => .ite (fun _ => ?_) fun _ => .pure rfl
  refine (inStep_kindAt 1).same fun second => .ite (fun _ => ?_) fun _ => .pure rfl
  exact (inStep_kindAt 2).same fun _ => .pure rfl

/-- `*type;` among the fields of a record or the members of an object. -/
theorem inStep_typeInclusion (context : Context) :
    InStep Node.Twin (typeInclusion context) (typeInclusion context) := by
  refine inStep_consumeNode.bind fun _ _ ha => inStep_typeReference.name.bind fun _ _ ht => ?_
  exact (inStep_expect _ _).bind fun _ _ hs => .of rfl (by simp [ha, ht, hs])

/-- A field of a record type, with what has been read of it as twins. -/
theorem inStep_recordField : InStep Node.Twin recordField recordField :=
  inStep_metadata.bind fun _ _ hm => (inStep_resume (.recordField hm)).twin

theorem inStep_recordType : InStep (Node.TwinIn (some .type)) recordType recordType := by
  refine .within _ (inStep_consumeNode.bind fun _ _ hk => (inStep_isNext _).same fun closed => ?_)
  refine .ite (fun _ => inStep_consumeNode.bind fun _ _ ho => ?_) fun _ =>
    (inStep_expect _ _).bind fun _ _ ho => ?_
  all_goals
    refine (inStep_manyUntil _ inStep_recordField).bind fun _ _ hf => ?_
    exact (inStep_expect _ _).bind fun _ _ hc => .pure (.of rfl rfl (by simp [hk, ho, hf, hc]))

theorem inStep_qualifiesMember : InStep Eq qualifiesMember qualifiesMember := by
  refine inStep_nextKind.same fun kind => .ite (fun _ => ?_) fun _ => ?_
  · exact (inStep_isSecond _).same fun _ => .pure rfl
  · exact .ite (fun _ => inStep_qualifiesReadonly) fun _ => .pure rfl

/-- Tokens are consumed for as long as a test holds that both parses answer alike. -/
theorem inStep_consumeWhile {more : ParseM Bool} (h : InStep Eq more more) :
    InStep Twins (consumeWhile more) (consumeWhile more) := by
  refine .loop (R := Twins) .nil fun xs ys hx => h.same fun _ => ?_
  refine .ite (fun _ => ?_) fun _ => .pure (.inr hx)
  exact inStep_consumeNode.bind fun _ _ ht => .pure (.inl (List.rel_append hx (.cons ht .nil)))

/-- A member of a class or of an object type, with what has been read of it as twins. -/
theorem inStep_classMember (objectType : Bool) :
    InStep Node.Twin (classMember objectType) (classMember objectType) := by
  refine .within _ (inStep_metadata.bind fun _ _ hm => ?_)
  refine (inStep_consumeWhile inStep_qualifiesMember).bind fun _ _ hq => ?_
  exact (inStep_resume (.classMember hm hq objectType)).twin

theorem inStep_objectTypeAfter (h : a.Twin b) :
    InStep (Node.TwinIn (some .type)) (objectTypeAfter a) (objectTypeAfter b) := by
  refine .within _ ((inStep_expect _ _).bind fun _ _ hk => ?_)
  refine (inStep_expect _ _).bind fun _ _ ho => ?_
  refine (inStep_manyUntil _ (inStep_classMember true)).bind fun _ _ hm => ?_
  exact (inStep_expect _ _).bind fun _ _ hc => .pure (.of rfl rfl (by simp [h, hk, ho, hm, hc]))

theorem inStep_functionTypeAfter (h : a.Twin b) :
    InStep (Node.TwinIn (some .type)) (functionTypeAfter a) (functionTypeAfter b) := by
  refine .within _ (inStep_consumeNode.bind fun _ _ hk => ?_)
  refine (inStep_ifNext _ inStep_functionSignature).bind fun _ _ hs => ?_
  exact .pure (.ofSlots rfl rfl (by simp [h, hk, hs]))

/-- Qualifiers in front of an object or function type. -/
theorem inStep_qualifiedType : InStep (Node.TwinIn (some .type)) qualifiedType qualifiedType := by
  refine (inStep_many _ inStep_consumeNode).bind fun _ _ hq => (inStep_isNext _).same fun _ => ?_
  exact .ite (fun _ => inStep_functionTypeAfter (Qualifiers.twin_check _ hq)) fun _ =>
    inStep_objectTypeAfter (Qualifiers.twin_check _ hq)

/-! ## All together -/

/-- Every form of primary type, by the kind of its first token. -/
theorem inStep_primaryTypeAs (kind : Kind) (context : Context) :
    InStep (Node.TwinIn (some .type)) (primaryTypeAs kind context)
      (primaryTypeAs kind context) := by
  refine .ite (fun _ => inStep_parameterizedType) fun _ => .ite (fun _ => ?_) fun _ =>
    .ite (fun _ => inStep_singletonType) fun _ => ?_
  · exact inStep_consumeNode.bind fun _ _ hk => .pure (.of rfl rfl (.cons hk .nil))
  · split
    · exact inStep_streamType
    · exact inStep_recordType
    iterate 4 exact inStep_qualifiedType
    · refine inStep_consumeNode.bind fun _ _ hk => (inStep_primaryType _).twin.bind fun _ _ ht => ?_
      exact .pure (.of rfl rfl (by simp [hk, ht]))
    · exact inStep_typeReference.mono fun _ _ ht => ht.1
    · exact inStep_parenthesisedType
    · exact inStep_consumeNode.bind fun _ _ ho => inStep_tupleTypeAfter ho .nil (.inl rfl)
    · exact inStep_recoverAs (.primaryType context) (.typeDescriptor context) rfl fun _ _ ht =>
        .pure (nameTwin_simpleName ht).1

/-- Misplaced annotations become trivia of the first token, which both nodes have. -/
theorem twin_rejectAnnotations (h : a.Twin b) (ht : a.HasToken) (hm : PartTwin m m') :
    (rejectAnnotations a m).Twin (rejectAnnotations b m') := by
  cases hm with
  | none => exact h
  | some hm => exact h.withLeadingInvalid ht hm _

/-- The end of a field: a default value, `?` or neither. -/
theorem inStep_recordFieldAfter (hm : PartTwin m m') (hr : PartTwin o o') (ht : a.Twin a')
    (hn : b.Twin b') :
    InStep Node.Twin (recordFieldAfter m o a b) (recordFieldAfter m' o' a' b') := by
  refine (inStep_isNext _).same fun _ => .ite (fun _ => ?_) fun _ => ?_
  · refine inStep_consumeNode.bind fun _ _ he => inStep_value.twin.bind fun _ _ hv => ?_
    exact (inStep_expect _ _).bind fun _ _ hs => .ofSlots rfl (by simp [hm, hr, ht, hn, he, hv, hs])
  · refine (inStep_optional _).bind fun _ _ hq => (inStep_expect _ _).bind fun _ _ hs => ?_
    exact .ofSlots rfl (by simp [hm, hr, ht, hn, hq, hs])

/-- A field drops its metadata in both parses where it is one with `...`. -/
theorem inStep_recordFieldAs (kind : Kind) (hm : PartTwin m m') :
    InStep Node.Twin (recordFieldAs kind m) (recordFieldAs kind m') := by
  refine .ite (fun _ => ?_) fun _ => .ite (fun _ => .within _ ?_) fun _ => ?_
  · refine ((inStep_typeInclusion _).knowing (opens_typeInclusion _).reads).bind fun _ _ h => ?_
    exact .pure (twin_rejectAnnotations h.1 h.2 hm)
  · refine inStep_qualifiesReadonly.same fun _ =>
      .ite (fun _ => inStep_consumeNode.part.bind fun _ _ hr => ?_) fun _ =>
        InStep.noPart.bind fun _ _ hr => ?_
    all_goals
      refine (inStep_typeDescriptor _).twin.bind fun _ _ ht => (inStep_isNext _).same fun _ => ?_
      refine .ite (fun _ => ?_) fun _ => ?_
      · refine inStep_consumeNode.bind fun _ _ he => (inStep_expect _ _).bind fun _ _ hs => ?_
        exact .of rfl (by simp [ht, he, hs])
      · exact (inStep_expect _ _).bind fun _ _ hn => inStep_recordFieldAfter hm hr ht hn
  · exact (inStep_recoverOver (.recordField hm)).twin

/-! ## Actions -/

/-- An action is flagged in both parses or in neither. -/
theorem twinIn_checkAction (flags : ExpressionFlags) (h : a.TwinIn grammar? b) :
    (checkAction a flags).TwinIn grammar? (checkAction b flags) := by
  unfold checkAction
  split
  · exact h
  · exact h.withDiagnostic _

theorem inStep_peerWorker (context : Context) :
    InStep Node.Twin (peerWorker context) (peerWorker context) := by
  refine (inStep_isNext _).same fun _ => .ite (fun _ => ?_) fun _ => ?_
  · exact inStep_consumeNode.bind fun _ _ hn => .pure (nameTwin_simpleName hn).1.toTwin
  · exact (inStep_expect _ _).bind fun _ _ hn => .pure (nameTwin_simpleName hn).1.toTwin

theorem inStep_remoteCallAfter (ht : a.Twin a') (ha : b.Twin b') :
    InStep (Node.TwinIn (some .expression)) (remoteCallAfter a b) (remoteCallAfter a' b') := by
  refine .within _ (inStep_consumeNode.bind fun _ _ hn => inStep_arguments.bind fun _ _ hi => ?_)
  have hname := (nameTwin_simpleName hn).1.toTwin
  exact .pure (.ofItems rfl rfl rfl rfl hi.items
    (by simp [ht, ha, hname, hi.opening, hi.list, hi.close]))

/-- An arrow begins a call if a name and a parenthesis follow it, which both parses see. -/
theorem inStep_remoteCallOrSend (flags : ExpressionFlags) (ht : a.Twin b) :
    InStep (Node.TwinIn (some .expression)) (remoteCallOrSend a flags)
      (remoteCallOrSend b flags) := by
  refine (inStep_kindAt 1).same fun second => (inStep_kindAt 2).same fun third => ?_
  refine (InStep.pure rfl).same fun isCall => inStep_consumeNode.bind fun _ _ ha => ?_
  refine .ite (fun _ => ?_) fun _ => ?_
  · exact (inStep_remoteCallAfter ht ha).bind fun _ _ hc => .pure (twinIn_checkAction flags hc)
  · refine (inStep_peerWorker _).bind fun _ _ hp => ?_
    exact .pure (twinIn_checkAction flags (.of rfl rfl (by simp [ht, ha, hp])))

theorem inStep_syncSend (flags : ExpressionFlags) (ht : a.Twin b) :
    InStep (Node.TwinIn (some .expression)) (syncSend a flags) (syncSend b flags) := by
  refine inStep_consumeNode.bind fun _ _ ha => (inStep_peerWorker _).bind fun _ _ hp => ?_
  exact .pure (twinIn_checkAction flags (.of rfl rfl (by simp [ht, ha, hp])))

theorem inStep_receiveAction (flags : ExpressionFlags) :
    InStep (Node.TwinIn (some .expression)) (receiveAction flags) (receiveAction flags) := by
  refine inStep_consumeNode.bind fun _ _ ha => (inStep_peerWorker _).bind fun _ _ hp => ?_
  exact .pure (twinIn_checkAction flags (.of rfl rfl (by simp [ha, hp])))

theorem inStep_startActionAfter (flags : ExpressionFlags) (hm : PartTwin m m') :
    InStep (Node.TwinIn (some .expression)) (startActionAfter m flags)
      (startActionAfter m' flags) := by
  refine .within _ ((inStep_expect _ _).bind fun _ _ hk => ?_)
  refine (inStep_expression _ _).twin.bind fun _ _ hc => ?_
  exact .pure (twinIn_checkAction flags (.ofSlots rfl rfl (by simp [hm, hk, hc])))

theorem inStep_startAction (flags : ExpressionFlags) :
    InStep (Node.TwinIn (some .expression)) (startAction flags) (startAction flags) :=
  inStep_metadata.bind fun _ _ hm => inStep_startActionAfter flags hm

/-- `name` or `name: future`, an item of the list of fields. -/
theorem inStep_waitField : InStep (Node.TwinIn none) waitField waitField := by
  refine (inStep_expect _ _).bind fun _ _ hn => (inStep_isNext _).same fun _ => ?_
  have hname := (nameTwin_simpleName hn).1.toTwin
  refine .ite (fun _ => ?_) fun _ => .pure (.ofSlots rfl rfl (by simp [hname]))
  refine inStep_consumeNode.bind fun _ _ hc => inStep_value.twin.bind fun _ _ hv => ?_
  exact .pure (.of rfl rfl (by simp [hname, hc, hv]))

/-- `{ fields }` to wait for, with commas between them. -/
theorem inStep_waitFields : InStep Node.Twin waitFields waitFields := by
  refine inStep_consumeNode.bind fun _ _ ho => ?_
  refine (inStep_delimited _ _ _ (by decide) inStep_waitField).bind fun _ _ hf => ?_
  exact .pure (.ofItems rfl rfl rfl hf.items (by simp [ho, hf.list, hf.close]))

/-- Futures with `|` between them are a list only if there is more than one. -/
theorem inStep_waitAlternates : InStep Node.Twin waitAlternates waitAlternates := by
  refine (inStep_separated _ (inStep_expression _ _).twin).bind fun xs ys hx => ?_
  rcases hx with _ | ⟨hx, _ | ⟨hy, hz⟩⟩
  · exact .of rfl (.cons (.list .nil) .nil)
  · exact .pure hx
  · exact .of rfl (.cons (.list (.cons hx (.cons hy hz))) .nil)

theorem inStep_waitAction (flags : ExpressionFlags) :
    InStep (Node.TwinIn (some .expression)) (waitAction flags) (waitAction flags) := by
  refine .within _ (inStep_consumeNode.bind fun _ _ hk => (inStep_isNext _).same fun _ => ?_)
  refine .ite (fun _ => inStep_waitFields.bind fun _ _ hf => ?_) fun _ =>
    inStep_waitAlternates.bind fun _ _ hf => ?_
  all_goals exact .pure (twinIn_checkAction flags (.of rfl rfl (by simp [hk, hf])))

theorem inStep_flushAction (flags : ExpressionFlags) :
    InStep (Node.TwinIn (some .expression)) (flushAction flags) (flushAction flags) := by
  refine inStep_consumeNode.bind fun _ _ hk => inStep_nextKind.same fun kind => ?_
  refine .ite (fun _ => (inStep_peerWorker _).part.bind fun _ _ hp => ?_) fun _ =>
    InStep.noPart.bind fun _ _ hp => ?_
  all_goals exact .pure (twinIn_checkAction flags (.ofSlots rfl rfl (by simp [hk, hp])))

theorem inStep_commitAction (flags : ExpressionFlags) :
    InStep (Node.TwinIn (some .expression)) (commitAction flags) (commitAction flags) :=
  inStep_consumeNode.bind fun _ _ hk =>
    .pure (twinIn_checkAction flags (.of rfl rfl (.cons hk .nil)))

end ParseM

end TolerantSyntax
