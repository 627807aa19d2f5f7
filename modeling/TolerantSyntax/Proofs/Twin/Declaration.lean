import TolerantSyntax.Grammar.Declaration
import TolerantSyntax.Proofs.Parse.Declaration
import TolerantSyntax.Proofs.Twin.Member
import TolerantSyntax.Proofs.Twin.Assignment

/-!
# Declarations in step

In an import path words are read again in another mode, which keeps what is ahead alike.
-/

namespace TolerantSyntax.ParseM

open Node (PartTwin Twins)

variable {a b : Node} {m m' : Option Node} {xs ys : List Node}

/-! ## Imports -/

/-- `organisation/`, which both parses find or do not find. -/
theorem inStep_importOrganisation : InStep PartTwin importOrganisation importOrganisation := by
  refine (inStep_isNext _).same fun _ => (inStep_isSecond _).same fun _ => ?_
  refine .ite (fun _ => inStep_consumeNode.bind fun _ _ hn => ?_) fun _ => .noPart
  exact inStep_consumeNode.bind fun _ _ hs => .pure (.some (.of rfl (by simp [hn, hs])))

theorem inStep_importAlias : InStep Node.Twin importAlias importAlias :=
  inStep_consumeNode.bind fun _ _ hk => (inStep_expect _ _).bind fun _ _ hn =>
    .of rfl (by simp [hk, hn])

/-- What stands between `import` and the semicolon. -/
structure ImportTwin (r r' : Option Node × List Node × Option Node) : Prop where
  organisation : PartTwin r.1 r'.1
  names : Twins r.2.1 r'.2.1
  importedAs : PartTwin r.2.2 r'.2.2

/-- `import path as name;`, in the mode of import paths from the keyword to the semicolon. -/
theorem inStep_importDeclaration : InStep Node.Twin importDeclaration importDeclaration := by
  refine .within _ ((inStep_expect _ _).bind fun _ _ hk => ?_)
  refine InStep.bind (R := ImportTwin) (.withMode _ ?_) fun _ _ h => ?_
  · refine inStep_importOrganisation.bind fun _ _ ho => ?_
    refine (inStep_separated _ (inStep_expect _ _)).bind fun _ _ hn => ?_
    exact (inStep_ifNext _ inStep_importAlias).bind fun _ _ ha => .pure ⟨ho, hn, ha⟩
  · refine (inStep_expect _ _).bind fun _ _ hs => ?_
    exact .ofSlots rfl (by
      simp [hk, h.organisation, Node.Twin.list h.names, h.importedAs, hs])

/-! ## Functions, constants and types -/

theorem inStep_functionAfter (hm : PartTwin m m') (hq : Twins xs ys) :
    InStep Node.Twin (functionAfter m xs) (functionAfter m' ys) := by
  have hchecked := Qualifiers.twin_check Qualifiers.ofFunction hq
  refine .within _ (inStep_consumeNode.bind fun _ _ hk => (inStep_expect _ _).bind fun _ _ hn => ?_)
  refine inStep_functionSignature.bind fun _ _ hs => inStep_functionBody.bind fun _ _ hb => ?_
  exact .ofSlots rfl (by simp [hm, hchecked, hk, hn, hs, hb])

/-- Both parses see that a constant has no type. -/
theorem inStep_isNameEqual : InStep Eq isNameEqual isNameEqual :=
  (inStep_isNext _).same fun _ => (inStep_isSecond _).same fun _ => .pure rfl

theorem inStep_constantAfter (hm : PartTwin m m') (hq : Twins xs ys) :
    InStep Node.Twin (constantAfter m xs) (constantAfter m' ys) := by
  have hchecked := Qualifiers.twin_check Qualifiers.publicOnly hq
  refine .within _ (inStep_consumeNode.bind fun _ _ hk => inStep_isNameEqual.same fun _ => ?_)
  refine inStep_nextKind.same fun kind => (InStep.pure rfl).same fun isTyped => ?_
  refine .ite (fun _ => (inStep_typeDescriptor _).twin.part.bind fun _ _ ht => ?_) fun _ =>
    InStep.noPart.bind fun _ _ ht => ?_
  all_goals
    refine (inStep_expect _ _).bind fun _ _ hn => (inStep_expect _ _).bind fun _ _ he => ?_
    refine inStep_value.twin.bind fun _ _ hv => (inStep_expect _ _).bind fun _ _ hs => ?_
    exact .ofSlots rfl (by simp [hm, hchecked, hk, ht, hn, he, hv, hs])

theorem inStep_typeDefinitionAfter (hm : PartTwin m m') (hq : Twins xs ys) :
    InStep Node.Twin (typeDefinitionAfter m xs) (typeDefinitionAfter m' ys) := by
  have hchecked := Qualifiers.twin_check Qualifiers.publicOnly hq
  refine .within _ (inStep_consumeNode.bind fun _ _ hk => (inStep_expect _ _).bind fun _ _ hn => ?_)
  refine (inStep_typeDescriptor _).twin.bind fun _ _ ht => (inStep_expect _ _).bind fun _ _ hs => ?_
  exact .ofSlots rfl (by simp [hm, hchecked, hk, hn, ht, hs])

theorem inStep_classAfter (hm : PartTwin m m') (hq : Twins xs ys) :
    InStep Node.Twin (classAfter m xs) (classAfter m' ys) := by
  have hchecked := Qualifiers.twin_check Qualifiers.ofClass hq
  refine .within _ (inStep_consumeNode.bind fun _ _ hk => (inStep_expect _ _).bind fun _ _ hn => ?_)
  refine (inStep_expect _ _).bind fun _ _ ho => inStep_classMembers.bind fun _ _ hb => ?_
  exact (inStep_expect _ _).bind fun _ _ hc =>
    .ofSlots rfl (by simp [hm, hchecked, hk, hn, ho, hb, hc])

/-! ## Enumerations -/

/-- A member of an enumeration is an item of the list of them. -/
theorem inStep_enumMember : InStep (Node.TwinIn none) enumMember enumMember := by
  refine .within _ (inStep_metadata.bind fun _ _ hm => (inStep_expect _ _).bind fun _ _ hn => ?_)
  exact inStep_fieldValue.bind fun _ _ hv =>
    .pure (.ofSlots rfl rfl (by simp [hm, hn, hv.1, hv.2]))

/-- `enum name { members }`, with commas between the members. -/
theorem inStep_enumAfter (hm : PartTwin m m') (hq : Twins xs ys) :
    InStep Node.Twin (enumAfter m xs) (enumAfter m' ys) := by
  have hchecked := Qualifiers.twin_check Qualifiers.publicOnly hq
  refine .within _ (inStep_consumeNode.bind fun _ _ hk => (inStep_expect _ _).bind fun _ _ hn => ?_)
  refine (inStep_expect _ _).bind fun _ _ ho => ?_
  refine (inStep_delimited _ _ _ (by decide) inStep_enumMember).bind fun _ _ hl => ?_
  exact .pure (.ofItems rfl rfl rfl hl.items
    (by simp [hm, hchecked, hk, hn, ho, hl.list, hl.close]))

/-! ## Annotations -/

theorem inStep_attachPoint : InStep Node.Twin attachPoint attachPoint := by
  refine (inStep_optional _).bind fun _ _ hs => ?_
  refine (inStep_many _ inStep_consumeNode).bind fun xs ys hw => ?_
  have hempty : xs.isEmpty = ys.isEmpty := by cases hw <;> rfl
  rw [hempty]
  refine .ite (fun _ => (inStep_expect _ _).bind fun _ _ hn => ?_) fun _ =>
    (InStep.pure hw).bind fun _ _ hw => ?_
  · exact (InStep.pure (R := Twins) (.cons hn .nil)).bind fun _ _ hw =>
      .ofSlots rfl (by simp [hs, Node.Twin.list hw])
  · exact .ofSlots rfl (by simp [hs, Node.Twin.list hw])

/-- `on` and those words, both or none of the two parts. -/
theorem inStep_attachPoints : InStep PartsTwin attachPoints attachPoints := by
  refine (inStep_isNext _).same fun _ => .ite (fun _ => ?_) fun _ => .pure ⟨.none, .none⟩
  refine inStep_consumeNode.bind fun _ _ hk => ?_
  refine InStep.bind (.within _ (inStep_separated _ inStep_attachPoint)) fun _ _ hp => ?_
  exact .pure ⟨.some hk, .some (.list hp)⟩

theorem inStep_annotationAfter (hm : PartTwin m m') (hq : Twins xs ys) :
    InStep Node.Twin (annotationAfter m xs) (annotationAfter m' ys) := by
  have hchecked := Qualifiers.twin_check Qualifiers.publicOnly hq
  refine .within _ (inStep_consumeNode.bind fun _ _ hk => (inStep_kindAt _).same fun second => ?_)
  refine (inStep_isNext _).same fun _ => (InStep.pure rfl).same fun isUntyped => ?_
  refine .ite (fun _ => InStep.noPart.bind fun _ _ ht => ?_) fun _ =>
    (inStep_typeDescriptor _).twin.part.bind fun _ _ ht => ?_
  all_goals
    refine (inStep_expect _ _).bind fun _ _ hn => inStep_attachPoints.bind fun _ _ hp => ?_
    exact (inStep_expect _ _).bind fun _ _ hs =>
      .ofSlots rfl (by simp [hm, hchecked, hk, ht, hn, hp.1, hp.2, hs])

/-! ## Listeners and services -/

theorem inStep_listenerAfter (hm : PartTwin m m') (hq : Twins xs ys) :
    InStep Node.Twin (listenerAfter m xs) (listenerAfter m' ys) := by
  have hchecked := Qualifiers.twin_check Qualifiers.publicOnly hq
  refine .within _ (inStep_consumeNode.bind fun _ _ hk => inStep_isNameEqual.same fun _ => ?_)
  refine .ite (fun _ => InStep.noPart.bind fun _ _ ht => ?_) fun _ =>
    (inStep_typeDescriptor _).twin.part.bind fun _ _ ht => ?_
  all_goals
    refine (inStep_expect _ _).bind fun _ _ hn => (inStep_expect _ _).bind fun _ _ he => ?_
    refine inStep_value.twin.bind fun _ _ hv => (inStep_expect _ _).bind fun _ _ hs => ?_
    exact .ofSlots rfl (by simp [hm, hchecked, hk, ht, hn, he, hv, hs])

theorem inStep_serviceSegments : InStep Twins serviceSegments serviceSegments := by
  refine .loop (R := Twins) .nil fun xs ys hx => (inStep_isNext _).same fun _ => ?_
  refine .ite (fun _ => inStep_consumeNode.bind fun _ _ hs => ?_) fun _ => .pure (.inr hx)
  refine (inStep_optional _).bind fun _ _ hn => .pure (.inl (List.rel_append hx ?_))
  exact .cons hs (Node.twins_toList hn)

/-- A path, or a string in place of it. -/
theorem inStep_servicePath : InStep PartTwin servicePath servicePath := by
  refine inStep_nextKind.same fun kind => ?_
  split
  · exact inStep_consumeNode.bind fun _ _ hp => .pure (.some (.list (.cons hp .nil)))
  · exact .within _ (inStep_serviceSegments.bind fun _ _ hs => .pure (.some (.list hs)))
  · exact .noPart

theorem inStep_serviceType : InStep PartTwin serviceType serviceType :=
  inStep_nextKind.same fun _ =>
    .ite (fun _ => (inStep_typeDescriptor _).twin.part) fun _ => .noPart

theorem inStep_serviceAfter (hm : PartTwin m m') (hq : Twins xs ys) :
    InStep Node.Twin (serviceAfter m xs) (serviceAfter m' ys) := by
  have hchecked := Qualifiers.twin_check Qualifiers.ofService hq
  refine .within _ (inStep_consumeNode.bind fun _ _ hk => inStep_serviceType.bind fun _ _ ht => ?_)
  refine inStep_servicePath.bind fun _ _ hp => (inStep_expect _ _).bind fun _ _ hon => ?_
  refine (inStep_separated _ inStep_value.twin).bind fun _ _ hl => ?_
  refine (inStep_expect _ _).bind fun _ _ ho => inStep_classMembers.bind fun _ _ hb => ?_
  exact (inStep_expect _ _).bind fun _ _ hc =>
    .ofSlots rfl (by simp [hm, hchecked, hk, ht, hp, hon, Node.Twin.list hl, ho, hb, hc])

/-! ## Members of a module -/

/-- Both parses see as far ahead as `class`, so they agree on what qualifies it. -/
theorem inStep_qualifiesDeclaration : InStep Eq qualifiesDeclaration qualifiesDeclaration := by
  refine inStep_nextKind.same fun kind => .ite (fun _ => .pure rfl) fun _ =>
    .ite (fun _ => ?_) fun _ => .pure rfl
  exact inStep_upcoming.same fun kinds => .pure rfl

theorem inStep_moduleMember : InStep Node.Twin moduleMember moduleMember := by
  refine .within _ (inStep_metadata.bind fun _ _ hm => ?_)
  refine (inStep_consumeWhile inStep_qualifiesDeclaration).bind fun _ _ hq => ?_
  exact (inStep_resume (.moduleMember hm hq)).twin

/-- Whatever declaration a keyword begins, it is read in step. -/
theorem inStep_keywordDeclaration? {kind : Kind}
    {declaration : Option Node → List Node → ParseM Node}
    (h : keywordDeclaration? kind = some declaration) (hm : PartTwin m m') (hq : Twins xs ys) :
    InStep Node.Twin (declaration m xs) (declaration m' ys) := by
  unfold keywordDeclaration? at h
  split at h <;> cases h
  · exact inStep_constantAfter hm hq
  · exact inStep_typeDefinitionAfter hm hq
  · exact inStep_classAfter hm hq
  · exact inStep_enumAfter hm hq
  · exact inStep_annotationAfter hm hq
  · exact inStep_listenerAfter hm hq
  · exact inStep_serviceAfter hm hq

/-- A late import drops metadata and qualifiers in both parses. -/
theorem inStep_lateImport (hm : PartTwin m m') (hq : Twins xs ys) :
    InStep Node.Twin (lateImport m xs) (lateImport m' ys) := by
  refine (inStep_importDeclaration.knowing opens_importDeclaration.reads).bind fun _ _ h => ?_
  have hlate := h.1.withDiagnostic .importAfterDeclaration
  have ht : Node.HasToken (.withDiagnostic _ .importAfterDeclaration) :=
    Node.hasToken_withDiagnostic.mpr h.2
  have hrejected := Qualifiers.twin_reject hlate ht hq
  exact .pure (twin_rejectAnnotations hrejected (Qualifiers.becomes_reject ht _).2 hm)

theorem inStep_moduleVariable (hm : PartTwin m m') (hq : Twins xs ys) :
    InStep Node.Twin (moduleVariable m xs) (moduleVariable m' ys) := by
  have hchecked := (Qualifiers.twin_check Qualifiers.ofVariable hq).children
  refine .within _ (inStep_typedBinding.twin.bind fun _ _ hb => ?_)
  exact (inStep_resume (.variableRhs hm hchecked hb true)).twin

/-- Every form of declaration, by the kind of its first token and a look at the second. -/
theorem inStep_moduleMemberAs (kind : Kind) (hm : PartTwin m m') (hq : Twins xs ys) :
    InStep Node.Twin (moduleMemberAs kind m xs) (moduleMemberAs kind m' ys) := by
  refine (inStep_isSecond _).same fun _ => .ite (fun _ => inStep_functionAfter hm hq) fun _ =>
    .ite (fun _ => inStep_lateImport hm hq) fun _ => ?_
  split
  · next h => exact inStep_keywordDeclaration? h hm hq
  · exact .ite (fun _ => inStep_moduleVariable hm hq) fun _ =>
      (inStep_recoverOver (.moduleMember hm hq)).twin

end TolerantSyntax.ParseM
