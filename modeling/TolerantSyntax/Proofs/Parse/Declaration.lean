import TolerantSyntax.Grammar.Declaration
import TolerantSyntax.Proofs.Parse.Assignment
import TolerantSyntax.Proofs.Parse.Member

/-!
# Declarations of a module
-/

namespace TolerantSyntax

namespace Yield

/-- The organisation of an import, its names and its prefix. -/
def imported : Yield (Option Node × List Node × Option Node) :=
  ⟨fun parts => [parts.1] ++ parts.2.1.map some ++ [parts.2.2], fun _ => True⟩

/-- Two parts, both there or both left out. -/
def together : Yield (Option Node × Option Node) :=
  ⟨fun parts => [parts.1, parts.2], fun parts => parts.1.isSome = parts.2.isSome⟩

end Yield

namespace ParseM

variable {bound : Nat}

/-! ## Imports -/

/-- Nothing is read unless a slash stands behind the name. -/
theorem reads_importOrganisation : Reads 0 [] importOrganisation .slot := by
  refine (looks_isNext _).meets fun isName => (looks_isSecond _).meets fun isSlash => ?_
  split
  · refine reads_consumeNode.bind fun name _ => reads_consumeNode.bind fun slash _ => ?_
    exact Meets.pure (.group .importOrgName [some name, some slash] rfl) trivial id
  · exact Reads.noPart.weaken

theorem begins_importAlias : Begins HasNext [] importAlias .node :=
  begins_consumeNode.bind fun _ hk => (reads_expect _ _).bind fun _ _ =>
    Reads.of hk (by simp) rfl rfl

/-- An import begins with its keyword, and refers to no other rule at all. -/
theorem opens_importDeclaration : Opens (· = .importKeyword) 0 [] importDeclaration .node := by
  refine Opens.within ((opens_expect (by decide) _).bind fun keyword hk => ?_)
  have hpath : Reads 0 []
      (do
        let organisation ← importOrganisation
        let names ← separated .dot (expect .identifier .importModuleName)
        return (organisation, names, ← ifNext .asKeyword importAlias)) .imported := by
    refine reads_importOrganisation.bind fun organisation _ => ?_
    refine (reads_separated (by decide) (reads_expect _ _)).bind fun names _ => ?_
    exact (reads_ifNext begins_importAlias (by simp)).bind fun importedAs _ =>
      Reads.pure trivial rfl
  refine hpath.withMode.bind fun ⟨organisation, names, importedAs⟩ _ => ?_
  refine (reads_expect _ _).bind fun semicolon _ => ?_
  have hrow : Row.Becomes ([some keyword, organisation] ++ names.map some ++
      [importedAs, some semicolon])
      [some keyword, organisation, some (.list names), importedAs, some semicolon] :=
    ((Row.Becomes.group .list (names.map some) rfl).append_left _).append_right _
  refine Meets.pure ?_ (Node.hasToken_composite (List.mem_cons_self ..) hk) id
  have h := hrow.trans (.group .importDeclaration _ rfl)
  simpa [Yield.imported, Yield.node] using h

/-! ## Functions, constants and types -/

/-- Metadata and checked qualifiers are the first slots of what is declared. -/
theorem begins_functionAfter (metadata : Option Node) (qualifiers : List Node) :
    Begins HasNext (metadata :: qualifiers.map some) (functionAfter metadata qualifiers) .node := by
  refine Meets.within (Meets.checked Qualifiers.ofFunction ?_)
  refine begins_consumeNode.bind fun keyword hk => (reads_expect _ _).bind fun name _ => ?_
  refine opens_functionSignature.reads.bind fun signature _ => ?_
  exact reads_functionBody.bind fun body _ => Reads.ofSlots hk (by simp) rfl rfl

theorem looks_isNameEqual : Looks isNameEqual fun _ _ => True :=
  (looks_isNext _).andThen fun _ => (looks_isSecond _).andThen fun _ => .pure fun _ => trivial

/-- A constant whose type is left out has an empty slot for it. -/
theorem begins_constantAfter (metadata : Option Node) (qualifiers : List Node) :
    Begins HasNext (metadata :: qualifiers.map some) (constantAfter metadata qualifiers) .node := by
  refine Meets.within (Meets.checked Qualifiers.publicOnly ?_)
  refine begins_consumeNode.bind fun keyword hk => ?_
  refine looks_isNameEqual.meets fun isName => looks_nextKind.meets fun kind => ?_
  refine (looks_pure _).meets fun isTyped => ?_
  extract_lets rest
  have hrest (type : Option Node) : Reads 4
      [metadata, some (Qualifiers.check Qualifiers.publicOnly qualifiers), some keyword, type]
      (rest type) .node := by
    refine (reads_expect _ _).bind fun name _ => (reads_expect _ _).bind fun equal _ => ?_
    refine reads_value.bind fun value _ => ?_
    exact (reads_expect _ _).bind fun semicolon _ => Reads.ofSlots hk (by simp) rfl rfl
  split
  · exact (reads_typeDescriptor _).part.bind fun type _ => (hrest type).weaken
  · exact Reads.noPart.bind fun type _ => (hrest type).weaken

theorem begins_typeDefinitionAfter (metadata : Option Node) (qualifiers : List Node) :
    Begins HasNext (metadata :: qualifiers.map some) (typeDefinitionAfter metadata qualifiers)
      .node := by
  refine Meets.within (Meets.checked Qualifiers.publicOnly ?_)
  refine begins_consumeNode.bind fun keyword hk => (reads_expect _ _).bind fun name _ => ?_
  refine (reads_typeDescriptor _).bind fun type _ => ?_
  exact (reads_expect _ _).bind fun semicolon _ => Reads.ofSlots hk (by simp) rfl rfl

theorem begins_classAfter (metadata : Option Node) (qualifiers : List Node) :
    Begins HasNext (metadata :: qualifiers.map some) (classAfter metadata qualifiers) .node := by
  refine Meets.within (Meets.checked Qualifiers.ofClass ?_)
  refine begins_consumeNode.bind fun keyword hk => (reads_expect _ _).bind fun name _ => ?_
  refine (reads_expect _ _).bind fun opening _ => reads_classMembers.bind fun members _ => ?_
  exact (reads_expect _ _).bind fun close _ => Reads.ofSlots hk (by simp) rfl rfl

/-! ## Enumerations -/

/-- A member reads its annotations before its name, which may have to be put in. -/
theorem reads_enumMember : Reads 4 [] enumMember .node := by
  refine Meets.within (reads_metadata.bind fun metadata _ => ?_)
  refine (reads_expect _ _).bind fun name hn => ?_
  exact reads_fieldValue.bind fun ⟨equal, value⟩ _ => Reads.ofSlots hn (by simp) rfl rfl

/-- Members with commas between them stand in the list of an enumeration. -/
theorem begins_enumAfter (metadata : Option Node) (qualifiers : List Node) :
    Begins HasNext (metadata :: qualifiers.map some) (enumAfter metadata qualifiers) .node := by
  refine Meets.within (Meets.checked Qualifiers.publicOnly ?_)
  refine begins_consumeNode.bind fun keyword hk => (reads_expect _ _).bind fun name _ => ?_
  refine (reads_expect _ _).bind fun opening _ => ?_
  exact (reads_delimited (by decide) reads_enumMember).bind fun ⟨members, close⟩ _ =>
    Reads.ofSlots hk (by simp) rfl rfl

/-! ## Annotations -/

/-- Identifiers and keywords are taken as long as they come; where none comes, a name is put in. -/
theorem reads_attachPoint : Reads 0 [] attachPoint .node := by
  refine (reads_optional (by decide)).bind fun source _ => ?_
  refine (reads_many (begins_consumeNode.weaken (ne_eof_of (by decide)))).bind fun words hw => ?_
  extract_lets rest
  have hrest {words : List Node} (hw : ∃ word ∈ words, word.HasToken) :
      Reads 0 (source :: words.map some) (rest words) .node := by
    obtain ⟨word, hm, ht⟩ := hw
    refine Meets.pure (((Row.Becomes.group .list _ rfl).cons source).trans (.group _ _ rfl)) ?_ id
    have hlist : (Node.list words).HasToken := Node.hasToken_composite (List.mem_map_of_mem hm) ht
    exact Node.hasToken_composite (by simp) hlist
  split
  · next hempty =>
    cases List.isEmpty_iff.mp hempty
    refine (reads_expect _ _).bind fun word ht => ?_
    exact hrest ⟨word, List.mem_singleton_self _, ht⟩
  · next hempty =>
    obtain ⟨word, hm⟩ := List.exists_mem_of_ne_nil words fun h => hempty (by rw [h]; rfl)
    exact hrest ⟨word, hm, hw word hm⟩

/-- The keyword and the points are there together or not at all. -/
theorem reads_attachPoints : Reads 0 [] attachPoints .together := by
  refine Meets.isNext ?_ (Meets.pure (Row.Becomes.gap.append .gap) rfl id)
  refine reads_consumeNode.bind fun keyword _ => ?_
  refine (reads_separated (by decide) reads_attachPoint).within.bind fun points _ => ?_
  exact Meets.pure ((Row.Becomes.group .list _ rfl).append_left [some keyword]) rfl id

/-- The type of an annotation is read unless a name and `on` or a semicolon come next. -/
theorem begins_annotationAfter (metadata : Option Node) (qualifiers : List Node) :
    Begins HasNext (metadata :: qualifiers.map some) (annotationAfter metadata qualifiers)
      .node := by
  refine Meets.within (Meets.checked Qualifiers.publicOnly ?_)
  refine begins_consumeNode.bind fun keyword hk => (looks_kindAt 1).meets fun second => ?_
  refine (looks_isNext _).meets fun isName => (looks_pure _).meets fun isUntyped => ?_
  extract_lets rest
  have hrest (type : Option Node) : Reads 0
      [metadata, some (Qualifiers.check Qualifiers.publicOnly qualifiers), some keyword, type]
      (rest type) .node := by
    refine (reads_expect _ _).bind fun name _ => ?_
    refine reads_attachPoints.bind fun ⟨onKeyword, points⟩ hpoints => ?_
    refine (reads_expect _ _).bind fun semicolon _ => Reads.ofSlots hk (by simp) rfl ?_
    cases onKeyword <;> cases points <;> first | rfl | cases hpoints
  split
  · exact Reads.noPart.bind fun type _ => (hrest type).weaken
  · exact (reads_typeDescriptor _).part.bind fun type _ => (hrest type).weaken

/-! ## Listeners and services -/

/-- A listener always has a value. -/
theorem begins_listenerAfter (metadata : Option Node) (qualifiers : List Node) :
    Begins HasNext (metadata :: qualifiers.map some) (listenerAfter metadata qualifiers)
      .node := by
  refine Meets.within (Meets.checked Qualifiers.publicOnly ?_)
  refine begins_consumeNode.bind fun keyword hk => ?_
  refine looks_isNameEqual.meets fun isName => ?_
  extract_lets rest
  have hrest (type : Option Node) : Reads 4
      [metadata, some (Qualifiers.check Qualifiers.publicOnly qualifiers), some keyword, type]
      (rest type) .node := by
    refine (reads_expect _ _).bind fun name _ => (reads_expect _ _).bind fun equal _ => ?_
    refine reads_value.bind fun value _ => ?_
    exact (reads_expect _ _).bind fun semicolon _ => Reads.ofSlots hk (by simp) rfl rfl
  split
  · exact Reads.noPart.bind fun type _ => (hrest type).weaken
  · exact (reads_typeDescriptor _).part.bind fun type _ => (hrest type).weaken

/-- A turn consumes a slash, so there are no more turns than tokens. -/
theorem reads_serviceSegments : Reads 0 [] serviceSegments .items := by
  refine Reads.loop .items (fun segments _ => ?_) trivial rfl
  refine Meets.isNext ?_ (Meets.pure (.refl _) trivial (by simp))
  refine begins_consumeNode.bindFrom (by simp +contextual) fun slash _ => ?_
  refine (reads_optional (by decide)).bind fun name _ => ?_
  have hname : Row.Becomes [name] (name.toList.map some) := by
    cases name with
    | none => exact .skip
    | some name => exact .refl _
  have hrow := hname.append_left (segments.map some ++ [some slash])
  refine Meets.pure ?_ trivial id
  simpa [Yield.turn, Yield.items, Yield.node, Yield.slot] using hrow

/-- A path is a list, with a string as its only part or with segments. -/
theorem reads_servicePath : Reads 0 [] servicePath .slot := by
  refine looks_nextKind.meets fun kind => ?_
  split
  · exact reads_consumeNode.bind fun path _ => Meets.pure (.group .list [some path] rfl) trivial id
  · refine Meets.within (reads_serviceSegments.bind fun segments _ => ?_)
    exact Meets.pure (.group .list _ rfl) trivial id
  · exact Reads.noPart.weaken

/-- The type is left out where a string or a path comes next. -/
theorem reads_serviceType : Reads 4 [] serviceType .slot := by
  refine looks_nextKind.meets fun kind => ?_
  split
  · exact (reads_typeDescriptor _).part.weaken
  · exact Reads.noPart.weaken

/-- Behind type and path stand the listeners, and then the members. -/
theorem begins_serviceAfter (metadata : Option Node) (qualifiers : List Node) :
    Begins HasNext (metadata :: qualifiers.map some) (serviceAfter metadata qualifiers) .node := by
  refine Meets.within (Meets.checked Qualifiers.ofService ?_)
  refine begins_consumeNode.bind fun keyword hk => reads_serviceType.bind fun type _ => ?_
  refine reads_servicePath.bind fun path _ => (reads_expect _ _).bind fun onKeyword _ => ?_
  refine (reads_separated (by decide) reads_value).bind fun listeners _ => ?_
  have hlisteners := (Row.Becomes.group .list (listeners.map some) rfl).append_left
    [metadata, some (Qualifiers.check Qualifiers.ofService qualifiers), some keyword, type, path,
      some onKeyword]
  refine Meets.before hlisteners ((reads_expect _ _).bind fun opening _ => ?_)
  refine reads_classMembers.bind fun members _ => ?_
  exact (reads_expect _ _).bind fun close _ => Reads.ofSlots hk (by simp) rfl rfl

/-! ## Members of a module -/

theorem looks_qualifiesDeclaration : Looks qualifiesDeclaration fun k b => b = true → k ≠ .eof := by
  refine looks_nextKind.bind fun kind => ?_
  split
  · next h => exact .pure fun k hk _ => hk.symm ▸ ne_eof_of (by decide) kind h
  · split
    · next h =>
      refine looks_upcoming.bind fun kinds => .pure fun k _ hk _ => ?_
      exact hk.symm ▸ ne_eof_of (by decide) kind h
    · exact .pure fun _ _ h => absurd h Bool.false_ne_true

/-- Metadata and qualifiers are read before the rule for the declaration is referred to. -/
theorem reads_moduleMember : Reads 6 [] moduleMember .node := by
  refine Meets.within (reads_metadata.bind fun metadata _ => ?_)
  refine (reads_consumeWhile looks_qualifiesDeclaration).bind fun qualifiers _ => ?_
  exact reads_resume trivial (Nat.le_refl _) rfl

/-- Whatever a keyword begins, it begins with the keyword. -/
theorem begins_keywordDeclaration? {kind : Kind}
    {declaration : Option Node → List Node → ParseM Node}
    (h : keywordDeclaration? kind = some declaration) (metadata : Option Node)
    (qualifiers : List Node) :
    Begins HasNext (metadata :: qualifiers.map some) (declaration metadata qualifiers) .node := by
  unfold keywordDeclaration? at h
  split at h <;> cases h
  · exact begins_constantAfter metadata qualifiers
  · exact begins_typeDefinitionAfter metadata qualifiers
  · exact begins_classAfter metadata qualifiers
  · exact begins_enumAfter metadata qualifiers
  · exact begins_annotationAfter metadata qualifiers
  · exact begins_listenerAfter metadata qualifiers
  · exact begins_serviceAfter metadata qualifiers

/-- Metadata and qualifiers of a late import are dropped, and only they. -/
theorem opens_lateImport (metadata : Option Node) (qualifiers : List Node) :
    Opens (· = .importKeyword) 0 (metadata :: qualifiers.map some) (lateImport metadata qualifiers)
      .node := by
  refine opens_importDeclaration.bind fun declaration hd => ?_
  have hflag := (Row.Becomes.flag declaration .importAfterDeclaration).append_left
    (metadata :: qualifiers.map some)
  have hlate : (declaration.withDiagnostic .importAfterDeclaration).HasToken :=
    Node.hasToken_withDiagnostic.mpr hd
  obtain ⟨hrow, ht⟩ := Qualifiers.becomes_reject hlate qualifiers
  obtain ⟨hrow', ht'⟩ := becomes_rejectAnnotations ht metadata
  exact Meets.pure (hflag.trans ((hrow.cons metadata).trans hrow')) ht' id

/-- A variable begins with its type, and has the qualifiers that suit it as parts. -/
theorem accepts_moduleVariable (metadata : Option Node) (qualifiers : List Node) :
    Accepts (fun k => Starts.type k = true) 4 (metadata :: qualifiers.map some)
      (moduleVariable metadata qualifiers) .node := by
  have hcheck := (Qualifiers.becomes_children_check Qualifiers.ofVariable qualifiers).cons metadata
  refine Accepts.within (Accepts.before hcheck (accepts_typedBinding.bind fun binding _ => ?_))
  exact reads_resume (fun h => absurd h (by decide)) (by simp [Rule.level]) rfl

/-- **A declaration is entered at its first token, and refers to lower rules alone before that is
consumed.** -/
theorem meets_moduleMemberAs {kind : Kind} (metadata : Option Node) (qualifiers : List Node)
    (hb : 4 ≤ bound) (hb' : kind ≠ .identifier → 5 ≤ bound) :
    Enters (fun k => k = kind ∨ kind = .identifier) bound (metadata :: qualifiers.map some)
      (moduleMemberAs kind metadata qualifiers) .node (fun _ => False) := by
  have : AtMost 4 bound := ⟨hb⟩
  refine (looks_isSecond _).meets fun isNamed => ?_
  split
  · next hk =>
    cases beq_iff_eq.mp ((Bool.and_eq_true _ _).mp hk).1
    exact (begins_functionAfter metadata qualifiers).weaken (by simp +contextual)
  · split
    · exact (opens_lateImport metadata qualifiers).reads.weaken
    · split
      · next declaration hd =>
        refine (begins_keywordDeclaration? hd metadata qualifiers).weaken fun k hk => ?_
        rintro rfl
        rcases hk.1 with rfl | rfl <;> cases hd
      · split
        · exact (accepts_moduleVariable metadata qualifiers).reads.weaken
        · next htype =>
          have hne : kind ≠ .identifier := by
            rintro rfl
            exact htype rfl
          exact reads_recoverOver trivial (by simp) (hb' hne) rfl

/-- What a declaration goes on with is `import`, another keyword of its own, or a type. -/
theorem declares_of_continues {metadata : Option Node} {qualifiers : List Node}
    {kind second : Kind}
    (h : (Rule.request (.moduleMember metadata qualifiers)).continues kind second = true) :
    kind = .importKeyword ∨ (keywordDeclaration? kind).isSome = true ∨
      Starts.type kind = true := by
  simp only [Rule.continues, Request.accepts, Request.overstates, Starts.moduleMember,
    Bool.and_eq_true, Bool.or_eq_true, Bool.not_eq_true', Bool.or_eq_false_iff] at h
  obtain ⟨hstarts | htype, hsign, hqualifier⟩ := h
  · simp only [Starts.moduleMemberTokens, List.contains_eq_mem, List.mem_cons, List.not_mem_nil,
      or_false, decide_eq_true_eq] at hstarts
    rcases hstarts with rfl | rfl | rfl | rfl | rfl | rfl | rfl | rfl | rfl | rfl | rfl | rfl |
      rfl | rfl | rfl
    all_goals first
      | exact Or.inl rfl
      | exact Or.inr (Or.inl rfl)
      | exact Or.inr (Or.inr rfl)
      | exact absurd hsign (by decide)
      | exact absurd hqualifier (by decide)
  · exact Or.inr (Or.inr htype)

/-- A declaration goes on with its first token, unless that is an annotation or a qualifier. -/
theorem heeds_moduleMemberAs (kind : Kind) (metadata : Option Node) (qualifiers : List Node) :
    Heeds (fun k s =>
        k = kind ∧ (Rule.request (.moduleMember metadata qualifiers)).continues k s = true)
      (moduleMemberAs kind metadata qualifiers) := by
  refine (looks_isSecond _).heeds fun isNamed => ?_
  split
  · exact (begins_functionAfter metadata qualifiers).heedsWhere fun _ _ _ h => h
  · split
    · next h =>
      refine (opens_lateImport metadata qualifiers).begins.heedsWhere fun k _ hk _ => ?_
      exact hk.1.1.trans (beq_iff_eq.mp h)
    · split
      · next declaration hd =>
        exact (begins_keywordDeclaration? hd metadata qualifiers).heedsWhere fun _ _ _ h => h
      · next hnone =>
        split
        · next htype =>
          exact (accepts_moduleVariable metadata qualifiers).heeds.mono fun k s h =>
            h.1.1 ▸ htype
        · next himport _ htype =>
          refine Heeds.unreachable ?_
          rintro _ _ ⟨⟨rfl, h⟩, -⟩
          rcases declares_of_continues h with rfl | hsome | ht
          · exact himport rfl
          · rw [hnone] at hsome
            cases hsome
          · exact htype ht

/-- Annotations and qualifiers begin no declaration. -/
theorem not_declares_of_overstates {metadata : Option Node} {qualifiers : List Node}
    {kind second : Kind}
    (h : Request.overstates (.moduleMember metadata qualifiers) kind second = true) :
    kind ≠ .functionKeyword ∧ kind ≠ .importKeyword ∧ keywordDeclaration? kind = none ∧
      Starts.type kind = false := by
  simp only [Request.overstates, moduleQualifiers, List.contains_eq_mem, List.mem_cons,
    List.not_mem_nil, or_false, Bool.or_eq_true, Bool.and_eq_true, beq_iff_eq,
    decide_eq_true_eq, Bool.not_eq_true'] at h
  rcases h with rfl | ⟨rfl | rfl | rfl | rfl | rfl | rfl | rfl | rfl, htype⟩
  · decide
  all_goals first
    | exact absurd htype (by decide)
    | exact ⟨by decide, by decide, rfl, rfl⟩

/-- A qualifier that comes again is none that a declaration goes on with, though it says so. -/
theorem asks_moduleMemberAs (kind : Kind) (metadata : Option Node) (qualifiers : List Node) :
    Asks (fun _ s => Request.overstates (.moduleMember metadata qualifiers) kind s = true)
      (moduleMemberAs kind metadata qualifiers) := by
  refine (looks_isSecond _).asks fun isNamed => ?_
  split
  · next hk =>
    refine Asks.unreachable fun _ _ h => (not_declares_of_overstates h.1).1 ?_
    exact beq_iff_eq.mp ((Bool.and_eq_true _ _).mp hk).1
  · split
    · next hk =>
      exact Asks.unreachable fun _ _ h => (not_declares_of_overstates h.1).2.1 (beq_iff_eq.mp hk)
    · split
      · next declaration hd =>
        refine Asks.unreachable fun _ _ h => ?_
        rw [(not_declares_of_overstates h.1).2.2.1] at hd
        cases hd
      · split
        · next htype =>
          refine Asks.unreachable fun _ _ h => ?_
          exact Bool.false_ne_true ((not_declares_of_overstates h.1).2.2.2.symm.trans htype)
        · exact asks_recoverOver trivial

end ParseM

end TolerantSyntax
