import TolerantSyntax.Proofs.Parse.Enter

/-!
# Types

Every turn of the loops over suffixes and operators consumes one, and every primary type that is no
name begins with a token of its own.
-/

namespace TolerantSyntax

namespace ParseM

variable {start : Kind → Prop} {bound : Nat} {given : Row}

/-! ## Suffixes and operators -/

/-- A turn makes the next node out of the last one and what follows it. -/
theorem Reads.turnOf {β : Type} {kind : Kind} {parts : List Node} {node : Node} {z : Yield β}
    (hn : node.HasToken) (hm : node ∈ parts) (hrow : given = parts.map some)
    (ha : kind.composes (parts.map some) = true) :
    Enters start bound given (Pure.pure (.inl (Node.of kind parts))) (.turn .node z)
      (fun _ => False) :=
  Meets.pure (hrow ▸ .group kind _ ha) (Node.hasToken_composite (List.mem_map_of_mem hm) hn) id

theorem begins_arrayDimension : Begins HasNext [] arrayDimension .node := by
  refine Meets.within (begins_consumeNode.bind fun opening ho => ?_)
  refine looks_nextKind.meets fun kind => ?_
  extract_lets close
  have hclose (length : Option Node) :
      Reads Rule.maxRank [some opening, length] (close length) .node :=
    (reads_expect _ _).bind fun close _ => Reads.ofSlots ho (by simp) rfl rfl
  split
  · exact reads_consumeNode.part.bind fun length _ => hclose length
  · split
    · exact opens_basicLiteral.reads.part.bind fun length _ => hclose length
    · split
      · exact opens_typeReference.reads.part.bind fun length _ => hclose length
      · exact Reads.noPart.bind fun length _ => hclose length

/-- The type is wrapped once for each suffix, and each turn consumes the bracket or the `?`. -/
theorem reads_typeSuffixes {type : Node} (ht : type.HasToken) (options : TypeOptions) :
    Reads 0 [some type] (typeSuffixes type options) .node := by
  refine Reads.loop .node (fun type ht => ?_) ht rfl
  have hend : Turns (fun _ => True) 0 [some type] (pure (.inr type)) .node .node :=
    Meets.pure (.refl _) ht (by simp)
  refine looks_nextKind.meets fun kind => ?_
  split
  · refine looks_upcoming.meets fun kinds => ?_
    split
    · exact hend.mono (fun _ _ => trivial) fun _ h => h
    · exact begins_arrayDimension.bindFrom (by simp +contextual) fun dimension _ =>
        Reads.turnOf ht (by simp) rfl rfl
  · refine (looks_kindAt 1).meets fun second => ?_
    split
    · exact hend.mono (fun _ _ => trivial) fun _ h => h
    · exact begins_consumeNode.bindFrom (by simp +contextual) fun question _ =>
        Reads.turnOf ht (by simp) rfl rfl
  · exact hend.mono (fun _ _ => trivial) fun _ h => h

/-- Primary types are on the lowest level, and nothing need be consumed before them. -/
theorem reads_primaryType (context : Context) : Reads 2 [] (primaryType context) .node :=
  reads_parse trivial (Nat.le_refl _) rfl

/-- Suffixes refer to no rule before they have consumed something, so the rank stays. -/
theorem reads_typeOperand (options : TypeOptions) : Reads 2 [] (typeOperand options) .node :=
  (reads_primaryType _).bind fun _ ht => (reads_typeSuffixes ht options).weaken

/-- The type becomes the left part of an intersection as often as `&` comes next. -/
theorem reads_intersectionsAfter {type : Node} (ht : type.HasToken) (options : TypeOptions) :
    Reads 0 [some type] (intersectionsAfter type options) .node := by
  refine Reads.loop .node (fun type ht => ?_) ht rfl
  refine Meets.isNext ?_ (Meets.pure (.refl _) ht (by simp))
  refine begins_consumeNode.bindFrom (by simp +contextual) fun operator _ => ?_
  exact (reads_typeOperand options).bind fun operand _ => Reads.turnOf ht (by simp) rfl rfl

/-- The type becomes the left part of a union as often as `|` comes next. -/
theorem reads_unionsAfter {type : Node} (ht : type.HasToken) (options : TypeOptions) :
    Reads 0 [some type] (unionsAfter type options) .node := by
  refine Reads.loop .node (fun type ht => ?_) ht rfl
  refine Meets.isNext ?_ (Meets.pure (.refl _) ht (by simp))
  refine begins_consumeNode.bindFrom (by simp +contextual) fun operator _ => ?_
  refine (reads_typeOperand options).bind fun operand ho => ?_
  exact (reads_intersectionsAfter ho options).bindOn [some type, some operator] rfl
    fun intersection _ => Reads.turnOf ht (by simp) rfl rfl

/-- All levels of what can follow a primary type leave it in the tree. -/
theorem reads_typeAfter {primary : Node} (hp : primary.HasToken) (options : TypeOptions) :
    Reads 0 [some primary] (typeAfter primary options) .node := by
  refine (reads_typeSuffixes hp options).bindOn [] rfl fun suffixed hs => ?_
  refine (reads_intersectionsAfter hs options).bindOn [] rfl fun intersection hi => ?_
  exact reads_unionsAfter hi options

/-- A type is a primary type and what follows it, so it ranks above primary types. -/
theorem meets_typeDescriptorAs {kind : Kind} (context : Context) (hb : 2 ≤ bound) :
    Enters (fun k => k = kind ∨ kind = .identifier) bound [] (typeDescriptorAs kind context) .node
      (fun _ => False) := by
  have : AtMost 2 bound := ⟨hb⟩
  have hlt : 2 * (Rule.primaryType context).level + 1 < bound := hb
  refine Meets.bind (meets_parseAs_of_taken trivial (fun _ hk => hk) hlt rfl) ?_
  exact fun primary hp => (reads_typeAfter hp _).weaken

/-- A type is read where the next token begins one, without asking the strategy. -/
theorem heeds_typeDescriptorAs (kind : Kind) (context : Context) :
    Heeds (fun k _ => k = kind ∧ Starts.type k = true) (typeDescriptorAs kind context) :=
  heeds_parseAs_bind (.primaryType context) kind trivial fun _ hp => (reads_typeAfter hp _).weaken

/-! ## Primary types -/

/-- `<type>` begins with a token of its own. -/
theorem begins_typeParameter : Begins HasNext [] typeParameter .node := by
  refine Meets.within (begins_consumeNode.bind fun opening ho => ?_)
  refine (reads_typeDescriptor _).bind fun type _ => ?_
  exact (reads_expect _ _).bind fun close _ => Reads.of ho (by simp) rfl rfl

theorem begins_parameterizedType : Begins HasNext [] parameterizedType .node := by
  refine begins_consumeNode.bind fun keyword hk => ?_
  exact (reads_ifNext begins_typeParameter (by simp)).bind fun parameter _ =>
    Reads.ofSlots hk (by simp) rfl rfl

theorem begins_streamParameters : Begins HasNext [] streamParameters .node := by
  refine Meets.within (begins_consumeNode.bind fun opening ho => ?_)
  refine (reads_typeDescriptor _).bind fun value _ => ?_
  extract_lets close
  have hclose (parts : Option Node × Option Node) :
      Reads Rule.maxRank ([some opening, some value] ++ [parts.1, parts.2]) (close parts) .node :=
    (reads_expect _ _).bind fun close _ => Reads.ofSlots ho (by simp) rfl rfl
  refine Meets.isNext ?_ ?_
  · refine begins_consumeNode.bindFrom (by simp +contextual) (fun comma _ => ?_)
    refine (reads_typeDescriptor _).bind fun completion _ => ?_
    exact hclose (some comma, some completion)
  · exact Reads.noParts.bind fun parts _ => hclose parts

theorem begins_streamType : Begins HasNext [] streamType .node := by
  refine begins_consumeNode.bind fun keyword hk => ?_
  exact (reads_ifNext begins_streamParameters (by simp)).bind fun parameters _ =>
    Reads.ofSlots hk (by simp) rfl rfl

theorem begins_parenthesisedType : Begins HasNext [] parenthesisedType .node := by
  refine Meets.within (begins_consumeNode.bind fun opening ho => ?_)
  refine Meets.isNext ?_ ?_
  · exact reads_consumeNode.bind fun close _ => Reads.of ho (by simp) rfl rfl
  · refine (reads_typeDescriptor _).bind fun type _ => ?_
    exact (reads_expect _ _).bind fun close _ => Reads.of ho (by simp) rfl rfl

/-- `...` makes a type the part of another node, or leaves it alone. -/
theorem reads_restTypeAfter {type : Node} (ht : type.HasToken) :
    Reads 0 [some type] (restTypeAfter type) .node := by
  refine Meets.isNext ?_ (Reads.pure ht rfl)
  exact reads_consumeNode.bind fun ellipsis _ => Reads.of ht (by simp) rfl rfl

/-- A member of a tuple type begins with a type and consumes nothing before that. -/
theorem reads_tupleMember : Reads 4 [] tupleMember .node :=
  (reads_typeDescriptor _).bind fun _ ht => (reads_restTypeAfter ht).weaken

/-- Members that have been read before, and those that follow, go into one list. -/
theorem reads_tupleTypeAfter {opening : Node} (ho : opening.HasToken) (items : List Node) :
    Reads 4 (some opening :: items.map some) (tupleTypeAfter opening items) .node := by
  refine (reads_delimitedAfter items (by decide) reads_tupleMember).bindOn [some opening] rfl ?_
  exact fun ⟨members, close⟩ _ => Reads.of ho (by simp) rfl rfl

/-- A literal is consumed as it is; where there is none, the token is asked for. -/
theorem opens_singletonType : Opens HasNext 0 [] singletonType .node := by
  unfold singletonType
  extract_lets finish
  have hfinish (literal : Node) (hl : literal.HasToken) :
      Reads 0 [some literal] (finish literal) .node := Reads.of hl (by simp) rfl rfl
  have hliteral {literal : ParseM Node} (h : Opens HasNext 0 [] literal .node) :
      Opens HasNext 0 [] (literal >>= finish) .node := h.bind hfinish
  constructor
  · refine Meets.isNext ?_ ?_
    · exact (hliteral opens_negativeLiteral).reads.weaken
    · exact (hliteral opens_basicLiteral).reads.weaken
  · refine Meets.isNext ?_ ?_
    · exact (hliteral opens_negativeLiteral).begins.weaken fun _ h => h.1
    · exact (hliteral opens_basicLiteral).begins.weaken fun _ h => h.1

/-! ## Records and objects -/

/-- The end of input qualifies no field. -/
theorem looks_qualifiesReadonly : Looks qualifiesReadonly fun k b => b = true → k ≠ .eof := by
  refine (looks_isNext .readonlyKeyword).bind fun a => ?_
  cases a with
  | false => exact .pure fun _ _ h => absurd h Bool.false_ne_true
  | true =>
    refine (looks_kindAt 1).bind fun second => ?_
    split
    · exact (looks_kindAt 2).bind fun third => .pure fun k _ _ h _ => by simp [h.mp rfl]
    · exact .pure fun k _ h _ => by simp [h.mp rfl]

theorem opens_typeInclusion (context : Context) :
    Opens HasNext 0 [] (typeInclusion context) .node := by
  refine opens_consumeNode.bind fun asterisk ha => ?_
  refine opens_typeReference.reads.bind fun type _ => ?_
  exact (reads_expect _ _).bind fun semicolon _ => Reads.of ha (by simp) rfl rfl

theorem reads_recordField : Reads 6 [] recordField .node :=
  reads_metadata.bind fun _ _ => reads_resume trivial (Nat.le_refl _) rfl

/-- A record type begins with its keyword, so its fields may be of any rank. -/
theorem begins_recordType : Begins HasNext [] recordType .node := by
  refine Meets.within (begins_consumeNode.bind fun keyword hk => ?_)
  refine (looks_isNext .openBracePipe).meets fun closed => ?_
  extract_lets fields
  have hfields (opening : Node) (ho : opening.HasToken) :
      Reads Rule.maxRank [some keyword, some opening] (fields opening) .node := by
    refine (reads_manyUntil reads_recordField).bind fun fields _ => ?_
    exact (reads_expect _ _).bind fun close _ => Reads.of hk (by simp) rfl rfl
  split
  · exact reads_consumeNode.bind hfields
  · exact (reads_expect _ _).bind hfields

/-- What a test refuses of the end of input is not the end of input. -/
theorem ne_eof_of {p : Kind → Bool} (h : p .eof = false) (k : Kind) (hk : p k = true) :
    k ≠ .eof := by
  rintro rfl
  exact Bool.false_ne_true (h.symm.trans hk)

theorem looks_qualifiesMember : Looks qualifiesMember fun k b => b = true → k ≠ .eof := by
  refine looks_nextKind.bind fun kind => ?_
  split
  · next hk =>
    exact (looks_isSecond _).bind fun b => .pure fun k _ h _ => by simp [h, beq_iff_eq.mp hk]
  · split
    · exact looks_qualifiesReadonly.weaken fun _ _ h _ => h
    · exact .pure fun k h hc => h.symm ▸ ne_eof_of (by decide) kind hc

/-- A member reads its metadata and qualifiers before it refers to a rule with them. -/
theorem reads_classMember (objectType : Bool) : Reads 6 [] (classMember objectType) .node := by
  refine Meets.within (reads_metadata.bind fun metadata _ => ?_)
  refine (reads_consumeWhile looks_qualifiesMember).bind fun qualifiers _ => ?_
  exact reads_resume trivial (Nat.le_refl _) rfl

/-- An object type behind its qualifiers, which may be an empty list. -/
theorem opens_objectTypeAfter (qualifiers : Node) :
    Opens (· = .objectKeyword) 6 [some qualifiers] (objectTypeAfter qualifiers) .node := by
  refine Opens.within ((opens_expect (by decide) _).bind fun keyword hk => ?_)
  refine (reads_expect _ _).bind fun opening _ => ?_
  refine (reads_manyUntil (reads_classMember true)).bind fun members _ => ?_
  exact (reads_expect _ _).bind fun close _ => Reads.of hk (by simp) rfl rfl

theorem opens_functionTypeAfter (qualifiers : Node) :
    Opens HasNext 6 [some qualifiers] (functionTypeAfter qualifiers) .node := by
  refine Opens.within (opens_consumeNode.bind fun keyword hk => ?_)
  exact (reads_ifNext opens_functionSignature.begins (by simp)).bind fun signature _ =>
    Reads.ofSlots hk (by simp) rfl rfl

/-- Qualifiers or the keyword itself are consumed first. -/
theorem begins_qualifiedType :
    Begins (fun k => k = .objectKeyword ∨ k = .functionKeyword ∨ typeQualifiers.contains k = true)
      [] qualifiedType .node := by
  have hqualifier : Begins (fun k => typeQualifiers.contains k = true) [] consumeNode .node :=
    begins_consumeNode.weaken (ne_eof_of (by decide))
  have hcheck := Qualifiers.becomes_check
  refine (perhaps_many hqualifier).bind (fun qualifiers _ => ?_) ?_
  · refine Meets.isNext ?_ ?_
    · exact (opens_functionTypeAfter _).reads.weaken.before (hcheck _ qualifiers)
    · exact (opens_objectTypeAfter _).reads.weaken.before (hcheck _ qualifiers)
  · refine Meets.isNext ?_ ?_
    · refine Meets.before (hcheck _ []) ((opens_functionTypeAfter _).begins.weaken ?_)
      rintro k ⟨-, rfl⟩
      decide
    · refine Meets.before (hcheck _ []) ((opens_objectTypeAfter _).begins.weaken ?_)
      rintro k ⟨⟨hk, hq⟩, hf⟩
      exact hk.resolve_right fun h => h.elim hf hq

/-! ## All together -/

/-- What is taken for a kind that is not the primary one is of that kind. -/
theorem taken {kind primary : Kind} {p : Kind → Bool} (hp : p kind = true)
    (hi : p primary = false) (k : Kind) (hk : k = kind ∨ kind = primary) :
    p k = true := by
  rcases hk with rfl | rfl
  · exact hp
  · exact absurd (hi.symm.trans hp) Bool.false_ne_true

/-- A token that is taken for what begins a rule is not the end of input. -/
theorem taken_ne_eof {kind primary : Kind} {p : Kind → Bool} (hp : p kind = true)
    (hi : p primary = false) (he : p .eof = false) (k : Kind)
    (hk : k = kind ∨ kind = primary) : k ≠ .eof :=
  ne_eof_of he k (taken hp hi k hk)

/-- Each form begins with a token of its own, and what is none of them is recovered from. -/
theorem meets_primaryTypeAs {kind : Kind} (context : Context)
    (hb : kind ≠ .identifier → 1 ≤ bound) :
    Enters (fun k => k = kind ∨ kind = .identifier) bound [] (primaryTypeAs kind context) .node
      (fun _ => False) := by
  unfold primaryTypeAs
  split
  · next h => exact begins_parameterizedType.weaken (taken_ne_eof h (by decide) (by decide))
  · split
    · exact reads_consumeNode.bind fun _ ht => Reads.of ht (by simp) rfl rfl
    · split
      · exact opens_singletonType.reads.weaken
      · split
        · exact begins_streamType.weaken (by simp +contextual)
        · exact begins_recordType.weaken (by simp +contextual)
        · exact begins_qualifiedType.weaken (by simp +contextual)
        · exact begins_qualifiedType.weaken (by simp +contextual)
        · exact begins_qualifiedType.weaken (by simp +contextual [typeQualifiers])
        · exact begins_qualifiedType.weaken (by simp +contextual [typeQualifiers])
        · refine begins_consumeNode.bindFrom (by simp +contextual) fun keyword hk => ?_
          exact (reads_primaryType context).bind fun type _ => Reads.of hk (by simp) rfl rfl
        · exact opens_typeReference.reads.weaken
        · exact begins_parenthesisedType.weaken (by simp +contextual)
        · exact begins_consumeNode.bindFrom (by simp +contextual) fun opening ho =>
            (reads_tupleTypeAfter ho []).weaken
        · have hpos : 1 ≤ bound := hb (by assumption)
          exact reads_recoverAs trivial trivial (by simp) (fun _ ht => Reads.simpleName ht) hpos rfl
            rfl rfl

/-- Every token that can begin a type is consumed by the form it begins. -/
theorem heeds_primaryTypeAs (kind : Kind) (context : Context) :
    Heeds (fun k _ => k = kind ∧ Starts.type k = true) (primaryTypeAs kind context) := by
  unfold primaryTypeAs
  split
  · exact begins_parameterizedType.heedsWhere fun _ _ _ h => h
  · split
    · exact (begins_consumeNode.heedsWhere fun _ _ _ h => h).bindPure
    · split
      · exact opens_singletonType.begins.heedsWhere fun _ _ _ h => h
      · split
        · exact begins_streamType.heedsWhere fun _ _ _ h => h
        · exact begins_recordType.heedsWhere fun _ _ _ h => h
        · exact begins_qualifiedType.heedsWhere (by simp +contextual)
        · exact begins_qualifiedType.heedsWhere (by simp +contextual)
        · exact begins_qualifiedType.heedsWhere (by simp +contextual [typeQualifiers])
        · exact begins_qualifiedType.heedsWhere (by simp +contextual [typeQualifiers])
        · exact (begins_consumeNode.heedsWhere fun _ _ _ h => h).bind reads_consumeNode fun _ hk =>
            (reads_primaryType context).bind fun type _ => Reads.of hk (by simp) rfl rfl
        · exact opens_typeReference.begins.heedsWhere fun _ _ h _ => h.1
        · exact begins_parenthesisedType.heedsWhere fun _ _ _ h => h
        · exact (begins_consumeNode.heedsWhere fun _ _ _ h => h).bind reads_consumeNode fun _ ho =>
            (reads_tupleTypeAfter ho []).weaken
        · refine Heeds.unreachable ?_
          rintro _ _ ⟨rfl, h⟩
          simp_all [Starts.type, Starts.typeTokens, Kind.isTypeKeyword, Kind.compoundTypeKeywords]

/-- The parts that a field had before its end are its first slots. -/
theorem reads_recordFieldAfter (metadata isReadonly : Option Node) {type : Node}
    (ht : type.HasToken) (name : Node) :
    Reads 4 [metadata, isReadonly, some type, some name]
      (recordFieldAfter metadata isReadonly type name) .node := by
  refine Meets.isNext ?_ ?_
  · refine reads_consumeNode.bind fun equal _ => ?_
    refine reads_value.bind fun value _ => ?_
    exact (reads_expect _ _).bind fun semicolon _ => Reads.ofSlots ht (by simp) rfl rfl
  · refine (reads_optional (by decide)).bind fun question _ => ?_
    exact (reads_expect _ _).bind fun semicolon _ => Reads.ofSlots ht (by simp) rfl rfl

/-- A field behind its metadata and `readonly`. -/
theorem accepts_recordFieldTyped (metadata isReadonly : Option Node) :
    Accepts (fun k => Starts.type k = true) 4 [metadata, isReadonly]
      (do
        let type ← typeDescriptor .recordField
        if ← isNext .ellipsis then
          let ellipsis ← consumeNode
          let semicolon ← expect .semicolon .recordField
          return .of .recordRestDescriptor [type, ellipsis, semicolon]
        else
          let name ← expect .identifier .recordField
          recordFieldAfter metadata isReadonly type name) .node := by
  refine (accepts_typeDescriptor _).bind fun type ht => Meets.isNext ?_ ?_
  · refine reads_consumeNode.bind fun ellipsis _ => ?_
    refine (reads_expect _ _).bind fun semicolon _ => ?_
    exact Meets.pure (.rest [metadata, isReadonly] [some type, some ellipsis, some semicolon] rfl)
      (Node.hasToken_composite (by simp) ht) id
  · exact (reads_expect _ _).bind fun name _ =>
      (reads_recordFieldAfter metadata isReadonly ht name).weaken

/-- A field whose type has `...` behind it keeps neither metadata nor `readonly`. -/
theorem meets_recordFieldAs {kind : Kind} (metadata : Option Node) (hb : 4 ≤ bound)
    (hb' : kind ≠ .identifier → 5 ≤ bound) :
    Enters (fun k => k = kind ∨ kind = .identifier) bound [metadata] (recordFieldAs kind metadata)
      .node (fun _ => False) := by
  have : AtMost 4 bound := ⟨hb⟩
  unfold recordFieldAs
  split
  · refine (opens_typeInclusion _).reads.bind fun node hn => ?_
    obtain ⟨hrow, ht⟩ := becomes_rejectAnnotations hn metadata
    exact Meets.pure hrow ht id
  · split
    · refine Meets.within (looks_qualifiesReadonly.meets fun qualified => ?_)
      split
      · exact reads_consumeNode.part.bind fun isReadonly _ =>
          (accepts_recordFieldTyped metadata isReadonly).reads.weaken
      · exact Reads.noPart.bind fun isReadonly _ =>
          (accepts_recordFieldTyped metadata isReadonly).reads.weaken
    · next hk =>
      have hne : kind ≠ .identifier := by
        rintro rfl
        exact hk rfl
      exact reads_recoverOver trivial (by simp) (hb' hne) rfl

/-- What begins a field is consumed, annotations apart: they have been read before. -/
theorem heeds_recordFieldAs (kind : Kind) (metadata : Option Node) :
    Heeds (fun k s => k = kind ∧ (Rule.request (.recordField metadata)).continues k s = true)
      (recordFieldAs kind metadata) := by
  unfold recordFieldAs
  split
  · exact ((opens_typeInclusion _).begins.heedsWhere fun _ _ _ h => h).bindPure
  · split
    · next htype =>
      refine Heeds.within (looks_qualifiesReadonly.heeds fun qualified => ?_)
      split
      · exact (begins_consumeNode.part.heedsWhere fun _ _ _ h => h).bindOn [metadata]
          reads_consumeNode.part fun isReadonly _ =>
            (accepts_recordFieldTyped metadata isReadonly).reads.weaken
      · rw [pure_bind]
        exact (accepts_recordFieldTyped metadata none).heeds.mono fun k s h => h.1.1 ▸ htype
    · refine Heeds.unreachable ?_
      rintro _ _ ⟨rfl, h⟩
      simp_all [Rule.continues, Request.accepts, Request.overstates, Starts.recordField]

/-- Annotations a second time are not what a field goes on with, though it says so. -/
theorem asks_recordFieldAs (kind : Kind) (metadata : Option Node) :
    Asks (fun _ s => Request.overstates (.recordField metadata) kind s = true)
      (recordFieldAs kind metadata) := by
  unfold recordFieldAs
  split
  · refine Asks.unreachable fun _ _ h => ?_
    cases beq_iff_eq.mp h
    contradiction
  · split
    · refine Asks.unreachable fun _ _ h => ?_
      cases beq_iff_eq.mp h
      contradiction
    · exact asks_recoverOver trivial

end ParseM

end TolerantSyntax
