import TolerantSyntax.Grammar.Fragment
import TolerantSyntax.Proofs.Parse.Run

/-!
# Fragments

A fragment reads all of its source: what is left behind its rule is discarded, and the end of input
is consumed with it.
-/

namespace TolerantSyntax

/-- All of the source has been read, and nothing of it waits for a token. -/
structure Front.Done (front : Front) : Prop where
  rest : front.rest = []
  pending : front.pending = []

namespace Yield

/-- A piece, or none at all. -/
def found : Yield (Option Node) := ⟨fun part => part.toList.map some, fun _ => True⟩

/-- A node that stays what it is. -/
def kept (node : Node) : Yield Unit := ⟨fun _ => [some node], fun _ => True⟩

/-- Imports and the declarations behind them. -/
def members : Yield (List Node × List Node) :=
  ⟨fun nodes => nodes.1.map some ++ nodes.2.map some, fun _ => True⟩

end Yield

namespace ParseM

variable {α β : Type} {bound : Nat} {given : Row}

/-- A step that makes one node of all that is ahead. -/
structure Finishes (bound : Nat) (given : Row) (m : ParseM Node) : Prop where
  leads : ∀ {env : Env} {before after : Parser} {node : Node}, env.Sound → before.Valid →
    m env before = some (node, after) →
    before.Leads given after [some node] ∧ after.front.Done
  returns : ∀ {env : Env} {before : Parser}, env.Sound → before.Valid →
    env.Returns before.left bound → (m env before).isSome

namespace Finishes

/-- What finishes a fragment may follow any step. -/
theorem bind {m : ParseM α} {f : α → ParseM Node} {y : Yield α} (hm : Reads bound [] m y)
    (hf : ∀ a, y.good a → Finishes bound (y.row a) (f a)) : Finishes bound [] (m >>= f) where
  leads he hv hrun := by
    obtain ⟨a, q, hma, hfa⟩ := bind_eq_some_iff.mp hrun
    obtain ⟨hl, hg⟩ := hm.leads he hv hma
    obtain ⟨hl', hd⟩ := (hf a hg).leads he hl.valid hfa
    exact ⟨hl.trans hl', hd⟩
  returns he hv hr := by
    refine isSome_bind (hm.returns he hv trivial hr) fun a q hma => ?_
    obtain ⟨hl, hg⟩ := hm.leads he hv hma
    exact (hf a hg).returns he hl.valid (hr.mono hl.left_le (Nat.le_refl _))

theorem mono {m : ParseM Node} {b₀ : Nat} (h : Finishes b₀ given m) (hb : b₀ ≤ bound) :
    Finishes bound given m :=
  ⟨h.leads, fun he hv hr => h.returns he hv (hr.mono (Nat.le_refl _) hb)⟩

theorem within {m : ParseM Node} {context : Context} (h : Finishes bound given m) :
    Finishes bound given (ParseM.within context m) where
  leads {env before after node} he hv hrun := by
    obtain ⟨q, hm, rfl⟩ := within_eq_some_iff.mp hrun
    have hv' : Parser.Valid { before with contexts := context :: before.contexts } := hv
    obtain ⟨hl, hd⟩ := h.leads he hv' hm
    refine ⟨⟨hl.valid, ?_, hl.modes, hl.steps, hl.asked⟩, hd⟩
    show q.contexts.tail.tail = before.contexts.tail
    rw [hl.contexts, List.tail_cons]
  returns {env before} he hv hr := by
    have hv' : Parser.Valid { before with contexts := context :: before.contexts } := hv
    obtain ⟨⟨node, q⟩, hm⟩ := Option.isSome_iff_exists.mp (h.returns he hv' hr)
    rw [within_eq_some_iff.mpr ⟨q, hm, rfl⟩]
    rfl

end Finishes

/-! ## The end of input -/

/-- The end of input has no text, and behind it nothing is left. -/
theorem done_of_consume {p q : Parser} {token : Token} {env : Env} (hv : p.Valid)
    (ha : p.ahead = .eof) (hrun : consume env p = some (token, q)) :
    token.text = "" ∧ q.front.Done := by
  obtain ⟨q', hrun', -, -, -, hfront, -⟩ := exists_consume hv env
  cases hrun.symm.trans hrun'
  have hstep := Scanner.isStep_next (p.front.scanner p.reader.mode)
  have hk : (p.front.next p.reader.mode).kind = .eof := by
    rw [Front.next, Parser.scanner_front hv]
    exact ha
  refine ⟨hstep.text_eq_empty_iff.mpr hk, ?_, ?_⟩
  · rw [hfront]
    exact hstep.rest_of_eof hk
  · rw [hfront]
    rfl

theorem Looks.finishes {m : ParseM α} {f : α → ParseM Node} {info : Kind → α → Prop}
    (hm : Looks m info) (hf : ∀ a, Finishes bound given (f a)) :
    Finishes bound given (m >>= f) where
  leads {env p q node} he hv hrun := by
    obtain ⟨a, r, -, hs, -, hrun⟩ := hm.exists_of_bind hv hrun
    obtain ⟨hl, hd⟩ := (hf a).leads he hs.valid hrun
    exact ⟨(hs.leads given).trans hl, hd⟩
  returns {env p} he hv hr := by
    refine hm.isSome_bind hv fun a r hs _ => ?_
    exact (hf a).returns he hs.valid (hr.mono (Nat.le_of_eq hs.left) (Nat.le_refl bound))

/-- A step that stops at the end of input, and what is made with that. -/
theorem finishes_of_ahead {m : ParseM α} {f : α → Token → Node} {y : Yield α}
    (hm : Reads bound given m y)
    (hend : ∀ {env : Env} {p q : Parser} {a : α}, env.Sound → p.Valid → m env p = some (a, q) →
      q.ahead = .eof)
    (hf : ∀ a eof, y.good a → eof.text = "" →
      Row.Becomes (y.row a ++ [some (.leaf eof)]) [some (f a eof)]) :
    Finishes bound given (m >>= fun a => consume >>= fun eof => pure (f a eof)) where
  leads he hv hrun := by
    obtain ⟨a, q, hma, hrun⟩ := bind_eq_some_iff.mp hrun
    obtain ⟨eof, r, hc, hrun⟩ := bind_eq_some_iff.mp hrun
    cases hrun
    obtain ⟨hl, hg⟩ := hm.leads he hv hma
    obtain ⟨htext, hdone⟩ := done_of_consume hl.valid (hend he hv hma) hc
    have hl' := (reads_consume.leads he hl.valid hc).1
    exact ⟨(hl.trans (hl'.behind (y.row a))).become (hf a eof hg htext), hdone⟩
  returns he hv hr := isSome_bind (hm.returns he hv trivial hr) fun _ _ _ => rfl

/-- A loop ends where its last turn does. -/
theorem of_loop {step : α → ParseM (α ⊕ β)} (state : Yield α) {result : Yield β} {env : Env}
    {post : Parser → Prop} {a : α} {p q : Parser} {b : β} (he : env.Sound)
    (hstep : ∀ a, state.good a → Turns (fun _ => True) bound (state.row a) (step a) state result)
    (hlast : ∀ {a p b q}, p.Valid → step a env p = some (.inr b, q) → post q)
    (ha : state.good a) (hv : p.Valid) (hrun : loop a step env p = some (b, q)) : post q := by
  obtain ⟨_, _, hp, hrun⟩ := bind_eq_some_iff.mp hrun
  cases hp
  have hloop (fuel : Nat) {a : α} {p : Parser} (ha : state.good a) (hv : p.Valid)
      (hrun : repeatUpTo step fuel a env p = some (b, q)) : post q := by
    induction fuel generalizing a p with
    | zero => cases hrun
    | succ fuel ih =>
      obtain ⟨r, s, hs, hrun⟩ := bind_eq_some_iff.mp hrun
      obtain ⟨hl, hg⟩ := (hstep a ha).leads he hv hs
      cases r with
      | inl next => exact ih hg hl.valid hrun
      | inr result =>
        cases hrun
        exact hlast hv hs
  exact hloop env.fuel ha hv hrun

/-! ## What is left over -/

/-- Discards a token, unless the input ends. -/
def discardTurn : ParseM (Unit ⊕ Unit) := do
  if ← isNext .eof then return .inr ()
  else
    discard
    return .inl ()

/-- Each turn discards a token, up to the end of input. -/
theorem turns_discardTurn (node : Node) :
    Turns (fun _ => True) 0 [some node] discardTurn (.kept node) (.kept node) := by
  refine Meets.isNext (Meets.pure (.refl _) trivial (by simp)) ?_
  exact begins_discard.bindFrom (fun _ h => h.2) fun _ _ => Reads.pure trivial rfl

/-- The loop ends nowhere else. -/
theorem ahead_of_discardTurn {env : Env} {p q : Parser} {b : Unit} (hv : p.Valid)
    (hrun : discardTurn env p = some (.inr b, q)) : q.ahead = .eof := by
  obtain ⟨b, r, -, hs, hi, hrun⟩ := (looks_isNext .eof).exists_of_bind hv hrun
  split at hrun
  · next hb =>
    cases hrun
    rw [hs.ahead, hi.mp hb]
  · obtain ⟨_, _, _, hrun⟩ := bind_eq_some_iff.mp hrun
    cases hrun

/-- A fragment is finished by what is left of the source as trivia. -/
theorem finishes_finishFragment {node : Node} (hn : node.HasToken) :
    Finishes bound [some node] (finishFragment node) := by
  have hturn := turns_discardTurn node
  refine finishes_of_ahead (m := loop () fun _ => discardTurn)
    (f := fun _ eof => node.withTrailing (eof.leading ++ eof.trailing))
    (Reads.loop (.kept node) (fun _ _ => hturn.mono (fun _ h => h) fun _ h => h) trivial rfl) ?_ ?_
  · intro env p q _ he hv hrun
    exact of_loop (.kept node) he (fun _ _ => hturn)
      (fun hv hs => ahead_of_discardTurn hv hs) trivial hv hrun
  · intro _ eof _ he
    exact .finish hn he

/-! ## Whole sources -/

/-- Where nothing of a declaration was consumed, a token is discarded, and a declaration of which
all is missing is dropped. -/
theorem advances_unitMember (given : Row) :
    Advances 6 given unitMember ⟨fun part => given ++ part.toList.map some, fun _ => True⟩ := by
  refine Advances.isNext ?_ ?_
  · rw [map_eq_pure_bind]
    exact opens_importDeclaration.begins.bind fun declaration _ => Reads.pure trivial rfl
  · refine advances_byProgress reads_moduleMember (fun member => ?_) fun member => ?_
    · by_cases hm : member.isMissing = true
      · refine ⟨_, Or.inl rfl, begins_discard.bind fun _ _ => ?_⟩
        rw [if_pos hm]
        exact Reads.pure trivial rfl
      · refine ⟨_, Or.inr rfl, begins_discard.bind fun _ _ => ?_⟩
        rw [if_neg hm]
        exact Reads.pure trivial (List.append_nil _)
    · exact Reads.pure trivial rfl

/-- A turn of reading a whole source. -/
def membersTurn (nodes : List Node × List Node) :
    ParseM ((List Node × List Node) ⊕ (List Node × List Node)) := do
  let kind ← nextKind
  if kind == .eof then return .inr nodes
  match ← unitMember with
  | none => return .inl nodes
  | some member =>
    if kind != .importKeyword then return .inl (nodes.1, nodes.2 ++ [member])
    else if nodes.2.isEmpty then return .inl (nodes.1 ++ [member], nodes.2)
    else return .inl (nodes.1, nodes.2 ++ [member.withDiagnostic .importAfterDeclaration])

theorem unitMembers_eq : unitMembers = loop ([], []) membersTurn :=
  rfl

/-- A turn reads an import or a declaration, or discards a token. -/
theorem turns_membersTurn (nodes : List Node × List Node) :
    Turns (fun _ => True) 6 (Yield.members.row nodes) (membersTurn nodes) .members .members := by
  refine Advances.turns (fun kind => kind == .eof) rfl
    (Meets.pure (.refl _) trivial (by simp)) fun kind => ?_
  refine (advances_unitMember _).bind fun found _ => ?_
  obtain ⟨imports, members⟩ := nodes
  cases found with
  | none => exact Reads.pure trivial (List.append_nil _)
  | some member =>
    have hbehind (node : Node) : imports.map some ++ members.map some ++ [some node] =
        (Yield.turn .members .members).row
          (.inl (imports, members ++ [node]) : _ ⊕ (List Node × List Node)) := by
      simp [Yield.turn, Yield.members]
    dsimp only
    split
    · exact Reads.pure trivial (hbehind member)
    · split
      · next hempty =>
        cases List.isEmpty_iff.mp hempty
        exact Reads.pure trivial (by simp [Yield.turn, Yield.members])
      · refine Meets.pure ?_ trivial id
        rw [← hbehind]
        exact (Row.Becomes.flag member _).append_left _

/-- So members are read up to the end of input. -/
theorem ahead_of_membersTurn {env : Env} {nodes nodes' : List Node × List Node} {p q : Parser}
    (hv : p.Valid) (hrun : membersTurn nodes env p = some (.inr nodes', q)) : q.ahead = .eof := by
  obtain ⟨kind, r, -, hs, rfl, hrun⟩ := looks_nextKind.exists_of_bind hv hrun
  split at hrun
  · next hk =>
    cases hrun
    rw [hs.ahead]
    exact beq_iff_eq.mp hk
  · obtain ⟨found, s, _, hrun⟩ := bind_eq_some_iff.mp hrun
    split at hrun
    · cases hrun
    · split at hrun
      · cases hrun
      · split at hrun <;> cases hrun

/-- A unit is made of its two lists and the end of input. -/
theorem finishes_compilationUnit : Finishes 6 [] compilationUnit := by
  refine Finishes.within ?_
  refine finishes_of_ahead (m := unitMembers)
    (f := fun nodes eof => .of .modulePart [.list nodes.1, .list nodes.2, .leaf eof])
    (Reads.loop .members (fun nodes _ => turns_membersTurn nodes) trivial rfl) ?_ ?_
  · intro env p q _ he hv hrun
    exact of_loop .members he (fun nodes _ => turns_membersTurn nodes)
      (fun hv hs => ahead_of_membersTurn hv hs) trivial hv hrun
  · intro nodes eof _ _
    have hlists :
        Row.Becomes (Yield.members.row nodes) [some (.list nodes.1), some (.list nodes.2)] :=
      (Row.Becomes.group .list _ rfl).append (.group .list _ rfl)
    exact (hlists.append_right [some (.leaf eof)]).trans (.group .modulePart _ rfl)

/-! ## Other fragments -/

theorem finishes_memberFragment : Finishes 6 [] memberFragment := by
  refine Finishes.within ((looks_isNext .importKeyword).finishes fun isImport => ?_)
  split
  · exact Finishes.bind opens_importDeclaration.reads.weaken fun _ hn => finishes_finishFragment hn
  · exact Finishes.bind reads_moduleMember fun _ hn => finishes_finishFragment hn

theorem finishes_statementFragment : Finishes 8 [] statementFragment :=
  Finishes.within (Finishes.bind reads_statement fun _ hn => finishes_finishFragment hn)

theorem finishes_expressionFragment : Finishes 4 [] expressionFragment :=
  Finishes.bind reads_valueOrAction fun _ hn => finishes_finishFragment hn

/-- **A fragment of any kind makes one node of all of its source.** -/
theorem finishes_fragment (kind : FragmentKind) : Finishes Rule.maxRank [] (fragment kind) := by
  cases kind with
  | compilationUnit => exact finishes_compilationUnit.mono (by decide)
  | moduleMember => exact finishes_memberFragment.mono (by decide)
  | statement => exact finishes_statementFragment.mono (by decide)
  | expression => exact finishes_expressionFragment.mono (by decide)

end ParseM

end TolerantSyntax
