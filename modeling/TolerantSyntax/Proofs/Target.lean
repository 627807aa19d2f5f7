import TolerantSyntax.Proofs.Regular

/-!
# Assignments are to what can be assigned to

Whatever a source has to the left of `=`, the tree says whether it can be assigned to: an assignment
is to a name, to a field or to a member of something that is indexed, or what it is to is flagged. A
run makes the nodes of assignments of such slots only, and what it does to them later touches
neither their kinds nor their diagnostics.
-/

namespace TolerantSyntax

open Node

/-! ## Runs -/

namespace Front

/-- Nothing has been set aside next to a token of the source. -/
theorem everywhere_trivia_next (P : Node → Prop) (front : Front) (mode : LexerMode) :
    Trivia.Everywhere P ((front.next mode).leading ++ (front.next mode).trailing) :=
  Trivia.everywhere_of_isPlain (Scanner.isStep_next (front.scanner mode)).plain

/-- In the course of a run assignments are to what can be assigned to, in what has been read and in
what waits for a token. -/
theorem Steps.aimed {f g : Front} {xs ys : Row} (h : Steps f xs g ys)
    (hf : Trivia.Everywhere Aimed f.pending) (hx : SlotsEverywhere Aimed xs) :
    Trivia.Everywhere Aimed g.pending ∧ SlotsEverywhere Aimed ys := by
  induction h with
  | refl => exact ⟨hf, hx⟩
  | @shift front row _ mode kind ih =>
    refine ⟨Trivia.everywhere_nil, slotsEverywhere_append.mpr ⟨ih.2, ?_⟩⟩
    have htrivia := front.everywhere_trivia_next Aimed mode
    refine slotsEverywhere_singleton.mpr (everywhere_leaf.mpr ?_)
    rw [Token.withKind, Token.withLeading, List.append_assoc]
    exact Trivia.everywhere_append.mpr ⟨ih.1, htrivia⟩
  | @discard front row _ mode _ ih =>
    have htoken : (Node.leaf (front.next mode)).Everywhere Aimed :=
      everywhere_leaf.mpr (front.everywhere_trivia_next Aimed mode)
    exact ⟨Trivia.everywhere_append.mpr ⟨ih.1, htoken.setAside _⟩, ih.2⟩
  | insert _ kind code ih =>
    refine ⟨ih.1, slotsEverywhere_append.mpr ⟨ih.2, ?_⟩⟩
    exact slotsEverywhere_singleton.mpr (everywhere_missing kind _ code)
  | become _ hb ih => exact ⟨ih.1, hb.aimed ih.2⟩

end Front

/-! ## Whole parses -/

variable {strategy : Strategy} {fuel : Nat} {kind : FragmentKind} {source : String} {tree : Node}
  {after : Parser}

theorem everywhere_aimed_of_fragment
    (hrun : ParseM.fragment kind (.ofFuel strategy fuel) (.ofSource source) = some (tree, after)) :
    tree.Everywhere Aimed := by
  obtain ⟨hl, -⟩ := (ParseM.finishes_fragment kind).leads (Env.sound_ofFuel strategy fuel)
    (Parser.valid_ofSource source) hrun
  have h := hl.steps.aimed Trivia.everywhere_nil slotsEverywhere_nil
  exact slotsEverywhere_singleton.mp h.2

/-- **What cannot be assigned to is flagged.** Also in what has been set aside, an assignment is to
an expression that can be assigned to or that says that it cannot, and a destructuring assignment is
to a binding pattern. So in a tree without diagnostics every assignment is to what it may be to. -/
theorem target_of_fragment
    (hrun : ParseM.fragment kind (.ofFuel strategy fuel) (.ofSource source) = some (tree, after)) :
    (∀ slots diagnostics, (composite .assignmentStatement slots diagnostics).PartOf tree →
      ∃ target, slots[0]? = some (some target) ∧ (target.kind.isTarget = true ∨
        .invalidAssignmentTarget ∈ target.ownDiagnostics.map Diagnostic.code)) ∧
    (∀ slots diagnostics,
      (composite .destructuringAssignmentStatement slots diagnostics).PartOf tree →
      ∃ target, slots[0]? = some (some target) ∧ target.kind.isBindingPattern = true) ∧
    (tree.diagnostics = [] → ∀ slots diagnostics,
      (composite .assignmentStatement slots diagnostics).PartOf tree →
      ∃ target, slots[0]? = some (some target) ∧ target.kind.isTarget = true) := by
  have haimed := everywhere_aimed_of_fragment hrun
  refine ⟨fun slots diagnostics hp => (haimed _ hp).target,
    fun slots diagnostics hp => (haimed _ hp).pattern, fun hd slots diagnostics hp => ?_⟩
  obtain ⟨target, hslot, htarget⟩ := (haimed _ hp).target
  refine ⟨target, hslot, htarget.resolve_right fun hcode => ?_⟩
  obtain ⟨diagnostic, hm, -⟩ := List.mem_map.mp hcode
  have hpart : target.PartOf tree := PartOf.trans (.slot (List.mem_of_getElem? hslot) .self) hp
  have hcollect : tree.collect = [] := (hd ▸ tree.diagnostics_perm).symm.eq_nil
  exact List.not_mem_nil (hcollect ▸ hpart.mem_collect hm)

/-- What the operator of a compound assignment stands behind is not looked at. -/
example :
    ((ParseM.fragment .statement (.ofFuel .standard 60) (.ofSource "f() += 1;")).map fun r =>
      (r.1.kind, (r.1.slot? 0).map Node.kind, r.1.collect.length)) =
        some (.compoundAssignmentStatement, some .functionCall, 0) := by
  decide +kernel

end TolerantSyntax
