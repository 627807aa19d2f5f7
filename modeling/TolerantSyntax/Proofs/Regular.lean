import TolerantSyntax.Parse
import TolerantSyntax.Proofs.Parse.Fragment

/-!
# Trees are regular

A token of the source stands for itself, and whatever waits to be set aside says why. A parse shifts
tokens, discards them and puts others in, and makes nodes of the slots of their kind. So every tree
is regular, whatever the strategy answers: its nodes can be read by the index of a slot, and no
repair is silent. No token has to be put in just to carry what was set aside, since every node that
is made has one.
-/

namespace TolerantSyntax

namespace Front

open Node

/-! ## One token further -/

/-- Nothing has been set aside next to a token of the source. -/
theorem regular_trivia_next (front : Front) (mode : LexerMode) :
    Trivia.Regular ((front.next mode).leading ++ (front.next mode).trailing) :=
  Trivia.regular_of_forall fun invalid hm =>
    (Scanner.isStep_next (front.scanner mode)).plain (.invalid invalid) hm

theorem slotsRegular_next (front : Front) (mode : LexerMode) :
    SlotsRegular [some (.leaf (front.next mode))] := by
  refine slotsRegular_leaf.mpr ⟨fun hm => ?_, front.regular_trivia_next mode⟩
  have hpresent : (front.next mode).missing = false :=
    (Scanner.isStep_next (front.scanner mode)).present
  rw [hpresent] at hm
  exact absurd hm Bool.false_ne_true

theorem slotsRegular_front_leaf {front : Front} (h : Trivia.Regular front.pending)
    (mode : LexerMode) (kind : Kind) : SlotsRegular [some (front.leaf mode kind)] := by
  obtain ⟨hmissing, htrivia⟩ := slotsRegular_leaf.mp (front.slotsRegular_next mode)
  refine slotsRegular_leaf.mpr ⟨hmissing, ?_⟩
  rw [Token.withKind, Token.withLeading, List.append_assoc]
  exact Trivia.regular_append.mpr ⟨h, htrivia⟩

/-! ## Runs -/

/-- What has been read and what waits for a token stay regular in the course of a run. -/
theorem Steps.regular {f g : Front} {xs ys : Row} (h : Steps f xs g ys)
    (hf : Trivia.Regular f.pending) (hx : SlotsRegular xs) :
    Trivia.Regular g.pending ∧ SlotsRegular ys := by
  induction h with
  | refl => exact ⟨hf, hx⟩
  | shift _ mode kind ih =>
    refine ⟨Trivia.regular_of_forall fun _ => List.not_mem_nil, ?_⟩
    exact slotsRegular_append.mpr ⟨ih.2, slotsRegular_front_leaf ih.1 mode kind⟩
  | discard _ mode _ ih =>
    exact ⟨Trivia.regular_append.mpr ⟨ih.1, regular_setAside _ (slotsRegular_next _ mode)⟩, ih.2⟩
  | insert _ kind code ih =>
    exact ⟨ih.1, slotsRegular_append.mpr ⟨ih.2, slotsRegular_missing kind _ code⟩⟩
  -- no token is touched by this step, so nothing waits differently
  | become _ hb ih => exact ⟨ih.1, hb.regular ih.2⟩

end Front

/-! ## Whole parses -/

variable {strategy : Strategy} {fuel : Nat} {kind : FragmentKind} {source : String} {tree : Node}
  {after : Parser}

theorem slotsRegular_of_fragment
    (hrun : ParseM.fragment kind (.ofFuel strategy fuel) (.ofSource source) = some (tree, after)) :
    Node.SlotsRegular [some tree] := by
  obtain ⟨hl, -⟩ := (ParseM.finishes_fragment kind).leads (Env.sound_ofFuel strategy fuel)
    (Parser.valid_ofSource source) hrun
  exact (hl.steps.regular (Trivia.regular_of_forall fun _ => List.not_mem_nil)
    Node.slotsRegular_nil).2

/-- **Every interior node has the slots of its kind**, filled but for those that may stay empty,
also in what has been set aside. The parameters of a stream type have a node and a layout of their
own. -/
theorem admits_of_fragment
    (hrun : ParseM.fragment kind (.ofFuel strategy fuel) (.ofSource source) = some (tree, after))
    {node : Node} (hp : node.PartOf tree) (hn : node.isToken = false) :
    node.kind.admits node.slots = true := by
  have hregular := Node.slotsRegular_singleton.mp (slotsRegular_of_fragment hrun) node hp
  cases node with
  | leaf token => cases hn
  | composite kind slots diagnostics => exact hregular

/-- An operator that has the `=` in its last token, so that no slot is left for it. -/
theorem admits_of_fragment_fused :
    ∃ tree after, ParseM.fragment .statement (.ofFuel .standard 60) (.ofSource "a >>= b;") =
      some (tree, after) ∧ tree.kind = .compoundAssignmentStatement ∧ tree.slots[2]? = some none ∧
      tree.kind.admits tree.slots = true := by
  have hsome : ((ParseM.fragment .statement (.ofFuel .standard 60) (.ofSource "a >>= b;")).map
      fun r => (r.1.kind, r.1.isToken, r.1.slots[2]?.map Option.isNone)) =
        some (.compoundAssignmentStatement, false, some true) := by
    decide +kernel
  obtain ⟨⟨tree, after⟩, hrun, hshape⟩ := Option.map_eq_some_iff.mp hsome
  simp only [Prod.mk.injEq] at hshape
  obtain ⟨hkind, hinterior, hslot⟩ := hshape
  obtain ⟨slot, hslot, hnone⟩ := Option.map_eq_some_iff.mp hslot
  rw [Option.isNone_iff_eq_none.mp hnone] at hslot
  exact ⟨tree, after, hrun, hkind, hslot, admits_of_fragment hrun .self hinterior⟩

/-- The layouts with the parameters of a stream type among its own slots: `stream`, `<`, a type, `,`
and another type if they are there, `>`. -/
def Kind.flatLayout : Kind → Layout
  | .streamTypeDescriptor =>
    .parts [.always, .always, .always, .maybe, .maybe, .always]
  | kind => kind.layout

/-- The parameters of a stream type are not among its own slots. -/
theorem not_flatLayout_of_fragment :
    ¬∀ (strategy : Strategy) (fuel : Nat) (kind : FragmentKind) (source : String) (tree : Node)
      (after : Parser),
      ParseM.fragment kind (.ofFuel strategy fuel) (.ofSource source) = some (tree, after) →
      ∀ node : Node, node.PartOf tree → node.isToken = false →
        node.kind.flatLayout.admits (Node.outlines node.slots) = true := by
  intro hflat
  have hsome : ((ParseM.fragment .statement (.ofFuel .standard 60)
      (.ofSource "stream<int> x;")).bind fun r => (r.1.slot? 2).bind (Node.slot? · 0)).map
        (fun type => (type.isToken, type.kind.flatLayout.admits (Node.outlines type.slots))) =
          some (false, false) := by
    decide +kernel
  obtain ⟨type, htype, hshape⟩ := Option.map_eq_some_iff.mp hsome
  obtain ⟨⟨tree, after⟩, hrun, hslots⟩ := Option.bind_eq_some_iff.mp htype
  obtain ⟨binding, hbinding, htype⟩ := Option.bind_eq_some_iff.mp hslots
  rw [Prod.mk.injEq] at hshape
  have hpart : type.PartOf tree :=
    (Node.partOf_of_slot? htype).trans (Node.partOf_of_slot? hbinding)
  have hadmits := hflat _ _ _ _ tree after hrun type hpart hshape.1
  rw [hshape.2] at hadmits
  exact Bool.false_ne_true hadmits

/-- **No repair is silent.** A token that was put in has no text and says why it is there, and so
does all that was set aside. So in a tree without diagnostics there is neither. -/
theorem reported_of_fragment
    (hrun : ParseM.fragment kind (.ofFuel strategy fuel) (.ofSource source) = some (tree, after)) :
    (∀ token, (Node.leaf token).PartOf tree → token.missing = true →
      token.text = "" ∧ token.span.isEmpty = true ∧ token.diagnostics ≠ []) ∧
    (∀ token invalid, (Node.leaf token).PartOf tree →
      .invalid invalid ∈ token.leading ++ token.trailing → invalid.ownDiagnostics ≠ []) ∧
    (tree.diagnostics = [] → ∀ token, (Node.leaf token).PartOf tree →
      token.missing = false ∧ ∀ invalid, .invalid invalid ∉ token.leading ++ token.trailing) := by
  have hregular := slotsRegular_of_fragment hrun
  have hparts := Node.slotsRegular_singleton.mp hregular
  exact ⟨fun token hp => (hparts _ hp).1, fun token invalid hp => (hparts _ hp).2 invalid,
    fun hd token hp => Node.unrepaired_of_diagnostics_eq_nil hregular hd hp⟩

/-- A token is set aside and others are put in. -/
theorem reported_of_fragment_repaired :
    ∃ tree after, ParseM.fragment .statement (.ofFuel .standard 60) (.ofSource ") x =") =
      some (tree, after) ∧ tree.collect.length = 3 ∧
      (∀ token, (Node.leaf token).PartOf tree → token.missing = true →
        token.text = "" ∧ token.span.isEmpty = true ∧ token.diagnostics ≠ []) ∧
      ∀ token invalid, (Node.leaf token).PartOf tree →
        .invalid invalid ∈ token.leading ++ token.trailing → invalid.ownDiagnostics ≠ [] := by
  have hsome : ((ParseM.fragment .statement (.ofFuel .standard 60) (.ofSource ") x =")).map
      fun r => r.1.collect.length) = some 3 := by
    decide +kernel
  obtain ⟨⟨tree, after⟩, hrun, hcount⟩ := Option.map_eq_some_iff.mp hsome
  obtain ⟨hmissing, haside, -⟩ := reported_of_fragment hrun
  exact ⟨tree, after, hrun, hcount, hmissing, haside⟩

end TolerantSyntax
