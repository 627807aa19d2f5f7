import TolerantSyntax.Grammar.Fragment
import TolerantSyntax.Proofs.Termination
import TolerantSyntax.Proofs.Twin.Declaration
import TolerantSyntax.Proofs.Twin.Statement

/-!
# Fragments in step

All rules keep parses in step, by induction on the fuel of one of them, and so do all fragments.
-/

namespace TolerantSyntax

open Node (PartTwin Twins)

namespace ParseM

/-! ## Entering rules -/

/-- The parser of a request keeps parses in step, whatever has been read before. -/
theorem inStep_enterRequest {request request' : Request} (h : request.Twin request') (kind : Kind) :
    InStep (Node.TwinAs (Rule.request request).role) (enterRequest request kind)
      (enterRequest request' kind) := by
  cases h with
  | token context expected => exact (inStep_expectAs kind expected context).plain
  | listEnd context close item => exact inStep_listEndAs kind context close item
  | importDeclaration => exact inStep_importDeclaration.plain
  | moduleMember hm hq => exact (inStep_moduleMemberAs kind hm hq).plain
  | statement hm => exact (inStep_statementAs kind hm).plain
  | statementRhs hm hl => exact (inStep_statementRhsAs kind hm hl).plain
  | classMember hm hq objectType => exact (inStep_classMemberAs kind hm hq objectType).plain
  | recordField hm => exact (inStep_recordFieldAs kind hm).plain
  | parameter hm => exact inStep_parameterAs kind hm
  | argument => exact inStep_argumentAs kind
  | typeDescriptor context => exact inStep_typeDescriptorAs kind context
  | bindingPattern => exact inStep_bindingPatternAs kind
  | matchPattern => exact inStep_matchPatternAs kind
  | expression floor flags => exact inStep_expressionAs kind floor flags
  | functionBody => exact (inStep_functionBodyAs kind).plain
  | variableRhs hm hq hb moduleLevel => exact (inStep_variableRhsAs kind hm hq hb moduleLevel).plain
  | elseBody => exact (inStep_elseBodyAs kind).plain
  | queryEnd hp flags => exact inStep_queryEndAs kind flags hp
  | mappingField context => exact inStep_mappingFieldAs kind context

/-- So does the parser of every rule. -/
theorem inStep_enter {rule rule' : Rule} (h : rule.Twin rule') (kind : Kind) :
    InStep (Node.TwinAs rule.role) (enter rule kind) (enter rule' kind) := by
  cases h with
  | request h => exact inStep_enterRequest h kind
  | operand floor flags => exact inStep_operandAs kind floor flags
  | primaryType context => exact inStep_primaryTypeAs kind context

end ParseM

/-- **Rules that run keep parses in step, however much fuel each of them has.** -/
theorem Env.alike_ofFuel (fuel fuel' : Nat) :
    (ofFuel .standard fuel).Alike (ofFuel .standard fuel') := by
  refine ⟨rfl, rfl, sound_ofFuel .standard fuel, ?_⟩
  induction fuel generalizing fuel' with
  | zero =>
    intro _ _ _ _ _ _ _ _ _ _ _ _ hrun
    cases hrun
  | succ fuel ih =>
    cases fuel' with
    | zero =>
      intro _ _ _ _ _ _ _ _ _ _ _ _ _ hrun'
      cases hrun'
    | succ fuel' =>
      intro rule rule' kind p q p' q' a b shift h hp hrun hrun'
      have he : (ofFuel .standard fuel).Alike (ofFuel .standard fuel') :=
        ⟨rfl, rfl, sound_ofFuel .standard fuel, ih fuel'⟩
      exact (ParseM.inStep_enter h kind).run he hp hrun hrun'

namespace ParseM

variable {a b : Node}

/-! ## Whole sources -/

/-- An import or a declaration; one that is missing is left out in both parses, if it is in one. -/
theorem inStep_unitMember : InStep PartTwin unitMember unitMember := by
  refine (inStep_isNext _).same fun _ => .ite (fun _ => inStep_importDeclaration.part) fun _ => ?_
  refine InStep.noting fun start start' => inStep_moduleMember.since fun _ _ hm => ?_
  refine .ifStill (inStep_discard.bind fun _ _ _ => ?_) (.pure (.some hm))
  rw [hm.isMissing_eq]
  refine .pure ?_
  split
  · exact .none
  · exact .some hm

/-- Imports and declarations that have been read. In the first source, some imports were read
before. -/
structure MembersTwin (before : List Node) (r r' : List Node × List Node) : Prop where
  imports : ∃ imports, r.1 = before ++ imports ∧ Twins imports r'.1
  members : Twins r.2 r'.2

/-- A turn of the loop over members adds an import or a declaration to both lists. -/
theorem inStep_membersTurn {before : List Node} {r r' : List Node × List Node}
    (h : MembersTwin before r r') :
    InStep (Sum.LiftRel (MembersTwin before) (MembersTwin before)) (membersTurn r)
      (membersTurn r') := by
  have hempty {xs ys : List Node} (hx : Twins xs ys) : xs.isEmpty = ys.isEmpty := by
    cases hx <;> rfl
  refine inStep_nextKind.same fun kind => .ite (fun _ => .pure (.inr h)) fun _ => ?_
  refine inStep_unitMember.bind fun part part' hm => ?_
  cases hm with
  | none => exact .pure (.inl h)
  | some hm =>
    dsimp only
    rw [hempty h.members]
    refine .ite (fun _ => ?_) fun _ => .ite (fun _ => ?_) fun _ => ?_
    · exact .pure (.inl ⟨h.imports, List.rel_append h.members (.cons hm .nil)⟩)
    · obtain ⟨imports, heq, himports⟩ := h.imports
      have hmore := List.rel_append himports (.cons hm .nil)
      refine .pure (.inl ⟨⟨imports ++ [_], ?_, hmore⟩, h.members⟩)
      rw [heq, List.append_assoc]
    · have hlate := hm.withDiagnostic .importAfterDeclaration
      exact .pure (.inl ⟨h.imports, List.rel_append h.members (.cons hlate .nil)⟩)

/-- Imports, members and the end of input. -/
theorem inStep_compilationUnit : InStep Node.Twin compilationUnit compilationUnit := by
  have hmembers : InStep (MembersTwin []) unitMembers unitMembers :=
    .loop (R := MembersTwin []) ⟨⟨[], rfl, .nil⟩, .nil⟩ fun _ _ h => inStep_membersTurn h
  refine .within _ (hmembers.bind fun _ _ h => inStep_consumeNode.bind fun _ _ he => ?_)
  obtain ⟨imports, heq, himports⟩ := h.imports
  rw [show _ = imports from heq]
  exact .of rfl (.cons (.list himports) (.cons (.list h.members) (.cons he .nil)))

/-! ## Other fragments -/

/-- What is left of the source is discarded, and goes behind the last token. -/
theorem inStep_finishFragment (h : a.Twin b) (ht : a.HasToken) :
    InStep Node.Twin (finishFragment a) (finishFragment b) := by
  refine InStep.bind (R := fun _ _ => True) ?_ fun _ _ _ => inStep_consume.bind fun e f he => ?_
  · refine .loop (R := fun _ _ => True) trivial fun _ _ _ => (inStep_isNext _).same fun _ => ?_
    refine .ite (fun _ => .pure (.inr trivial)) fun _ => ?_
    exact inStep_discard.bind fun _ _ _ => .pure (.inl trivial)
  · have hbare := he.bare
    simp only [Node.bare, Token.bare_eq, Node.leaf.injEq, Token.mk.injEq] at hbare
    obtain ⟨-, -, -, hleading, htrailing, -⟩ := hbare
    refine .pure (h.withTrailing ht ?_ (Node.tidy_leaf.mp he.tidy))
    rw [Trivia.bareAll_append, Trivia.bareAll_append, hleading, htrailing]

/-- What is left of a source is put behind the last token of a fragment. -/
theorem inStep_finishing {n n' : ParseM Node} {limit : Option Nat} {start : Kind → Prop}
    {bound : Nat} {given : Row} {moves : Node → Prop} (h : InStep Node.Twin n n')
    (hn : Meets limit start bound given n .node moves) :
    InStep Node.Twin (n >>= finishFragment) (n' >>= finishFragment) :=
  (h.knowing hn).bind fun _ _ h => inStep_finishFragment h.1 h.2

/-- A member of a module as a fragment. -/
theorem inStep_memberFragment : InStep Node.Twin memberFragment memberFragment := by
  refine .within _ ((inStep_isNext _).same fun _ => .ite (fun _ => ?_) fun _ => ?_)
  · exact inStep_finishing inStep_importDeclaration opens_importDeclaration.reads
  · exact inStep_finishing inStep_moduleMember reads_moduleMember

/-- Fragments of every kind keep parses in step. -/
theorem inStep_fragment (kind : FragmentKind) :
    InStep Node.Twin (fragment kind) (fragment kind) := by
  cases kind with
  | compilationUnit => exact inStep_compilationUnit
  | moduleMember => exact inStep_memberFragment
  | statement => exact .within _ (inStep_finishing inStep_statement reads_statement)
  | expression => exact inStep_finishing inStep_valueOrAction.twin reads_valueOrAction

end ParseM

/-! ## Parses -/

/-- Parses of sources whose scans are alike begin in step. -/
theorem Parser.alike_ofSource {source other : String}
    (h : (Scanner.ofSource source).Alike (.ofSource other)) :
    (ofSource source).Alike 0 (ofSource other) where
  left := valid_ofSource source
  right := valid_ofSource other
  scan := by
    have hplace (source : String) : (ofSource source).reader.place = .ofSource source :=
      (TokenReader.isAt_ofSource source).place_eq
    rw [hplace, hplace]
    exact h
  modes := rfl
  looked := rfl
  consumed := rfl
  contexts := rfl
  pending := rfl
  tidy := Trivia.tidy_nil

/-- **Sources whose scans are alike have twins as trees.** -/
theorem twins_of_parseFragment {source other : String}
    (h : (Scanner.ofSource source).Alike (.ofSource other)) (kind : FragmentKind) :
    ∃ tree tree', parseFragment source kind = some tree ∧
      parseFragment other kind = some tree' ∧ tree.Twin tree' := by
  have hreturns (source : String) :=
    Parser.isSome_parseFragment Strategy.admissible_standard source kind
  obtain ⟨⟨tree, after⟩, hrun⟩ := Option.isSome_iff_exists.mp (hreturns source)
  obtain ⟨⟨tree', after'⟩, hrun'⟩ := Option.isSome_iff_exists.mp (hreturns other)
  obtain ⟨htwin, -⟩ := (ParseM.inStep_fragment kind).run (Env.alike_ofFuel _ _)
    (Parser.alike_ofSource h) hrun hrun'
  refine ⟨tree, tree', ?_, ?_, htwin⟩
  · exact Option.map_eq_some_iff.mpr ⟨_, hrun, rfl⟩
  · exact Option.map_eq_some_iff.mpr ⟨_, hrun', rfl⟩

end TolerantSyntax
