import TolerantSyntax.Proofs.Twin.Run

/-!
# Members of bracketed lists

Whether a bracketed list is a tuple type, a list binding pattern or a list constructor is found out
member by member, and members that have been read are read again in the grammar that is decided for.
None of them ends up where it does not belong without being reported. For this a parse is compared
with itself: it keeps in step with itself, and trees of parses in step are seated.
-/

namespace TolerantSyntax

/-- **No member of a list is misread in silence.** In the tree of any source, a list binding pattern
has binding patterns as members, a tuple type has types, and a list constructor has neither, names
apart; any other member is reported as invalid there. -/
theorem suited_members_of_parseFragment (source : String) (kind : FragmentKind) :
    ∃ tree, parseFragment source kind = some tree ∧
      ∀ list : Node, list.PartOf tree → list.isToken = false →
        ∀ grammar ∈ list.kind.memberGrammar?,
          ∃ items, list.slot? 1 = some items ∧ items.kind = .list ∧
            ∀ member ∈ items.children, member.kind ≠ .comma →
              grammar.allows member.kind = true ∨
                grammar.invalidCode ∈ member.ownDiagnostics.map Diagnostic.code := by
  obtain ⟨tree, _, hparse, -, htwin⟩ := twins_of_parseFragment (.refl (.ofSource source)) kind
  refine ⟨tree, hparse, fun list hp hi grammar hg => ?_⟩
  obtain ⟨items, hslot, hkind, hjoins⟩ := htwin.seated list hp grammar hg hi
  refine ⟨items, hslot, hkind, fun member hm hc => ?_⟩
  exact ((hjoins member hm).resolve_left hc).allowed

end TolerantSyntax
