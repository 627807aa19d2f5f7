import TolerantSyntax.Proofs.Twin.Run

/-!
# Commas between items

Items and commas come by turns in every list that has items, whichever of the loops has read it:
the one of delimited lists, which puts a comma in where one was forgotten and closes a list whose
first item is left out, the one for the names of an arrow function, which reads what has been seen
ahead, or one of those for lists whose grammar is decided later, after which the items become those
of another list. The order of parameters and arguments is checked behind that, and keeps the items
where they stand.
-/

namespace TolerantSyntax

/-- **Items have commas between them.** In the tree of any source, the items of a node are a list
that is empty or begins and ends with an item. Items, which are no tokens, stand at the even places
of the list and commas, some of them missing, at the odd ones. -/
theorem alternating_items_of_parseFragment (source : String) (kind : FragmentKind) :
    ∃ tree, parseFragment source kind = some tree ∧
      ∀ node : Node, node.PartOf tree → node.isToken = false →
        ∀ index ∈ node.kind.itemsSlot?,
          ∃ list items, node.slot? index = some list ∧ list.isToken = false ∧
            list.kind = .list ∧ list.slots = items.map some ∧
              (items = [] ∨ items.length % 2 = 1 ∧
                ∀ place item, items[place]? = some item →
                  if place % 2 = 0 then item.isToken = false
                  else item.isToken = true ∧ item.kind = .comma) := by
  obtain ⟨tree, _, hparse, -, htwin⟩ := twins_of_parseFragment (.refl (.ofSource source)) kind
  refine ⟨tree, hparse, fun node hp hi index hx => ?_⟩
  obtain ⟨list, hslot, hlist⟩ := htwin.listsItems node hp index hx hi
  refine ⟨list, list.children, hslot, hlist.interior, hlist.kind, hlist.slots_eq, ?_⟩
  refine hlist.alternates.imp_right fun halternating => ⟨?_, fun place item hitem => ?_⟩
  · have hlast := halternating.last_eq
    rw [List.length_map] at hlast
    simpa using hlast
  · have hkind := halternating.leafKind?_eq hitem
    split
    · next heven =>
      rw [if_pos heven] at hkind
      exact Node.leafKind?_eq_none_iff.mp hkind
    · next hodd =>
      rw [if_neg hodd] at hkind
      exact Node.leafKind?_eq_some_iff.mp hkind

end TolerantSyntax
