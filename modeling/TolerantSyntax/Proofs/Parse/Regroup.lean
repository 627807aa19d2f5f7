import TolerantSyntax.Proofs.Parse.Row
import TolerantSyntax.Proofs.Tree.Tokens

/-!
# Rows whose pieces are regrouped

Some of what rules do with a row only builds nodes over it: the tokens stay, and nothing that is
said about them is dropped. `Regroups` lists these steps. All of them are steps of `Becomes`.
-/

namespace TolerantSyntax

/-- A token as it was read, without what is wrong with it. -/
def Token.unflagged (token : Token) : Token :=
  { token with diagnostics := [] }

namespace Row

open Node

/-- What can be made of a row by building nodes over it and flagging them. -/
inductive Regroups : Row → Row → Prop where
  | refl (xs : Row) : Regroups xs xs
  | trans {xs ys zs : Row} : Regroups xs ys → Regroups ys zs → Regroups xs zs
  | append {xs ys xs' ys' : Row} :
      Regroups xs ys → Regroups xs' ys' → Regroups (xs ++ xs') (ys ++ ys')
  /-- A slot stays empty. -/
  | gap : Regroups [] [none]
  /-- The row is what a node is made of. -/
  | group (kind : Kind) (row : Row) (ha : kind.composes row = true) :
      Regroups row [some (.ofSlots kind row)]
  /-- A node that nothing is wrong with is taken apart again. -/
  | ungroup {kind : Kind} (row : Row) (h : kind ≠ .recordRestDescriptor) :
      Regroups [some (.ofSlots kind row)] row
  /-- A node becomes one of another kind, and its parts with it. -/
  | relabel {kind : Kind} (other : Kind) {row row' : Row} (diagnostics : List Diagnostic)
      (h : kind ≠ .recordRestDescriptor)
      (ha : kind.admits row = true → other.admits row' = true) (hr : other.aims row' = true) :
      Regroups row row' →
      Regroups [some (.composite kind row diagnostics)] [some (.composite other row' diagnostics)]
  | flag (node : Node) (code : DiagnosticCode) :
      Regroups [some node] [some (node.withDiagnostic code)]

namespace Regroups

variable {xs ys : Row}

theorem append_left (h : Regroups xs ys) (front : Row) : Regroups (front ++ xs) (front ++ ys) :=
  .append (.refl front) h

theorem append_right (h : Regroups xs ys) (back : Row) : Regroups (xs ++ back) (ys ++ back) :=
  .append h (.refl back)

/-- A slot behind the row stays empty. -/
theorem withGap (xs : Row) : Regroups xs (xs ++ [none]) := by
  simpa using Regroups.gap.append_left xs

theorem cons (slot : Option Node) (h : Regroups xs ys) : Regroups (slot :: xs) (slot :: ys) :=
  h.append_left [slot]

theorem becomes (h : Regroups xs ys) : Becomes xs ys := by
  induction h with
  | refl xs => exact .refl xs
  | trans _ _ ih ih' => exact ih.trans ih'
  | append _ _ ih ih' => exact ih.append ih'
  | gap => exact .gap
  | group kind row ha => exact .group kind row ha
  | ungroup row h => exact .ungroup row [] h
  | relabel other diagnostics h ha hr _ ih => exact .relabel other diagnostics h ha hr ih
  | flag node code => exact .flag node code

/-- The tokens stay, in the same order and with the same trivia. -/
theorem tokens (h : Regroups xs ys) :
    (slotsTokens ys).map Token.unflagged = (slotsTokens xs).map Token.unflagged := by
  induction h with
  | refl => rfl
  | trans _ _ ih ih' => exact ih'.trans ih
  | append _ _ ih ih' => rw [slotsTokens_append, slotsTokens_append, List.map_append, ih, ih',
      List.map_append]
  | gap => rfl
  | group kind row => simp [ofSlots]
  | ungroup row => simp [ofSlots]
  | relabel other diagnostics _ _ _ _ ih => simpa using ih
  | flag node code =>
    cases node with
    | leaf token => simp [withDiagnostic, Token.withDiagnostic, Token.unflagged]
    | composite kind slots diagnostics => simp [withDiagnostic]

/-- What was found wrong with the pieces is still said of them. -/
theorem findings (h : Regroups xs ys) : (collectSlots xs).Sublist (collectSlots ys) := by
  induction h with
  | refl => exact .refl _
  | trans _ _ ih ih' => exact ih.trans ih'
  | append _ _ ih ih' =>
    rw [collectSlots_append, collectSlots_append]
    exact ih.append ih'
  | gap => exact .refl _
  | group kind row => simp [collectSlots, collect, ofSlots]
  | ungroup row => simp [collectSlots, collect, ofSlots]
  | relabel other diagnostics _ _ _ _ ih =>
    simp only [collectSlots, collect, List.append_nil]
    exact ih.append_left diagnostics
  | flag node code =>
    cases node with
    | leaf token =>
      simp only [collectSlots, withDiagnostic, collect, Token.collect_eq, Token.withDiagnostic,
        List.append_nil]
      exact ((List.sublist_append_left _ _).append_right _).append_right _
    | composite kind slots diagnostics =>
      simp only [collectSlots, withDiagnostic, collect, List.append_nil]
      exact (List.sublist_append_left _ _).append_right _

end Regroups

end Row

end TolerantSyntax
