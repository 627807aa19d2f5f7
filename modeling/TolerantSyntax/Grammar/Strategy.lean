import TolerantSyntax.Grammar.Request

/-!
# Recovery strategies

A strategy chooses how to get past a token that a rule cannot continue with: take the token for
another kind, put a token in, or discard the token. It sees the request, the next two tokens and the
rules in progress. It may also answer by how often it has been asked, so that any sequence of
answers is the answers of some strategy.

The standard strategy makes cheap local edits. It never discards the end of input, nor a token that
some rule in progress owns.
-/

namespace TolerantSyntax

/-- What a strategy sees of the parse. -/
structure View where
  /-- Kind of the token at which the rule is stuck. -/
  current : Kind
  /-- Kind of the token after it. -/
  next : Kind
  contexts : ContextStack

namespace View

/-- Would a rule in progress consume the token at which the rule is stuck? -/
def ownedByEnclosing (view : View) : Bool :=
  view.contexts.anyOwns view.current

end View

/-- What to do about a token that a rule cannot continue with. -/
inductive Decision where
  /-- Take it for the given kind. -/
  | keep (kind : Kind)
  /-- Put a token of the given kind in front of it. -/
  | insert (kind : Kind)
  /-- Discard it. -/
  | remove
deriving DecidableEq, Repr, Inhabited

namespace Decision

/-- How a decision is written. -/
def text : Decision → String
  | keep kind => "Keep(" ++ kind.name ++ ")"
  | insert kind => "Insert(" ++ kind.name ++ ")"
  | remove => "Remove"

/-- At the end of input nothing can be discarded. -/
def atEnd (decision : Decision) (request : Request) (current : Kind) : Decision :=
  if decision = remove ∧ current = .eof then insert request.primary else decision

end Decision

/-- A strategy: from how often it has been asked before, the request and the view, to a decision. -/
abbrev Strategy := Nat → Request → View → Decision

namespace Strategy

/-- Does the token at which the rule is stuck begin another item of the list that the rule is? -/
def startsForgottenItem (request : Request) (view : View) : Bool :=
  match request with
  | .listEnd _ _ item => item.starts view.current && !view.ownedByEnclosing
  | _ => false

/-- The standard answer. -/
def answer (request : Request) (view : View) : Decision :=
  if view.current = .eof then .insert request.primary
  else if view.current.isContextualKeyword && request.accepts .identifier then .keep .identifier
  else if startsForgottenItem request view then .insert .comma
  else if view.ownedByEnclosing then .insert request.primary
  else .remove

/-- The standard strategy gives the standard answer however often it is asked. -/
def standard : Strategy := fun _ request view => answer request view

/-- The standard strategy discards no token that a rule in progress owns. -/
theorem ownedByEnclosing_of_answer_eq_remove {request : Request} {view : View}
    (h : answer request view = .remove) : view.ownedByEnclosing = false := by
  unfold answer at h
  repeat' split at h
  all_goals simp_all

end Strategy

end TolerantSyntax
