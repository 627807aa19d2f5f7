import TolerantSyntax.Grammar.Run

/-!
# Fragments

A parse reads a fragment: a whole source, one declaration, one statement or one expression. What is
left over behind a fragment is discarded and kept as trivia behind its last token, so the node of a
fragment covers all of the source.
-/

namespace TolerantSyntax

/-- Where a parse begins in the grammar. -/
inductive FragmentKind where
  /-- A whole source. -/
  | compilationUnit
  /-- One import or declaration. -/
  | moduleMember
  | statement
  /-- One expression or action. -/
  | expression
deriving DecidableEq, Repr, Inhabited

namespace FragmentKind

/-- Every kind of fragment. -/
def all : List FragmentKind :=
  [compilationUnit, moduleMember, statement, expression]

/-- The name by which a kind of fragment is chosen. -/
def name : FragmentKind → String
  | compilationUnit => "module"
  | moduleMember => "declaration"
  | statement => "statement"
  | expression => "expression"

/-- How a kind of fragment is listed among the options of a parse. -/
def label : FragmentKind → String
  | compilationUnit => "CompilationUnit"
  | moduleMember => "ModuleMember"
  | statement => "Statement"
  | expression => "Expression"

/-- The kind of fragment with a name. -/
def ofName? (name : String) : Option FragmentKind :=
  all.find? (·.name == name)

theorem mem_all (kind : FragmentKind) : kind ∈ all := by
  cases kind <;> decide

theorem ofName?_name (kind : FragmentKind) : ofName? kind.name = some kind := by
  cases kind <;> decide

end FragmentKind

namespace ParseM

/-! ## Whole sources -/

/-- An import, or a declaration of which something was consumed or is not missing. -/
def unitMember : ParseM (Option Node) := do
  if ← isNext .importKeyword then some <$> importDeclaration
  else
    let start ← position
    let member ← moduleMember
    if (← position) == start then
      discard
      return if member.isMissing then none else some member
    else return some member

/-- Imports and declarations up to the end of input, as two lists. -/
def unitMembers : ParseM (List Node × List Node) :=
  loop ([], []) fun (imports, members) => do
    let kind ← nextKind
    if kind == .eof then return .inr (imports, members)
    match ← unitMember with
    | none => return .inl (imports, members)
    | some member =>
      if kind != .importKeyword then return .inl (imports, members ++ [member])
      else if members.isEmpty then return .inl (imports ++ [member], members)
      else
        return .inl (imports, members ++ [member.withDiagnostic .importAfterDeclaration])

/-- Imports, declarations and the end of input. -/
def compilationUnit : ParseM Node :=
  within .compilationUnit do
    let (imports, members) ← unitMembers
    let eof ← consumeNode
    return .of .modulePart [.list imports, .list members, eof]

/-! ## Other fragments -/

/-- Discards what is left of the source and puts it behind the last token of a node. -/
def finishFragment (node : Node) : ParseM Node := do
  loop () fun _ => do
    if ← isNext .eof then return .inr ()
    else
      discard
      return .inl ()
  let eof ← consume
  return node.withTrailing (eof.leading ++ eof.trailing)

/-- One import or declaration. -/
def memberFragment : ParseM Node :=
  within .compilationUnit do
    let member ← if ← isNext .importKeyword then importDeclaration else moduleMember
    finishFragment member

/-- One statement, as in the body of a function. -/
def statementFragment : ParseM Node :=
  within .functionBodyBlock do
    finishFragment (← statement)

/-- One expression or action. -/
def expressionFragment : ParseM Node := do
  finishFragment (← valueOrAction)

/-- A fragment. -/
def fragment : FragmentKind → ParseM Node
  | .compilationUnit => compilationUnit
  | .moduleMember => memberFragment
  | .statement => statementFragment
  | .expression => expressionFragment

end ParseM

end TolerantSyntax
