import TolerantSyntax.Grammar.Declaration
import TolerantSyntax.Grammar.Statement

/-!
# Running rules

Here the recursion of the grammar is tied: `ParseM.enter` says which definition a rule has, and
`run` runs it in an environment in which rules run with less fuel.

## Termination

`run` recurses on the fuel. A rule that refers to another one goes down by one.
-/

namespace TolerantSyntax

namespace ParseM

/-- The rule of a request; `kind` is what the next token is taken for. -/
def enterRequest (request : Request) (kind : Kind) : ParseM Node :=
  match request with
  | .token context expected => expectAs kind expected context
  | .listEnd context close item => listEndAs kind context close item
  | .importDeclaration => importDeclaration
  | .moduleMember metadata qualifiers => moduleMemberAs kind metadata qualifiers
  | .statement annotations => statementAs kind annotations
  | .statementRhs annotations lhs => statementRhsAs kind annotations lhs
  | .classMember metadata qualifiers objectType =>
    classMemberAs kind metadata qualifiers objectType
  | .recordField metadata => recordFieldAs kind metadata
  | .parameter annotations => parameterAs kind annotations
  | .argument => argumentAs kind
  | .typeDescriptor context => typeDescriptorAs kind context
  | .bindingPattern => bindingPatternAs kind
  | .matchPattern => matchPatternAs kind
  | .expression floor flags => expressionAs kind floor flags
  | .functionBody => functionBodyAs kind
  | .variableRhs metadata qualifiers binding moduleLevel =>
    variableRhsAs kind metadata qualifiers binding moduleLevel
  | .elseBody => elseBodyAs kind
  | .queryEnd pipeline flags => queryEndAs kind pipeline flags
  | .mappingField context => mappingFieldAs kind context

/-- A rule; `kind` is what the next token is taken for. -/
def enter (rule : Rule) (kind : Kind) : ParseM Node :=
  match rule with
  | .request request => enterRequest request kind
  | .operand floor flags => operandAs kind floor flags
  | .primaryType context => primaryTypeAs kind context

end ParseM

/-- Runs a rule whose next token is taken for the given kind. -/
def run (strategy : Strategy) : Nat → Rule → Kind → Parser → Option (Node × Parser)
  | 0, _, _, _ => none
  | fuel + 1, rule, kind, parser =>
    ParseM.enter rule kind { strategy, fuel, call := run strategy fuel } parser

/-- The environment in which rules run with some fuel. -/
def Env.ofFuel (strategy : Strategy) (fuel : Nat) : Env :=
  { strategy, fuel, call := run strategy fuel }

end TolerantSyntax
