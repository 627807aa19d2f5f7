import TolerantSyntax.Kind.Classes
import TolerantSyntax.Span

/-!
# Diagnostics

What can be wrong with a source is a closed list of codes. A code has a stable identifier, a
severity and a message. A diagnostic is a code at a span, and it is always attached to a token or a
node of the tree.
-/

namespace TolerantSyntax

/-- How serious a diagnostic is. -/
inductive Severity where
  | warning
  | error
deriving DecidableEq, Repr, Inhabited

/-- The word for a severity. -/
def Severity.text : Severity → String
  | .warning => "warning"
  | .error => "error"

/-- Everything that can be wrong with a source. -/
inductive DiagnosticCode where
  /-- A token of this kind is not there. -/
  | missingToken (kind : Kind)
  | missingIdentifier
  | missingSemicolon
  | missingCloseBrace
  | missingCloseParen
  | missingCloseBracket
  | missingTypeDescriptor
  | missingExpression
  | missingBindingPattern
  | missingMatchPattern
  /-- A token of this kind was set aside. -/
  | invalidToken (kind : Kind)
  /-- A whole node was set aside. -/
  | invalidNode
  | unterminatedString
  | invalidEscapeSequence
  | malformedNumber
  | requiredParamAfterDefaultable
  | paramAfterRestParam
  | positionalArgAfterNamedArg
  | restArgFollowedByAnotherArg
  | duplicateQualifier
  | qualifierNotAllowed
  | actionNotAllowed
  | invalidShiftOperator
  | invalidBindingPattern
  | invalidTypeDescriptor
  | invalidExpression
  | invalidAssignmentTarget
  | expressionStatementNotAllowed
  | annotationsNotAllowed
  | importAfterDeclaration
  | unexpectedToken
deriving DecidableEq, Repr, Inhabited

namespace DiagnosticCode

/-- The code for a token of this kind that is not there. Common kinds have a code of their own. -/
def missing : Kind → DiagnosticCode
  | .identifier => missingIdentifier
  | .semicolon => missingSemicolon
  | .closeBrace => missingCloseBrace
  | .closeParen => missingCloseParen
  | .closeBracket => missingCloseBracket
  | kind => missingToken kind

/-- The stable identifier of a code. -/
def id : DiagnosticCode → String
  | missingToken _ => "BCE0001"
  | missingIdentifier => "BCE0002"
  | missingSemicolon => "BCE0003"
  | missingCloseBrace => "BCE0004"
  | missingCloseParen => "BCE0005"
  | missingCloseBracket => "BCE0006"
  | missingTypeDescriptor => "BCE0007"
  | missingExpression => "BCE0008"
  | missingBindingPattern => "BCE0009"
  | missingMatchPattern => "BCE0010"
  | invalidToken _ => "BCE0100"
  | invalidNode => "BCE0101"
  | unterminatedString => "BCE0102"
  | invalidEscapeSequence => "BCE0103"
  | malformedNumber => "BCE0104"
  | requiredParamAfterDefaultable => "BCE0200"
  | paramAfterRestParam => "BCE0201"
  | positionalArgAfterNamedArg => "BCE0202"
  | restArgFollowedByAnotherArg => "BCE0203"
  | duplicateQualifier => "BCE0204"
  | qualifierNotAllowed => "BCE0205"
  | actionNotAllowed => "BCE0206"
  | invalidShiftOperator => "BCE0207"
  | invalidBindingPattern => "BCE0208"
  | invalidTypeDescriptor => "BCE0209"
  | invalidExpression => "BCE0210"
  | invalidAssignmentTarget => "BCE0211"
  | expressionStatementNotAllowed => "BCE0212"
  | annotationsNotAllowed => "BCE0213"
  | importAfterDeclaration => "BCE0214"
  | unexpectedToken => "BCE0300"

/-- An expression that stands as a statement is suspicious; everything else is wrong. -/
def severity : DiagnosticCode → Severity
  | expressionStatementNotAllowed => .warning
  | _ => .error

/-- The message for a reader. -/
def message : DiagnosticCode → String
  | missingToken kind => "missing " ++ kind.describe
  | missingIdentifier => "missing identifier"
  | missingSemicolon => "missing semicolon token"
  | missingCloseBrace => "missing close brace token"
  | missingCloseParen => "missing close parenthesis token"
  | missingCloseBracket => "missing close bracket token"
  | missingTypeDescriptor => "missing type descriptor"
  | missingExpression => "missing expression"
  | missingBindingPattern => "missing binding pattern"
  | missingMatchPattern => "missing match pattern"
  | invalidToken kind => "invalid token " ++ kind.describe
  | invalidNode => "invalid construct"
  | unterminatedString => "unterminated string literal"
  | invalidEscapeSequence => "invalid escape sequence"
  | malformedNumber => "malformed numeric literal"
  | requiredParamAfterDefaultable => "required parameter after defaultable parameter"
  | paramAfterRestParam => "parameter after rest parameter"
  | positionalArgAfterNamedArg => "positional argument after named argument"
  | restArgFollowedByAnotherArg => "rest argument followed by another argument"
  | duplicateQualifier => "duplicate qualifier"
  | qualifierNotAllowed => "qualifier not allowed here"
  | actionNotAllowed => "action not allowed here"
  | invalidShiftOperator => "whitespace not allowed inside shift operator"
  | invalidBindingPattern => "invalid binding pattern"
  | invalidTypeDescriptor => "invalid type descriptor"
  | invalidExpression => "invalid expression"
  | invalidAssignmentTarget => "invalid assignment target"
  | expressionStatementNotAllowed => "expression is not allowed as a statement"
  | annotationsNotAllowed => "annotations not allowed here"
  | importAfterDeclaration => "import declaration after module member"
  | unexpectedToken => "unexpected token"

/-- A code as it is listed: its identifier and its message. -/
def text (code : DiagnosticCode) : String :=
  code.id ++ ": " ++ code.message

end DiagnosticCode

/-- A code at a span. The span is empty for a part that is not there. -/
structure Diagnostic where
  code : DiagnosticCode
  span : Span
deriving DecidableEq, Repr, Inhabited

namespace Diagnostic

/-- How serious it is. -/
def severity (diagnostic : Diagnostic) : Severity :=
  diagnostic.code.severity

/-- A diagnostic as it is listed: the code and the place. -/
def text (diagnostic : Diagnostic) : String :=
  diagnostic.code.text ++ " at " ++ diagnostic.span.text

end Diagnostic

end TolerantSyntax
