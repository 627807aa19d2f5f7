import TolerantSyntax.Main
import TolerantSyntax.Program.MemoryHost
import TolerantSyntax.Proofs.Lexer.Scan
import TolerantSyntax.Proofs.Tree.Leaves
import TolerantSyntax.Shell.Assist
import TolerantSyntax.Tree.Equality
import TolerantSyntax.Tree.Listing
import TolerantSyntax.Proofs.Lexer.Reader
import TolerantSyntax.Proofs.Lossless
import TolerantSyntax.Proofs.Termination
import TolerantSyntax.Proofs.Resume
import TolerantSyntax.Proofs.Lexer.Cursor
import TolerantSyntax.Proofs.Positions
import TolerantSyntax.Proofs.Expression.RoundTrip
import TolerantSyntax.Proofs.Regular
import TolerantSyntax.Proofs.Bracketed.Resolution
import TolerantSyntax.Proofs.Type.RoundTrip
import TolerantSyntax.Proofs.Members
import TolerantSyntax.Proofs.Separators
import TolerantSyntax.Proofs.Adjacency
import TolerantSyntax.Proofs.Lexer.Line
import TolerantSyntax.Proofs.Scope
import TolerantSyntax.Proofs.Contextual
import TolerantSyntax.Proofs.Expression.Action
import TolerantSyntax.Proofs.Target
import TolerantSyntax.Proofs.Expression.Conditional
import TolerantSyntax.Proofs.Statement.CompoundAssignment
import TolerantSyntax.Proofs.Statement.TypedDeclaration
import TolerantSyntax.Proofs.Conservative
import TolerantSyntax.Proofs.Imports
import TolerantSyntax.Proofs.Expression.Argument
import TolerantSyntax.Proofs.Statement.MatchGuard
import TolerantSyntax.Proofs.Order
import TolerantSyntax.Proofs.Bracketed.Kept
import TolerantSyntax.Proofs.Lexer.Lexicon
import TolerantSyntax.Proofs.Shell.Balance
import TolerantSyntax.Proofs.Shell.Assist
import TolerantSyntax.Proofs.Lines
import TolerantSyntax.Proofs.Report.Colour
import TolerantSyntax.Proofs.Report.Listing
import TolerantSyntax.Proofs.Lookahead
import TolerantSyntax.Proofs.Walk
