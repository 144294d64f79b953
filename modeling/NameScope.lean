import NameScope.Blocks
import NameScope.Decl.Basic
import NameScope.Decl.Equality
import NameScope.Decl.Layers
import NameScope.Fault
import NameScope.Json.Lexeme
import NameScope.Json.Position
import NameScope.NameTable
import NameScope.NameTable.Lemmas
import NameScope.Options.Basic
import NameScope.Options.Settings
import NameScope.Position
import NameScope.Session.Basic
import NameScope.Session.Diagnostic
import NameScope.Session.Function
import NameScope.Session.Reading
import NameScope.Spelling.Distance
import NameScope.Spelling.Nearest
import NameScope.Text.Combining
import NameScope.Text.Invisible
import NameScope.Text.Quoted
import NameScope.Text.Unassigned
import NameScope.Toml.Document
import NameScope.Toml.Lexeme
import NameScope.Toml.Value
import NameScope.Tree.Basic
import NameScope.Tree.Declared
import NameScope.Tree.Dump
import NameScope.Tree.Outline
import NameScope.Tree.Release
import NameScope.Tree.Walk
import NameScope.TypeUse
import NameScope.Proofs.History
import NameScope.Proofs.Blocks.History
import NameScope.Proofs.Blocks.Stack
import NameScope.Proofs.Blocks.Visibility
import NameScope.Proofs.Blocks.Unshadowed
import NameScope.Proofs.Scope.History
import NameScope.Proofs.Scope.Nesting
import NameScope.Proofs.Scope.Separation
import NameScope.Proofs.Spelling.Ranking
import NameScope.Proofs.Spelling.Suggestions
import NameScope.Proofs.Spelling.Edits
import NameScope.Proofs.Spelling.Rows
import NameScope.Proofs.Spelling.Metric
import NameScope.Proofs.Session.History
import NameScope.Proofs.Session.Past
import NameScope.Proofs.Session.Frame
import NameScope.Proofs.Session.Rollback
import NameScope.Proofs.Session.Namespaces
import NameScope.Proofs.Session.Relaxed
import NameScope.Proofs.Session.Outcome
import NameScope.Proofs.Session.Balance
import NameScope.Proofs.Session.Resolving
import NameScope.Proofs.Session.Commit
import NameScope.Proofs.Reading.Scoping
import NameScope.Proofs.Reading.Frame
import NameScope.Proofs.Reading.Nesting
import NameScope.Proofs.Reading.Settled
import NameScope.Proofs.Reading.Agrees
import NameScope.Proofs.Reading.Diagnostics
import NameScope.Proofs.Reading.Malformed
import NameScope.Proofs.Reading.Stopped
import NameScope.Proofs.Reading.Isolation
import NameScope.Proofs.Reading.Declarations
import NameScope.Proofs.Reading.Essence
import NameScope.Proofs.Tree.Copy
import NameScope.Proofs.Tree.Equality
import NameScope.Proofs.Tree.Release
import NameScope.Proofs.Session.Revision
import NameScope.Proofs.Session.Options
import NameScope.Proofs.Session.Parameters
import NameScope.Proofs.Session.Bodiless
import NameScope.Proofs.NameTable.History
import NameScope.Proofs.NameTable.Equality
import NameScope.Proofs.NameTable.OrderedMap
import NameScope.Proofs.Decl.Requests
import NameScope.Proofs.Decl.Parts
import NameScope.Proofs.Decl.Updates
import NameScope.Proofs.Globals.FirstDeclaration
import NameScope.Proofs.Globals.Separation
import NameScope.Proofs.Tree.Recursion
import NameScope.Proofs.Decl.Congruence
import NameScope.Proofs.Text.Delimiting
import NameScope.Proofs.Text.Rendering
import NameScope.Proofs.Tree.Record
import NameScope.Proofs.Tree.Relabel
import NameScope.Proofs.Tree.Dump
import NameScope.Proofs.Tree.Graft
import NameScope.Proofs.Toml.Scalars
import NameScope.Proofs.Toml.Lines
import NameScope.Proofs.Toml.Range
import NameScope.Proofs.Options.RoundTrip
import NameScope.Proofs.Options.Overriding
import NameScope.Proofs.Json.Lexemes
import NameScope.Proofs.Json.Values
import NameScope.Proofs.Json.Words
import NameScope.Proofs.Json.Position
