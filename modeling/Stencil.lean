import Stencil.Cause
import Stencil.Data
import Stencil.Engine
import Stencil.Error
import Stencil.Function.Basic
import Stencil.Function.Builtin
import Stencil.Json.Basic
import Stencil.Json.Read
import Stencil.Number.Binary64
import Stencil.Number.Decimal
import Stencil.Number.Format
import Stencil.Number.Integer
import Stencil.Number.Progression
import Stencil.Number.Shortest
import Stencil.Path
import Stencil.Proofs.Data.Keys
import Stencil.Proofs.Engine.Stores
import Stencil.Proofs.Error.Lines
import Stencil.Proofs.Error.Reports
import Stencil.Proofs.Function.Args
import Stencil.Proofs.Function.Extremum
import Stencil.Proofs.Function.Range
import Stencil.Proofs.Function.Split
import Stencil.Proofs.Grammar.Basic
import Stencil.Proofs.Grammar.Complete
import Stencil.Proofs.Grammar.Echo
import Stencil.Proofs.Grammar.Reader
import Stencil.Proofs.Grammar.Sound
import Stencil.Proofs.Grammar.Tags
import Stencil.Proofs.Json.Import
import Stencil.Proofs.Json.Ordered
import Stencil.Proofs.Number.Digits
import Stencil.Proofs.Number.Nearest
import Stencil.Proofs.Number.Notation
import Stencil.Proofs.Number.Order
import Stencil.Proofs.Number.Progression
import Stencil.Proofs.Number.Round
import Stencil.Proofs.Number.Shortest
import Stencil.Proofs.Path.Normal
import Stencil.Proofs.Path.Walked
import Stencil.Proofs.Render.Blamed
import Stencil.Proofs.Render.Compared
import Stencil.Proofs.Render.Control
import Stencil.Proofs.Render.Depth
import Stencil.Proofs.Render.Frames
import Stencil.Proofs.Render.Invariant
import Stencil.Proofs.Render.Levels
import Stencil.Proofs.Render.Markup
import Stencil.Proofs.Render.Raised
import Stencil.Proofs.Render.Reads
import Stencil.Proofs.Render.Renewed
import Stencil.Proofs.Render.Rounds
import Stencil.Proofs.Render.Scopes
import Stencil.Proofs.Render.Segments
import Stencil.Proofs.Render.Sinks
import Stencil.Proofs.Render.Traces
import Stencil.Proofs.Render.Unreached
import Stencil.Proofs.Render.Visits
import Stencil.Proofs.Scope.Frames
import Stencil.Proofs.Scope.Views
import Stencil.Proofs.Template.Compiled
import Stencil.Proofs.Template.Echoed
import Stencil.Proofs.Template.InStep
import Stencil.Proofs.Template.Inherited
import Stencil.Proofs.Template.Linked
import Stencil.Proofs.Template.Local
import Stencil.Proofs.Template.Nested
import Stencil.Proofs.Template.Placed
import Stencil.Proofs.Template.Regions
import Stencil.Proofs.Template.Restored
import Stencil.Proofs.Template.Stacked
import Stencil.Proofs.Template.Structure
import Stencil.Proofs.Template.Terms
import Stencil.Proofs.Template.Texts
import Stencil.Proofs.Template.Tree
import Stencil.Proofs.Term.Bare
import Stencil.Proofs.Term.Derivable
import Stencil.Proofs.Term.Evaluated
import Stencil.Proofs.Term.Inherited
import Stencil.Proofs.Term.Innermost
import Stencil.Proofs.Term.Literals
import Stencil.Proofs.Term.Local
import Stencil.Proofs.Term.Logged
import Stencil.Proofs.Term.Nested
import Stencil.Proofs.Term.Placed
import Stencil.Proofs.Term.Plain
import Stencil.Proofs.Term.Reads
import Stencil.Proofs.Term.Unreached
import Stencil.Proofs.Term.Writable
import Stencil.Proofs.Term.Written
import Stencil.Proofs.Text.Bytes
import Stencil.Proofs.Text.Escaped
import Stencil.Proofs.Text.Escapes
import Stencil.Proofs.Text.Quoted
import Stencil.Proofs.Text.Search
import Stencil.Proofs.Text.Spans
import Stencil.Proofs.Token.Covered
import Stencil.Proofs.Token.Delimited
import Stencil.Proofs.Token.Placed
import Stencil.Proofs.Token.Strings
import Stencil.Proofs.Token.Valid
import Stencil.Proofs.Token.Written
import Stencil.Proofs.Value.Arithmetic
import Stencil.Proofs.Value.Equal
import Stencil.Proofs.Value.Markup
import Stencil.Proofs.Value.Membership
import Stencil.Proofs.Value.Order
import Stencil.Proofs.Value.Passed
import Stencil.Proofs.Value.Plain
import Stencil.Proofs.Value.Sliced
import Stencil.Proofs.Value.Truncated
import Stencil.Proofs.Value.Unmarked
import Stencil.Render
import Stencil.Scope
import Stencil.Sink
import Stencil.Table
import Stencil.Template.Document
import Stencil.Template.Node
import Stencil.Template.Piece
import Stencil.Template.Read
import Stencil.Term.Basic
import Stencil.Term.Eval
import Stencil.Term.Evaluate
import Stencil.Term.Read
import Stencil.Text.Alphabet
import Stencil.Text.Blank
import Stencil.Text.Case
import Stencil.Text.CaseTable
import Stencil.Text.CodePoints
import Stencil.Text.Display
import Stencil.Text.Emoji
import Stencil.Text.EmojiTable
import Stencil.Text.Html
import Stencil.Text.Identifier
import Stencil.Text.Inspected
import Stencil.Text.Ligature
import Stencil.Text.Quoted
import Stencil.Text.Search
import Stencil.Text.Span
import Stencil.Text.Width
import Stencil.Text.WidthTable
import Stencil.Token.Basic
import Stencil.Token.Scan
import Stencil.Token.Stream
import Stencil.Value.Access
import Stencil.Value.Basic
import Stencil.Value.Equality
import Stencil.Value.Import
import Stencil.Value.Number
import Stencil.Value.Pieces
import Stencil.Value.Text
