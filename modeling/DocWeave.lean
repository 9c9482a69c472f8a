import DocWeave.CommandLine
import DocWeave.Decimal.Basic
import DocWeave.Decimal.Binary
import DocWeave.Decimal.Reading
import DocWeave.Decimal.Shortest
import DocWeave.Directive.Basic
import DocWeave.Directive.Builtin
import DocWeave.Directive.Environment
import DocWeave.DocBlock
import DocWeave.Error
import DocWeave.EvalError
import DocWeave.Expr.Basic
import DocWeave.Expr.Eval
import DocWeave.Expr.Lexer
import DocWeave.Expr.Parser
import DocWeave.Expr.SyntaxError
import DocWeave.Expr.Token
import DocWeave.FileTree
import DocWeave.Glob.Pattern
import DocWeave.Glob.Walk
import DocWeave.Inflection
import DocWeave.Link.Marker
import DocWeave.Link.OwnPage
import DocWeave.Link.Repository
import DocWeave.Locator
import DocWeave.Main
import DocWeave.Manifest.Basic
import DocWeave.Manifest.Discovery
import DocWeave.Manifest.Reading
import DocWeave.OrderedMap
import DocWeave.Outline.Extent
import DocWeave.Outline.Line
import DocWeave.Outline.Literal
import DocWeave.Outline.Scan
import DocWeave.Page.Assembly
import DocWeave.Page.Entry
import DocWeave.Page.Render
import DocWeave.Page.Tree
import DocWeave.Path
import DocWeave.Proofs.Directive.OpenBlocks
import DocWeave.Proofs.Expr.Concatenation
import DocWeave.Proofs.Expr.Grammar
import DocWeave.Proofs.Expr.IntegerArithmetic
import DocWeave.Proofs.Expr.Lexing
import DocWeave.Proofs.Expr.Parametric
import DocWeave.Proofs.Expr.Phrases
import DocWeave.Proofs.Expr.Pieces
import DocWeave.Proofs.Expr.Places
import DocWeave.Proofs.Expr.Positions
import DocWeave.Proofs.Expr.Printing
import DocWeave.Proofs.Expr.Reading
import DocWeave.Proofs.Expr.RoundTrip
import DocWeave.Proofs.Expr.Scanning
import DocWeave.Proofs.FileTree.Writing
import DocWeave.Proofs.Inflection.Anchors
import DocWeave.Proofs.Inflection.BackTicks
import DocWeave.Proofs.Inflection.Boundaries
import DocWeave.Proofs.Inflection.Grouping
import DocWeave.Proofs.Link.Markers
import DocWeave.Proofs.Link.OwnAddress
import DocWeave.Proofs.Locator.Anchoring
import DocWeave.Proofs.Locator.Bodies
import DocWeave.Proofs.Locator.Boundaries
import DocWeave.Proofs.Locator.Discovered
import DocWeave.Proofs.Locator.Outcomes
import DocWeave.Proofs.Locator.Registered
import DocWeave.Proofs.Locator.Slices
import DocWeave.Proofs.Locator.Snapshots
import DocWeave.Proofs.Locator.Views
import DocWeave.Proofs.Manifest.Assembly
import DocWeave.Proofs.Manifest.Keyed
import DocWeave.Proofs.Manifest.Merging
import DocWeave.Proofs.Manifest.RecordedLines
import DocWeave.Proofs.OrderedMap
import DocWeave.Proofs.Outline.DeclaredMembers
import DocWeave.Proofs.Outline.Extents
import DocWeave.Proofs.Outline.InspectedLiterals
import DocWeave.Proofs.Outline.MemberNames
import DocWeave.Proofs.Outline.Names
import DocWeave.Proofs.Outline.OpaqueBodies
import DocWeave.Proofs.Outline.Places
import DocWeave.Proofs.Outline.Ranges
import DocWeave.Proofs.Outline.Reached
import DocWeave.Proofs.Outline.Rejoined
import DocWeave.Proofs.Outline.ShortMethods
import DocWeave.Proofs.Outline.Steps
import DocWeave.Proofs.Outline.WellIndented
import DocWeave.Proofs.Page.Absorbed
import DocWeave.Proofs.Page.EntryOrder
import DocWeave.Proofs.Page.FilesKept
import DocWeave.Proofs.Page.Outcomes
import DocWeave.Proofs.Page.Shape
import DocWeave.Proofs.Page.Sourceless
import DocWeave.Proofs.Page.Steps
import DocWeave.Proofs.Page.Trees
import DocWeave.Proofs.Prose.LineBreaks
import DocWeave.Proofs.Prose.MarkedMembers
import DocWeave.Proofs.Prose.Numbers
import DocWeave.Proofs.Prose.Words
import DocWeave.Proofs.Reference.Grammar
import DocWeave.Proofs.Registry.Kinship
import DocWeave.Proofs.Registry.MixinClosure
import DocWeave.Proofs.Registry.Population
import DocWeave.Proofs.Registry.Scopes
import DocWeave.Proofs.Run.PagesOnDisk
import DocWeave.Proofs.Run.Schedules
import DocWeave.Proofs.Run.Workers
import DocWeave.Proofs.Sandbox.Direct
import DocWeave.Proofs.Sandbox.MethodLayouts
import DocWeave.Proofs.Sandbox.Refinement
import DocWeave.Proofs.Sandbox.Restarts
import DocWeave.Proofs.Sandbox.Resuming
import DocWeave.Proofs.Site.BlockPatterns
import DocWeave.Proofs.Site.Body
import DocWeave.Proofs.Site.Comment
import DocWeave.Proofs.Site.WrittenBlock
import DocWeave.Proofs.Stateful
import DocWeave.Proofs.Table.Alignment
import DocWeave.Proofs.Table.Header
import DocWeave.Proofs.Template.Comments
import DocWeave.Proofs.Template.Frames
import DocWeave.Proofs.Template.Placeholder
import DocWeave.Proofs.Template.Printing
import DocWeave.Proofs.Template.Tags
import DocWeave.Proofs.Text.Layout
import DocWeave.Proofs.Text.Occurrences
import DocWeave.Proofs.Text.Splitting
import DocWeave.Proofs.Value.Sorting
import DocWeave.Prose.Number
import DocWeave.Prose.Operator
import DocWeave.Prose.Pretty
import DocWeave.Prose.Statement
import DocWeave.Prose.Word
import DocWeave.Reference
import DocWeave.Registry
import DocWeave.Run
import DocWeave.Sandbox
import DocWeave.Session
import DocWeave.Site
import DocWeave.Subject
import DocWeave.Table
import DocWeave.Template.Render
import DocWeave.Template.Segment
import DocWeave.Text.Blank
import DocWeave.Text.CaseMap
import DocWeave.Text.CaseTable
import DocWeave.Text.CharRanges
import DocWeave.Text.Letter
import DocWeave.Text.Lines
import DocWeave.Text.Match
import DocWeave.Text.Quoted
import DocWeave.Text.Search
import DocWeave.Text.Unprintable
import DocWeave.Toml.Document
import DocWeave.Toml.Item
import DocWeave.Toml.Scalar
import DocWeave.Value.Basic
import DocWeave.Value.Json
import DocWeave.Value.Method
import DocWeave.Value.Order
import DocWeave.Value.Text
import DocWeave.Workspace
