import Templating.Decimal.Notation
import Templating.Decimal.Shortest
import Templating.Dialect.Basic
import Templating.Dialect.Delimiter
import Templating.Dialect.Settings
import Templating.Environment.Basic
import Templating.Environment.Document
import Templating.Environment.Loader
import Templating.Environment.Session
import Templating.Grammar.Basic
import Templating.Grammar.Expression
import Templating.Grammar.Keyword
import Templating.Grammar.Lexeme
import Templating.Grammar.Pattern
import Templating.Grammar.Problem
import Templating.Proofs.Alternatives
import Templating.Proofs.AsRecord
import Templating.Proofs.Attempt
import Templating.Proofs.AttemptedBody
import Templating.Proofs.AttemptedExpression
import Templating.Proofs.AttemptedItems
import Templating.Proofs.AttemptedPattern
import Templating.Proofs.AttemptedTag
import Templating.Proofs.AwaitedTag
import Templating.Proofs.Bare
import Templating.Proofs.Beginning
import Templating.Proofs.Blame
import Templating.Proofs.BodyEnd
import Templating.Proofs.BodyLocality
import Templating.Proofs.BodySoundness
import Templating.Proofs.BracketDepth
import Templating.Proofs.CaretPlace
import Templating.Proofs.ClosingQuote
import Templating.Proofs.ColouredReport
import Templating.Proofs.CommentBalance
import Templating.Proofs.Concatenation
import Templating.Proofs.ConditionGrammar
import Templating.Proofs.Construct
import Templating.Proofs.Continuation
import Templating.Proofs.CountersKept
import Templating.Proofs.CursorContract
import Templating.Proofs.Dependencies
import Templating.Proofs.DialectLookup
import Templating.Proofs.DialectRules
import Templating.Proofs.DocumentRules
import Templating.Proofs.ExpressionCompleteness
import Templating.Proofs.ExpressionFollow
import Templating.Proofs.ExpressionForm
import Templating.Proofs.ExpressionGrammar
import Templating.Proofs.ExpressionHead
import Templating.Proofs.ExpressionItems
import Templating.Proofs.ExpressionPlaces
import Templating.Proofs.ExpressionSoundness
import Templating.Proofs.ExpressionSteps
import Templating.Proofs.ExpressionStop
import Templating.Proofs.Extending
import Templating.Proofs.ForeignDelimiters
import Templating.Proofs.ForeignDialect
import Templating.Proofs.Foresight
import Templating.Proofs.Gap
import Templating.Proofs.GrammarLocality
import Templating.Proofs.InTurn
import Templating.Proofs.KeptText
import Templating.Proofs.Layout
import Templating.Proofs.LayoutSoundness
import Templating.Proofs.Lexeme
import Templating.Proofs.Lines
import Templating.Proofs.ListEnd
import Templating.Proofs.Literal
import Templating.Proofs.LiteralText
import Templating.Proofs.Locality
import Templating.Proofs.Locations
import Templating.Proofs.LongestName
import Templating.Proofs.LoopControl
import Templating.Proofs.NameEnd
import Templating.Proofs.NestingLimit
import Templating.Proofs.NodeBodies
import Templating.Proofs.NodePlaces
import Templating.Proofs.NodesRead
import Templating.Proofs.NodesWithin
import Templating.Proofs.OpenConstruct
import Templating.Proofs.PatternCommitment
import Templating.Proofs.PatternCompleteness
import Templating.Proofs.PatternForm
import Templating.Proofs.PatternGrammar
import Templating.Proofs.PatternItems
import Templating.Proofs.PatternPlaces
import Templating.Proofs.PatternSoundness
import Templating.Proofs.Pending
import Templating.Proofs.Place
import Templating.Proofs.PrintedBody
import Templating.Proofs.PrintedConstruct
import Templating.Proofs.PrintedSpelling
import Templating.Proofs.PrintedStatement
import Templating.Proofs.PrintedTag
import Templating.Proofs.Printing
import Templating.Proofs.Progress
import Templating.Proofs.QualifiedName
import Templating.Proofs.RawText
import Templating.Proofs.Reading
import Templating.Proofs.Regular
import Templating.Proofs.Relocation
import Templating.Proofs.Repetition
import Templating.Proofs.ReportedPlace
import Templating.Proofs.Reprinting
import Templating.Proofs.Rules
import Templating.Proofs.Run
import Templating.Proofs.Running
import Templating.Proofs.Scope
import Templating.Proofs.ScopeProgress
import Templating.Proofs.Sections
import Templating.Proofs.SessionHistory
import Templating.Proofs.SourceOrder
import Templating.Proofs.Speculation
import Templating.Proofs.Spelling
import Templating.Proofs.StatementLocality
import Templating.Proofs.StatementProgress
import Templating.Proofs.StatementRelocation
import Templating.Proofs.StrictNodes
import Templating.Proofs.Strictness
import Templating.Proofs.TagForm
import Templating.Proofs.TagSoundness
import Templating.Proofs.Tiling
import Templating.Proofs.Traversal
import Templating.Proofs.TreeShape
import Templating.Proofs.UsableDialect
import Templating.Proofs.Walking
import Templating.Proofs.WordAsName
import Templating.Report.Basic
import Templating.Report.Code
import Templating.Report.Failure
import Templating.Setting.Value
import Templating.Source
import Templating.Statement.Body
import Templating.Statement.Construct
import Templating.Statement.Counters
import Templating.Statement.Document
import Templating.Statement.Parser
import Templating.Statement.Single
import Templating.Statement.Tag
import Templating.Statement.Text
import Templating.Terminal.Colour
import Templating.Text.Blank
import Templating.Text.CodeRange
import Templating.Text.Position
import Templating.Text.Printable
import Templating.Text.Quoted
import Templating.Text.Space
import Templating.Text.Uppercase
import Templating.Tree.Element
import Templating.Tree.Expr
import Templating.Tree.Node
import Templating.Tree.Pattern
import Templating.Tree.Record
import Templating.Tree.References
import Templating.Tree.Trim
import Templating.Tree.Visitor
import Templating.Tree.Walk
