import Tangle.CommandLine.Help
import Tangle.CommandLine.Reader
import Tangle.CommandLine.Usage
import Tangle.Comment
import Tangle.Config
import Tangle.Decimal.Binary
import Tangle.Decimal.Shortest
import Tangle.Document
import Tangle.Extract
import Tangle.FileMode
import Tangle.Files.Access
import Tangle.Files.Path
import Tangle.Files.Tree
import Tangle.Init
import Tangle.LogFilter
import Tangle.Main
import Tangle.Markdown.Block
import Tangle.Markdown.Container
import Tangle.Markdown.Cursor
import Tangle.Markdown.Entity
import Tangle.Markdown.Html
import Tangle.Markdown.InfoString
import Tangle.Markdown.Interrupt
import Tangle.Markdown.Leaf
import Tangle.Markdown.Line
import Tangle.Markdown.LinkDefinition
import Tangle.Markdown.Opening
import Tangle.Markdown.Paragraph
import Tangle.Markdown.Table
import Tangle.Output
import Tangle.Program
import Tangle.Proofs.Ink
import Tangle.Proofs.Leaves
import Tangle.Proofs.Suffix
import Tangle.Settings
import Tangle.Shell
import Tangle.Tag
import Tangle.Text
import Tangle.Text.Digit
import Tangle.Text.Printable
import Tangle.Text.Quoted
import Tangle.Text.Utf8
import Tangle.Toml.Document
import Tangle.Toml.Scalar
import Tangle.Toml.Table
import Tangle.Toml.Value
import Tangle.Walk
import Tangle.WritePolicy
import Tangle.Proofs.Interior
import Tangle.Proofs.WalkLoop
import Tangle.Proofs.WalkRefine
import Tangle.Proofs.WalkTermination
import Tangle.Proofs.FenceReading
import Tangle.Proofs.CommentReading
import Tangle.Proofs.Marks
import Tangle.Proofs.MarkReading
import Tangle.Proofs.Flattening
import Tangle.Proofs.DepthLimit
import Tangle.Proofs.Grouping
import Tangle.Proofs.Routing
import Tangle.Proofs.Conservation
import Tangle.Proofs.Places
import Tangle.Proofs.DirectoryMaking
import Tangle.Proofs.EntryWriting
import Tangle.Proofs.Reading
import Tangle.Proofs.Delivery
import Tangle.Proofs.Destinations
import Tangle.Proofs.SplitRuns
import Tangle.Proofs.Preservation
import Tangle.Proofs.Batches
import Tangle.Proofs.Emptiness
import Tangle.Proofs.Pieces
import Tangle.Proofs.UnclosedComment
import Tangle.Proofs.Limits
import Tangle.Proofs.FileTags
import Tangle.Proofs.WriteEffects
import Tangle.Proofs.TagGrammar
import Tangle.Proofs.FilterLaws
import Tangle.Proofs.UncarriedTags
import Tangle.Proofs.Workers
import Tangle.Proofs.DirectPaths
import Tangle.Proofs.Discovery
import Tangle.Proofs.FlagOverrides
import Tangle.Proofs.ProperValues
import Tangle.Proofs.ConfigGrammar
import Tangle.Proofs.OctalNumerals
import Tangle.Proofs.TomlWriting
import Tangle.Proofs.ConfigEncoding
import Tangle.Proofs.BlockCollection
import Tangle.Proofs.ModeReading
import Tangle.Proofs.WritingAgain
import Tangle.Proofs.DefaultConfig
