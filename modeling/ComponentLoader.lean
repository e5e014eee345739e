import ComponentLoader.Command.Arguments
import ComponentLoader.Command.Path
import ComponentLoader.Command.Run
import ComponentLoader.Component.Basic
import ComponentLoader.Component.Block
import ComponentLoader.Component.Error
import ComponentLoader.Component.Layout
import ComponentLoader.Component.Yaml
import ComponentLoader.Json.Input
import ComponentLoader.Json.Value
import ComponentLoader.Loader.Error
import ComponentLoader.Loader.Extract
import ComponentLoader.Loader.Import
import ComponentLoader.Loader.Options
import ComponentLoader.Loader.Run
import ComponentLoader.Main
import ComponentLoader.Markup.Comment
import ComponentLoader.Markup.Cursor
import ComponentLoader.Markup.Fault
import ComponentLoader.Markup.Lexeme
import ComponentLoader.Markup.Tag
import ComponentLoader.Markup.Token
import ComponentLoader.Position
import ComponentLoader.Report.Drawing
import ComponentLoader.Request.Percent
import ComponentLoader.Request.Query
import ComponentLoader.SourceMap.Basic
import ComponentLoader.SourceMap.Vlq
import ComponentLoader.Template.Attribute
import ComponentLoader.Template.Filter
import ComponentLoader.Template.Json
import ComponentLoader.Template.Node
import ComponentLoader.Template.Outline
import ComponentLoader.Template.Pack
import ComponentLoader.Template.Root
import ComponentLoader.Template.Text
import ComponentLoader.Template.Tree
import ComponentLoader.Text.Alphanumeric
import ComponentLoader.Text.Basic
import ComponentLoader.Text.Printable
import ComponentLoader.Text.Quoted
import ComponentLoader.Text.Ranges
import ComponentLoader.Text.Space
import ComponentLoader.Text.UpperCase
import ComponentLoader.Text.Utf8
import ComponentLoader.Text.Width
import ComponentLoader.Yaml.Number
import ComponentLoader.Yaml.Scalar
import ComponentLoader.Yaml.Value
import ComponentLoader.Proofs.Component.Arrival
import ComponentLoader.Proofs.Component.BlockEnd
import ComponentLoader.Proofs.Component.Closing
import ComponentLoader.Proofs.Component.ErrorPlace
import ComponentLoader.Proofs.Component.Insertion
import ComponentLoader.Proofs.Component.InsertionAtEnd
import ComponentLoader.Proofs.Component.Laid
import ComponentLoader.Proofs.Component.MalformedTags
import ComponentLoader.Proofs.Component.OnePass
import ComponentLoader.Proofs.Component.Partition
import ComponentLoader.Proofs.Component.Placeholder
import ComponentLoader.Proofs.Component.Reading
import ComponentLoader.Proofs.Component.SharedFaults
import ComponentLoader.Proofs.Component.Transfer
import ComponentLoader.Proofs.Component.Written
import ComponentLoader.Proofs.Json.CodeLines
import ComponentLoader.Proofs.Json.Literals
import ComponentLoader.Proofs.Json.Reading
import ComponentLoader.Proofs.Loader.BlockAnswer
import ComponentLoader.Proofs.Loader.Deferred
import ComponentLoader.Proofs.Loader.Entry
import ComponentLoader.Proofs.Loader.EntryLines
import ComponentLoader.Proofs.Loader.ErrorPlace
import ComponentLoader.Proofs.Loader.JsonModule
import ComponentLoader.Proofs.Loader.MapPlaces
import ComponentLoader.Proofs.Loader.Relocation
import ComponentLoader.Proofs.Loader.Resolution
import ComponentLoader.Proofs.Loader.RootFill
import ComponentLoader.Proofs.Loader.TemplateTarget
import ComponentLoader.Proofs.Loader.Uncompiled
import ComponentLoader.Proofs.Markup.AttributeSpans
import ComponentLoader.Proofs.Markup.Brackets
import ComponentLoader.Proofs.Markup.ByteReading
import ComponentLoader.Proofs.Markup.ByteTags
import ComponentLoader.Proofs.Markup.CommentExtent
import ComponentLoader.Proofs.Markup.CommentReaches
import ComponentLoader.Proofs.Markup.CommentTails
import ComponentLoader.Proofs.Markup.LexemeReaches
import ComponentLoader.Proofs.Markup.Lossless
import ComponentLoader.Proofs.Markup.PlainTags
import ComponentLoader.Proofs.Markup.RawText
import ComponentLoader.Proofs.Markup.Reaches
import ComponentLoader.Proofs.Markup.Reads
import ComponentLoader.Proofs.Markup.Rereading
import ComponentLoader.Proofs.Markup.StartTags
import ComponentLoader.Proofs.Markup.TagFaults
import ComponentLoader.Proofs.Markup.TagReaches
import ComponentLoader.Proofs.Markup.TagTails
import ComponentLoader.Proofs.Markup.Tails
import ComponentLoader.Proofs.Markup.Tiles
import ComponentLoader.Proofs.Request.Additions
import ComponentLoader.Proofs.Request.Percent
import ComponentLoader.Proofs.Request.Query
import ComponentLoader.Proofs.SourceMap.AnyMappings
import ComponentLoader.Proofs.SourceMap.BlockMap
import ComponentLoader.Proofs.SourceMap.Lookup
import ComponentLoader.Proofs.SourceMap.Numerals
import ComponentLoader.Proofs.SourceMap.Vlq
import ComponentLoader.Proofs.Template.Balance
import ComponentLoader.Proofs.Template.Decomposition
import ComponentLoader.Proofs.Template.Elements
import ComponentLoader.Proofs.Template.ElseFaults
import ComponentLoader.Proofs.Template.EventModifiers
import ComponentLoader.Proofs.Template.FaultPlaces
import ComponentLoader.Proofs.Template.FilterParts
import ComponentLoader.Proofs.Template.FilterReading
import ComponentLoader.Proofs.Template.Interpolation
import ComponentLoader.Proofs.Template.Loops
import ComponentLoader.Proofs.Template.Nodes
import ComponentLoader.Proofs.Template.NormalForm
import ComponentLoader.Proofs.Template.Preorder
import ComponentLoader.Proofs.Template.Pruning
import ComponentLoader.Proofs.Template.RootProperties
import ComponentLoader.Proofs.Template.Shown
import ComponentLoader.Proofs.Template.Spacing
import ComponentLoader.Proofs.Template.Spelling
import ComponentLoader.Proofs.Template.Subtrees
import ComponentLoader.Proofs.Template.TextEdges
import ComponentLoader.Proofs.Template.TextTokens
import ComponentLoader.Proofs.Template.Trimming
import ComponentLoader.Proofs.Template.Unpacking
import ComponentLoader.Proofs.Text.Bytes
import ComponentLoader.Proofs.Text.Edges
import ComponentLoader.Proofs.Text.Leftmost
import ComponentLoader.Proofs.Text.Lines
import ComponentLoader.Proofs.Text.Utf8
import ComponentLoader.Proofs.Tiling
