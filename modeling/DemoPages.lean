import DemoPages.Cli
import DemoPages.Component.Artifact
import DemoPages.Component.Attributes
import DemoPages.Configuration
import DemoPages.Demo
import DemoPages.Digest
import DemoPages.Disk
import DemoPages.Fault
import DemoPages.FrontMatter
import DemoPages.Highlight.Highlighter
import DemoPages.Highlight.Markup
import DemoPages.Highlight.Shade
import DemoPages.Keyed
import DemoPages.Layout
import DemoPages.Main
import DemoPages.Markdown.Block
import DemoPages.Markdown.Dialect
import DemoPages.Markdown.Html
import DemoPages.Markdown.Line
import DemoPages.Markdown.Opening
import DemoPages.Markdown.Reference
import DemoPages.Markdown.Table
import DemoPages.Markdown.Token
import DemoPages.Node
import DemoPages.Page
import DemoPages.Pass
import DemoPages.Path
import DemoPages.Registry
import DemoPages.Settings
import DemoPages.Site
import DemoPages.Store
import DemoPages.Text.Base64
import DemoPages.Text.Blank
import DemoPages.Text.Category
import DemoPages.Text.Decimal
import DemoPages.Text.Lines
import DemoPages.Text.Percent
import DemoPages.Text.Pieces
import DemoPages.Text.Quoted
import DemoPages.Text.Utf8
import DemoPages.Text.Visible
import DemoPages.Text.Word
import DemoPages.Tools
import DemoPages.Yaml.Cursor
import DemoPages.Yaml.Document
import DemoPages.Yaml.Value
import DemoPages.Proofs.Demos
import DemoPages.Proofs.Rewriting
import DemoPages.Proofs.Endings
import DemoPages.Proofs.Outcomes
import DemoPages.Proofs.Depots
import DemoPages.Proofs.Sessions
import DemoPages.Proofs.Accounts
import DemoPages.Proofs.Names
import DemoPages.Proofs.Places
import DemoPages.Proofs.Disks
import DemoPages.Proofs.Mirrors
import DemoPages.Proofs.Outputs
import DemoPages.Proofs.Pieces
import DemoPages.Proofs.Coverage
import DemoPages.Proofs.Contents
import DemoPages.Proofs.Fences
import DemoPages.Proofs.WrittenCode
import DemoPages.Proofs.Changes
import DemoPages.Proofs.Routes
import DemoPages.Proofs.Runs
import DemoPages.Proofs.Sources
import DemoPages.Proofs.Marks
import DemoPages.Proofs.Repeats
import DemoPages.Proofs.Traces
import DemoPages.Proofs.Order
import DemoPages.Proofs.Builds
import DemoPages.Proofs.Neighbours
import DemoPages.Proofs.Reruns
import DemoPages.Proofs.Numbering
import DemoPages.Proofs.Histories
import DemoPages.Proofs.Stops
import DemoPages.Proofs.Confinement
import DemoPages.Proofs.Interleavings
import DemoPages.Proofs.Leavings
import DemoPages.Proofs.Commuting
import DemoPages.Proofs.Companions
import DemoPages.Proofs.Addresses
import DemoPages.Proofs.Namesakes
import DemoPages.Proofs.Stability
import DemoPages.Proofs.Layers
import DemoPages.Proofs.Refusals
import DemoPages.Proofs.Previews
import DemoPages.Proofs.Escapes
import DemoPages.Proofs.Metadata
import DemoPages.Proofs.References
import DemoPages.Proofs.Markers
import DemoPages.Proofs.Folding
import DemoPages.Proofs.Borders
import DemoPages.Proofs.Leftovers
import DemoPages.Proofs.Retries
import DemoPages.Proofs.Directives
import DemoPages.Proofs.Bystanders
import DemoPages.Proofs.Discoveries
import DemoPages.Proofs.Decoding
