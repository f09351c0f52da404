import SyntaxGateway.Base64
import SyntaxGateway.CommandLine.Arguments
import SyntaxGateway.CommandLine.Command
import SyntaxGateway.CommandLine.Run
import SyntaxGateway.Decimal
import SyntaxGateway.Entries
import SyntaxGateway.Failure
import SyntaxGateway.Files.Basic
import SyntaxGateway.Files.Disk
import SyntaxGateway.Filter
import SyntaxGateway.Gateway.Body
import SyntaxGateway.Gateway.Envelope
import SyntaxGateway.Gateway.Reading
import SyntaxGateway.Gateway.Requests
import SyntaxGateway.Gateway.Router
import SyntaxGateway.Http.MediaType
import SyntaxGateway.Http.Message
import SyntaxGateway.Http.Status
import SyntaxGateway.Json.Fault
import SyntaxGateway.Json.Scan
import SyntaxGateway.Json.Shape
import SyntaxGateway.Json.Skip
import SyntaxGateway.Json.Value
import SyntaxGateway.Json.Writer
import SyntaxGateway.Language.Basic
import SyntaxGateway.Language.Detection
import SyntaxGateway.Language.Evidence
import SyntaxGateway.Language.Reading
import SyntaxGateway.Language.Signatures
import SyntaxGateway.Language.Table
import SyntaxGateway.Log
import SyntaxGateway.Main
import SyntaxGateway.Parse
import SyntaxGateway.Path
import SyntaxGateway.Pattern
import SyntaxGateway.Proofs.Parse.FilterFaults
import SyntaxGateway.Proofs.Parse.Stages
import SyntaxGateway.Proofs.Query.Grammar
import SyntaxGateway.Proofs.Query.Conditions
import SyntaxGateway.Proofs.Query.Layout
import SyntaxGateway.Proofs.Query.Parsing
import SyntaxGateway.Proofs.Query.Rendering
import SyntaxGateway.Proofs.Query.Selection
import SyntaxGateway.Proofs.Query.Trimming
import SyntaxGateway.Proofs.Text.Utf8
import SyntaxGateway.Proofs.Tree.Cursor
import SyntaxGateway.Proofs.Tree.Decoder
import SyntaxGateway.Proofs.Tree.Framing
import SyntaxGateway.Proofs.Tree.Normalization
import SyntaxGateway.Proofs.Tree.Places
import SyntaxGateway.Proofs.Tree.Reading
import SyntaxGateway.Proofs.Tree.RoundTrip
import SyntaxGateway.Proofs.Tree.Written
import SyntaxGateway.Query.Basic
import SyntaxGateway.Query.Index
import SyntaxGateway.Query.Parser
import SyntaxGateway.Service.Client
import SyntaxGateway.Service.Mode
import SyntaxGateway.Service.Reply
import SyntaxGateway.Service.Request
import SyntaxGateway.Settings.Basic
import SyntaxGateway.Settings.File
import SyntaxGateway.Settings.Json
import SyntaxGateway.Settings.Toml
import SyntaxGateway.Terminal.Status
import SyntaxGateway.Terminal.Style
import SyntaxGateway.Terminal.Table
import SyntaxGateway.Text.Blank
import SyntaxGateway.Text.Quoted
import SyntaxGateway.Text.Ranges
import SyntaxGateway.Text.Split
import SyntaxGateway.Text.Utf8
import SyntaxGateway.Text.Width
import SyntaxGateway.Text.Word
import SyntaxGateway.Toml.Quoted
import SyntaxGateway.Toml.Reader
import SyntaxGateway.Toml.Scalar
import SyntaxGateway.Toml.Table
import SyntaxGateway.Tree.Basic
import SyntaxGateway.Tree.Batch
import SyntaxGateway.Tree.Encoding
import SyntaxGateway.Tree.Reading
import SyntaxGateway.Tree.Rendering
import SyntaxGateway.Tree.Source
import SyntaxGateway.Tree.Varint
import SyntaxGateway.Url.Basic
import SyntaxGateway.Url.Host
import SyntaxGateway.Url.Parser
import SyntaxGateway.Url.Percent
import SyntaxGateway.Url.Punycode
import SyntaxGateway.Proofs.Text.Base64
import SyntaxGateway.Proofs.Tree.Batches
import SyntaxGateway.Proofs.Filter
import SyntaxGateway.Proofs.Parse.Agreement
import SyntaxGateway.Proofs.Depth
import SyntaxGateway.Proofs.Gateway.Bodies
import SyntaxGateway.Proofs.Gateway.Responses
import SyntaxGateway.Proofs.Gateway.Sessions
import SyntaxGateway.Proofs.Query.Faults
import SyntaxGateway.Proofs.Query.Composition
import SyntaxGateway.Proofs.Tree.PrefixFree
import SyntaxGateway.Proofs.Language.Scores
import SyntaxGateway.Proofs.Language.Listings
import SyntaxGateway.Proofs.Language.Interpreters
import SyntaxGateway.Proofs.Language.Detection
import SyntaxGateway.Proofs.Parse.Languages
import SyntaxGateway.Proofs.Parse.Shells
import SyntaxGateway.Proofs.Json.Grammar
import SyntaxGateway.Proofs.Json.Words
import SyntaxGateway.Proofs.Json.Skipping
import SyntaxGateway.Proofs.Json.Shapes
import SyntaxGateway.Proofs.Json.Records
import SyntaxGateway.Proofs.Service.Replies
import SyntaxGateway.Proofs.Language.Shebangs
import SyntaxGateway.Proofs.Language.Matching
import SyntaxGateway.Proofs.Language.Lines
import SyntaxGateway.Proofs.Tree.Counter
import SyntaxGateway.Proofs.Json.Writer
import SyntaxGateway.Proofs.Json.Nesting
import SyntaxGateway.Proofs.Tree.Rendering
import SyntaxGateway.Proofs.Query.Slots
import SyntaxGateway.Proofs.Toml.Documents
import SyntaxGateway.Proofs.Settings.Toml
import SyntaxGateway.Proofs.Files
import SyntaxGateway.Proofs.Settings.File
import SyntaxGateway.Proofs.Json.Objects
