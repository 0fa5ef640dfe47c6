import ChunkScope.Chunk
import ChunkScope.Client
import ChunkScope.Config
import ChunkScope.Document
import ChunkScope.Files
import ChunkScope.Http.Message
import ChunkScope.Http.Url
import ChunkScope.Inspect
import ChunkScope.Json.Basic
import ChunkScope.Json.Reader
import ChunkScope.Json.Scan
import ChunkScope.Layout
import ChunkScope.Main
import ChunkScope.Node.Api
import ChunkScope.Node.Message
import ChunkScope.Terminal
import ChunkScope.Text.Encoding
import ChunkScope.Text.Numeral
import ChunkScope.Text.Unicode
import ChunkScope.Toml.Document
import ChunkScope.Toml.Scan
import ChunkScope.World
import ChunkScope.Proofs.Chunk.Cursors
import ChunkScope.Proofs.Chunk.Dumping
import ChunkScope.Proofs.Chunk.Ids
import ChunkScope.Proofs.Client.Batches
import ChunkScope.Proofs.Client.Inspection
import ChunkScope.Proofs.Client.Locality
import ChunkScope.Proofs.Client.Reading
import ChunkScope.Proofs.Client.Routing
import ChunkScope.Proofs.Client.Writing
import ChunkScope.Proofs.Config.Defaults
import ChunkScope.Proofs.Config.Documents
import ChunkScope.Proofs.Config.Loading
import ChunkScope.Proofs.Http.Addresses
import ChunkScope.Proofs.Inspect.Fetching
import ChunkScope.Proofs.Inspect.Lines
import ChunkScope.Proofs.Inspect.Naming
import ChunkScope.Proofs.Inspect.Orders
import ChunkScope.Proofs.Inspect.Paging
import ChunkScope.Proofs.Inspect.Pipeline
import ChunkScope.Proofs.Inspect.Steps
import ChunkScope.Proofs.Inspect.Wording
import ChunkScope.Proofs.Json.Accepted
import ChunkScope.Proofs.Json.Atoms
import ChunkScope.Proofs.Json.Values
import ChunkScope.Proofs.Keyed
import ChunkScope.Proofs.Layout.Canonical
import ChunkScope.Proofs.Layout.Fitting
import ChunkScope.Proofs.Node.Acknowledging
import ChunkScope.Proofs.Node.Allocation
import ChunkScope.Proofs.Node.Commuting
import ChunkScope.Proofs.Node.History
import ChunkScope.Proofs.Node.Messages
import ChunkScope.Proofs.Node.Numbering
import ChunkScope.Proofs.Node.Reading
import ChunkScope.Proofs.Node.Runs
import ChunkScope.Proofs.Node.Serving
import ChunkScope.Proofs.Node.Spellings
import ChunkScope.Proofs.Node.Writing
import ChunkScope.Proofs.Terminal.Commands
import ChunkScope.Proofs.Terminal.Directing
import ChunkScope.Proofs.Terminal.Fallback
import ChunkScope.Proofs.Terminal.Putting
import ChunkScope.Proofs.Terminal.Slots
import ChunkScope.Proofs.Text.Encodings
import ChunkScope.Proofs.Text.Numerals
import ChunkScope.Proofs.Text.Spellings
