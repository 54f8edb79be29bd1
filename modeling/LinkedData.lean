import LinkedData.Address
import LinkedData.Agent
import LinkedData.Archive
import LinkedData.Archive.Files
import LinkedData.Blake3
import LinkedData.Blob
import LinkedData.Blob.Files
import LinkedData.Cache
import LinkedData.CommandLine.Command
import LinkedData.CommandLine.Grammar
import LinkedData.CommandLine.Run
import LinkedData.Config
import LinkedData.Config.Layers
import LinkedData.Config.Text
import LinkedData.Constraint
import LinkedData.Decimal.Binary64
import LinkedData.Decimal.Reader
import LinkedData.Decimal.Shortest
import LinkedData.Encoding.Document
import LinkedData.Encoding.Primitive
import LinkedData.Encoding.Record
import LinkedData.Error
import LinkedData.FileTree
import LinkedData.FileTree.Location
import LinkedData.Hex
import LinkedData.Identifier
import LinkedData.Ini
import LinkedData.Instant
import LinkedData.Instant.Calendar
import LinkedData.Instant.Rfc3339
import LinkedData.InteractionModel
import LinkedData.Json
import LinkedData.Json.Number
import LinkedData.Json.Reader
import LinkedData.Json5
import LinkedData.Listing
import LinkedData.Locks
import LinkedData.Logging
import LinkedData.Logging.Directive
import LinkedData.Main
import LinkedData.Membership
import LinkedData.Memento
import LinkedData.Memento.Files
import LinkedData.Notification
import LinkedData.Pattern
import LinkedData.Pattern.Reader
import LinkedData.Rdf.Arena
import LinkedData.Rdf.Graph
import LinkedData.Rdf.Iri
import LinkedData.Rdf.Literal
import LinkedData.Rdf.NTriples
import LinkedData.Rdf.Term
import LinkedData.Repository
import LinkedData.Resource
import LinkedData.Ron
import LinkedData.Service
import LinkedData.Settings
import LinkedData.Store
import LinkedData.Text.Blank
import LinkedData.Text.Case
import LinkedData.Text.Cased
import LinkedData.Text.Digits
import LinkedData.Text.Letter
import LinkedData.Text.Name
import LinkedData.Text.Printable
import LinkedData.Text.Quoted
import LinkedData.Text.Ranges
import LinkedData.Toml.Document
import LinkedData.Toml.Number
import LinkedData.Toml.Text
import LinkedData.Toml.Time
import LinkedData.Toml.Writer
import LinkedData.Transaction
import LinkedData.Vocabulary
import LinkedData.Workspace
import LinkedData.Yaml.Cursor
import LinkedData.Yaml.Document
import LinkedData.Yaml.Scalar
import LinkedData.Yaml.Tag
import LinkedData.Yaml.Token
import LinkedData.Proofs.Edits
import LinkedData.Proofs.Stores
import LinkedData.Proofs.Evaluation
import LinkedData.Proofs.Upkeep
import LinkedData.Proofs.Footprint
import LinkedData.Proofs.Hierarchy
import LinkedData.Proofs.Commit
import LinkedData.Proofs.Outcome
import LinkedData.Proofs.Mutate
import LinkedData.Proofs.AbstractMap
import LinkedData.Proofs.Requests
import LinkedData.Proofs.Atomicity
import LinkedData.Proofs.Backlog
import LinkedData.Proofs.Pipeline
import LinkedData.Proofs.Contributions
import LinkedData.Proofs.Containment
import LinkedData.Proofs.Admission
import LinkedData.Proofs.Announcements
import LinkedData.Proofs.Failures
import LinkedData.Proofs.Exactness
import LinkedData.Proofs.Desk
import LinkedData.Proofs.Guards
import LinkedData.Proofs.Writers
import LinkedData.Proofs.Serial
import LinkedData.Proofs.Times
import LinkedData.Proofs.Listings
import LinkedData.Proofs.Links
import LinkedData.Proofs.SharedMembers
import LinkedData.Proofs.TypeTriples
import LinkedData.Proofs.Numerals
import LinkedData.Proofs.Dates
import LinkedData.Proofs.Decoding
import LinkedData.Proofs.FileTrees
import LinkedData.Proofs.FileChanges
import LinkedData.Proofs.Hexadecimals
import LinkedData.Proofs.FileNames
import LinkedData.Proofs.Histories
import LinkedData.Proofs.Persistence
import LinkedData.Proofs.Chronicles
import LinkedData.Proofs.LateReadings
import LinkedData.Proofs.Blobs
import LinkedData.Proofs.DamagedBlobs
import LinkedData.Proofs.Steps
import LinkedData.Proofs.Shadows
import LinkedData.Proofs.AuditLogs
import LinkedData.Proofs.Coverage
import LinkedData.Proofs.Verdicts
import LinkedData.Proofs.Declarations
import LinkedData.Proofs.Frame
import LinkedData.Proofs.Exclusion
import LinkedData.Proofs.Agents
import LinkedData.Proofs.Ancestors
import LinkedData.Proofs.RecentUse
import LinkedData.Proofs.BlankNodes
