import SecretMount.Backend.Fleet
import SecretMount.Backend.Handle
import SecretMount.Backend.Memory
import SecretMount.Backend.Status
import SecretMount.Base64
import SecretMount.Duration
import SecretMount.Json.Fault
import SecretMount.Json.Number
import SecretMount.Json.Parse
import SecretMount.Json.Quoted
import SecretMount.Json.Record
import SecretMount.Json.Skip
import SecretMount.Json.Value
import SecretMount.Location
import SecretMount.Log.Event
import SecretMount.Log.Filter
import SecretMount.Log.Startup
import SecretMount.Mount.Entry
import SecretMount.Mount.Failure
import SecretMount.Mount.Fetch
import SecretMount.Mount.Request
import SecretMount.Mount.Response
import SecretMount.Mount.Run
import SecretMount.Mount.Schedule
import SecretMount.Number
import SecretMount.Number.Decimal
import SecretMount.Number.Shortest
import SecretMount.Pattern.Basic
import SecretMount.Pattern.Check
import SecretMount.Pattern.Escape
import SecretMount.Pattern.Set
import SecretMount.Payload
import SecretMount.Proofs.Access
import SecretMount.Proofs.Admission
import SecretMount.Proofs.Aggregation
import SecretMount.Proofs.Agreement
import SecretMount.Proofs.Blame
import SecretMount.Proofs.Bodies
import SecretMount.Proofs.Cancellation
import SecretMount.Proofs.Causes
import SecretMount.Proofs.Clock
import SecretMount.Proofs.Collection
import SecretMount.Proofs.Compact
import SecretMount.Proofs.Concrete
import SecretMount.Proofs.Confinement
import SecretMount.Proofs.Cursors
import SecretMount.Proofs.Destinations
import SecretMount.Proofs.Documents
import SecretMount.Proofs.Encoding
import SecretMount.Proofs.Entries
import SecretMount.Proofs.Environment
import SecretMount.Proofs.Extraction
import SecretMount.Proofs.Forms
import SecretMount.Proofs.Grammar
import SecretMount.Proofs.History
import SecretMount.Proofs.Independence
import SecretMount.Proofs.Integers
import SecretMount.Proofs.Lexemes
import SecretMount.Proofs.Lexing
import SecretMount.Proofs.Listing
import SecretMount.Proofs.Locations
import SecretMount.Proofs.Lockstep
import SecretMount.Proofs.Nodes
import SecretMount.Proofs.Origin
import SecretMount.Proofs.Pinning
import SecretMount.Proofs.Precedence
import SecretMount.Proofs.Quotation
import SecretMount.Proofs.Radix
import SecretMount.Proofs.Readings
import SecretMount.Proofs.Recognition
import SecretMount.Proofs.Regions
import SecretMount.Proofs.RoundTrip
import SecretMount.Proofs.Routing
import SecretMount.Proofs.Scalars
import SecretMount.Proofs.Schedule
import SecretMount.Proofs.Secrecy
import SecretMount.Proofs.Sources
import SecretMount.Proofs.Spelling
import SecretMount.Proofs.Stages
import SecretMount.Proofs.Timeline
import SecretMount.Proofs.Tokens
import SecretMount.Proofs.Trimming
import SecretMount.Proofs.Turns
import SecretMount.Proofs.Utf8
import SecretMount.Proofs.Values
import SecretMount.Proofs.Variables
import SecretMount.Proofs.Violations
import SecretMount.Proofs.Wording
import SecretMount.Refusal
import SecretMount.RoutingTable
import SecretMount.Settings.Basic
import SecretMount.Settings.Environment
import SecretMount.Table
import SecretMount.Text.Alphanumeric
import SecretMount.Text.Blank
import SecretMount.Text.Numeral
import SecretMount.Text.Pieces
import SecretMount.Text.Quoted
import SecretMount.Text.Utf8
import SecretMount.Text.Visible
import SecretMount.VersionName
import SecretMount.Yaml.Cursor
import SecretMount.Yaml.Document
import SecretMount.Yaml.Event
import SecretMount.Yaml.Fault
import SecretMount.Yaml.Lexer
import SecretMount.Yaml.Record
import SecretMount.Yaml.Scalar.Block
import SecretMount.Yaml.Scalar.Fold
import SecretMount.Yaml.Scalar.Plain
import SecretMount.Yaml.Scalar.Quoted
import SecretMount.Yaml.Schema
import SecretMount.Yaml.Source
import SecretMount.Yaml.Token
import SecretMount.Yaml.Value
