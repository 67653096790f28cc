import Warrant.Codec.Base64
import Warrant.Codec.Hex
import Warrant.CommandLine.Arguments
import Warrant.CommandLine.DiskHost
import Warrant.CommandLine.Failure
import Warrant.CommandLine.Program
import Warrant.Delegation.Basic
import Warrant.Delegation.Catalog
import Warrant.Delegation.CatalogReader
import Warrant.Delegation.File
import Warrant.Exchange.Command
import Warrant.Exchange.Disk
import Warrant.Exchange.Frame
import Warrant.Exchange.Offer
import Warrant.Exchange.Request
import Warrant.Exchange.Store
import Warrant.Hash.Constants
import Warrant.Hash.Digest
import Warrant.Hash.Sha2
import Warrant.Identity.PolicyId
import Warrant.Identity.RuleId
import Warrant.Json.Basic
import Warrant.Json.Canonical
import Warrant.Json.Document
import Warrant.Json.Printer
import Warrant.Json.Record
import Warrant.Json.Scalar
import Warrant.Json.Value
import Warrant.Json.Yaml
import Warrant.Main
import Warrant.Number.Binary
import Warrant.Number.Decimal
import Warrant.Number.Layout
import Warrant.Number.Shortest
import Warrant.Policy.Basic
import Warrant.Policy.Body
import Warrant.Policy.Operator
import Warrant.Policy.Predicate
import Warrant.Policy.PredicateJson
import Warrant.Policy.Reader
import Warrant.Policy.Verdict
import Warrant.Proofs.Json.Quotation
import Warrant.Proofs.Policy.WellFormed
import Warrant.Rule.Basic
import Warrant.Rule.Book
import Warrant.Rule.Compile
import Warrant.Rule.Draft
import Warrant.Rule.Geofence
import Warrant.Rule.Rejection
import Warrant.Rule.Spec
import Warrant.Rule.Window
import Warrant.Signature.Curve
import Warrant.Signature.Ed25519
import Warrant.Signature.Error
import Warrant.Signature.Key
import Warrant.Text.Ascii
import Warrant.Text.Blank
import Warrant.Text.Hidden
import Warrant.Text.Numeral
import Warrant.Text.Quoted
import Warrant.Time.Calendar
import Warrant.Time.Instant
import Warrant.Time.Relaxed
import Warrant.Time.Rfc3339
import Warrant.Time.Stamp
import Warrant.Proofs.Json.ReadBack
import Warrant.Proofs.Json.KeyOrder
import Warrant.Proofs.Json.PlainKeys
import Warrant.Proofs.Codec.Hex
import Warrant.Proofs.Policy.Payload
import Warrant.Proofs.Policy.Identity
import Warrant.Proofs.Json.Sorted
import Warrant.Proofs.Policy.MemberOrder
import Warrant.Proofs.Policy.Tampering
import Warrant.Proofs.Outcome
import Warrant.Proofs.Policy.Combine
import Warrant.Proofs.Policy.BodyReading
import Warrant.Proofs.Rule.Terms
import Warrant.Proofs.Rule.Editing
import Warrant.Proofs.Rule.Groups
import Warrant.Proofs.Policy.Masking
import Warrant.Proofs.Delegation.Terms
import Warrant.Proofs.Delegation.Assembly
import Warrant.Proofs.Delegation.Preview
import Warrant.Proofs.Rule.Renaming
import Warrant.Proofs.Delegation.Renaming
import Warrant.Proofs.Codec.Base64
import Warrant.Proofs.Signature.Base64Text
import Warrant.Proofs.Exchange.Signing
import Warrant.Proofs.Json.DocumentValue
import Warrant.Proofs.Json.Indented
import Warrant.Proofs.Policy.RoundTrip
import Warrant.Proofs.Exchange.Disk
import Warrant.Proofs.Exchange.Stores
import Warrant.Proofs.Rule.Window
import Warrant.Proofs.Rule.History
import Warrant.Proofs.Rule.IndexedBook
import Warrant.Proofs.Json.Extent
import Warrant.Proofs.Exchange.Frame
import Warrant.Proofs.Json.Entries
import Warrant.Proofs.Json.Trees
import Warrant.Proofs.Json.WrittenOrder
import Warrant.Proofs.Json.Unordered
import Warrant.Proofs.Json.CanonicalForm
import Warrant.Proofs.Json.LastMember
import Warrant.Proofs.Exchange.Commands
import Warrant.Proofs.CommandLine.Verification
import Warrant.Proofs.Policy.Operators
import Warrant.Proofs.FirstFault
import Warrant.Proofs.Policy.Trimming
import Warrant.Proofs.Policy.StrictReading
import Warrant.Proofs.Policy.Edits
import Warrant.Proofs.Time.Universal
import Warrant.Proofs.Rule.Nesting
import Warrant.Proofs.Rule.Written
import Warrant.Proofs.Number.Rounding
import Warrant.Proofs.Number.Decimal
import Warrant.Proofs.Number.Shortest
import Warrant.Proofs.Number.Numeral
import Warrant.Proofs.Number.Bits
import Warrant.Proofs.Rule.Geofence
import Warrant.Proofs.Rule.Sameness
import Warrant.Proofs.Rule.Drafts
import Warrant.Proofs.Signature.HexText
import Warrant.Proofs.Time.Calendar
import Warrant.Proofs.Time.Fields
import Warrant.Proofs.Time.Written
import Warrant.Proofs.Rule.KnownMembers
import Warrant.Proofs.Delegation.KnownMembers
import Warrant.Proofs.Policy.Construction
import Warrant.Proofs.Delegation.Repetition
import Warrant.Proofs.Time.WholeSeconds
import Warrant.Proofs.Time.Clock
import Warrant.Proofs.Number.Midpoints
import Warrant.Proofs.Number.Fewest
import Warrant.Proofs.Number.Literal
import Warrant.Proofs.Number.Narrowing
import Warrant.Proofs.Rule.SetCoordinate
import Warrant.Proofs.Rule.Coordinates
