import RecordLiteral.Text.Digit
import RecordLiteral.Text.Numeral
import RecordLiteral.Text.Identifier
import RecordLiteral.Text.Quoted
import RecordLiteral.Text.Printable
import RecordLiteral.Text.Debug
import RecordLiteral.Number.Exact
import RecordLiteral.Number.Double
import RecordLiteral.Number.Decimal
import RecordLiteral.Number.Shortest
import RecordLiteral.Calendar.Date
import RecordLiteral.Calendar.DateTime
import RecordLiteral.Uuid
import RecordLiteral.Fault
import RecordLiteral.Leaf
import RecordLiteral.Leaf.Debug
import RecordLiteral.Leaf.OfText
import RecordLiteral.Value
import RecordLiteral.Value.Digest
import RecordLiteral.Value.Equality
import RecordLiteral.Value.Loop
import RecordLiteral.Value.Frozen
import RecordLiteral.Value.Snapshot
import RecordLiteral.Value.Debug
import RecordLiteral.Value.Literal
import RecordLiteral.Value.Json
import RecordLiteral.Value.Items
import RecordLiteral.Dictionary
import RecordLiteral.Entity
import RecordLiteral.Term
import RecordLiteral.Workspace
import RecordLiteral.Proofs.Address
import RecordLiteral.Proofs.WellFormed
import RecordLiteral.Proofs.Form
import RecordLiteral.Proofs.Comparison
import RecordLiteral.Proofs.Agreement
import RecordLiteral.Proofs.Lookup
import RecordLiteral.Proofs.Hashing
import RecordLiteral.Proofs.Capture
import RecordLiteral.Proofs.Contents
import RecordLiteral.Proofs.Evaluation
import RecordLiteral.Proofs.Update
import RecordLiteral.Proofs.Steps
import RecordLiteral.Proofs.Isolation
import RecordLiteral.Proofs.Tokens
import RecordLiteral.Proofs.Readability
import RecordLiteral.Proofs.Keys
import RecordLiteral.Proofs.Collisions
import RecordLiteral.Proofs.Delimiters
import RecordLiteral.Proofs.Document
import RecordLiteral.Proofs.Embedding
import RecordLiteral.Proofs.Layout
import RecordLiteral.Proofs.NumberLike
import RecordLiteral.Proofs.Sorted
import RecordLiteral.Proofs.Booleans
import RecordLiteral.Proofs.Hashable
import RecordLiteral.Proofs.Construction
import RecordLiteral.Proofs.WriteOnce
import RecordLiteral.Proofs.FrozenForm
import RecordLiteral.Proofs.Moments
import RecordLiteral.Proofs.Worth
import RecordLiteral.Proofs.FixedPoint
