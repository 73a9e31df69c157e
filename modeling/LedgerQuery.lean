import LedgerQuery.Json.Equality
import LedgerQuery.Rehearsal.Stage
import LedgerQuery.Record.Directory
import LedgerQuery.Fetch.Transport
import LedgerQuery.Settings.Load
import LedgerQuery.Proofs.Fetch.History
import LedgerQuery.Proofs.Fetch.Course
import LedgerQuery.Proofs.Fetch.Aftermath
import LedgerQuery.Proofs.Fetch.Reference
import LedgerQuery.Proofs.Number.Order
import LedgerQuery.Proofs.Fetch.Termination
import LedgerQuery.Proofs.Fetch.Cancellation
import LedgerQuery.Proofs.Conformance.Check
import LedgerQuery.Proofs.Conformance.Rules
import LedgerQuery.Proofs.Http.Exchange
import LedgerQuery.Proofs.Number.Double
import LedgerQuery.Proofs.Settings.Retry
import LedgerQuery.Proofs.Fetch.Delivery
import LedgerQuery.Proofs.Fetch.Closure
import LedgerQuery.Proofs.Fetch.Accounts
import LedgerQuery.Proofs.Fetch.Budget
import LedgerQuery.Proofs.Fetch.Independence
import LedgerQuery.Proofs.Backoff.Exact
import LedgerQuery.Proofs.Fetch.Deadline
import LedgerQuery.Proofs.Fetch.Forms
import LedgerQuery.Proofs.Json.Normal
import LedgerQuery.Proofs.Shape.Wire
import LedgerQuery.Proofs.Shape.Lossless
import LedgerQuery.Proofs.Record.Equality
import LedgerQuery.Proofs.Record.RoundTrip
import LedgerQuery.Proofs.Document.Update
import LedgerQuery.Proofs.Settings.Override
import LedgerQuery.Proofs.Document.Reading
import LedgerQuery.Proofs.Settings.Precedence
import LedgerQuery.Proofs.Yaml.Forest
import LedgerQuery.Proofs.Yaml.Graph
import LedgerQuery.Proofs.Yaml.Tree
import LedgerQuery.Proofs.Settings.Load
import LedgerQuery.Proofs.Conformance.Order
import LedgerQuery.Proofs.Conformance.Account
import LedgerQuery.Proofs.Http.Classes
import LedgerQuery.Proofs.Backoff.Interval
import LedgerQuery.Proofs.Document.Sharing
import LedgerQuery.Proofs.Document.Local
import LedgerQuery.Proofs.Document.Isolation
import LedgerQuery.Proofs.Settings.Isolation
import LedgerQuery.Proofs.Record.Keyed
import LedgerQuery.Proofs.Conformance.Network
import LedgerQuery.Proofs.Backoff.Stopping
import LedgerQuery.Proofs.Settings.Agreement
import LedgerQuery.Proofs.Number.Rounding
import LedgerQuery.Proofs.Number.Arithmetic
import LedgerQuery.Proofs.Backoff.Usable
import LedgerQuery.Proofs.Conformance.Catalog
import LedgerQuery.Proofs.Json.Spelling
import LedgerQuery.Proofs.Conformance.Presentation
import LedgerQuery.Proofs.Shape.Tolerance
import LedgerQuery.Proofs.Record.Tolerance
import LedgerQuery.Proofs.Document.Order
import LedgerQuery.Proofs.Settings.Steady
import LedgerQuery.Proofs.Settings.Order
import LedgerQuery.Proofs.Settings.Address
import LedgerQuery.Proofs.Http.Headers
import LedgerQuery.Proofs.Settings.Outcome
import LedgerQuery.Proofs.Settings.Spelling
import LedgerQuery.Proofs.Document.Laws
import LedgerQuery.Proofs.Settings.Pieces
import LedgerQuery.Proofs.Settings.Names
