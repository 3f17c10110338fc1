import Earmark.Amount
import Earmark.Binary64
import Earmark.Binary64.Text
import Earmark.Decimal.Arithmetic
import Earmark.Decimal.Basic
import Earmark.Decimal.Text
import Earmark.Digest.Sha1
import Earmark.Escrow.Basic
import Earmark.Failure
import Earmark.Geo
import Earmark.Http.Address
import Earmark.Http.Endpoint
import Earmark.Http.Forms
import Earmark.Http.Host
import Earmark.Http.Message
import Earmark.Http.Path
import Earmark.Http.Reading
import Earmark.Http.Rules
import Earmark.Http.Server
import Earmark.Http.Views
import Earmark.Ids
import Earmark.Intent.Basic
import Earmark.Intent.Selection
import Earmark.Json.Basic
import Earmark.Json.Reader
import Earmark.Json.Writer
import Earmark.Locks
import Earmark.Measure
import Earmark.Merchant.Basic
import Earmark.Merchant.Directory
import Earmark.Merchant.Document
import Earmark.Policy
import Earmark.Record
import Earmark.Reference
import Earmark.Registry.Catalog
import Earmark.Registry.Client
import Earmark.Reputation
import Earmark.Risk
import Earmark.Service.Command
import Earmark.Service.Escrows
import Earmark.Service.Intents
import Earmark.Service.Payments
import Earmark.Service.Reputations
import Earmark.Service.Wallets
import Earmark.Service.World
import Earmark.Store.Backend
import Earmark.Store.Rejection
import Earmark.Store.Relational
import Earmark.Store.Transaction
import Earmark.Summary
import Earmark.Tags
import Earmark.Text.Blank
import Earmark.Text.Digit
import Earmark.Text.Literal
import Earmark.Text.Lowercase
import Earmark.Text.Printable
import Earmark.Text.Quoted
import Earmark.Text.Units
import Earmark.Text.Utf8
import Earmark.Time
import Earmark.Time.Reader
import Earmark.Verdict.Basic
import Earmark.Verdict.Checks
import Earmark.Verdict.Pipeline
import Earmark.Vocabulary
import Earmark.Proofs.Cents
import Earmark.Proofs.Ledger
import Earmark.Proofs.Running
import Earmark.Proofs.Turns
import Earmark.Proofs.Runs
import Earmark.Proofs.Verdicts
import Earmark.Proofs.Conservation
import Earmark.Proofs.Reconciliation
import Earmark.Proofs.Enforcement
import Earmark.Proofs.Lifecycle
import Earmark.Proofs.Rounding
import Earmark.Proofs.Bounds
import Earmark.Proofs.Milestones
import Earmark.Proofs.Escrows
import Earmark.Proofs.EscrowRuns
import Earmark.Proofs.Labels
import Earmark.Proofs.Atomicity
import Earmark.Proofs.Refusals
import Earmark.Proofs.Documents
import Earmark.Proofs.StoredEscrows
import Earmark.Proofs.OrderlyWorlds
import Earmark.Proofs.Outcomes
import Earmark.Proofs.AcceptedForms
import Earmark.Proofs.Responses
import Earmark.Proofs.Isolation
import Earmark.Proofs.Flights
import Earmark.Proofs.Interleavings
import Earmark.Proofs.Calendar
import Earmark.Proofs.Columns
import Earmark.Proofs.EscrowRows
import Earmark.Proofs.Faithfulness
import Earmark.Proofs.RegistryFailures
import Earmark.Proofs.ReputationLog
import Earmark.Proofs.MonotoneSums
import Earmark.Proofs.SpendingTotals
import Earmark.Proofs.UserIsolation
import Earmark.Proofs.MirroredPayments
import Earmark.Proofs.BackendEquivalence
import Earmark.Proofs.Aloofness
import Earmark.Proofs.Advice
import Earmark.Proofs.Judgements
import Earmark.Proofs.Differences
import Earmark.Proofs.PolicyDecisions
import Earmark.Proofs.Sequels
import Earmark.Proofs.ReputationTotals
import Earmark.Proofs.Figures
import Earmark.Proofs.SummaryTotals
import Earmark.Proofs.References
import Earmark.Proofs.Gauges
import Earmark.Proofs.Counters
import Earmark.Proofs.ExactMoney
import Earmark.Proofs.Courses
import Earmark.Proofs.Choices
import Earmark.Proofs.PaymentEffects
import Earmark.Proofs.WholeCents
import Earmark.Proofs.Commitments
import Earmark.Proofs.SpendingOrder
import Earmark.Proofs.Clawbacks
import Earmark.Proofs.EscrowTotals
import Earmark.Proofs.NearestCents
import Earmark.Proofs.MerchantDocuments
import Earmark.Proofs.LiveLocks
import Earmark.Proofs.NestedBlocks
import Earmark.Proofs.SplitRules
import Earmark.Proofs.Rates
import Earmark.Proofs.Spellings
import Earmark.Proofs.MirroredResponses
