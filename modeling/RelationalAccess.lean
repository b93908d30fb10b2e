import RelationalAccess.Network.Reading
import RelationalAccess.Schema.Build
import RelationalAccess.Schema.Registry
import RelationalAccess.Settings.Reading
import RelationalAccess.Stats
import RelationalAccess.Query.Lowering
import RelationalAccess.Sql.Selecting
import RelationalAccess.Sql.Changing
import RelationalAccess.Sql.Creating
import RelationalAccess.Cache.Entries
import RelationalAccess.Cache.Index
import RelationalAccess.Row
import RelationalAccess.Row.Draft
import RelationalAccess.Subscriptions
import RelationalAccess.Cache.Reading
import RelationalAccess.Cache.Database
import RelationalAccess.Cache.Stored
import RelationalAccess.Backend
import RelationalAccess.Backend.Scripted
import RelationalAccess.DataSource
import RelationalAccess.DataSource.Reading
import RelationalAccess.DataSource.Selection
import RelationalAccess.Transaction
import RelationalAccess.Proofs.Query.Meaning
import RelationalAccess.Proofs.Query.Lowering
import RelationalAccess.Proofs.Cache.Buckets
import RelationalAccess.Proofs.Cache.Loading
import RelationalAccess.Proofs.Cache.Source
import RelationalAccess.Proofs.Cache.IndexCoherence
import RelationalAccess.Proofs.Cache.History
import RelationalAccess.Proofs.Cache.LoadsInFlight
import RelationalAccess.Proofs.Cache.Upkeep
import RelationalAccess.Proofs.Cache.Growth
import RelationalAccess.Proofs.Cache.Gathering
import RelationalAccess.Proofs.Cache.Mirror
import RelationalAccess.Proofs.Cache.Answers
import RelationalAccess.Proofs.Cache.CommitsDuringReads
import RelationalAccess.Proofs.Cache.DivertedReads
import RelationalAccess.Proofs.Schema.Placement
import RelationalAccess.Proofs.Schema.Coherence
import RelationalAccess.Proofs.Sql.Binding
import RelationalAccess.Proofs.DataSource.Ledger
import RelationalAccess.Proofs.DataSource.Reads
import RelationalAccess.Proofs.Transaction.Pending
import RelationalAccess.Proofs.Transaction.Outcomes
import RelationalAccess.Proofs.Transaction.Agreement
import RelationalAccess.Proofs.Transaction.Numbering
import RelationalAccess.Proofs.Transaction.Runs
import RelationalAccess.Proofs.Transaction.Calls
import RelationalAccess.Proofs.Transaction.Lifecycle
import RelationalAccess.Proofs.Transaction.Recording
import RelationalAccess.Proofs.Query.Membership
import RelationalAccess.Proofs.Query.Negation
import RelationalAccess.Proofs.Sql.Spacing
import RelationalAccess.Proofs.Query.Expression
import RelationalAccess.Proofs.Sql.Grammar
import RelationalAccess.Proofs.Sql.FilterText
import RelationalAccess.Proofs.Sql.SelectText
import RelationalAccess.Proofs.Sql.Selected
import RelationalAccess.Proofs.Sql.Conversion
import RelationalAccess.Proofs.Cache.Shown
import RelationalAccess.Proofs.Cache.Lookups
import RelationalAccess.Proofs.DataSource.Loads
import RelationalAccess.Proofs.DataSource.Matching
import RelationalAccess.Proofs.DataSource.Engine
import RelationalAccess.Proofs.DataSource.Navigation
import RelationalAccess.Proofs.DataSource.Selections
import RelationalAccess.Proofs.Cache.Following
import RelationalAccess.Proofs.DataSource.Forms
import RelationalAccess.Proofs.DataSource.FormLookups
import RelationalAccess.Proofs.DataSource.BucketUpkeep
import RelationalAccess.Proofs.Transaction.BucketRuns
import RelationalAccess.Proofs.Transaction.AlikeLookups
import RelationalAccess.Proofs.Sql.Writing
import RelationalAccess.Proofs.Sql.Splicing
import RelationalAccess.Proofs.Sql.WrittenStatements
import RelationalAccess.Proofs.Sql.Parameters
import RelationalAccess.Proofs.Text.Readers
import RelationalAccess.Proofs.Schema.Declarations
import RelationalAccess.Proofs.Schema.Declarable
import RelationalAccess.Proofs.Schema.TypeTexts
import RelationalAccess.Proofs.Sql.Creation
import RelationalAccess.Proofs.Sql.CreationText
import RelationalAccess.Proofs.Sql.CreatedDatabase
import RelationalAccess.Proofs.Value.Uuids
import RelationalAccess.Proofs.Value.Moments
import RelationalAccess.Proofs.Value.Addresses
import RelationalAccess.Proofs.Sql.RoundTrip
import RelationalAccess.Proofs.Subscriptions.Standing
import RelationalAccess.Proofs.Subscriptions.Deliveries
import RelationalAccess.Proofs.Cache.Accounts
import RelationalAccess.Proofs.Cache.DatabaseRuns
import RelationalAccess.Proofs.Transaction.Instances
import RelationalAccess.Proofs.Cache.KeyReads
import RelationalAccess.Proofs.Sql.ChangeText
import RelationalAccess.Proofs.Row.Edits
import RelationalAccess.Proofs.Row.Acceptance
import RelationalAccess.Proofs.Transaction.Updates
import RelationalAccess.Proofs.Transaction.Insertions
import RelationalAccess.Proofs.Transaction.HostValues
import RelationalAccess.Proofs.Cache.Announcements
import RelationalAccess.Proofs.Query.Patterns
import RelationalAccess.Proofs.Schema.Candidates
import RelationalAccess.Proofs.Subscriptions.Removal
import RelationalAccess.Proofs.DataSource.Parents
import RelationalAccess.Proofs.Schema.DeclarationGrammar
import RelationalAccess.Proofs.Schema.Buildable
import RelationalAccess.Proofs.DataSource.NavigationNames
import RelationalAccess.Proofs.Sql.IndexStatements
import RelationalAccess.Proofs.Schema.DeclaredNumbers
import RelationalAccess.Proofs.Row.ReadValues
import RelationalAccess.Proofs.Query.Leaves
import RelationalAccess.Proofs.Query.Traversal
import RelationalAccess.Proofs.Sql.WhereClause
import RelationalAccess.Proofs.Sql.Operands
import RelationalAccess.Proofs.Sql.BoundPatterns
import RelationalAccess.Proofs.Sql.QuotedNames
import RelationalAccess.Proofs.Cache.KeyBudgets
import RelationalAccess.Proofs.Text.Comparison
import RelationalAccess.Proofs.Value.DayOrder
import RelationalAccess.Proofs.Sql.StoredOrder
import RelationalAccess.Proofs.Sql.UuidForms
