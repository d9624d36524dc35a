import KeysetQuery.Attribute.Basic
import KeysetQuery.Attribute.Normalizer
import KeysetQuery.Client.Exchange
import KeysetQuery.Client.Shared
import KeysetQuery.Client.Traffic
import KeysetQuery.Expression.Block
import KeysetQuery.Expression.Clause
import KeysetQuery.Expression.Placeholder
import KeysetQuery.Expression.Update
import KeysetQuery.Fault
import KeysetQuery.Notice
import KeysetQuery.Number.Binary64
import KeysetQuery.Number.Decimal
import KeysetQuery.Number.DecimalContext
import KeysetQuery.Number.DecimalSum
import KeysetQuery.Number.IntegerText
import KeysetQuery.Proofs.Client.Outages
import KeysetQuery.Proofs.Client.Periods
import KeysetQuery.Proofs.Client.Releases
import KeysetQuery.Proofs.Client.Traffic
import KeysetQuery.Proofs.Counting.Resume
import KeysetQuery.Proofs.Counting.Steps
import KeysetQuery.Proofs.Counting.Walk
import KeysetQuery.Proofs.Expression.Assignments
import KeysetQuery.Proofs.Expression.Clauses
import KeysetQuery.Proofs.Expression.Filled
import KeysetQuery.Proofs.Expression.Formula
import KeysetQuery.Proofs.Expression.Joins
import KeysetQuery.Proofs.Expression.Marks
import KeysetQuery.Proofs.Expression.Meaning
import KeysetQuery.Proofs.Expression.Operands
import KeysetQuery.Proofs.Expression.Overlaps
import KeysetQuery.Proofs.Expression.Placeholders
import KeysetQuery.Proofs.Expression.ReadBack
import KeysetQuery.Proofs.Expression.Reader
import KeysetQuery.Proofs.Expression.Reading
import KeysetQuery.Proofs.Expression.Templates
import KeysetQuery.Proofs.Interleaving.Cancellation
import KeysetQuery.Proofs.Interleaving.CountEnd
import KeysetQuery.Proofs.Interleaving.Failures
import KeysetQuery.Proofs.Interleaving.Lane
import KeysetQuery.Proofs.Interleaving.Outcome
import KeysetQuery.Proofs.Interleaving.Refusals
import KeysetQuery.Proofs.Interleaving.Schedule
import KeysetQuery.Proofs.Interleaving.Totals
import KeysetQuery.Proofs.Number.DecimalText
import KeysetQuery.Proofs.Number.NearestFloat
import KeysetQuery.Proofs.Outcome
import KeysetQuery.Proofs.Paging.Before
import KeysetQuery.Proofs.Paging.Count
import KeysetQuery.Proofs.Paging.Index
import KeysetQuery.Proofs.Paging.LastPage
import KeysetQuery.Proofs.Paging.Order
import KeysetQuery.Proofs.Paging.Query
import KeysetQuery.Proofs.Paging.Response
import KeysetQuery.Proofs.Paging.Walk
import KeysetQuery.Proofs.Paging.WalkEnds
import KeysetQuery.Proofs.Query.Acceptance
import KeysetQuery.Proofs.Query.Blocks
import KeysetQuery.Proofs.Query.Bundles
import KeysetQuery.Proofs.Query.Canonical
import KeysetQuery.Proofs.Query.Closed
import KeysetQuery.Proofs.Query.Compiled
import KeysetQuery.Proofs.Query.Conclusion
import KeysetQuery.Proofs.Query.CountMembers
import KeysetQuery.Proofs.Query.Demands
import KeysetQuery.Proofs.Query.EmptyParts
import KeysetQuery.Proofs.Query.Grouping
import KeysetQuery.Proofs.Query.KeyPlaceholders
import KeysetQuery.Proofs.Query.Members
import KeysetQuery.Proofs.Query.Normalization
import KeysetQuery.Proofs.Query.PageSize
import KeysetQuery.Proofs.Query.Restart
import KeysetQuery.Proofs.Query.Spellings
import KeysetQuery.Proofs.Query.Trim
import KeysetQuery.Proofs.Query.ValuePlaceholders
import KeysetQuery.Proofs.Record.Guard
import KeysetQuery.Proofs.Record.Targets
import KeysetQuery.Proofs.Record.Update
import KeysetQuery.Proofs.Schema.Names
import KeysetQuery.Proofs.Schema.Places
import KeysetQuery.Proofs.Session.Jobs
import KeysetQuery.Proofs.Session.Tasks
import KeysetQuery.Proofs.Session.Traffic
import KeysetQuery.Proofs.Stored.Canonical
import KeysetQuery.Proofs.Stored.Cursors
import KeysetQuery.Proofs.Stored.Keys
import KeysetQuery.Proofs.Stored.Members
import KeysetQuery.Proofs.Stored.Recorded
import KeysetQuery.Proofs.Stored.Rewritten
import KeysetQuery.Proofs.Stored.RoundTrip
import KeysetQuery.Proofs.Value.Entries
import KeysetQuery.Proofs.Value.Same
import KeysetQuery.Query.Descriptor
import KeysetQuery.Query.Page
import KeysetQuery.Query.Params
import KeysetQuery.Schema.Field
import KeysetQuery.Session.Schedule
import KeysetQuery.Session.Script
import KeysetQuery.Session.State
import KeysetQuery.Session.Transport
import KeysetQuery.Settings
import KeysetQuery.Store.CountWalk
import KeysetQuery.Store.Policy
import KeysetQuery.Store.Process
import KeysetQuery.Store.QueryPlan
import KeysetQuery.Store.QueryRun
import KeysetQuery.Store.RecordStore
import KeysetQuery.Store.Records
import KeysetQuery.Store.Request
import KeysetQuery.Stored.Decode
import KeysetQuery.Stored.Encode
import KeysetQuery.Stored.Message
import KeysetQuery.Stored.Parts
import KeysetQuery.Text.Blank
import KeysetQuery.Text.DecimalDigit
import KeysetQuery.Text.Printable
import KeysetQuery.Text.Quoted
import KeysetQuery.Text.Segments
import KeysetQuery.Text.UpperCase
import KeysetQuery.Text.Utf8
import KeysetQuery.Value.Access
import KeysetQuery.Value.Basic
import KeysetQuery.Value.Entries
import KeysetQuery.Value.Equality
import KeysetQuery.Value.Printer
import KeysetQuery.Value.Quantity
