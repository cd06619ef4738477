import RuleEngine.Error.Json
import RuleEngine.Evaluation.Lookup.Table
import RuleEngine.Handler.StandIn
import RuleEngine.Main
import RuleEngine.Rule.Builder.Json
import RuleEngine.Service.Request
import RuleEngine.Store.Memory
import RuleEngine.Proofs.Live.Change
import RuleEngine.Proofs.Run.Consistency
import RuleEngine.Proofs.Live.Soundness
import RuleEngine.Proofs.Live.Consistency
import RuleEngine.Proofs.Live.AtMostOnce
import RuleEngine.Proofs.Run.History
import RuleEngine.Proofs.Run.WriteAhead
import RuleEngine.Proofs.Text.Pieces
import RuleEngine.Proofs.Text.Numeral
import RuleEngine.Proofs.Time.Calendar
import RuleEngine.Proofs.Time.Text
import RuleEngine.Proofs.Time.Minute
import RuleEngine.Proofs.Service.Effect
import RuleEngine.Proofs.Data.Value
import RuleEngine.Proofs.Data.Rule
import RuleEngine.Proofs.Store.RuleTable
import RuleEngine.Proofs.Store.RuleRow
import RuleEngine.Proofs.Store.WrittenRule
import RuleEngine.Proofs.Schedule.Tick
import RuleEngine.Proofs.Schedule.Books
import RuleEngine.Proofs.Schedule.Exactness
import RuleEngine.Proofs.Data.Depth
import RuleEngine.Proofs.Service.Seed
import RuleEngine.Proofs.Cron.Grammar
import RuleEngine.Proofs.Cron.Selection
import RuleEngine.Proofs.Data.Execution
import RuleEngine.Proofs.Store.ExecutionRow
import RuleEngine.Proofs.Store.LogRefinement
import RuleEngine.Proofs.Service.ReadThenWrite
import RuleEngine.Proofs.Store.TickLedger
import RuleEngine.Proofs.Schedule.ClaimAccount
import RuleEngine.Proofs.Schedule.Interleaving
import RuleEngine.Proofs.Evaluation.Notes
import RuleEngine.Proofs.Store.RecordQuery
import RuleEngine.Proofs.Store.EndedRecords
import RuleEngine.Proofs.Run.Path
import RuleEngine.Proofs.Run.Resumption
import RuleEngine.Proofs.Run.Delay
import RuleEngine.Proofs.Live.Custody
import RuleEngine.Proofs.Tenant.Isolation
import RuleEngine.Proofs.Schedule.RuleKeeping
import RuleEngine.Proofs.Data.Exchange
import RuleEngine.Proofs.Service.Survival
import RuleEngine.Proofs.Live.Trace
import RuleEngine.Proofs.Live.Pool
import RuleEngine.Proofs.Store.RuleLedger
import RuleEngine.Proofs.Live.Intake
import RuleEngine.Proofs.Live.Dispatch
import RuleEngine.Proofs.Evaluation.Independence
import RuleEngine.Proofs.Run.Actions
import RuleEngine.Proofs.Store.RuleCell
import RuleEngine.Proofs.Service.Edits
import RuleEngine.Proofs.Cron.Reordering
import RuleEngine.Proofs.Service.Creation
import RuleEngine.Proofs.Store.Rewriting
import RuleEngine.Proofs.Service.Frame
import RuleEngine.Proofs.Service.SeededRows
import RuleEngine.Proofs.Service.Seeding
import RuleEngine.Proofs.Data.Equality
import RuleEngine.Proofs.Text.Lowering
import RuleEngine.Proofs.Evaluation.Search
import RuleEngine.Proofs.Evaluation.Complements
import RuleEngine.Proofs.Evaluation.Changes
import RuleEngine.Proofs.Run.Reordering
import RuleEngine.Proofs.Execution.Lifecycle
import RuleEngine.Proofs.Rule.Drafts
import RuleEngine.Proofs.Cron.Faults
import RuleEngine.Proofs.Execution.Times
import RuleEngine.Proofs.Store.Times
import RuleEngine.Proofs.Live.Times
import RuleEngine.Proofs.Store.ColumnOrder
import RuleEngine.Proofs.Time.Floor
import RuleEngine.Proofs.Schedule.Due
