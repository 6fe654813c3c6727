import Daichod.Books
import Daichod.Daemon
import Daichod.Engine.Book
import Daichod.Engine.CurrencySums
import Daichod.Engine.Days
import Daichod.Engine.Edit
import Daichod.Engine.GncLock
import Daichod.Engine.Lifecycle
import Daichod.Engine.Loading
import Daichod.Engine.Map
import Daichod.Engine.Numeric
import Daichod.Engine.RunningSum
import Daichod.Engine.Session
import Daichod.Engine.Uri
import Daichod.Engine.Worker
import Daichod.Entities
import Daichod.Fleet
import Daichod.Footprint
import Daichod.History
import Daichod.Journal.Journal
import Daichod.Journal.LoadedVerdict
import Daichod.Journal.Recovery
import Daichod.Journal.Settlement
import Daichod.Journal.Tables
import Daichod.Journal.Verdict
import Daichod.Library.EditStore
import Daichod.Library.Forest
import Daichod.Library.Json
import Daichod.Library.KeyedList
import Daichod.Library.KeyedSums
import Daichod.Library.Machine
import Daichod.Library.Ordered
import Daichod.Library.Paging
import Daichod.Library.Refinement
import Daichod.Library.Sweep
import Daichod.Library.Triple
import Daichod.Main.Backup
import Daichod.Main.Instances
import Daichod.Main.Locks
import Daichod.Main.Options
import Daichod.Main.Run
import Daichod.Memory
import Daichod.Properties.AccountTree
import Daichod.Properties.AccountUpdate
import Daichod.Properties.Answers
import Daichod.Properties.BalanceVerdict
import Daichod.Properties.BookIdentity
import Daichod.Properties.Clients
import Daichod.Properties.CommandLine
import Daichod.Properties.CrashRestart
import Daichod.Properties.CrossReplay
import Daichod.Properties.Dates
import Daichod.Properties.DeclinedStep
import Daichod.Properties.DelayedRecovery
import Daichod.Properties.ExactMoney
import Daichod.Properties.ExactlyOnce
import Daichod.Properties.FullReplacement
import Daichod.Properties.Gate
import Daichod.Properties.IndeterminateReport
import Daichod.Properties.Instances
import Daichod.Properties.JournaledRequests
import Daichod.Properties.LatestBalance
import Daichod.Properties.Linearizable
import Daichod.Properties.ListOrder
import Daichod.Properties.LockRefinement
import Daichod.Properties.LockStealing
import Daichod.Properties.MalformedRecords
import Daichod.Properties.OneDaemon
import Daichod.Properties.OutcomeFault
import Daichod.Properties.Pagination
import Daichod.Properties.PendingFault
import Daichod.Properties.PriceDates
import Daichod.Properties.ReadBack
import Daichod.Properties.ReadModifyWrite
import Daichod.Properties.ReadOnly
import Daichod.Properties.Redaction
import Daichod.Properties.References
import Daichod.Properties.Replay
import Daichod.Properties.Resends
import Daichod.Properties.Restartable
import Daichod.Properties.Retention
import Daichod.Properties.Serialized
import Daichod.Properties.SessionStates
import Daichod.Properties.Snapshots
import Daichod.Properties.Spellings
import Daichod.Properties.SplitReport
import Daichod.Properties.StartupReport
import Daichod.Properties.StartupSums
import Daichod.Properties.Texts
import Daichod.Properties.TrialBalance
import Daichod.Properties.UriSecrecy
import Daichod.Properties.Validation
import Daichod.Properties.WireNumerics
import Daichod.Reference
import Daichod.Reference.Days
import Daichod.Reference.Traffic
import Daichod.Revision
import Daichod.Rpc.AccountService
import Daichod.Rpc.Anatomy
import Daichod.Rpc.BalanceService
import Daichod.Rpc.CommodityService
import Daichod.Rpc.Dispatch
import Daichod.Rpc.Effect
import Daichod.Rpc.Error
import Daichod.Rpc.GetPrices
import Daichod.Rpc.Handlers
import Daichod.Rpc.Mutation
import Daichod.Rpc.Planned
import Daichod.Rpc.Proto
import Daichod.Rpc.QuerySplits
import Daichod.Rpc.Ran
import Daichod.Rpc.Results
import Daichod.Rpc.SessionService
import Daichod.Rpc.TransactionService
import Daichod.Rpc.Verdicts
import Daichod.Rpc.Wire
import Daichod.Server
import Daichod.World
