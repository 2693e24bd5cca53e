import Tmysql4.Transition
import Tmysql4.Linked
import Tmysql4.BatchQueue
import Tmysql4.ActionQueue
import Tmysql4.ActionQueueRun
import Tmysql4.System
import Tmysql4.Effects
import Tmysql4.Lifecycle
import Tmysql4.Statements
import Tmysql4.Teardown
import Tmysql4.Registry
import Tmysql4.Delivery
import Tmysql4.Tasks
import Tmysql4.Client
import Tmysql4.Result
import Tmysql4.Handlers
import Tmysql4.Attempts
import Tmysql4.Executions
import Tmysql4.CStrings
import Tmysql4.Collecting
import Tmysql4.Returns
import Tmysql4.Barrier
import Tmysql4.ConnectCallback
import Tmysql4.Cache
import Tmysql4.HandleTable
import Tmysql4.Handles
import Tmysql4.Userdata
import Tmysql4.Exchanges
import Tmysql4.Session
import Tmysql4.Duplicates
import Tmysql4.Representation
import Tmysql4.Persistence
import Tmysql4.Isolation
import Tmysql4.Responses
import Tmysql4.Fetching
import Tmysql4.Exhaustion
import Tmysql4.Retries
import Tmysql4.LuaBase
import Tmysql4.Parameters
import Tmysql4.Transmission
import Tmysql4.Populate
import Tmysql4.Shapes
import Tmysql4.Callbacks
import Tmysql4.ResultTables
import Tmysql4.Options
import Tmysql4.Ledger
import Tmysql4.References
import Tmysql4.Routes
import Tmysql4.Balance
import Tmysql4.Scan
import Tmysql4.Buffers
import Tmysql4.Destructor
import Tmysql4.Operations
import Tmysql4.Credentials
import Tmysql4.SqlText
import Tmysql4.Ownership
import Tmysql4.StatementHandles
import Tmysql4.ErrorTexts
import Tmysql4.Waits
import Tmysql4.Runtime
import Tmysql4.Correspondence
import Tmysql4.Sequential
import Tmysql4.Preparations
import Tmysql4.Order
import Tmysql4.Instrumented
import Tmysql4.Timers
import Tmysql4.Occurrences
import Tmysql4.WaitFree
import Tmysql4.Handover
import Tmysql4.Progress
import Tmysql4.Numbers
