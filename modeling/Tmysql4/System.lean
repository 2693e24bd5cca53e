import Mathlib.Data.Int.Notation
import Mathlib.Logic.Function.Basic
import Tmysql4.BatchQueue

/-! # The module at run time: the Lua thread, the io threads and their objects

One state machine for everything that outlives a single call.

* **Objects.** `Database` and `PStatement` objects are numbered in the order of construction; the
  record of an object stays when the object is deleted (`live = false`), so that an access to a
  deleted object can be told apart.  `handle` is the userdata Lua holds for the object:
  `absent` before the first `PushHandle`, `null` after `SetUserType(-1, NULL)`.
* **Lua thread.** Its C++ frames form a `stack`, the innermost first; a frame is what is still to
  be done in the function it stands for.  On the frame `lua` a callback body runs under `PCall`:
  it may call any method, or return (`ret`; raising an error has the same effect here).  With an
  empty stack the script itself runs.  The label `cpp` advances the innermost C++ frame.
* **io threads.** Each started database has one; it takes posted handlers in FIFO order, runs them
  one at a time and stops when the work guard has been reset and no handler is outstanding.  The
  work of a handler is one step here (`finish`), with the outcome of a statement creation as part
  of the label; a reconnect inside a handler is a step of its own.
* **Undefined behaviour.** The C++ functions return `Except Fault State`; a fault ends the run.
* **Ghost state.** `accepted` and `started` record, for each database, the `Query` and `Run` calls
  that were accepted with a callback and the callbacks that were started; `deleted` and
  `deletedStmts` record the deletions. -/

namespace Tmysql4

abbrev Bytes := List UInt8
abbrev DbId := ℕ
abbrev StmtId := ℕ

/-- A query or statement run on its way; `callback` says
whether `m_iCallback` refers to a function. -/
structure DatabaseAction where
  id : ℕ
  callback : Bool
deriving DecidableEq, Repr

/-- A handler posted to the `io_context`. -/
inductive Task where
  | runQuery (query : DatabaseAction)
  | runStatement (stmt : StmtId) (action : DatabaseAction)
  | createStatement (query : Bytes)
deriving DecidableEq, Repr

def Task.action : Task → Option DatabaseAction
  | .runQuery query => some query
  | .runStatement _ action => some action
  | .createStatement _ => none

inductive Handle where
  | absent
  | pointer
  | null
deriving DecidableEq, Repr

structure Database where
  live : Bool
  mysqlInit : Bool
  isConnected : Bool
  isInGC : Bool
  isPendingCallback : Bool
  callback : ℤ
  handle : Handle
  preparedStatements : List (Bytes × StmtId)
  completedActions : BatchQueue DatabaseAction
  ioThread : Bool
  ioWork : Bool
  queue : List Task
  running : Option Task
  stopped : Bool
  accepted : List ℕ
  started : List ℕ
  connectStarted : ℕ

structure PStatement where
  live : Bool
  database : DbId
  query : Bytes
  handle : Handle

/-- Steps of an io thread; `finish ok` ends the running handler, with `ok` the outcome of a
statement creation, and `stop` is the context running out of work. -/
inductive IoStep where
  | take
  | reconnected
  | finish (ok : Bool)
  | stop
deriving DecidableEq, Repr

/-- What is still to be done in a C++ function of the Lua thread. -/
inductive Frame where
  /-- A Lua callback body. -/
  | lua
  /-- The loop of `DispatchCompletedActions`, at its head. -/
  | dispatch (d : DbId) (completed : List DatabaseAction)
  /-- `lua_Poll`, before `DispatchCompletedActions`. -/
  | poll (d : DbId)
  /-- `tmysql::lua_Connect`, before the final `PushHandle`. -/
  | connect (d : DbId)
  /-- `Disconnect`, waiting for `io_context.stopped()`. -/
  | wait (d : DbId)
  /-- `Disconnect`, before `Release`. -/
  | release (d : DbId)
  /-- `Disconnect`, before `DeregisterDatabase` and `delete this`. -/
  | destroy (d : DbId)
  /-- `lua_Prepare`, waiting for its task. -/
  | prepare (d : DbId) (query : Bytes)
deriving DecidableEq, Repr

inductive Fault where
  /-- A field of a deleted `Database` is accessed. -/
  | databaseGone (d : DbId)
  /-- A deleted `PStatement` is released or otherwise used on the Lua thread. -/
  | statementGone (s : StmtId)
  /-- An io handler executes a deleted `PStatement`. -/
  | taskStatementGone (s : StmtId)
  /-- `io_thread->join()` without a thread. -/
  | nullThread (d : DbId)
  /-- `m_MySQL` is used before `mysql_init`. -/
  | uninitialisedMySQL (d : DbId)
deriving DecidableEq, Repr

structure State where
  db : DbId → Database
  stmt : StmtId → PStatement
  nextDb : ℕ
  nextStmt : ℕ
  nextAction : ℕ
  databases : List DbId
  stack : List Frame
  waiter : Option (Option StmtId)
  deleted : List DbId
  deletedStmts : List StmtId
  fault : Option Fault

/-- Outcome of `Initialize`: `mysql_init` fails, `Connect` fails, or the database is connected. -/
inductive ConnectResult where
  | outOfMemory
  | refused
  | connected
deriving DecidableEq, Repr

/-- A step: a call made by Lua code, the return of a callback, a step of the innermost C++ frame, or
a step of an io thread. -/
inductive Label where
  | create (callback junk : Bool)
  | connect (callback junk : Bool) (result : ConnectResult)
  | getTable
  | dbConnect (d : DbId) (result : ConnectResult)
  | query (d : DbId) (callback : Bool)
  | prepare (d : DbId) (query : Bytes)
  | run (sid : StmtId) (callback : Bool)
  | poll (d : DbId)
  | disconnect (d : DbId)
  | dbGc (d : DbId)
  | stmtGc (sid : StmtId)
  | ret
  | cpp
  | io (d : DbId) (i : IoStep)
deriving DecidableEq, Repr

/-- The members as the constructor leaves them; `junk` is the indeterminate
`m_bIsPendingCallback`. -/
def Database.construct (callback junk : Bool) : Database where
  live := true
  mysqlInit := false
  isConnected := false
  isInGC := false
  isPendingCallback := junk
  callback := if callback then 1 else -1
  handle := .absent
  preparedStatements := []
  completedActions := {}
  ioThread := false
  ioWork := true
  queue := []
  running := none
  stopped := false
  accepted := []
  started := []
  connectStarted := 0

/-- Storage no object has been constructed in. -/
def Database.raw : Database := { Database.construct false false with live := false }

def PStatement.raw : PStatement := ⟨false, 0, [], .absent⟩

namespace State

def init : State where
  db := fun _ => Database.raw
  stmt := fun _ => PStatement.raw
  nextDb := 0
  nextStmt := 0
  nextAction := 0
  databases := []
  stack := []
  waiter := none
  deleted := []
  deletedStmts := []
  fault := none

variable (s : State) (d : DbId) (sid : StmtId)

def modify (f : Database → Database) : State := { s with db := Function.update s.db d (f (s.db d)) }

def modifyStmt (f : PStatement → PStatement) : State :=
  { s with stmt := Function.update s.stmt sid (f (s.stmt sid)) }

def call (f : Frame) : State := { s with stack := f :: s.stack }

/-- An access to a field of the database, before the rest `k` of the function. -/
def access (k : Except Fault State) : Except Fault State :=
  if (s.db d).live then k else .error (.databaseGone d)

/-- An access to a field of the statement on the Lua thread. -/
def accessStmt (k : Except Fault State) : Except Fault State :=
  if (s.stmt sid).live then k else .error (.statementGone sid)

/-! ### Handles -/

def pushHandle : State :=
  s.modify d fun db => { db with handle := if db.handle = .absent then .pointer else db.handle }

def pushStmtHandle : State :=
  s.modifyStmt sid fun p => { p with handle := if p.handle = .absent then .pointer else p.handle }

/-- `getDatabaseFromStack` and then the method's body; a call through a null handle, or on a
disconnected database where the method asks for a connected one, ends with no effect. -/
def getDatabaseFromStack (throwDisconnectedError : Bool) (body : Except Fault State) :
    Except Fault State :=
  if (s.db d).handle = .pointer then
    s.access d (if throwDisconnectedError && !(s.db d).isConnected then .ok s else body)
  else .ok s

/-- `getPStatementFromStack` and then the method's body. -/
def getPStatementFromStack (body : Except Fault State) : Except Fault State :=
  if (s.stmt sid).handle = .pointer then s.accessStmt sid body else .ok s

/-! ### Construction, connection and destruction -/

/-- `tmysql::createDatabase`. -/
def createDatabase (callback junk : Bool) : State :=
  { s with
    db := Function.update s.db s.nextDb (Database.construct callback junk)
    nextDb := s.nextDb + 1
    databases := s.nextDb :: s.databases }

/-- `Database::Initialize`. -/
def databaseInitialize (result : ConnectResult) : State :=
  s.modify d fun db =>
    match result with
    | .outOfMemory => db
    | .refused => { db with mysqlInit := true }
    | .connected =>
        { db with
          mysqlInit := true, isPendingCallback := true, ioThread := true, isConnected := true }

/-- `delete` of a `Database`; destroying its `io_context` destroys the handlers still queued. -/
def delete : State :=
  { s.modify d (fun db => { db with live := false, queue := [] }) with deleted := s.deleted ++ [d] }

/-- `PStatement::Release` of a live statement. -/
def releaseStmt : State :=
  { s.modifyStmt sid (fun p => { p with live := false, handle := .null }) with
    deletedStmts := s.deletedStmts ++ [sid] }

/-- The loop of `Database::Release` over the cached statements. -/
def releaseAll : List (Bytes × StmtId) → State → Except Fault State
  | [], s => .ok s
  | (_, sid) :: entries, s => s.accessStmt sid (releaseAll entries (s.releaseStmt sid))

/-- `Database::Release`, with `NullifyReference`. -/
def release : Except Fault State :=
  s.access d <|
    if (s.db d).ioThread = false then .error (.nullThread d)
    else
      match releaseAll (s.db d).preparedStatements
        (s.modify d fun db => { db with ioThread := false }) with
      | .error f => .error f
      | .ok s₁ =>
          if (s.db d).mysqlInit = false then .error (.uninitialisedMySQL d)
          else .ok (s₁.modify d fun db => { db with isConnected := false, handle := .null })

/-- `Database::TriggerCallback`: the connect callback, at most once. -/
def triggerCallback : State :=
  let s₁ := s.modify d fun db => { db with isPendingCallback := false }
  if 0 ≤ (s.db d).callback then
    let s₂ := s₁.modify d fun db => { db with callback := 0 }
    -- reference `0` is not a function
    if (s.db d).callback = 0 then s₂
    else
      ((s₂.pushHandle d).modify d fun db =>
        { db with connectStarted := db.connectStarted + 1 }).call .lua
  else s₁

/-! ### Methods -/

/-- `asio::post` of a handler. -/
def post (task : Task) : State := s.modify d fun db => { db with queue := db.queue ++ [task] }

/-- A `Query` or `Run` call is accepted. -/
def accept (callback : Bool) : State :=
  { s.modify d (fun db =>
      { db with accepted := if callback then db.accepted ++ [s.nextAction] else db.accepted }) with
    nextAction := s.nextAction + 1 }

/-- `Database::QueueQuery`. -/
def queueQuery (callback : Bool) : State :=
  (s.accept d callback).post d (.runQuery ⟨s.nextAction, callback⟩)

/-- `Database::QueueStatement`. -/
def queueStatement (callback : Bool) : State :=
  (s.accept d callback).post d (.runStatement sid ⟨s.nextAction, callback⟩)

def luaQuery (callback : Bool) : Except Fault State :=
  s.getDatabaseFromStack d true (.ok (s.queueQuery d callback))

/-- `PStatement::lua_Run`. -/
def luaRun (callback : Bool) : Except Fault State :=
  s.getPStatementFromStack sid <|
    s.access (s.stmt sid).database (.ok (s.queueStatement (s.stmt sid).database sid callback))

/-- `lua_Prepare`: the cached statement, or a task and the wait for it. -/
def luaPrepare (query : Bytes) : Except Fault State :=
  s.getDatabaseFromStack d true <|
    match (s.db d).preparedStatements.lookup query with
    | some sid => s.accessStmt sid (.ok (s.pushStmtHandle sid))
    | none =>
        .ok { (s.post d (.createStatement query)).call (.prepare d query) with waiter := none }

def luaPoll : Except Fault State :=
  s.getDatabaseFromStack d false <|
    let s₁ := s.call (.poll d)
    .ok (if (s.db d).isPendingCallback then s₁.triggerCallback d else s₁)

/-- `Database::Disconnect`, up to its wait loop. -/
def disconnect : State := (s.modify d fun db => { db with ioWork := false }).call (.wait d)

def luaDisconnect : Except Fault State := s.getDatabaseFromStack d true (.ok (s.disconnect d))

/-- `Database::lua___gc`. -/
def luaGc : Except Fault State :=
  s.getDatabaseFromStack d false
    (.ok ((s.modify d fun db => { db with isInGC := true }).disconnect d))

/-- `Database::DeregisterStatement`. -/
def deregisterStatement (query : Bytes) : State :=
  s.modify d fun db =>
    { db with preparedStatements := db.preparedStatements.filter fun entry => entry.1 ≠ query }

/-- `PStatement::lua___gc`. -/
def luaStmtGc : Except Fault State :=
  s.getPStatementFromStack sid <|
    s.access (s.stmt sid).database
      (.ok ((s.deregisterStatement (s.stmt sid).database (s.stmt sid).query).releaseStmt sid))

/-- `Database::lua_Connect`. -/
def luaConnect (result : ConnectResult) : Except Fault State :=
  s.getDatabaseFromStack d false <|
    if (s.db d).isConnected then .ok s
    else if result = .connected then .ok (s.databaseInitialize d result)
    else
      match (s.databaseInitialize d result).release d with
      | .error f => .error f
      | .ok s₁ => .ok (s₁.delete d)

/-- `tmysql::lua_Create`. -/
def tmysqlCreate (callback junk : Bool) : State :=
  (s.createDatabase callback junk).pushHandle s.nextDb

/-- `tmysql::lua_Connect`. -/
def tmysqlConnect (callback junk : Bool) (result : ConnectResult) : State :=
  let s₁ := (s.createDatabase callback junk).databaseInitialize s.nextDb result
  if result = .connected then
    let s₂ := s₁.call (.connect s.nextDb)
    if (s₂.db s.nextDb).isPendingCallback then s₂.triggerCallback s.nextDb else s₂
  else s₁.delete s.nextDb

/-- `tmysql::lua_GetTable`, from the database `d` of the registry on. -/
def tmysqlGetTable : List DbId → State → Except Fault State
  | [], s => .ok s
  | d :: ds, s => s.access d (tmysqlGetTable ds (s.pushHandle d))

/-! ### The innermost C++ frame -/

/-- `GetCompletedActions`, and on to the dispatch loop. -/
def popAll : State :=
  (s.modify d fun db => { db with completedActions := db.completedActions.popAll }).call
    (.dispatch d (s.db d).completedActions.pending)

/-- One round of the loop of `DispatchCompletedActions`. -/
def dispatchNext (action : DatabaseAction) (rest : List DatabaseAction) : Except Fault State :=
  let s₁ := s.call (.dispatch d rest)
  s.access d <| .ok <|
    if !(s.db d).isInGC && action.callback then
      (s₁.modify d fun db => { db with started := db.started ++ [action.id] }).call .lua
    else s₁

/-- `lua_Prepare` after its wait loop, with a new statement. -/
def cacheStatement (query : Bytes) : State :=
  (s.modify d fun db =>
    if (db.preparedStatements.lookup query).isSome then db
    else { db with preparedStatements := (query, sid) :: db.preparedStatements }).pushStmtHandle sid

/-- The innermost C++ frame makes a step from the state `s` without it; `none` while it waits for
the io thread. -/
def advance : Frame → State → Option (Except Fault State)
  | .lua, _ => none
  | .dispatch _ [], s => some (.ok s)
  | .dispatch d (action :: rest), s => some (s.dispatchNext d action rest)
  | .poll d, s => some (s.access d (.ok (s.popAll d)))
  | .connect d, s => some (s.access d (.ok (s.pushHandle d)))
  | .wait d, s =>
      if (s.db d).live && !(s.db d).stopped then none
      else some (s.access d (.ok ((s.call (.release d)).popAll d)))
  | .release d, s =>
      match s.release d with
      | .error f => some (.error f)
      | .ok s₁ => some (.ok (s₁.call (.destroy d)))
  | .destroy d, s =>
      some (s.access d (.ok ({ s with databases := s.databases.filter (· ≠ d) }.delete d)))
  | .prepare d query, s =>
      match s.waiter with
      | none => none
      | some none => some (.ok s)
      | some (some sid) => some (s.access d (.ok (s.cacheStatement d sid query)))

/-! ### The io threads -/

/-- The handler `task` may run: `RunStatement` dereferences its statement. -/
def accessTask (task : Task) (k : Except Fault State) : Except Fault State :=
  match task with
  | .runStatement sid _ => if (s.stmt sid).live then k else .error (.taskStatementGone sid)
  | _ => k

/-- The end of `RunQuery` and `RunStatement`: the action is pushed. -/
def complete (action : DatabaseAction) : State :=
  s.modify d fun db =>
    { db with completedActions := db.completedActions.push action, running := none }

/-- The end of `CreateStatement`. -/
def statementCreated (query : Bytes) (ok : Bool) : State :=
  let s₁ := s.modify d fun db => { db with running := none }
  if ok then
    { s₁ with
      stmt := Function.update s.stmt s.nextStmt ⟨true, d, query, .absent⟩
      nextStmt := s.nextStmt + 1
      waiter := some (some s.nextStmt) }
  else { s₁ with waiter := some none }

/-- The end of a handler. -/
def finish (ok : Bool) : Task → State
  | .createStatement query => s.statementCreated d query ok
  | .runQuery query => s.complete d query
  | .runStatement _ action => s.complete d action

def ioStep : IoStep → Option (Except Fault State)
  | .take =>
      if (s.db d).ioThread && !(s.db d).stopped && (s.db d).running.isNone then
        match (s.db d).queue with
        | [] => none
        | task :: queue => some (s.access d (s.accessTask task
            (.ok (s.modify d fun db => { db with queue := queue, running := some task }))))
      else none
  | .reconnected =>
      if ((s.db d).running.bind Task.action).isSome then
        some (s.access d (.ok (s.modify d fun db => { db with isPendingCallback := false })))
      else none
  | .finish ok =>
      match (s.db d).running with
      | none => none
      | some task => some (s.access d (s.accessTask task (.ok (s.finish d ok task))))
  | .stop =>
      if !(s.db d).ioWork && (s.db d).queue.isEmpty && (s.db d).running.isNone
          && !(s.db d).stopped then
        some (.ok (s.modify d fun db => { db with stopped := true }))
      else none

/-! ### Steps -/

/-- Lua code is running on the Lua thread. -/
def luaTurn : Bool :=
  match s.stack with
  | [] => true
  | .lua :: _ => true
  | _ => false

/-- A method call through a handle Lua holds. -/
def method (handle : Handle) (body : Except Fault State) : Option (Except Fault State) :=
  if handle = .absent then none else some body

/-- A call made by Lua code. -/
def luaCall : Label → Option (Except Fault State)
  | .create callback junk => some (.ok (s.tmysqlCreate callback junk))
  | .connect callback junk result => some (.ok (s.tmysqlConnect callback junk result))
  | .getTable => some (tmysqlGetTable s.databases s)
  | .dbConnect d result => method (s.db d).handle (s.luaConnect d result)
  | .query d callback => method (s.db d).handle (s.luaQuery d callback)
  | .prepare d query => method (s.db d).handle (s.luaPrepare d query)
  | .run sid callback => method (s.stmt sid).handle (s.luaRun sid callback)
  | .poll d => method (s.db d).handle (s.luaPoll d)
  | .disconnect d => method (s.db d).handle (s.luaDisconnect d)
  | .dbGc d => method (s.db d).handle (s.luaGc d)
  | .stmtGc sid => method (s.stmt sid).handle (s.luaStmtGc sid)
  | _ => none

def action : Label → Option (Except Fault State)
  | .io d i => s.ioStep d i
  | .cpp =>
      match s.stack with
      | [] => none
      | frame :: stack => advance frame { s with stack := stack }
  | .ret =>
      match s.stack with
      | .lua :: stack => some (.ok { s with stack := stack })
      | _ => none
  | l => if s.luaTurn then s.luaCall l else none

/-- A fault is recorded and ends the run. -/
def settle : Except Fault State → State
  | .ok s' => s'
  | .error f => { s with fault := some f }

def step (l : Label) : Option State :=
  if s.fault.isSome then none else (s.action l).map s.settle

end State
end Tmysql4
