import Tmysql4.Result

/-! # The handlers of the io thread

`runQuery`, `runStatement` and `createStatement` as the io thread runs them,
with what they call: `connect`, `prepare` and `execute`.  A jump back to
`retry` is a recursive call, which takes fuel as the result loops do; the
flags of the source bound the jumps, so fuel for three attempts is enough.

`step` runs one posted handler to its end, `poll` being the Lua thread taking the completed
actions and `register` the insertion that `lua_Prepare` makes once its statement exists. -/

namespace Tmysql4.Handler

open Imperative

variable (lib : Lib)

/-! ### `PStatement::Prepare` -/

def setStmt (s : StmtId) (p : PStatement) : Io Unit :=
  modify fun w => { w with stmt := Function.update w.stmt s p }

/-- `if (m_stmt != nullptr) mysql_stmt_close(m_stmt)`. -/
def closeHandle : Option HandleId → Io Unit
  | none => pure ()
  | some h => mysqlStmtClose h

/-- `PStatement::Prepare` once `m_stmt` has been assigned. -/
def prepareOn (s : StmtId) (p : PStatement) : Option HandleId → Io Unit
  | none => throwException
  | some h => do
      let failed ← mysqlStmtPrepare lib h p.query
      if failed then throwException
      else do
        let numArgs ← mysqlStmtParamCount lib
        setStmt s ⟨some h, p.query, numArgs⟩

/-- `PStatement::Prepare`. -/
def prepare (s : StmtId) : Io Unit := do
  let w ← get
  let p := w.stmt s
  closeHandle p.stmt
  let stmt ← mysqlStmtInit lib
  setStmt s ⟨stmt, p.query, p.numArgs⟩
  prepareOn lib s p stmt

/-! ### `Database::Connect` -/

/-- `Database::SetCharacterSet`; the result is the error. -/
def setCharacterSet (charset : Bytes) : Io (Option Bytes) := do
  let failed ← mysqlSetCharacterSet lib charset
  if failed then do
    let d ← mysqlError
    pure (some d.text)
  else do
    modify fun w => { w with charSet := (cString charset).take 64 }
    pure none

/-- `std::to_string`. -/
def decimal (n : ℕ) : Bytes := (Nat.toDigits 10 n).map (·.val.toUInt8)

/-- The code in brackets, a space and the text. -/
def connectError (d : Diag) : Bytes := 91 :: decimal d.errno ++ [93, 32] ++ d.text

def clientMultiResults : ℕ := 131072

/-- `||` on calls that report a failure. -/
def orElse (failed : Bool) (call : Io Bool) : Io Bool := if failed then pure true else call

/-- Sets the character set of the session again, when one was chosen. -/
def restoreCharacterSet (charset : Bytes) : Io (Option Bytes) :=
  if charset = [] then pure none else setCharacterSet lib charset

/-- Prepares every cached statement again. -/
def prepareAll : List (Bytes × StmtId) → Io Unit
  | [] => pure ()
  | entry :: entries => do
      prepare lib entry.2
      prepareAll entries

/-- The options and `mysql_real_connect`; the result says whether one of them failed. -/
def openConnection (c : Credentials) : Io Bool := do
  let failed ← mysqlOptions lib
  let failed ← orElse failed (mysqlOptions lib)
  orElse failed (mysqlRealConnect lib c (if c.socket = [] then none else some c.socket)
    (c.clientFlags ||| clientMultiResults))

/-- `Database::Connect`; the result is the error, `none` for success. -/
def connect (isReconnect : Bool) : Io (Option Bytes) := do
  let w ← get
  let failed ← openConnection lib w.credentials
  if failed then do
    let d ← mysqlError
    pure (some (connectError d))
  else do
    let error ← restoreCharacterSet lib w.charSet
    match error with
    | some error => pure (some error)
    | none => do
        prepareAll lib w.preparedStatements
        modify fun w => { w with isPendingCallback := !isReconnect }
        pure none

/-! ### Text queries -/

/-- `CR_SERVER_LOST`, `CR_SERVER_GONE_ERROR` and "server shutdown in progress". -/
def lostConnection (errno : ℕ) : Bool := errno = 2013 || errno = 2006 || errno = 1053

/-- A string object is constructed. -/
def World.enter (w : World) (text : Bytes) : World :=
  { w with
    locals := Function.update w.locals w.nextLocal (some text)
    nextLocal := w.nextLocal + 1 }

/-- It is destroyed. -/
def World.leave (w : World) (k : ℕ) : World :=
  { w with locals := Function.update w.locals k none }

/-- An object in automatic storage, gone when the scope is left. -/
def withObject {α : Type} (text : Bytes) (body : Loc → Io α) : Io α := do
  let k ← modifyGet fun w => (w.nextLocal, w.enter text)
  let a ← body (.object k)
  modify fun w => w.leave k
  pure a

theorem withObject_eq_ok_iff {α : Type} {text : Bytes} {body : Loc → Io α} {w w' : World} {a : α} :
    (withObject text body).run w = .ok a w' ↔
      ∃ w₁, (body (.object w.nextLocal)).run (w.enter text) = .ok a w₁ ∧
        w₁.leave w.nextLocal = w' := by
  rw [withObject, run_bind_ok (EStateM.run_modifyGet _ _), run_bind_eq_ok_iff]
  constructor
  · rintro ⟨b, w₁, hbody, hrest⟩
    cases hrest
    exact ⟨w₁, hbody, rfl⟩
  · rintro ⟨w₁, hbody, rfl⟩
    exact ⟨a, w₁, hbody, rfl⟩

/-- `new Result(errNo, errStr)`. -/
def newError (errNo : ℕ) (errStr : Loc) (cause : Diag) : Io Result := do
  let mem ← newResult lib
  pure (.ofError mem errNo errStr cause)

/-- `m_completedActions.push`. -/
def pushCompleted (action : DatabaseAction) (results : List Result) : Io Unit :=
  modify fun w => { w with completedActions := w.completedActions ++ [(action, results)] }

/-- The sends of `RunQuery`; the result is `errorno` and `qErr`. -/
def send (query : Bytes) : ℕ → Bool → Io Diag
  | 0, _ => throw .outOfFuel
  | fuel + 1, hasRetried => do
      let failed ← mysqlRealQuery lib query
      if failed then do
        let d ← mysqlError
        if !hasRetried && lostConnection d.errno then do
          let err ← connect lib true
          match err with
          | none => send query fuel true
          | some _ => pure d
        else pure d
      else pure .clear

/-- The body of the result loop of `RunQuery`. -/
def nextQueryResult : Io (Result × Bool) := do
  let r ← resultOfMySQL lib
  let status ← mysqlNextResult lib
  pure (r, status ≠ -1)

/-- One result for an error whose text is at `errStr`, or those of the result loop. -/
def resultsOr (d : Diag) (errStr : Loc) (loop : Io (List Result)) : Io (List Result) :=
  if d.errno ≠ 0 then List.singleton <$> newError lib d.errno errStr d else loop

/-- `Database::RunQuery`. -/
def runQuery (fuel : ℕ) (action : DatabaseAction) (query : Bytes) : Io Unit := do
  let d ← send lib query fuel false
  withObject d.text fun qErr => do
    let results ← resultsOr lib d qErr (collect .outOfFuel (nextQueryResult lib) fuel)
    pushCompleted action results

/-! ### Prepared statements -/

def Bind.strlen (b : Bind) : ℕ := (cString (b.buffer ++ b.beyond)).length

/-- A string with a null byte is sent as a blob. -/
def Bind.retag (b : Bind) : Bind :=
  if b.bufferType = mysqlTypeString ∧ b.strlen ≠ b.bufferLength then
    { b with bufferType := mysqlTypeBlob }
  else b

/-- The releases of `deleteBinds` for the binds from `i` on. -/
def freesFrom : List Bind → ℕ → List Free
  | [], _ => []
  | b :: binds, i =>
      if b.bufferType = mysqlTypeNull then freesFrom binds (i + 1)
      -- `buffer` is a `void*`: its `delete[]` is undefined, and the compiler emits the scalar form
      else if b.bufferType = mysqlTypeString then .scalar i :: freesFrom binds (i + 1)
      else .scalar i :: freesFrom binds (i + 1)

def deleteBinds (binds : List Bind) (count : ℕ) : Io Unit :=
  modify fun w => { w with frees := w.frees ++ freesFrom (binds.take count) 0 ++ [.binds] }

/-- The handle of a statement, which the library follows. -/
def stmtHandle (s : StmtId) : Io HandleId := do
  let w ← get
  match (w.stmt s).stmt with
  | none => throw .nullHandle
  | some h => pure h

/-- One execution: binds the parameters and executes. -/
def attempt (s : StmtId) (binds : List Bind) : Io Diag := do
  let h ← stmtHandle s
  mysqlStmtBindParam h binds
  let failed ← mysqlStmtExecute lib h
  if failed then mysqlStmtError h else pure .clear

/-- A reconnect when the connection was lost; without one there is no success either. -/
def reconnectIf (lost : Bool) : Io (Option Bytes) :=
  if lost then connect lib true else pure (some [])

/-- The executions of `Execute`; the result is the last `errorno`. -/
def executions (s : StmtId) (binds : List Bind) : ℕ → Bool → Bool → Io Diag
  | 0, _, _ => throw .outOfFuel
  | fuel + 1, hasRetried, hasRetriedStatement => do
      let d ← attempt lib s binds
      let err ← reconnectIf lib (!hasRetried && lostConnection d.errno)
      match err with
      | none => executions s binds fuel true hasRetriedStatement
      | some _ =>
          if !hasRetriedStatement && d.errno = 1243 then do
            prepare lib s
            executions s binds fuel (hasRetried || lostConnection d.errno) true
          else pure d

/-- The body of the result loop of `Execute`. -/
def nextStatementResult (h : HandleId) : Io (Result × Bool) := do
  mysqlStmtStoreResult lib h
  let r ← resultOfStatement lib h
  let status ← mysqlStmtNextResult lib h
  pure (r, status ≠ -1)

def retagBinds (binds : List Bind) (numArgs : ℕ) : List Bind :=
  (binds.take numArgs).map Bind.retag ++ binds.drop numArgs

/-- `PStatement::Execute` after the executions. -/
def executeResults (fuel : ℕ) (s : StmtId) (binds : List Bind) (d : Diag) : Io (List Result) := do
  let h ← stmtHandle s
  let results ← resultsOr lib d (.handle h) (collect .outOfFuel (nextStatementResult lib h) fuel)
  let w ← get
  deleteBinds binds (w.stmt s).numArgs
  pure results

/-- `PStatement::Execute`; the result is what it adds to the action. -/
def execute (fuel : ℕ) (s : StmtId) (binds : List Bind) : Io (List Result) := do
  let w ← get
  let d ← executions lib s (retagBinds binds (w.stmt s).numArgs) fuel false false
  executeResults lib fuel s (retagBinds binds (w.stmt s).numArgs) d

/-- `catch (const my_exception& e)`. -/
def catchMyException {α : Type} (x : Io α) (handler : Diag → Io α) : Io α :=
  tryCatch x fun e =>
    match e with
    | .myException errorNumber what => handler ⟨errorNumber, what⟩
    | e => throw e

theorem catchMyException_ok {α : Type} {x : Io α} {handler : Diag → Io α} {w w' : World} {a : α}
    (h : x.run w = .ok a w') : (catchMyException x handler).run w = .ok a w' := by
  rw [catchMyException, run_tryCatch, h]

theorem catchMyException_caught {α : Type} {x : Io α} {handler : Diag → Io α} {w w' : World}
    {errorNumber : ℕ} {what : Bytes} (h : x.run w = .error (.myException errorNumber what) w') :
    (catchMyException x handler).run w = (handler ⟨errorNumber, what⟩).run w' := by
  rw [catchMyException, run_tryCatch, h]

/-- What is caught comes from an exception of the module. -/
theorem catchMyException_eq_ok {α : Type} {x : Io α} {handler : Diag → Io α} {w w' : World} {a : α}
    (h : (catchMyException x handler).run w = .ok a w') :
    x.run w = .ok a w' ∨ ∃ errorNumber what w₁,
      x.run w = .error (.myException errorNumber what) w₁ ∧
      (handler ⟨errorNumber, what⟩).run w₁ = .ok a w' := by
  rw [catchMyException, run_tryCatch] at h
  cases hx : x.run w with
  | ok b w₁ =>
      rw [hx] at h
      exact Or.inl h
  | error e w₁ =>
      rw [hx] at h
      cases e with
      | myException errorNumber what => exact Or.inr ⟨errorNumber, what, w₁, rfl, h⟩
      | _ => cases h

/-- `Database::RunStatement`. -/
def runStatement (fuel : ℕ) (s : StmtId) (binds : List Bind)
    (action : DatabaseAction) : Io Unit := do
  let results ← catchMyException (execute lib fuel s binds) fun e =>
    withObject e.text fun what => List.singleton <$> newError lib e.errno what e
  pushCompleted action results

/-! ### Statement creation -/

/-- `new PStatement(m_MySQL, this, query)`; the object is gone when `Prepare` throws. -/
def newStatement (query : Bytes) : Io StmtId := do
  let s ← modifyGet fun w => (w.nextStmt, { w with
    stmt := Function.update w.stmt w.nextStmt ⟨none, query, 0⟩
    nextStmt := w.nextStmt + 1 })
  prepare lib s
  pure s

def setWaiter (f : Waiter → Waiter) : Io Unit :=
  modify fun w => { w with waiter := w.waiter.map f }

/-- `Database::CreateStatement`. -/
def createStatement (query : Bytes) : Io Unit := do
  catchMyException
    (do
      let s ← newStatement lib query
      setWaiter fun t => { t with stmt := some s })
    fun e => setWaiter fun t => { t with errorNumber := e.errno, errorMsg := e.text }
  setWaiter fun t => { t with completed := true }

/-! ### Runs of handlers -/

/-- A handler posted to the io thread. -/
inductive Task where
  | runQuery (action : DatabaseAction) (query : Bytes)
  | runStatement (stmt : StmtId) (binds : List Bind) (action : DatabaseAction)
  | createStatement (query : Bytes)
deriving DecidableEq

def Task.action : Task → Option DatabaseAction
  | .runQuery action _ => some action
  | .runStatement _ _ action => some action
  | .createStatement _ => none

def handle (fuel : ℕ) : Task → Io Unit
  | .runQuery action query => runQuery lib fuel action query
  | .runStatement s binds action => runStatement lib fuel s binds action
  | .createStatement query => createStatement lib query

/-- `std::map::emplace`: the entries are in the order of the keys, and an old entry stays. -/
def mapInsert (query : Bytes) (s : StmtId) : List (Bytes × StmtId) → List (Bytes × StmtId)
  | [] => [(query, s)]
  | entry :: entries =>
      if query < entry.1 then (query, s) :: entry :: entries
      else if query = entry.1 then entry :: entries
      else entry :: mapInsert query s entries

inductive Label where
  | task (fuel : ℕ) (task : Task)
  | register (query : Bytes) (stmt : StmtId)
  | poll
deriving DecidableEq

/-- `none` when an exception leaves the handler. -/
def step (w : World) : Label → Option World
  | .task fuel t =>
      match (handle lib fuel t).run w with
      | .ok _ w' => some w'
      | .error _ _ => none
  | .register query s =>
      some { w with preparedStatements := mapInsert query s w.preparedStatements }
  | .poll => some { w with completedActions := [] }

end Tmysql4.Handler
