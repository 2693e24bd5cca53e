import Mathlib.Algebra.Group.Int.Defs
import Mathlib.Algebra.Group.Nat.Defs
import Mathlib.Logic.Function.Basic
import Tmysql4.Imperative
import Tmysql4.System

/-! # The client library as the io thread sees it

The handlers of the io thread reach the server through the client library only.

* **Outcomes.** `Lib` has one stream of outcomes for each library function; the `k`-th call of the
  function gets the `k`-th outcome, and `World.calls` counts the calls.  Nothing relates the
  streams: a statement about every `Lib` is a statement about every combination of outcomes.
* **Error buffers.** `mysql_error` points into the buffer of the connection
  and `mysql_stmt_error` into the buffer of a statement handle.  A call that
  can fail leaves its outcome in the buffer of the connection, and a call on
  a statement handle also in the buffer of the handle; a success clears them.
* **Storage.** A `const char*` is a `Loc`: the connection's buffer, a handle's buffer (invalid
  once the handle is closed) or a C++ object with a limited life time (`World.locals`).
* **Ghost state.** `World.log` records the requests with their arguments and `World.frees` the
  buffers released; no function reads them. -/

namespace Tmysql4.Handler

/-! ### Outcomes -/

/-- An error reported by the library; its code has two bytes on the wire and is not zero. -/
structure LibError where
  errno : ℕ
  text : Bytes
  errno_pos : 0 < errno
  errno_lt : errno < 2 ^ 16
deriving DecidableEq

/-- The contents of an error buffer; the code is zero when there is no error. -/
structure Diag where
  errno : ℕ
  text : Bytes
deriving DecidableEq, Repr

def Diag.clear : Diag := ⟨0, []⟩

def LibError.diag (e : LibError) : Diag := ⟨e.errno, e.text⟩

/-- The buffer after a call with this outcome. -/
def diagOf : Option LibError → Diag
  | none => .clear
  | some e => e.diag

@[simp] theorem diagOf_none : diagOf none = .clear := rfl

@[simp] theorem diagOf_some (e : LibError) : diagOf (some e) = e.diag := rfl

@[simp] theorem Diag.clear_errno : Diag.clear.errno = 0 := rfl

@[simp] theorem LibError.diag_errno_ne (e : LibError) : e.diag.errno ≠ 0 := Nat.ne_of_gt e.errno_pos

theorem diagOf_errno_eq_zero_iff {r : Option LibError} : (diagOf r).errno = 0 ↔ r = none := by
  cases r with
  | none => simp
  | some e => simp

/-- The metadata of a column. -/
structure Field where
  name : Bytes
  type : ℕ
  maxLength : ℕ
deriving DecidableEq

abbrev Row := List (Option Bytes)

/-- A completely received result set. -/
structure ResultSet where
  fields : List Field
  rows : List Row
  fields_ne : fields ≠ []
  fields_lt : fields.length < 2 ^ 31
  width : ∀ row ∈ rows, row.length = fields.length
deriving DecidableEq

/-- `mysql_store_result`: a null pointer without an error, a result set, or a failed transfer. -/
inductive StoreReply where
  | noResult
  | stored (result : ResultSet)
  | failed (e : LibError)
deriving DecidableEq

/-- `mysql_next_result` and `mysql_stmt_next_result`. -/
inductive NextReply where
  | more
  | noMore
  | failed (e : LibError)
deriving DecidableEq

/-- The `int` that the library returns. -/
def NextReply.status : NextReply → ℤ
  | .more => 0
  | .noMore => -1
  | .failed _ => 1

def NextReply.error : NextReply → Option LibError
  | .failed e => some e
  | _ => none

/-- `mysql_stmt_fetch`: `0`, `1`, `MYSQL_DATA_TRUNCATED` or `MYSQL_NO_DATA`. -/
inductive FetchReply where
  | fetched
  | failed (e : LibError)
  | truncated
  | noData
deriving DecidableEq

/-- The error buffer after a fetch. -/
def FetchReply.diag : FetchReply → Diag
  | .failed e => e.diag
  | _ => .clear

/-- Every value of a row fits the buffer of its column. -/
def Fits (fields : List Field) (row : Row) : Prop :=
  List.Forall₂ (fun field cell => ∀ text, cell = some text → text.length ≤ field.maxLength)
    fields row

/-- A stored statement result; a row is fetched with `0` only when its values fit. -/
structure StoredResult extends ResultSet where
  fetch : ℕ → FetchReply
  fits : ∀ i (h : i < rows.length), fetch i = .fetched → Fits fields rows[i]

/-- The indeterminate contents of the memory of a new `Result`. -/
structure Storage where
  lastID : ℕ
  affected : ℕ
  columnNames : ℕ
  columnTypes : ℕ
  rows : ℕ
  nullRowValues : ℕ
deriving DecidableEq, Repr

/-- The functions whose calls are counted. -/
inductive Fn where
  | options | realConnect | setCharacterSet
  | realQuery | storeResult | nextResult | insertId | affectedRows
  | stmtInit | stmtPrepare | stmtParamCount | stmtExecute | stmtStoreResult
  | stmtResultMetadata | stmtNextResult | stmtInsertId | stmtAffectedRows
  | newResult
deriving DecidableEq, Repr

structure Lib where
  options : ℕ → Option LibError
  realConnect : ℕ → Option LibError
  setCharacterSet : ℕ → Option LibError
  realQuery : ℕ → Option LibError
  storeResult : ℕ → StoreReply
  nextResult : ℕ → NextReply
  insertId : ℕ → UInt64
  affectedRows : ℕ → UInt64
  stmtInit : ℕ → Option LibError
  stmtPrepare : ℕ → Option LibError
  stmtParamCount : ℕ → ℕ
  stmtExecute : ℕ → Option LibError
  stmtStoreResult : ℕ → Option LibError
  stmtResultMetadata : ℕ → Option StoredResult
  stmtNextResult : ℕ → NextReply
  stmtInsertId : ℕ → UInt64
  stmtAffectedRows : ℕ → UInt64
  newResult : ℕ → Storage

/-- The library whose calls all succeed, on a server that sends no rows. -/
def Lib.calm : Lib where
  options _ := none
  realConnect _ := none
  setCharacterSet _ := none
  realQuery _ := none
  storeResult _ := .noResult
  nextResult _ := .noMore
  insertId _ := 0
  affectedRows _ := 0
  stmtInit _ := none
  stmtPrepare _ := none
  stmtParamCount _ := 0
  stmtExecute _ := none
  stmtStoreResult _ := none
  stmtResultMetadata _ := none
  stmtNextResult _ := .noMore
  stmtInsertId _ := 0
  stmtAffectedRows _ := 0
  newResult _ := ⟨0, 0, 0, 0, 0, 0⟩

/-- `CR_SERVER_LOST`. -/
def LibError.serverLost : LibError := ⟨2013, [108, 111, 115, 116], by decide, by decide⟩

/-- `ER_UNKNOWN_STMT_HANDLER`. -/
def LibError.unknownStatement : LibError := ⟨1243, [117], by decide, by decide⟩

/-- `ER_NO_SUCH_TABLE`. -/
def LibError.noSuchTable : LibError := ⟨1146, [103, 111, 110, 101], by decide, by decide⟩

/-- `CR_CANT_READ_CHARSET`. -/
def LibError.cantReadCharset : LibError := ⟨2019, [99, 115], by decide, by decide⟩

/-! ### Objects -/

abbrev HandleId := ℕ

/-- Where a C string lives. -/
inductive Loc where
  | connection
  | handle (h : HandleId)
  | object (k : ℕ)
deriving DecidableEq, Repr

/-- A data member: `raw` until a constructor assigns it. -/
inductive Member (α : Type) where
  | raw (bits : ℕ)
  | set (value : α)
deriving DecidableEq, Repr

/-- A `Result`.  `cause` is ghost: what the error buffer said when `m_iError` was read. -/
structure Result where
  strError : Loc
  iError : ℕ
  iLastID : Member ℕ
  iAffected : Member ℕ
  rowCount : ℕ
  colCount : ℕ
  columnNames : Member (List Bytes)
  columnTypes : Member (List ℕ)
  rows : Member (List (List Bytes))
  nullRowValues : Member (List (List Bool))
  cause : Diag
deriving DecidableEq

/-- A `MYSQL_BIND` of a parameter; `beyond` is what lies in memory after its buffer. -/
structure Bind where
  bufferType : ℕ
  buffer : Bytes
  bufferLength : ℕ
  beyond : Bytes
deriving DecidableEq, Repr

def mysqlTypeNull : ℕ := 6
def mysqlTypeBlob : ℕ := 252
def mysqlTypeString : ℕ := 254

/-- A `MYSQL_STMT`. -/
structure StmtHandle where
  closed : Bool
  error : Diag
  query : Option Bytes
  binds : List Bind
deriving DecidableEq

structure PStatement where
  stmt : Option HandleId
  query : Bytes
  numArgs : ℕ
deriving DecidableEq

structure Credentials where
  host : Bytes
  user : Bytes
  pass : Bytes
  db : Bytes
  port : ℕ
  socket : Bytes
  clientFlags : ℕ
deriving DecidableEq

inductive Request where
  | realConnect (host user pass db : Bytes) (port : ℕ) (socket : Option Bytes) (flags : ℕ)
  | setCharacterSet (charset : Bytes)
  | realQuery (query : Bytes)
  | stmtPrepare (h : HandleId) (query : Bytes)
  | stmtExecute (h : HandleId) (binds : List Bind)
  | stmtClose (h : HandleId)
deriving DecidableEq

/-- A parameter buffer in the array form and in the scalar form, and the bind array. -/
inductive Free where
  | array (i : ℕ)
  | scalar (i : ℕ)
  | binds
deriving DecidableEq

/-- What is released, whatever the form: the buffer of a parameter, `none` being the bind array. -/
def Free.buffer : Free → Option ℕ
  | .array i => some i
  | .scalar i => some i
  | .binds => none

/-- `statementCreateWaiter`. -/
structure Waiter where
  stmt : Option StmtId
  completed : Bool
  errorNumber : ℕ
  errorMsg : Bytes
deriving DecidableEq

structure World where
  calls : Fn → ℕ
  connError : Diag
  handle : HandleId → StmtHandle
  nextHandle : ℕ
  stmt : StmtId → PStatement
  nextStmt : ℕ
  credentials : Credentials
  charSet : Bytes
  isPendingCallback : Bool
  preparedStatements : List (Bytes × StmtId)
  completedActions : List (DatabaseAction × List Result)
  waiter : Option Waiter
  locals : ℕ → Option Bytes
  nextLocal : ℕ
  frees : List Free
  log : List Request

/-- A connection just opened, with no statements. -/
def World.opened (c : Credentials) : World where
  calls _ := 0
  connError := .clear
  handle _ := ⟨true, .clear, none, []⟩
  nextHandle := 0
  stmt _ := ⟨none, [], 0⟩
  nextStmt := 0
  credentials := c
  charSet := []
  isPendingCallback := true
  preparedStatements := []
  completedActions := []
  waiter := none
  locals _ := none
  nextLocal := 0
  frees := []
  log := []

/-- What ends a handler other than a return: the module's exception,
the one that `new[]` throws for a negative length, an access through
a null handle or past a buffer, and the fuel of the model. -/
inductive Exn where
  | myException (errorNumber : ℕ) (what : Bytes)
  | badArrayNewLength
  | nullHandle
  | overread
  | outOfFuel
deriving DecidableEq, Repr

abbrev Io := EStateM Exn World

/-- The text at a location, when its storage is valid. -/
def World.deref (w : World) : Loc → Option Bytes
  | .connection => some w.connError.text
  | .handle h => if (w.handle h).closed then none else some (w.handle h).error.text
  | .object k => w.locals k

/-- `read` reads valid storage as it is, and anything elsewhere. -/
def World.Reads (w : World) (read : Loc → Bytes) : Prop :=
  ∀ loc text, w.deref loc = some text → read loc = text

/-! ### Conversions -/

/-- The `int` a count is stored in. -/
def toInt (n : ℕ) : ℤ := Int.bmod n (2 ^ 32)

/-- The `double` nearest to an unsigned 64-bit integer, ties to even. -/
def toDouble (n : UInt64) : ℕ :=
  let unit := 2 ^ (n.toNat.log2 - 52)
  let q := n.toNat / unit
  let r := n.toNat % unit
  if 2 * r < unit ∨ (2 * r = unit ∧ q % 2 = 0) then q * unit else (q + 1) * unit

/-- A byte string as a C string. -/
def cString (s : Bytes) : Bytes := s.takeWhile (· ≠ 0)

/-! ### Calls -/

def World.counted (w : World) (f : Fn) : World :=
  { w with calls := Function.update w.calls f (w.calls f + 1) }

@[simp] theorem counted_calls (w : World) (f : Fn) : (w.counted f).calls f = w.calls f + 1 :=
  Function.update_self f _ _

theorem counted_calls_ne (w : World) {f g : Fn} (h : g ≠ f) : (w.counted f).calls g = w.calls g :=
  Function.update_of_ne h _ _

/-- Counts a call and gives its number. -/
def tick (f : Fn) : Io ℕ := modifyGet fun w => (w.calls f, w.counted f)

def record (r : Request) : Io Unit :=
  modify fun w => { w with log := w.log ++ [r] }

/-- Leaves the outcome of a call on the connection in its buffer. -/
def reportConn (d : Diag) : Io Unit :=
  modify fun w => { w with connError := d }

/-- Leaves the outcome of a call on a statement handle in the buffers. -/
def reportStmt (h : HandleId) (d : Diag) : Io Unit :=
  modify fun w => { w with
    connError := d
    handle := Function.update w.handle h { w.handle h with error := d } }

theorem tick_run (f : Fn) (w : World) :
    (tick f).run w = .ok (w.calls f) (w.counted f) := rfl

theorem record_run (r : Request) (w : World) :
    (record r).run w = .ok () { w with log := w.log ++ [r] } := rfl

theorem reportStmt_run (h : HandleId) (d : Diag) (w : World) :
    (reportStmt h d).run w = .ok () { w with
      connError := d
      handle := Function.update w.handle h { w.handle h with error := d } } := rfl

def mysqlError : Io Diag := do
  let w ← get
  pure w.connError

def mysqlStmtError (h : HandleId) : Io Diag := do
  let w ← get
  pure (w.handle h).error

/-- `throw my_exception(mysql_errno(mysql), mysql_error(mysql))`. -/
def throwException {α : Type} : Io α := do
  let d ← mysqlError
  throw (.myException d.errno d.text)

theorem mysqlError_run (w : World) : mysqlError.run w = .ok w.connError w := rfl

theorem mysqlStmtError_run (h : HandleId) (w : World) :
    (mysqlStmtError h).run w = .ok (w.handle h).error w := rfl

theorem throwException_run {α : Type} (w : World) :
    (throwException : Io α).run w = .error (.myException w.connError.errno w.connError.text) w :=
    rfl

variable (lib : Lib)

def mysqlOptions : Io Bool := do
  let k ← tick .options
  reportConn (diagOf (lib.options k))
  pure (lib.options k).isSome

def mysqlRealConnect (c : Credentials) (socket : Option Bytes) (flags : ℕ) : Io Bool := do
  record (.realConnect c.host c.user c.pass c.db c.port socket flags)
  let k ← tick .realConnect
  reportConn (diagOf (lib.realConnect k))
  pure (lib.realConnect k).isSome

def mysqlSetCharacterSet (charset : Bytes) : Io Bool := do
  record (.setCharacterSet charset)
  let k ← tick .setCharacterSet
  reportConn (diagOf (lib.setCharacterSet k))
  pure (lib.setCharacterSet k).isSome

def mysqlRealQuery (query : Bytes) : Io Bool := do
  record (.realQuery query)
  let k ← tick .realQuery
  reportConn (diagOf (lib.realQuery k))
  pure (lib.realQuery k).isSome

theorem mysqlOptions_run (w : World) :
    (mysqlOptions lib).run w = .ok (lib.options (w.calls .options)).isSome { w with
      calls := Function.update w.calls .options (w.calls .options + 1)
      connError := diagOf (lib.options (w.calls .options)) } := rfl

theorem mysqlRealConnect_run (c : Credentials) (socket : Option Bytes) (flags : ℕ) (w : World) :
    (mysqlRealConnect lib c socket flags).run w =
      .ok (lib.realConnect (w.calls .realConnect)).isSome { w with
        calls := Function.update w.calls .realConnect (w.calls .realConnect + 1)
        connError := diagOf (lib.realConnect (w.calls .realConnect))
        log := w.log ++ [.realConnect c.host c.user c.pass c.db c.port socket flags] } := rfl

theorem mysqlSetCharacterSet_run (charset : Bytes) (w : World) :
    (mysqlSetCharacterSet lib charset).run w =
      .ok (lib.setCharacterSet (w.calls .setCharacterSet)).isSome { w with
        calls := Function.update w.calls .setCharacterSet (w.calls .setCharacterSet + 1)
        connError := diagOf (lib.setCharacterSet (w.calls .setCharacterSet))
        log := w.log ++ [.setCharacterSet charset] } := rfl

theorem mysqlRealQuery_run (query : Bytes) (w : World) :
    (mysqlRealQuery lib query).run w = .ok (lib.realQuery (w.calls .realQuery)).isSome { w with
      calls := Function.update w.calls .realQuery (w.calls .realQuery + 1)
      connError := diagOf (lib.realQuery (w.calls .realQuery))
      log := w.log ++ [.realQuery query] } := rfl

/-- Without a result to store the call leaves the buffer as it is. -/
def mysqlStoreResult : Io (Option ResultSet) := do
  let k ← tick .storeResult
  match lib.storeResult k with
  | .noResult => pure none
  | .stored result => do
      reportConn .clear
      pure (some result)
  | .failed e => do
      reportConn e.diag
      pure none

def mysqlNextResult : Io ℤ := do
  let k ← tick .nextResult
  reportConn (diagOf (lib.nextResult k).error)
  pure (lib.nextResult k).status

def mysqlInsertId : Io UInt64 := lib.insertId <$> tick .insertId

def mysqlAffectedRows : Io UInt64 := lib.affectedRows <$> tick .affectedRows

def mysqlStmtInit : Io (Option HandleId) := do
  let k ← tick .stmtInit
  match lib.stmtInit k with
  | some e => do
      reportConn e.diag
      pure none
  | none => modifyGet fun w => (some w.nextHandle, { w with
      handle := Function.update w.handle w.nextHandle ⟨false, .clear, none, []⟩
      nextHandle := w.nextHandle + 1 })

def mysqlStmtClose (h : HandleId) : Io Unit := do
  record (.stmtClose h)
  modify fun w => { w with handle := Function.update w.handle h { w.handle h with closed := true } }

def mysqlStmtPrepare (h : HandleId) (query : Bytes) : Io Bool := do
  record (.stmtPrepare h query)
  let k ← tick .stmtPrepare
  reportStmt h (diagOf (lib.stmtPrepare k))
  match lib.stmtPrepare k with
  | some _ => pure true
  | none => do
      modify fun w => { w with
        handle := Function.update w.handle h { w.handle h with query := some query } }
      pure false

def mysqlStmtParamCount : Io ℕ := lib.stmtParamCount <$> tick .stmtParamCount

def mysqlStmtBindParam (h : HandleId) (binds : List Bind) : Io Unit :=
  modify fun w => { w with handle := Function.update w.handle h { w.handle h with binds := binds } }

theorem mysqlStmtBindParam_run (h : HandleId) (binds : List Bind) (w : World) :
    (mysqlStmtBindParam h binds).run w = .ok () { w with
      handle := Function.update w.handle h { w.handle h with binds := binds } } := rfl

def mysqlStmtExecute (h : HandleId) : Io Bool := do
  let w ← get
  record (.stmtExecute h (w.handle h).binds)
  let k ← tick .stmtExecute
  reportStmt h (diagOf (lib.stmtExecute k))
  pure (lib.stmtExecute k).isSome

theorem mysqlStmtExecute_run (h : HandleId) (w : World) :
    (mysqlStmtExecute lib h).run w = .ok (lib.stmtExecute (w.calls .stmtExecute)).isSome { w with
      calls := Function.update w.calls .stmtExecute (w.calls .stmtExecute + 1)
      connError := diagOf (lib.stmtExecute (w.calls .stmtExecute))
      handle := Function.update w.handle h
        { w.handle h with error := diagOf (lib.stmtExecute (w.calls .stmtExecute)) }
      log := w.log ++ [.stmtExecute h (w.handle h).binds] } := rfl

def mysqlStmtStoreResult (h : HandleId) : Io Unit := do
  let k ← tick .stmtStoreResult
  reportStmt h (diagOf (lib.stmtStoreResult k))

def mysqlStmtResultMetadata : Io (Option StoredResult) :=
  lib.stmtResultMetadata <$> tick .stmtResultMetadata

/-- The fetch of row `i`. -/
def mysqlStmtFetch (h : HandleId) (result : StoredResult) (i : ℕ) : Io FetchReply := do
  reportStmt h (result.fetch i).diag
  pure (result.fetch i)

theorem mysqlStmtFetch_run (h : HandleId) (result : StoredResult) (i : ℕ) (w : World) :
    (mysqlStmtFetch h result i).run w = .ok (result.fetch i) { w with
      connError := (result.fetch i).diag
      handle := Function.update w.handle h { w.handle h with error := (result.fetch i).diag } } :=
        rfl

def mysqlStmtNextResult (h : HandleId) : Io ℤ := do
  let k ← tick .stmtNextResult
  reportStmt h (diagOf (lib.stmtNextResult k).error)
  pure (lib.stmtNextResult k).status

def mysqlStmtInsertId : Io UInt64 := lib.stmtInsertId <$> tick .stmtInsertId

def mysqlStmtAffectedRows : Io UInt64 := lib.stmtAffectedRows <$> tick .stmtAffectedRows

/-- Indeterminate memory for a new `Result`. -/
def newResult : Io Storage := lib.newResult <$> tick .newResult

end Tmysql4.Handler
