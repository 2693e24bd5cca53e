import Mathlib.Data.List.Forall2
import Tmysql4.Client

/-! # Results: the three constructors and the Lua table

`Result.ofError`, `resultOfMySQL` and `resultOfStatement` are the constructors of `Result`, each
on memory with indeterminate contents.  `Result.populateLuaTable` gives the table of an entry, or
`none` when it would follow a pointer that no constructor assigned.

`rowTable` says what the table of a row that was received is to be. -/

namespace Tmysql4.Handler

open Imperative

/-! ### Construction -/

/-- The members before a constructor assigns them. -/
def Result.allocated (mem : Storage) (iError : ℕ) (strError : Loc) (cause : Diag) : Result where
  strError := strError
  iError := iError
  iLastID := .raw mem.lastID
  iAffected := .raw mem.affected
  rowCount := 0
  colCount := 0
  columnNames := .raw mem.columnNames
  columnTypes := .raw mem.columnTypes
  rows := .raw mem.rows
  nullRowValues := .raw mem.nullRowValues
  cause := cause

/-- The members that both constructors for a response initialise first. -/
def Result.started (mem : Storage) (strError : Loc) (cause : Diag) (lastID affected : UInt64) :
    Result :=
  { Result.allocated mem cause.errno strError cause with
    iLastID := .set (toDouble lastID)
    iAffected := .set (toDouble affected) }

/-- `Result(int, const char*)`. -/
def Result.ofError (mem : Storage) (errNo : ℕ) (errStr : Loc) (cause : Diag) : Result :=
  .allocated mem errNo errStr cause

/-- `Resize`, `none` when a `new[]` gets a negative length. -/
def Result.resize (r : Result) (colCount rowCount : ℤ) : Option Result :=
  if colCount < 0 then none
  else
    let r := { r with
      colCount := colCount.toNat
      columnNames := .set (List.replicate colCount.toNat [])
      columnTypes := .set (List.replicate colCount.toNat 0) }
    if rowCount = 0 then some r
    else if rowCount < 0 then none
    else some { r with
      rowCount := rowCount.toNat
      rows := .set (List.replicate rowCount.toNat (List.replicate colCount.toNat []))
      nullRowValues := .set (List.replicate rowCount.toNat (List.replicate colCount.toNat false)) }

/-- The first entries of an array are assigned; nothing
happens to an array that was never allocated. -/
def Member.assign {α : Type} (values : List α) : Member (List α) → Member (List α)
  | .raw bits => .raw bits
  | .set old => .set (values ++ old.drop values.length)

/-- The columns, and the rows that were received. -/
def Result.fill (r : Result) (fields : List Field) (rows : List Row) : Result :=
  { r with
    columnNames := r.columnNames.assign (fields.map fun field => cString field.name)
    columnTypes := r.columnTypes.assign (fields.map (·.type))
    rows := r.rows.assign (rows.map fun row => row.map (·.getD []))
    nullRowValues := r.nullRowValues.assign (rows.map fun row => row.map (·.isNone)) }

/-- The `Result` of a result set, `none` when `Resize` throws. -/
def Result.ofResultSet (r : Result) (result : ResultSet) : Option Result :=
  if toInt result.fields.length = 0 ∧ toInt result.rows.length = 0 then some r
  else
    (r.resize (toInt result.fields.length) (toInt result.rows.length)).map fun r =>
      r.fill (result.fields.take r.colCount) (result.rows.take r.rowCount)

/-- The `Result` of what `mysql_store_result` gave. -/
def Result.ofReply (r : Result) : StoreReply → Option Result
  | .stored result => r.ofResultSet result
  | _ => some r

variable (lib : Lib)

/-- `none` stands for the exception of a `new[]` with a negative length. -/
def orThrow : Option Result → Io Result
  | none => throw .badArrayNewLength
  | some r => pure r

/-- `Result(MYSQL*)`. -/
def resultOfMySQL : Io Result := do
  let mem ← newResult lib
  let cause ← mysqlError
  let pResult ← mysqlStoreResult lib
  let lastID ← mysqlInsertId lib
  let affected ← mysqlAffectedRows lib
  match pResult with
  | none => pure (.started mem .connection cause lastID affected)
  | some result =>
      orThrow ((Result.started mem .connection cause lastID affected).ofResultSet result)

/-- The buffer of a column, its `length` and its `is_null`. -/
structure OutBind where
  buffer : Bytes
  length : ℕ
  isNull : Bool
deriving DecidableEq

/-- A fetch writes at most the length of the buffer, and leaves the buffer alone for a null. -/
def OutBind.receive (b : OutBind) : Option Bytes → OutBind
  | none => { b with isNull := true }
  | some text =>
      { buffer := text.take b.buffer.length ++ b.buffer.drop text.length
        length := text.length
        isNull := false }

/-- `std::string(buffer, length)`, `none` when it reads past the buffer. -/
def OutBind.read (b : OutBind) : Option (Option Bytes) :=
  if b.isNull then some none
  else if b.length ≤ b.buffer.length then some (some (b.buffer.take b.length))
  else none

/-- The fetch loop from row `i`: the rows read and, when it broke off, what `mysql_stmt_errno` and
`mysql_stmt_error` said then. -/
def fetchRows (h : HandleId) (result : StoredResult) :
    List Row → ℕ → List OutBind → Io (List Row × Option Diag)
  | [], _, _ => pure ([], none)
  | row :: rows, i, binds => do
      let res ← mysqlStmtFetch h result i
      if res = .fetched then
        match (List.zipWith OutBind.receive binds row).mapM OutBind.read with
        | none => throw .overread
        | some cells => do
            let rest ← fetchRows h result rows (i + 1) (List.zipWith OutBind.receive binds row)
            pure (cells :: rest.1, rest.2)
      else do
        let d ← mysqlStmtError h
        pure ([], some d)

/-- What the fetch loop reads from row `i` on: the rows up to the first one that is not fetched. -/
def fetched (result : StoredResult) : List Row → ℕ → List Row × Option Diag
  | [], _ => ([], none)
  | row :: rows, i =>
      match result.fetch i with
      | .fetched => (row :: (fetched result rows (i + 1)).1, (fetched result rows (i + 1)).2)
      | reply => ([], some reply.diag)

/-- The error of a fetch that broke off. -/
def Result.failAt (r : Result) (h : HandleId) : Option Diag → Result
  | none => r
  | some d => { r with iError := d.errno, strError := .handle h, cause := d }

/-- The `Result` of a stored statement result, which is fetched from the handle `h`. -/
def resultOfStored (h : HandleId) (r : Result) (result : StoredResult) : Io Result :=
  if toInt result.fields.length = 0 ∧ toInt result.rows.length = 0 then pure r
  else
    orThrow (r.resize (toInt result.fields.length) (toInt result.rows.length)) >>= fun r => do
      let rows ← fetchRows h result (result.rows.take r.rowCount) 0
        (result.fields.map fun field => ⟨List.replicate field.maxLength 0, 0, false⟩)
      pure ((r.fill (result.fields.take r.colCount) rows.1).failAt h rows.2)

def resultOfMetadata (h : HandleId) (r : Result) : Option StoredResult → Io Result
  | none => pure r
  | some result => resultOfStored h r result

/-- `Result(PStatement*)` on the statement's handle. -/
def resultOfStatement (h : HandleId) : Io Result := do
  let mem ← newResult lib
  let cause ← mysqlStmtError h
  let lastID ← mysqlStmtInsertId lib
  let affected ← mysqlStmtAffectedRows lib
  mysqlStmtStoreResult lib h
  let pResult ← mysqlStmtResultMetadata lib
  resultOfMetadata h (.started mem (.handle h) cause lastID affected) pResult

/-! ### The Lua table of an entry -/

inductive LuaKey where
  | index (i : ℕ)
  | field (name : Bytes)
deriving DecidableEq, Repr

/-- A value in a row; `atof` of a text is left as it is. -/
inductive LuaValue where
  | nil
  | atof (text : Bytes)
  | string (text : Bytes)
deriving DecidableEq, Repr

abbrev RowTable := List (LuaKey × LuaValue)

/-- The fields of the table of an entry, `none` where the field is not set; `data` has the keys
`1, 2, …`, and a row is the list of its assignments. -/
structure ResultTable where
  status : Bool
  error : Option Bytes
  errorid : Option ℕ
  affected : Option ℤ
  lastid : Option ℤ
  data : Option (List RowTable)
deriving DecidableEq

/-- `IS_NUM(type) && type != MYSQL_TYPE_LONGLONG`. -/
def pushesNumber (type : ℕ) : Bool :=
  ((type ≤ 9 && type ≠ 7) || type = 13 || type = 246) && type ≠ 8

def Member.get? {α : Type} : Member α → Option α
  | .raw _ => none
  | .set value => some value

/-- A number member holds some number also when it was never assigned. -/
def Member.number : Member ℕ → ℕ
  | .raw bits => bits
  | .set value => value

/-- The assignment for column `c` of row `i`. -/
def Result.cell (r : Result) (useNumbers : Bool) (i c : ℕ) : Option (LuaKey × LuaValue) := do
  let isNull ← (← (← r.nullRowValues.get?)[i]?)[c]?
  let value ←
    if isNull then some LuaValue.nil
    else do
      let type ← (← r.columnTypes.get?)[c]?
      let text ← (← (← r.rows.get?)[i]?)[c]?
      some (if pushesNumber type then .atof text else .string text)
  let key ←
    if useNumbers then some (LuaKey.index (c + 1))
    else do
      let name ← (← r.columnNames.get?)[c]?
      some (.field (cString name))
  some (key, value)

/-- The rows pushed, `none` when a pointer is followed that was never assigned. -/
def Result.pushRows (r : Result) (useNumbers : Bool) : Option (List RowTable) :=
  if r.rows = .raw 0 then some []
  else (List.range r.rowCount).mapM fun i => (List.range r.colCount).mapM fun c =>
    r.cell useNumbers i c

/-- `PopulateLuaTable`, with `read` what a C string pointer is read as. -/
def Result.populateLuaTable (r : Result) (read : Loc → Bytes) (useNumbers : Bool) :
    Option ResultTable :=
  if r.iError ≠ 0 then
    some ⟨false, some (read r.strError), some r.iError, none, none, none⟩
  else do
    let affected : ℤ := if r.iAffected.number = toDouble (-1) then -1 else r.iAffected.number
    let rows ← r.pushRows useNumbers
    some ⟨true, none, none, some affected, some r.iLastID.number, some rows⟩

/-! ### What the table of a result set is to be -/

/-- The assignment for a value of a column. -/
def cellTable (useNumbers : Bool) (c : ℕ) (field : Field) (cell : Option Bytes) :
    LuaKey × LuaValue :=
  (if useNumbers then .index (c + 1) else .field (cString field.name),
    match cell with
    | none => .nil
    | some text => if pushesNumber field.type then .atof text else .string text)

/-- The table of a row. -/
def rowTable (useNumbers : Bool) (fields : List Field) (row : Row) : RowTable :=
  (fields.zip row).mapIdx fun c p => cellTable useNumbers c p.1 p.2

end Tmysql4.Handler
