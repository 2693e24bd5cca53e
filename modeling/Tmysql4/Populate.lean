import Tmysql4.LuaBase
import Tmysql4.Shapes

/-! # Result tables on the stack of the scripting state

`populateLuaTable` is `Result::PopulateLuaTable` with the calls of the source: a row is a table
behind a temporary reference, and a cell is set by `SetTable` or `SetField`.
`populateLuaTable_run` says that it builds the table that `Result.populateLuaTable` gives and
leaves everything else as it was. -/

namespace Tmysql4.Handler

open LuaBase

/-- A number that the module makes; `atof` of a text and a measured time are left as they are. -/
inductive LuaNumber where
  | int (i : ℤ)
  | atof (text : Bytes)
  | seconds (nanoseconds : ℤ)
deriving DecidableEq

/-- The user data of a database is its pointer. -/
abbrev Lua := Machine LuaNumber ℕ (Option DbId)

abbrev LuaObject := LuaBase.Value LuaNumber ℕ (Option DbId)

abbrev LuaTable := LuaBase.Table LuaNumber ℕ (Option DbId)

/-- The bytes of a field name. -/
def key (name : String) : Bytes := name.toList.map fun c => c.toNat.toUInt8

/-! ### `Result::PopulateLuaTable` -/

def pushCell (r : Result) (i c : ℕ) (m : Lua) : Option Lua := do
  let isNull ← (← (← r.nullRowValues.get?)[i]?)[c]?
  if isNull then some m.pushNil
  else do
    let type ← (← r.columnTypes.get?)[c]?
    let text ← (← (← r.rows.get?)[i]?)[c]?
    some (if pushesNumber type then m.pushNumber (.atof text) else m.pushString text text.length)

/-- The body of the loop over the columns. -/
def populateCell (r : Result) (useNumbers : Bool) (i : ℕ) (m : Lua) (c : ℕ) : Option Lua := do
  let m ← pushCell r i c (if useNumbers then m.pushNumber (.int (c + 1)) else m)
  if useNumbers then m.setTable (-3)
  else do
    let name ← (← r.columnNames.get?)[c]?
    m.setField (-2) (cString name)

/-- The body of the loop over the rows. -/
def populateRow (r : Result) (useNumbers : Bool) (m : Lua) (i : ℕ) : Option Lua := do
  let (resultrow, m) ← m.createTable.referenceCreate
  let m := ((m.pushNumber (.int (i + 1))).referencePush resultrow).referenceFree resultrow
  let m ← (List.range r.colCount).foldlM (populateCell r useNumbers i) m
  m.setTable (-3)

/-- The rows, in the field `data`; there are none when `m_rows` is null. -/
def populateData (r : Result) (useNumbers : Bool) (m : Lua) : Option Lua :=
  if r.rows = .raw 0 then m.createTable.setField (-2) (key "data")
  else do
    let m ← (List.range r.rowCount).foldlM (populateRow r useNumbers) m.createTable
    m.setField (-2) (key "data")

/-- `Result::PopulateLuaTable`, with `read` what a C string pointer is read as. -/
def populateLuaTable (read : Loc → Bytes) (r : Result) (useNumbers : Bool)
    (m : Lua) : Option Lua := do
  let m ← (m.pushBool (r.iError = 0)).setField (-2) (key "status")
  if r.iError ≠ 0 then do
    let m ← (m.pushString (read r.strError) 0).setField (-2) (key "error")
    (m.pushNumber (.int r.iError)).setField (-2) (key "errorid")
  else do
    let affected : ℤ := if r.iAffected.number = toDouble (-1) then -1 else r.iAffected.number
    let m ← (m.pushNumber (.int affected)).setField (-2) (key "affected")
    let m ← (m.pushNumber (.int r.iLastID.number)).setField (-2) (key "lastid")
    populateData r useNumbers m

/-! ### Cells -/

def LuaKey.object : LuaKey → LuaObject
  | .index i => .number (.int i)
  | .field name => .string name

/-- The text that `PushString` takes with an explicit length. -/
def pushedText (text : Bytes) : Bytes :=
  if text.length % 2 ^ 32 = 0 then text.takeWhile (· ≠ 0) else text.take (text.length % 2 ^ 32)

def LuaValue.object : LuaValue → LuaObject
  | .nil => .nil
  | .atof text => .number (.atof text)
  | .string text => .string (pushedText text)

theorem pushedText_eq {text : Bytes} (h : text.length < 2 ^ 32) : pushedText text = text := by
  rw [pushedText, Nat.mod_eq_of_lt h]
  split
  · rename_i hzero
    rw [List.length_eq_zero_iff.mp hzero]
    rfl
  · exact List.take_length

/-- A cell is pushed as its value. -/
theorem pushCell_run {r : Result} {i c : ℕ} {v : LuaValue} (h : r.cellValue i c = some v)
    (m : Lua) : pushCell r i c m = some (m.pushValue v.object) := by
  have hpush : pushCell r i c m = (r.cellValue i c).map fun v => m.pushValue v.object := by
    unfold pushCell Result.cellValue
    simp only [Option.bind_eq_bind, Option.map_bind, Function.comp_def]
    refine Option.bind_congr fun nulls _ => Option.bind_congr fun row _ =>
      Option.bind_congr fun isNull _ => ?_
    cases isNull with
    | true => rfl
    | false =>
        simp only [Bool.false_eq_true, if_false, Option.map_bind, Function.comp_def]
        refine Option.bind_congr fun types _ => Option.bind_congr fun type _ =>
          Option.bind_congr fun rows _ =>
          Option.bind_congr fun texts _ => Option.bind_congr fun text _ => ?_
        cases hnumber : pushesNumber type <;> simp <;> rfl
  rw [hpush, h]
  rfl

/-- The loop over the columns assigns the value of the cell. -/
theorem populateCell_run {r : Result} {useNumbers : Bool} {i c t : ℕ} {k : LuaKey} {v : LuaValue}
    {m : Lua} {rest : List LuaObject} (h : r.cell useNumbers i c = some (k, v))
    (hm : m.stack = .table t :: rest) :
    populateCell r useNumbers i m c = some (m.assign t k.object v.object) := by
  obtain ⟨hk, hv⟩ := cell_eq_some_iff.mp h
  unfold populateCell
  rw [pushCell_run hv, Option.bind_eq_bind, Option.bind_some]
  cases useNumbers with
  | true =>
      cases hk
      exact Machine.pushValue_setTable hm (by simp) _
  | false =>
      simp only [Result.cellKey, Bool.false_eq_true, if_false, Option.bind_eq_bind,
        Option.bind_eq_some_iff] at hk ⊢
      obtain ⟨names, hnames, name, hname, heq⟩ := hk
      cases heq
      refine ⟨names, hnames, name, hname, ?_⟩
      exact Machine.pushValue_setField hm _ _

/-- The assignments of a row. -/
def RowTable.entries (row : RowTable) : List (LuaObject × LuaObject) :=
  row.map fun e => (e.1.object, e.2.object)

theorem populateCells_run {r : Result} {useNumbers : Bool} {i t : ℕ} {cs : List ℕ} {row : RowTable}
    {m : Lua} {rest : List LuaObject} (h : cs.mapM (r.cell useNumbers i) = some row)
    (hm : m.stack = .table t :: rest) :
    cs.foldlM (populateCell r useNumbers i) m = some (m.assignAll t row.entries) := by
  induction cs generalizing m row with
  | nil =>
      cases h
      rfl
  | cons c cs ih =>
      rw [List.mapM_cons] at h
      simp only [Option.bind_eq_bind, Option.bind_eq_some_iff, Option.pure_def,
        Option.some.injEq] at h
      obtain ⟨⟨k, v⟩, hcell, cells, hcells, rfl⟩ := h
      rw [List.foldlM_cons, populateCell_run hcell hm, Option.bind_eq_bind, Option.bind_some]
      exact ih hcells hm

/-! ### Rows -/

/-- The table with the keys `1, 2, …`. -/
def arrayTable (vs : List LuaObject) : LuaTable
  | .number (.int i) => if 0 < i then vs.getD (i.toNat - 1) .nil else .nil
  | _ => .nil

theorem arrayTable_nil : arrayTable [] = fun _ => .nil := by
  funext k
  unfold arrayTable
  split
  · split
    · rfl
    · rfl
  · rfl

theorem update_arrayTable (vs : List LuaObject) (v : LuaObject) :
    Function.update (arrayTable vs) (.number (.int (vs.length + 1))) v =
      arrayTable (vs ++ [v]) := by
  funext k
  by_cases hk : k = .number (.int (vs.length + 1))
  · subst hk
    have hidx : ((vs.length : ℤ) + 1).toNat - 1 = vs.length := by omega
    rw [Function.update_self, arrayTable, if_pos (by omega), hidx]
    simp
  · rw [Function.update_of_ne hk]
    unfold arrayTable
    split
    · rename_i i
      split
      · rename_i hpos
        have hne : i.toNat - 1 ≠ vs.length := fun heq => hk (by
          have hi : i = vs.length + 1 := by omega
          rw [hi])
        rw [List.getD_eq_getElem?_getD, List.getD_eq_getElem?_getD, List.getElem?_append]
        split
        · rfl
        · rw [List.getElem?_eq_none (by omega), List.getElem?_eq_none (by simp; omega)]
      · rfl
    · rfl

/-- The table at the top of the stack is an array. -/
structure AtArray (t : ℕ) (vs : List LuaObject) (m : Lua) : Prop where
  stack : ∃ rest, m.stack = .table t :: rest
  lt : t < m.nextTable
  table : m.tables t = arrayTable vs

/-- The array has become longer, and nothing else that was there has changed. -/
structure Appends (t : ℕ) (vs : List LuaObject) (m m' : Lua) : Prop where
  stack : m'.stack = m.stack
  keeps : Machine.Keeps [t] m m'
  table : m'.tables t = arrayTable vs

theorem Appends.atArray {t : ℕ} {vs vs' : List LuaObject} {m m' : Lua} (h : Appends t vs' m m')
    (hm : AtArray t vs m) : AtArray t vs' m' :=
  ⟨h.stack ▸ hm.stack, Nat.lt_of_lt_of_le hm.lt h.keeps.nextTable, h.table⟩

/-- A loop that appends one new table in every round, with what `P` says of it; `lo` is a table
that is not made yet. -/
theorem foldlM_appends {γ β : Type} {body : Lua → γ → Option Lua} {P : Lua → ℕ → β → Prop}
    {t lo : ℕ} (hframe : ∀ {m m' id b}, Machine.Keeps [t] m m' → P m id b → P m' id b) {xs : List γ}
    {bs : List β} (hlen : bs.length = xs.length) {vs : List LuaObject}
    (hbody : ∀ i (hi : i < xs.length) (hb : i < bs.length) m vs', vs'.length = vs.length + i →
      lo ≤ m.nextTable →
      AtArray t vs' m → ∃ m' id, body m xs[i] = some m' ∧ Appends t (vs' ++ [.table id]) m m' ∧
        P m' id bs[i])
    {m : Lua} (hlo : lo ≤ m.nextTable) (hm : AtArray t vs m) :
    ∃ m' ids, xs.foldlM body m = some m' ∧ Appends t (vs ++ ids.map .table) m m' ∧
      List.Forall₂ (P m') ids bs := by
  induction xs generalizing bs vs m with
  | nil =>
      obtain rfl := List.length_eq_zero_iff.mp hlen
      exact ⟨m, [], rfl, ⟨rfl, .refl _ m, by simpa using hm.table⟩, .nil⟩
  | cons x xs ih =>
      cases bs with
      | nil => cases hlen
      | cons b bs =>
          obtain ⟨m₁, id, hrun, happends, hid⟩ :=
            hbody 0 (Nat.succ_pos _) (Nat.succ_pos _) m vs rfl hlo hm
          have hbody' : ∀ i (hi : i < xs.length) (hb : i < bs.length) m vs',
              vs'.length = (vs ++ [LuaBase.Value.table id]).length + i → lo ≤ m.nextTable →
                AtArray t vs' m →
              ∃ m' id, body m xs[i] = some m' ∧ Appends t (vs' ++ [.table id]) m m' ∧
                P m' id bs[i] := by
            intro i hi hb m vs' hvs'
            rw [List.length_append, List.length_singleton] at hvs'
            exact hbody (i + 1) (Nat.succ_lt_succ hi) (Nat.succ_lt_succ hb) m vs' (by omega)
          obtain ⟨m', ids, hloop, happends', hids⟩ :=
            ih (Nat.succ.inj hlen) hbody' (Nat.le_trans hlo happends.keeps.nextTable)
              (happends.atArray hm)
          refine ⟨m', id :: ids, ?_, ⟨?_, ?_, ?_⟩, .cons (hframe happends'.keeps hid) hids⟩
          · rw [List.getElem_cons_zero] at hrun
            rw [List.foldlM_cons, hrun]
            exact hloop
          · rw [happends'.stack, happends.stack]
          · exact happends.keeps.trans happends'.keeps (by simp)
          · rw [happends'.table, List.append_assoc]
            rfl

/-- The table of a row. -/
def RowTable.table (row : RowTable) : LuaTable := Machine.entries (fun _ => .nil) row.entries

/-- The loop over the rows makes a new table and appends it. -/
theorem populateRow_run {r : Result} {useNumbers : Bool} {i d : ℕ} {row : RowTable} {m : Lua}
    {vs : List LuaObject} (h : (List.range r.colCount).mapM (r.cell useNumbers i) = some row)
    (hi : vs.length = i) (hm : AtArray d vs m) :
    ∃ m', populateRow r useNumbers m i = some m' ∧ Appends d (vs ++ [.table m.nextTable]) m m' ∧
      m'.Holds m.nextTable row.table := by
  obtain ⟨⟨rest, hstack⟩, hd, htable⟩ := hm
  have hcreate : m.createTable.referenceCreate =
      some ((m.nextRef : ℤ) + 1, m.newTable.refer (.table m.nextTable)) :=
    Machine.referenceCreate_pushValue (by simp)
  have hpush := Machine.pushes_refer m.newTable (.table m.nextTable) (.number (.int (i + 1)))
  generalize hm₂ : (((m.newTable.refer (.table m.nextTable)).pushValue
    (.number (.int (i + 1)))).referencePush
    (m.newTable.nextRef + 1)).referenceFree (m.newTable.nextRef + 1) = m₂ at hpush
  have hcells := populateCells_run h hpush.stack
  have hne : d ≠ m.nextTable := Nat.ne_of_lt hd
  have hd₂ : m₂.tables d = m.tables d := by
    rw [hpush.tables]
    exact Function.update_of_ne hne _ _
  have hn₂ : m₂.tables m.nextTable = fun _ => .nil := by
    rw [hpush.tables]
    exact Function.update_self _ _ _
  have hstack₃ : (m₂.assignAll m.nextTable row.entries).stack =
      .table m.nextTable :: .number (.int (i + 1)) :: .table d :: rest := by
    rw [Machine.assignAll_eq]
    exact hpush.stack.trans (congrArg _ hstack)
  have hpushed : Machine.Keeps [] m m₂ := (Machine.Keeps.newTable m).trans hpush.keeps (by simp)
  have hkeeps : Machine.Keeps [] m (m₂.assignAll m.nextTable row.entries) :=
    hpushed.trans_new (.assignAll m₂ m.nextTable row.entries) (Nat.le_refl _)
  refine ⟨{ (m₂.assignAll m.nextTable row.entries).assign d (.number (.int (i + 1)))
    (.table m.nextTable) with stack := .table d :: rest }, ?_,
      ⟨hstack.symm, (hkeeps.trans (.assign _ d _ _) (by simp)).withStack _, ?_⟩, ?_, ?_⟩
  · unfold populateRow
    rw [hcreate]
    simp only [Option.bind_eq_bind, Option.bind_some]
    have hm₂' : (((m.newTable.refer (.table m.nextTable)).pushNumber (.int (i + 1))).referencePush
      (m.nextRef + 1)).referenceFree (m.nextRef + 1) = m₂ := hm₂
    rw [hm₂', hcells, Option.bind_some]
    exact Machine.setTable_eq hstack₃ (by simp)
  · have hd₃ := hkeeps.tables d hd (by simp)
    rw [← update_arrayTable, hi, ← htable, ← hd₃]
    exact Function.update_self _ _ _
  · have hnext : m₂.nextTable = m.nextTable + 1 := hpush.nextTable
    have hle := (Machine.Keeps.assignAll m₂ m.nextTable row.entries).nextTable
    rw [hnext] at hle
    exact hle
  · have hn₃ : (m₂.assignAll m.nextTable row.entries).tables m.nextTable = row.table := by
      rw [Machine.assignAll_eq, RowTable.table, ← hn₂]
      exact Function.update_self _ _ _
    exact (Function.update_of_ne hne.symm _ _).trans hn₃

/-- The rows of a result in a new array at the top of the stack; `lo` is below all their tables. -/
theorem populateRows_run {r : Result} {useNumbers : Bool} {d lo : ℕ} {rows : List RowTable}
    {m : Lua} (h : (List.range r.rowCount).mapM
      (fun i => (List.range r.colCount).mapM (r.cell useNumbers i)) = some rows)
    (hd : d < lo) (hlo : lo ≤ m.nextTable) (hm : AtArray d [] m) :
    ∃ m' ids, (List.range r.rowCount).foldlM (populateRow r useNumbers) m = some m' ∧
      Appends d (ids.map .table) m m' ∧
        List.Forall₂ (fun id row => lo ≤ id ∧ m'.Holds id (RowTable.table row)) ids rows := by
  refine foldlM_appends (fun hkeeps hrow => ?_) (length_of_mapM h)
    (fun i hi hb m vs hvs hlo hm => ?_) hlo hm
  · exact ⟨hrow.1, hkeeps.holds hrow.2 (by rw [List.mem_singleton]; omega)⟩
  · have hrow := getElem_of_mapM h hi hb
    rw [List.getElem_range] at hrow ⊢
    rw [List.length_nil, Nat.zero_add] at hvs
    obtain ⟨m', hrun, happends, hholds⟩ := populateRow_run hrow hvs hm
    exact ⟨m', _, hrun, happends, hlo, hholds⟩

/-! ### Entries -/

/-- The array `d` has the rows; it and they are at `lo` or above. -/
def DataIn (heap : LuaBase.Heap LuaNumber ℕ (Option DbId)) (lo d : ℕ)
    (rows : List RowTable) : Prop :=
  lo ≤ d ∧ ∃ ids : List ℕ, heap.Holds d (arrayTable (ids.map .table)) ∧
    List.Forall₂ (fun id row => lo ≤ id ∧ heap.Holds id (RowTable.table row)) ids rows

theorem DataIn.mono {heap : LuaBase.Heap LuaNumber ℕ (Option DbId)} {lo lo' d : ℕ}
    {rows : List RowTable} (h : DataIn heap lo d rows) (hle : lo' ≤ lo) :
    DataIn heap lo' d rows := by
  obtain ⟨hd, ids, hids, hrows⟩ := h
  exact ⟨Nat.le_trans hle hd, ids, hids, hrows.imp fun id row hrow =>
    ⟨Nat.le_trans hle hrow.1, hrow.2⟩⟩

theorem DataIn.keeps {lo d t : ℕ} {rows : List RowTable} {m m' : Lua}
    (h : DataIn m.toHeap lo d rows) (hkeeps : Machine.Keeps [t] m m') (ht : t < lo) :
    DataIn m'.toHeap lo d rows := by
  obtain ⟨hd, ids, hids, hrows⟩ := h
  refine ⟨hd, ids, hkeeps.holds hids (by rw [List.mem_singleton]; omega),
    hrows.imp fun id row hrow => ?_⟩
  exact ⟨hrow.1, hkeeps.holds hrow.2 (by rw [List.mem_singleton]; omega)⟩

/-- The field `data` is set to a new array of the rows. -/
theorem populateData_run {r : Result} {useNumbers : Bool} {rows : List RowTable} {e : ℕ} {m : Lua}
    {rest : List LuaObject} (h : r.pushRows useNumbers = some rows)
    (hm : m.stack = .table e :: rest) (he : e < m.nextTable) :
    ∃ m', populateData r useNumbers m = some m' ∧ m'.stack = m.stack ∧ Machine.Keeps [e] m m' ∧
      m'.tables e = Function.update (m.tables e) (.string (key "data")) (.table m.nextTable) ∧
      DataIn m'.toHeap m.nextTable m.nextTable rows := by
  have hnew : Machine.Keeps [] m m.createTable := .createTable m
  have hempty : m.createTable.tables m.nextTable = arrayTable [] :=
    (Function.update_self _ _ _).trans arrayTable_nil.symm
  have hloop : ∃ m₁ ids, (if r.rows = .raw 0 then some m.createTable
      else (List.range r.rowCount).foldlM (populateRow r useNumbers) m.createTable) = some m₁ ∧
      Appends m.nextTable (ids.map .table) m.createTable m₁ ∧
      List.Forall₂ (fun id row => m.nextTable + 1 ≤ id ∧ m₁.Holds id (RowTable.table row)) ids
        rows := by
    rw [Result.pushRows] at h
    split at h
    · cases h
      rename_i hraw
      rw [if_pos hraw]
      exact ⟨_, [], rfl, ⟨rfl, .refl _ _, hempty⟩, .nil⟩
    · rename_i hraw
      rw [if_neg hraw]
      exact populateRows_run h (Nat.lt_succ_self _) (Nat.le_refl _)
        ⟨⟨_, rfl⟩, Nat.lt_succ_self _, hempty⟩
  obtain ⟨m₁, ids, hrun, happends, hrows⟩ := hloop
  have hstack : m₁.stack = .table m.nextTable :: .table e :: rest :=
    happends.stack.trans (congrArg _ hm)
  have hassign : Machine.Keeps [e] m₁ { m₁.assign e (.string (key "data")) (.table m.nextTable) with
    stack := .table e :: rest } := (Machine.Keeps.assign m₁ e _ _).withStack _
  have hkept : Machine.Keeps [] m m₁ := hnew.trans_new happends.keeps (Nat.le_refl _)
  refine ⟨_, ?_, hm.symm, hkept.trans hassign (by simp), ?_, ?_⟩
  · unfold populateData
    split at hrun
    · rename_i hraw
      cases hrun
      rw [if_pos hraw]
      exact Machine.setField_eq hstack _
    · rename_i hraw
      rw [if_neg hraw, hrun]
      exact Machine.setField_eq hstack _
  · rw [← hkept.tables e he (List.not_mem_nil)]
    exact Function.update_self _ _ _
  · have hne : e ≠ m.nextTable := Nat.ne_of_lt he
    refine ⟨Nat.le_refl _, ids, ⟨?_, ?_⟩, hrows.imp fun id row hrow => ⟨by omega, ?_⟩⟩
    · exact Nat.lt_of_lt_of_le (Nat.lt_succ_self _) happends.keeps.nextTable
    · exact (Function.update_of_ne hne.symm _ _).trans happends.table
    · exact hassign.holds hrow.2 (by rw [List.mem_singleton]; omega)

/-- The fields of an entry, with the value of `data`. -/
def ResultTable.fields (rt : ResultTable) (data : LuaObject) : List (LuaObject × LuaObject) :=
  (.string (key "status"), .bool rt.status) ::
    (rt.error.map fun text =>
      (LuaBase.Value.string (key "error"), LuaBase.Value.string (cString text))).toList ++
    (rt.errorid.map fun n =>
      (LuaBase.Value.string (key "errorid"), LuaBase.Value.number (.int n))).toList ++
    (rt.affected.map fun n =>
      (LuaBase.Value.string (key "affected"), LuaBase.Value.number (.int n))).toList ++
    (rt.lastid.map fun n =>
      (LuaBase.Value.string (key "lastid"), LuaBase.Value.number (.int n))).toList ++
    (rt.data.map fun _ => (LuaBase.Value.string (key "data"), data)).toList

/-- **The stack machine builds the table of the result**, and changes nothing else. -/
theorem populateLuaTable_run {read : Loc → Bytes} {r : Result} {useNumbers : Bool}
    {rt : ResultTable} {e : ℕ} {m : Lua} {rest : List LuaObject}
    (h : r.populateLuaTable read useNumbers = some rt) (hm : m.stack = .table e :: rest)
    (he : e < m.nextTable) :
    ∃ m' data, populateLuaTable read r useNumbers m = some m' ∧ m'.stack = m.stack ∧
      Machine.Keeps [e] m m' ∧ m'.tables e = Machine.entries (m.tables e) (rt.fields data) ∧
      ∀ rows, rt.data = some rows → ∃ d, data = .table d ∧ DataIn m'.toHeap m.nextTable d rows := by
  have hset := fun es v name => Machine.assignAll_setField hm es v (key name)
  have hfirst : ∀ v name, (m.pushValue v).setField (-2) (key name) =
      some (m.assignAll e [(.string (key name), v)]) :=
    fun v name => hset [] v name
  unfold Result.populateLuaTable at h
  unfold populateLuaTable Machine.pushBool Machine.pushNumber Machine.pushString
  simp only [hfirst, hset, Option.bind_eq_bind, Option.bind_some]
  by_cases hok : r.iError = 0
  · rw [if_neg (not_not.mpr hok)] at h ⊢
    obtain ⟨rows, hrows, heq⟩ := Option.bind_eq_some_iff.mp h
    cases heq
    obtain ⟨m', hrun, hstack, hkeeps, htable, hdata⟩ :=
      populateData_run hrows ((Machine.assignAll_stack m e _).trans hm)
        (Machine.assignAll_nextTable m e _ ▸ he)
    rw [Machine.assignAll_nextTable] at htable hdata
    refine ⟨m', .table m.nextTable, hrun, hstack.trans (Machine.assignAll_stack m e _),
      (Machine.Keeps.assignAll m e _).trans hkeeps (by simp), ?_, fun rows' heq => ?_⟩
    · rw [htable, Machine.assignAll_tables, decide_eq_true hok]
      rfl
    · cases heq
      exact ⟨_, rfl, hdata⟩
  · rw [if_pos hok] at h ⊢
    cases h
    refine ⟨_, .nil, rfl, Machine.assignAll_stack _ _ _, .assignAll _ _ _, ?_,
      fun rows hrows => by cases hrows⟩
    rw [Machine.assignAll_tables, decide_eq_false hok]
    rfl

end Tmysql4.Handler
