import Tmysql4.Callbacks

/-! # What the tables of the results are

`rowTableOf` says what the table of a row is to be, entry by entry: by position, or by the last
column with a name. `results_built` is the result: a callback gets the array of the results in
their order, each with the array of its rows, and no table has any other entry. -/

namespace Tmysql4.Handler

open LuaBase

variable {r : Result} {useNumbers : Bool} {i c n : ℕ}

/-! ### Rows -/

/-- A value as it is meant: the text of a string is not cut. -/
def LuaValue.exact : LuaValue → LuaObject
  | .nil => .nil
  | .atof text => .number (.atof text)
  | .string text => .string text

/-- The value of a column of a row. -/
def Result.object (r : Result) (i c : ℕ) : LuaObject := ((r.cellValue i c).getD .nil).exact

def Result.columnName (r : Result) (c : ℕ) : Option Bytes := do (← r.columnNames.get?)[c]?

/-- The last of the first `n` columns that has the name. -/
def Result.lastColumn (r : Result) (name : Bytes) : ℕ → Option ℕ
  | 0 => none
  | n + 1 => if r.columnName n = some name then some n else r.lastColumn name n

/-- The table of the first `n` columns of a row. -/
def rowTableOf (r : Result) (useNumbers : Bool) (i n : ℕ) : LuaTable
  | .number (.int k) => if useNumbers = true ∧ 0 < k ∧ k ≤ n then r.object i (k.toNat - 1) else .nil
  | .string name =>
      if useNumbers then .nil
      else
        match r.lastColumn name n with
        | none => .nil
        | some c => r.object i c
  | _ => .nil

/-- A string has at most `2 ^ 32 - 1` bytes, as many as the longest type of the server. -/
def Result.Short (r : Result) : Prop := ∀ i c text, r.cellValue i c = some (.string text) →
  text.length < 2 ^ 32

/-- The values of the server are short enough. -/
theorem Filled.short {result : ResultSet} (h : Filled result r)
    (hshort : ∀ row ∈ result.rows, ∀ text, some text ∈ row → text.length < 2 ^ 32) : r.Short := by
  intro i c text hvalue
  unfold Result.cellValue at hvalue
  simp only [h.nullRowValues, h.columnTypes, h.rows, Member.get?, Option.bind_eq_bind,
    Option.bind_some, Option.bind_eq_some_iff] at hvalue
  obtain ⟨nulls, -, isNull, -, hvalue⟩ := hvalue
  cases isNull with
  | true => cases hvalue
  | false =>
      simp only [Bool.false_eq_true, if_false, Option.bind_eq_some_iff] at hvalue
      obtain ⟨type, -, texts, htexts, cell, hcell, heq⟩ := hvalue
      split at heq
      · cases heq
      · cases heq
        obtain ⟨row, hrow, rfl⟩ := List.mem_map.mp (List.mem_of_getElem? htexts)
        obtain ⟨value, hvalue, rfl⟩ := List.mem_map.mp (List.mem_of_getElem? hcell)
        cases value with
        | none => exact Nat.two_pow_pos 32
        | some text => exact hshort row hrow text hvalue

theorem object_of_cellValue (hshort : r.Short) {v : LuaValue} (h : r.cellValue i c = some v) :
    v.object = r.object i c := by
  rw [Result.object, h]
  cases v with
  | nil => rfl
  | atof text => rfl
  | string text => exact congrArg LuaBase.Value.string (pushedText_eq (hshort i c text h))

theorem columnName_of_cellKey {k : LuaKey} (hread : r.Readable) (hpos : 0 < r.rowCount)
    (hc : c < r.colCount) (h : r.cellKey false c = some k) :
    ∃ name, r.columnName c = some name ∧ k = .field name := by
  obtain ⟨names, name, hnames, hname, hnul⟩ := hread.name c hpos hc
  refine ⟨name, by simp [Result.columnName, hnames, Member.get?, hname], ?_⟩
  simp only [Result.cellKey, hnames, Member.get?, Option.bind_eq_bind, Option.bind_some, hname,
    hnul] at h
  cases h
  rfl

/-- One column more by position. -/
theorem rowTableOf_succ_number (r : Result) (i n : ℕ) :
    Function.update (rowTableOf r true i n) (.number (.int (n + 1))) (r.object i n) =
      rowTableOf r true i (n + 1) := by
  funext x
  by_cases hx : x = .number (.int (n + 1))
  · subst hx
    have hidx : ((n : ℤ) + 1).toNat - 1 = n := by omega
    have hle : true = true ∧ 0 < (n : ℤ) + 1 ∧ (n : ℤ) + 1 ≤ ↑(n + 1) := ⟨rfl, by omega, by omega⟩
    rw [Function.update_self, rowTableOf, if_pos hle, hidx]
  · rw [Function.update_of_ne hx]
    unfold rowTableOf
    split
    · rename_i k
      have hne : k ≠ n + 1 := fun heq => hx (by rw [heq])
      refine if_congr ?_ rfl rfl
      constructor
      · rintro ⟨-, hpos, hle⟩
        exact ⟨rfl, hpos, by omega⟩
      · rintro ⟨-, hpos, hle⟩
        exact ⟨rfl, hpos, by omega⟩
    · rfl
    · rfl

/-- One column more by name. -/
theorem rowTableOf_succ_string {name : Bytes} (hname : r.columnName n = some name) (i : ℕ) :
    Function.update (rowTableOf r false i n) (.string name) (r.object i n) =
      rowTableOf r false i (n + 1) := by
  funext x
  by_cases hx : x = .string name
  · subst hx
    have hlast : r.lastColumn name (n + 1) = some n := if_pos hname
    simp only [Function.update_self, rowTableOf, hlast, Bool.false_eq_true, if_false]
  · rw [Function.update_of_ne hx]
    unfold rowTableOf
    split
    · rw [if_neg (by simp), if_neg (by simp)]
    · rename_i name'
      have hne : ¬r.columnName n = some name' := fun heq => hx (by
        rw [hname] at heq
        cases heq
        rfl)
      have hlast : r.lastColumn name' (n + 1) = r.lastColumn name' n := if_neg hne
      rw [hlast]
    · rfl

theorem rowTableOf_succ (hread : r.Readable) (hpos : 0 < r.rowCount) (hn : n < r.colCount)
    {k : LuaKey} (hk : r.cellKey useNumbers n = some k) :
    Function.update (rowTableOf r useNumbers i n) k.object (r.object i n) =
      rowTableOf r useNumbers i (n + 1) := by
  cases useNumbers with
  | true =>
      cases hk
      exact rowTableOf_succ_number r i n
  | false =>
      obtain ⟨name, hname, rfl⟩ := columnName_of_cellKey hread hpos hn hk
      exact rowTableOf_succ_string hname i

theorem rowTableOf_zero (r : Result) (useNumbers : Bool) (i : ℕ) :
    rowTableOf r useNumbers i 0 = fun _ => .nil := by
  funext x
  unfold rowTableOf
  split
  · exact if_neg (by omega)
  · split
    · rfl
    · rfl
  · rfl

/-- The loop over the columns builds the table of the row. -/
theorem table_eq_rowTableOf (hread : r.Readable) (hshort : r.Short) (hpos : 0 < r.rowCount)
    (hn : n ≤ r.colCount) {row : RowTable}
    (h : (List.range n).mapM (r.cell useNumbers i) = some row) :
    row.table = rowTableOf r useNumbers i n := by
  induction n generalizing row with
  | zero =>
      cases h
      exact (rowTableOf_zero r useNumbers i).symm
  | succ n ih =>
      rw [List.range_succ, List.mapM_append] at h
      simp only [List.mapM_cons, List.mapM_nil, Option.bind_eq_bind, Option.bind_eq_some_iff,
        Option.pure_def, Option.some.injEq] at h
      obtain ⟨cells, hcells, last, ⟨⟨k, v⟩, hcell, rest, rfl, rfl⟩, rfl⟩ := h
      obtain ⟨hk, hv⟩ := cell_eq_some_iff.mp hcell
      have htable : RowTable.table (cells ++ [(k, v)]) =
          Function.update (RowTable.table cells) k.object v.object := by
        simp [RowTable.table, RowTable.entries, Machine.entries]
      rw [htable, ih (by omega) hcells, object_of_cellValue hshort hv]
      exact rowTableOf_succ hread hpos (by omega) hk

/-! ### Entries -/

def Result.affected (r : Result) : ℤ := if r.iAffected.number = toDouble (-1) then -1
  else r.iAffected.number

/-- The table of an entry whose rows are in the table `d`. -/
def entryTable (r : Result) (elapsed : ℤ) (d : ℕ) : LuaTable :=
  Machine.entries (fun _ => .nil) [(.string (key "status"), .bool true),
    (.string (key "affected"), .number (.int r.affected)),
    (.string (key "lastid"), .number (.int r.iLastID.number)),
    (.string (key "data"), .table d), (.string (key "time"), .number (.seconds elapsed))]

/-- The entry of a result and its rows have been built exactly. -/
def BuiltAt (heap : LuaBase.Heap LuaNumber ℕ (Option DbId)) (elapsed : ℤ) (useNumbers : Bool)
    (e : ℕ) (r : Result) :
    Prop :=
  ∃ (d : ℕ) (ids : List ℕ), heap.Holds e (entryTable r elapsed d) ∧
    heap.Holds d (arrayTable (ids.map .table)) ∧
    ids.length = r.rowCount ∧ ∀ i (hi : i < ids.length),
      heap.Holds ids[i] (rowTableOf r useNumbers i r.colCount)

/-- The rows that are pushed are as many as the result has, each with its table. -/
theorem pushRows_exact (hread : r.Readable) (hshort : r.Short) {rows : List RowTable}
    (h : r.pushRows useNumbers = some rows) :
    rows.length = r.rowCount ∧ ∀ i (hi : i < rows.length),
      rows[i].table = rowTableOf r useNumbers i r.colCount := by
  rw [Result.pushRows] at h
  split at h
  · rename_i hraw
    cases h
    have hzero : r.rowCount = 0 := by
      by_contra hne
      exact hread.rows (Nat.pos_of_ne_zero hne) hraw
    exact ⟨hzero.symm, fun i hi => absurd hi (Nat.not_lt_zero i)⟩
  · have hlen : rows.length = r.rowCount := by
      rw [length_of_mapM h, List.length_range]
    refine ⟨hlen, fun i hi => ?_⟩
    have hrow := getElem_of_mapM h (by rwa [List.length_range, ← hlen]) hi
    rw [List.getElem_range] at hrow
    exact table_eq_rowTableOf hread hshort (by omega) (Nat.le_refl _) hrow

theorem builtAt {heap : LuaBase.Heap LuaNumber ℕ (Option DbId)} {elapsed : ℤ} {lo e : ℕ}
    {rt : ResultTable} {read : Loc → Bytes} (hread : r.Readable) (hshort : r.Short)
    (hok : r.iError = 0) (h : r.populateLuaTable read useNumbers = some rt)
    (hentry : EntryIn heap elapsed lo e rt) :
    BuiltAt heap elapsed useNumbers e r := by
  rw [Result.populateLuaTable, if_neg (not_not.mpr hok)] at h
  obtain ⟨rows, hrows, heq⟩ := Option.bind_eq_some_iff.mp h
  cases heq
  obtain ⟨-, data, hholds, hdata⟩ := hentry
  obtain ⟨d, rfl, -, ids, hids, hforall⟩ := hdata rows rfl
  obtain ⟨hlen, htables⟩ := pushRows_exact hread hshort hrows
  refine ⟨d, ids, hholds, hids, hforall.length_eq.trans hlen, fun i hi => ?_⟩
  have hrow : i < rows.length := hforall.length_eq ▸ hi
  rw [← htables i hrow]
  exact (List.forall₂_iff_get.mp hforall).2 i hi hrow |>.2

/-- The entries of all results. -/
theorem forall₂_builtAt {heap : LuaBase.Heap LuaNumber ℕ (Option DbId)} {elapsed : ℤ} {lo : ℕ}
    {es : List ℕ} {rs : List Result} {rts : List ResultTable} {read : Loc → Bytes}
    (hread : ∀ r ∈ rs, r.Readable) (hshort : ∀ r ∈ rs, r.Short) (hok : ∀ r ∈ rs, r.iError = 0)
    (h : rs.mapM (fun r => r.populateLuaTable read useNumbers) = some rts)
    (hentries : List.Forall₂ (EntryIn heap elapsed lo) es rts) :
    List.Forall₂ (BuiltAt heap elapsed useNumbers) es rs := by
  have hlen := length_of_mapM h
  rw [List.forall₂_iff_get] at hentries ⊢
  refine ⟨hentries.1.trans hlen, fun i hi hr => ?_⟩
  have hmem := List.getElem_mem hr
  have hrt : i < rts.length := hlen ▸ hr
  exact builtAt (hread _ hmem) (hshort _ hmem) (hok _ hmem) (getElem_of_mapM h hr hrt)
    (hentries.2 i hi hrt)

/-! ### Both modes -/

/-- Of columns with distinct names each is the last with its name. -/
theorem lastColumn_eq {name : Bytes} (hc : c < n) (hname : r.columnName c = some name)
    (hdistinct : ∀ c', c' < n → r.columnName c' = some name → c' = c) :
    r.lastColumn name n = some c := by
  induction n with
  | zero => exact absurd hc (Nat.not_lt_zero c)
  | succ n ih =>
      unfold Result.lastColumn
      split
      · rename_i hlast
        rw [hdistinct n (Nat.lt_succ_self n) hlast]
      · rename_i hlast
        have hne : c ≠ n := fun heq => hlast (heq ▸ hname)
        exact ih (by omega) fun c' hc' => hdistinct c' (Nat.lt_succ_of_lt hc')

theorem rowTableOf_modes {name : Bytes} (i : ℕ) (hc : c < r.colCount)
    (hname : r.columnName c = some name)
    (hdistinct : ∀ c', c' < r.colCount → r.columnName c' = some name → c' = c) :
    rowTableOf r false i r.colCount (.string name) =
      rowTableOf r true i r.colCount (.number (.int (c + 1))) := by
  have hidx : ((c : ℤ) + 1).toNat - 1 = c := by omega
  have hle : true = true ∧ 0 < (c : ℤ) + 1 ∧ (c : ℤ) + 1 ≤ r.colCount := ⟨rfl, by omega, by omega⟩
  have hlast := lastColumn_eq hc hname hdistinct
  have hnumber : rowTableOf r true i r.colCount (.number (.int (c + 1))) = r.object i c := by
    rw [rowTableOf, if_pos hle, hidx]
  rw [hnumber]
  simp only [rowTableOf, hlast, Bool.false_eq_true, if_false]

/-! ### What the server sent -/

/-- The value of a text of a column of this type. -/
def cellObject (type : ℕ) : Option Bytes → LuaObject
  | none => .nil
  | some text => if pushesNumber type then .number (.atof text) else .string text

/-- The values are those of the result set, in its order. -/
theorem Filled.object {result : ResultSet} (h : Filled result r) (hi : i < result.rows.length)
    (hc : c < result.fields.length) (hrow : c < result.rows[i].length) :
    r.object i c = cellObject result.fields[c].type result.rows[i][c] := by
  cases hcell : result.rows[i][c] with
  | none =>
      simp [Result.object, Result.cellValue, h.nullRowValues, Member.get?, hi, hrow, hcell,
        cellObject, LuaValue.exact]
  | some text =>
      simp only [Result.object, Result.cellValue, h.columnTypes, h.rows, h.nullRowValues,
        Member.get?]
      cases hnumber : pushesNumber result.fields[c].type <;>
        simp [hi, hc, hrow, hcell, hnumber, cellObject, LuaValue.exact]

/-- The rows of a result are those of the result set. -/
def RowsOf (result : ResultSet) (r : Result) : Prop :=
  r.rowCount = result.rows.length ∧
    ∀ i (hi : i < result.rows.length) c (hc : c < result.fields.length)
    (hrow : c < result.rows[i].length), r.object i c =
    cellObject result.fields[c].type result.rows[i][c] ∧
      r.columnName c = some (cString result.fields[c].name)

theorem rowsOf_ofResultSet {r' : Result} {result : ResultSet} (hr : r.rowCount = 0)
    (hlt : result.rows.length < 2 ^ 31) (h : r.ofResultSet result = some r') :
    RowsOf result r' := by
  by_cases hne : result.rows = []
  · have hcount := (ofResultSet_counts h).2 hr
    rw [hne, List.length_nil] at hcount
    refine ⟨by rw [hne]; exact Int.ofNat.inj hcount, fun i hi => absurd hi ?_⟩
    rw [hne]
    exact Nat.not_lt_zero i
  · have hfilled := ofResultSet_filled hlt hne h
    refine ⟨hfilled.rowCount, fun i hi c hc hrow => ⟨hfilled.object hi hc hrow, ?_⟩⟩
    simp [Result.columnName, hfilled.columnNames, Member.get?, hc]

/-- **The tables of the results are built exactly.** That they hold the
rows of the server is said for fewer than `2 ^ 31` rows: with more, the
`int` of the code is negative or counts only some of them. -/
theorem results_built (env : Env) :
    (∀ (action : CompletedAction) (m : Lua), action.Built →
      (∀ r ∈ action.results, r.iError = 0 ∧ r.Short) →
      action.Calls m → ∃ (args : List LuaObject) (m₁ : Lua) (t : ℕ) (es : List ℕ),
        triggerCallback env action m = callAndReport env args.length (-args.length - 2) m₁ ∧
        m₁.stack = args.reverse ++
          m.reference action.iCallback :: m.reference env.iRefDebugTraceBack :: m.stack ∧
        args.getLast? = some (.table t) ∧ m₁.Holds t (arrayTable (es.map .table)) ∧
        List.Forall₂ (BuiltAt m₁.toHeap action.elapsed action.useNumbers) es action.results) ∧
    (∀ (r : Result) (useNumbers : Bool) (m : Lua) (e : ℕ) (rest : List LuaObject), r.Constructed →
      m.stack = .table e :: rest → e < m.nextTable →
      ∃ m', populateLuaTable env.read r useNumbers m = some m' ∧ m'.stack = m.stack ∧
        Machine.Keeps [e] m m') ∧
    (∀ (r : Result) (i c : ℕ) (name : Bytes), c < r.colCount → r.columnName c = some name →
      (∀ c', c' < r.colCount → r.columnName c' = some name → c' = c) →
      rowTableOf r false i r.colCount (.string name) =
        rowTableOf r true i r.colCount (.number (.int (c + 1)))) ∧
    ∀ (lib : Lib) (w w' : World) (result : ResultSet) (r : Result),
      lib.storeResult (w.calls .storeResult) = .stored result → result.rows.length < 2 ^ 31 →
      (resultOfMySQL lib).run w = .ok r w' → RowsOf result r := by
  refine ⟨fun action m hbuilt hresults hcalls => ?_, fun r useNumbers m e rest hr hm he => ?_,
    fun r i c name hc hname hdistinct => rowTableOf_modes i hc hname hdistinct,
    fun lib w w' result r hstore hlt hrun => ?_⟩
  · obtain ⟨rts, hrts⟩ := hbuilt.tables env.read
    obtain ⟨args, m₁, hrun, -, hpasses⟩ := triggerCallback_eq hrts hcalls
    obtain ⟨t, es, hlast, hholds, hentries⟩ := hpasses.results
    exact ⟨args, m₁, t, es, hrun, hpasses.stack, hlast, hholds,
      forall₂_builtAt (fun r hr => (hbuilt r hr).readable) (fun r hr => (hresults r hr).2)
        (fun r hr => (hresults r hr).1) hrts hentries⟩
  · obtain ⟨rt, hrt⟩ := hr.readable.populateLuaTable env.read useNumbers
    obtain ⟨m', data, hrun, hstack, hkeeps, -, -⟩ := populateLuaTable_run hrt hm he
    exact ⟨m', hrun, hstack, hkeeps⟩
  · obtain ⟨mem, lastID, affected, hr⟩ := resultOfMySQL_ofResultSet hstore hrun
    exact rowsOf_ofResultSet rfl hlt hr

/-- Two results of two rows: by name the second column hides
the first one, also where it is null. -/
theorem results_built_twoRows :
    ∃ r w', (resultOfMySQL (.answering (twoStored .fetched))).run
      (.opened ⟨[], [], [], [], 3306, [], 0⟩) = .ok r w' ∧
      rowTableOf r false 0 2 (.string [110]) = .number (.atof [49]) ∧
        rowTableOf r false 1 2 (.string [110]) = .nil ∧
      r.object 0 0 = .string [97, 98] ∧ r.object 1 0 = .string [99] ∧
      ∃ (args : List LuaObject) (m₁ : Lua) (t e e' : ℕ),
        triggerCallback .calm ⟨3, -1, false, [r, r], 0⟩ .withFunctions =
          callAndReport .calm args.length (-args.length - 2) m₁ ∧
        m₁.Holds t (arrayTable [.table e, .table e']) ∧ BuiltAt m₁.toHeap 0 false e r ∧
          BuiltAt m₁.toHeap 0 false e' r := by
  obtain ⟨hcalls, -, -, hrows⟩ := results_built .calm
  have hlt : (twoStored .fetched).rows.length < 2 ^ 31 := (by decide : 2 < 2 ^ 31)
  obtain ⟨r, w', hrun⟩ : ∃ r w', (resultOfMySQL (.answering (twoStored .fetched))).run
      (.opened ⟨[], [], [], [], 3306, [], 0⟩) = .ok r w' :=
        resultOfMySQL_ok rfl (by decide : FitsInt 2)
  obtain ⟨mem, lastID, affected, hr⟩ := resultOfMySQL_ofResultSet rfl hrun
  have hshort : r.Short :=
    (ofResultSet_filled hlt (List.cons_ne_nil _ _) hr).short fun row hrow text htext => by
    have hbytes : ∀ row ∈ twoRows.rows, ∀ text ∈ row, (text.getD []).length < 2 ^ 32 := by decide
    exact hbytes row hrow _ htext
  have hall : ∀ r' ∈ [r, r], r' = r := by simp
  obtain ⟨args, m₁, t, es, heq, -, -, hholds, hentries⟩ :=
    hcalls ⟨3, -1, false, [r, r], 0⟩ .withFunctions (fun r' hr' => hall r' hr' ▸ .ofMySQL hrun)
    (fun r' hr' => hall r' hr' ▸ ⟨(ofResultSet_counts hr).1, hshort⟩)
      ⟨(by decide : (0 : ℤ) < 3), rfl⟩
  obtain ⟨e, e', rfl⟩ : ∃ e e', es = [e, e'] := List.length_eq_two.mp hentries.length_eq
  obtain ⟨he, hentries⟩ := List.forall₂_cons.mp hentries
  have hvalues := (hrows _ _ _ _ r rfl hlt hrun).2
  have hlast : r.lastColumn [110] 2 = some 1 :=
    if_pos (hvalues 0 Nat.zero_lt_two 1 Nat.one_lt_two Nat.one_lt_two).2
  have hnamed : ∀ i, rowTableOf r false i 2 (.string [110]) = r.object i 1 := by
    intro i
    simp [rowTableOf, hlast]
  exact ⟨r, w', hrun, (hnamed 0).trans
    (hvalues 0 Nat.zero_lt_two 1 Nat.one_lt_two Nat.one_lt_two).1,
    (hnamed 1).trans (hvalues 1 Nat.one_lt_two 1 Nat.one_lt_two Nat.one_lt_two).1,
    (hvalues 0 Nat.zero_lt_two 0 Nat.zero_lt_two Nat.zero_lt_two).1,
    (hvalues 1 Nat.one_lt_two 0 Nat.zero_lt_two Nat.zero_lt_two).1, args, m₁, t, e, e', heq, hholds,
    he, (List.forall₂_cons.mp hentries).1⟩

end Tmysql4.Handler
