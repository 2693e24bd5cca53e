import Tmysql4.Responses

/-! # The rows of a prepared result

The prepared interface hands the rows over one by one, through one set of buffers that has the
sizes of the columns.

* `text_prepared_agree`: when every value fits, the result holds the columns and the rows that the
  text interface gives.
* `stored_complete_iff`: a success holds all the rows exactly when the first fetch that does not
  succeed leaves an error behind; `MYSQL_DATA_TRUNCATED` and `MYSQL_NO_DATA` do not. -/

namespace Tmysql4.Handler

open Imperative

variable {lib lib' : Lib} {w w' : World} {h : HandleId}

/-! ### The rows that are counted -/

/-- The number of rows, as the `int` of the code has it. -/
def ResultSet.rowCount (result : ResultSet) : ℕ := (toInt result.rows.length).toNat

theorem rowCount_of_lt {result : ResultSet} (hlt : result.rows.length < 2 ^ 31) :
    result.rowCount = result.rows.length := by
  rw [ResultSet.rowCount, toInt_of_lt hlt, Int.toNat_natCast]

theorem toInt_nonneg_le {n : ℕ} (h : 0 ≤ toInt n) : (toInt n).toNat ≤ n := by
  have hmod := Int.bmod_eq_emod (n : ℤ) (2 ^ 32)
  unfold toInt at h ⊢
  split at hmod <;> omega

theorem rowCount_le {result : ResultSet} (hfits : FitsInt result.rows.length) :
    result.rowCount ≤ result.rows.length := toInt_nonneg_le hfits

theorem rowCount_lt (result : ResultSet) : result.rowCount < 2 ^ 31 := by
  have := toInt_lt result.rows.length
  unfold ResultSet.rowCount
  omega

/-- The result set of the first rows. -/
def ResultSet.take (result : ResultSet) (n : ℕ) : ResultSet :=
  { result with
    rows := result.rows.take n
    width := fun row hrow => result.width row (List.mem_of_mem_take hrow) }

theorem take_fields (result : ResultSet) (n : ℕ) : (result.take n).fields = result.fields := rfl

theorem take_rows (result : ResultSet) (n : ℕ) : (result.take n).rows = result.rows.take n := rfl

theorem length_take_rowCount {result : ResultSet} (hfits : FitsInt result.rows.length) :
    (result.rows.take result.rowCount).length = result.rowCount := by
  rw [List.length_take, Nat.min_eq_left (rowCount_le hfits)]

/-- The code sees no more rows than it counts. -/
theorem ofResultSet_take {r : Result} (hr : r.rowCount = 0) {result : ResultSet}
    (hfits : FitsInt result.rows.length) :
    r.ofResultSet (result.take result.rowCount) = r.ofResultSet result := by
  have hpos := fields_pos result
  have hpos' := fields_pos (result.take result.rowCount)
  have hcount : toInt (result.take result.rowCount).rows.length = toInt result.rows.length := by
    rw [take_rows, length_take_rowCount hfits, toInt_of_lt (rowCount_lt result), ResultSet.rowCount,
      Int.toNat_of_nonneg hfits]
  rw [Result.ofResultSet, Result.ofResultSet, hcount, if_neg (by omega), if_neg (by omega),
    take_fields]
  cases hresize : r.resize (toInt result.fields.length) (toInt result.rows.length) with
  | none => rw [Option.map_none, Option.map_none]
  | some r' =>
      have hrows : (r'.rowCount : ℤ) = toInt result.rows.length := (resize_counts hresize).2 hr
      have htake : (result.take result.rowCount).rows.take r'.rowCount =
          result.rows.take r'.rowCount := by
        rw [take_rows, List.take_take, ResultSet.rowCount, ← hrows, Int.toNat_natCast, Nat.min_self]
      rw [Option.map_some, Option.map_some, htake]

/-! ### What the fetch loop reads -/

theorem fetched_all {result : StoredResult} {rows : List Row} {i : ℕ}
    (hall : ∀ j < rows.length, result.fetch (i + j) = .fetched) :
    fetched result rows i = (rows, none) := by
  induction rows generalizing i with
  | nil => rfl
  | cons row rows ih =>
      have hrest : fetched result rows (i + 1) = (rows, none) := ih fun j hj => by
        rw [Nat.add_assoc, Nat.add_comm 1 j]
        exact hall (j + 1) (Nat.succ_lt_succ hj)
      have hfirst : result.fetch i = .fetched := hall 0 (Nat.succ_pos _)
      rw [fetched, hfirst, hrest]

theorem fetched_stops {result : StoredResult} {rows : List Row} {i j : ℕ} (hj : j < rows.length)
    (hbefore : ∀ k < j, result.fetch (i + k) = .fetched) (hstop : result.fetch (i + j) ≠ .fetched) :
    fetched result rows i = (rows.take j, some (result.fetch (i + j)).diag) := by
  induction rows generalizing i j with
  | nil => cases hj
  | cons row rows ih =>
      rw [fetched]
      cases j with
      | zero =>
          rw [Nat.add_zero] at hstop ⊢
          split
          · rename_i hfetch
            exact absurd hfetch hstop
          · rfl
      | succ j =>
          have hfirst : result.fetch i = .fetched := hbefore 0 (Nat.succ_pos _)
          have hshift : i + 1 + j = i + (j + 1) := by omega
          have hrest := ih (i := i + 1) (Nat.lt_of_succ_lt_succ hj)
            (fun k hk => by
              rw [Nat.add_assoc, Nat.add_comm 1 k]
              exact hbefore (k + 1) (Nat.succ_lt_succ hk))
            (by rwa [hshift])
          rw [hfirst, hrest, hshift]
          rfl

/-- All the rows are fetched, or there is a first one that is not. -/
theorem fetch_cases (fetch : ℕ → FetchReply) (n : ℕ) :
    (∀ i < n, fetch i = .fetched) ∨ ∃ i < n, (∀ j < i, fetch j = .fetched) ∧
      fetch i ≠ .fetched := by
  induction n with
  | zero => exact Or.inl fun i hi => absurd hi (Nat.not_lt_zero i)
  | succ n ih =>
      obtain hall | ⟨i, hi, hstop⟩ := ih
      · by_cases hn : fetch n = .fetched
        · exact Or.inl (Nat.forall_lt_succ_right.mpr ⟨hall, hn⟩)
        · exact Or.inr ⟨n, Nat.lt_succ_self n, hall, hn⟩
      · exact Or.inr ⟨i, Nat.lt_succ_of_lt hi, hstop⟩

/-- When all the rows are fetched, the result is that of the text interface. -/
theorem ofStored_fetched {r : Result} (hr : r.rowCount = 0) (h : HandleId) {result : StoredResult}
    (hfits : FitsInt result.rows.length) (hall : ∀ i < result.rowCount, result.fetch i = .fetched) :
    r.ofStored h result = r.ofResultSet result.toResultSet := by
  rw [Result.ofStored, Result.ofResultSet]
  split
  · rfl
  · cases hresize : r.resize (toInt result.fields.length) (toInt result.rows.length) with
    | none => rfl
    | some r' =>
        have hrows : r'.rowCount = result.rowCount := by
          rw [ResultSet.rowCount, ← (resize_counts hresize).2 hr, Int.toNat_natCast]
        have hfetched : fetched result (result.rows.take r'.rowCount) 0 =
            (result.rows.take r'.rowCount, none) := by
          refine fetched_all fun j hj => ?_
          rw [hrows, length_take_rowCount hfits] at hj
          rw [Nat.zero_add]
          exact hall j hj
        rw [Option.map_some, Option.map_some, hfetched]
        rfl

/-- When a row is not fetched, its error is that of the result. -/
theorem ofStored_stops {r r' : Result} (hr : r.rowCount = 0) {result : StoredResult}
    (hfits : FitsInt result.rows.length) {i : ℕ} (hi : i < result.rowCount)
    (hbefore : ∀ j < i, result.fetch j = .fetched) (hstop : result.fetch i ≠ .fetched)
    (hr' : r.ofStored h result = some r') :
    r'.iError = (result.fetch i).diag.errno ∧ r'.rowCount = result.rowCount := by
  have hpos := fields_pos result.toResultSet
  rw [Result.ofStored, if_neg (by omega)] at hr'
  obtain ⟨r₁, hresize, rfl⟩ := Option.map_eq_some_iff.mp hr'
  have hrows : r₁.rowCount = result.rowCount := by
    rw [ResultSet.rowCount, ← (resize_counts hresize).2 hr, Int.toNat_natCast]
  have hfetched : fetched result (result.rows.take r₁.rowCount) 0 =
      ((result.rows.take r₁.rowCount).take i, some (result.fetch (0 + i)).diag) := by
    refine fetched_stops ?_ (fun k hk => by rw [Nat.zero_add]; exact hbefore k hk)
      (by rwa [Nat.zero_add])
    rw [hrows, length_take_rowCount hfits]
    exact hi
  rw [Nat.zero_add] at hfetched
  rw [hfetched]
  exact ⟨rfl, hrows⟩

/-! ### What the constructors make -/

theorem orThrow_eq_ok {r : Option Result} {r' : Result} {v : World}
    (h : (orThrow r).run w = .ok r' v) : r = some r' := by
  cases r with
  | none => cases h
  | some r =>
      cases h
      rfl

/-- The result that a constructor made of a stored statement result. -/
theorem resultOfStatement_ofStored {result : StoredResult} {r : Result}
    (hmeta : lib.stmtResultMetadata (w.calls .stmtResultMetadata) = some result)
    (hrun : (resultOfStatement lib h).run w = .ok r w') :
    ∃ mem lastID affected,
      (Result.started mem (.handle h) (w.handle h).error lastID affected).ofStored h result =
        some r := by
  obtain ⟨mem, lastID, affected, v, -, -, hrun'⟩ := resultOfStatement_run lib h w
  rw [hrun, hmeta] at hrun'
  exact ⟨mem, lastID, affected, orThrow_eq_ok hrun'.symm⟩

/-- The same for the text interface. -/
theorem resultOfMySQL_ofResultSet {result : ResultSet} {r : Result}
    (hstore : lib.storeResult (w.calls .storeResult) = .stored result)
    (hrun : (resultOfMySQL lib).run w = .ok r w') :
    ∃ mem lastID affected,
      (Result.started mem .connection w.connError lastID affected).ofResultSet result = some r := by
  obtain ⟨mem, lastID, affected, v, -, hrun'⟩ := resultOfMySQL_run lib w
  rw [hrun, hstore] at hrun'
  exact ⟨mem, lastID, affected, orThrow_eq_ok hrun'.symm⟩

theorem resultOfStatement_ok (lib : Lib) {result : StoredResult} (h : HandleId)
    (hmeta : lib.stmtResultMetadata (w.calls .stmtResultMetadata) = some result)
    (hfits : FitsInt result.rows.length) :
    ∃ r w', (resultOfStatement lib h).run w = .ok r w' := by
  obtain ⟨mem, lastID, affected, v, -, -, hrun⟩ := resultOfStatement_run lib h w
  rw [hmeta] at hrun
  cases hr : (Result.started mem (.handle h) (w.handle h).error lastID affected).ofMetadata h
    (some result) with
  | none => exact absurd hfits ((ofMetadata_eq_none_iff _ h (some result)).mp hr)
  | some r =>
      rw [hr] at hrun
      exact ⟨r, v, hrun⟩

theorem resultOfMySQL_ok {result : ResultSet}
    (hstore : lib.storeResult (w.calls .storeResult) = .stored result)
    (hfits : FitsInt result.rows.length) : ∃ r w', (resultOfMySQL lib).run w = .ok r w' := by
  obtain ⟨mem, lastID, affected, v, -, hrun⟩ := resultOfMySQL_run lib w
  rw [hstore] at hrun
  cases hr : (Result.started mem .connection w.connError lastID affected).ofReply
    (.stored result) with
  | none => exact absurd hfits ((ofReply_eq_none_iff _ (.stored result)).mp hr)
  | some r =>
      rw [hr] at hrun
      exact ⟨r, v, hrun⟩

/-! ### Both interfaces -/

/-- The lengths of the values of a column that are not null. -/
def columnLengths (rows : List Row) (c : ℕ) : List ℕ :=
  rows.filterMap fun row => row[c]?.join.map List.length

/-- The prepared interface gives the same result set: its columns have the maximum lengths of
their values, and a fetch succeeds when every value fits. -/
structure SameResponse (result : ResultSet) (stored : StoredResult) : Prop where
  fields : stored.fields.map (fun field => (field.name, field.type)) =
    result.fields.map fun field => (field.name, field.type)
  rows : stored.rows = result.rows
  maxLength : ∀ c field, stored.fields[c]? = some field →
    field.maxLength = (columnLengths stored.rows c).foldr max 0
  fetch : ∀ i (hi : i < stored.rows.length), Fits stored.fields stored.rows[i] →
    stored.fetch i = .fetched

theorem le_foldr_max {l : List ℕ} {n : ℕ} (h : n ∈ l) : n ≤ l.foldr max 0 := by
  induction l with
  | nil => cases h
  | cons m l ih =>
      rw [List.foldr_cons]
      rcases List.mem_cons.mp h with rfl | h
      · exact Nat.le_max_left _ _
      · exact Nat.le_trans (ih h) (Nat.le_max_right _ _)

/-- Every row fits the maximum lengths. -/
theorem fits_maxLength {result : ResultSet}
    (hmax : ∀ c field, result.fields[c]? = some field →
      field.maxLength = (columnLengths result.rows c).foldr max 0)
    {row : Row} (hrow : row ∈ result.rows) : Fits result.fields row := by
  refine List.forall₂_iff_get.mpr ⟨(result.width row hrow).symm, fun c hc hc' text htext => ?_⟩
  rw [List.get_eq_getElem, hmax c _ (List.getElem?_eq_getElem hc)]
  refine le_foldr_max (List.mem_filterMap.mpr ⟨row, hrow, ?_⟩)
  have hcell : row[c] = some text := htext
  rw [List.getElem?_eq_getElem hc', hcell]
  rfl

/-- Two results hold the same columns and the same rows. -/
structure SameData (r r' : Result) : Prop where
  rowCount : r.rowCount = r'.rowCount
  colCount : r.colCount = r'.colCount
  columnNames : r.columnNames = r'.columnNames
  columnTypes : r.columnTypes = r'.columnTypes
  rows : 0 < r.rowCount → r.rows = r'.rows
  nullRowValues : 0 < r.rowCount → r.nullRowValues = r'.nullRowValues

/-- The columns of the result of a result set. -/
theorem ofResultSet_columns {r r' : Result} {result : ResultSet} (hr : r.rowCount = 0)
    (hlt : result.rows.length < 2 ^ 31) (h : r.ofResultSet result = some r') :
    r'.rowCount = result.rows.length ∧ r'.colCount = result.fields.length ∧
      r'.columnNames = .set (result.fields.map fun field => cString field.name) ∧
      r'.columnTypes = .set (result.fields.map (·.type)) := by
  have hcount : r'.rowCount = result.rows.length := by
    have hrows := (ofResultSet_counts h).2 hr
    rw [toInt_of_lt hlt] at hrows
    exact Int.ofNat.inj hrows
  refine ⟨hcount, ?_⟩
  by_cases hne : result.rows = []
  · have hpos := fields_pos result
    have hzero : toInt result.rows.length = 0 := by
      rw [toInt_of_lt hlt, hne]
      rfl
    rw [Result.ofResultSet, if_neg (by omega), Result.resize, if_neg (by omega), if_pos hzero,
      Option.map_some] at h
    cases h
    refine ⟨?_, ?_, ?_⟩
    · simp [Result.fill, toInt_of_lt result.fields_lt]
    · simp [Result.fill, toInt_of_lt result.fields_lt, Member.assign]
    · simp [Result.fill, toInt_of_lt result.fields_lt, Member.assign]
  · have hfilled := ofResultSet_filled hlt hne h
    exact ⟨hfilled.colCount, hfilled.columnNames, hfilled.columnTypes⟩

theorem sameData_ofResultSet {r₁ r₂ r r' : Result} {result stored : ResultSet}
    (h₁ : r₁.rowCount = 0) (h₂ : r₂.rowCount = 0) (hlt : result.rows.length < 2 ^ 31)
    (hfields : stored.fields.map (fun field => (field.name, field.type)) =
      result.fields.map fun field => (field.name, field.type))
    (hrows : stored.rows = result.rows) (hr : r₁.ofResultSet result = some r)
    (hr' : r₂.ofResultSet stored = some r') :
    SameData r r' := by
  have hlen : stored.fields.length = result.fields.length := by
    simpa using congrArg List.length hfields
  have hnames : stored.fields.map (fun field => cString field.name) =
      result.fields.map fun field => cString field.name := by
    simpa [Function.comp_def] using congrArg (List.map fun p => cString p.1) hfields
  have htypes : stored.fields.map (·.type) = result.fields.map (·.type) := by
    simpa [Function.comp_def] using congrArg (List.map fun p => p.2) hfields
  obtain ⟨hcount, hcols, hn, ht⟩ := ofResultSet_columns h₁ hlt hr
  obtain ⟨hcount', hcols', hn', ht'⟩ := ofResultSet_columns h₂ (by rw [hrows]; exact hlt) hr'
  refine ⟨by rw [hcount, hcount', hrows], by rw [hcols, hcols', hlen], by rw [hn, hn', hnames],
    by rw [ht, ht', htypes], fun hpos => ?_, fun hpos => ?_⟩
  all_goals
    rw [hcount, List.length_pos_iff] at hpos
    have hfilled := ofResultSet_filled hlt hpos hr
    have hfilled' := ofResultSet_filled (by rw [hrows]; exact hlt) (by rw [hrows]; exact hpos) hr'
  · rw [hfilled.rows, hfilled'.rows, hrows]
  · rw [hfilled.nullRowValues, hfilled'.nullRowValues, hrows]

/-- The table of a row depends on the names and the types of the columns alone. -/
theorem rowTable_congr {fields fields' : List Field} (useNumbers : Bool) (row : Row)
    (h : fields'.map (fun field => (field.name, field.type)) = fields.map fun field =>
      (field.name, field.type)) :
    rowTable useNumbers fields' row = rowTable useNumbers fields row := by
  have hzip : ∀ l : List Field, rowTable useNumbers l row =
      ((l.map fun field => (field.name, field.type)).zip row).mapIdx fun c p =>
        cellTable useNumbers c ⟨p.1.1, p.1.2, 0⟩ p.2 := by
    intro l
    rw [rowTable, List.zip_map_left]
    exact List.ext_getElem (by simp) fun c hc hc' => by simp [cellTable]
  rw [hzip, hzip, h]

/-- Both results give the same `data` table, in either mode, whenever they report a success. -/
def SameTables (r r' : Result) : Prop :=
  ∀ read read' useNumbers, ∃ table table', r.populateLuaTable read useNumbers = some table ∧
    r'.populateLuaTable read' useNumbers = some table' ∧
    (table.status = true → table'.status = true → table.data = table'.data ∧ table.data ≠ none)

theorem populateLuaTable_failed {r : Result} (h : r.iError ≠ 0) (read : Loc → Bytes)
    (useNumbers : Bool) :
    r.populateLuaTable read useNumbers =
      some ⟨false, some (read r.strError), some r.iError, none, none, none⟩ := by
  rw [Result.populateLuaTable, if_pos h]

theorem populateLuaTable_cases {r : Result} {useNumbers : Bool} {data : List RowTable}
    (hdata : r.pushRows useNumbers = some data) (read : Loc → Bytes) :
    ∃ table, r.populateLuaTable read useNumbers = some table ∧
      (table.status = true → table.data = some data) := by
  by_cases hzero : r.iError = 0
  · obtain ⟨table, htable, -, hrest⟩ := populateLuaTable_of_ok hzero hdata
    exact ⟨table, htable, fun _ => hrest⟩
  · exact ⟨_, populateLuaTable_failed hzero read useNumbers, fun hstatus => by cases hstatus⟩

theorem sameTables_of_pushRows {r r' : Result}
    (h : ∀ useNumbers, ∃ data, r.pushRows useNumbers = some data ∧
      r'.pushRows useNumbers = some data) :
    SameTables r r' := by
  intro read read' useNumbers
  obtain ⟨data, hdata, hdata'⟩ := h useNumbers
  obtain ⟨table, htable, hholds⟩ := populateLuaTable_cases hdata read
  obtain ⟨table', htable', hholds'⟩ := populateLuaTable_cases hdata' read'
  refine ⟨table, table', htable, htable', fun hstatus hstatus' => ?_⟩
  rw [hholds hstatus, hholds' hstatus']
  exact ⟨rfl, Option.some_ne_none _⟩

/-- **Text and prepared results agree**, and no buffer is read past its end. -/
theorem text_prepared_agree {result : ResultSet} {stored : StoredResult} (h : HandleId)
    (hstore : lib.storeResult (w.calls .storeResult) = .stored result)
    (hmeta : lib'.stmtResultMetadata (w'.calls .stmtResultMetadata) = some stored)
    (hsame : SameResponse result stored) (hlt : result.rows.length < 2 ^ 31) :
    ∃ r v r' v', (resultOfMySQL lib).run w = .ok r v ∧
      (resultOfStatement lib' h).run w' = .ok r' v' ∧ SameData r r' ∧ SameTables r r' := by
  have hlt' : stored.rows.length < 2 ^ 31 := by rw [hsame.rows]; exact hlt
  have hfits : FitsInt result.rows.length := by
    rw [FitsInt, toInt_of_lt hlt]
    exact Int.natCast_nonneg _
  obtain ⟨r, v, hrun⟩ := resultOfMySQL_ok hstore hfits
  obtain ⟨r', v', hrun'⟩ := resultOfStatement_ok lib' h hmeta (by rw [hsame.rows]; exact hfits)
  obtain ⟨mem, lastID, affected, hr⟩ := resultOfMySQL_ofResultSet hstore hrun
  obtain ⟨mem', lastID', affected', hr'⟩ := resultOfStatement_ofStored hmeta hrun'
  have hall : ∀ i < stored.rowCount, stored.fetch i = .fetched := by
    intro i hi
    rw [rowCount_of_lt hlt'] at hi
    exact hsame.fetch i hi (fits_maxLength hsame.maxLength (List.getElem_mem hi))
  rw [ofStored_fetched rfl h (by rw [hsame.rows]; exact hfits) hall] at hr'
  refine ⟨r, v, r', v', hrun, hrun',
    sameData_ofResultSet rfl rfl hlt hsame.fields hsame.rows hr hr', ?_⟩
  refine sameTables_of_pushRows fun useNumbers =>
    ⟨_, pushRows_ofResultSet rfl hlt hr useNumbers, ?_⟩
  rw [pushRows_ofResultSet rfl hlt' hr' useNumbers, hsame.rows]
  exact congrArg some (List.map_congr_left fun row _ => rowTable_congr useNumbers row hsame.fields)

/-- One row of one column, whose fetch returns `reply`. -/
def oneRow (reply : FetchReply) (maxLength : ℕ) (hfits : reply = .fetched → 2 ≤ maxLength) :
    StoredResult where
  fields := [⟨[110], 253, maxLength⟩]
  rows := [[some [97, 98]]]
  fields_ne := List.cons_ne_nil _ _
  fields_lt := by
    rw [List.length_singleton]
    decide
  width := by simp
  fetch _ := reply
  fits i hi hfetch := by
    obtain rfl : i = 0 := Nat.lt_one_iff.mp hi
    exact .cons (fun text htext => by cases htext; exact hfits hfetch) .nil

/-- Every query and every statement is answered with this result. -/
def Lib.answering (result : StoredResult) : Lib :=
  { Lib.calm with
    storeResult := fun _ => .stored result.toResultSet
    stmtResultMetadata := fun _ => some result }

theorem twoRows_maxLength (c : ℕ) (field : Field) (h : twoRows.fields[c]? = some field) :
    field.maxLength = (columnLengths twoRows.rows c).foldr max 0 := by
  obtain rfl | rfl | hc : c = 0 ∨ c = 1 ∨ 2 ≤ c := by omega
  · cases h
    rfl
  · cases h
    rfl
  · rw [List.getElem?_eq_none hc] at h
    cases h

/-- The rows of `twoRows`, the second of which is fetched with `reply`. -/
def twoStored (reply : FetchReply) : StoredResult where
  toResultSet := twoRows
  fetch i := if i = 0 then .fetched else reply
  fits _ hi _ := fits_maxLength twoRows_maxLength (List.getElem_mem hi)

theorem text_prepared_agree_twoRows :
    ∃ r v r' v', (resultOfMySQL (.answering (twoStored .fetched))).run
      (.opened ⟨[], [], [], [], 3306, [], 0⟩) = .ok r v ∧
      (resultOfStatement (.answering (twoStored .fetched)) 0).run
        (.opened ⟨[], [], [], [], 3306, [], 0⟩) = .ok r' v' ∧
      SameData r r' ∧ SameTables r r' := by
  have hsame : SameResponse (twoStored .fetched).toResultSet (twoStored .fetched) :=
    ⟨rfl, rfl, twoRows_maxLength, fun _ _ _ => ite_self _⟩
  exact text_prepared_agree 0 rfl rfl hsame (by decide : 2 < 2 ^ 31)

/-! ### Complete results -/

/-- `mysql_stmt_errno` is zero after it, though no row was fetched. -/
def FetchReply.Quiet : FetchReply → Prop
  | .truncated => True
  | .noData => True
  | _ => False

instance : DecidablePred FetchReply.Quiet
  | .fetched => inferInstanceAs (Decidable False)
  | .failed _ => inferInstanceAs (Decidable False)
  | .truncated => inferInstanceAs (Decidable True)
  | .noData => inferInstanceAs (Decidable True)

theorem quiet_iff {reply : FetchReply} (hstop : reply ≠ .fetched) :
    reply.Quiet ↔ reply.diag.errno = 0 := by
  cases reply with
  | fetched => exact absurd rfl hstop
  | failed e => exact iff_of_false not_false e.diag_errno_ne
  | truncated => exact iff_of_true trivial rfl
  | noData => exact iff_of_true trivial rfl

/-- The first of the counted rows that is not fetched, if there is one, fails with an error. -/
def StopsWithError (result : StoredResult) : Prop :=
  ∀ i < result.rowCount, (∀ j < i, result.fetch j = .fetched) → ¬ (result.fetch i).Quiet

/-- A table that reports a success has all the rows, each of which was fetched. -/
def Complete (result : StoredResult) (r : Result) : Prop :=
  ∀ read useNumbers, ∃ table, r.populateLuaTable read useNumbers = some table ∧
    (table.status = true → (∀ i < r.rowCount, result.fetch i = .fetched) ∧
      table.data = some ((result.rows.take r.rowCount).map (rowTable useNumbers result.fields)))

/-- The result of rows that were all fetched gives them back. -/
theorem pushRows_fetched {r r' : Result} (hr : r.rowCount = 0) {result : StoredResult}
    (hfits : FitsInt result.rows.length) (hall : ∀ i < result.rowCount, result.fetch i = .fetched)
    (h' : r.ofStored h result = some r') :
    r'.rowCount = result.rowCount ∧ ∀ useNumbers,
      r'.pushRows useNumbers =
        some ((result.rows.take result.rowCount).map (rowTable useNumbers result.fields)) := by
  rw [ofStored_fetched hr h hfits hall] at h'
  have hrows : r'.rowCount = result.rowCount := by
    rw [ResultSet.rowCount, ← (ofResultSet_counts h').2 hr, Int.toNat_natCast]
  refine ⟨hrows, fun useNumbers => ?_⟩
  rw [← ofResultSet_take hr hfits] at h'
  have hlt : (result.toResultSet.take result.rowCount).rows.length < 2 ^ 31 := by
    rw [take_rows, length_take_rowCount hfits]
    exact rowCount_lt _
  rw [pushRows_ofResultSet hr hlt h' useNumbers, take_rows, take_fields]

theorem complete_iff {r r' : Result} (hr : r.rowCount = 0) {result : StoredResult}
    (h' : r.ofStored h result = some r') : Complete result r' ↔ StopsWithError result := by
  have hfits : FitsInt result.rows.length := by
    by_contra hn
    have hnone := (ofMetadata_eq_none_iff r h (some result)).mpr hn
    rw [Result.ofMetadata, h'] at hnone
    cases hnone
  obtain hall | ⟨i, hi, hbefore, hstop⟩ := fetch_cases result.fetch result.rowCount
  · obtain ⟨hrows, hdata⟩ := pushRows_fetched hr hfits hall h'
    refine iff_of_true (fun read useNumbers => ?_) fun i hi _ hquiet => ?_
    · obtain ⟨table, htable, hholds⟩ := populateLuaTable_cases (hdata useNumbers) read
      refine ⟨table, htable, fun hstatus => ⟨fun i hi => hall i (hrows ▸ hi), ?_⟩⟩
      rw [hholds hstatus, hrows]
    · rw [hall i hi] at hquiet
      exact hquiet
  · obtain ⟨herror, hrows⟩ := ofStored_stops hr hfits hi hbefore hstop h'
    constructor
    · intro hcomplete j hj hbefore' hquiet
      -- both are the first row that is not fetched
      have hij : i = j := by
        by_contra hne
        obtain hlt | hlt := Nat.lt_or_gt_of_ne hne
        · exact hstop (hbefore' i hlt)
        · rw [hbefore j hlt] at hquiet
          exact hquiet
      subst hij
      rw [(quiet_iff hstop).mp hquiet] at herror
      obtain ⟨table, htable, hholds⟩ := hcomplete (fun _ => []) false
      have hstatus : table.status = true := (populateLuaTable_ok herror htable).1
      exact hstop ((hholds hstatus).1 i (by rw [hrows]; exact hi))
    · intro hends read useNumbers
      have hne : r'.iError ≠ 0 := by
        rw [herror]
        exact fun hzero => hends i hi hbefore ((quiet_iff hstop).mpr hzero)
      exact ⟨_, populateLuaTable_failed hne read useNumbers, fun hstatus => by cases hstatus⟩

/-- **A success of a prepared statement is complete** exactly when the first fetch that does not
succeed leaves an error behind. -/
theorem stored_complete_iff {result : StoredResult} {r : Result}
    (hmeta : lib.stmtResultMetadata (w.calls .stmtResultMetadata) = some result)
    (hrun : (resultOfStatement lib h).run w = .ok r w') : Complete result r ↔
    StopsWithError result := by
  obtain ⟨mem, lastID, affected, hr⟩ := resultOfStatement_ofStored hmeta hrun
  exact complete_iff rfl hr

/-- A row that was truncated is delivered as an empty one. -/
theorem stored_complete_iff_fails :
    ∃ r w', (resultOfStatement (.answering (oneRow .truncated 1 FetchReply.noConfusion)) 0).run
        (.opened ⟨[], [], [], [], 3306, [], 0⟩) = .ok r w' ∧
      ¬ Complete (oneRow .truncated 1 FetchReply.noConfusion) r := by
  obtain ⟨r, w', hrun⟩ :=
    resultOfStatement_ok (.answering (oneRow .truncated 1 FetchReply.noConfusion))
    (w := .opened ⟨[], [], [], [], 3306, [], 0⟩) 0 rfl (by decide : FitsInt 1)
  refine ⟨r, w', hrun, fun hcomplete => ?_⟩
  obtain ⟨mem, lastID, affected, hr⟩ := resultOfStatement_ofStored rfl hrun
  exact (complete_iff rfl hr).mp hcomplete 0 (by decide)
    (fun j hj => absurd hj (Nat.not_lt_zero j)) trivial

/-- The second of two fetches fails with an error: what is reported is no success. -/
theorem stored_complete_iff_lost :
    ∃ r w', (resultOfStatement (.answering (twoStored (.failed .serverLost))) 0).run
        (.opened ⟨[], [], [], [], 3306, [], 0⟩) = .ok r w' ∧
          Complete (twoStored (.failed .serverLost)) r := by
  obtain ⟨r, w', hrun⟩ := resultOfStatement_ok (.answering (twoStored (.failed .serverLost)))
    (w := .opened ⟨[], [], [], [], 3306, [], 0⟩) 0 rfl (by decide : FitsInt 2)
  refine ⟨r, w', hrun, (stored_complete_iff rfl hrun).mpr fun i hi _ => ?_⟩
  obtain rfl | rfl : i = 0 ∨ i = 1 := by
    have : (twoStored (.failed .serverLost)).rowCount = 2 := by decide
    omega
  · exact not_false
  · exact not_false

end Tmysql4.Handler
