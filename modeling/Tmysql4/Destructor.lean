import Mathlib.Data.List.Perm.Basic
import Tmysql4.Populate

/-! # Members of a result that no constructor assigned

The constructors of `Result` return early on several ways and leave members as they found them in
memory. `Result.refill` changes what they found.  `Result.destroy` is the destructor; it is `none`
when a pointer is followed or freed that was never assigned.

`unset_members_unused` is the result: other contents of the memory change neither the table nor
what is freed, and everything that `Resize` has allocated is freed once. -/

namespace Tmysql4.Handler

open Imperative LuaBase

variable {α : Type} {lib : Lib} {w w' : World} {r r' : Result}

/-! ### The destructor -/

/-- The arrays that `Resize` makes. -/
inductive Allocation where
  | columnNames
  | columnTypes
  | rows
  | nullRowValues
  | row (i : ℕ)
  | nullRow (i : ℕ)
deriving DecidableEq

/-- `delete[]` of a member. -/
def Member.delete (a : Allocation) : Member α → Option (List Allocation)
  | .raw _ => none
  | .set _ => some [a]

/-- The body of the loop of the destructor. -/
def Result.destroyRow (r : Result) (i : ℕ) : Option (List Allocation) := do
  let _ ← (← r.rows.get?)[i]?
  let _ ← (← r.nullRowValues.get?)[i]?
  some [.row i, .nullRow i]

/-- `Result::~Result`: the arrays that are freed, in their order. -/
def Result.destroy (r : Result) : Option (List Allocation) :=
  if r.colCount = 0 then some []
  else do
    let names ← r.columnNames.delete .columnNames
    let types ← r.columnTypes.delete .columnTypes
    if r.rowCount = 0 then some (names ++ types)
    else do
      let lines ← (List.range r.rowCount).mapM r.destroyRow
      let rows ← r.rows.delete .rows
      let nulls ← r.nullRowValues.delete .nullRowValues
      some (names ++ types ++ lines.flatten ++ (rows ++ nulls))

/-- The arrays that a member holds. -/
def Member.arrays (arrays : α → List Allocation) : Member α → List Allocation
  | .raw _ => []
  | .set value => arrays value

/-- What `Resize` has allocated for a result: only it assigns the members that hold arrays. -/
def Result.allocations (r : Result) : List Allocation :=
  r.columnNames.arrays (fun _ => [.columnNames]) ++
    r.columnTypes.arrays (fun _ => [.columnTypes]) ++
    (r.rows.arrays (fun rows => .rows :: (List.range rows.length).map .row) ++
      r.nullRowValues.arrays fun nulls => .nullRowValues :: (List.range nulls.length).map .nullRow)

/-- Everything that was allocated is freed once, and nothing else is. -/
def Result.Frees (r : Result) : Prop := ∃ freed, r.destroy = some freed ∧ freed.Perm r.allocations

theorem frees_of_nothing (hcol : r.colCount = 0) (hnothing : r.allocations = []) : r.Frees := by
  refine ⟨[], ?_, ?_⟩
  · rw [Result.destroy, if_pos hcol]
  · rw [hnothing]

theorem frees_of_columns {names : List Bytes} {types : List ℕ} {bits bits' : ℕ}
    (hcol : 0 < r.colCount) (hrow : r.rowCount = 0) (hnames : r.columnNames = .set names)
    (htypes : r.columnTypes = .set types) (hrows : r.rows = .raw bits)
    (hnulls : r.nullRowValues = .raw bits') : r.Frees := by
  refine ⟨[.columnNames, .columnTypes], ?_, ?_⟩
  · unfold Result.destroy
    rw [if_neg (by omega), hnames, htypes]
    simp only [Member.delete, Option.bind_eq_bind, Option.bind_some]
    rw [if_pos hrow]
    rfl
  · unfold Result.allocations
    rw [hnames, htypes, hrows, hnulls]
    exact List.Perm.refl _

theorem mapM_eq_some_map {β : Type} {f : α → Option β} {g : α → β} {l : List α}
    (h : ∀ a ∈ l, f a = some (g a)) : l.mapM f = some (l.map g) := by
  induction l with
  | nil => rfl
  | cons a l ih =>
      rw [List.mapM_cons, h a List.mem_cons_self,
        ih fun a' ha' => h a' (List.mem_cons_of_mem _ ha')]
      rfl

theorem frees_of_rows {names : List Bytes} {types : List ℕ} {rows : List (List Bytes)}
    {nulls : List (List Bool)} (hcol : 0 < r.colCount) (hrow : 0 < r.rowCount)
    (hnames : r.columnNames = .set names) (htypes : r.columnTypes = .set types)
    (hrows : r.rows = .set rows) (hlen : rows.length = r.rowCount)
    (hnulls : r.nullRowValues = .set nulls) (hlen' : nulls.length = r.rowCount) : r.Frees := by
  have hline : ∀ i ∈ List.range r.rowCount, r.destroyRow i = some [.row i, .nullRow i] := by
    intro i hi
    rw [List.mem_range] at hi
    have hi₁ : i < rows.length := by omega
    have hi₂ : i < nulls.length := by omega
    unfold Result.destroyRow
    simp [hrows, hnulls, Member.get?, hi₁, hi₂]
  have hlines := mapM_eq_some_map hline
  refine ⟨[.columnNames, .columnTypes] ++
    ((List.range r.rowCount).map fun i => [.row i, .nullRow i]).flatten ++
    [.rows, .nullRowValues], ?_, ?_⟩
  · unfold Result.destroy
    rw [if_neg (by omega), hnames, htypes]
    simp only [Member.delete, Option.bind_eq_bind, Option.bind_some]
    rw [if_neg (by omega), hlines, hrows, hnulls]
    rfl
  · have hrange : ((List.range r.rowCount).flatMap fun i => [Allocation.row i, .nullRow i]).Perm
        ((List.range r.rowCount).map .row ++ (List.range r.rowCount).map .nullRow) := by
      have hsplit := List.flatMap_append_perm (List.range r.rowCount) (fun i => [Allocation.row i])
        (fun i => [Allocation.nullRow i])
      rw [← List.map_eq_flatMap, ← List.map_eq_flatMap] at hsplit
      exact hsplit.symm
    unfold Result.allocations
    rw [hnames, htypes, hrows, hnulls, ← List.flatMap_def, List.append_assoc]
    simp only [Member.arrays, hlen, hlen']
    refine List.Perm.append_left _ ((hrange.append_right _).trans ?_)
    rw [List.perm_iff_count]
    intro a
    simp only [List.count_append, List.count_cons, List.count_nil]
    omega

/-! ### What the constructors have assigned -/

/-- The members that are read after a response are assigned. -/
structure Result.Assigned (r : Result) : Prop where
  lastID : ∃ n, r.iLastID = .set n
  affected : ∃ n, r.iAffected = .set n
  rows : 0 < r.rowCount → ∃ rows, r.rows = .set rows
  frees : r.Frees

theorem assigned_started (mem : Storage) (strError : Loc) (cause : Diag)
    (lastID affected : UInt64) : (Result.started mem strError cause lastID affected).Assigned :=
  ⟨⟨_, rfl⟩, ⟨_, rfl⟩, fun h => absurd h (Nat.lt_irrefl 0), frees_of_nothing rfl rfl⟩

/-- Rows that fit are written into the arrays of `Resize`. -/
theorem assigned_fill {mem : Storage} {strError : Loc} {cause : Diag} {lastID affected : UInt64}
    {fields : List Field} {n : ℕ} {rowCount : ℤ} {rows : List Row} (hn : 0 < n)
    (h : (Result.started mem strError cause lastID affected).resize n rowCount = some r)
    (hrows : rows.length ≤ r.rowCount) : (r.fill fields rows).Assigned := by
  rw [Result.resize, if_neg (by omega)] at h
  split at h
  · cases h
    exact ⟨⟨_, rfl⟩, ⟨_, rfl⟩, fun h => absurd h (Nat.lt_irrefl 0),
      frees_of_columns hn rfl rfl rfl rfl rfl⟩
  · split at h
    · cases h
    · cases h
      have hrows : rows.length ≤ rowCount.toNat := hrows
      have hlen : ∀ {β γ : Type} (f : Row → β) (line : γ) (old : List β),
          old.length = rowCount.toNat →
          (rows.map f ++ old.drop (rows.map f).length).length = rowCount.toNat := by
        intro β γ f line old hold
        rw [List.length_append, List.length_drop, List.length_map, hold]
        omega
      refine ⟨⟨_, rfl⟩, ⟨_, rfl⟩, fun _ => ⟨_, rfl⟩, frees_of_rows hn ?_ rfl rfl rfl ?_ rfl ?_⟩
      · have : 0 < rowCount.toNat := by omega
        exact this
      · exact hlen _ () _ (by simp)
      · exact hlen _ () _ (by simp)

theorem assigned_failAt (h : r.Assigned) (handle : HandleId) (d : Option Diag) :
    (r.failAt handle d).Assigned := by
  cases d with
  | none => exact h
  | some d => exact ⟨h.lastID, h.affected, h.rows, h.frees⟩

theorem assigned_ofResultSet {mem : Storage} {strError : Loc} {cause : Diag}
    {lastID affected : UInt64} {result : ResultSet}
    (h : (Result.started mem strError cause lastID affected).ofResultSet result = some r) :
    r.Assigned := by
  have hpos := fields_pos result
  rw [Result.ofResultSet, if_neg (by omega), toInt_of_lt result.fields_lt] at h
  obtain ⟨r₁, hresize, rfl⟩ := Option.map_eq_some_iff.mp h
  exact assigned_fill (List.length_pos_iff.mpr result.fields_ne) hresize (List.length_take_le _ _)

theorem assigned_ofStored {mem : Storage} {strError : Loc} {cause : Diag} {lastID affected : UInt64}
    {handle : HandleId} {result : StoredResult}
    (h : (Result.started mem strError cause lastID affected).ofStored handle result = some r) :
    r.Assigned := by
  have hpos := fields_pos result.toResultSet
  rw [Result.ofStored, if_neg (by omega), toInt_of_lt result.fields_lt] at h
  obtain ⟨r₁, hresize, rfl⟩ := Option.map_eq_some_iff.mp h
  refine assigned_failAt (assigned_fill (List.length_pos_iff.mpr result.fields_ne) hresize ?_) _ _
  exact ((fetched_sublist result _ 0).length_le).trans (List.length_take_le _ _)

theorem assigned_resultOfMySQL (h : (resultOfMySQL lib).run w = .ok r w') : r.Assigned := by
  obtain ⟨mem, lastID, affected, v, -, hrun⟩ := resultOfMySQL_run lib w
  have hreply := orThrow_eq_ok (hrun.symm.trans h)
  cases hstore : lib.storeResult (w.calls .storeResult) with
  | stored result =>
      rw [hstore] at hreply
      exact assigned_ofResultSet hreply
  | _ =>
      rw [hstore] at hreply
      cases hreply
      exact assigned_started _ _ _ _ _

theorem assigned_resultOfStatement {handle : HandleId}
    (h : (resultOfStatement lib handle).run w = .ok r w') : r.Assigned := by
  obtain ⟨mem, lastID, affected, v, -, -, hrun⟩ := resultOfStatement_run lib handle w
  have hmetadata := orThrow_eq_ok (hrun.symm.trans h)
  cases hmeta : lib.stmtResultMetadata (w.calls .stmtResultMetadata) with
  | none =>
      rw [hmeta] at hmetadata
      cases hmetadata
      exact assigned_started _ _ _ _ _
  | some result =>
      rw [hmeta] at hmetadata
      exact assigned_ofStored hmetadata

/-! ### Other contents of the memory -/

/-- A member that was not assigned has other contents. -/
def Member.refill (bits : ℕ) : Member α → Member α
  | .raw _ => .raw bits
  | .set value => .set value

@[simp] theorem get?_refill (bits : ℕ) (m : Member α) : (m.refill bits).get? = m.get? := by
  cases m <;> rfl

@[simp] theorem refill_assign (bits : ℕ) (values : List α) (m : Member (List α)) :
    (m.assign values).refill bits = (m.refill bits).assign values := by
  cases m <;> rfl

@[simp] theorem delete_refill (bits : ℕ) (a : Allocation) (m : Member α) :
    (m.refill bits).delete a = m.delete a := by
  cases m <;> rfl

/-- The members that were not assigned are as another memory has them. -/
def Result.refill (mem : Storage) (r : Result) : Result :=
  { r with
    iLastID := r.iLastID.refill mem.lastID
    iAffected := r.iAffected.refill mem.affected
    columnNames := r.columnNames.refill mem.columnNames
    columnTypes := r.columnTypes.refill mem.columnTypes
    rows := r.rows.refill mem.rows
    nullRowValues := r.nullRowValues.refill mem.nullRowValues }

theorem started_refill (mem mem' : Storage) (strError : Loc) (cause : Diag)
    (lastID affected : UInt64) :
    (Result.started mem strError cause lastID affected).refill mem' =
      .started mem' strError cause lastID affected := rfl

theorem resize_refill (mem : Storage) (r : Result) (colCount rowCount : ℤ) :
    (r.refill mem).resize colCount rowCount =
      (r.resize colCount rowCount).map (Result.refill mem) := by
  unfold Result.resize
  split
  · rfl
  · split
    · rfl
    · split
      · rfl
      · rfl

theorem fill_refill (mem : Storage) (r : Result) (fields : List Field) (rows : List Row) :
    (r.refill mem).fill fields rows = (r.fill fields rows).refill mem := by
  simp only [Result.fill, Result.refill, refill_assign]

theorem failAt_refill (mem : Storage) (r : Result) (handle : HandleId) (d : Option Diag) :
    (r.refill mem).failAt handle d = (r.failAt handle d).refill mem := by
  cases d <;> rfl

theorem orThrow_map (f : Result → Result) (r : Option Result) :
    orThrow (r.map f) = f <$> orThrow r := by
  cases r <;> rfl

theorem ofResultSet_refill (mem : Storage) (r : Result) (result : ResultSet) :
    (r.refill mem).ofResultSet result = (r.ofResultSet result).map (Result.refill mem) := by
  unfold Result.ofResultSet
  split
  · rfl
  · rw [resize_refill]
    cases hr : r.resize (toInt result.fields.length) (toInt result.rows.length) with
    | none => rfl
    | some r₁ => exact congrArg some (fill_refill mem r₁ _ _)

theorem resultOfStored_refill (mem : Storage) (handle : HandleId) (r : Result)
    (result : StoredResult) :
    resultOfStored handle (r.refill mem) result =
      Result.refill mem <$> resultOfStored handle r result := by
  unfold resultOfStored
  split
  · rfl
  · rw [resize_refill]
    cases hr : r.resize (toInt result.fields.length) (toInt result.rows.length) with
    | none => rfl
    | some r₁ =>
        simp only [Option.map_some, orThrow, pure_bind, map_bind, map_pure, fill_refill,
          failAt_refill]
        rfl

/-- The library, on which a new `Result` finds `fill` in its memory. -/
def Lib.filling (lib : Lib) (fill : ℕ → Storage) : Lib := { lib with newResult := fill }

theorem newResult_run (lib : Lib) (w : World) :
    (newResult lib).run w = .ok (lib.newResult (w.calls .newResult)) (w.counted .newResult) :=
  run_map_ok _ (tick_run _ _)

theorem resultOfMySQL_filling (lib : Lib) (fill : ℕ → Storage) (w : World) :
    (resultOfMySQL (lib.filling fill)).run w =
      (Result.refill (fill (w.calls .newResult)) <$> resultOfMySQL lib).run w := by
  have hstore : mysqlStoreResult (lib.filling fill) = mysqlStoreResult lib := rfl
  have hlast : mysqlInsertId (lib.filling fill) = mysqlInsertId lib := rfl
  have haffected : mysqlAffectedRows (lib.filling fill) = mysqlAffectedRows lib := rfl
  unfold resultOfMySQL
  rw [map_bind, run_bind_ok (newResult_run _ w), run_bind_ok (newResult_run lib w), hstore, hlast,
    haffected]
  simp only [map_bind]
  congr 1
  refine bind_congr fun cause => bind_congr fun pResult => bind_congr fun lastID =>
    bind_congr fun affected => ?_
  cases pResult with
  | none => rfl
  | some result =>
      simp only [← orThrow_map, ← ofResultSet_refill]
      rfl

theorem resultOfStatement_filling (lib : Lib) (fill : ℕ → Storage) (handle : HandleId) (w : World) :
    (resultOfStatement (lib.filling fill) handle).run w =
      (Result.refill (fill (w.calls .newResult)) <$> resultOfStatement lib handle).run w := by
  have hlast : mysqlStmtInsertId (lib.filling fill) = mysqlStmtInsertId lib := rfl
  have haffected : mysqlStmtAffectedRows (lib.filling fill) = mysqlStmtAffectedRows lib := rfl
  have hstore : mysqlStmtStoreResult (lib.filling fill) handle =
      mysqlStmtStoreResult lib handle := rfl
  have hmeta : mysqlStmtResultMetadata (lib.filling fill) = mysqlStmtResultMetadata lib := rfl
  unfold resultOfStatement
  rw [map_bind, run_bind_ok (newResult_run _ w), run_bind_ok (newResult_run lib w), hlast,
    haffected, hstore, hmeta]
  simp only [map_bind]
  congr 1
  refine bind_congr fun cause => bind_congr fun lastID => bind_congr fun affected =>
    bind_congr fun _ =>
    bind_congr fun pResult => ?_
  cases pResult with
  | none => rfl
  | some result =>
      simp only [resultOfMetadata]
      rw [← resultOfStored_refill, started_refill]
      rfl

/-! ### Readers -/

theorem destroy_refill (mem : Storage) (r : Result) : (r.refill mem).destroy = r.destroy := by
  have hrow : (r.refill mem).destroyRow = r.destroyRow := by
    funext i
    simp only [Result.destroyRow, Result.refill, get?_refill]
  simp only [Result.destroy, hrow]
  simp only [Result.refill, delete_refill]

theorem populateRow_refill (mem : Storage) (r : Result) (useNumbers : Bool) :
    populateRow (r.refill mem) useNumbers = populateRow r useNumbers := by
  have hcell : ∀ i, populateCell (r.refill mem) useNumbers i = populateCell r useNumbers i := by
    intro i
    funext m c
    simp only [populateCell, pushCell, Result.refill, get?_refill]
  funext m i
  simp only [populateRow, hcell]
  rfl

theorem populateData_of_rowCount (h : r.rowCount = 0) (useNumbers : Bool) (m : Lua) :
    populateData r useNumbers m = m.createTable.setField (-2) (key "data") := by
  unfold populateData
  split
  · rfl
  · rw [h]
    rfl

/-- A pointer that was not assigned is only compared with null, and there is no row behind it. -/
theorem populateData_refill (h : r.Assigned) (mem : Storage) (useNumbers : Bool) (m : Lua) :
    populateData (r.refill mem) useNumbers m = populateData r useNumbers m := by
  by_cases hrow : r.rowCount = 0
  · rw [populateData_of_rowCount hrow, populateData_of_rowCount (r := r.refill mem) hrow]
  · obtain ⟨rows, hrows⟩ := h.rows (Nat.pos_of_ne_zero hrow)
    have hrefill : (r.refill mem).rows = .set rows := by
      simp only [Result.refill, hrows]
      rfl
    have hraw : ¬ (Member.set rows = .raw 0) := fun heq => by cases heq
    unfold populateData
    rw [populateRow_refill, hrefill, hrows, if_neg hraw, if_neg hraw]
    rfl

theorem populateLuaTable_refill (h : r.iError = 0 → r.Assigned) (mem : Storage) (read : Loc → Bytes)
    (useNumbers : Bool) (m : Lua) :
    populateLuaTable read (r.refill mem) useNumbers m = populateLuaTable read r useNumbers m := by
  have herror : (r.refill mem).iError = r.iError := rfl
  have hstr : (r.refill mem).strError = r.strError := rfl
  unfold populateLuaTable
  rw [herror, hstr]
  by_cases hok : r.iError = 0
  · obtain ⟨lastID, hlastID⟩ := (h hok).lastID
    obtain ⟨affected, haffected⟩ := (h hok).affected
    have hlastID' : (r.refill mem).iLastID = r.iLastID := by
      simp only [Result.refill, hlastID]
      rfl
    have haffected' : (r.refill mem).iAffected = r.iAffected := by
      simp only [Result.refill, haffected]
      rfl
    simp only [hlastID', haffected', populateData_refill (h hok)]
  · simp only [ne_eq, hok, not_false_eq_true, if_true]

/-! ### Both at once -/

/-- A result and one that found other contents in its memory fill a table in the same way and free
the same arrays, which are those that were allocated. -/
structure Result.Twins (r r' : Result) : Prop where
  populates : ∀ read useNumbers m,
    Handler.populateLuaTable read r useNumbers m = Handler.populateLuaTable read r' useNumbers m
  follows : ∀ read useNumbers (m : Lua) e rest, m.stack = .table e :: rest → e < m.nextTable →
    ∃ m', Handler.populateLuaTable read r useNumbers m = some m'
  destroys : r.destroy = r'.destroy
  frees : r.Frees

theorem twins_refill (hbuilt : r.Constructed) (h : r.iError = 0 → r.Assigned) (hfrees : r.Frees)
    (mem : Storage) : r.Twins (r.refill mem) := by
  refine ⟨fun read useNumbers m => ?_, fun read useNumbers m e rest hm he => ?_, ?_, hfrees⟩
  · exact (populateLuaTable_refill h mem read useNumbers m).symm
  · obtain ⟨rt, hrt⟩ := hbuilt.readable.populateLuaTable read useNumbers
    obtain ⟨m', data, hrun, -⟩ := populateLuaTable_run hrt hm he
    exact ⟨m', hrun⟩
  · exact (destroy_refill mem r).symm

/-- **Members that were not assigned never matter.** A constructor that finds other contents in
its memory ends in the same way, and its result is not told apart. -/
theorem unset_members_unused :
    (∀ (mem mem' : Storage) (errNo : ℕ) (errStr : Loc) (cause : Diag), errNo ≠ 0 →
      (Result.ofError mem errNo errStr cause).Twins (.ofError mem' errNo errStr cause)) ∧
    (∀ (lib : Lib) (fill : ℕ → Storage) (w w' : World) (r : Result),
      (resultOfMySQL lib).run w = .ok r w' →
      ∃ r', (resultOfMySQL (lib.filling fill)).run w = .ok r' w' ∧ r.Twins r') ∧
    ∀ (lib : Lib) (fill : ℕ → Storage) (handle : HandleId) (w w' : World) (r : Result),
      (resultOfStatement lib handle).run w = .ok r w' →
        ∃ r', (resultOfStatement (lib.filling fill) handle).run w = .ok r' w' ∧ r.Twins r' := by
  refine ⟨fun mem mem' errNo errStr cause hne => ?_, fun lib fill w w' r h => ?_,
    fun lib fill handle w w' r h => ?_⟩
  · exact twins_refill (.ofError mem errNo errStr cause) (fun hzero => absurd hzero hne)
      (frees_of_nothing rfl rfl) mem'
  · have hassigned := assigned_resultOfMySQL h
    refine ⟨r.refill (fill (w.calls .newResult)), ?_,
      twins_refill (.ofMySQL h) (fun _ => hassigned) hassigned.frees _⟩
    rw [resultOfMySQL_filling]
    exact run_map_ok _ h
  · have hassigned := assigned_resultOfStatement h
    refine ⟨r.refill (fill (w.calls .newResult)), ?_,
      twins_refill (.ofStatement h) (fun _ => hassigned) hassigned.frees _⟩
    rw [resultOfStatement_filling]
    exact run_map_ok _ h

/-- A response whose only row cannot be fetched. -/
def brokenOff : StoredResult := oneRow .noData 2 (fun h => absurd h FetchReply.noConfusion)

/-- The result of a fetch that breaks off, in two memories. -/
theorem unset_members_unused_brokenOff : ∃ r r' w',
    (resultOfStatement (.answering brokenOff) 0).run (.opened ⟨[], [], [], [], 3306, [], 0⟩) =
      .ok r w' ∧
    (resultOfStatement ((Lib.answering brokenOff).filling fun _ => ⟨1, 2, 3, 4, 5, 6⟩) 0).run
      (.opened ⟨[], [], [], [], 3306, [], 0⟩) = .ok r' w' ∧ r.Twins r' := by
  obtain ⟨r, w', hrun⟩ : ∃ r w', (resultOfStatement (.answering brokenOff) 0).run
      (.opened ⟨[], [], [], [], 3306, [], 0⟩) = .ok r w' :=
        resultOfStatement_ok _ 0 rfl (by decide : FitsInt 1)
  obtain ⟨r', hrun', htwins⟩ :=
    unset_members_unused.2.2 _ (fun _ => ⟨1, 2, 3, 4, 5, 6⟩) 0 _ w' r hrun
  exact ⟨r, r', w', hrun, hrun', htwins⟩

end Tmysql4.Handler
