import Tmysql4.Executions

/-! # What the result loops collect

The specifications of the constructors for a response and of the bodies of the two result loops.
A constructor throws only when a row count does not fit an `int` and comes out negative
(`FitsInt`); the buffers of the fetch loop hold every row that is fetched (`fetchRows_run`). -/

namespace Tmysql4.Handler

open Imperative

variable {lib : Lib} {w w' w₀ : World} {h : HandleId} {fns : List Fn}

/-! ### Counts -/

theorem toInt_of_lt {n : ℕ} (h : n < 2 ^ 31) : toInt n = n :=
  Int.bmod_eq_of_le_mul_two (by omega) (by omega)

theorem toInt_lt (n : ℕ) : toInt n < 2 ^ 31 := Int.bmod_lt (by decide)

/-- The number of rows does not come out negative. -/
def FitsInt (n : ℕ) : Prop := 0 ≤ toInt n

instance (n : ℕ) : Decidable (FitsInt n) := inferInstanceAs (Decidable (_ ≤ _))

theorem fields_pos (result : ResultSet) : 0 < toInt result.fields.length := by
  rw [toInt_of_lt result.fields_lt]
  exact_mod_cast List.length_pos_iff.mpr result.fields_ne

theorem resize_eq_none_iff (r : Result) (result : ResultSet) :
    r.resize (toInt result.fields.length) (toInt result.rows.length) = none ↔
      ¬ FitsInt result.rows.length := by
  have hpos := fields_pos result
  rw [Result.resize, if_neg (by omega)]
  unfold FitsInt
  split
  · rename_i hzero
    simp [hzero]
  · split
    · rename_i hneg
      simp
      omega
    · rename_i hneg
      simp
      omega

/-! ### The fetch loop -/

theorem receive_read {b : OutBind} {n : ℕ} {cell : Option Bytes} (hb : b.buffer.length = n)
    (hfits : ∀ text, cell = some text → text.length ≤ n) :
    (b.receive cell).read = some cell ∧ (b.receive cell).buffer.length = n := by
  cases cell with
  | none => exact ⟨rfl, hb⟩
  | some text =>
      have hlen := hfits text rfl
      constructor
      · simp [OutBind.receive, OutBind.read, hb, hlen, List.take_of_length_le]
      · simp [OutBind.receive, hb, hlen]

/-- The buffers have the sizes of the columns. -/
def Sized (binds : List OutBind) (fields : List Field) : Prop :=
  List.Forall₂ (fun b field => b.buffer.length = field.maxLength) binds fields

theorem receive_row {binds : List OutBind} {fields : List Field} {row : Row}
    (hb : Sized binds fields) (hfits : Fits fields row) :
    (List.zipWith OutBind.receive binds row).mapM OutBind.read = some row ∧
      Sized (List.zipWith OutBind.receive binds row) fields := by
  induction hb generalizing row with
  | nil =>
      cases hfits
      exact ⟨rfl, .nil⟩
  | cons hhead _ ih =>
      cases hfits with
      | cons hcell hrest =>
          obtain ⟨hread, hlen⟩ := receive_read hhead hcell
          obtain ⟨hreads, hsized⟩ := ih hrest
          refine ⟨?_, .cons hlen hsized⟩
          simp [hread, hreads]

/-- **The fetch loop.** With buffers of the sizes of the columns the loop reads the rows that are
fetched as the server sent them. -/
theorem fetchRows_run {result : StoredResult} {rows : List Row} {i : ℕ} {binds : List OutBind}
    (hrows : rows <+: result.rows.drop i) (hb : Sized binds result.fields) (w : World) :
    ∃ w', (fetchRows h result rows i binds).run w = .ok (fetched result rows i) w' := by
  induction rows generalizing i binds w with
  | nil => exact ⟨w, rfl⟩
  | cons row rows ih =>
      have hrow : result.rows[i]? = some row := by
        obtain ⟨rest, hrest⟩ := hrows
        rw [← List.head?_drop, ← hrest]
        rfl
      have hrows' : rows <+: result.rows.drop (i + 1) := by
        obtain ⟨rest, hrest⟩ := hrows
        refine ⟨rest, ?_⟩
        rw [← List.tail_drop, ← hrest]
        rfl
      rw [fetchRows, run_bind_ok (mysqlStmtFetch_run h result i w), fetched]
      cases hfetch : result.fetch i with
      | fetched =>
          obtain ⟨hi, hget⟩ := List.getElem?_eq_some_iff.mp hrow
          obtain ⟨hread, hsized⟩ := receive_row hb (hget ▸ result.fits i hi hfetch)
          obtain ⟨w', hrest⟩ := ih hrows' hsized { w with
            connError := FetchReply.fetched.diag
            handle := Function.update w.handle h
              { w.handle h with error := FetchReply.fetched.diag } }
          rw [if_pos rfl]
          simp only [hread]
          rw [run_bind_ok hrest]
          exact ⟨w', rfl⟩
      | failed e =>
          rw [if_neg (by simp), run_bind_ok (mysqlStmtError_run h _)]
          simp only [Function.update_self]
          exact ⟨_, rfl⟩
      | truncated =>
          rw [if_neg (by simp), run_bind_ok (mysqlStmtError_run h _)]
          simp only [Function.update_self]
          exact ⟨_, rfl⟩
      | noData =>
          rw [if_neg (by simp), run_bind_ok (mysqlStmtError_run h _)]
          simp only [Function.update_self]
          exact ⟨_, rfl⟩

/-! ### The body of the loop of a text query -/

theorem status_ne (reply : NextReply) : decide (reply.status ≠ -1) = !decide (reply = .noMore) := by
  cases reply <;> rfl

def StoreReply.FitsInt : StoreReply → Prop
  | .stored result => Handler.FitsInt result.rows.length
  | _ => True

instance : DecidablePred StoreReply.FitsInt
  | .stored result => inferInstanceAs (Decidable (Handler.FitsInt result.rows.length))
  | .noResult => inferInstanceAs (Decidable True)
  | .failed _ => inferInstanceAs (Decidable True)

theorem ofReply_eq_none_iff (r : Result) (reply : StoreReply) :
    r.ofReply reply = none ↔ ¬ reply.FitsInt := by
  cases reply with
  | noResult => simp [Result.ofReply, StoreReply.FitsInt]
  | failed e => simp [Result.ofReply, StoreReply.FitsInt]
  | stored result =>
      have hpos := fields_pos result
      rw [Result.ofReply, Result.ofResultSet, if_neg (by omega), Option.map_eq_none_iff,
        resize_eq_none_iff, StoreReply.FitsInt]

theorem mysqlStoreResult_run (lib : Lib) (w : World) :
    ∃ pResult w', (mysqlStoreResult lib).run w = .ok pResult w' ∧
      w'.calls .storeResult = w.calls .storeResult + 1 ∧
      ∀ result, pResult = some result ↔
        lib.storeResult (w.calls .storeResult) = .stored result := by
  rw [mysqlStoreResult, run_bind_ok (tick_run _ _)]
  cases hr : lib.storeResult (w.calls .storeResult) with
  | noResult => exact ⟨none, _, rfl, by simp, by simp⟩
  | failed e => exact ⟨none, _, rfl, by simp, by simp⟩
  | stored result => exact ⟨some result, _, rfl, by simp, by simp⟩

/-- The constructor reads the error before it stores the result. -/
theorem resultOfMySQL_run (lib : Lib) (w : World) :
    ∃ mem lastID affected w', w'.calls .storeResult = w.calls .storeResult + 1 ∧
      (resultOfMySQL lib).run w =
        (orThrow ((Result.started mem .connection w.connError lastID affected).ofReply
          (lib.storeResult (w.calls .storeResult)))).run w' := by
  obtain ⟨pResult, w₁, hstore, hcalls, hresult⟩ := mysqlStoreResult_run lib (w.counted .newResult)
  rw [counted_calls_ne w (by decide)] at hcalls hresult
  refine ⟨lib.newResult (w.calls .newResult), lib.insertId (w₁.calls .insertId),
    lib.affectedRows ((w₁.counted .insertId).calls .affectedRows),
    (w₁.counted .insertId).counted .affectedRows, ?_, ?_⟩
  · rw [counted_calls_ne _ (by decide), counted_calls_ne _ (by decide), hcalls]
  · rw [resultOfMySQL, newResult, run_bind_ok (run_map_ok _ (tick_run _ _)),
      run_bind_ok (mysqlError_run _), run_bind_ok hstore, mysqlInsertId,
      run_bind_ok (run_map_ok _ (tick_run _ _)), mysqlAffectedRows,
      run_bind_ok (run_map_ok _ (tick_run _ _))]
    cases pResult with
    | some result =>
        rw [(hresult result).mp rfl]
        rfl
    | none =>
        cases hr : lib.storeResult (w.calls .storeResult) with
        | stored result => exact absurd ((hresult result).mpr hr) (by simp)
        | noResult => rfl
        | failed e => rfl

theorem mysqlNextResult_run (lib : Lib) (w : World) :
    (mysqlNextResult lib).run w = .ok (lib.nextResult (w.calls .nextResult)).status { w with
      calls := Function.update w.calls .nextResult (w.calls .nextResult + 1)
      connError := diagOf (lib.nextResult (w.calls .nextResult)).error } := rfl

/-- A turn of the loop whose row count fits. -/
theorem nextQueryResult_ok (h : (lib.storeResult (w.calls .storeResult)).FitsInt) :
    ∃ mem lastID affected r w', (nextQueryResult lib).run w =
        .ok (r, !decide (lib.nextResult (w.calls .nextResult) = .noMore)) w' ∧
      (Result.started mem .connection w.connError lastID affected).ofReply
        (lib.storeResult (w.calls .storeResult)) = some r ∧
      w'.calls .storeResult = w.calls .storeResult + 1 ∧
      w'.calls .nextResult = w.calls .nextResult + 1 ∧
      w'.connError = diagOf (lib.nextResult (w.calls .nextResult)).error := by
  obtain ⟨mem, lastID, affected, w₁, hstore, hrun⟩ := resultOfMySQL_run lib w
  cases hr : (Result.started mem .connection w.connError lastID affected).ofReply
      (lib.storeResult (w.calls .storeResult)) with
  | none => exact absurd h ((ofReply_eq_none_iff _ _).mp hr)
  | some r =>
      rw [hr] at hrun
      have hrun' : (resultOfMySQL lib).run w = .ok r w₁ := hrun
      have hnext := (stable_frame.anywhere.resultOfMySQL.ok hrun' (.refl _ _)).calls .nextResult
        (by decide)
      have hstep := mysqlNextResult_run lib w₁
      rw [hnext] at hstep
      obtain ⟨w₂, hstep, hstore₂, hnext₂, herror₂⟩ : ∃ w₂, (mysqlNextResult lib).run w₁ =
          .ok (lib.nextResult (w.calls .nextResult)).status w₂ ∧
          w₂.calls .storeResult = w₁.calls .storeResult ∧
          w₂.calls .nextResult = w.calls .nextResult + 1 ∧
          w₂.connError = diagOf (lib.nextResult (w.calls .nextResult)).error :=
        ⟨_, hstep, by simp, by simp, rfl⟩
      refine ⟨mem, lastID, affected, r, w₂, ?_, hr, ?_, hnext₂, herror₂⟩
      · rw [nextQueryResult, run_bind_ok hrun', run_bind_ok hstep, status_ne]
        rfl
      · rw [hstore₂, hstore]

theorem nextQueryResult_throws (h : ¬ (lib.storeResult (w.calls .storeResult)).FitsInt) :
    ∃ w', (nextQueryResult lib).run w = .error .badArrayNewLength w' := by
  obtain ⟨mem, lastID, affected, w₁, -, hrun⟩ := resultOfMySQL_run lib w
  rw [(ofReply_eq_none_iff _ _).mpr h] at hrun
  exact ⟨w₁, run_bind_error hrun⟩

/-- The result loop of a text query ends: the answers of `mysql_next_result` come to an end, and
the row counts up to there fit. -/
def QueryResultsEnd (lib : Lib) (w : World) : Prop :=
  ∃ n, lib.nextResult (w.calls .nextResult + n) = .noMore ∧
    ∀ i ≤ n, (lib.storeResult (w.calls .storeResult + i)).FitsInt

theorem exists_queryResults_iff (lib : Lib) (w : World) :
    (∃ results w', Iterates (nextQueryResult lib) w results w') ↔ QueryResultsEnd lib w := by
  refine exists_iterates_iff
    (I := fun i v => v.calls .storeResult = w.calls .storeResult + i ∧
      v.calls .nextResult = w.calls .nextResult + i)
    (F := fun i => (lib.storeResult (w.calls .storeResult + i)).FitsInt)
    (L := fun i => lib.nextResult (w.calls .nextResult + i) = .noMore) ?_ ?_ ⟨rfl, rfl⟩
  · rintro i v ⟨hstore, hnext⟩ hfits
    rw [← hstore] at hfits
    obtain ⟨-, -, -, r, v', hrun, -, hstore', hnext', -⟩ := nextQueryResult_ok hfits
    rw [hnext] at hrun
    exact ⟨r, v', hrun, by rw [hstore', hstore, Nat.add_assoc],
      by rw [hnext', hnext, Nat.add_assoc]⟩
  · rintro i v ⟨hstore, hnext⟩ hfits
    rw [← hstore] at hfits
    obtain ⟨v', hrun⟩ := nextQueryResult_throws hfits
    exact ⟨_, v', hrun⟩

/-! ### The body of the loop of a statement -/

/-- The `Result` of a stored statement result, with what is fetched of it. -/
def Result.ofStored (r : Result) (h : HandleId) (result : StoredResult) : Option Result :=
  if toInt result.fields.length = 0 ∧ toInt result.rows.length = 0 then some r
  else
    (r.resize (toInt result.fields.length) (toInt result.rows.length)).map fun r =>
      (r.fill (result.fields.take r.colCount)
        (fetched result (result.rows.take r.rowCount) 0).1).failAt h
        (fetched result (result.rows.take r.rowCount) 0).2

/-- The same for a response without a result set. -/
def Result.ofMetadata (r : Result) (h : HandleId) : Option StoredResult → Option Result
  | none => some r
  | some result => r.ofStored h result

def MetadataFitsInt : Option StoredResult → Prop
  | none => True
  | some result => FitsInt result.rows.length

theorem ofMetadata_eq_none_iff (r : Result) (h : HandleId) (metadata : Option StoredResult) :
    r.ofMetadata h metadata = none ↔ ¬ MetadataFitsInt metadata := by
  cases metadata with
  | none => simp [Result.ofMetadata, MetadataFitsInt]
  | some result =>
      have hpos := fields_pos result.toResultSet
      rw [Result.ofMetadata, Result.ofStored, if_neg (by omega), Option.map_eq_none_iff,
        resize_eq_none_iff, MetadataFitsInt]

theorem sized_new (fields : List Field) :
    Sized (fields.map fun field => ⟨List.replicate field.maxLength 0, 0, false⟩) fields := by
  induction fields with
  | nil => exact .nil
  | cons field fields ih => exact .cons (List.length_replicate) ih

theorem final_orThrow (r : Option Result) (w : World) : final ((orThrow r).run w) = w := by
  cases r <;> rfl

theorem resultOfStored_run (h : HandleId) (r : Result) (result : StoredResult) (w : World) :
    ∃ w', w'.calls = w.calls ∧
      (resultOfStored h r result).run w = (orThrow (r.ofStored h result)).run w' := by
  have hrun : ∃ w', (resultOfStored h r result).run w = (orThrow (r.ofStored h result)).run w' := by
    rw [resultOfStored, Result.ofStored]
    split
    · exact ⟨w, rfl⟩
    · cases hr : r.resize (toInt result.fields.length) (toInt result.rows.length) with
      | none => exact ⟨w, rfl⟩
      | some r =>
          have hprefix : result.rows.take r.rowCount <+: result.rows.drop 0 := by
            rw [List.drop_zero]
            exact List.take_prefix _ _
          obtain ⟨w', hfetch⟩ := fetchRows_run (h := h) hprefix (sized_new result.fields) w
          refine ⟨w', ?_⟩
          have hsome : (orThrow (some r)).run w = .ok r w := rfl
          rw [run_bind_ok hsome, run_bind_ok hfetch]
          rfl
  obtain ⟨w', hrun⟩ := hrun
  have hframe : Frame [] w (final ((resultOfStored h r result).run w)) :=
    stable_frame.anywhere.resultOfStored trivial r result w (.refl _ _)
  rw [hrun, final_orThrow] at hframe
  exact ⟨w', funext fun f => hframe.calls f (List.not_mem_nil), hrun⟩

theorem resultOfMetadata_run (h : HandleId) (r : Result) (metadata : Option StoredResult)
    (w : World) : ∃ w', w'.calls = w.calls ∧
      (resultOfMetadata h r metadata).run w = (orThrow (r.ofMetadata h metadata)).run w' := by
  cases metadata with
  | none => exact ⟨w, rfl, rfl⟩
  | some result => exact resultOfStored_run h r result w

theorem mysqlStmtStoreResult_run (lib : Lib) (h : HandleId) (w : World) :
    ∃ w', (mysqlStmtStoreResult lib h).run w = .ok () w' ∧
      (w'.handle h).error = diagOf (lib.stmtStoreResult (w.calls .stmtStoreResult)) ∧
      Frame [.stmtStoreResult] w w' ∧
      w'.calls .stmtStoreResult = w.calls .stmtStoreResult + 1 := by
  have hrun : ∃ w', (mysqlStmtStoreResult lib h).run w = .ok () w' ∧
      (w'.handle h).error = diagOf (lib.stmtStoreResult (w.calls .stmtStoreResult)) ∧
      w'.calls .stmtStoreResult = w.calls .stmtStoreResult + 1 := by
    rw [mysqlStmtStoreResult, run_bind_ok (tick_run _ _)]
    exact ⟨_, reportStmt_run h _ _, by simp, by simp⟩
  obtain ⟨w', hok, herror, hcalls⟩ := hrun
  exact ⟨w', hok, herror,
    (stable_frame.anywhere.mysqlStmtStoreResult (by decide) trivial).ok hok (.refl _ _), hcalls⟩

/-- The constructor reads the error before it stores the result. -/
theorem resultOfStatement_run (lib : Lib) (h : HandleId) (w : World) :
    ∃ mem lastID affected w', w'.calls .stmtResultMetadata = w.calls .stmtResultMetadata + 1 ∧
      w'.calls .stmtStoreResult = w.calls .stmtStoreResult + 1 ∧
      (resultOfStatement lib h).run w =
        (orThrow ((Result.started mem (.handle h) (w.handle h).error lastID affected).ofMetadata h
          (lib.stmtResultMetadata (w.calls .stmtResultMetadata)))).run w' := by
  let w₁ := ((w.counted .newResult).counted .stmtInsertId).counted .stmtAffectedRows
  obtain ⟨w₂, hstore, -, hframe, hcalls⟩ := mysqlStmtStoreResult_run lib h w₁
  have hmeta : w₂.calls .stmtResultMetadata = w.calls .stmtResultMetadata := by
    rw [hframe.calls _ (by decide), counted_calls_ne _ (by decide), counted_calls_ne _ (by decide),
      counted_calls_ne _ (by decide)]
  have hstore' : w₂.calls .stmtStoreResult = w.calls .stmtStoreResult + 1 := by
    rw [hcalls, counted_calls_ne _ (by decide), counted_calls_ne _ (by decide),
      counted_calls_ne _ (by decide)]
  obtain ⟨w', hcalls', hrun⟩ := resultOfMetadata_run h
    (.started (lib.newResult (w.calls .newResult)) (.handle h) (w.handle h).error
      (lib.stmtInsertId ((w.counted .newResult).calls .stmtInsertId))
      (lib.stmtAffectedRows
        (((w.counted .newResult).counted .stmtInsertId).calls .stmtAffectedRows)))
    (lib.stmtResultMetadata (w₂.calls .stmtResultMetadata)) (w₂.counted .stmtResultMetadata)
  rw [hmeta] at hrun
  refine ⟨_, _, _, w', ?_, ?_, Eq.trans ?_ hrun⟩
  · rw [hcalls', counted_calls, hmeta]
  · rw [hcalls', counted_calls_ne _ (by decide), hstore']
  · rw [resultOfStatement, newResult, run_bind_ok (run_map_ok _ (tick_run _ _)),
      run_bind_ok (mysqlStmtError_run h _), mysqlStmtInsertId,
      run_bind_ok (run_map_ok _ (tick_run _ _)), mysqlStmtAffectedRows,
      run_bind_ok (run_map_ok _ (tick_run _ _)), run_bind_ok hstore, mysqlStmtResultMetadata,
        run_bind_ok (run_map_ok _ (tick_run _ _)), hmeta]
    rfl

theorem mysqlStmtNextResult_run (lib : Lib) (h : HandleId) (w : World) :
    ∃ w', (mysqlStmtNextResult lib h).run w =
      .ok (lib.stmtNextResult (w.calls .stmtNextResult)).status w' ∧
      w'.calls = (w.counted .stmtNextResult).calls := by
  rw [mysqlStmtNextResult, run_bind_ok (tick_run _ _), run_bind_ok (reportStmt_run h _ _)]
  exact ⟨_, rfl, rfl⟩

/-- A turn of the loop whose row count fits. -/
theorem nextStatementResult_ok (h : HandleId)
    (hfits : MetadataFitsInt (lib.stmtResultMetadata (w.calls .stmtResultMetadata))) :
    ∃ mem lastID affected r w', (nextStatementResult lib h).run w =
        .ok (r, !decide (lib.stmtNextResult (w.calls .stmtNextResult) = .noMore)) w' ∧
      (Result.started mem (.handle h) (diagOf (lib.stmtStoreResult (w.calls .stmtStoreResult)))
        lastID affected).ofMetadata h (lib.stmtResultMetadata (w.calls .stmtResultMetadata)) =
          some r ∧
      w'.calls .stmtStoreResult = w.calls .stmtStoreResult + 2 ∧
      w'.calls .stmtResultMetadata = w.calls .stmtResultMetadata + 1 ∧
      w'.calls .stmtNextResult = w.calls .stmtNextResult + 1 := by
  obtain ⟨w₁, hstore, herror, hframe, hcalls⟩ := mysqlStmtStoreResult_run lib h w
  obtain ⟨mem, lastID, affected, w₂, hmeta, hstored, hrun⟩ := resultOfStatement_run lib h w₁
  rw [herror, hframe.calls .stmtResultMetadata (by decide)] at hrun
  rw [hframe.calls .stmtResultMetadata (by decide)] at hmeta
  cases hr : (Result.started mem (.handle h)
    (diagOf (lib.stmtStoreResult (w.calls .stmtStoreResult)))
      lastID affected).ofMetadata h (lib.stmtResultMetadata (w.calls .stmtResultMetadata)) with
  | none => exact absurd hfits ((ofMetadata_eq_none_iff _ _ _).mp hr)
  | some r =>
      rw [hr] at hrun
      have hrun' : (resultOfStatement lib h).run w₁ = .ok r w₂ := hrun
      have hnext : w₂.calls .stmtNextResult = w.calls .stmtNextResult :=
        (((stable_frame.anywhere.resultOfStatement trivial).ok hrun' (.refl _ _)).calls _
          (by decide)).trans (hframe.calls _ (by decide))
      obtain ⟨w₃, hstep, hcalls₃⟩ := mysqlStmtNextResult_run lib h w₂
      rw [hnext] at hstep
      refine ⟨mem, lastID, affected, r, w₃, ?_, hr, ?_, ?_, ?_⟩
      · rw [nextStatementResult, run_bind_ok hstore, run_bind_ok hrun', run_bind_ok hstep,
          status_ne]
        rfl
      · rw [hcalls₃, counted_calls_ne _ (by decide), hstored, hcalls]
      · rw [hcalls₃, counted_calls_ne _ (by decide), hmeta]
      · rw [hcalls₃, counted_calls, hnext]

theorem nextStatementResult_throws (h : HandleId)
    (hfits : ¬ MetadataFitsInt (lib.stmtResultMetadata (w.calls .stmtResultMetadata))) :
    ∃ w', (nextStatementResult lib h).run w = .error .badArrayNewLength w' := by
  obtain ⟨w₁, hstore, herror, hframe, hcalls⟩ := mysqlStmtStoreResult_run lib h w
  obtain ⟨mem, lastID, affected, w₂, -, -, hrun⟩ := resultOfStatement_run lib h w₁
  rw [hframe.calls .stmtResultMetadata (by decide),
    (ofMetadata_eq_none_iff _ _ _).mpr hfits] at hrun
  exact ⟨w₂, by rw [nextStatementResult, run_bind_ok hstore, run_bind_error hrun]⟩

/-- The result loop of `Execute` ends: the answers of `mysql_stmt_next_result` come to an end, and
the row counts up to there fit. -/
def StatementResultsEnd (lib : Lib) (w : World) : Prop :=
  ∃ n, lib.stmtNextResult (w.calls .stmtNextResult + n) = .noMore ∧
    ∀ i ≤ n, MetadataFitsInt (lib.stmtResultMetadata (w.calls .stmtResultMetadata + i))

theorem exists_statementResults_iff (lib : Lib) (h : HandleId) (w : World) :
    (∃ results w', Iterates (nextStatementResult lib h) w results w') ↔
      StatementResultsEnd lib w := by
  refine exists_iterates_iff
    (I := fun i v => v.calls .stmtResultMetadata = w.calls .stmtResultMetadata + i ∧
      v.calls .stmtNextResult = w.calls .stmtNextResult + i)
    (F := fun i => MetadataFitsInt (lib.stmtResultMetadata (w.calls .stmtResultMetadata + i)))
    (L := fun i => lib.stmtNextResult (w.calls .stmtNextResult + i) = .noMore) ?_ ?_ ⟨rfl, rfl⟩
  · rintro i v ⟨hmeta, hnext⟩ hfits
    rw [← hmeta] at hfits
    obtain ⟨-, -, -, r, v', hrun, -, -, hmeta', hnext'⟩ := nextStatementResult_ok h hfits
    rw [hnext] at hrun
    exact ⟨r, v', hrun, by rw [hmeta', hmeta, Nat.add_assoc], by rw [hnext', hnext, Nat.add_assoc]⟩
  · rintro i v ⟨hmeta, hnext⟩ hfits
    rw [← hmeta] at hfits
    obtain ⟨v', hrun⟩ := nextStatementResult_throws h hfits
    exact ⟨_, v', hrun⟩

end Tmysql4.Handler
