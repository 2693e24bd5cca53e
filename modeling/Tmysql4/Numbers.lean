import Tmysql4.Fetching
import Tmysql4.Rounding

/-! # The numbers that an entry tells

`mysql_insert_id` and `mysql_affected_rows` give 64-bit integers, which the constructors of
`Result` keep as doubles and `PopulateLuaTable` pushes.

* `carries_resultOfMySQL`, `carries_resultOfStatement`: every constructor asks once for each
  number, and for its own response.
* `carries_iterates`: so the turns of a result loop keep the answers in step with the results.
* `numbers_told`: the entry with number `i` tells the answers with
  that number, as the nearest doubles; the number of affected rows
  is told as `-1` from `2 ^ 64 - 1024` on, and nowhere else. -/

namespace Tmysql4.Handler

open Imperative Rounding

variable {lib : Lib} {w w' : World} {s : StmtId} {binds : List Bind} {action : DatabaseAction}
  {query : Bytes} {r : Result} {lastID affected : UInt64}

/-! ### Doubles -/

/-- `d` is a double, none is closer to the integer `n`, and
it is `n` itself where the doubles have no gaps. -/
structure Converts (n : ℕ) (d : ℤ) : Prop where
  nearest : ∃ k ∈ Format 53, d = k ∧ (∀ m ∈ Format 53, Nat.dist k n ≤ Nat.dist m n) ∧
    Nat.dist k n * 2 ^ 53 ≤ n
  exact : n ≤ 2 ^ 53 → d = n

theorem toDouble_eq_roundTo (n : UInt64) : toDouble n = roundTo 53 n.toNat := by
  unfold toDouble roundTo nearestEven
  rw [Nat.add_sub_add_right n.toNat.log2 1 52]

theorem converts_toDouble (n : UInt64) : Converts n.toNat (toDouble n) := by
  rw [toDouble_eq_roundTo]
  refine ⟨⟨roundTo 53 n.toNat, ?_, rfl, fun m hm => ?_, ?_⟩, fun hle => ?_⟩
  · exact roundTo_mem_format (by decide) n.toNat
  · exact roundTo_nearest (by decide) n.toNat hm
  · exact roundTo_error (by decide) n.toNat
  · have hmem : n.toNat ∈ Format 53 := mem_format_of_le (by decide) hle
    rw [(roundTo_eq_self_iff (by decide)).mpr hmem]

/-- The first integer that is not a double. -/
example : toDouble 9007199254740993 = 9007199254740992 := by decide

/-- The integers that are converted to the same double as `(uint64_t)-1`. -/
theorem toDouble_eq_minus_one_iff (n : UInt64) :
    toDouble n = toDouble (-1) ↔ 2 ^ 64 - 1024 ≤ n.toNat := by
  have hminus : toDouble (-1) = 2 ^ 64 := by decide
  rw [hminus, toDouble_eq_roundTo]
  constructor
  · intro heq
    by_contra hlt
    have hround : roundTo 53 n.toNat ≤ roundTo 53 (2 ^ 64 - 1025) :=
      roundTo_mono (by decide) (by omega)
    have hbelow : roundTo 53 (2 ^ 64 - 1025) < 2 ^ 64 := by decide
    omega
  · intro hle
    have hlow : roundTo 53 (2 ^ 64 - 1024) ≤ roundTo 53 n.toNat := roundTo_mono (by decide) hle
    have hhigh : roundTo 53 n.toNat ≤ roundTo 53 (2 ^ 64) :=
      roundTo_mono (by decide) (Nat.le_of_lt n.toNat_lt)
    have hlow' : roundTo 53 (2 ^ 64 - 1024) = 2 ^ 64 := by decide
    have hhigh' : roundTo 53 (2 ^ 64) = 2 ^ 64 := by decide
    omega

/-! ### The members of a result -/

/-- The members hold these answers. -/
structure Result.Carries (r : Result) (lastID affected : UInt64) : Prop where
  lastID : r.iLastID = .set (toDouble lastID)
  affected : r.iAffected = .set (toDouble affected)

theorem carries_started (mem : Storage) (strError : Loc) (cause : Diag) (lastID affected : UInt64) :
    (Result.started mem strError cause lastID affected).Carries lastID affected := ⟨rfl, rfl⟩

theorem Result.Carries.resize {r' : Result} {colCount rowCount : ℤ} (h : r.Carries lastID affected)
    (hresize : r.resize colCount rowCount = some r') : r'.Carries lastID affected := by
  unfold Result.resize at hresize
  split at hresize
  · cases hresize
  · dsimp only at hresize
    split at hresize
    · cases hresize
      exact ⟨h.lastID, h.affected⟩
    · split at hresize
      · cases hresize
      · cases hresize
        exact ⟨h.lastID, h.affected⟩

theorem Result.Carries.ofResultSet {r' : Result} {result : ResultSet}
    (h : r.Carries lastID affected) (hset : r.ofResultSet result = some r') :
    r'.Carries lastID affected := by
  unfold Result.ofResultSet at hset
  split at hset
  · cases hset
    exact h
  · obtain ⟨r₁, hresize, rfl⟩ := Option.map_eq_some_iff.mp hset
    have hkept := h.resize hresize
    exact ⟨hkept.lastID, hkept.affected⟩

theorem Result.Carries.failAt (h : r.Carries lastID affected) (handle : HandleId)
    (d : Option Diag) : (r.failAt handle d).Carries lastID affected := by
  cases d with
  | none => exact h
  | some d => exact ⟨h.lastID, h.affected⟩

theorem Result.Carries.ofMetadata {r' : Result} {handle : HandleId} {metadata : Option StoredResult}
    (h : r.Carries lastID affected) (hmetadata : r.ofMetadata handle metadata = some r') :
    r'.Carries lastID affected := by
  cases metadata with
  | none =>
      cases hmetadata
      exact h
  | some result =>
      rw [Result.ofMetadata, Result.ofStored] at hmetadata
      split at hmetadata
      · cases hmetadata
        exact h
      · obtain ⟨r₁, hresize, heq⟩ := Option.map_eq_some_iff.mp hmetadata
        rw [← heq]
        have hkept := h.resize hresize
        apply Result.Carries.failAt
        exact ⟨hkept.lastID, hkept.affected⟩

/-! ### The constructors -/

theorem orThrow_state {result : Option Result} (h : (orThrow result).run w = .ok r w') :
    w' = w := by
  have hfinal := final_orThrow result w
  rw [h] at hfinal
  exact hfinal

theorem mysqlStoreResult_calls {f : Fn} {pResult : Option ResultSet}
    (h : (mysqlStoreResult lib).run w = .ok pResult w') (hf : f ∉ [Fn.storeResult]) :
    w'.calls f = w.calls f :=
  (stable_frame.anywhere.mysqlStoreResult (by decide)).ok h (.refl [.storeResult] w) |>.calls f hf

/-- The constructor asks for each number once. -/
theorem carries_resultOfMySQL (h : (resultOfMySQL lib).run w = .ok r w') :
    r.Carries (lib.insertId (w.calls .insertId)) (lib.affectedRows (w.calls .affectedRows)) ∧
      w'.calls .insertId = w.calls .insertId + 1 ∧
        w'.calls .affectedRows = w.calls .affectedRows + 1 := by
  rw [resultOfMySQL, newResult, run_bind_ok (run_map_ok _ (tick_run _ _)),
    run_bind_ok (mysqlError_run _), run_bind_eq_ok_iff] at h
  obtain ⟨pResult, w₁, hstore, h⟩ := h
  have hid : w₁.calls .insertId = w.calls .insertId := by
    rw [mysqlStoreResult_calls hstore (by decide), counted_calls_ne w (by decide)]
  have hrows : w₁.calls .affectedRows = w.calls .affectedRows := by
    rw [mysqlStoreResult_calls hstore (by decide), counted_calls_ne w (by decide)]
  rw [mysqlInsertId, run_bind_ok (run_map_ok _ (tick_run _ _)), mysqlAffectedRows,
    run_bind_ok (run_map_ok _ (tick_run _ _)), counted_calls_ne w₁ (by decide), hid, hrows] at h
  have hcalls : ((w₁.counted .insertId).counted .affectedRows).calls .insertId =
      w.calls .insertId + 1 ∧
      ((w₁.counted .insertId).counted .affectedRows).calls .affectedRows =
        w.calls .affectedRows + 1 := by
    constructor
    · rw [counted_calls_ne _ (by decide), counted_calls, hid]
    · rw [counted_calls, counted_calls_ne _ (by decide), hrows]
  cases pResult with
  | none =>
      cases h
      exact ⟨carries_started _ _ _ _ _, hcalls⟩
  | some result =>
      rw [← orThrow_state h] at hcalls
      exact ⟨(carries_started _ _ _ _ _).ofResultSet (orThrow_eq_ok h), hcalls⟩

/-- So does the one for statements, before it stores the result. -/
theorem carries_resultOfStatement {handle : HandleId}
    (h : (resultOfStatement lib handle).run w = .ok r w') :
    r.Carries (lib.stmtInsertId (w.calls .stmtInsertId))
      (lib.stmtAffectedRows (w.calls .stmtAffectedRows)) ∧
      w'.calls .stmtInsertId = w.calls .stmtInsertId + 1 ∧
      w'.calls .stmtAffectedRows = w.calls .stmtAffectedRows + 1 := by
  rw [resultOfStatement, newResult, run_bind_ok (run_map_ok _ (tick_run _ _)),
    run_bind_ok (mysqlStmtError_run handle _), mysqlStmtInsertId,
    run_bind_ok (run_map_ok _ (tick_run _ _)), mysqlStmtAffectedRows,
      run_bind_ok (run_map_ok _ (tick_run _ _))] at h
  obtain ⟨w₁, hstore, -, hframe, -⟩ := mysqlStmtStoreResult_run lib handle
    (((w.counted .newResult).counted .stmtInsertId).counted .stmtAffectedRows)
  rw [run_bind_ok hstore, mysqlStmtResultMetadata, run_bind_ok (run_map_ok _ (tick_run _ _))] at h
  obtain ⟨w₂, hcalls, hrun⟩ := resultOfMetadata_run handle _ _ (w₁.counted .stmtResultMetadata)
  rw [hrun, counted_calls_ne (w.counted .newResult) (by decide), counted_calls_ne w (by decide),
    counted_calls_ne w (by decide)] at h
  refine ⟨(carries_started _ _ _ _ _).ofMetadata (orThrow_eq_ok h), ?_, ?_⟩
  · rw [orThrow_state h, hcalls, counted_calls_ne _ (by decide), hframe.calls _ (by decide),
      counted_calls_ne _ (by decide), counted_calls, counted_calls_ne _ (by decide)]
  · rw [orThrow_state h, hcalls, counted_calls_ne _ (by decide), hframe.calls _ (by decide),
      counted_calls, counted_calls_ne _ (by decide), counted_calls_ne _ (by decide)]

/-! ### The result loops -/

/-- The answers of a library to the questions for the
numbers of the responses, from some call on. -/
structure Counters where
  insertId : ℕ → UInt64
  affectedRows : ℕ → UInt64

/-- The answers to a text query. -/
def queryCounters (lib : Lib) (w : World) : Counters where
  insertId i := lib.insertId (w.calls .insertId + i)
  affectedRows i := lib.affectedRows (w.calls .affectedRows + i)

/-- The answers to a statement. -/
def statementCounters (lib : Lib) (w : World) : Counters where
  insertId i := lib.stmtInsertId (w.calls .stmtInsertId + i)
  affectedRows i := lib.stmtAffectedRows (w.calls .stmtAffectedRows + i)

/-- A turn of the loop `body` asks for each number once, by the calls `f` and `g`, and its result
keeps the answers. -/
def Asks (body : Io (Result × Bool)) (f g : Fn) (ids rows : ℕ → UInt64) : Prop :=
  ∀ w r again w', body.run w = .ok (r, again) w' → r.Carries (ids (w.calls f)) (rows (w.calls g)) ∧
    w'.calls f = w.calls f + 1 ∧ w'.calls g = w.calls g + 1

theorem asks_nextQueryResult (lib : Lib) :
    Asks (nextQueryResult lib) .insertId .affectedRows lib.insertId lib.affectedRows := by
  intro w r again w' h
  rw [nextQueryResult, run_bind_eq_ok_iff] at h
  obtain ⟨r', w₁, hresult, h⟩ := h
  rw [run_bind_ok (mysqlNextResult_run lib w₁)] at h
  cases h
  obtain ⟨hcarries, hid, hrows⟩ := carries_resultOfMySQL hresult
  refine ⟨hcarries, ?_, ?_⟩
  · rw [← hid]
    exact counted_calls_ne w₁ (f := .nextResult) (by decide)
  · rw [← hrows]
    exact counted_calls_ne w₁ (f := .nextResult) (by decide)

theorem asks_nextStatementResult (lib : Lib) (handle : HandleId) :
    Asks (nextStatementResult lib handle) .stmtInsertId .stmtAffectedRows lib.stmtInsertId
      lib.stmtAffectedRows := by
  intro w r again w' h
  obtain ⟨w₁, hstore, -, hframe, -⟩ := mysqlStmtStoreResult_run lib handle w
  rw [nextStatementResult, run_bind_ok hstore, run_bind_eq_ok_iff] at h
  obtain ⟨r', w₂, hresult, h⟩ := h
  obtain ⟨w₃, hnext, hcalls⟩ := mysqlStmtNextResult_run lib handle w₂
  rw [run_bind_ok hnext] at h
  cases h
  have hresult := carries_resultOfStatement hresult
  rw [hframe.calls .stmtInsertId (by decide), hframe.calls .stmtAffectedRows (by decide)] at hresult
  obtain ⟨hcarries, hid, hrows⟩ := hresult
  refine ⟨hcarries, ?_, ?_⟩
  · rw [hcalls, counted_calls_ne _ (by decide), hid]
  · rw [hcalls, counted_calls_ne _ (by decide), hrows]

/-- The results of the loop keep in step with the answers. -/
theorem carries_iterates {body : Io (Result × Bool)} {f g : Fn} {ids rows : ℕ → UInt64}
    {results : List Result} (hasks : Asks body f g ids rows) (h : Iterates body w results w')
    (i : ℕ) (hi : i < results.length) :
    results[i].Carries (ids (w.calls f + i)) (rows (w.calls g + i)) := by
  have hstep := h.forall_getElem (n := 0)
    (I := fun i v => v.calls f = w.calls f + i ∧ v.calls g = w.calls g + i)
    (P := fun i r => r.Carries (ids (w.calls f + i)) (rows (w.calls g + i))) ?_ ⟨rfl, rfl⟩ i hi
  · rw [Nat.zero_add] at hstep
    exact hstep
  · rintro i v r again v' ⟨hid, hrows⟩ hrun
    obtain ⟨hcarries, hid', hrows'⟩ := hasks v r again v' hrun
    rw [hid, hrows] at hcarries
    rw [hid] at hid'
    rw [hrows] at hrows'
    exact ⟨hcarries, hid', hrows'⟩

/-! ### What the entries tell -/

/-- The entry of the result tells these answers, however it is asked for. -/
def Result.Tells (r : Result) (lastID affected : UInt64) : Prop :=
  ∀ read useNumbers table, r.populateLuaTable read useNumbers = some table → table.status = true →
    (∃ d, table.lastid = some d ∧ Converts lastID.toNat d) ∧
      (table.affected = some (-1) ↔ 2 ^ 64 - 1024 ≤ affected.toNat) ∧
      (affected.toNat < 2 ^ 64 - 1024 → ∃ d, table.affected = some d ∧ Converts affected.toNat d)

theorem Result.Carries.tells (h : r.Carries lastID affected) : r.Tells lastID affected := by
  intro read useNumbers table htable hstatus
  unfold Result.populateLuaTable at htable
  split at htable
  · cases htable
    cases hstatus
  · obtain ⟨rows, -, heq⟩ := Option.bind_eq_some_iff.mp htable
    cases heq
    have hid : r.iLastID.number = toDouble lastID := by
      rw [h.lastID]
      rfl
    have hcount : r.iAffected.number = toDouble affected := by
      rw [h.affected]
      rfl
    rw [hid, hcount]
    refine ⟨⟨_, rfl, converts_toDouble lastID⟩, ?_, fun hlt => ?_⟩
    · rw [← toDouble_eq_minus_one_iff]
      by_cases hminus : toDouble affected = toDouble (-1)
      · rw [if_pos hminus]
        exact ⟨fun _ => hminus, fun _ => rfl⟩
      · rw [if_neg hminus]
        -- a double that was converted from an unsigned integer is not negative
        refine ⟨fun hnegative => ?_, fun hminus' => absurd hminus' hminus⟩
        have hneg := Option.some.inj hnegative
        omega
    · have hminus : toDouble affected ≠ toDouble (-1) := fun heq => by
        have hle := (toDouble_eq_minus_one_iff affected).mp heq
        omega
      exact ⟨_, congrArg some (if_neg hminus), converts_toDouble affected⟩

/-- An entry for an error tells no numbers. -/
theorem tells_of_error (h : r.iError ≠ 0) (lastID affected : UInt64) : r.Tells lastID affected := by
  intro read useNumbers table htable hstatus
  unfold Result.populateLuaTable at htable
  rw [if_pos h] at htable
  cases htable
  cases hstatus

/-- The questions for the numbers that the handler of a task will ask. -/
def Task.counters (lib : Lib) (w : World) : Task → Option Counters
  | .runQuery _ _ => some (queryCounters lib w)
  | .runStatement _ _ _ => some (statementCounters lib w)
  | .createStatement _ => none

/-- The entries tell the answers one for one. -/
def Counters.Told (c : Counters) (results : List Result) : Prop :=
  ∀ i (hi : i < results.length), results[i].Tells (c.insertId i) (c.affectedRows i)

theorem told_singleton (c : Counters) (h : r.iError ≠ 0) : c.Told [r] := by
  intro i hi
  rw [List.length_singleton, Nat.lt_one_iff] at hi
  subst hi
  exact tells_of_error h _ _

theorem runQuery_told {fuel : ℕ} (h : (runQuery lib fuel action query).run w = .ok () w') :
    ∃ results, w'.completedActions = w.completedActions ++ [(action, results)] ∧
      (queryCounters lib w).Told results := by
  obtain ⟨-, results, -, hpushed, herror, hloop⟩ := runQuery_results h
  refine ⟨results, hpushed, ?_⟩
  cases hlast : lastSend lib w with
  | some e =>
      obtain ⟨r, rfl, hr⟩ := herror e hlast
      apply told_singleton
      rw [hr]
      exact e.diag_errno_ne
  | none =>
      obtain ⟨v, v', -, hframe, hit⟩ := hloop hlast
      -- no number has been asked for before the loop
      have hcounters : queryCounters lib v = queryCounters lib w := by
        unfold queryCounters
        rw [hframe.calls _ (by decide), hframe.calls _ (by decide)]
      rw [← hcounters]
      intro i hi
      exact (carries_iterates (asks_nextQueryResult lib) hit i hi).tells

theorem runStatement_told {fuel : ℕ}
    (h : (runStatement lib fuel s binds action).run w = .ok () w') :
    ∃ results, w'.completedActions = w.completedActions ++ [(action, results)] ∧
      (statementCounters lib w).Told results := by
  obtain ⟨results, w₂, rfl, ⟨-, w₁, -, ⟨hframe, -⟩, hresults⟩ | ⟨e, w₁, -, hexecutions, hcaught⟩⟩ :=
    runStatement_cases h
  · obtain ⟨hframe', handle, v, -, hreported⟩ := executeResults_ok hresults
    refine ⟨results, ?_, ?_⟩
    · show w₂.completedActions ++ _ = _
      rw [hframe'.completedActions, hframe.completedActions]
    by_cases hlast : (diagOf (lastExecution lib w)).errno = 0
    · have hcounters : statementCounters lib w₁ = statementCounters lib w := by
        unfold statementCounters
        rw [hframe.calls _ (by decide), hframe.calls _ (by decide)]
      rw [← hcounters]
      intro i hi
      exact (carries_iterates (asks_nextStatementResult lib handle) (hreported.success hlast) i
        hi).tells
    · obtain ⟨r, rfl, hr⟩ := hreported.failure hlast
      apply told_singleton
      rw [hr]
      exact hlast
  · obtain ⟨r, w₃, hrun, hcompleted, hr, -⟩ := caught_run lib e.diag w₁
    rw [hcaught] at hrun
    cases hrun
    have hframe : Frame executeFns w w₁ :=
      (frame_executions (List.Subset.refl _) s _ fuel false false).error hexecutions (.refl _ _)
    refine ⟨[r], ?_, ?_⟩
    · show w₂.completedActions ++ _ = _
      rw [hcompleted, hframe.completedActions]
    · apply told_singleton
      rw [hr]
      exact e.diag_errno_ne

/-- **The entries tell the numbers of their own responses.**  A handler
that has returned has pushed results whose entries tell, one for one,
what the library answered from the state before the handler on. -/
theorem numbers_told {fuel : ℕ} {task : Task} {c : Counters}
    (hcounters : task.counters lib w = some c) (h : (handle lib fuel task).run w = .ok () w') :
    ∃ action results, task.action = some action ∧
      w'.completedActions = w.completedActions ++ [(action, results)] ∧ c.Told results := by
  cases task with
  | runQuery action query =>
      cases hcounters
      obtain ⟨results, hpushed, htold⟩ := runQuery_told h
      exact ⟨action, results, rfl, hpushed, htold⟩
  | runStatement s binds action =>
      cases hcounters
      obtain ⟨results, hpushed, htold⟩ := runStatement_told h
      exact ⟨action, results, rfl, hpushed, htold⟩
  | createStatement query => cases hcounters

/-- A query with two responses, whose ids are beyond `2 ^
53` and whose first number of rows is unknown. -/
def twoInserts : Lib :=
  { Lib.calm with
    nextResult := fun k => if k = 0 then .more else .noMore
    insertId := fun k => 9007199254740993 + k.toUInt64
    affectedRows := fun k => if k = 0 then -1 else 1 }

theorem numbers_told_twoInserts :
    ∃ w', (handle twoInserts 2 (.runQuery ⟨0, true⟩ [97])).run
      (.opened ⟨[], [], [], [], 3306, [], 0⟩) = .ok () w' ∧
      ∃ action results, (Task.runQuery ⟨0, true⟩ [97]).action = some action ∧
        w'.completedActions = (World.opened ⟨[], [], [], [], 3306, [], 0⟩).completedActions ++
          [(action, results)] ∧
        (queryCounters twoInserts (.opened ⟨[], [], [], [], 3306, [], 0⟩)).Told results := by
  have hreturns : ∃ w',
      (handle twoInserts 2 (.runQuery ⟨0, true⟩ [97])).run (.opened ⟨[], [], [], [], 3306, [], 0⟩) =
      .ok () w' := ⟨_, rfl⟩
  obtain ⟨w', hrun⟩ := hreturns
  exact ⟨w', hrun, numbers_told rfl hrun⟩

end Tmysql4.Handler
