import Tmysql4.Collecting
import Tmysql4.Transition

/-! # Which handlers return

`handlers_return` says exactly when a handler returns and pushes its action:
`Returns` asks of a text query that a reconnect finds every cached statement
preparable, and of a query or statement run whose last attempt succeeded
that the results come to an end with row counts that fit an `int`. -/

namespace Tmysql4.Handler

open Imperative

variable {lib : Lib} {w w' w₀ : World} {s : StmtId} {binds : List Bind} {fns : List Fn}
  {action : DatabaseAction} {query : Bytes}

/-! ### Results -/

theorem newError_run (lib : Lib) (errNo : ℕ) (errStr : Loc) (cause : Diag) (w : World) :
    (newError lib errNo errStr cause).run w =
      .ok (.ofError (lib.newResult (w.calls .newResult)) errNo errStr cause)
        (w.counted .newResult) := by
  rw [newError, newResult, run_bind_ok (run_map_ok _ (tick_run _ _))]
  rfl

/-- The results of a request whose last attempt left `d`:
those of a run of the loop, or one for the error. -/
structure Reported (body : Io (Result × Bool)) (d : Diag) (w : World) (results : List Result)
    (w' : World) : Prop where
  success : d.errno = 0 → Iterates body w results w'
  failure : d.errno ≠ 0 → ∃ r, results = [r] ∧ r.iError = d.errno

theorem Reported.ne_nil {body : Io (Result × Bool)} {d : Diag} {results : List Result}
    (h : Reported body d w results w') : results ≠ [] := by
  by_cases hd : d.errno = 0
  · exact (h.success hd).ne_nil
  · obtain ⟨r, rfl, -⟩ := h.failure hd
    exact List.cons_ne_nil _ _

theorem resultsOr_ok {body : Io (Result × Bool)} {d : Diag} {errStr : Loc} {results : List Result}
    {fuel : ℕ}
    (h : (resultsOr lib d errStr (collect .outOfFuel body fuel)).run w = .ok results w') :
    Reported body d w results w' := by
  unfold resultsOr at h
  split at h
  · rename_i hd
    rw [run_map_ok _ (newError_run lib _ _ _ w)] at h
    cases h
    exact ⟨fun h0 => absurd h0 hd, fun _ => ⟨_, rfl, rfl⟩⟩
  · rename_i hd
    exact ⟨fun _ => iterates_of_collect h, fun h0 => absurd h0 hd⟩

theorem resultsOr_returns (lib : Lib) {body : Io (Result × Bool)} (d : Diag) (errStr : Loc)
    (h : d.errno = 0 → ∃ results w', Iterates body w results w') :
    ∃ fuel results w', ∀ fuel' ≥ fuel,
      (resultsOr lib d errStr (collect .outOfFuel body fuel')).run w = .ok results w' := by
  unfold resultsOr
  split
  · exact ⟨0, [.ofError (lib.newResult (w.calls .newResult)) d.errno errStr d],
      w.counted .newResult, fun _ _ => run_map_ok _ (newError_run lib _ _ _ w)⟩
  · rename_i hd
    obtain ⟨results, w', hit⟩ := h (not_not.mp hd)
    exact ⟨results.length, results, w', fun fuel' hfuel => hit.collect hfuel⟩

/-! ### `RunQuery` -/

/-- A reconnect of the query prepares all cached statements, and the results of a query that was
sent come to an end. -/
def QueryReturns (lib : Lib) (w : World) : Prop :=
  (Resends lib w → Reprepares lib w w.preparedStatements.length) ∧
    (lastSend lib w = none → QueryResultsEnd lib w)

theorem queryResultsEnd_congr (h : Frame fns w w') (hs : .storeResult ∉ fns)
    (hn : .nextResult ∉ fns) : QueryResultsEnd lib w' ↔ QueryResultsEnd lib w := by
  unfold QueryResultsEnd
  rw [h.calls _ hs, h.calls _ hn]

theorem frame_enter (text : Bytes) (w : World) : Frame [] w (w.enter text) :=
  ⟨fun _ _ => rfl, rfl, rfl, fun _ => rfl⟩

/-- `action` has been pushed with some results. -/
def Pushed (action : DatabaseAction) (w w' : World) : Prop :=
  ∃ results, results ≠ [] ∧ w'.completedActions = w.completedActions ++ [(action, results)]

/-- How `RunQuery` has returned: it has pushed what it found after its last send. -/
theorem runQuery_sent {fuel : ℕ} (h : (runQuery lib fuel action query).run w = .ok () w') :
    (Resends lib w → Reprepares lib w w.preparedStatements.length) ∧ ∃ w₁ results w₂,
      (send lib query fuel false).run w = .ok (diagOf (lastSend lib w)) w₁ ∧
        Frame (.realQuery :: connectFns) w w₁ ∧
      (lastSend lib w = none → w₁.connError = .clear) ∧
      w'.completedActions = w.completedActions ++ [(action, results)] ∧
      Reported (nextQueryResult lib) (diagOf (lastSend lib w))
        (w₁.enter (diagOf (lastSend lib w)).text) results w₂ := by
  rw [runQuery, run_bind_eq_ok_iff] at h
  obtain ⟨d, w₁, hsend, hrest⟩ := h
  have hprep : Resends lib w → Reprepares lib w w.preparedStatements.length := by
    intro hr
    by_contra hp
    cases fuel with
    | zero => cases hsend
    | succ fuel =>
        obtain ⟨e, hfails⟩ := exists_failsWith hp
        obtain ⟨_, hthrow⟩ := send_throws query fuel hr hfails
        rw [hsend] at hthrow
        cases hthrow
  obtain ⟨w₁', hspec, hframe, hclear⟩ := send_spec query fuel hprep
  rw [send_mono (by omega) hsend] at hspec
  cases hspec
  obtain ⟨w₂, hbody, rfl⟩ := withObject_eq_ok_iff.mp hrest
  obtain ⟨results, w₃, hresults, hpush⟩ := run_bind_eq_ok_iff.mp hbody
  cases hpush
  have hcompleted : Frame queryFns _ _ := (stable_frame.anywhere.resultsOr (by decide) _ _
    (Preserves.collect stable_frame.anywhere.nextQueryResult fuel)).ok hresults (.refl _ _)
  refine ⟨hprep, w₁, results, w₃, hsend, hframe, hclear, ?_, resultsOr_ok hresults⟩
  show w₃.completedActions ++ _ = _
  rw [hcompleted.completedActions, (frame_enter _ w₁).completedActions, hframe.completedActions]

/-- What `RunQuery` has pushed: one result for a send that
failed, otherwise those of a run of the result loop. -/
theorem runQuery_results {fuel : ℕ} (h : (runQuery lib fuel action query).run w = .ok () w') :
    (Resends lib w → Reprepares lib w w.preparedStatements.length) ∧ ∃ results, results ≠ [] ∧
      w'.completedActions = w.completedActions ++ [(action, results)] ∧
      (∀ e, lastSend lib w = some e → ∃ r, results = [r] ∧ r.iError = e.errno) ∧
      (lastSend lib w = none → ∃ v v', v.connError = .clear ∧ Frame (.realQuery :: connectFns) w v ∧
        Iterates (nextQueryResult lib) v results v') := by
  obtain ⟨hprep, w₁, results, w₂, -, hframe, hclear, hpushed, hreported⟩ := runQuery_sent h
  refine ⟨hprep, results, hreported.ne_nil, hpushed, fun e he => ?_, fun hlast => ?_⟩
  · rw [he, diagOf_some] at hreported
    exact hreported.failure e.diag_errno_ne
  · exact ⟨w₁.enter _, w₂, hclear hlast, hframe.trans ((frame_enter _ w₁).mono (List.nil_subset _)),
      hreported.success (diagOf_errno_eq_zero_iff.mpr hlast)⟩

theorem runQuery_pushed {fuel : ℕ} (h : (runQuery lib fuel action query).run w = .ok () w') :
    QueryReturns lib w ∧ Pushed action w w' := by
  obtain ⟨hprep, results, hne, hpushed, -, hloop⟩ := runQuery_results h
  refine ⟨⟨hprep, fun hlast => ?_⟩, results, hne, hpushed⟩
  obtain ⟨v, v', -, hframe, hit⟩ := hloop hlast
  rw [← queryResultsEnd_congr hframe (by decide) (by decide)]
  exact (exists_queryResults_iff lib v).mp ⟨results, v', hit⟩

theorem runQuery_returns (action : DatabaseAction) (query : Bytes) (h : QueryReturns lib w) :
    ∃ fuel w', (runQuery lib fuel action query).run w = .ok () w' := by
  obtain ⟨w₁, hsend, hframe, -⟩ := send_spec query 0 h.1
  have hend : (diagOf (lastSend lib w)).errno = 0 →
      ∃ results w', Iterates (nextQueryResult lib) (w₁.enter (diagOf (lastSend lib w)).text) results
        w' := by
    intro hd
    rw [exists_queryResults_iff, queryResultsEnd_congr (frame_enter _ w₁) (by decide)
      (by decide), queryResultsEnd_congr hframe (by decide) (by decide)]
    exact h.2 (diagOf_errno_eq_zero_iff.mp hd)
  obtain ⟨fuel, results, w₂, hresults⟩ := resultsOr_returns lib _ (.object w₁.nextLocal) hend
  refine ⟨fuel + 2, World.leave { w₂ with
    completedActions := w₂.completedActions ++ [(action, results)] } w₁.nextLocal, ?_⟩
  rw [runQuery, run_bind_ok (send_mono (by omega) hsend), withObject_eq_ok_iff]
  exact ⟨_, run_bind_ok (hresults (fuel + 2) (by omega)), rfl⟩

/-! ### `RunStatement` -/

/-- The recoveries of the statement run that is about to start. -/
def statementPlan (lib : Lib) (w : World) : List Recovery :=
  recoveries (decide (Connects lib w)) 2 (executeErrno lib w) false false

/-- No preparation of the recoveries throws. -/
def Recovers (lib : Lib) (w : World) : Prop :=
  Reprepares lib w (preparations w.preparedStatements.length (statementPlan lib w))

instance (lib : Lib) (w : World) : Decidable (Recovers lib w) :=
  inferInstanceAs (Decidable (Handler.Reprepares lib w _))

/-- The first preparation of the recoveries that throws fails with `e`. -/
def RecoveryFails (lib : Lib) (w : World) (e : LibError) : Prop :=
  FailsWith lib w (preparations w.preparedStatements.length (statementPlan lib w)) e

/-- The outcome of the last execution. -/
def lastExecution (lib : Lib) (w : World) : Option LibError :=
  executeOutcome lib w (statementPlan lib w).length

/-- The statement has a handle, and the results of a statement that was executed come to an end. -/
def StatementReturns (lib : Lib) (w : World) (s : StmtId) : Prop :=
  (w.stmt s).stmt ≠ none ∧
    (Recovers lib w → lastExecution lib w = none → StatementResultsEnd lib w)

theorem executions_run (lib : Lib) (binds : List Bind) (fuel : ℕ) (hs : (w.stmt s).stmt ≠ none) :
    (Recovers lib w ∧ ∃ w', (executions lib s binds (fuel + 3) false false).run w =
      .ok (diagOf (lastExecution lib w)) w' ∧ Executed lib s (statementPlan lib w).length w w') ∨
    (∃ e, RecoveryFails lib w e ∧ ∃ w',
      (executions lib s binds (fuel + 3) false false).run w =
        .error (.myException e.errno e.text) w') :=
  executions_spec 2 (fuel + 3) (by omega) (by decide) hs (by simp) rfl

theorem statementResultsEnd_congr (h : Frame fns w w') (hm : .stmtResultMetadata ∉ fns)
    (hn : .stmtNextResult ∉ fns) : StatementResultsEnd lib w' ↔ StatementResultsEnd lib w := by
  unfold StatementResultsEnd
  rw [h.calls _ hm, h.calls _ hn]

/-- The result loop throws no exception of the module. -/
theorem resultsOr_throws {h : HandleId} {d : Diag} {errStr : Loc} {fuel errorNumber : ℕ}
    {what : Bytes} :
    (resultsOr lib d errStr (collect .outOfFuel (nextStatementResult lib h) fuel)).run w ≠
      .error (.myException errorNumber what) w' := by
  intro herror
  unfold resultsOr at herror
  split at herror
  · rw [run_map_ok _ (newError_run lib _ _ _ w)] at herror
    cases herror
  · obtain hfuel | ⟨w₁, w₂, hbody⟩ := collect_error herror
    · cases hfuel
    · by_cases hfits : MetadataFitsInt (lib.stmtResultMetadata (w₁.calls .stmtResultMetadata))
      · obtain ⟨-, -, -, r, w₃, hok, -⟩ := nextStatementResult_ok h hfits
        rw [hok] at hbody
        cases hbody
      · obtain ⟨w₃, hthrow⟩ := nextStatementResult_throws h hfits
        rw [hthrow] at hbody
        cases hbody

theorem stmtHandle_eq_ok {h : HandleId} (hrun : (stmtHandle s).run w = .ok h w') :
    w' = w ∧ (w.stmt s).stmt = some h := by
  rw [stmtHandle, run_bind_ok (EStateM.run_get _)] at hrun
  cases hs : (w.stmt s).stmt with
  | none =>
      simp only [hs] at hrun
      cases hrun
  | some h =>
      simp only [hs] at hrun
      cases hrun
      exact ⟨rfl, rfl⟩

theorem executeResults_throws {fuel errorNumber : ℕ} {d : Diag} {what : Bytes} :
    (executeResults lib fuel s binds d).run w ≠ .error (.myException errorNumber what) w' := by
  intro herror
  rw [executeResults] at herror
  cases hs : (w.stmt s).stmt with
  | none =>
      rw [run_bind_error (stmtHandle_null_run hs)] at herror
      cases herror
  | some h =>
      rw [run_bind_ok (stmtHandle_run hs)] at herror
      cases hr : (resultsOr lib d (.handle h)
        (collect .outOfFuel (nextStatementResult lib h) fuel)).run w with
      | ok results w₁ =>
          rw [run_bind_ok hr, run_bind_ok (EStateM.run_get _), deleteBinds,
            run_bind_ok (EStateM.run_modify _ _)] at herror
          cases herror
      | error e w₁ =>
          rw [run_bind_error hr] at herror
          cases herror
          exact resultsOr_throws hr

/-- The results are those on the handle that the statement has, and the binds are deleted once
they have been read. -/
theorem executeResults_eq_ok {fuel : ℕ} {d : Diag} {results : List Result}
    (h : (executeResults lib fuel s binds d).run w = .ok results w') :
    ∃ handle v, (w.stmt s).stmt = some handle ∧
      (resultsOr lib d (.handle handle)
        (collect .outOfFuel (nextStatementResult lib handle) fuel)).run w = .ok results v ∧
      w' = { v with
        frees := v.frees ++ freesFrom (binds.take (v.stmt s).numArgs) 0 ++ [.binds] } := by
  rw [executeResults, run_bind_eq_ok_iff] at h
  obtain ⟨handle, w₁, hhandle, hrest⟩ := h
  obtain ⟨rfl, hs⟩ := stmtHandle_eq_ok hhandle
  obtain ⟨results', v, hresults, hrest⟩ := run_bind_eq_ok_iff.mp hrest
  rw [run_bind_ok (EStateM.run_get _), deleteBinds, run_bind_ok (EStateM.run_modify _ _)] at hrest
  cases hrest
  exact ⟨handle, v, hs, hresults, rfl⟩

theorem executeResults_ok {fuel : ℕ} {d : Diag} {results : List Result}
    (h : (executeResults lib fuel s binds d).run w = .ok results w') :
    Frame statementFns w w' ∧ ∃ handle v, (w.stmt s).stmt = some handle ∧
      Reported (nextStatementResult lib handle) d w results v := by
  obtain ⟨handle, v, hs, hresults, rfl⟩ := executeResults_eq_ok h
  have hframe : Frame statementFns _ _ := (stable_frame.anywhere.resultsOr (by decide) _ _
    (Preserves.collect (stable_frame.anywhere.nextStatementResult trivial) fuel)).ok hresults
      (.refl _ _)
  exact ⟨⟨hframe.calls, hframe.completedActions, hframe.preparedStatements, hframe.charSet⟩, handle,
    v, hs, resultsOr_ok hresults⟩

theorem executeResults_returns (lib : Lib) (binds : List Bind) {d : Diag}
    (hs : (w.stmt s).stmt ≠ none) (h : d.errno = 0 → StatementResultsEnd lib w) :
    ∃ fuel results w', ∀ fuel' ≥ fuel, (executeResults lib fuel' s binds d).run w =
      .ok results w' := by
  obtain ⟨handle, hs⟩ := Option.ne_none_iff_exists'.mp hs
  obtain ⟨fuel, results, w₁, hresults⟩ := resultsOr_returns lib d (.handle handle) fun hd =>
    (exists_statementResults_iff lib handle w).mpr (h hd)
  refine ⟨fuel, results, { w₁ with
    frees := w₁.frees ++ freesFrom (binds.take (w₁.stmt s).numArgs) 0 ++ [.binds] },
    fun fuel' hfuel => ?_⟩
  rw [executeResults, run_bind_ok (stmtHandle_run hs), run_bind_ok (hresults fuel' hfuel),
    run_bind_ok (EStateM.run_get _), deleteBinds, run_bind_ok (EStateM.run_modify _ _)]
  rfl

theorem execute_run (lib : Lib) (fuel : ℕ) (s : StmtId) (binds : List Bind) (w : World) :
    (execute lib fuel s binds).run w =
      (executions lib s (retagBinds binds (w.stmt s).numArgs) fuel false false >>= fun d =>
        executeResults lib fuel s (retagBinds binds (w.stmt s).numArgs) d).run w := by
  rw [execute, run_bind_ok (EStateM.run_get _)]

/-- The executions that ended normally were the planned ones. -/
theorem executions_eq_ok {fuel : ℕ} {d : Diag}
    (h : (executions lib s binds fuel false false).run w = .ok d w') :
    (w.stmt s).stmt ≠ none ∧ Recovers lib w ∧ d = diagOf (lastExecution lib w) ∧
      Executed lib s (statementPlan lib w).length w w' := by
  have hs : (w.stmt s).stmt ≠ none := by
    intro hs
    obtain ⟨e, hnull, -⟩ := executions_null lib binds hs fuel false false
    rw [h] at hnull
    cases hnull
  have hmono := executions_mono (Nat.le_add_right fuel 3) h nofun
  obtain ⟨hrec, w₁, hok, hexec⟩ | ⟨_, -, _, hthrow⟩ := executions_run lib binds fuel hs
  · rw [hmono] at hok
    cases hok
    exact ⟨hs, hrec, rfl, hexec⟩
  · rw [hmono] at hthrow
    cases hthrow

/-- An exception of the module comes from a preparation. -/
theorem executions_eq_error {fuel errorNumber : ℕ} {what : Bytes}
    (h : (executions lib s binds fuel false false).run w = .error
      (.myException errorNumber what) w') :
    (w.stmt s).stmt ≠ none ∧ ∃ e, RecoveryFails lib w e ∧ errorNumber = e.errno ∧
      what = e.text := by
  have hs : (w.stmt s).stmt ≠ none := by
    intro hs
    obtain ⟨e, hnull, he⟩ := executions_null lib binds hs fuel false false
    rw [h] at hnull
    cases hnull
    simp at he
  have hmono := executions_mono (Nat.le_add_right fuel 3) h nofun
  obtain ⟨-, w₁, hok, -⟩ | ⟨e, hrec, w₁, hthrow⟩ := executions_run lib binds fuel hs
  · rw [hmono] at hok
    cases hok
  · rw [hmono] at hthrow
    cases hthrow
    exact ⟨hs, e, hrec, rfl, rfl⟩

/-- What `RunStatement` makes of an exception of `Execute`. -/
theorem caught_run (lib : Lib) (e : Diag) (w : World) :
    ∃ r w', (withObject e.text fun what => List.singleton <$> newError lib e.errno what e).run w =
      .ok [r] w' ∧ w'.completedActions = w.completedActions ∧ r.iError = e.errno ∧ r.cause = e := by
  refine ⟨_, _, withObject_eq_ok_iff.mpr ⟨_, run_map_ok _ (newError_run lib _ _ _ _), rfl⟩, rfl,
    rfl, rfl⟩

/-- How `RunStatement` has returned: `Execute` has read the results of its last execution, or a
preparation has thrown. -/
theorem runStatement_cases {fuel : ℕ}
    (h : (runStatement lib fuel s binds action).run w = .ok () w') :
    ∃ results w₂, w' = { w₂ with completedActions := w₂.completedActions ++ [(action, results)] } ∧
      ((Recovers lib w ∧ ∃ w₁,
        (executions lib s (retagBinds binds (w.stmt s).numArgs) fuel false false).run w =
          .ok (diagOf (lastExecution lib w)) w₁ ∧ Executed lib s (statementPlan lib w).length w w₁ ∧
        (executeResults lib fuel s (retagBinds binds (w.stmt s).numArgs)
          (diagOf (lastExecution lib w))).run w₁ = .ok results w₂) ∨
      ∃ e w₁, RecoveryFails lib w e ∧
        (executions lib s (retagBinds binds (w.stmt s).numArgs) fuel false false).run w =
          .error (.myException e.errno e.text) w₁ ∧
        (withObject e.diag.text fun what => List.singleton <$> newError lib e.diag.errno what
          e.diag).run w₁ = .ok results w₂) := by
  rw [runStatement, run_bind_eq_ok_iff] at h
  obtain ⟨results, w₂, hcatch, hpush⟩ := h
  cases hpush
  refine ⟨results, w₂, rfl, ?_⟩
  obtain hexecute | ⟨errorNumber, what, w₁, hexecute, hhandler⟩ := catchMyException_eq_ok hcatch
  · rw [execute_run, run_bind_eq_ok_iff] at hexecute
    obtain ⟨d, w₁, hexecutions, hresults⟩ := hexecute
    obtain ⟨-, hrec, rfl, hexecuted⟩ := executions_eq_ok hexecutions
    exact Or.inl ⟨hrec, w₁, hexecutions, hexecuted, hresults⟩
  · rw [execute_run] at hexecute
    cases hexecutions : (executions lib s (retagBinds binds (w.stmt s).numArgs) fuel false
      false).run w with
    | ok d w₃ =>
        rw [run_bind_ok hexecutions] at hexecute
        exact absurd hexecute executeResults_throws
    | error exn w₃ =>
        rw [run_bind_error hexecutions] at hexecute
        cases hexecute
        obtain ⟨-, e, hfails, rfl, rfl⟩ := executions_eq_error hexecutions
        exact Or.inr ⟨e, w₁, hfails, hexecutions ▸ rfl, hhandler⟩

/-- What `RunStatement` has pushed: when no preparation threw, the results of the last execution. -/
theorem runStatement_results {fuel : ℕ}
    (h : (runStatement lib fuel s binds action).run w = .ok () w') :
    (w.stmt s).stmt ≠ none ∧ ∃ results, results ≠ [] ∧
      w'.completedActions = w.completedActions ++ [(action, results)] ∧
      (Recovers lib w → ∃ handle v v', Frame executeFns w v ∧
        (executions lib s (retagBinds binds (w.stmt s).numArgs) fuel false false).run w =
          .ok (diagOf (lastExecution lib w)) v ∧ (v.stmt s).stmt = some handle ∧
        Reported (nextStatementResult lib handle) (diagOf (lastExecution lib w)) v results v') := by
  obtain ⟨results, w₂, rfl,
      ⟨-, w₁, hexecutions, ⟨hframe, -⟩, hresults⟩ | ⟨e, w₁, hfails, hexecutions, hcaught⟩⟩ :=
    runStatement_cases h
  · obtain ⟨hs, -⟩ := executions_eq_ok hexecutions
    obtain ⟨hframe', handle, v, hhandle, hreported⟩ := executeResults_ok hresults
    refine ⟨hs, results, hreported.ne_nil, ?_,
      fun _ => ⟨handle, w₁, v, hframe, hexecutions, hhandle, hreported⟩⟩
    show w₂.completedActions ++ _ = _
    rw [hframe'.completedActions, hframe.completedActions]
  · obtain ⟨hs, -⟩ := executions_eq_error hexecutions
    obtain ⟨r, w₃, hrun, hcompleted, -⟩ := caught_run lib e.diag w₁
    rw [hcaught] at hrun
    cases hrun
    have hframe : Frame executeFns w w₁ :=
      (frame_executions (List.Subset.refl _) s _ fuel false false).error hexecutions (.refl _ _)
    refine ⟨hs, [r], List.cons_ne_nil _ _, ?_, fun h => absurd h hfails.not_reprepares⟩
    show w₂.completedActions ++ _ = _
    rw [hcompleted, hframe.completedActions]

theorem runStatement_pushed {fuel : ℕ}
    (h : (runStatement lib fuel s binds action).run w = .ok () w') :
    StatementReturns lib w s ∧ Pushed action w w' := by
  obtain ⟨hs, results, hne, hpushed, hreported⟩ := runStatement_results h
  refine ⟨⟨hs, fun hrec hlast => ?_⟩, results, hne, hpushed⟩
  obtain ⟨handle, v, v', hframe, -, -, hresults⟩ := hreported hrec
  rw [← statementResultsEnd_congr hframe (by decide) (by decide)]
  exact (exists_statementResults_iff lib handle v).mp
    ⟨results, v', hresults.success (diagOf_errno_eq_zero_iff.mpr hlast)⟩

theorem runStatement_returns (binds : List Bind) (action : DatabaseAction)
    (h : StatementReturns lib w s) :
    ∃ fuel w', (runStatement lib fuel s binds action).run w = .ok () w' := by
  obtain ⟨hs, hend⟩ := h
  obtain ⟨hrec, w₁, hok, hframe, handle, hs₁, -⟩ | ⟨e, -, w₁, hthrow⟩ :=
    executions_run lib (retagBinds binds (w.stmt s).numArgs) 0 hs
  · have hs₁ : (w₁.stmt s).stmt ≠ none := by
      rw [hs₁]
      exact Option.some_ne_none _
    obtain ⟨fuel, results, w₂, hresults⟩ := executeResults_returns lib
      (retagBinds binds (w.stmt s).numArgs) hs₁ fun hd =>
        (statementResultsEnd_congr hframe (by decide) (by decide)).mpr
        (hend hrec (diagOf_errno_eq_zero_iff.mp hd))
    have hexecute : (execute lib (fuel + 3) s binds).run w = .ok results w₂ := by
      rw [execute_run, run_bind_ok (executions_mono (Nat.le_add_left 3 fuel) hok nofun)]
      exact hresults (fuel + 3) (Nat.le_add_right fuel 3)
    exact ⟨fuel + 3, _, by rw [runStatement, run_bind_ok (catchMyException_ok hexecute)]; rfl⟩
  · have hexecute : (execute lib 3 s binds).run w = .error (.myException e.errno e.text) w₁ := by
      rw [execute_run, run_bind_error hthrow]
    obtain ⟨r, w₂, hrun, -⟩ := caught_run lib ⟨e.errno, e.text⟩ w₁
    exact ⟨3, _, by
      rw [runStatement, run_bind_ok ((catchMyException_caught hexecute).trans hrun)]
      rfl⟩

/-! ### `CreateStatement` -/

theorem setWaiter_run (f : Waiter → Waiter) (w : World) :
    (setWaiter f).run w = .ok () { w with waiter := w.waiter.map f } := rfl

/-- The object has its entry before it is prepared. -/
theorem newStatement_run (lib : Lib) (query : Bytes) (w : World) :
    ∃ w₁, Frame [] w w₁ ∧ (newStatement lib query).run w =
      (prepare lib w.nextStmt >>= fun _ => pure w.nextStmt).run w₁ := by
  refine ⟨{ w with
    stmt := Function.update w.stmt w.nextStmt ⟨none, query, 0⟩
    nextStmt := w.nextStmt + 1 }, ⟨fun _ _ => rfl, rfl, rfl, fun _ => rfl⟩, ?_⟩
  rw [newStatement, run_bind_ok (EStateM.run_modifyGet _ _)]

/-- What is left once the exception has been caught. -/
theorem createStatement_completes {query : Bytes} {body : Io Unit}
    (hbody : createStatement lib query = body >>=
      fun _ => setWaiter fun t => { t with completed := true })
    (h : body.run w = .ok () w') :
    ∃ w'', (createStatement lib query).run w = .ok () w'' ∧
      w''.completedActions = w'.completedActions :=
  ⟨{ w' with waiter := w'.waiter.map fun t => { t with completed := true } },
    by rw [hbody, run_bind_ok h, setWaiter_run], rfl⟩

/-- `CreateStatement` always returns, and pushes nothing. -/
theorem createStatement_returns (lib : Lib) (query : Bytes) (w : World) :
    ∃ w', (createStatement lib query).run w = .ok () w' ∧
      w'.completedActions = w.completedActions := by
  obtain ⟨w₁, hframe, hrun⟩ := newStatement_run lib query w
  have hprepare : Preserves (Frame prepareFns w) (prepare lib w.nextStmt) :=
    (preparable_frame (List.Subset.refl _)).prepare _
  have hstart : Frame prepareFns w w₁ := hframe.mono (List.nil_subset _)
  by_cases hone : Reprepares lib w₁ 1
  · obtain ⟨w₂, n, hok, -⟩ := prepare_ok w.nextStmt hone
    rw [run_bind_ok hok] at hrun
    obtain ⟨w', hcreate, hcompleted⟩ := createStatement_completes rfl
      (catchMyException_ok ((run_bind_ok hrun).trans (setWaiter_run _ _)))
    exact ⟨w', hcreate, hcompleted.trans (hprepare.ok hok hstart).completedActions⟩
  · obtain ⟨e, hfails⟩ := exists_failsWith hone
    obtain ⟨w₂, hthrow⟩ := prepare_throws w.nextStmt hfails
    rw [run_bind_error hthrow] at hrun
    obtain ⟨w', hcreate, hcompleted⟩ := createStatement_completes rfl
      ((catchMyException_caught (run_bind_error hrun)).trans (setWaiter_run _ _))
    exact ⟨w', hcreate, hcompleted.trans (hprepare.error hthrow hstart).completedActions⟩

/-! ### The handlers -/

/-- The handler returns, and a query or statement run has
pushed its action once, with some results. -/
def Settles (lib : Lib) (w : World) (t : Task) : Prop :=
  ∃ fuel w', (handle lib fuel t).run w = .ok () w' ∧
    match t.action with
    | some action => Pushed action w w'
    | none => w'.completedActions = w.completedActions

/-- The condition for it, in terms of the outcomes of the library calls. -/
def Returns (lib : Lib) (w : World) : Task → Prop
  | .runQuery _ _ => QueryReturns lib w
  | .runStatement s _ _ => StatementReturns lib w s
  | .createStatement _ => True

/-- **A handler returns and pushes its action exactly when `Returns` holds.** -/
theorem handlers_return (lib : Lib) (w : World) (t : Task) : Settles lib w t ↔ Returns lib w t := by
  cases t with
  | runQuery action query =>
      constructor
      · rintro ⟨fuel, w', h, -⟩
        exact (runQuery_pushed h).1
      · intro h
        obtain ⟨fuel, w', hrun⟩ := runQuery_returns action query h
        exact ⟨fuel, w', hrun, (runQuery_pushed hrun).2⟩
  | runStatement s binds action =>
      constructor
      · rintro ⟨fuel, w', h, -⟩
        exact (runStatement_pushed h).1
      · intro h
        obtain ⟨fuel, w', hrun⟩ := runStatement_returns binds action h
        exact ⟨fuel, w', hrun, (runStatement_pushed hrun).2⟩
  | createStatement query =>
      obtain ⟨w', hrun, hcompleted⟩ := createStatement_returns lib query w
      exact ⟨fun _ => trivial, fun _ => ⟨0, w', hrun, hcompleted⟩⟩

/-- The first send loses the connection, and the second preparation finds the table gone. -/
def lostTable : Lib :=
  { Lib.calm with
    realQuery := fun k => if k = 0 then some .serverLost else none
    stmtPrepare := fun k => if k = 1 then some .noSuchTable else none }

/-- The exception of a re-preparation leaves `RunQuery`. -/
theorem handlers_return_fails :
    ∃ w, Transition.exec (step lostTable) (.opened ⟨[], [], [], [], 3306, [], 0⟩)
        [.task 1 (.createStatement [97]), .register [97] 0] = some w ∧
      ¬ Settles lostTable w (.runQuery ⟨0, true⟩ [98]) := by
  have hrun : (Transition.exec (step lostTable) (.opened ⟨[], [], [], [], 3306, [], 0⟩)
      [.task 1 (.createStatement [97]), .register [97] 0]).map
        (fun w => decide (Resends lostTable w ∧
        ¬ Reprepares lostTable w w.preparedStatements.length)) = some true := by decide +kernel
  obtain ⟨w, hexec, hw⟩ := Option.map_eq_some_iff.mp hrun
  obtain ⟨hresends, hprepares⟩ := of_decide_eq_true hw
  refine ⟨w, hexec, ?_⟩
  rintro ⟨fuel, w', h, -⟩
  exact hprepares ((runQuery_pushed h).1.1 hresends)

end Tmysql4.Handler
