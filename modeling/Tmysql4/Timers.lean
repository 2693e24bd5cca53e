import Tmysql4.Retries
import Tmysql4.Representation
import Tmysql4.Instrumented

/-! # The time of a query

Every action has a timer.  Its handler starts it before the first send and stops it after the last
one, and each of its results reports the difference.  The timed handlers are the handlers,
instrumented with a clock.

`time_reported` says what is reported.  A preparation that throws
out of the retry loop of `Execute` skips `EndQueryTimer`: the end
is then the epoch of the clock, and the time is negative. -/

namespace Tmysql4.Handler

open Imperative

/-- `Timer`, in nanoseconds; what has not been set is the epoch of the clock. -/
structure Timer where
  startTime : ℤ
  endTime : ℤ
deriving DecidableEq

/-- `CreateQueryTimer`. -/
def Timer.new : Timer := ⟨0, 0⟩

/-- `GetElapsedSeconds`, before the division. -/
def Timer.elapsedNano (t : Timer) : ℤ := t.endTime - t.startTime

/-- How often the clock has been read, and the timer of the action. -/
structure Watch where
  readings : ℕ
  timer : Timer
deriving DecidableEq

abbrev TimedIo := EStateM Exn (World × Watch)

variable (lib : Lib) (clock : ℕ → ℤ)

def startQueryTimer : TimedIo Unit :=
  onSecond fun t => { t with readings := t.readings + 1, timer.startTime := clock t.readings }

def endQueryTimer : TimedIo Unit :=
  onSecond fun t => { t with readings := t.readings + 1, timer.endTime := clock t.readings }

/-- `Database::RunQuery` with its timer. -/
def timedRunQuery (fuel : ℕ) (action : DatabaseAction) (query : Bytes) : TimedIo Unit := do
  startQueryTimer clock
  let d ← onFirst (send lib query fuel false)
  endQueryTimer clock
  onFirst (withObject d.text fun qErr => do
    let results ← resultsOr lib d qErr (collect .outOfFuel (nextQueryResult lib) fuel)
    pushCompleted action results)

/-- `PStatement::Execute` with its timer. -/
def timedExecute (fuel : ℕ) (s : StmtId) (binds : List Bind) : TimedIo (List Result) := do
  let (w, _) ← get
  startQueryTimer clock
  let d ← onFirst (executions lib s (retagBinds binds (w.stmt s).numArgs) fuel false false)
  endQueryTimer clock
  onFirst (executeResults lib fuel s (retagBinds binds (w.stmt s).numArgs) d)

/-- `Database::RunStatement` with its timer. -/
def timedRunStatement (fuel : ℕ) (s : StmtId) (binds : List Bind)
    (action : DatabaseAction) : TimedIo Unit := do
  let results ← tryCatch (timedExecute lib clock fuel s binds) fun e =>
    match e with
    | .myException errorNumber what =>
        onFirst (withObject what fun what' => List.singleton <$> newError lib errorNumber what'
          ⟨errorNumber, what⟩)
    | e => throw e
  onFirst (pushCompleted action results)

def timedHandle (fuel : ℕ) : Task → TimedIo Unit
  | .runQuery action query => timedRunQuery lib clock fuel action query
  | .runStatement s binds action => timedRunStatement lib clock fuel s binds action
  | .createStatement query => onFirst (createStatement lib query)

/-! ### The timers change nothing -/

theorem timedRunQuery_instruments (fuel : ℕ) (action : DatabaseAction) (query : Bytes) :
    Instruments (timedRunQuery lib clock fuel action query) (runQuery lib fuel action query) :=
  .after_second _ ((Instruments.first _).bind fun _ => .after_second _ (.first _))

theorem timedExecute_instruments (fuel : ℕ) (s : StmtId) (binds : List Bind) :
    Instruments (timedExecute lib clock fuel s binds) (execute lib fuel s binds) := by
  intro w t
  have hrest : Instruments
      (startQueryTimer clock >>= fun _ =>
        onFirst (executions lib s (retagBinds binds (w.stmt s).numArgs) fuel false false) >>=
        fun d => endQueryTimer clock >>= fun _ =>
          onFirst (executeResults lib fuel s (retagBinds binds (w.stmt s).numArgs) d))
      (executions lib s (retagBinds binds (w.stmt s).numArgs) fuel false false >>= fun d =>
        executeResults lib fuel s (retagBinds binds (w.stmt s).numArgs) d) :=
    .after_second _ ((Instruments.first _).bind fun _ => .after_second _ (.first _))
  exact hrest w t

theorem timedRunStatement_instruments (fuel : ℕ) (s : StmtId) (binds : List Bind)
    (action : DatabaseAction) :
    Instruments (timedRunStatement lib clock fuel s binds action)
      (runStatement lib fuel s binds action) := by
  refine Instruments.bind ((timedExecute_instruments lib clock fuel s binds).tryCatch fun e => ?_)
    fun _ => .first _
  cases e with
  | myException errorNumber what => exact .first _
  | _ => exact fun w t => ⟨t, rfl⟩

/-- The timed handlers are the handlers. -/
theorem timedHandle_instruments (fuel : ℕ) (t : Task) :
    Instruments (timedHandle lib clock fuel t) (handle lib fuel t) := by
  cases t with
  | runQuery action query => exact timedRunQuery_instruments lib clock fuel action query
  | runStatement s binds action => exact timedRunStatement_instruments lib clock fuel s binds action
  | createStatement query => exact .first _

/-! ### What the timers show -/

variable {lib clock} {w w' : World} {k : ℕ} {t : Watch} {s : StmtId} {binds : List Bind}
  {action : DatabaseAction} {query : Bytes}

theorem timedRunQuery_time {fuel : ℕ}
    (h : (timedRunQuery lib clock fuel action query).run (w, ⟨k, .new⟩) = .ok () (w', t)) :
    t.timer = ⟨clock k, clock (k + 1)⟩ := by
  unfold timedRunQuery startQueryTimer endQueryTimer at h
  rw [run_bind_ok (onSecond_run _ _ _), run_bind_eq_ok_iff] at h
  obtain ⟨d, p, hsend, hrest⟩ := h
  obtain ⟨w₁, -, rfl⟩ := onFirst_eq_ok hsend
  rw [run_bind_ok (onSecond_run _ _ _)] at hrest
  obtain ⟨w₂, -, heq⟩ := onFirst_eq_ok hrest
  cases heq
  rfl

/-- `Execute` stops the timer unless the retry loop throws. -/
theorem timedExecute_run (fuel : ℕ) (s : StmtId) (binds : List Bind) (w : World) (k : ℕ) :
    (∃ d w₁, (executions lib s (retagBinds binds (w.stmt s).numArgs) fuel false false).run
      w = .ok d w₁ ∧ (timedExecute lib clock fuel s binds).run (w, ⟨k, .new⟩) =
        (onFirst (executeResults lib fuel s (retagBinds binds (w.stmt s).numArgs) d)).run
          (w₁, ⟨k + 2, ⟨clock k, clock (k + 1)⟩⟩)) ∨
    ∃ e w₁, (executions lib s (retagBinds binds (w.stmt s).numArgs) fuel false false).run w =
      .error e w₁ ∧
      (timedExecute lib clock fuel s binds).run (w, ⟨k, .new⟩) =
        .error e (w₁, ⟨k + 1, ⟨clock k, 0⟩⟩) := by
  unfold timedExecute startQueryTimer endQueryTimer
  rw [run_bind_ok (EStateM.run_get _)]
  dsimp only
  rw [run_bind_ok (onSecond_run _ _ _)]
  cases hexecutions : (executions lib s (retagBinds binds (w.stmt s).numArgs) fuel false false).run
    w with
  | ok d w₁ =>
      refine .inl ⟨d, w₁, rfl, ?_⟩
      rw [run_bind_ok (onFirst_ok hexecutions _), run_bind_ok (onSecond_run _ _ _)]
  | error e w₁ =>
      refine .inr ⟨e, w₁, rfl, ?_⟩
      rw [run_bind_error (onFirst_error hexecutions _)]
      rfl

theorem timedRunStatement_time {fuel : ℕ}
    (h : (timedRunStatement lib clock fuel s binds action).run (w, ⟨k, .new⟩) = .ok () (w', t)) :
    (∃ d w₁, (executions lib s (retagBinds binds (w.stmt s).numArgs) fuel false false).run
      w = .ok d w₁ ∧ t.timer = ⟨clock k, clock (k + 1)⟩) ∨
    ∃ errorNumber what w₁,
      (executions lib s (retagBinds binds (w.stmt s).numArgs) fuel false false).run w =
      .error (.myException errorNumber what) w₁ ∧ t.timer = ⟨clock k, 0⟩ := by
  unfold timedRunStatement at h
  rw [run_bind_eq_ok_iff] at h
  obtain ⟨results, p, hcatch, hpush⟩ := h
  obtain ⟨w₂, -, heq⟩ := onFirst_eq_ok hpush
  cases heq
  rw [run_tryCatch] at hcatch
  obtain ⟨d, w₁, hexecutions, hrest⟩ | ⟨e, w₁, hexecutions, hthrows⟩ :=
    @timedExecute_run lib clock fuel s binds w k
  · refine .inl ⟨d, w₁, hexecutions, ?_⟩
    rw [hrest, onFirst_run] at hcatch
    cases hresults : (executeResults lib fuel s (retagBinds binds (w.stmt s).numArgs) d).run w₁ with
    | ok results w₃ =>
        rw [hresults] at hcatch
        cases hcatch
        rfl
    | error e w₃ =>
        rw [hresults] at hcatch
        cases e with
        | myException errorNumber what =>
            obtain ⟨w₄, -, heq⟩ := onFirst_eq_ok hcatch
            cases heq
            rfl
        | _ => cases hcatch
  · rw [hthrows] at hcatch
    cases e with
    | myException errorNumber what =>
        obtain ⟨w₄, -, heq⟩ := onFirst_eq_ok hcatch
        cases heq
        exact .inr ⟨errorNumber, what, w₁, hexecutions, rfl⟩
    | _ => cases hcatch

/-- The timer of the action that a handler has completed. -/
theorem timedHandle_time {fuel : ℕ} {task : Task} (haction : task.action ≠ none)
    (h : (timedHandle lib clock fuel task).run (w, ⟨k, .new⟩) = .ok () (w', t)) :
    (task.Reprepares lib w ∧ t.timer = ⟨clock k, clock (k + 1)⟩) ∨
      (¬ task.Reprepares lib w ∧ t.timer = ⟨clock k, 0⟩) := by
  obtain ⟨t', hrun⟩ := timedHandle_instruments lib clock fuel task w ⟨k, .new⟩
  rw [h] at hrun
  cases task with
  | runQuery action query =>
      refine .inl ⟨?_, timedRunQuery_time h⟩
      cases hplain : (handle lib fuel (.runQuery action query)).run w with
      | ok u w₁ => exact (runQuery_results hplain).1
      | error e w₁ =>
          rw [hplain] at hrun
          cases hrun
  | runStatement s binds action =>
      obtain ⟨d, w₁, hexecutions, htimer⟩ | ⟨errorNumber, what, w₁, hexecutions, htimer⟩ :=
        timedRunStatement_time h
      · obtain ⟨-, hrec, -⟩ := executions_eq_ok hexecutions
        exact .inl ⟨hrec, htimer⟩
      · obtain ⟨-, e, hfails, -⟩ := executions_eq_error hexecutions
        exact .inr ⟨hfails.not_reprepares, htimer⟩
  | createStatement query => exact absurd rfl haction

/-- **The time of a query.** A handler with its timer does what the handler
does, however it ends. With a clock that is past its epoch and never goes back,
the time that it leaves for its results is the time of its sends, and not
negative, if and only if all statements it prepared again were prepared. -/
theorem time_reported (hsteady : ∀ i, clock i ≤ clock (i + 1)) (hpast : 0 < clock k) {fuel : ℕ}
    {task : Task} (haction : task.action ≠ none) :
    Instruments (timedHandle lib clock fuel task) (handle lib fuel task) ∧
      ∀ w w' t, (timedHandle lib clock fuel task).run (w, ⟨k, .new⟩) = .ok () (w', t) →
        (handle lib fuel task).run w = .ok () w' ∧
        (0 ≤ t.timer.elapsedNano ↔ task.Reprepares lib w) ∧
        (task.Reprepares lib w → t.timer.elapsedNano = clock (k + 1) - clock k) ∧
        (¬ task.Reprepares lib w → t.timer.elapsedNano = -clock k) := by
  refine ⟨timedHandle_instruments lib clock fuel task, fun w w' t h => ?_⟩
  obtain ⟨t', hrun⟩ := timedHandle_instruments lib clock fuel task w ⟨k, .new⟩
  have hplain : (handle lib fuel task).run w = .ok () w' := by
    rw [h] at hrun
    cases hplain : (handle lib fuel task).run w with
    | ok u w₁ =>
        rw [hplain] at hrun
        cases hrun
        rfl
    | error e w₁ =>
        rw [hplain] at hrun
        cases hrun
  refine ⟨hplain, ?_⟩
  obtain ⟨hrec, htimer⟩ | ⟨hrec, htimer⟩ := timedHandle_time haction h
  · have htime : t.timer.elapsedNano = clock (k + 1) - clock k := by rw [htimer, Timer.elapsedNano]
    have hle : clock k ≤ clock (k + 1) := hsteady k
    refine ⟨iff_of_true (by omega) hrec, fun _ => htime, fun hno => absurd hrec hno⟩
  · have htime : t.timer.elapsedNano = -clock k := by rw [htimer, Timer.elapsedNano, Int.zero_sub]
    refine ⟨iff_of_false (by omega) hrec, fun hyes => absurd hyes hrec, fun _ => htime⟩

/-- The server does not know the statement any more, and its table is gone. -/
def Lib.goneTable : Lib :=
  { Lib.calm with
    stmtExecute := fun k => if k = 0 then some .unknownStatement else none
    stmtPrepare := fun k => if k = 0 then some .noSuchTable else none }

/-- Seven nanoseconds after the epoch, with one nanosecond between two readings. -/
theorem time_reported_goneTable : ∃ w' t,
    (timedHandle .goneTable (fun n => (n : ℤ) + 7) 1 (.runStatement 0 [] ⟨0, true⟩)).run
      (.withStatement, ⟨0, .new⟩) = .ok () (w', t) ∧
    (handle .goneTable 1 (.runStatement 0 [] ⟨0, true⟩)).run .withStatement = .ok () w' ∧
      t.timer.elapsedNano = -7 := by
  obtain ⟨⟨w', t⟩, hrun⟩ :
      ∃ p, (timedHandle .goneTable (fun n => (n : ℤ) + 7) 1 (.runStatement 0 [] ⟨0, true⟩)).run
      (.withStatement, ⟨0, .new⟩) = .ok () p := ⟨_, rfl⟩
  have hsteady : ∀ i : ℕ, (i : ℤ) + 7 ≤ ((i + 1 : ℕ) : ℤ) + 7 := by
    intro i
    omega
  obtain ⟨hplain, -, -, htime⟩ := (time_reported hsteady (by decide) (by decide)).2 _ _ _ hrun
  have hfails : ¬ (Task.runStatement 0 [] ⟨0, true⟩).Reprepares .goneTable
      .withStatement := by decide
  exact ⟨w', t, hrun, hplain, htime hfails⟩

end Tmysql4.Handler
