import Tmysql4.Persistence

/-! # What one failed re-preparation does to the others

`Database::Connect` prepares the cached statements in the order of their keys, and the first
failure ends it. `CallsConnect` gives the worlds in which a handler calls `connect`,
`PreparedSince` says that a statement has been prepared on the new connection, and `Task.Reported`
what the caller sees of an exception.

`isolation` is the result: every statement that the server accepts is prepared exactly when none
of them comes after a failure, and a failure is blamed on no valid query or statement exactly when
the valid ones meet none. -/

namespace Tmysql4.Handler

open Imperative

variable {lib : Lib} {w w' : World} {s t : StmtId} {live : List StmtId} {fns : List Fn}
  {base : HandleId} {entries : List (Bytes × StmtId)}

/-! ### The preparations of `connect` -/

/-- The statement has an open handle from `base` on, which was prepared with its query. -/
def PreparedSince (base : HandleId) (w : World) (s : StmtId) : Prop :=
  ∃ h, (w.stmt s).stmt = some h ∧ base ≤ h ∧ (w.handle h).closed = false ∧
    (w.handle h).query = some (w.stmt s).query

theorem preparedSince_congr {s : StmtId} (hstmt : w'.stmt s = w.stmt s)
    (hhandle : ∀ h, (w.stmt s).stmt = some h → w'.handle h = w.handle h) :
    PreparedSince base w' s ↔ PreparedSince base w s := by
  unfold PreparedSince
  rw [hstmt]
  constructor
  · rintro ⟨h, hs, hle, hclosed, hquery⟩
    rw [hhandle h hs] at hclosed hquery
    exact ⟨h, hs, hle, hclosed, hquery⟩
  · rintro ⟨h, hs, hle, hclosed, hquery⟩
    rw [← hhandle h hs] at hclosed hquery
    exact ⟨h, hs, hle, hclosed, hquery⟩

theorem prepare_preparedSince (h : Sound lib live w) (hbase : base ≤ w.nextHandle) :
    PreparedSince base (final ((prepare lib s).run w)) s ↔ Reprepares lib w 1 := by
  obtain ⟨hreplaced, hcounted⟩ := prepare_final lib s w
  constructor
  · rintro ⟨handle, hs, -, -, hquery⟩
    by_contra hone
    rw [hreplaced.unprepared hone handle hs] at hquery
    cases hquery
  · intro hone
    obtain ⟨handle, -, hs, hclosed, hquery, -⟩ := (hcounted h.counted).2 hone
    exact ⟨handle, hs, Nat.le_trans hbase (hreplaced.fresh handle hs).1, hclosed, hquery⟩

theorem sound_prepare (s : StmtId) : Preserves (Sound lib []) (prepare lib s) :=
  fun _ h => prepare_sound h fun hs => absurd hs List.not_mem_nil

/-- A statement that is not among the entries keeps its handle. -/
theorem prepareAll_others (h : Sound lib [] w) (ht : t ∉ entries.map Prod.snd) :
    (final ((prepareAll lib entries).run w)).stmt t = w.stmt t ∧
      ∀ handle, (w.stmt t).stmt = some handle →
      (final ((prepareAll lib entries).run w)).handle handle = w.handle handle := by
  induction entries generalizing w with
  | nil => exact ⟨rfl, fun _ _ => rfl⟩
  | cons entry entries ih =>
      obtain ⟨hne, ht⟩ : t ≠ entry.2 ∧ t ∉ entries.map Prod.snd := by simpa using ht
      have hreplaced := (prepare_final lib entry.2 w).1
      have hsound := sound_prepare entry.2 w h
      rw [prepareAll]
      cases hrun : (prepare lib entry.2).run w with
      | error e w₁ =>
          rw [hrun] at hreplaced
          rw [run_bind_error hrun]
          exact ⟨hreplaced.others t hne, fun handle hs => (hreplaced.kept h hne hs).2⟩
      | ok _ w₁ =>
          rw [hrun, final_ok] at hreplaced hsound
          have hsame := hreplaced.others t hne
          rw [run_bind_ok hrun]
          obtain ⟨hstmt, hhandle⟩ := ih hsound ht
          refine ⟨hstmt.trans hsame, fun handle hs => ?_⟩
          rw [hhandle handle (by rw [hsame, hs])]
          exact (hreplaced.kept h hne hs).2

/-- Entry `j` is prepared exactly when the preparations up to it succeed. -/
theorem prepareAll_preparedSince (h : Sound lib [] w) (hbase : base ≤ w.nextHandle)
    (hnodup : (entries.map Prod.snd).Nodup)
    (hold : ∀ entry ∈ entries, ∀ handle, (w.stmt entry.2).stmt = some handle → handle < base)
    {j : ℕ} {entry : Bytes × StmtId} (hj : entries[j]? = some entry) :
    PreparedSince base (final ((prepareAll lib entries).run w)) entry.2 ↔
      Reprepares lib w (j + 1) := by
  induction entries generalizing w j with
  | nil => cases hj
  | cons first entries ih =>
      obtain ⟨hfirst, hnodup⟩ := List.nodup_cons.mp hnodup
      have hreplaced := (prepare_final lib first.2 w).1
      have hsound := sound_prepare first.2 w h
      have hprepared : PreparedSince base (final ((prepare lib first.2).run w)) first.2 ↔
          Reprepares lib w 1 :=
        prepare_preparedSince h hbase
      rw [prepareAll]
      by_cases hone : Reprepares lib w 1
      · obtain ⟨w₁, n, hrun, hprep, -⟩ := prepare_ok first.2 hone
        rw [hrun, final_ok] at hreplaced hsound hprepared
        rw [run_bind_ok hrun]
        cases j with
        | zero =>
            cases hj
            obtain ⟨hstmt, hhandle⟩ := prepareAll_others hsound hfirst
            rw [preparedSince_congr hstmt hhandle]
            exact hprepared
        | succ j =>
            have hne : ∀ entry ∈ entries, entry.2 ≠ first.2 := fun entry he heq =>
              hfirst (List.mem_map.mpr ⟨entry, he, heq⟩)
            rw [ih hsound (Nat.le_trans hbase hreplaced.nextHandle) hnodup
              (fun entry he handle hs => ?_) hj, Nat.add_comm (j + 1) 1, hprep.reprepares_iff]
            · exact (and_iff_right hone).symm
            · rw [hreplaced.others entry.2 (hne entry he)] at hs
              exact hold entry (List.mem_cons_of_mem _ he) handle hs
      · obtain ⟨e, hfails⟩ := exists_failsWith hone
        obtain ⟨w₁, hrun⟩ := prepare_throws first.2 hfails
        rw [hrun, final_error] at hreplaced hprepared
        rw [run_bind_error hrun, final_error]
        refine iff_of_false (fun hsince => ?_) fun hall => hone (hall.le (Nat.succ_pos j))
        cases j with
        | zero =>
            cases hj
            exact hone (hprepared.mp hsince)
        | succ j =>
            have hmem : entry ∈ entries := List.mem_of_getElem? hj
            have hne : entry.2 ≠ first.2 := fun heq => hfirst (List.mem_map.mpr ⟨entry, hmem, heq⟩)
            obtain ⟨handle, hs, hle, -⟩ := hsince
            rw [hreplaced.others entry.2 hne] at hs
            exact absurd (hold entry (List.mem_cons_of_mem _ hmem) handle hs) (Nat.not_lt.mpr hle)

/-- The server accepts the query of the cached statement `j`. -/
def Accepts (lib : Lib) (w : World) (j : ℕ) : Prop :=
  lib.stmtPrepare (w.calls .stmtPrepare + j) = none

/-- `connect`, called in the world `w`, prepares every cached statement that the server accepts
when `mysql_real_connect` succeeds. -/
def PreparesAccepted (lib : Lib) (w : World) : Prop :=
  Opens lib w → ∀ j entry, w.preparedStatements[j]? = some entry → Accepts lib w j →
    PreparedSince w.nextHandle (final ((connect lib true).run w)) entry.2

/-- Up to every accepted statement, the character set is restored and the preparations succeed. -/
def ReachesAccepted (lib : Lib) (w : World) : Prop :=
  Opens lib w → ∀ j < w.preparedStatements.length, Accepts lib w j →
    (w.charSet = [] ∨ lib.setCharacterSet (w.calls .setCharacterSet) = none) ∧
      Reprepares lib w (j + 1)

theorem openable_nextHandle (n : HandleId) :
    Openable soundFns fun w => Sound lib [] w ∧ w.nextHandle = n where
  call f hf w h := ⟨openable_sound.call f hf w h.1, h.2⟩
  connError d w h := ⟨openable_sound.connError d w h.1, h.2⟩
  handle handle d binds w h := ⟨openable_sound.handle handle d binds w h.1, h.2⟩
  locals l n w h := ⟨openable_sound.locals l n w h.1, h.2⟩
  frees f w h := ⟨openable_sound.frees f w h.1, h.2⟩
  waiter t w h := ⟨openable_sound.waiter t w h.1, h.2⟩
  isPendingCallback b w h := ⟨openable_sound.isPendingCallback b w h.1, h.2⟩
  opens := by decide
  quiet r he hp w h := ⟨openable_sound.quiet r he hp w h.1, h.2⟩
  charSet c w h := ⟨openable_sound.charSet c w h.1, h.2⟩

theorem connect_preparedSince (h : Sound lib [] w)
    (hnodup : (w.preparedStatements.map Prod.snd).Nodup) {j : ℕ} {entry : Bytes × StmtId}
    (hj : w.preparedStatements[j]? = some entry) :
    PreparedSince w.nextHandle (final ((connect lib true).run w)) entry.2 ↔
      Connects lib w ∧ Reprepares lib w (j + 1) := by
  by_cases hc : Connects lib w
  · refine connect_final (J := fun w' => PreparedSince w.nextHandle w' entry.2 ↔
      Connects lib w ∧ Reprepares lib w (j + 1))
      (openable_nextHandle w.nextHandle) (fun _ _ hJ => hJ) ⟨h, rfl⟩ (fun hno => absurd hc hno) ?_
    rintro w₁ - ho ⟨hsound, hnext⟩
    rw [prepareAll_preparedSince hsound (Nat.le_of_eq hnext.symm) hnodup
      (fun entry _ handle hs => ?_) hj, reprepares_congr ho.frame (by decide) (by decide)]
    · exact (and_iff_right hc).symm
    · rw [ho.stmt] at hs
      exact h.handle_lt entry.2 handle hs
  · obtain ⟨error, w', hrun, ho⟩ := connect_refused true hc
    rw [hrun, final_ok]
    refine iff_of_false ?_ fun hboth => hc hboth.1
    rintro ⟨handle, hs, hle, -⟩
    rw [ho.stmt] at hs
    exact absurd (h.handle_lt entry.2 handle hs) (Nat.not_lt.mpr hle)

theorem preparesAccepted_iff (h : Sound lib [] w)
    (hnodup : (w.preparedStatements.map Prod.snd).Nodup) :
    PreparesAccepted lib w ↔ ReachesAccepted lib w := by
  constructor
  · intro hall hopens j hj haccepts
    have hentry : w.preparedStatements[j]? = some w.preparedStatements[j] :=
      List.getElem?_eq_getElem hj
    obtain ⟨⟨-, -, -, hcharset⟩, hprepares⟩ :=
      (connect_preparedSince h hnodup hentry).mp (hall hopens j _ hentry haccepts)
    exact ⟨hcharset, hprepares⟩
  · intro hall hopens j entry hentry haccepts
    obtain ⟨hj, -⟩ := List.getElem?_eq_some_iff.mp hentry
    obtain ⟨hcharset, hprepares⟩ := hall hopens j hj haccepts
    exact (connect_preparedSince h hnodup hentry).mpr
      ⟨⟨hopens.1, hopens.2.1, hopens.2.2, hcharset⟩, hprepares⟩

/-! ### The calls of `connect` in a handler -/

/-- The worlds in which a handler that starts in `w` calls `connect`: after a send, an execution
or the execution after a re-preparation that lost the connection. -/
inductive CallsConnect (lib : Lib) (w : World) : Task → World → Prop where
  | send {action query w₁} (hsend : (mysqlRealQuery lib query).run w = .ok true w₁)
      (hlost : lostConnection w₁.connError.errno = true) :
      CallsConnect lib w (.runQuery action query) w₁
  | execution {s binds action d w₁}
      (hexecute : (attempt lib s (retagBinds binds (w.stmt s).numArgs)).run w = .ok d w₁)
      (hlost : lostConnection d.errno = true) : CallsConnect lib w (.runStatement s binds action) w₁
  | reprepared {s binds action d w₁ w₂ d' w₃}
      (hexecute : (attempt lib s (retagBinds binds (w.stmt s).numArgs)).run w = .ok d w₁)
      (hunknown : d.errno = 1243) (hprepare : (prepare lib s).run w₁ = .ok () w₂)
      (hexecute' : (attempt lib s (retagBinds binds (w.stmt s).numArgs)).run w₂ = .ok d' w₃)
      (hlost : lostConnection d'.errno = true) :
      CallsConnect lib w (.runStatement s binds action) w₃

theorem CallsConnect.sound {task : Task} (hcalls : CallsConnect lib w task w')
    (h : Sound lib [] w) : Sound lib [] w' ∧ w'.preparedStatements = w.preparedStatements := by
  cases hcalls with
  | send hsend hlost =>
      have hframe : Frame [.realQuery] w w' :=
        (frame_mysqlRealQuery (by decide) _).ok hsend (.refl _ _)
      exact ⟨(sound_mysqlRealQuery _).ok hsend h, hframe.preparedStatements⟩
  | execution hexecute hlost =>
      have hframe : Frame [.stmtExecute] w w' :=
        (frame_attempt (by decide) _ _).ok hexecute (.refl _ _)
      exact ⟨(sound_attempt _ _).ok hexecute h, hframe.preparedStatements⟩
  | reprepared hexecute hunknown hprepare hexecute' hlost =>
      have hframe : Frame [.stmtExecute] w _ :=
        (frame_attempt (by decide) _ _).ok hexecute (.refl _ _)
      have hframe' : Frame prepareFns _ _ :=
        ((preparable_frame (List.Subset.refl _)).prepare _).ok hprepare (.refl _ _)
      have hframe'' : Frame [.stmtExecute] _ w' :=
        (frame_attempt (by decide) _ _).ok hexecute' (.refl _ _)
      refine ⟨(sound_attempt _ _).ok hexecute'
        ((sound_prepare _).ok hprepare ((sound_attempt _ _).ok hexecute h)), ?_⟩
      rw [hframe''.preparedStatements, hframe'.preparedStatements, hframe.preparedStatements]

/-! ### What is reported -/

/-- The statements that the recoveries of a handler prepare, in order. -/
def Task.targets (lib : Lib) (w : World) : Task → List StmtId
  | .runQuery _ _ => if Resends lib w then w.preparedStatements.map Prod.snd else []
  | .runStatement s _ _ => (statementPlan lib w).flatMap fun
      | .reconnect => w.preparedStatements.map Prod.snd
      | .reprepare => [s]
  | .createStatement _ => []

/-- The server would answer the query that is sent again, or
accepts the statement whenever it is prepared again. -/
def Task.Valid (lib : Lib) (w : World) : Task → Prop
  | .runQuery _ _ => sendOutcome lib w 1 = none
  | .runStatement s binds action =>
      ∀ i, (Task.targets lib w (.runStatement s binds action))[i]? = some s → Accepts lib w i
  | .createStatement _ => True

/-- The error leaves `RunQuery`, or is the result of the statement run. -/
def Task.Reported (lib : Lib) (w : World) (e : LibError) : Task → Prop
  | .runQuery action query => ∃ fuel w', (handle lib fuel (.runQuery action query)).run w =
      .error (.myException e.errno e.text) w'
  | .runStatement s binds action =>
      ∃ fuel w' r, (handle lib fuel (.runStatement s binds action)).run w = .ok () w' ∧
      w'.completedActions = w.completedActions ++ [(action, [r])] ∧ r.iError = e.errno ∧
        r.cause = e.diag
  | .createStatement _ => False

/-- A failed re-preparation is not reported as the error of a valid query or statement. -/
def Unblamed (lib : Lib) (w : World) (task : Task) : Prop :=
  ∀ e, FailsWith lib w (task.targets lib w).length e → task.Reported lib w e → ¬ task.Valid lib w

/-- A statement run has a handle to start with. -/
def Task.HasHandle (w : World) : Task → Prop
  | .runStatement s _ _ => (w.stmt s).stmt ≠ none
  | _ => True

theorem length_targets (s : StmtId) (binds : List Bind) (action : DatabaseAction) :
    (Task.targets lib w (.runStatement s binds action)).length =
      preparations w.preparedStatements.length (statementPlan lib w) := by
  rw [Task.targets, preparations, List.length_flatMap]
  congr 1
  refine List.map_congr_left fun r _ => ?_
  cases r with
  | reconnect => exact List.length_map _
  | reprepare => rfl

/-- A failed re-preparation is reported. -/
theorem reported_of_fails {task : Task} (hs : task.HasHandle w)
    (h : ¬ Reprepares lib w (task.targets lib w).length) :
    ∃ e, FailsWith lib w (task.targets lib w).length e ∧ task.Reported lib w e := by
  cases task with
  | runQuery action query =>
      obtain ⟨e, hfails⟩ := exists_failsWith h
      refine ⟨e, hfails, 1, ?_⟩
      rw [Task.targets] at hfails
      split at hfails
      · rename_i hr
        rw [List.length_map] at hfails
        obtain ⟨w', hthrow⟩ := send_throws query 0 hr hfails
        exact ⟨w', by rw [handle, runQuery, run_bind_error hthrow]⟩
      · exact absurd reprepares_zero hfails.not_reprepares
  | runStatement s binds action =>
      rw [length_targets] at h ⊢
      obtain ⟨hrec, -⟩ | ⟨e, hfails, w₁, hthrow⟩ :=
        executions_run lib (retagBinds binds (w.stmt s).numArgs) 0 hs
      · exact absurd hrec h
      · have hexecute : (execute lib 3 s binds).run w =
            .error (.myException e.errno e.text) w₁ := by
          rw [execute_run, run_bind_error hthrow]
        have hframe : Frame executeFns w w₁ :=
          (frame_executions (List.Subset.refl _) s _ 3 false false).error hthrow (.refl _ _)
        obtain ⟨r, w₂, hrun, hcompleted, herrno, hcause⟩ := caught_run lib ⟨e.errno, e.text⟩ w₁
        refine ⟨e, hfails, 3,
          { w₂ with completedActions := w₂.completedActions ++ [(action, [r])] }, r, ?_, ?_,
          herrno, hcause⟩
        · rw [handle, runStatement, run_bind_ok ((catchMyException_caught hexecute).trans hrun)]
          rfl
        · show w₂.completedActions ++ _ = _
          rw [hcompleted, hframe.completedActions]
  | createStatement query => exact absurd reprepares_zero h

theorem unblamed_iff (lib : Lib) (w : World) (task : Task) :
    Unblamed lib w task ↔
      (task.HasHandle w → task.Valid lib w → Reprepares lib w (task.targets lib w).length) := by
  constructor
  · intro hun hs hvalid
    by_contra h
    obtain ⟨e, hfails, hreported⟩ := reported_of_fails hs h
    exact hun e hfails hreported hvalid
  · intro h e hfails hreported hvalid
    refine hfails.not_reprepares (h ?_ hvalid)
    cases task with
    | runStatement s binds action =>
        obtain ⟨fuel, w', r, hrun, -⟩ := hreported
        exact (runStatement_pushed hrun).1.1
    | runQuery action query => trivial
    | createStatement query => trivial

/-! ### Runs -/

theorem persistent_sound : Persistent lib (fun _ => True) (fun _ => True) (Sound lib []) :=
  openable_sound.persistent (fun _ _ _ _ => trivial)
    (fun _ _ h => ⟨h.prepares, h.counts, h.handle_inj, h.handle_lt, h.live_lt, h.holds⟩)
    (fun r hr _ w h => h.record fun σ => by
      cases r with
      | stmtPrepare handle query => cases hr
      | _ => rfl)
    fun s _ => sound_prepare s

theorem sound_handle (fuel : ℕ) (task : Task) :
    Preserves (Sound lib []) (handle lib fuel task) := by
  cases task with
  | runQuery action query => exact persistent_sound.runQuery trivial fuel action
  | runStatement s binds action =>
      exact persistent_sound.runStatement (fun _ _ => trivial) trivial fuel binds action
  | createStatement query =>
      exact fun w h => (createStatement_sound h query).mono (List.nil_subset _)

theorem sound_reachable {c : Credentials} {tr : List Label}
    (h : Transition.exec (step lib) (.opened c) tr = some w) : Sound lib [] w := by
  refine Transition.exec_inv' (I := fun w => Sound lib [] w) (fun w l w' hI hs => ?_)
    (Population.sound_start lib c) h
  cases l with
  | task fuel task =>
      have hsound := sound_handle fuel task w hI
      simp only [step] at hs
      split at hs
      · rename_i w₁ hrun
        cases hs
        rw [hrun] at hsound
        exact hsound
      · cases hs
  | register query s =>
      cases hs
      exact ⟨hI.prepares, hI.counts, hI.handle_inj, hI.handle_lt, hI.live_lt, hI.holds⟩
  | poll =>
      cases hs
      exact ⟨hI.prepares, hI.counts, hI.handle_inj, hI.handle_lt, hI.live_lt, hI.holds⟩

/-- **When the re-preparations are isolated.** Wherever a handler calls `connect` and the server
is reached, all accepted statements are prepared if and only if the character set and the
preparations up to each of them succeed; and no valid query or statement is blamed if and only if
the recoveries of a valid one meet no failure. -/
theorem isolation {c : Credentials} {tr : List Label} {task : Task} {w₁ : World}
    (h : Transition.exec (step lib) (.opened c) tr = some w)
    (hnodup : (w.preparedStatements.map Prod.snd).Nodup) (hcalls : CallsConnect lib w task w₁) :
    (PreparesAccepted lib w₁ ↔ ReachesAccepted lib w₁) ∧
      (Unblamed lib w task ↔
        (task.HasHandle w → task.Valid lib w → Reprepares lib w (task.targets lib w).length)) := by
  obtain ⟨hsound, hcached⟩ := hcalls.sound (sound_reachable h)
  exact ⟨preparesAccepted_iff hsound (hcached ▸ hnodup), unblamed_iff lib w task⟩

/-- The first execution loses the connection, and then the
server refuses the first of two statements. -/
def goneFirst : Lib :=
  { Lib.calm with
    stmtExecute := fun k => if k = 0 then some .serverLost else none
    stmtPrepare := fun k => if k = 2 then some .noSuchTable else none }

/-- The handlers that create and cache two statements. -/
def twoStatements : List Label :=
  [.task 1 (.createStatement [97]), .register [97] 0, .task 1 (.createStatement [98]),
    .register [98] 1]

/-- The second statement, which the server accepts, is not
prepared, and its run reports the error of the first. -/
theorem isolation_fails :
    ∃ w w₁, Transition.exec (step goneFirst) (.opened ⟨[], [], [], [], 3306, [], 0⟩) twoStatements =
      some w ∧ CallsConnect goneFirst w (.runStatement 1 [] ⟨0, true⟩) w₁ ∧ Opens goneFirst w₁ ∧
      ¬ PreparesAccepted goneFirst w₁ ∧ ¬ Unblamed goneFirst w (.runStatement 1 [] ⟨0, true⟩) := by
  have hrun : (Transition.exec (step goneFirst) (.opened ⟨[], [], [], [], 3306, [], 0⟩)
      twoStatements).map (fun w =>
      decide ((w.stmt 1).stmt = some 1 ∧ w.calls .stmtExecute = 0 ∧ w.calls .stmtPrepare = 2 ∧
        w.preparedStatements = [([97], 0), ([98], 1)] ∧
        Task.targets goneFirst w (.runStatement 1 [] ⟨0, true⟩) = [0, 1])) =
          some true := by decide +kernel
  obtain ⟨w, hexec, hw⟩ := Option.map_eq_some_iff.mp hrun
  obtain ⟨hs, hexecutes, hprepares, hcached, htargets⟩ := of_decide_eq_true hw
  obtain ⟨w₁, hattempt, hatt⟩ := attempt_run goneFirst (retagBinds [] (w.stmt 1).numArgs) hs
  have hlost : lostConnection (diagOf (executeOutcome goneFirst w 0)).errno = true := by
    rw [executeOutcome, hexecutes]
    rfl
  have hcalls : CallsConnect goneFirst w (.runStatement 1 [] ⟨0, true⟩) w₁ :=
    .execution hattempt hlost
  have hprepares₁ : w₁.calls .stmtPrepare = 2 :=
    (hatt.frame.calls .stmtPrepare (by decide)).trans hprepares
  obtain ⟨hsound, hcached₁⟩ := hcalls.sound (sound_reachable hexec)
  refine ⟨w, w₁, hexec, hcalls, ⟨rfl, rfl, rfl⟩, ?_, ?_⟩
  · rw [preparesAccepted_iff hsound (by rw [hcached₁, hcached]; decide)]
    intro hreaches
    have haccepts : Accepts goneFirst w₁ 1 := by
      rw [Accepts, hprepares₁]
      rfl
    have hfirst := (hreaches ⟨rfl, rfl, rfl⟩ 1 (by rw [hcached₁, hcached]; decide) haccepts).2 0
      (by decide)
    rw [hprepares₁] at hfirst
    cases hfirst.2
  · rw [unblamed_iff]
    intro hvalid
    have haccepts : Task.Valid goneFirst w (.runStatement 1 [] ⟨0, true⟩) := by
      intro i hi
      rw [htargets] at hi
      rw [Accepts, hprepares]
      obtain _ | _ | i := i
      · cases hi
      · rfl
      · cases hi
    have hfirst := hvalid (by rw [Task.HasHandle, hs]; exact Option.some_ne_none _) haccepts 0
      (by rw [htargets]; decide)
    rw [hprepares] at hfirst
    cases hfirst.2

/-- The first execution loses the connection, and then the server refuses the second statement. -/
def goneSecond : Lib :=
  { Lib.calm with
    stmtExecute := fun k => if k = 0 then some .serverLost else none
    stmtPrepare := fun k => if k = 3 then some .noSuchTable else none }

/-- The first statement is prepared before the second one fails, and the error that is reported is
that of the statement. -/
theorem isolation_goneSecond :
    ∃ w w₁, Transition.exec (step goneSecond) (.opened ⟨[], [], [], [], 3306, [], 0⟩)
      twoStatements = some w ∧
      CallsConnect goneSecond w (.runStatement 1 [] ⟨0, true⟩) w₁ ∧ PreparesAccepted goneSecond w₁ ∧
      Unblamed goneSecond w (.runStatement 1 [] ⟨0, true⟩) := by
  have hrun : (Transition.exec (step goneSecond) (.opened ⟨[], [], [], [], 3306, [], 0⟩)
      twoStatements).map (fun w =>
      decide ((w.stmt 1).stmt = some 1 ∧ w.calls .stmtExecute = 0 ∧ w.calls .stmtPrepare = 2 ∧
        w.charSet = [] ∧ w.preparedStatements = [([97], 0), ([98], 1)] ∧
        Task.targets goneSecond w (.runStatement 1 [] ⟨0, true⟩) = [0, 1])) =
          some true := by decide +kernel
  obtain ⟨w, hexec, hw⟩ := Option.map_eq_some_iff.mp hrun
  obtain ⟨hs, hexecutes, hprepares, hcharset, hcached, htargets⟩ := of_decide_eq_true hw
  obtain ⟨w₁, hattempt, hatt⟩ := attempt_run goneSecond (retagBinds [] (w.stmt 1).numArgs) hs
  have hlost : lostConnection (diagOf (executeOutcome goneSecond w 0)).errno = true := by
    rw [executeOutcome, hexecutes]
    rfl
  have hcalls : CallsConnect goneSecond w (.runStatement 1 [] ⟨0, true⟩) w₁ :=
    .execution hattempt hlost
  have hprepares₁ : w₁.calls .stmtPrepare = 2 :=
    (hatt.frame.calls .stmtPrepare (by decide)).trans hprepares
  have hcached₁ := (hcalls.sound (sound_reachable hexec)).2
  obtain ⟨haccepted, hunblamed⟩ := isolation hexec (by rw [hcached]; decide) hcalls
  refine ⟨w, w₁, hexec, hcalls, haccepted.mpr fun _ j hj haccepts => ?_,
    hunblamed.mpr fun _ hvalid => ?_⟩
  · rw [hcached₁, hcached] at hj
    rw [Accepts, hprepares₁] at haccepts
    obtain rfl | rfl : j = 0 ∨ j = 1 := by
      have : j < 2 := hj
      omega
    · refine ⟨.inl ((hatt.frame.charSet (by decide)).trans hcharset), fun i hi => ⟨rfl, ?_⟩⟩
      obtain rfl : i = 0 := Nat.lt_one_iff.mp hi
      rw [hprepares₁]
      rfl
    · cases haccepts
  · have hown := hvalid 1 (by rw [htargets]; rfl)
    rw [Accepts, hprepares] at hown
    cases hown

end Tmysql4.Handler
