import Tmysql4.Returns

/-! # The representation of a prepared statement

`PrepareHistory` replays the log of requests: how often `mysql_stmt_prepare`
was called, and which queries it accepted.  `Population` runs handlers next
to the list of live statements, and `Represented` says that a statement's
handle was prepared with `m_query` and has `m_numArgs` parameters.

`representation` is the result: in a run whose re-preparations succeed, every live statement is
represented. Its invariant is `Sound`, whose step lemma for a preparation is `prepare_sound`. -/

namespace Tmysql4.Handler

open Imperative

variable {lib : Lib} {w w' w₀ : World} {s t : StmtId} {binds : List Bind} {query : Bytes}
  {live : List StmtId} {fns : List Fn}

/-! ### The history of preparations -/

/-- The calls of `mysql_stmt_prepare` so far, and the queries that were accepted. -/
structure PrepareHistory where
  prepares : ℕ
  accepted : List Bytes
deriving DecidableEq

def PrepareHistory.after (lib : Lib) (σ : PrepareHistory) : Request → PrepareHistory
  | .stmtPrepare _ query =>
      { prepares := σ.prepares + 1
        accepted := σ.accepted ++ if (lib.stmtPrepare σ.prepares).isSome then [] else [query] }
  | _ => σ

def prepareHistory (lib : Lib) (log : List Request) : PrepareHistory :=
  log.foldl (PrepareHistory.after lib) ⟨0, []⟩

theorem prepareHistory_snoc (lib : Lib) (log : List Request) (r : Request) :
    prepareHistory lib (log ++ [r]) = (prepareHistory lib log).after lib r := by
  rw [prepareHistory, List.foldl_append]
  rfl

/-- The statement's handle is open and was prepared with its query, and `m_numArgs` is the number
that the library reported then. -/
def Holds (lib : Lib) (w : World) (s : StmtId) : Prop :=
  ∃ h i, (w.stmt s).stmt = some h ∧ (w.handle h).closed = false ∧
    (w.handle h).query = some (w.stmt s).query ∧
    (prepareHistory lib w.log).accepted[i]? = some (w.stmt s).query ∧
      (w.stmt s).numArgs = lib.stmtParamCount i

/-- What holds between the handlers, with `live` the statements that exist. -/
structure Sound (lib : Lib) (live : List StmtId) (w : World) : Prop where
  prepares : (prepareHistory lib w.log).prepares = w.calls .stmtPrepare
  counts : (prepareHistory lib w.log).accepted.length = w.calls .stmtParamCount
  /-- A handle belongs to one statement. -/
  handle_inj : ∀ s s' h, (w.stmt s).stmt = some h → (w.stmt s').stmt = some h → s = s'
  handle_lt : ∀ s h, (w.stmt s).stmt = some h → h < w.nextHandle
  live_lt : ∀ s ∈ live, s < w.nextStmt
  holds : ∀ s ∈ live, Holds lib w s

/-- A request other than a preparation is recorded. -/
theorem Sound.record (h : Sound lib live w) {r : Request}
    (hr : ∀ σ, PrepareHistory.after lib σ r = σ) :
    Sound lib live { w with log := w.log ++ [r] } := by
  have hlog : prepareHistory lib (w.log ++ [r]) =
      prepareHistory lib w.log := by rw [prepareHistory_snoc, hr]
  exact ⟨hlog ▸ h.prepares, hlog ▸ h.counts, h.handle_inj, h.handle_lt, h.live_lt,
    fun s hs => by simpa only [Holds, hlog] using h.holds s hs⟩

/-- The functions that do not prepare anything. -/
def soundFns : List Fn :=
  .stmtInit :: .realQuery :: .stmtExecute :: sessionOpenFns ++ queryFns ++ statementFns

theorem openable_sound : Openable soundFns (Sound lib live) where
  call f hf w h := by
    have hne : ∀ {g : Fn}, g ∉ soundFns → g ≠ f := fun hg he => hg (he ▸ hf)
    exact ⟨by rw [counted_calls_ne w (hne (by decide))]; exact h.prepares,
      by rw [counted_calls_ne w (hne (by decide))]; exact h.counts, h.handle_inj, h.handle_lt,
        h.live_lt, h.holds⟩
  connError _ _ h := ⟨h.prepares, h.counts, h.handle_inj, h.handle_lt, h.live_lt, h.holds⟩
  handle handle d binds w h := by
    refine ⟨h.prepares, h.counts, h.handle_inj, h.handle_lt, h.live_lt, fun s hs => ?_⟩
    obtain ⟨h', i, hstmt, hclosed, hquery, hi⟩ := h.holds s hs
    refine ⟨h', i, hstmt, ?_, ?_, hi⟩
    · show (Function.update w.handle handle _ h').closed = false
      rw [Function.update_apply]
      split
      · rename_i heq
        exact heq ▸ hclosed
      · exact hclosed
    · show (Function.update w.handle handle _ h').query = _
      rw [Function.update_apply]
      split
      · rename_i heq
        exact heq ▸ hquery
      · exact hquery
  locals _ _ _ h := ⟨h.prepares, h.counts, h.handle_inj, h.handle_lt, h.live_lt, h.holds⟩
  frees _ _ h := ⟨h.prepares, h.counts, h.handle_inj, h.handle_lt, h.live_lt, h.holds⟩
  waiter _ _ h := ⟨h.prepares, h.counts, h.handle_inj, h.handle_lt, h.live_lt, h.holds⟩
  isPendingCallback _ _ h := ⟨h.prepares, h.counts, h.handle_inj, h.handle_lt, h.live_lt, h.holds⟩
  opens := by decide
  quiet r he hp w h := h.record fun σ => by
    cases r with
    | stmtPrepare handle query => cases hp
    | _ => rfl
  charSet _ _ h := ⟨h.prepares, h.counts, h.handle_inj, h.handle_lt, h.live_lt, h.holds⟩

/-! ### A preparation -/

/-- What `Prepare` does to the objects, whether it succeeds or not. -/
structure Replaced (lib : Lib) (s : StmtId) (w w' : World) : Prop where
  others : ∀ t, t ≠ s → w'.stmt t = w.stmt t
  query : (w'.stmt s).query = (w.stmt s).query
  fresh : ∀ h, (w'.stmt s).stmt = some h → w.nextHandle ≤ h ∧ h < w'.nextHandle
  nextHandle : w.nextHandle ≤ w'.nextHandle
  nextStmt : w'.nextStmt = w.nextStmt
  handle : ∀ h < w.nextHandle, (w.stmt s).stmt ≠ some h → w'.handle h = w.handle h
  unprepared : ¬ Reprepares lib w 1 → ∀ h, (w'.stmt s).stmt = some h → (w'.handle h).query = none
  accepted : (prepareHistory lib w.log).accepted <+: (prepareHistory lib w'.log).accepted

/-- The counts of the history are those of the calls. -/
def Counted (lib : Lib) (w : World) : Prop :=
  (prepareHistory lib w.log).prepares = w.calls .stmtPrepare ∧
    (prepareHistory lib w.log).accepted.length = w.calls .stmtParamCount

/-- `closeHandle` as a function. -/
def World.closing (w : World) : Option HandleId → World
  | none => w
  | some h => { w with
      log := w.log ++ [.stmtClose h]
      handle := Function.update w.handle h { w.handle h with closed := true } }

theorem closeHandle_closing (stmt : Option HandleId) (w : World) :
    (closeHandle stmt).run w = .ok () (w.closing stmt) := by
  cases stmt with
  | none => rfl
  | some h => rfl

theorem closing_history (stmt : Option HandleId) (w : World) :
    prepareHistory lib (w.closing stmt).log = prepareHistory lib w.log := by
  cases stmt with
  | none => rfl
  | some h =>
      show prepareHistory lib (w.log ++ [.stmtClose h]) = _
      rw [prepareHistory_snoc]
      rfl

theorem closing_handle {stmt : Option HandleId} {h : HandleId} (hne : stmt ≠ some h) :
    (w.closing stmt).handle h = w.handle h := by
  cases stmt with
  | none => rfl
  | some h' => exact Function.update_of_ne (fun he => hne (congrArg some he.symm)) _ _

theorem closing_eq (stmt : Option HandleId) (w : World) : (w.closing stmt).calls = w.calls ∧
    (w.closing stmt).stmt = w.stmt ∧ (w.closing stmt).nextHandle = w.nextHandle ∧
    (w.closing stmt).nextStmt = w.nextStmt := by
  cases stmt with
  | none => exact ⟨rfl, rfl, rfl, rfl⟩
  | some h => exact ⟨rfl, rfl, rfl, rfl⟩

theorem mysqlStmtInit_none_run {e : LibError} (h : lib.stmtInit (w.calls .stmtInit) = some e) :
    (mysqlStmtInit lib).run w = .ok none { w.counted .stmtInit with connError := e.diag } := by
  rw [mysqlStmtInit, run_bind_ok (tick_run _ _)]
  simp only [h]
  rfl

theorem mysqlStmtInit_some_run (h : lib.stmtInit (w.calls .stmtInit) = none) :
    (mysqlStmtInit lib).run w = .ok (some w.nextHandle) { w.counted .stmtInit with
      handle := Function.update w.handle w.nextHandle ⟨false, .clear, none, []⟩
      nextHandle := w.nextHandle + 1 } := by
  rw [mysqlStmtInit, run_bind_ok (tick_run _ _)]
  simp only [h]
  rfl

theorem mysqlStmtPrepare_some_run {h : HandleId} {e : LibError}
    (he : lib.stmtPrepare (w.calls .stmtPrepare) = some e) :
    (mysqlStmtPrepare lib h query).run w = .ok true { w.counted .stmtPrepare with
      log := w.log ++ [.stmtPrepare h query]
      connError := e.diag
      handle := Function.update w.handle h { w.handle h with error := e.diag } } := by
  rw [mysqlStmtPrepare, run_bind_ok (record_run _ _), run_bind_ok (tick_run _ _),
    run_bind_ok (reportStmt_run _ _ _)]
  simp only [he]
  rfl

theorem mysqlStmtPrepare_none_run {h : HandleId}
    (he : lib.stmtPrepare (w.calls .stmtPrepare) = none) :
    (mysqlStmtPrepare lib h query).run w = .ok false { w.counted .stmtPrepare with
      log := w.log ++ [.stmtPrepare h query]
      connError := .clear
      handle := Function.update w.handle h
        { w.handle h with error := .clear, query := some query } } := by
  rw [mysqlStmtPrepare, run_bind_ok (record_run _ _), run_bind_ok (tick_run _ _),
    run_bind_ok (reportStmt_run _ _ _)]
  simp only [he]
  rw [run_bind_ok (EStateM.run_modify _ _)]
  simp only [Function.update_self, Function.update_idem]
  rfl

theorem prepare_final (lib : Lib) (s : StmtId) (w : World) :
    Replaced lib s w (final ((prepare lib s).run w)) ∧
      (Counted lib w → Counted lib (final ((prepare lib s).run w)) ∧
      (Reprepares lib w 1 → Holds lib (final ((prepare lib s).run w)) s)) := by
  obtain ⟨hcalls, hstmt, hnext, hnextStmt⟩ := closing_eq (w.stmt s).stmt w
  have hhistory : prepareHistory lib (w.closing (w.stmt s).stmt).log = prepareHistory lib w.log :=
    closing_history _ _
  have hhandle : ∀ h < w.nextHandle, (w.stmt s).stmt ≠ some h →
      (w.closing (w.stmt s).stmt).handle h = w.handle h := fun h _ hne => closing_handle hne
  have hone : Reprepares lib w 1 ↔
      lib.stmtInit ((w.closing (w.stmt s).stmt).calls .stmtInit) = none ∧
      lib.stmtPrepare ((w.closing (w.stmt s).stmt).calls .stmtPrepare) = none := by
    rw [reprepares_one, hcalls]
  rw [prepare, run_bind_ok (EStateM.run_get _), run_bind_ok (closeHandle_closing _ _)]
  generalize w.closing (w.stmt s).stmt = w₁ at *
  cases hinit : lib.stmtInit (w₁.calls .stmtInit) with
  | some e =>
      rw [run_bind_ok (mysqlStmtInit_none_run hinit), run_bind_ok (setStmt_run _ _ _), prepareOn,
        throwException_run]
      refine ⟨⟨fun t ht => ?_, ?_, ?_, ?_, ?_, ?_, ?_, ?_⟩, fun hcounted => ⟨?_, fun h => ?_⟩⟩
      · simp [World.counted, Function.update_of_ne ht, hstmt]
      · simp
      · simp
      · simp [World.counted, hnext]
      · simp [World.counted, hnextStmt]
      · simpa [World.counted] using hhandle
      · simp
      · simp [World.counted, hhistory]
      · simpa [Counted, World.counted, hhistory, hcalls] using hcounted
      · rw [hone, hinit] at h
        cases h.1
  | none =>
      rw [run_bind_ok (mysqlStmtInit_some_run hinit), run_bind_ok (setStmt_run _ _ _), prepareOn]
      cases hprepare : lib.stmtPrepare (w₁.calls .stmtPrepare) with
      | some e =>
          rw [run_bind_ok (mysqlStmtPrepare_some_run (by simpa [World.counted] using hprepare)),
            if_pos rfl, throwException_run]
          refine ⟨⟨fun t ht => ?_, ?_, ?_, ?_, ?_, fun h hlt hne => ?_, ?_, ?_⟩,
            fun hcounted => ⟨?_, fun h => ?_⟩⟩
          · simp [World.counted, Function.update_of_ne ht, hstmt]
          · simp [World.counted]
          · simp [World.counted, hnext]
          · simp [World.counted, hnext]
          · simp [World.counted, hnextStmt]
          · simp [World.counted, Function.update_of_ne (Nat.ne_of_lt (hnext ▸ hlt)),
              hhandle h hlt hne]
          · simp [World.counted]
          · simp [World.counted, prepareHistory_snoc, PrepareHistory.after, hhistory]
          · obtain ⟨hprepares, hcounts⟩ := hcounted
            simp [Counted, World.counted, prepareHistory_snoc, PrepareHistory.after, hhistory,
              hprepares, hcounts, hcalls, hcalls ▸ hprepare]
          · rw [hone, hprepare] at h
            cases h.2
      | none =>
          rw [run_bind_ok (mysqlStmtPrepare_none_run (by simpa [World.counted] using hprepare)),
            if_neg Bool.false_ne_true, mysqlStmtParamCount,
              run_bind_ok (run_map_ok _ (tick_run _ _)), setStmt_run]
          refine ⟨⟨fun t ht => ?_, ?_, ?_, ?_, ?_, fun h hlt hne => ?_, fun h => ?_, ?_⟩,
            fun hcounted => ⟨?_, fun _ => ?_⟩⟩
          · simp [World.counted, Function.update_of_ne ht, hstmt]
          · simp [World.counted]
          · simp [World.counted, hnext]
          · simp [World.counted, hnext]
          · simp [World.counted, hnextStmt]
          · simp [World.counted, Function.update_of_ne (Nat.ne_of_lt (hnext ▸ hlt)),
              hhandle h hlt hne]
          · exact absurd (hone.mpr ⟨hinit, hprepare⟩) h
          · simp [World.counted, prepareHistory_snoc, PrepareHistory.after, hhistory]
          · obtain ⟨hprepares, hcounts⟩ := hcounted
            simp [Counted, World.counted, prepareHistory_snoc, PrepareHistory.after, hhistory,
              hprepares, hcounts, hcalls, hcalls ▸ hprepare]
          · obtain ⟨hprepares, hcounts⟩ := hcounted
            refine ⟨w₁.nextHandle, w.calls .stmtParamCount, ?_, ?_, ?_, ?_, ?_⟩
            · simp
            · simp [World.counted]
            · simp [World.counted]
            · simp [World.counted, prepareHistory_snoc, PrepareHistory.after, hhistory, hprepares,
                ← hcounts, hcalls ▸ hprepare]
            · simp [World.counted, hcalls]

theorem Sound.counted (h : Sound lib live w) : Counted lib w := ⟨h.prepares, h.counts⟩

/-- Another statement keeps its handle, and the handle its contents. -/
theorem Replaced.kept (h : Replaced lib s w w') (hw : Sound lib live w) (hne : t ≠ s)
    {handle : HandleId} (ht : (w.stmt t).stmt = some handle) :
    w'.stmt t = w.stmt t ∧ w'.handle handle = w.handle handle :=
  ⟨h.others t hne, h.handle handle (hw.handle_lt t handle ht) fun hs =>
    hne (hw.handle_inj t s handle ht hs)⟩

theorem Replaced.holds (h : Replaced lib s w w') (hw : Sound lib live w) (ht : t ∈ live)
    (hne : t ≠ s) : Holds lib w' t := by
  obtain ⟨handle, i, hstmt, hclosed, hquery, hi, hnumArgs⟩ := hw.holds t ht
  obtain ⟨hsame, hhandle⟩ := h.kept hw hne hstmt
  obtain ⟨more, hmore⟩ := h.accepted
  refine ⟨handle, i, ?_⟩
  rw [hsame, hhandle, ← hmore, List.getElem?_append_left (List.getElem?_eq_some_iff.mp hi).1]
  exact ⟨hstmt, hclosed, hquery, hi, hnumArgs⟩

/-- A preparation keeps the invariant, when it succeeds or its statement does not exist. -/
theorem prepare_sound (h : Sound lib live w) (hs : s ∈ live → Reprepares lib w 1) :
    Sound lib live (final ((prepare lib s).run w)) := by
  obtain ⟨hreplaced, hcounted⟩ := prepare_final lib s w
  obtain ⟨⟨hprepares, hcounts⟩, hholds⟩ := hcounted h.counted
  generalize final ((prepare lib s).run w) = w' at *
  have hold : ∀ t h', t ≠ s → (w'.stmt t).stmt = some h' →
      (w.stmt t).stmt = some h' ∧ h' < w.nextHandle := by
    intro t h' hne ht
    rw [hreplaced.others t hne] at ht
    exact ⟨ht, h.handle_lt t h' ht⟩
  refine ⟨hprepares, hcounts, fun t t' h' ht ht' => ?_, fun t h' ht => ?_, fun t ht => ?_,
    fun t ht => ?_⟩
  · by_cases hts : t = s
    · by_cases hts' : t' = s
      · rw [hts, hts']
      · rw [hts] at ht
        exact absurd (hold t' h' hts' ht').2 (Nat.not_lt.mpr (hreplaced.fresh h' ht).1)
    · by_cases hts' : t' = s
      · rw [hts'] at ht'
        exact absurd (hold t h' hts ht).2 (Nat.not_lt.mpr (hreplaced.fresh h' ht').1)
      · exact h.handle_inj t t' h' (hold t h' hts ht).1 (hold t' h' hts' ht').1
  · by_cases hts : t = s
    · rw [hts] at ht
      exact (hreplaced.fresh h' ht).2
    · exact Nat.lt_of_lt_of_le (hold t h' hts ht).2 hreplaced.nextHandle
  · rw [hreplaced.nextStmt]
    exact h.live_lt t ht
  · by_cases hts : t = s
    · subst hts
      exact hholds (hs ht)
    · exact hreplaced.holds h ht hts

theorem prepareAll_sound {entries : List (Bytes × StmtId)} (h : Sound lib live w)
    (hr : Reprepares lib w entries.length) :
    Sound lib live (final ((prepareAll lib entries).run w)) := by
  induction entries generalizing w with
  | nil => exact h
  | cons entry entries ih =>
      rw [List.length_cons, Nat.add_comm] at hr
      obtain ⟨w₁, n, hok, hprep, -⟩ := prepare_ok entry.2 (hr.le (Nat.le_add_right 1 _))
      have hw₁ := prepare_sound h (s := entry.2) fun _ => hr.le (Nat.le_add_right 1 _)
      rw [hok] at hw₁
      rw [prepareAll, run_bind_ok hok]
      exact ih hw₁ (hprep.reprepares_iff.mp hr).2

theorem connect_sound (h : Sound lib live w)
    (hr : Connects lib w → Reprepares lib w w.preparedStatements.length) (isReconnect : Bool) :
    Sound lib live (final ((connect lib isReconnect).run w)) := by
  refine final_connect openable_sound h fun w₁ hc ho hw₁ => prepareAll_sound hw₁ ?_
  exact (reprepares_congr ho.frame (by decide) (by decide)).mpr (hr hc)

theorem sound_record {r : Request} (hr : ∀ σ, PrepareHistory.after lib σ r = σ) :
    Preserves (Sound lib live) (record r) := Preserves.modify fun _ h => h.record hr

theorem sound_mysqlRealQuery (query : Bytes) :
    Preserves (Sound lib live) (mysqlRealQuery lib query) :=
  openable_sound.toStable.anywhere.mysqlRealQuery (by decide) (sound_record fun _ => rfl)

theorem sound_attempt (s : StmtId) (binds : List Bind) :
    Preserves (Sound lib live) (attempt lib s binds) :=
  openable_sound.toStable.attempt (by decide) (fun _ _ => sound_record fun _ => rfl) s binds

/-! ### The handlers -/

/-- The preparations that the handler makes for existing statements succeed. -/
def Task.Reprepares (lib : Lib) (w : World) : Task → Prop
  | .runQuery _ _ => Resends lib w → Handler.Reprepares lib w w.preparedStatements.length
  | .runStatement _ _ _ => Recovers lib w
  | .createStatement _ => True

instance (lib : Lib) (w : World) (t : Task) : Decidable (t.Reprepares lib w) :=
  match t with
  | .runQuery _ _ =>
      inferInstanceAs
        (Decidable (Resends lib w → Handler.Reprepares lib w w.preparedStatements.length))
  | .runStatement _ _ _ => inferInstanceAs (Decidable (Handler.Reprepares lib w _))
  | .createStatement _ => isTrue trivial

/-- The preparations of the reconnect, seen after the send. -/
theorem resends_reprepares {w₁ : World} (hframe : Frame [.realQuery] w w₁)
    (hlost : lostConnection (diagOf (sendOutcome lib w 0)).errno = true) (hc : Connects lib w₁)
    (hr : Resends lib w → Reprepares lib w w.preparedStatements.length) :
    Reprepares lib w₁ w₁.preparedStatements.length := by
  rw [connects_congr hframe (by decide) (by decide) (by decide)] at hc
  rw [reprepares_congr hframe (by decide) (by decide), hframe.preparedStatements]
  exact hr ⟨hlost, hc⟩

theorem sound_pushCompleted (action : DatabaseAction) (results : List Result) :
    Preserves (Sound lib live) (pushCompleted action results) :=
  Preserves.modify fun _ h => ⟨h.prepares, h.counts, h.handle_inj, h.handle_lt, h.live_lt, h.holds⟩

/-- The statement that a handler constructs. -/
def born (lib : Lib) (w : World) : Task → List StmtId
  | .createStatement query =>
      match (newStatement lib query).run w with
      | .ok s _ => [s]
      | .error _ _ => []
  | _ => []

/-- The object of a statement is there, and its constructor has not called `Prepare` yet. -/
def World.allocating (w : World) (query : Bytes) : World :=
  { w with
    stmt := Function.update w.stmt w.nextStmt ⟨none, query, 0⟩
    nextStmt := w.nextStmt + 1 }

/-- The constructor is `Prepare` on the new object, which is
there afterwards when the preparation has succeeded. -/
theorem newStatement_final (lib : Lib) (query : Bytes) (w : World) :
    final ((newStatement lib query).run w) =
      final ((prepare lib w.nextStmt).run (w.allocating query)) ∧
      born lib w (.createStatement query) = if Reprepares lib w 1 then [w.nextStmt] else [] := by
  have hsame : Reprepares lib (w.allocating query) 1 ↔ Reprepares lib w 1 := Iff.rfl
  have hstart : (newStatement lib query).run w =
      (prepare lib w.nextStmt >>= fun _ => pure w.nextStmt).run (w.allocating query) := rfl
  rw [born, hstart]
  by_cases hone : Reprepares lib w 1
  · obtain ⟨w', n, hrun, -⟩ := prepare_ok w.nextStmt (hsame.mpr hone)
    rw [run_bind_ok hrun, hrun, if_pos hone]
    exact ⟨rfl, rfl⟩
  · obtain ⟨e, hfails⟩ := exists_failsWith (fun h => hone (hsame.mp h))
    obtain ⟨w', hrun⟩ := prepare_throws w.nextStmt hfails
    rw [run_bind_error hrun, hrun, if_neg hone]
    exact ⟨rfl, rfl⟩

/-- The new object keeps the invariant as long as it is not live. -/
theorem sound_allocating (h : Sound lib live w) (query : Bytes) :
    Sound lib live (w.allocating query) := by
  have hold : ∀ t h', ((w.allocating query).stmt t).stmt = some h' → (w.stmt t).stmt = some h' := by
    intro t h' ht
    simp only [World.allocating] at ht
    by_cases hts : t = w.nextStmt
    · rw [hts, Function.update_self] at ht
      cases ht
    · rwa [Function.update_of_ne hts] at ht
  refine ⟨h.prepares, h.counts, fun t t' h' ht ht' =>
    h.handle_inj t t' h' (hold t h' ht) (hold t' h' ht'),
    fun t h' ht => h.handle_lt t h' (hold t h' ht), fun t ht => Nat.lt_succ_of_lt (h.live_lt t ht),
      fun t ht => ?_⟩
  have hne : t ≠ w.nextStmt := Nat.ne_of_lt (h.live_lt t ht)
  simpa only [World.allocating, Holds, Function.update_of_ne hne] using h.holds t ht

/-- A statement that is constructed joins the live ones. -/
theorem newStatement_sound (h : Sound lib live w) (query : Bytes) :
    Sound lib (born lib w (.createStatement query) ++ live)
      (final ((newStatement lib query).run w)) := by
  have hw₁ := sound_allocating h query
  obtain ⟨hfinal, hborn⟩ := newStatement_final lib query w
  obtain ⟨hreplaced, hcounted⟩ := prepare_final lib w.nextStmt (w.allocating query)
  have hsound := prepare_sound hw₁ (s := w.nextStmt) fun hs =>
    absurd (h.live_lt _ hs) (Nat.lt_irrefl _)
  rw [hfinal, hborn]
  split
  · rename_i hone
    refine ⟨hsound.prepares, hsound.counts, hsound.handle_inj, hsound.handle_lt, ?_, ?_⟩
    · rintro t (_ | ⟨_, ht⟩)
      · exact Nat.lt_of_lt_of_eq (Nat.lt_succ_self _) hreplaced.nextStmt.symm
      · exact hsound.live_lt t ht
    · rintro t (_ | ⟨_, ht⟩)
      · exact (hcounted hw₁.counted).2 hone
      · exact hsound.holds t ht
  · exact hsound

theorem createStatement_sound (h : Sound lib live w) (query : Bytes) :
    Sound lib (born lib w (.createStatement query) ++ live)
      (final ((createStatement lib query).run w)) := by
  have hwaiter : ∀ live f, Preserves (Sound lib live) (setWaiter f) := fun live f =>
    Preserves.modify fun w hw => openable_sound.waiter _ w hw
  rw [createStatement]
  exact Preserves.final_bind (fun _ => hwaiter _ _) (final_catchMyException (fun d => hwaiter _ _)
    (Preserves.final_bind (fun s => hwaiter _ _) (newStatement_sound h query)))

theorem handle_sound (h : Sound lib live w) (fuel : ℕ) (t : Task) (hr : t.Reprepares lib w) :
    Sound lib (born lib w t ++ live) (final ((handle lib fuel t).run w)) := by
  cases t with
  | runQuery action query =>
      exact final_runQuery (openable_sound.toStable.mono (by decide)).anywhere
        (sound_pushCompleted action)
        (final_send (sound_mysqlRealQuery query) (fun hlost w₁ hframe hw₁ =>
          connect_sound hw₁ (fun hc => resends_reprepares hframe hlost hc hr) true) fuel h)
  | runStatement s binds action =>
      exact final_runStatement (openable_sound.toStable.mono (by decide)).anywhere
        openable_sound.frees (fun _ _ _ _ => trivial) (sound_pushCompleted action)
        (final_executions (sound_attempt s _) (fun w hw hone => prepare_sound hw fun _ => hone) fuel
          2 (by decide)
          (fun _ => decide_eq_true_iff)
            (fun w hw hconn => connect_sound hw (fun hc => (hconn hc).1) true) hr h)
  | createStatement query => exact createStatement_sound h query

/-! ### Runs -/

/-- `PStatement::lua___gc`: the statement leaves the cache, and the destructor closes its handle. -/
def World.release (w : World) (s : StmtId) : World :=
  { w.closing (w.stmt s).stmt with
    preparedStatements := w.preparedStatements.filter fun entry => entry.1 ≠ (w.stmt s).query }

theorem release_sound (h : Sound lib live w) (s : StmtId) :
    Sound lib (live.filter (· ≠ s)) (w.release s) := by
  obtain ⟨hcalls, hstmt, hnext, hnextStmt⟩ := closing_eq (w.stmt s).stmt w
  have hhistory : prepareHistory lib (w.closing (w.stmt s).stmt).log = prepareHistory lib w.log :=
    closing_history _ _
  refine ⟨?_, ?_, ?_, ?_, fun t ht => ?_, fun t ht => ?_⟩
  · show (prepareHistory lib (w.closing (w.stmt s).stmt).log).prepares =
        (w.closing (w.stmt s).stmt).calls .stmtPrepare
    rw [hhistory, hcalls, h.prepares]
  · show (prepareHistory lib (w.closing (w.stmt s).stmt).log).accepted.length =
      (w.closing (w.stmt s).stmt).calls .stmtParamCount
    rw [hhistory, hcalls, h.counts]
  · simpa only [World.release, hstmt] using h.handle_inj
  · simpa only [World.release, hstmt, hnext] using h.handle_lt
  · obtain ⟨ht, -⟩ := List.mem_filter.mp ht
    simpa only [World.release, hnextStmt] using h.live_lt t ht
  · obtain ⟨ht, hne⟩ := List.mem_filter.mp ht
    obtain ⟨handle, i, ht', hclosed, hquery, hi⟩ := h.holds t ht
    have hsame : (w.closing (w.stmt s).stmt).handle handle = w.handle handle :=
      closing_handle fun hs => of_decide_eq_true hne (h.handle_inj t s handle ht' hs)
    refine ⟨handle, i, ?_⟩
    simp only [World.release, hstmt, hsame, hhistory]
    exact ⟨ht', hclosed, hquery, hi⟩

theorem Sound.mono {live' : List StmtId} (h : Sound lib live w) (hsub : live' ⊆ live) :
    Sound lib live' w :=
  ⟨h.prepares, h.counts, h.handle_inj, h.handle_lt, fun s hs => h.live_lt s (hsub hs),
    fun s hs => h.holds s (hsub hs)⟩

/-- `mysql_stmt_param_count`, with the number of parameters that the server reports for a query; a
handle that was not prepared has none. -/
def paramCount (params : Bytes → ℕ) (h : StmtHandle) : ℕ :=
  match h.query with
  | none => 0
  | some query => params query

/-- `PStatement::lua_GetArgCount`, `none` for a null handle. -/
def getArgCount (params : Bytes → ℕ) (w : World) (s : StmtId) : Option ℕ :=
  (w.stmt s).stmt.map fun h => paramCount params (w.handle h)

/-- `m_stmt` is an open handle that was prepared with `m_query` and has `m_numArgs` parameters. -/
def Represented (params : Bytes → ℕ) (w : World) (s : StmtId) : Prop :=
  ∃ h, (w.stmt s).stmt = some h ∧ (w.handle h).closed = false ∧
    (w.handle h).query = some (w.stmt s).query ∧ paramCount params (w.handle h) = (w.stmt s).numArgs

/-- Whenever a query was accepted, the number of parameters reported for it was `params query`. -/
def ReportsCounts (lib : Lib) (params : Bytes → ℕ) (log : List Request) : Prop :=
  ∀ i query, (prepareHistory lib log).accepted[i]? = some query →
    lib.stmtParamCount i = params query

theorem Sound.represented {params : Bytes → ℕ} (h : Sound lib live w)
    (hcount : ReportsCounts lib params w.log) (hs : s ∈ live) : Represented params w s := by
  obtain ⟨handle, i, hstmt, hclosed, hquery, hi, hnumArgs⟩ := h.holds s hs
  refine ⟨handle, hstmt, hclosed, hquery, ?_⟩
  simp only [paramCount, hquery, hnumArgs]
  exact (hcount i _ hi).symm

/-- `GetArgCount` gives the number of parameters that `Run` demands and `Execute` binds. -/
theorem Represented.getArgCount {params : Bytes → ℕ} (h : Represented params w s) :
    getArgCount params w s = some (w.stmt s).numArgs := by
  obtain ⟨handle, hstmt, -, -, hcount⟩ := h
  rw [Handler.getArgCount, hstmt, Option.map_some, hcount]

/-- The io thread's world and the statements that exist. -/
structure Population where
  world : World
  live : List StmtId

/-- A handler, an insertion or a poll, or the collection of a statement. -/
inductive Event where
  | handler (l : Label)
  | release (s : StmtId)

namespace Population

def start (c : Credentials) : Population := ⟨.opened c, []⟩

def step (lib : Lib) (x : Population) : Event → Option Population
  | .handler (.task fuel t) =>
      (Handler.step lib x.world (.task fuel t)).map fun w => ⟨w, born lib x.world t ++ x.live⟩
  | .handler l => (Handler.step lib x.world l).map fun w => ⟨w, x.live⟩
  | .release s => if s ∈ x.live then some ⟨x.world.release s, x.live.filter (· ≠ s)⟩ else none

/-- The preparations of the event for statements that exist succeed. -/
def Reprepares (lib : Lib) (x : Population) : Event → Prop
  | .handler (.task _ t) => t.Reprepares lib x.world
  | _ => True

instance (lib : Lib) (x : Population) (e : Event) : Decidable (x.Reprepares lib e) :=
  match e with
  | .handler (.task _ t) => inferInstanceAs (Decidable (t.Reprepares lib x.world))
  | .handler (.register _ _) => isTrue trivial
  | .handler .poll => isTrue trivial
  | .release _ => isTrue trivial

theorem sound_step {x x' : Population} {e : Event} (h : Sound lib x.live x.world)
    (hr : x.Reprepares lib e) (hs : x.step lib e = some x') : Sound lib x'.live x'.world := by
  cases e with
  | handler l =>
      cases l with
      | task fuel t =>
          obtain ⟨w, hw, rfl⟩ := Option.map_eq_some_iff.mp hs
          have hsound := handle_sound h fuel t hr
          simp only [Handler.step] at hw
          split at hw
          · rename_i w' hrun
            cases hw
            rw [hrun] at hsound
            exact hsound
          · cases hw
      | register query s =>
          cases hs
          exact ⟨h.prepares, h.counts, h.handle_inj, h.handle_lt, h.live_lt, h.holds⟩
      | poll =>
          cases hs
          exact ⟨h.prepares, h.counts, h.handle_inj, h.handle_lt, h.live_lt, h.holds⟩
  | release s =>
      simp only [step] at hs
      split at hs
      · cases hs
        exact release_sound h s
      · cases hs

theorem sound_start (lib : Lib) (c : Credentials) : Sound lib (start c).live (start c).world :=
  ⟨rfl, rfl, nofun, nofun, nofun, nofun⟩

/-- **The representation invariant.** In a run whose re-preparations succeed, every live statement
is represented, and `GetArgCount` gives `m_numArgs`. -/
theorem representation {c : Credentials} {tr : List Event} {x : Population} {params : Bytes → ℕ}
    (hG : Transition.Along (step lib) (fun x e => x.Reprepares lib e) (start c) tr)
    (h : Transition.exec (step lib) (start c) tr = some x)
    (hcount : ReportsCounts lib params x.world.log) :
    ∀ s ∈ x.live, Represented params x.world s ∧
      getArgCount params x.world s = some (x.world.stmt s).numArgs := by
  have hsound : Sound lib x.live x.world :=
    Transition.exec_inv (I := fun x => Sound lib x.live x.world)
      (fun _ _ _ hI hr hs => sound_step hI hr hs) (sound_start lib c) hG h
  intro s hs
  have hrep := hsound.represented hcount hs
  exact ⟨hrep, hrep.getArgCount⟩

/-- A query with one parameter; the first execution loses the connection, and the second
preparation fails. -/
def goneTable : Lib :=
  { Lib.calm with
    stmtExecute := fun k => if k = 0 then some .serverLost else none
    stmtPrepare := fun k => if k = 1 then some .noSuchTable else none
    stmtParamCount := fun _ => 1 }

/-- After a re-preparation that failed, `GetArgCount` gives 0 and `Run` demands one parameter. -/
theorem representation_fails :
    ∃ x, Transition.exec (step goneTable) (start ⟨[], [], [], [], 3306, [], 0⟩)
        [.handler (.task 1 (.createStatement [97])), .handler (.register [97] 0),
          .handler (.task 1 (.runStatement 0 [⟨6, [], 0, []⟩] ⟨0, true⟩))] = some x ∧
      ReportsCounts goneTable (fun _ => 1) x.world.log ∧ 0 ∈ x.live ∧
        ¬ Represented (fun _ => 1) x.world 0 ∧
      getArgCount (fun _ => 1) x.world 0 = some 0 ∧ (x.world.stmt 0).numArgs = 1 := by
  have hrun : (Transition.exec (step goneTable) (start ⟨[], [], [], [], 3306, [], 0⟩)
      [.handler (.task 1 (.createStatement [97])), .handler (.register [97] 0),
        .handler (.task 1 (.runStatement 0 [⟨6, [], 0, []⟩] ⟨0, true⟩))]).map (fun x =>
          (x.live, getArgCount (fun _ => 1) x.world 0, (x.world.stmt 0).numArgs)) =
            some ([0], some 0, 1) := by
    decide +kernel
  obtain ⟨x, hexec, hx⟩ := Option.map_eq_some_iff.mp hrun
  simp only [Prod.mk.injEq] at hx
  obtain ⟨hlive, hcount, hnumArgs⟩ := hx
  refine ⟨x, hexec, fun _ _ _ => rfl, by simp [hlive], fun hrep => ?_, hcount, hnumArgs⟩
  have hget := hrep.getArgCount
  rw [hcount, hnumArgs] at hget
  cases hget

/-- The library on which the re-preparation succeeds. -/
def lostExecution : Lib :=
  { Lib.calm with
    stmtExecute := fun k => if k = 0 then some .serverLost else none
    stmtParamCount := fun _ => 1 }

theorem representation_lostExecution :
    ∃ x, Transition.exec (step lostExecution) (start ⟨[], [], [], [], 3306, [], 0⟩)
        [.handler (.task 1 (.createStatement [97])), .handler (.register [97] 0),
          .handler (.task 2 (.runStatement 0 [⟨6, [], 0, []⟩] ⟨0, true⟩))] = some x ∧
      ∀ s ∈ x.live, Represented (fun _ => 1) x.world s ∧
        getArgCount (fun _ => 1) x.world s = some (x.world.stmt s).numArgs := by
  obtain ⟨x, hexec⟩ := Option.isSome_iff_exists.mp (show (Transition.exec (step lostExecution)
      (start ⟨[], [], [], [], 3306, [], 0⟩)
      [.handler (.task 1 (.createStatement [97])), .handler (.register [97] 0),
        .handler (.task 2 (.runStatement 0 [⟨6, [], 0, []⟩] ⟨0, true⟩))]).isSome by decide +kernel)
  exact ⟨x, hexec, representation (by decide +kernel) hexec fun _ _ _ => rfl⟩

end Population

end Tmysql4.Handler
