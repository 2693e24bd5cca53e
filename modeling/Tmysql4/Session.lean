import Tmysql4.Returns

/-! # The character set of the session

The server keeps the character set with the connection, so that a reconnect
has to restore it. `session` replays the log of requests on the server's side
of the connection, and `Scripted` runs handlers and `SetCharacterSet` calls,
one after the other, next to the last set that such a call has chosen.

`session_restored` is the result: while every reconnect restores the set, each query and each
statement is executed with the set that the script chose last. -/

namespace Tmysql4.Handler

open Imperative

variable {lib : Lib} {fns : List Fn} {w w' w₀ : World} {s : StmtId} {binds : List Bind}

/-! ### The server's side -/

/-- The calls of `mysql_real_connect` and `mysql_set_character_set` so far, and the session:
`connection` is `none` without a connection, and a session without a set has the default one. -/
structure Session where
  connects : ℕ
  sets : ℕ
  connection : Option (Option Bytes)
deriving DecidableEq, Repr

/-- The module starts on a new connection. -/
def Session.start : Session := ⟨0, 0, some none⟩

/-- A failed `mysql_set_character_set` leaves the connection open and its set unchanged. -/
def Session.after (lib : Lib) (σ : Session) : Request → Session
  | .realConnect .. =>
      { σ with
        connects := σ.connects + 1
        connection := if (lib.realConnect σ.connects).isSome then none else some none }
  | .setCharacterSet charset =>
      { σ with
        sets := σ.sets + 1
        connection := if (lib.setCharacterSet σ.sets).isSome then σ.connection
          else σ.connection.map fun _ => some charset }
  | _ => σ

def session (lib : Lib) (log : List Request) : Session := log.foldl (Session.after lib) .start

theorem session_snoc (lib : Lib) (log : List Request) (r : Request) :
    session lib (log ++ [r]) = (session lib log).after lib r := by
  rw [session, List.foldl_append]
  rfl

/-- The name of a character set as `CheckString` gives it, of at most 64 bytes. -/
structure CharSetName where
  bytes : Bytes
  no_null : cString bytes = bytes
  length_le : bytes.length ≤ 64

/-- On an open connection the session has the set that the script chose last, if it chose one. -/
def Serves (script : Option CharSetName) (σ : Session) : Prop :=
  ∀ set, script = some set → ∀ charset, σ.connection = some charset → charset = some set.bytes

/-- The requests that execute something meet such a session. -/
def Executes (lib : Lib) (script : Option CharSetName) : Session → List Request → Prop
  | _, [] => True
  | σ, r :: rs => (r.executes = true → Serves script σ) ∧ Executes lib script (σ.after lib r) rs

variable {script : Option CharSetName}

theorem executes_append (σ : Session) (rs : List Request) (r : Request) :
    Executes lib script σ (rs ++ [r]) ↔ Executes lib script σ rs ∧
      (r.executes = true → Serves script (rs.foldl (Session.after lib) σ)) := by
  induction rs generalizing σ with
  | nil => simp [Executes]
  | cons r' rs ih => simp [Executes, ih, and_assoc]

/-! ### What a handler keeps -/

/-- From `w₀` on, everything was executed as the script chose; the counts are those of the
session, and `m_strCharSet` is the set chosen. -/
structure Tracked (lib : Lib) (script : Option CharSetName) (w₀ w : World) : Prop where
  executes : ∃ new, w.log = w₀.log ++ new ∧ Executes lib script (session lib w₀.log) new
  connects : (session lib w.log).connects = w.calls .realConnect
  sets : (session lib w.log).sets = w.calls .setCharacterSet
  charSet : ∀ set, script = some set → w.charSet = set.bytes

/-- In addition the session is now as the script chose. -/
structure Restored (lib : Lib) (script : Option CharSetName) (w₀ w : World) : Prop extends
    Tracked lib script w₀ w where
  serves : Serves script (session lib w.log)

/-- A request other than a connect or a set is recorded. -/
theorem Restored.record (h : Restored lib script w₀ w) {r : Request}
    (hr : ∀ σ, Session.after lib σ r = σ) :
    Restored lib script w₀ { w with log := w.log ++ [r] } := by
  obtain ⟨⟨⟨new, hlog, hnew⟩, hconnects, hsets, hcharSet⟩, hserves⟩ := h
  have hsession : session lib (w.log ++ [r]) = session lib w.log := by rw [session_snoc, hr]
  have hfold : new.foldl (Session.after lib) (session lib w₀.log) = session lib w.log := by
    rw [hlog, session, session, List.foldl_append]
  refine ⟨⟨⟨new ++ [r], by simp [hlog], (executes_append _ _ _).mpr ⟨hnew, fun _ => ?_⟩⟩, ?_, ?_,
    hcharSet⟩, ?_⟩
  · rw [hfold]
    exact hserves
  · rw [hsession]
    exact hconnects
  · rw [hsession]
    exact hsets
  · rw [hsession]
    exact hserves

/-- The functions whose calls the session does not count. -/
def sessionFns : List Fn :=
  [.options, .realQuery, .stmtExecute] ++ prepareFns ++ queryFns ++ statementFns

theorem preparable_restored : Preparable sessionFns (Restored lib script w₀) where
  call f hf w h := by
    have hne : ∀ {g : Fn}, g ∉ sessionFns → g ≠ f := fun hg he => hg (he ▸ hf)
    exact ⟨⟨h.executes, by rw [counted_calls_ne w (hne (by decide))]; exact h.connects,
      by rw [counted_calls_ne w (hne (by decide))]; exact h.sets, h.charSet⟩, h.serves⟩
  connError _ _ h := ⟨⟨h.executes, h.connects, h.sets, h.charSet⟩, h.serves⟩
  handle _ _ _ _ h := ⟨⟨h.executes, h.connects, h.sets, h.charSet⟩, h.serves⟩
  locals _ _ _ h := ⟨⟨h.executes, h.connects, h.sets, h.charSet⟩, h.serves⟩
  frees _ _ h := ⟨⟨h.executes, h.connects, h.sets, h.charSet⟩, h.serves⟩
  waiter _ _ h := ⟨⟨h.executes, h.connects, h.sets, h.charSet⟩, h.serves⟩
  isPendingCallback _ _ h := ⟨⟨h.executes, h.connects, h.sets, h.charSet⟩, h.serves⟩
  prepares := by decide
  request r hr w h := by
    cases r with
    | stmtClose handle => exact h.record fun _ => rfl
    | stmtPrepare handle query => exact h.record fun _ => rfl
    | _ => cases hr
  handles _ _ _ h := ⟨⟨h.executes, h.connects, h.sets, h.charSet⟩, h.serves⟩
  stmts _ _ _ h := ⟨⟨h.executes, h.connects, h.sets, h.charSet⟩, h.serves⟩

/-! ### A reconnect -/

/-- A reconnect that opens a connection also sets the character set that the script chose last. -/
def RestoresSet (lib : Lib) (script : Option CharSetName) (w : World) : Prop :=
  Opens lib w → ∀ set, script = some set →
    set.bytes ≠ [] ∧ lib.setCharacterSet (w.calls .setCharacterSet) = none

instance (lib : Lib) (script : Option CharSetName) (w : World) :
    Decidable (RestoresSet lib script w) :=
  match script with
  | none => isTrue fun _ _ h => nomatch h
  | some set =>
      decidable_of_iff (Opens lib w → set.bytes ≠ [] ∧
        lib.setCharacterSet (w.calls .setCharacterSet) = none)
        ⟨fun h ho _ he => Option.some.inj he ▸ h ho, fun h ho => h ho set rfl⟩

/-- After `mysql_real_connect` the session is new. -/
theorem mysqlRealConnect_tracked (h : Restored lib script w₀ w) (c : Credentials)
    (socket : Option Bytes) (flags : ℕ) :
    ∃ w', (mysqlRealConnect lib c socket flags).run w =
      .ok (lib.realConnect (w.calls .realConnect)).isSome w' ∧ Tracked lib script w₀ w' ∧
      (session lib w'.log).connection =
        (if (lib.realConnect (w.calls .realConnect)).isSome then none else some none) ∧
      w'.calls .setCharacterSet = w.calls .setCharacterSet ∧ w'.charSet = w.charSet := by
  obtain ⟨⟨⟨new, hlog, hnew⟩, hconnects, hsets, hcharSet⟩, hserves⟩ := h
  refine ⟨_, mysqlRealConnect_run lib c socket flags w,
    ⟨⟨new ++ [.realConnect c.host c.user c.pass c.db c.port socket flags], ?_, ?_⟩, ?_, ?_,
      hcharSet⟩, ?_, ?_, rfl⟩
  · simp [hlog]
  · exact (executes_append _ _ _).mpr ⟨hnew, nofun⟩
  · rw [session_snoc]
    simp [Session.after, hconnects]
  · rw [session_snoc]
    simp [Session.after, hsets]
  · rw [session_snoc]
    simp [Session.after, hconnects]
  · simp

/-- After `mysql_set_character_set` the session has the set, when the call succeeds. -/
theorem mysqlSetCharacterSet_tracked (h : Tracked lib script w₀ w) (charset : Bytes) :
    ∃ w', (mysqlSetCharacterSet lib charset).run w =
        .ok (lib.setCharacterSet (w.calls .setCharacterSet)).isSome w' ∧
      Tracked lib script w₀ w' ∧ w'.charSet = w.charSet ∧
      (session lib w'.log).connection =
        (if (lib.setCharacterSet (w.calls .setCharacterSet)).isSome then
          (session lib w.log).connection
          else (session lib w.log).connection.map fun _ => some charset) := by
  obtain ⟨⟨new, hlog, hnew⟩, hconnects, hsets, hcharSet⟩ := h
  refine ⟨_, mysqlSetCharacterSet_run lib charset w,
    ⟨⟨new ++ [.setCharacterSet charset], ?_, ?_⟩, ?_, ?_, hcharSet⟩, rfl, ?_⟩
  · simp [hlog]
  · exact (executes_append _ _ _).mpr ⟨hnew, nofun⟩
  · rw [session_snoc]
    simp [Session.after, hconnects]
  · rw [session_snoc]
    simp [Session.after, hsets]
  · rw [session_snoc]
    simp [Session.after, hsets]

theorem CharSetName.copy (set : CharSetName) : (cString set.bytes).take 64 = set.bytes := by
  rw [set.no_null, List.take_of_length_le set.length_le]

/-- A new session that is restored. -/
theorem restoreCharacterSet_restored (h : Tracked lib script w₀ w)
    (hset : ∀ set, script = some set → set.bytes ≠ [] ∧
      lib.setCharacterSet (w.calls .setCharacterSet) = none) :
    Restored lib script w₀ (final ((restoreCharacterSet lib w.charSet).run w)) := by
  unfold restoreCharacterSet
  split
  · rename_i hempty
    refine ⟨h, fun set hscript => absurd ?_ (hset set hscript).1⟩
    rw [← h.charSet set hscript, hempty]
  · obtain ⟨w', hrun, htracked, hcharSet, hconnection⟩ := mysqlSetCharacterSet_tracked h w.charSet
    rw [setCharacterSet, run_bind_ok hrun]
    cases houtcome : lib.setCharacterSet (w.calls .setCharacterSet) with
    | some e =>
        refine ⟨htracked, fun set hscript => ?_⟩
        rw [(hset set hscript).2] at houtcome
        cases houtcome
    | none =>
        rw [houtcome, Option.isSome_none, if_neg Bool.false_ne_true] at hconnection
        refine ⟨⟨htracked.executes, htracked.connects, htracked.sets, fun set hscript => ?_⟩, ?_⟩
        · show (cString w.charSet).take 64 = set.bytes
          rw [h.charSet set hscript, set.copy]
        · intro set hscript charset hcharset
          have hcharset : (session lib w'.log).connection = some charset := hcharset
          rw [hconnection, h.charSet set hscript] at hcharset
          obtain ⟨_, _, rfl⟩ := Option.map_eq_some_iff.mp hcharset
          rfl

theorem openConnection_restored (h : Restored lib script w₀ w) :
    ∃ failed w', (openConnection lib w.credentials).run w = .ok failed w' ∧
      (failed = true → Restored lib script w₀ w') ∧
      (failed = false → Opens lib w ∧ Tracked lib script w₀ w' ∧
        w'.calls .setCharacterSet = w.calls .setCharacterSet ∧ w'.charSet = w.charSet) := by
  have hoptions : ∀ {w}, Restored lib script w₀ w → ∃ w', (mysqlOptions lib).run w =
      .ok (lib.options (w.calls .options)).isSome w' ∧ Restored lib script w₀ w' ∧
      w'.calls = Function.update w.calls .options (w.calls .options + 1) ∧
        w'.charSet = w.charSet := by
    intro w h
    refine ⟨_, mysqlOptions_run lib w, ?_, rfl, rfl⟩
    exact preparable_restored.connError _ _ (preparable_restored.call .options (by decide) w h)
  obtain ⟨w₁, hrun₁, h₁, hcalls₁, hcharSet₁⟩ := hoptions h
  rw [openConnection, run_bind_ok hrun₁]
  cases ho₁ : lib.options (w.calls .options) with
  | some e => exact ⟨true, w₁, rfl, fun _ => h₁, fun hfailed => by cases hfailed⟩
  | none =>
      obtain ⟨w₂, hrun₂, h₂, hcalls₂, hcharSet₂⟩ := hoptions h₁
      rw [Option.isSome_none, orElse, if_neg Bool.false_ne_true, run_bind_ok hrun₂]
      cases ho₂ : lib.options (w₁.calls .options) with
      | some e => exact ⟨true, w₂, rfl, fun _ => h₂, fun hfailed => by cases hfailed⟩
      | none =>
          rw [Option.isSome_none, orElse, if_neg Bool.false_ne_true]
          obtain ⟨w₃, hrun₃, h₃, hconnection, hcalls₃, hcharSet₃⟩ :=
            mysqlRealConnect_tracked h₂ w.credentials
            (if w.credentials.socket = [] then none else some w.credentials.socket)
            (w.credentials.clientFlags ||| clientMultiResults)
          have hconnect : lib.realConnect (w₂.calls .realConnect) =
              lib.realConnect (w.calls .realConnect) := by
            simp [hcalls₂, hcalls₁]
          refine ⟨_, w₃, hrun₃, fun hfailed => ⟨h₃, fun set _ charset hcharset => ?_⟩,
            fun hok => ⟨⟨ho₁, ?_, ?_⟩, h₃, ?_, ?_⟩⟩
          · rw [hfailed, if_pos rfl] at hconnection
            rw [hconnection] at hcharset
            cases hcharset
          · simpa [hcalls₁] using ho₂
          · rw [← hconnect]
            exact Option.isSome_eq_false_iff.mp hok |> Option.isNone_iff_eq_none.mp
          · simp [hcalls₃, hcalls₂, hcalls₁]
          · rw [hcharSet₃, hcharSet₂, hcharSet₁]

theorem connect_restored (h : Restored lib script w₀ w) (hr : RestoresSet lib script w)
    (isReconnect : Bool) : Restored lib script w₀ (final ((connect lib isReconnect).run w)) := by
  obtain ⟨failed, w₁, hopen, hfailed, hok⟩ := openConnection_restored h
  rw [connect, run_bind_ok (EStateM.run_get _), run_bind_ok hopen]
  cases failed with
  | true => exact hfailed rfl
  | false =>
      obtain ⟨hopens, h₁, hcalls, hcharSet⟩ := hok rfl
      have hrestored := restoreCharacterSet_restored h₁ (by rw [hcalls]; exact hr hopens)
      obtain ⟨error, w₂, hset, -⟩ := restoreCharacterSet_run lib w.charSet w₁
      rw [hcharSet, hset] at hrestored
      rw [if_neg Bool.false_ne_true, run_bind_ok hset]
      cases error with
      | some error => exact hrestored
      | none =>
          exact Preserves.bind (preparable_restored.prepareAll _) (fun _ =>
            Preserves.bind (Preserves.modify (preparable_restored.isPendingCallback _)) fun _ =>
              Preserves.pure _)
            w₂ hrestored

/-! ### The handlers -/

theorem restored_record {r : Request} (hr : ∀ σ, Session.after lib σ r = σ) :
    Preserves (Restored lib script w₀) (record r) := Preserves.modify fun _ h => h.record hr

theorem restored_mysqlRealQuery (query : Bytes) :
    Preserves (Restored lib script w₀) (mysqlRealQuery lib query) :=
  preparable_restored.toStable.anywhere.mysqlRealQuery (by decide) (restored_record fun _ => rfl)

theorem restored_attempt (s : StmtId) (binds : List Bind) :
    Preserves (Restored lib script w₀) (attempt lib s binds) :=
  preparable_restored.toStable.attempt (by decide) (fun _ _ => restored_record fun _ => rfl) s binds

theorem restoresSet_congr (h : Frame fns w w') (ho : .options ∉ fns) (hr : .realConnect ∉ fns)
    (hs : .setCharacterSet ∉ fns) : RestoresSet lib script w' ↔ RestoresSet lib script w := by
  unfold RestoresSet Opens
  rw [h.calls .options ho, h.calls .realConnect hr, h.calls .setCharacterSet hs]

theorem send_restored (h : Restored lib script w₀ w) (query : Bytes) (fuel : ℕ)
    (hr : lostConnection (diagOf (sendOutcome lib w 0)).errno = true → RestoresSet lib script w) :
    Restored lib script w₀ (final ((send lib query fuel false).run w)) := by
  refine final_send (restored_mysqlRealQuery query) (fun hlost w₁ hframe h₁ => ?_) fuel h
  exact connect_restored h₁
    ((restoresSet_congr hframe (by decide) (by decide) (by decide)).mpr (hr hlost)) true

/-- One execution with the recovery after it, when the connection has not been tried again yet. -/
theorem executions_restored (h : Restored lib script w₀ w) (fuel : ℕ) (hasRetriedStatement : Bool)
    (hr : (w.stmt s).stmt ≠ none → lostConnection (executeErrno lib w 0) = true →
      RestoresSet lib script w)
    (hnext : ∀ w₁ w₂ handle, (w.stmt s).stmt ≠ none → Attempted lib handle w w₁ →
      hasRetriedStatement = false →
      executeErrno lib w 0 = 1243 → (prepare lib s).run w₁ = .ok () w₂ → Restored lib script w₀ w₂ →
        Restored lib script w₀ (final ((executions lib s binds fuel false true).run w₂))) :
    Restored lib script w₀
      (final ((executions lib s binds (fuel + 1) false hasRetriedStatement).run w)) := by
  have hretried : ∀ hasRetriedStatement, Preserves (Restored lib script w₀)
      (executions lib s binds fuel true hasRetriedStatement) :=
    preserves_executions_retried (restored_attempt s binds) (preparable_restored.prepare s) fuel
  cases hs : (w.stmt s).stmt with
  | none =>
      obtain ⟨e, hnull, -⟩ := executions_null lib binds hs (fuel + 1) false hasRetriedStatement
      rw [hnull]
      exact h
  | some handle =>
      obtain ⟨w₁, hrun, hatt⟩ := attempt_run lib binds hs
      have h₁ := (restored_attempt s binds).ok hrun h
      rw [executions, run_bind_ok hrun, Bool.not_false, Bool.true_and]
      by_cases hlost : lostConnection (diagOf (executeOutcome lib w 0)).errno = true
      · have hr₁ := (restoresSet_congr hatt.frame (by decide) (by decide) (by decide)).mpr
          (hr (by rw [hs]; exact Option.some_ne_none _) hlost)
        have h₂ := connect_restored h₁ hr₁ true
        rw [reconnectIf, if_pos hlost]
        cases hconnect : (connect lib true).run w₁ with
        | error e w₂ =>
            rw [hconnect] at h₂
            rw [run_bind_error hconnect]
            exact h₂
        | ok err w₂ =>
            rw [hconnect] at h₂
            rw [run_bind_ok hconnect]
            cases err with
            | none => exact hretried _ w₂ h₂
            | some _ =>
                simp only [hlost, Bool.or_true]
                exact Preserves.ite ((preparable_restored.prepare s).bind fun _ => hretried true)
                  (Preserves.pure _) w₂ h₂
      · rw [reconnectIf, if_neg hlost, run_bind_ok (EStateM.run_pure _ _)]
        simp only [Bool.eq_false_iff.mpr hlost, Bool.or_false]
        split
        · rename_i hunknown
          obtain ⟨hfirst, hunknown⟩ := Bool.and_eq_true_iff.mp hunknown
          cases hprepare : (prepare lib s).run w₁ with
          | error e w₂ =>
              rw [run_bind_error hprepare]
              exact (preparable_restored.prepare s).error hprepare h₁
          | ok _ w₂ =>
              rw [run_bind_ok hprepare]
              exact hnext w₁ w₂ handle (by rw [hs]; exact Option.some_ne_none _) hatt
                (by simpa using hfirst) (of_decide_eq_true hunknown) hprepare
                ((preparable_restored.prepare s).ok hprepare h₁)
        · exact h₁

/-- A statement run tries the connection again: its first execution lost it, or the one after a
re-preparation did. -/
def StatementReconnects (lib : Lib) (w : World) (s : StmtId) : Prop :=
  (w.stmt s).stmt ≠ none ∧ (lostConnection (executeErrno lib w 0) = true ∨
    executeErrno lib w 0 = 1243 ∧ Reprepares lib w 1 ∧ lostConnection (executeErrno lib w 1) = true)

instance (lib : Lib) (w : World) (s : StmtId) : Decidable (StatementReconnects lib w s) :=
  inferInstanceAs (Decidable (_ ∧ (_ ∨ _)))

theorem executions_all_restored (h : Restored lib script w₀ w) (fuel : ℕ)
    (hr : StatementReconnects lib w s → RestoresSet lib script w) :
    Restored lib script w₀ (final ((executions lib s binds fuel false false).run w)) := by
  cases fuel with
  | zero => exact h
  | succ fuel =>
      refine executions_restored h fuel false (fun hs hlost => hr ⟨hs, .inl hlost⟩) ?_
      intro w₁ w₂ handle hs hatt _ hunknown hprepare h₂
      cases fuel with
      | zero => exact h₂
      | succ fuel =>
          have hone : Reprepares lib w 1 := by
            by_contra hone
            obtain ⟨e, hfails⟩ := exists_failsWith hone
            obtain ⟨_, hthrow⟩ := prepare_throws s (hatt.failsWith_iff.mpr hfails)
            rw [hprepare] at hthrow
            cases hthrow
          have hframe : Frame prepareFns w₁ w₂ :=
            ((preparable_frame (List.Subset.refl _)).prepare s).ok hprepare (.refl _ _)
          refine executions_restored h₂ fuel true (fun _ hlost => ?_)
            (fun _ _ _ _ _ hfirst => nomatch hfirst)
          have hsame : RestoresSet lib script w₂ ↔ RestoresSet lib script w :=
            (restoresSet_congr hframe (by decide) (by decide) (by decide)).trans
              (restoresSet_congr hatt.frame (by decide) (by decide) (by decide))
          refine hsame.mpr (hr ⟨hs, .inr ⟨hunknown, hone, ?_⟩⟩)
          rwa [executeErrno_shift (hatt.shift hframe (by decide))] at hlost

/-- The handler tries the connection again. -/
def Reconnects (lib : Lib) (w : World) : Task → Prop
  | .runQuery _ _ => lostConnection (diagOf (sendOutcome lib w 0)).errno = true
  | .runStatement s _ _ => StatementReconnects lib w s
  | .createStatement _ => False

instance (lib : Lib) (w : World) (t : Task) : Decidable (Reconnects lib w t) := by
  unfold Reconnects
  cases t <;> infer_instance

theorem restored_pushCompleted (action : DatabaseAction) (results : List Result) :
    Preserves (Restored lib script w₀) (pushCompleted action results) :=
  Preserves.modify fun _ h => ⟨⟨h.executes, h.connects, h.sets, h.charSet⟩, h.serves⟩

theorem handle_restored (h : Restored lib script w₀ w) (fuel : ℕ) (t : Task)
    (hr : Reconnects lib w t → RestoresSet lib script w) :
    Restored lib script w₀ (final ((handle lib fuel t).run w)) := by
  cases t with
  | runQuery action query =>
      exact final_runQuery (preparable_restored.toStable.mono (by decide)).anywhere
        (restored_pushCompleted action) (send_restored h query fuel hr)
  | runStatement s binds action =>
      exact final_runStatement (preparable_restored.toStable.mono (by decide)).anywhere
        preparable_restored.frees (fun _ _ _ _ => trivial) (restored_pushCompleted action)
        (executions_all_restored h fuel hr)
  | createStatement query => exact preserves_createStatement preparable_restored query w h

/-! ### Runs -/

/-- The io thread's world and the set that the last
successful `SetCharacterSet` of the script chose. -/
structure Scripted where
  world : World
  script : Option CharSetName

/-- A handler, an insertion or a poll, or a call of `SetCharacterSet`. -/
inductive Call where
  | handler (l : Label)
  | setCharacterSet (set : CharSetName)

namespace Scripted

def start (c : Credentials) : Scripted := ⟨.opened c, none⟩

/-- The world that the call leaves, also when an exception ends it. -/
def leaves (lib : Lib) (x : Scripted) : Call → World
  | .handler (.task fuel t) => final ((handle lib fuel t).run x.world)
  | .handler (.register query s) =>
      { x.world with preparedStatements := mapInsert query s x.world.preparedStatements }
  | .handler .poll => { x.world with completedActions := [] }
  | .setCharacterSet set => final ((Handler.setCharacterSet lib set.bytes).run x.world)

def step (lib : Lib) (x : Scripted) : Call → Option Scripted
  | .handler l => (Handler.step lib x.world l).map fun w => ⟨w, x.script⟩
  | .setCharacterSet set =>
      match (Handler.setCharacterSet lib set.bytes).run x.world with
      | .ok error w => some ⟨w, if error = none then some set else x.script⟩
      | .error _ _ => none

/-- A call that tries the connection again restores the set when it opens one. -/
def Keeps (lib : Lib) (x : Scripted) : Call → Prop
  | .handler (.task _ t) => Reconnects lib x.world t → RestoresSet lib x.script x.world
  | _ => True

instance (lib : Lib) (x : Scripted) (c : Call) : Decidable (x.Keeps lib c) :=
  match c with
  | .handler (.task _ t) =>
      inferInstanceAs (Decidable (Reconnects lib x.world t → RestoresSet lib x.script x.world))
  | .handler (.register _ _) => isTrue trivial
  | .handler .poll => isTrue trivial
  | .setCharacterSet _ => isTrue trivial

variable {x x' : Scripted} {c : Call}

theorem restored_self (h : Restored lib script w₀ w) : Restored lib script w w :=
  ⟨⟨⟨[], by simp, trivial⟩, h.connects, h.sets, h.charSet⟩, h.serves⟩

theorem restored_start (lib : Lib) (c : Credentials) :
    Restored lib (start c).script (start c).world (start c).world :=
  ⟨⟨⟨[], rfl, trivial⟩, rfl, rfl, nofun⟩, nofun⟩

/-- The requests of a call are executed as the script chose. -/
theorem leaves_executes (h : Restored lib x.script x.world x.world) (hk : x.Keeps lib c) :
    ∃ new, (x.leaves lib c).log = x.world.log ++ new ∧
      Executes lib x.script (session lib x.world.log) new := by
  cases c with
  | handler l =>
      cases l with
      | task fuel t => exact (handle_restored h fuel t hk).executes
      | register query s => exact h.executes
      | poll => exact h.executes
  | setCharacterSet set =>
      obtain ⟨w', hrun, htracked, -⟩ := mysqlSetCharacterSet_tracked h.toTracked set.bytes
      simp only [leaves]
      rw [Handler.setCharacterSet, run_bind_ok hrun]
      split
      · exact htracked.executes
      · exact htracked.executes

theorem restored_step (h : Restored lib x.script x.world x.world) (hk : x.Keeps lib c)
    (hs : x.step lib c = some x') : Restored lib x'.script x'.world x'.world := by
  cases c with
  | handler l =>
      obtain ⟨w, hw, rfl⟩ := Option.map_eq_some_iff.mp hs
      cases l with
      | task fuel t =>
          have hrestored := handle_restored h fuel t hk
          simp only [Handler.step] at hw
          split at hw
          · rename_i w' hrun
            cases hw
            rw [hrun] at hrestored
            exact restored_self hrestored
          · cases hw
      | register query s =>
          cases hw
          exact ⟨⟨⟨[], by simp, trivial⟩, h.connects, h.sets, h.charSet⟩, h.serves⟩
      | poll =>
          cases hw
          exact ⟨⟨⟨[], by simp, trivial⟩, h.connects, h.sets, h.charSet⟩, h.serves⟩
  | setCharacterSet set =>
      obtain ⟨w', hrun, htracked, -, hconnection⟩ :=
        mysqlSetCharacterSet_tracked h.toTracked set.bytes
      simp only [step] at hs
      rw [Handler.setCharacterSet, run_bind_ok hrun] at hs
      cases houtcome : lib.setCharacterSet (x.world.calls .setCharacterSet) with
      | some e =>
          rw [houtcome, Option.isSome_some, if_pos rfl] at hs hconnection
          cases hs
          have hserves : Serves x.script (session lib w'.log) :=
            fun set' hscript charset hcharset =>
            h.serves set' hscript charset (hconnection ▸ hcharset)
          exact restored_self ⟨htracked, hserves⟩
      | none =>
          rw [houtcome, Option.isSome_none, if_neg Bool.false_ne_true] at hs hconnection
          cases hs
          refine ⟨⟨⟨[], by simp, trivial⟩, htracked.connects, htracked.sets, ?_⟩, ?_⟩
          · rintro set' ⟨⟩
            exact set.copy
          · rintro set' ⟨⟩ charset hcharset
            have hcharset : (session lib w'.log).connection = some charset := hcharset
            rw [hconnection] at hcharset
            obtain ⟨_, _, rfl⟩ := Option.map_eq_some_iff.mp hcharset
            rfl

/-- **The session is restored.** In a run whose reconnects restore the character set, every query
and every statement of the next call is executed with the set that the script chose last. -/
theorem session_restored {c : Credentials} {tr : List Call} {l : Call}
    (hG : Transition.Along (step lib) (fun x l => x.Keeps lib l) (start c) (tr ++ [l]))
    (h : Transition.exec (step lib) (start c) tr = some x) :
    ∃ new, (x.leaves lib l).log = x.world.log ++ new ∧
      Executes lib x.script (session lib x.world.log) new := by
  have hrestored : Restored lib x.script x.world x.world :=
    Transition.exec_inv (I := fun x => Restored lib x.script x.world x.world)
      (fun _ _ _ hI hl hs => restored_step hI hl hs) (restored_start lib c) hG.left h
  exact leaves_executes hrestored (hG.right h).1

def utf8 : CharSetName := ⟨[117, 116, 102, 56], by decide, by decide⟩

/-- The first query loses the connection, and the second `mysql_set_character_set` fails. -/
def lostSet : Lib :=
  { Lib.calm with
    realQuery := fun k => if k = 0 then some .serverLost else none
    setCharacterSet := fun k => if k = 1 then some .cantReadCharset else none }

/-- The query after a reconnect that could not restore the set is executed with the default one. -/
theorem session_restored_fails :
    ∃ x, Transition.exec (step lostSet) (start ⟨[], [], [], [], 3306, [], 0⟩)
        [.setCharacterSet utf8, .handler (.task 2 (.runQuery ⟨0, true⟩ [97]))] = some x ∧
      ¬ ∃ new, (x.leaves lostSet (.handler (.task 1 (.runQuery ⟨1, true⟩ [98])))).log =
        x.world.log ++ new ∧ Executes lostSet x.script (session lostSet x.world.log) new := by
  obtain ⟨x, hexec, hx⟩ := Option.map_eq_some_iff.mp (show (Transition.exec (step lostSet)
      (start ⟨[], [], [], [], 3306, [], 0⟩)
      [.setCharacterSet utf8, .handler (.task 2 (.runQuery ⟨0, true⟩ [97]))]).map
        (fun x => (x.script.map (·.bytes), (session lostSet x.world.log).connection,
          decide ((x.leaves lostSet (.handler (.task 1 (.runQuery ⟨1, true⟩ [98])))).log =
            x.world.log ++ [.realQuery [98]]))) =
              some (some utf8.bytes, some none, true) by decide +kernel)
  simp only [Prod.mk.injEq, decide_eq_true_eq, Option.map_eq_some_iff] at hx
  obtain ⟨⟨set, hscript, -⟩, hconnection, hlog⟩ := hx
  refine ⟨x, hexec, ?_⟩
  rintro ⟨new, hnew, hexecutes⟩
  obtain rfl : [.realQuery [98]] = new := List.append_cancel_left (hlog.symm.trans hnew)
  cases hexecutes.1 rfl set hscript none hconnection

/-- The library on which the reconnect restores the set. -/
def lostOnce : Lib :=
  { Lib.calm with
    realQuery := fun k => if k = 0 then some .serverLost else none }

theorem session_restored_lostOnce :
    ∃ x, Transition.exec (step lostOnce) (start ⟨[], [], [], [], 3306, [], 0⟩)
        [.setCharacterSet utf8, .handler (.task 2 (.runQuery ⟨0, true⟩ [97]))] = some x ∧
      ∃ new, (x.leaves lostOnce (.handler (.task 1 (.runQuery ⟨1, true⟩ [98])))).log =
        x.world.log ++ new ∧ Executes lostOnce x.script (session lostOnce x.world.log) new := by
  obtain ⟨x, hexec⟩ := Option.isSome_iff_exists.mp (show (Transition.exec (step lostOnce)
      (start ⟨[], [], [], [], 3306, [], 0⟩)
      [.setCharacterSet utf8,
        .handler (.task 2 (.runQuery ⟨0, true⟩ [97]))]).isSome by decide +kernel)
  exact ⟨x, hexec, session_restored (by decide +kernel) hexec⟩

end Scripted

end Tmysql4.Handler
