import Tmysql4.Rules

/-! # Reconnects, re-preparations and repeated attempts

What `prepare`, `connect`, `send` and `executions` do for every combination
of outcomes, in terms of the outcomes alone: `Connects` says that the next
connection attempt succeeds, `Reprepares n` that the next `n` preparations
do, `recoveries` lists the recoveries between the executions of a statement.

`send_spec` and `executions_spec` are the main results: with fuel for the attempts that the flags
of the source allow, a request ends with the outcome of its last attempt, or with the exception of
a preparation that failed. -/

namespace Tmysql4.Handler

open Imperative

variable {lib : Lib} {w w' w'' w₀ : World} {s : StmtId} {fns : List Fn}

/-! ### Frames -/

/-- Only functions of `fns` were called, and the rest is as before: the actions, the statement cache
and, unless `mysql_set_character_set` was called, the character set. -/
structure Frame (fns : List Fn) (w w' : World) : Prop where
  calls : ∀ f, f ∉ fns → w'.calls f = w.calls f
  completedActions : w'.completedActions = w.completedActions
  preparedStatements : w'.preparedStatements = w.preparedStatements
  charSet : .setCharacterSet ∉ fns → w'.charSet = w.charSet

theorem Frame.refl (fns : List Fn) (w : World) : Frame fns w w :=
  ⟨fun _ _ => rfl, rfl, rfl, fun _ => rfl⟩

theorem Frame.trans (h : Frame fns w w') (h' : Frame fns w' w'') : Frame fns w w'' where
  calls f hf := (h'.calls f hf).trans (h.calls f hf)
  completedActions := h'.completedActions.trans h.completedActions
  preparedStatements := h'.preparedStatements.trans h.preparedStatements
  charSet hf := (h'.charSet hf).trans (h.charSet hf)

theorem Frame.mono {fns' : List Fn} (h : Frame fns w w') (hsub : fns ⊆ fns') : Frame fns' w w' :=
  ⟨fun f hf => h.calls f fun hm => hf (hsub hm), h.completedActions, h.preparedStatements,
    fun hf => h.charSet fun hm => hf (hsub hm)⟩

theorem stable_frame : Stable fns (Frame fns w₀) where
  call f hf w h := by
    refine ⟨fun g hg => ?_, h.completedActions, h.preparedStatements, h.charSet⟩
    rw [← h.calls g hg]
    exact counted_calls_ne w fun he => hg (by rwa [he])
  connError _ _ h := ⟨h.calls, h.completedActions, h.preparedStatements, h.charSet⟩
  handle _ _ _ _ h := ⟨h.calls, h.completedActions, h.preparedStatements, h.charSet⟩
  locals _ _ _ h := ⟨h.calls, h.completedActions, h.preparedStatements, h.charSet⟩
  frees _ _ h := ⟨h.calls, h.completedActions, h.preparedStatements, h.charSet⟩
  waiter _ _ h := ⟨h.calls, h.completedActions, h.preparedStatements, h.charSet⟩
  isPendingCallback _ _ h := ⟨h.calls, h.completedActions, h.preparedStatements, h.charSet⟩

theorem preparable_frame (hf : prepareFns ⊆ fns) : Preparable fns (Frame fns w₀) where
  toStable := stable_frame
  prepares := hf
  request _ _ _ h := ⟨h.calls, h.completedActions, h.preparedStatements, h.charSet⟩
  handles _ _ _ h := ⟨h.calls, h.completedActions, h.preparedStatements, h.charSet⟩
  stmts _ _ _ h := ⟨h.calls, h.completedActions, h.preparedStatements, h.charSet⟩

theorem connectable_frame (hf : connectFns ⊆ fns) : Connectable fns (Frame fns w₀) where
  toPreparable := preparable_frame (List.Subset.trans (by decide) hf)
  opens := List.Subset.trans (by decide) hf
  quiet _ _ _ _ h := ⟨h.calls, h.completedActions, h.preparedStatements, h.charSet⟩
  charSet _ _ h := ⟨h.calls, h.completedActions, h.preparedStatements,
    fun hs => absurd (hf (by decide)) hs⟩

theorem frame_record (r : Request) : Preserves (Frame fns w₀) (record r) :=
  Preserves.modify fun _ h => ⟨h.calls, h.completedActions, h.preparedStatements, h.charSet⟩

/-! ### Preparations -/

/-- The next `n` preparations succeed. -/
def Reprepares (lib : Lib) (w : World) (n : ℕ) : Prop :=
  ∀ i < n, lib.stmtInit (w.calls .stmtInit + i) = none ∧
    lib.stmtPrepare (w.calls .stmtPrepare + i) = none

instance (lib : Lib) (w : World) (n : ℕ) : Decidable (Reprepares lib w n) :=
  inferInstanceAs (Decidable (∀ i < n, _ ∧ _))

theorem Reprepares.le {m n : ℕ} (h : Reprepares lib w n) (hle : m ≤ n) : Reprepares lib w m :=
  fun i hi => h i (Nat.lt_of_lt_of_le hi hle)

theorem reprepares_zero : Reprepares lib w 0 := fun _ hi => absurd hi (Nat.not_lt_zero _)

/-- The outcome of preparation `i`. -/
def preparation (lib : Lib) (w : World) (i : ℕ) : Option LibError :=
  (lib.stmtInit (w.calls .stmtInit + i)).or (lib.stmtPrepare (w.calls .stmtPrepare + i))

theorem reprepares_iff {n : ℕ} : Reprepares lib w n ↔ ∀ i < n, preparation lib w i = none := by
  simp only [Reprepares, preparation, Option.or_eq_none_iff]

theorem reprepares_succ {n : ℕ} :
    Reprepares lib w (n + 1) ↔ Reprepares lib w n ∧ preparation lib w n = none := by
  simp only [reprepares_iff, Nat.forall_lt_succ_right]

/-- One of the next `n` preparations fails, and the first one to do so fails with `e`. -/
def FailsWith (lib : Lib) (w : World) (n : ℕ) (e : LibError) : Prop :=
  ∃ i < n, Reprepares lib w i ∧ preparation lib w i = some e

theorem FailsWith.not_reprepares {n : ℕ} {e : LibError} (h : FailsWith lib w n e) :
    ¬ Reprepares lib w n := by
  obtain ⟨i, hi, -, hfails⟩ := h
  intro hall
  rw [reprepares_iff.mp hall i hi] at hfails
  cases hfails

theorem exists_failsWith {n : ℕ} (h : ¬ Reprepares lib w n) : ∃ e, FailsWith lib w n e := by
  induction n with
  | zero => exact absurd reprepares_zero h
  | succ n ih =>
      by_cases hn : Reprepares lib w n
      · have hfails : preparation lib w n ≠ none := fun hnone => h (reprepares_succ.mpr ⟨hn, hnone⟩)
        obtain ⟨e, he⟩ := Option.ne_none_iff_exists'.mp hfails
        exact ⟨e, n, Nat.lt_succ_self n, hn, he⟩
      · obtain ⟨e, i, hi, hfails⟩ := ih hn
        exact ⟨e, i, Nat.lt_succ_of_lt hi, hfails⟩

theorem FailsWith.le {m n : ℕ} {e : LibError} (h : FailsWith lib w m e) (hle : m ≤ n) :
    FailsWith lib w n e := by
  obtain ⟨i, hi, hfails⟩ := h
  exact ⟨i, Nat.lt_of_lt_of_le hi hle, hfails⟩

theorem failsWith_one {e : LibError} : FailsWith lib w 1 e ↔ preparation lib w 0 = some e := by
  constructor
  · rintro ⟨i, hi, -, hfails⟩
    obtain rfl : i = 0 := Nat.lt_one_iff.mp hi
    exact hfails
  · exact fun hfails => ⟨0, Nat.zero_lt_one, reprepares_zero, hfails⟩

/-- The counters after `n` preparations that succeeded. -/
structure Prepared (fns : List Fn) (n : ℕ) (w w' : World) : Prop where
  frame : Frame fns w w'
  stmtInit : w'.calls .stmtInit = w.calls .stmtInit + n
  stmtPrepare : w'.calls .stmtPrepare = w.calls .stmtPrepare + n

theorem Prepared.trans {m n : ℕ} (h : Prepared fns m w w') (h' : Prepared fns n w' w'') :
    Prepared fns (m + n) w w'' where
  frame := h.frame.trans h'.frame
  stmtInit := by rw [h'.stmtInit, h.stmtInit, Nat.add_assoc]
  stmtPrepare := by rw [h'.stmtPrepare, h.stmtPrepare, Nat.add_assoc]

theorem Prepared.mono {fns' : List Fn} {n : ℕ} (h : Prepared fns n w w') (hsub : fns ⊆ fns') :
    Prepared fns' n w w' := ⟨h.frame.mono hsub, h.stmtInit, h.stmtPrepare⟩

theorem Prepared.reprepares_iff {m n : ℕ} (h : Prepared fns m w w') :
    Reprepares lib w (m + n) ↔ Reprepares lib w m ∧ Reprepares lib w' n := by
  unfold Reprepares
  rw [h.stmtInit, h.stmtPrepare]
  constructor
  · refine fun hall => ⟨fun i hi => hall i (by omega), fun i hi => ?_⟩
    have := hall (m + i) (by omega)
    rwa [← Nat.add_assoc, ← Nat.add_assoc] at this
  · rintro ⟨hm, hn⟩ i hi
    by_cases him : i < m
    · exact hm i him
    · obtain ⟨j, rfl⟩ := Nat.exists_eq_add_of_le (Nat.le_of_not_lt him)
      have := hn j (by omega)
      rwa [Nat.add_assoc, Nat.add_assoc] at this

theorem Prepared.preparation {m : ℕ} (h : Prepared fns m w w') (i : ℕ) :
    preparation lib w' i = preparation lib w (m + i) := by
  unfold Handler.preparation
  rw [h.stmtInit, h.stmtPrepare, Nat.add_assoc, Nat.add_assoc]

theorem Prepared.failsWith {m n : ℕ} {e : LibError} (h : Prepared fns m w w')
    (hm : Reprepares lib w m) (hn : FailsWith lib w' n e) : FailsWith lib w (m + n) e := by
  obtain ⟨i, hi, hprep, hfails⟩ := hn
  exact ⟨m + i, Nat.add_lt_add_left hi m, h.reprepares_iff.mpr ⟨hm, hprep⟩,
    h.preparation i ▸ hfails⟩

theorem reprepares_one : Reprepares lib w 1 ↔
    lib.stmtInit (w.calls .stmtInit) = none ∧ lib.stmtPrepare (w.calls .stmtPrepare) = none := by
  constructor
  · exact fun h => h 0 Nat.zero_lt_one
  · intro h i hi
    obtain rfl : i = 0 := Nat.lt_one_iff.mp hi
    exact h

theorem closeHandle_run (stmt : Option HandleId) (w : World) :
    ∃ w', (closeHandle stmt).run w = .ok () w' ∧ w'.calls = w.calls ∧ w'.stmt = w.stmt ∧
      w'.nextHandle = w.nextHandle := by
  cases stmt with
  | none => exact ⟨w, rfl, rfl, rfl, rfl⟩
  | some h => exact ⟨_, rfl, rfl, rfl, rfl⟩

theorem mysqlStmtInit_ok (h : lib.stmtInit (w.calls .stmtInit) = none) :
    ∃ w', (mysqlStmtInit lib).run w = .ok (some w.nextHandle) w' ∧
      w'.calls = Function.update w.calls .stmtInit (w.calls .stmtInit + 1) ∧ w'.stmt = w.stmt := by
  rw [mysqlStmtInit, run_bind_ok (tick_run _ _)]
  simp only [h]
  exact ⟨_, rfl, rfl, rfl⟩

theorem mysqlStmtInit_fails {e : LibError} (h : lib.stmtInit (w.calls .stmtInit) = some e) :
    ∃ w', (mysqlStmtInit lib).run w = .ok none w' ∧ w'.connError = e.diag := by
  rw [mysqlStmtInit, run_bind_ok (tick_run _ _)]
  simp only [h]
  exact ⟨_, rfl, rfl⟩

theorem mysqlStmtPrepare_run (lib : Lib) (h : HandleId) (query : Bytes) (w : World) :
    ∃ w', (mysqlStmtPrepare lib h query).run w =
        .ok (lib.stmtPrepare (w.calls .stmtPrepare)).isSome w' ∧
      w'.calls = Function.update w.calls .stmtPrepare (w.calls .stmtPrepare + 1) ∧
      w'.stmt = w.stmt ∧ w'.connError = diagOf (lib.stmtPrepare (w.calls .stmtPrepare)) := by
  rw [mysqlStmtPrepare, run_bind_ok (record_run _ _), run_bind_ok (tick_run _ _),
    run_bind_ok (reportStmt_run _ _ _)]
  cases hr : lib.stmtPrepare (w.calls .stmtPrepare) with
  | none => exact ⟨_, rfl, rfl, rfl, by simp⟩
  | some e => exact ⟨_, rfl, rfl, rfl, by simp⟩

theorem setStmt_run (s : StmtId) (p : PStatement) (w : World) :
    (setStmt s p).run w = .ok () { w with stmt := Function.update w.stmt s p } := rfl

theorem prepareOn_ok (lib : Lib) (s : StmtId) (p : PStatement) (h : HandleId)
    (hprepare : lib.stmtPrepare (w.calls .stmtPrepare) = none) :
    ∃ w' n, (prepareOn lib s p (some h)).run w = .ok () w' ∧
      w'.calls .stmtInit = w.calls .stmtInit ∧ w'.calls .stmtPrepare = w.calls .stmtPrepare + 1 ∧
      w'.stmt = Function.update w.stmt s ⟨some h, p.query, n⟩ := by
  obtain ⟨w₁, hrun, hcalls, hstmt, -⟩ := mysqlStmtPrepare_run lib h p.query w
  rw [hprepare] at hrun
  rw [prepareOn, run_bind_ok hrun]
  refine ⟨_, lib.stmtParamCount (w₁.calls .stmtParamCount), rfl, ?_, ?_, ?_⟩
  · simp [World.counted, hcalls]
  · simp [World.counted, hcalls]
  · simp only [World.counted, hstmt]

theorem prepareOn_fails (s : StmtId) (p : PStatement) (h : HandleId) {e : LibError}
    (hprepare : lib.stmtPrepare (w.calls .stmtPrepare) = some e) :
    ∃ w', (prepareOn lib s p (some h)).run w = .error (.myException e.errno e.text) w' := by
  obtain ⟨w₁, hrun, -, -, herror⟩ := mysqlStmtPrepare_run lib h p.query w
  rw [hprepare] at hrun herror
  rw [prepareOn, run_bind_ok hrun]
  refine ⟨w₁, ?_⟩
  rw [Option.isSome_some, if_pos rfl, throwException_run, herror]
  rfl

/-- A preparation that succeeds gives the statement a new handle. -/
theorem prepare_ok (s : StmtId) (h : Reprepares lib w 1) :
    ∃ w' n, (prepare lib s).run w = .ok () w' ∧ Prepared prepareFns 1 w w' ∧
      w'.stmt = Function.update w.stmt s ⟨some w.nextHandle, (w.stmt s).query, n⟩ := by
  obtain ⟨hinit, hprepare⟩ := reprepares_one.mp h
  obtain ⟨w₁, hclose, hcalls, hstmt, hnext⟩ := closeHandle_run (w.stmt s).stmt w
  rw [← hcalls] at hinit hprepare
  obtain ⟨w₂, hrun, hcalls₂, hstmt₂⟩ := mysqlStmtInit_ok hinit
  obtain ⟨w', n, hon, h₁, h₂, h₃⟩ := prepareOn_ok lib (w := { w₂ with
      stmt := Function.update w₂.stmt s ⟨some w.nextHandle, (w.stmt s).query, (w.stmt s).numArgs⟩ })
    s (w.stmt s) w.nextHandle (by simpa [hcalls₂] using hprepare)
  have hok : (prepare lib s).run w = .ok () w' := by
    rw [prepare, run_bind_ok (EStateM.run_get _), run_bind_ok hclose, run_bind_ok hrun,
      run_bind_ok (setStmt_run _ _ _), hnext]
    exact hon
  refine ⟨w', n, hok, ⟨((preparable_frame (List.Subset.refl _)).prepare s).ok hok (Frame.refl _ _),
    ?_, ?_⟩, ?_⟩
  · rw [h₁]
    simp [hcalls₂, hcalls]
  · rw [h₂]
    simp [hcalls₂, hcalls]
  · rw [h₃]
    simp [hstmt₂, hstmt]

theorem prepare_throws (s : StmtId) {e : LibError} (h : FailsWith lib w 1 e) :
    ∃ w', (prepare lib s).run w = .error (.myException e.errno e.text) w' := by
  rw [failsWith_one, preparation] at h
  obtain ⟨w₁, hclose, hcalls, hstmt, -⟩ := closeHandle_run (w.stmt s).stmt w
  rw [← hcalls] at h
  rw [prepare, run_bind_ok (EStateM.run_get _), run_bind_ok hclose]
  cases hinit : lib.stmtInit (w₁.calls .stmtInit) with
  | some e' =>
      rw [Nat.add_zero, hinit, Option.some_or] at h
      cases h
      obtain ⟨w₂, hrun, herror⟩ := mysqlStmtInit_fails hinit
      rw [run_bind_ok hrun, run_bind_ok (setStmt_run _ _ _)]
      rw [prepareOn, throwException_run]
      simp only [herror]
      exact ⟨_, rfl⟩
  | none =>
      rw [Nat.add_zero, hinit, Option.none_or, Nat.add_zero] at h
      obtain ⟨w₂, hrun, hcalls₂, -⟩ := mysqlStmtInit_ok hinit
      rw [run_bind_ok hrun, run_bind_ok (setStmt_run _ _ _)]
      exact prepareOn_fails s _ _ (by simpa [hcalls₂] using h)

/-! ### The re-preparations of `connect` -/

/-- The statements that had a handle have one afterwards. -/
def KeepsHandles (w w' : World) : Prop := ∀ s, (w.stmt s).stmt ≠ none → (w'.stmt s).stmt ≠ none

theorem KeepsHandles.trans (h : KeepsHandles w w') (h' : KeepsHandles w' w'') :
    KeepsHandles w w'' :=
  fun s hs => h' s (h s hs)

theorem keepsHandles_update {p : PStatement} (hp : p.stmt ≠ none)
    (h : w'.stmt = Function.update w.stmt s p) : KeepsHandles w w' := by
  intro t ht
  rw [h, Function.update_apply]
  split
  · exact hp
  · exact ht

theorem prepareAll_ok {entries : List (Bytes × StmtId)} (h : Reprepares lib w entries.length) :
    ∃ w', (prepareAll lib entries).run w = .ok () w' ∧ Prepared prepareFns entries.length w w' ∧
      KeepsHandles w w' := by
  induction entries generalizing w with
  | nil => exact ⟨w, rfl, ⟨Frame.refl _ _, rfl, rfl⟩, fun _ hs => hs⟩
  | cons entry entries ih =>
      rw [List.length_cons, Nat.add_comm] at h ⊢
      have hone : Reprepares lib w 1 := fun i hi => h i (by omega)
      obtain ⟨w₁, n, hok, hprep, hstmt⟩ := prepare_ok entry.2 hone
      obtain ⟨w₂, hrest, hprep', hkeeps⟩ := ih (hprep.reprepares_iff.mp h).2
      refine ⟨w₂, ?_, hprep.trans hprep',
        (keepsHandles_update (Option.some_ne_none _) hstmt).trans hkeeps⟩
      rw [prepareAll, run_bind_ok hok]
      exact hrest

theorem prepareAll_throws {entries : List (Bytes × StmtId)} {e : LibError}
    (h : FailsWith lib w entries.length e) :
    ∃ w', (prepareAll lib entries).run w = .error (.myException e.errno e.text) w' := by
  induction entries generalizing w with
  | nil => exact absurd reprepares_zero h.not_reprepares
  | cons entry entries ih =>
      obtain ⟨i, hi, hprep, hfails⟩ := h
      cases i with
      | zero =>
          obtain ⟨w', hthrow⟩ := prepare_throws entry.2 (failsWith_one.mpr hfails)
          exact ⟨w', by rw [prepareAll, run_bind_error hthrow]⟩
      | succ i =>
          obtain ⟨w₁, n, hok, hone, -⟩ := prepare_ok entry.2 (hprep.le (Nat.succ_pos i))
          rw [Nat.add_comm i 1] at hprep hfails
          rw [prepareAll, run_bind_ok hok]
          exact ih ⟨i, Nat.lt_of_succ_lt_succ hi, (hone.reprepares_iff.mp hprep).2,
            (hone.preparation i).trans hfails⟩

/-! ### Reconnects -/

/-- The next `mysql_real_connect` succeeds. -/
def Opens (lib : Lib) (w : World) : Prop :=
  lib.options (w.calls .options) = none ∧ lib.options (w.calls .options + 1) = none ∧
    lib.realConnect (w.calls .realConnect) = none

instance (lib : Lib) (w : World) : Decidable (Opens lib w) :=
  inferInstanceAs (Decidable (_ ∧ _ ∧ _))

/-- The next connection attempt succeeds, with the options before and the character set after it. -/
def Connects (lib : Lib) (w : World) : Prop :=
  lib.options (w.calls .options) = none ∧ lib.options (w.calls .options + 1) = none ∧
    lib.realConnect (w.calls .realConnect) = none ∧
    (w.charSet = [] ∨ lib.setCharacterSet (w.calls .setCharacterSet) = none)

instance (lib : Lib) (w : World) : Decidable (Connects lib w) :=
  inferInstanceAs (Decidable (_ ∧ _ ∧ _ ∧ _))

theorem connects_congr (h : Frame fns w w') (ho : .options ∉ fns) (hr : .realConnect ∉ fns)
    (hs : .setCharacterSet ∉ fns) : Connects lib w' ↔ Connects lib w := by
  unfold Connects
  rw [h.calls .options ho, h.calls .realConnect hr, h.calls .setCharacterSet hs, h.charSet hs]

theorem reprepares_congr {n : ℕ} (h : Frame fns w w') (hi : .stmtInit ∉ fns)
    (hp : .stmtPrepare ∉ fns) : Reprepares lib w' n ↔ Reprepares lib w n := by
  unfold Reprepares
  rw [h.calls .stmtInit hi, h.calls .stmtPrepare hp]

theorem failsWith_congr {n : ℕ} {e : LibError} (h : Frame fns w w') (hi : .stmtInit ∉ fns)
    (hp : .stmtPrepare ∉ fns) : FailsWith lib w' n e ↔ FailsWith lib w n e := by
  unfold FailsWith preparation
  simp only [reprepares_congr h hi hp, h.calls .stmtInit hi, h.calls .stmtPrepare hp]

/-- What the part of `connect` before the re-preparations leaves alone. -/
structure Opened (fns : List Fn) (w w' : World) : Prop where
  frame : Frame fns w w'
  stmt : w'.stmt = w.stmt
  handle : w'.handle = w.handle

theorem Opened.refl (fns : List Fn) (w : World) : Opened fns w w := ⟨Frame.refl fns w, rfl, rfl⟩

theorem Opened.mono {fns' : List Fn} (h : Opened fns w w') (hsub : fns ⊆ fns') : Opened fns' w w' :=
  ⟨h.frame.mono hsub, h.stmt, h.handle⟩

theorem Opened.trans (h : Opened fns w w') (h' : Opened fns w' w'') : Opened fns w w'' :=
  ⟨h.frame.trans h'.frame, h'.stmt.trans h.stmt, h'.handle.trans h.handle⟩

theorem opened_tick {f : Fn} (hf : f ∈ fns) : Preserves (Opened fns w₀) (tick f) :=
  fun w h => ⟨stable_frame.tick hf w h.frame, h.stmt, h.handle⟩

theorem opened_reportConn (d : Diag) : Preserves (Opened fns w₀) (reportConn d) :=
  fun w h => ⟨stable_frame.reportConn d w h.frame, h.stmt, h.handle⟩

theorem opened_record (r : Request) : Preserves (Opened fns w₀) (record r) :=
  fun w h => ⟨frame_record r w h.frame, h.stmt, h.handle⟩

theorem opened_orElse (failed : Bool) {call : Io Bool} (h : Preserves (Opened fns w₀) call) :
    Preserves (Opened fns w₀) (orElse failed call) := Preserves.ite (Preserves.pure _) h

def openFns : List Fn := [.options, .realConnect]

theorem opened_openConnection (c : Credentials) :
    Preserves (Opened openFns w₀) (openConnection lib c) := by
  have hoptions : Preserves (Opened openFns w₀) (mysqlOptions lib) :=
    (opened_tick (by decide)).bind fun _ => (opened_reportConn _).bind fun _ => Preserves.pure _
  exact hoptions.bind fun _ => (opened_orElse _ hoptions).bind fun _ =>
    opened_orElse _ <| (opened_record _).bind fun _ => (opened_tick (by decide)).bind fun _ =>
      (opened_reportConn _).bind fun _ => Preserves.pure _

theorem opened_restoreCharacterSet (charset : Bytes) :
    Preserves (Opened [.setCharacterSet] w₀) (restoreCharacterSet lib charset) := by
  have hset : Preserves (Opened [.setCharacterSet] w₀) (mysqlSetCharacterSet lib charset) :=
    (opened_record _).bind fun _ => (opened_tick (by decide)).bind fun _ =>
      (opened_reportConn _).bind fun _ => Preserves.pure _
  have hcopy : Preserves (Opened [.setCharacterSet] w₀)
      (modify fun w => { w with charSet := (cString charset).take 64 } : Io Unit) :=
    Preserves.modify fun w h => ⟨⟨h.frame.calls, h.frame.completedActions,
      h.frame.preparedStatements, fun hf => absurd (by decide) hf⟩, h.stmt, h.handle⟩
  have herror : Preserves (Opened [.setCharacterSet] w₀) mysqlError :=
    Preserves.get.bind fun _ => Preserves.pure _
  exact Preserves.ite (Preserves.pure _) <| hset.bind fun _ => Preserves.ite
    (herror.bind fun _ => Preserves.pure _) (hcopy.bind fun _ => Preserves.pure _)

/-- What the first part of `connect` says. -/
theorem openConnection_run (lib : Lib) (w : World) :
    ∃ failed w', (openConnection lib w.credentials).run w = .ok failed w' ∧ Opened openFns w w' ∧
      (failed = false ↔ lib.options (w.calls .options) = none ∧
        lib.options (w.calls .options + 1) = none ∧
          lib.realConnect (w.calls .realConnect) = none) := by
  have hrun : ∃ failed w', (openConnection lib w.credentials).run w = .ok failed w' ∧
      (failed = false ↔ lib.options (w.calls .options) = none ∧
        lib.options (w.calls .options + 1) = none ∧
          lib.realConnect (w.calls .realConnect) = none) := by
    rw [openConnection, run_bind_ok (mysqlOptions_run lib w)]
    cases h₁ : lib.options (w.calls .options) with
    | some e => exact ⟨true, _, rfl, by simp⟩
    | none =>
        rw [Option.isSome_none, orElse, if_neg Bool.false_ne_true,
          run_bind_ok (mysqlOptions_run lib _)]
        simp only [Function.update_self]
        cases h₂ : lib.options (w.calls .options + 1) with
        | some e => exact ⟨true, _, rfl, by simp⟩
        | none =>
            rw [Option.isSome_none, orElse, if_neg Bool.false_ne_true, mysqlRealConnect_run lib]
            exact ⟨_, _, rfl, by simp⟩
  obtain ⟨failed, w', hok, hiff⟩ := hrun
  exact ⟨failed, w', hok,
    (opened_openConnection _).ok hok (.refl _ _), hiff⟩

theorem restoreCharacterSet_run (lib : Lib) (charset : Bytes) (w : World) :
    ∃ error w', (restoreCharacterSet lib charset).run w = .ok error w' ∧
      Opened [.setCharacterSet] w w' ∧
      (error = none ↔ charset = [] ∨ lib.setCharacterSet (w.calls .setCharacterSet) = none) := by
  have hrun : ∃ error w', (restoreCharacterSet lib charset).run w = .ok error w' ∧
      (error = none ↔ charset = [] ∨ lib.setCharacterSet (w.calls .setCharacterSet) = none) := by
    unfold restoreCharacterSet
    by_cases hc : charset = []
    · rw [if_pos hc]
      exact ⟨none, w, rfl, by simp [hc]⟩
    · rw [if_neg hc, setCharacterSet, run_bind_ok (mysqlSetCharacterSet_run lib charset w)]
      cases h : lib.setCharacterSet (w.calls .setCharacterSet) with
      | some e => exact ⟨some _, _, rfl, by simp [hc]⟩
      | none => exact ⟨none, _, rfl, by simp⟩
  obtain ⟨error, w', hok, hiff⟩ := hrun
  exact ⟨error, w', hok,
    (opened_restoreCharacterSet _).ok hok (.refl _ _), hiff⟩

/-- How `connect` goes before the re-preparations. -/
theorem connect_started (lib : Lib) (isReconnect : Bool) (w : World) :
    (¬ Connects lib w ∧ ∃ error w', (connect lib isReconnect).run w = .ok (some error) w' ∧
      Opened connectFns w w') ∨
    (Connects lib w ∧ ∃ w₁, Opened (openFns ++ [.setCharacterSet]) w w₁ ∧
      (connect lib isReconnect).run w = (prepareAll lib w.preparedStatements >>= fun _ =>
        modify (fun w => { w with isPendingCallback := !isReconnect }) >>= fun _ =>
          (pure none : Io (Option Bytes))).run w₁) := by
  obtain ⟨failed, w₁, hopen, ho, hiff⟩ := openConnection_run lib w
  rw [connect, run_bind_ok (EStateM.run_get _), run_bind_ok hopen]
  cases failed with
  | true =>
      refine Or.inl ⟨fun hc => ?_, _, w₁, rfl, ho.mono (by decide)⟩
      exact Bool.false_ne_true (hiff.mpr ⟨hc.1, hc.2.1, hc.2.2.1⟩).symm
  | false =>
      obtain ⟨h₁, h₂, h₃⟩ := hiff.mp rfl
      obtain ⟨error, w₂, hset, ho', hiff'⟩ := restoreCharacterSet_run lib w.charSet w₁
      rw [ho.frame.calls .setCharacterSet (by decide)] at hiff'
      rw [if_neg Bool.false_ne_true, run_bind_ok hset]
      cases error with
      | some error =>
          refine Or.inl ⟨fun hc => ?_, error, w₂, rfl,
            (ho.mono (by decide)).trans (ho'.mono (by decide))⟩
          exact Option.some_ne_none _ (hiff'.mpr hc.2.2.2)
      | none =>
          exact Or.inr ⟨⟨h₁, h₂, h₃, hiff'.mp rfl⟩, w₂,
            (ho.mono (by decide)).trans (ho'.mono (by decide)), rfl⟩

/-- `connect` through its two parts: `I` holds after the
part before the preparations, and `J` after these. -/
theorem connect_final {I J : World → Prop} (hI : Openable fns I)
    (hJ : ∀ b w, J w → J { w with isPendingCallback := b }) {isReconnect : Bool} (hw : I w)
    (hrefused : ¬ Connects lib w → ∀ w₁, I w₁ → J w₁)
    (hp : ∀ w₁, Connects lib w → Opened sessionOpenFns w w₁ → I w₁ →
      J (final ((prepareAll lib w.preparedStatements).run w₁))) :
    J (final ((connect lib isReconnect).run w)) := by
  obtain ⟨failed, w₁, hopen, ho, hiff⟩ := openConnection_run lib w
  have hw₁ : I w₁ := (hI.openConnection w.credentials).ok hopen hw
  rw [connect, run_bind_ok (EStateM.run_get _), run_bind_ok hopen]
  cases failed with
  | true =>
      exact hrefused (fun hc => Bool.false_ne_true (hiff.mpr ⟨hc.1, hc.2.1, hc.2.2.1⟩).symm) w₁ hw₁
  | false =>
      obtain ⟨h₁, h₂, h₃⟩ := hiff.mp rfl
      obtain ⟨error, w₂, hset, ho', hiff'⟩ := restoreCharacterSet_run lib w.charSet w₁
      have hw₂ : I w₂ := (hI.restoreCharacterSet w.charSet).ok hset hw₁
      rw [ho.frame.calls .setCharacterSet (by decide)] at hiff'
      rw [if_neg Bool.false_ne_true, run_bind_ok hset]
      cases error with
      | some error => exact hrefused (fun hc => Option.some_ne_none _ (hiff'.mpr hc.2.2.2)) w₂ hw₂
      | none =>
          refine Preserves.final_bind
            (fun _ => Preserves.bind (Preserves.modify (hJ _)) fun _ => Preserves.pure _)
            (hp w₂ ⟨h₁, h₂, h₃, hiff'.mp rfl⟩ ?_ hw₂)
          exact (ho.mono (by decide)).trans (ho'.mono (by decide))

/-- What the part before the preparations keeps, and then the preparations, is kept by `connect`. -/
theorem final_connect {I : World → Prop} (hI : Openable fns I) {isReconnect : Bool} (hw : I w)
    (hp : ∀ w₁, Connects lib w → Opened sessionOpenFns w w₁ → I w₁ →
      I (final ((prepareAll lib w.preparedStatements).run w₁))) :
    I (final ((connect lib isReconnect).run w)) :=
  connect_final hI hI.isPendingCallback hw (fun _ _ h => h) hp

theorem connect_refused (isReconnect : Bool) (h : ¬ Connects lib w) :
    ∃ error w', (connect lib isReconnect).run w = .ok (some error) w' ∧ Opened connectFns w w' := by
  obtain ⟨-, hrun⟩ | ⟨hc, -⟩ := connect_started lib isReconnect w
  · exact hrun
  · exact absurd hc h

theorem connect_ok (isReconnect : Bool) (h : Connects lib w)
    (hp : Reprepares lib w w.preparedStatements.length) :
    ∃ w', (connect lib isReconnect).run w = .ok none w' ∧
      Prepared connectFns w.preparedStatements.length w w' ∧ KeepsHandles w w' := by
  obtain ⟨hc, -⟩ | ⟨-, w₁, ho, hrun⟩ := connect_started lib isReconnect w
  · exact absurd h hc
  · have hinit := ho.frame.calls .stmtInit (by decide)
    have hprepare := ho.frame.calls .stmtPrepare (by decide)
    obtain ⟨w₂, hall, hprep, hkeeps⟩ :=
      prepareAll_ok ((reprepares_congr ho.frame (by decide) (by decide)).mpr hp)
    refine ⟨{ w₂ with isPendingCallback := !isReconnect }, ?_, ⟨?_, ?_, ?_⟩, fun s hs => ?_⟩
    · rw [hrun, run_bind_ok hall]
      rfl
    · have hframe := (ho.frame.mono (by decide : _ ⊆ connectFns)).trans
        (hprep.frame.mono (by decide))
      exact ⟨hframe.calls, hframe.completedActions, hframe.preparedStatements, hframe.charSet⟩
    · rw [← hinit]
      exact hprep.stmtInit
    · rw [← hprepare]
      exact hprep.stmtPrepare
    · exact hkeeps s (by rwa [ho.stmt])

theorem connect_throws (isReconnect : Bool) (h : Connects lib w) {e : LibError}
    (hp : FailsWith lib w w.preparedStatements.length e) :
    ∃ w', (connect lib isReconnect).run w = .error (.myException e.errno e.text) w' := by
  obtain ⟨hc, -⟩ | ⟨-, w₁, ho, hrun⟩ := connect_started lib isReconnect w
  · exact absurd h hc
  · obtain ⟨w', hall⟩ := prepareAll_throws
      ((failsWith_congr ho.frame (by decide) (by decide)).mpr hp)
    exact ⟨w', by rw [hrun, run_bind_error hall]⟩

/-! ### The sends of a text query -/

/-- The outcome of send `i` of the query that is about to run. -/
def sendOutcome (lib : Lib) (w : World) (i : ℕ) : Option LibError :=
  lib.realQuery (w.calls .realQuery + i)

/-- The first send is repeated: it lost the connection, and the next connection attempt succeeds. -/
def Resends (lib : Lib) (w : World) : Prop :=
  lostConnection (diagOf (sendOutcome lib w 0)).errno = true ∧ Connects lib w

instance (lib : Lib) (w : World) : Decidable (Resends lib w) :=
  inferInstanceAs (Decidable (_ ∧ _))

/-- The outcome of the last send. -/
def lastSend (lib : Lib) (w : World) : Option LibError :=
  if Resends lib w then sendOutcome lib w 1 else sendOutcome lib w 0

theorem frame_mysqlRealQuery (hf : .realQuery ∈ fns) (query : Bytes) :
    Preserves (Frame fns w₀) (mysqlRealQuery lib query) :=
  stable_frame.anywhere.mysqlRealQuery hf (frame_record _)

/-- One send, and what the code reads afterwards. -/
theorem mysqlRealQuery_sent (lib : Lib) (query : Bytes) (w : World) :
    ∃ w', (mysqlRealQuery lib query).run w = .ok (sendOutcome lib w 0).isSome w' ∧
      w'.connError = diagOf (sendOutcome lib w 0) ∧ Frame [.realQuery] w w' ∧
      sendOutcome lib w' 0 = sendOutcome lib w 1 := by
  have hrun := mysqlRealQuery_run lib query w
  refine ⟨_, hrun, rfl, (frame_mysqlRealQuery (by decide) query).ok hrun (.refl _ _), ?_⟩
  simp [sendOutcome]

/-- A send that is not repeated ends the loop. -/
theorem send_last (lib : Lib) (query : Bytes) (fuel : ℕ) (hasRetried : Bool) (w : World)
    (h : hasRetried = true ∨ ¬ Resends lib w) :
    ∃ w', (send lib query (fuel + 1) hasRetried).run w = .ok (diagOf (sendOutcome lib w 0)) w' ∧
      Frame (.realQuery :: connectFns) w w' ∧
      (sendOutcome lib w 0 = none → w'.connError = .clear) := by
  obtain ⟨w₁, hrun, herror, hframe, -⟩ := mysqlRealQuery_sent lib query w
  rw [send, run_bind_ok hrun]
  cases ho : sendOutcome lib w 0 with
  | none =>
      exact ⟨w₁, rfl, hframe.mono (by decide), fun _ => by rw [herror, ho]; rfl⟩
  | some e =>
      rw [Option.isSome_some, if_pos rfl, run_bind_ok (mysqlError_run _), herror, ho]
      split
      · rename_i hlost
        obtain ⟨hfresh, hlost⟩ := Bool.and_eq_true_iff.mp hlost
        have hc : ¬ Connects lib w₁ := by
          rw [connects_congr hframe (by decide) (by decide) (by decide)]
          rintro hc
          obtain h | h := h
          · rw [h] at hfresh
            cases hfresh
          · exact h ⟨by rw [ho]; exact hlost, hc⟩
        obtain ⟨error, w₂, hconnect, hopened⟩ := connect_refused true hc
        rw [run_bind_ok hconnect]
        exact ⟨w₂, rfl, (hframe.mono (by decide)).trans (hopened.frame.mono (by decide)), nofun⟩
      · exact ⟨w₁, rfl, hframe.mono (by decide), nofun⟩

/-- A first send that is repeated hands over to the reconnect. -/
theorem send_again (query : Bytes) (fuel : ℕ) (h : Resends lib w) :
    ∃ w₁, Frame [.realQuery] w w₁ ∧ sendOutcome lib w₁ 0 = sendOutcome lib w 1 ∧
      (send lib query (fuel + 1) false).run w = (connect lib true >>= fun err =>
        match err with
        | none => send lib query fuel true
        | some _ => pure (diagOf (sendOutcome lib w 0))).run w₁ := by
  obtain ⟨w₁, hrun, herror, hframe, hnext⟩ := mysqlRealQuery_sent lib query w
  refine ⟨w₁, hframe, hnext, ?_⟩
  have hlost := h.1
  cases ho : sendOutcome lib w 0 with
  | none =>
      rw [ho] at hlost
      cases hlost
  | some e =>
      rw [ho] at hrun herror hlost
      rw [send, run_bind_ok hrun, Option.isSome_some, if_pos rfl, run_bind_ok (mysqlError_run _),
        herror, Bool.not_false, Bool.true_and]
      exact congrArg (EStateM.run · w₁) (if_pos hlost)

/-- **The sends of a query.** Unless a re-preparation throws, the loop ends with the outcome of the
last send. -/
theorem send_spec (query : Bytes) (fuel : ℕ)
    (h : Resends lib w → Reprepares lib w w.preparedStatements.length) :
    ∃ w', (send lib query (fuel + 2) false).run w = .ok (diagOf (lastSend lib w)) w' ∧
      Frame (.realQuery :: connectFns) w w' ∧ (lastSend lib w = none → w'.connError = .clear) := by
  unfold lastSend
  split
  · rename_i hr
    obtain ⟨w₁, hframe, hnext, hrun⟩ := send_again query (fuel + 1) hr
    have hp := (reprepares_congr hframe (by decide) (by decide)).mpr (h hr)
    rw [← hframe.preparedStatements] at hp
    have hc := (connects_congr hframe (by decide) (by decide) (by decide)).mpr hr.2
    obtain ⟨w₂, hconnect, hprep, -⟩ := connect_ok true hc hp
    obtain ⟨w₃, hsend, hframe', hclear⟩ := send_last lib query fuel true w₂ (.inl rfl)
    have houtcome : sendOutcome lib w₂ 0 = sendOutcome lib w 1 := by
      rw [← hnext, sendOutcome, sendOutcome, hprep.frame.calls .realQuery (by decide)]
    rw [houtcome] at hsend hclear
    refine ⟨w₃, ?_, ?_, hclear⟩
    · rw [hrun, run_bind_ok hconnect]
      exact hsend
    · exact (hframe.mono (by decide)).trans ((hprep.frame.mono (by decide)).trans hframe')
  · rename_i hr
    exact send_last lib query (fuel + 1) false w (.inr hr)

theorem send_throws (query : Bytes) (fuel : ℕ) (hr : Resends lib w) {e : LibError}
    (hp : FailsWith lib w w.preparedStatements.length e) :
    ∃ w', (send lib query (fuel + 1) false).run w = .error (.myException e.errno e.text) w' := by
  obtain ⟨w₁, hframe, -, hrun⟩ := send_again query fuel hr
  have hc := (connects_congr hframe (by decide) (by decide) (by decide)).mpr hr.2
  rw [← hframe.preparedStatements] at hp
  obtain ⟨w', hconnect⟩ :=
    connect_throws true hc ((failsWith_congr hframe (by decide) (by decide)).mpr hp)
  exact ⟨w', by rw [hrun, run_bind_error hconnect]⟩

/-- What holds after the first send and is kept by the
reconnect and the second send holds after the loop. -/
theorem final_send {I : World → Prop} {query : Bytes}
    (hquery : Preserves I (mysqlRealQuery lib query)) (hconnect : lostConnection
      (diagOf (sendOutcome lib w 0)).errno = true → ∀ w₁, Frame [.realQuery] w w₁ → I w₁ →
      I (final ((connect lib true).run w₁)))
    (fuel : ℕ) (hw : I w) : I (final ((send lib query fuel false).run w)) := by
  cases fuel with
  | zero => exact hw
  | succ fuel =>
      obtain ⟨w₁, hrun, herror, hframe, -⟩ := mysqlRealQuery_sent lib query w
      have hw₁ := hquery.ok hrun hw
      rw [send, run_bind_ok hrun]
      split
      · rw [run_bind_ok (mysqlError_run _), herror]
        split
        · rename_i hlost
          rw [Bool.not_false, Bool.true_and] at hlost
          refine Preserves.final_bind (fun err => ?_) (hconnect hlost w₁ hframe hw₁)
          cases err with
          | none => exact preserves_send_retried hquery fuel
          | some _ => exact Preserves.pure _
        · exact hw₁
      · exact hw₁

/-- More fuel does not change an outcome. -/
theorem send_mono {query : Bytes} {fuel fuel' : ℕ} (hfuel : fuel ≤ fuel') {hasRetried : Bool}
    {d : Diag} (h : (send lib query fuel hasRetried).run w = .ok d w') :
    (send lib query fuel' hasRetried).run w = .ok d w' := by
  induction fuel generalizing fuel' hasRetried w with
  | zero => cases h
  | succ fuel ih =>
      obtain ⟨fuel', rfl⟩ := Nat.exists_eq_succ_of_ne_zero (Nat.ne_zero_of_lt hfuel)
      rw [send, run_bind_eq_ok_iff] at h ⊢
      obtain ⟨failed, w₁, hrun, hrest⟩ := h
      refine ⟨failed, w₁, hrun, ?_⟩
      cases failed with
      | false => exact hrest
      | true =>
          rw [if_pos rfl, run_bind_ok (mysqlError_run _)] at hrest ⊢
          split
          · rename_i hlost
            rw [if_pos hlost, run_bind_eq_ok_iff] at hrest
            obtain ⟨err, w₂, hconnect, hrest⟩ := hrest
            rw [run_bind_ok hconnect]
            cases err with
            | none => exact ih (Nat.le_of_succ_le_succ hfuel) hrest
            | some _ => exact hrest
          · rename_i hlost
            rw [if_neg hlost] at hrest
            exact hrest

end Tmysql4.Handler
