import Tmysql4.Representation

/-! # What every handler keeps

A predicate is `Persistent` when the parts of a handler keep it one by one: the part of `connect`
before the preparations, `Prepare` on the statements that may be prepared, whether it succeeds or
not, and the executions.  It is then kept by the handlers, however they end. -/

namespace Tmysql4.Handler

open Imperative

variable {lib : Lib} {P : StmtId → Prop} {E : Request → Prop} {I : World → Prop} {w w' : World}
  {s : StmtId} {binds : List Bind}

/-! ### A preparation -/

/-- The fields that `Prepare` leaves alone. -/
structure Untouched (w w' : World) : Prop where
  nextStmt : w'.nextStmt = w.nextStmt
  credentials : w'.credentials = w.credentials
  preparedStatements : w'.preparedStatements = w.preparedStatements
  waiter : w'.waiter = w.waiter
  frees : w'.frees = w.frees

/-- What `Prepare` leaves: the old handle is closed, and there is no new one, or one on which the
query has been prepared, whether that succeeded or not. -/
structure Renewed (lib : Lib) (s : StmtId) (w w' : World) : Prop extends Untouched w w' where
  others : ∀ t, t ≠ s → w'.stmt t = w.stmt t
  query : (w'.stmt s).query = (w.stmt s).query
  outcome :
    (lib.stmtInit (w.calls .stmtInit) ≠ none ∧ (w'.stmt s).stmt = none ∧
      w'.nextHandle = w.nextHandle ∧ w'.log = (w.closing (w.stmt s).stmt).log ∧
      ∀ h, (w'.handle h).closed = ((w.closing (w.stmt s).stmt).handle h).closed) ∨
    (lib.stmtInit (w.calls .stmtInit) = none ∧ (w'.stmt s).stmt = some w.nextHandle ∧
      w'.nextHandle = w.nextHandle + 1 ∧
      w'.log = (w.closing (w.stmt s).stmt).log ++ [.stmtPrepare w.nextHandle (w.stmt s).query] ∧
      (w'.handle w.nextHandle).closed = false ∧
      ∀ h, h ≠ w.nextHandle → (w'.handle h).closed = ((w.closing (w.stmt s).stmt).handle h).closed)

theorem closing_untouched (stmt : Option HandleId) (w : World) : Untouched w (w.closing stmt) := by
  cases stmt with
  | none => exact ⟨rfl, rfl, rfl, rfl, rfl⟩
  | some h => exact ⟨rfl, rfl, rfl, rfl, rfl⟩

theorem prepare_renewed (lib : Lib) (s : StmtId) (w : World) :
    Renewed lib s w (final ((prepare lib s).run w)) := by
  obtain ⟨hcalls, hstmt, hnext, -⟩ := closing_eq (w.stmt s).stmt w
  have hsame := closing_untouched (w.stmt s).stmt w
  rw [prepare, run_bind_ok (EStateM.run_get _), run_bind_ok (closeHandle_closing _ _)]
  suffices h : ∀ w₁, w₁.calls = w.calls → w₁.stmt = w.stmt → w₁.nextHandle = w.nextHandle →
      w.closing (w.stmt s).stmt = w₁ → Untouched w w₁ →
        Renewed lib s w (final ((mysqlStmtInit lib >>= fun stmt =>
        setStmt s ⟨stmt, (w.stmt s).query, (w.stmt s).numArgs⟩ >>=
          fun _ => prepareOn lib s (w.stmt s) stmt).run w₁)) from
    h _ hcalls hstmt hnext rfl hsame
  intro w₁ hcalls hstmt hnext hclosing hsame
  cases hinit : lib.stmtInit (w₁.calls .stmtInit) with
  | some e =>
      rw [run_bind_ok (mysqlStmtInit_none_run hinit), run_bind_ok (setStmt_run _ _ _), prepareOn,
        throwException_run]
      refine ⟨⟨hsame.nextStmt, hsame.credentials, hsame.preparedStatements, hsame.waiter,
        hsame.frees⟩, fun t ht => ?_, ?_, .inl ⟨?_, ?_, hnext, ?_, fun h => ?_⟩⟩
      · simp [World.counted, Function.update_of_ne ht, hstmt]
      · simp
      · rw [← hcalls, hinit]
        exact Option.some_ne_none e
      · simp
      · rw [hclosing]
        rfl
      · rw [hclosing]
        rfl
  | none =>
      rw [run_bind_ok (mysqlStmtInit_some_run hinit), run_bind_ok (setStmt_run _ _ _), prepareOn]
      cases hprepare : lib.stmtPrepare (w₁.calls .stmtPrepare) with
      | some e =>
          rw [run_bind_ok (mysqlStmtPrepare_some_run (by simpa [World.counted] using hprepare)),
            if_pos rfl, throwException_run]
          refine ⟨⟨hsame.nextStmt, hsame.credentials, hsame.preparedStatements, hsame.waiter,
            hsame.frees⟩,
            fun t ht => ?_, ?_, .inr ⟨hcalls ▸ hinit, ?_, ?_, ?_, ?_, fun h hne => ?_⟩⟩
          · simp [World.counted, Function.update_of_ne ht, hstmt]
          · simp [World.counted]
          · simp [World.counted, hnext]
          · simp [World.counted, hnext]
          · simp [World.counted, hnext, hclosing]
          · simp [World.counted, hnext]
          · simp [World.counted, hnext, hclosing, Function.update_of_ne hne]
      | none =>
          rw [run_bind_ok (mysqlStmtPrepare_none_run (by simpa [World.counted] using hprepare)),
            if_neg Bool.false_ne_true, mysqlStmtParamCount,
              run_bind_ok (run_map_ok _ (tick_run _ _)), setStmt_run]
          refine ⟨⟨hsame.nextStmt, hsame.credentials, hsame.preparedStatements, hsame.waiter,
            hsame.frees⟩,
            fun t ht => ?_, ?_, .inr ⟨hcalls ▸ hinit, ?_, ?_, ?_, ?_, fun h hne => ?_⟩⟩
          · simp [World.counted, Function.update_of_ne ht, hstmt]
          · simp [World.counted]
          · simp [World.counted, hnext]
          · simp [World.counted, hnext]
          · simp [World.counted, hnext, hclosing]
          · simp [World.counted, hnext]
          · simp [World.counted, hnext, hclosing, Function.update_of_ne hne]

/-! ### The handlers -/

/-- Everything but the preparations and the executions leaves `I` alone.  `Prepare` keeps it on
the statements `P`, which are at least the cached ones, and the executions `E` keep it. -/
structure Persistent (lib : Lib) (P : StmtId → Prop) (E : Request → Prop) (I : World → Prop) :
    Prop extends Stable soundFns I where
  cached : ∀ w, I w → ∀ entry ∈ w.preparedStatements, P entry.2
  completed : ∀ actions w, I w → I { w with completedActions := actions }
  executes : ∀ r, r.executes = true → E r → ∀ w, I w → I { w with log := w.log ++ [r] }
  opens : ∀ w, I w → I (final ((openConnection lib w.credentials).run w))
  sets : ∀ charset, Preserves I (setCharacterSet lib charset)
  prepare : ∀ s, P s → Preserves I (prepare lib s)

theorem Openable.persistent (h : Openable soundFns I)
    (cached : ∀ w, I w → ∀ entry ∈ w.preparedStatements, P entry.2)
    (completed : ∀ actions w, I w → I { w with completedActions := actions })
    (executes : ∀ r, r.executes = true → E r → ∀ w, I w → I { w with log := w.log ++ [r] })
    (prepare : ∀ s, P s → Preserves I (prepare lib s)) : Persistent lib P E I where
  toStable := h.toStable
  cached := cached
  completed := completed
  executes := executes
  opens w hw := h.openConnection w.credentials w hw
  sets charset := h.setCharacterSet charset
  prepare := prepare

namespace Persistent

theorem and {J : World → Prop} (h : Persistent lib P E I) (h' : Persistent lib P E J) :
    Persistent lib P E fun w => I w ∧ J w where
  toStable := h.toStable.and h'.toStable
  cached w hw := h.cached w hw.1
  completed actions w hw := ⟨h.completed actions w hw.1, h'.completed actions w hw.2⟩
  executes r he hE w hw := ⟨h.executes r he hE w hw.1, h'.executes r he hE w hw.2⟩
  opens w hw := ⟨h.opens w hw.1, h'.opens w hw.2⟩
  sets charset w hw := ⟨h.sets charset w hw.1, h'.sets charset w hw.2⟩
  prepare s hs w hw := ⟨h.prepare s hs w hw.1, h'.prepare s hs w hw.2⟩

theorem mysqlRealQuery (h : Persistent lib P E I) {query : Bytes} (hE : E (.realQuery query)) :
    Preserves I (mysqlRealQuery lib query) :=
  h.toStable.anywhere.mysqlRealQuery (by decide) (Preserves.modify (h.executes _ rfl hE))

theorem attempt (h : Persistent lib P E I) (hE : ∀ handle binds, E (.stmtExecute handle binds))
    (s : StmtId) (binds : List Bind) : Preserves I (attempt lib s binds) :=
  h.toStable.attempt (by decide) (fun _ _ => Preserves.modify (h.executes _ rfl (hE _ _))) s binds

theorem prepareAll (h : Persistent lib P E I) {entries : List (Bytes × StmtId)}
    (he : ∀ entry ∈ entries, P entry.2) : Preserves I (prepareAll lib entries) := by
  induction entries with
  | nil => exact Preserves.pure _
  | cons entry entries ih =>
      exact (h.prepare entry.2 (he entry List.mem_cons_self)).bind fun _ =>
        ih fun entry' he' => he entry' (List.mem_cons_of_mem _ he')

theorem connect (h : Persistent lib P E I) (isReconnect : Bool) :
    Preserves I (connect lib isReconnect) := by
  intro w hw
  rw [Handler.connect, run_bind_ok (EStateM.run_get _)]
  refine Preserves.final_bind (fun failed => ?_) (h.opens w hw)
  refine Preserves.ite (preserves_mysqlError.bind fun _ => Preserves.pure _) ?_
  have hrestore : Preserves I (restoreCharacterSet lib w.charSet) :=
    Preserves.ite (Preserves.pure _) (h.sets _)
  refine hrestore.bind fun error => ?_
  cases error with
  | some error => exact Preserves.pure _
  | none =>
      exact (h.prepareAll (h.cached w hw)).bind fun _ =>
        Preserves.bind (Preserves.modify (h.isPendingCallback _)) fun _ => Preserves.pure _

theorem pushCompleted (h : Persistent lib P E I) (action : DatabaseAction) (results : List Result) :
    Preserves I (pushCompleted action results) := Preserves.modify fun w hw => h.completed _ w hw

theorem executions (h : Persistent lib P E I) (hE : ∀ handle binds, E (.stmtExecute handle binds))
    (hs : P s) (binds : List Bind) (fuel : ℕ) (hasRetried hasRetriedStatement : Bool) :
    Preserves I (executions lib s binds fuel hasRetried hasRetriedStatement) :=
  preserves_executions (h.attempt hE s binds) (h.connect true) (h.prepare s hs) fuel hasRetried
    hasRetriedStatement

theorem runQuery (h : Persistent lib P E I) {query : Bytes} (hE : E (.realQuery query)) (fuel : ℕ)
    (action : DatabaseAction) : Preserves I (runQuery lib fuel action query) := fun _ hw =>
  final_runQuery (h.toStable.mono (by decide)).anywhere (h.pushCompleted action)
    (final_send (h.mysqlRealQuery hE) (fun _ w₁ _ hw₁ => h.connect true w₁ hw₁) fuel hw)

theorem runStatement (h : Persistent lib P E I) (hE : ∀ handle binds, E (.stmtExecute handle binds))
    (hs : P s) (fuel : ℕ) (binds : List Bind) (action : DatabaseAction) :
    Preserves I (runStatement lib fuel s binds action) := fun w hw =>
  final_runStatement (h.toStable.mono (by decide)).anywhere h.frees (fun _ _ _ _ => trivial)
    (h.pushCompleted action) (h.executions hE hs _ fuel false false w hw)

end Persistent

/-- What holds once the statement is constructed, or its constructor has thrown, holds after
`CreateStatement`. -/
theorem final_createStatement (h : Stable soundFns I) {query : Bytes} {w : World}
    (hnew : I (final ((newStatement lib query).run w))) :
    I (final ((createStatement lib query).run w)) := by
  have hwaiter : ∀ f, Preserves I (setWaiter f) :=
    fun f => Preserves.modify fun w hw => h.waiter _ w hw
  rw [createStatement]
  exact Preserves.final_bind (fun _ => hwaiter _)
    (final_catchMyException (fun d => hwaiter _) (Preserves.final_bind (fun s => hwaiter _) hnew))

/-- `CreateStatement` always returns: the waiter gets the statement, or the error with which its
preparation has failed. -/
theorem createStatement_cases (lib : Lib) (query : Bytes) (w : World) :
    ∃ t, (createStatement lib query).run w =
        .ok () { final ((prepare lib w.nextStmt).run (w.allocating query)) with waiter := t } ∧
      ∀ t₀, w.waiter = some t₀ →
        Reprepares lib w 1 ∧ t = some { t₀ with stmt := some w.nextStmt, completed := true } ∨
          ∃ e, FailsWith lib w 1 e ∧
            t = some { t₀ with completed := true, errorNumber := e.errno, errorMsg := e.text } := by
  have hsame : Reprepares lib (w.allocating query) 1 ↔ Reprepares lib w 1 := Iff.rfl
  have hstart : (newStatement lib query).run w =
      (prepare lib w.nextStmt >>= fun _ => pure w.nextStmt).run (w.allocating query) := rfl
  have hwaiter : (final ((prepare lib w.nextStmt).run (w.allocating query))).waiter = w.waiter :=
    (prepare_renewed lib w.nextStmt (w.allocating query)).waiter
  rw [createStatement]
  by_cases hone : Reprepares lib w 1
  · obtain ⟨w', n, hrun, -⟩ := prepare_ok w.nextStmt (hsame.mpr hone)
    rw [run_bind_ok hrun] at hstart
    rw [hrun] at hwaiter ⊢
    rw [run_bind_ok (catchMyException_ok ((run_bind_ok hstart).trans (setWaiter_run _ _))),
      setWaiter_run]
    refine ⟨_, rfl, fun t₀ ht₀ => .inl ⟨hone, ?_⟩⟩
    rw [final_ok, ht₀] at hwaiter
    rw [hwaiter]
    rfl
  · obtain ⟨e, hfails⟩ := exists_failsWith (fun h => hone (hsame.mp h))
    obtain ⟨w', hrun⟩ := prepare_throws w.nextStmt hfails
    rw [run_bind_error hrun] at hstart
    rw [hrun] at hwaiter ⊢
    rw [run_bind_ok ((catchMyException_caught (run_bind_error hstart)).trans (setWaiter_run _ _)),
      setWaiter_run]
    refine ⟨_, rfl, fun t₀ ht₀ => .inr ⟨e, hfails, ?_⟩⟩
    rw [final_error, ht₀] at hwaiter
    rw [hwaiter]
    rfl

/-- The waiter gets the statement exactly when it has been prepared. -/
theorem createStatement_run (lib : Lib) (query : Bytes) (w : World) :
    ∃ t, (createStatement lib query).run w =
        .ok () { final ((prepare lib w.nextStmt).run (w.allocating query)) with waiter := t } ∧
      ∀ t₀, w.waiter = some t₀ → t.bind (·.stmt) =
        if Reprepares lib w 1 then some w.nextStmt else t₀.stmt := by
  obtain ⟨t, hrun, hwaiter⟩ := createStatement_cases lib query w
  refine ⟨t, hrun, fun t₀ ht₀ => ?_⟩
  obtain ⟨hone, rfl⟩ | ⟨e, hfails, rfl⟩ := hwaiter t₀ ht₀
  · rw [if_pos hone]
    rfl
  · rw [if_neg hfails.not_reprepares]
    rfl

end Tmysql4.Handler
