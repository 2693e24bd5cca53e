import Tmysql4.Returns

/-! # The attempts of a request

The moves of a retry loop are the attempts, the connection attempts and the preparations.  `Shape`
says in which order a loop makes them, and `Bounded` what follows: how many there are, and that a
request is repeated only directly after a recovery.  `retries_bounded` is the result for
`RunQuery` and `Execute`. -/

namespace Tmysql4.Handler

open Imperative Transition

variable {lib : Lib} {w w' : World} {s : StmtId} {binds : List Bind} {query : Bytes} {d : Diag}

/-! ### Moves -/

/-- An attempt with its error, a connection attempt and whether it succeeds, and a preparation. -/
inductive Move where
  | attempt (d : Diag)
  | connect (ok : Bool)
  | prepare
deriving DecidableEq

def Move.isAttempt : Move → Bool
  | .attempt _ => true
  | _ => false

def Move.isConnect : Move → Bool
  | .connect _ => true
  | _ => false

/-- The error of an attempt. -/
def Move.error? : Move → Option Diag
  | .attempt d => some d
  | _ => none

/-- The state a program returns in, with the value `a`. -/
def runTo {α : Type} [DecidableEq α] (x : Io α) (a : α) (w : World) : Option World :=
  match x.run w with
  | .ok b w' => if b = a then some w' else none
  | .error _ _ => none

theorem runTo_eq_some_iff {α : Type} [DecidableEq α] {x : Io α} {a : α} :
    runTo x a w = some w' ↔ x.run w = .ok a w' := by
  unfold runTo
  cases x.run w with
  | error e v => simp
  | ok b v =>
      by_cases hb : b = a
      · simp [hb]
      · simp [hb]

/-- A move of a loop whose attempt is `once`; a loop without a statement prepares nothing. -/
def move (lib : Lib) (once : Io Diag) (s : Option StmtId) (w : World) : Move → Option World
  | .attempt d => runTo once d w
  | .connect ok => runTo (Option.isNone <$> connect lib true) ok w
  | .prepare => s.bind fun s => runTo (prepare lib s) () w

theorem move_connect {once : Io Diag} {s : Option StmtId} {err : Option Bytes}
    (h : (connect lib true).run w = .ok err w') :
    move lib once s w (.connect err.isNone) = some w' :=
  runTo_eq_some_iff.mpr (run_map_ok _ h)

theorem move_prepare {once : Io Diag} (h : (prepare lib s).run w = .ok () w') :
    move lib once (some s) w .prepare = some w' := runTo_eq_some_iff.mpr h

/-! ### The shape of a loop -/

/-- The moves of a loop that may still reconnect `c` times
and prepare `p` times, with the last error. -/
inductive Shape : ℕ → ℕ → List Move → Diag → Prop where
  | last {c p : ℕ} (d : Diag) : Shape c p [.attempt d] d
  | refused {c p : ℕ} {d : Diag} (hlost : lostConnection d.errno = true) :
      Shape (c + 1) p [.attempt d, .connect false] d
  | reconnect {c p : ℕ} {d d' : Diag} {ms : List Move} (hlost : lostConnection d.errno = true)
      (h : Shape c p ms d') : Shape (c + 1) p (.attempt d :: .connect true :: ms) d'
  | reprepare {c p : ℕ} {d d' : Diag} {ms : List Move} (hunknown : d.errno = 1243)
      (h : Shape c p ms d') : Shape c (p + 1) (.attempt d :: .prepare :: ms) d'

/-- The moves `ms` directly before an attempt: none, or an
attempt and the recovery that its error asks for. -/
def Recovered (ms : List Move) : Prop :=
  ms = [] ∨ ∃ pre d, (ms = pre ++ [.attempt d, .connect true] ∧ lostConnection d.errno = true) ∨
    (ms = pre ++ [.attempt d, .prepare] ∧ d.errno = 1243)

/-- The bounds on the moves of a loop that ends with the error `d`. -/
structure Bounded (attempts prepares : ℕ) (ms : List Move) (d : Diag) : Prop where
  attempts : ms.countP Move.isAttempt ≤ attempts
  connects : ms.countP Move.isConnect ≤ 1
  prepares : ms.count .prepare ≤ prepares
  repeats : ∀ pre d' post, ms = pre ++ .attempt d' :: post → Recovered pre
  last : (ms.filterMap Move.error?).getLast? = some d

theorem Shape.counts {c p : ℕ} {ms : List Move} (h : Shape c p ms d) :
    ms.countP Move.isAttempt ≤ c + p + 1 ∧ ms.countP Move.isConnect ≤ c ∧
      ms.count .prepare ≤ p := by
  induction h with
  | last d => simp [List.countP_cons, Move.isAttempt, Move.isConnect]
  | refused hlost => simp [List.countP_cons, Move.isAttempt, Move.isConnect]
  | reconnect hlost _ ih =>
      simp [List.countP_cons, Move.isAttempt, Move.isConnect] at ih ⊢
      omega
  | reprepare hunknown _ ih =>
      simp [List.countP_cons, Move.isAttempt, Move.isConnect] at ih ⊢
      omega

theorem Shape.last_error {c p : ℕ} {ms : List Move} (h : Shape c p ms d) :
    (ms.filterMap Move.error?).getLast? = some d := by
  induction h with
  | last d => rfl
  | refused hlost => rfl
  | @reconnect c p d d' ms hlost _ ih =>
      have herrors : (Move.attempt d :: .connect true :: ms).filterMap Move.error? =
          d :: ms.filterMap Move.error? := rfl
      rw [herrors, List.getLast?_cons, ih]
      rfl
  | @reprepare c p d d' ms hunknown _ ih =>
      have herrors : (Move.attempt d :: .prepare :: ms).filterMap Move.error? =
          d :: ms.filterMap Move.error? := rfl
      rw [herrors, List.getLast?_cons, ih]
      rfl

/-- Two more moves before those of a loop. -/
theorem recovered_cons {a b : Move} {ms : List Move} (hab : Recovered [a, b])
    (h : ∀ pre d' post, ms = pre ++ .attempt d' :: post → Recovered pre)
    (hb : b.isAttempt = false) (pre : List Move) (d' : Diag) (post : List Move)
    (hms : a :: b :: ms = pre ++ .attempt d' :: post) : Recovered pre := by
  cases pre with
  | nil => exact Or.inl rfl
  | cons m pre =>
      rw [List.cons_append, List.cons.injEq] at hms
      obtain ⟨rfl, hms⟩ := hms
      cases pre with
      | nil =>
          rw [List.nil_append, List.cons.injEq] at hms
          rw [hms.1] at hb
          cases hb
      | cons m pre =>
          rw [List.cons_append, List.cons.injEq] at hms
          obtain ⟨rfl, hms⟩ := hms
          obtain rfl | ⟨pre', d, hpre⟩ := h pre d' post hms
          · exact hab
          · refine Or.inr ⟨a :: b :: pre', d, ?_⟩
            obtain ⟨rfl, hlost⟩ | ⟨rfl, hunknown⟩ := hpre
            · exact Or.inl ⟨rfl, hlost⟩
            · exact Or.inr ⟨rfl, hunknown⟩

theorem Shape.repeats {c p : ℕ} {ms : List Move} (h : Shape c p ms d) :
    ∀ pre d' post, ms = pre ++ .attempt d' :: post → Recovered pre := by
  induction h with
  | last d =>
      intro pre d' post hms
      cases pre with
      | nil => exact Or.inl rfl
      | cons m pre => simp at hms
  | refused hlost =>
      intro pre d' post hms
      cases pre with
      | nil => exact Or.inl rfl
      | cons m pre =>
          cases pre with
          | nil => simp at hms
          | cons m' pre => simp at hms
  | @reconnect c p d d' ms hlost _ ih =>
      exact recovered_cons (Or.inr ⟨[], d, Or.inl ⟨rfl, hlost⟩⟩) ih rfl
  | @reprepare c p d d' ms hunknown _ ih =>
      exact recovered_cons (Or.inr ⟨[], d, Or.inr ⟨rfl, hunknown⟩⟩) ih rfl

theorem Shape.bounded {p : ℕ} {ms : List Move} (h : Shape 1 p ms d) : Bounded (p + 2) p ms d where
  attempts := by
    have := h.counts.1
    omega
  connects := h.counts.2.1
  prepares := h.counts.2.2
  repeats := h.repeats
  last := h.last_error

/-! ### The moves of the loops -/

theorem exec_attempt {once : Io Diag} {o : Option StmtId} {ms : List Move} {w₁ : World}
    (hrun : once.run w = .ok d w₁) (hms : exec (move lib once o) w₁ ms = some w') :
    exec (move lib once o) w (.attempt d :: ms) = some w' :=
  exec_cons_iff.mpr ⟨w₁, runTo_eq_some_iff.mpr hrun, hms⟩

/-- A send; the result is `errorno` and `qErr`. -/
def sendOnce (lib : Lib) (query : Bytes) : Io Diag := do
  let failed ← mysqlRealQuery lib query
  if failed then mysqlError else pure .clear

/-- The sends of `RunQuery` are moves of the shape that its flag allows. -/
theorem send_moves {fuel : ℕ} {hasRetried : Bool}
    (h : (send lib query fuel hasRetried).run w = .ok d w') :
    ∃ ms, exec (move lib (sendOnce lib query) none) w ms = some w' ∧
      Shape (!hasRetried).toNat 0 ms d := by
  induction fuel generalizing w hasRetried with
  | zero => cases h
  | succ fuel ih =>
      rw [send, run_bind_eq_ok_iff] at h
      obtain ⟨failed, w₁, hrun, hrest⟩ := h
      cases failed with
      | false =>
          cases hrest
          have honce : (sendOnce lib query).run w = .ok .clear w' := run_bind_ok hrun
          exact ⟨_, exec_attempt honce rfl, .last _⟩
      | true =>
          rw [if_pos rfl, run_bind_ok (mysqlError_run _)] at hrest
          have honce : (sendOnce lib query).run w = .ok w₁.connError w₁ := run_bind_ok hrun
          split at hrest
          · rename_i hlost
            obtain ⟨hfresh, hlost⟩ := Bool.and_eq_true_iff.mp hlost
            obtain rfl : hasRetried = false := by simpa using hfresh
            obtain ⟨err, w₂, hconnect, hrest⟩ := run_bind_eq_ok_iff.mp hrest
            cases err with
            | none =>
                obtain ⟨ms, hms, hshape⟩ := ih hrest
                exact ⟨_, exec_attempt honce (exec_cons_iff.mpr ⟨w₂, move_connect hconnect, hms⟩),
                  .reconnect hlost hshape⟩
            | some err =>
                cases hrest
                exact ⟨_, exec_attempt honce (exec_cons_iff.mpr ⟨_, move_connect hconnect, rfl⟩),
                  .refused hlost⟩
          · cases hrest
            exact ⟨_, exec_attempt honce rfl, .last _⟩

/-- The executions of `Execute` are moves of the shape that its two flags allow. -/
theorem executions_moves {fuel : ℕ} {hasRetried hasRetriedStatement : Bool}
    (h : (executions lib s binds fuel hasRetried hasRetriedStatement).run w = .ok d w') :
    ∃ ms, exec (move lib (attempt lib s binds) (some s)) w ms = some w' ∧
      Shape (!hasRetried).toNat (!hasRetriedStatement).toNat ms d := by
  induction fuel generalizing w hasRetried hasRetriedStatement with
  | zero => cases h
  | succ fuel ih =>
      rw [executions, run_bind_eq_ok_iff] at h
      obtain ⟨d₁, w₁, hattempt, hafter⟩ := h
      obtain ⟨err, w₂, hconnect, hrest⟩ := run_bind_eq_ok_iff.mp hafter
      by_cases hlost : (!hasRetried && lostConnection d₁.errno) = true
      · rw [reconnectIf, if_pos hlost] at hconnect
        obtain ⟨hfresh, hlost⟩ := Bool.and_eq_true_iff.mp hlost
        obtain rfl : hasRetried = false := by simpa using hfresh
        cases err with
        | none =>
            obtain ⟨ms, hms, hshape⟩ := ih hrest
            exact ⟨_, exec_attempt hattempt (exec_cons_iff.mpr ⟨w₂, move_connect hconnect, hms⟩),
              .reconnect hlost hshape⟩
        | some err =>
            simp only at hrest
            split at hrest
            · rename_i hunknown
              rw [of_decide_eq_true (Bool.and_eq_true_iff.mp hunknown).2] at hlost
              cases hlost
            · cases hrest
              exact ⟨_, exec_attempt hattempt (exec_cons_iff.mpr ⟨_, move_connect hconnect, rfl⟩),
                .refused hlost⟩
      · rw [reconnectIf, if_neg hlost] at hconnect
        cases hconnect
        simp only at hrest
        split at hrest
        · rename_i hunknown
          obtain ⟨hfresh, hunknown⟩ := Bool.and_eq_true_iff.mp hunknown
          obtain rfl : hasRetriedStatement = false := by simpa using hfresh
          have herrno : d₁.errno = 1243 := of_decide_eq_true hunknown
          have hno : lostConnection d₁.errno = false := by
            rw [herrno]
            rfl
          obtain ⟨_, w₃, hprepare, hagain⟩ := run_bind_eq_ok_iff.mp hrest
          rw [hno, Bool.or_false] at hagain
          obtain ⟨ms, hms, hshape⟩ := ih hagain
          exact ⟨_, exec_attempt hattempt (exec_cons_iff.mpr ⟨w₃, move_prepare hprepare, hms⟩),
            .reprepare herrno hshape⟩
        · cases hrest
          exact ⟨_, exec_attempt hattempt rfl, .last _⟩

/-- The parameters that an execution sends are the caller's,
bound to the handle that `m_stmt` then is. -/
def BindsSent (lib : Lib) (s : StmtId) (binds : List Bind) (w : World) : Move → Prop
  | .attempt d =>
      ∃ h w', (w.stmt s).stmt = some h ∧
        move lib (attempt lib s binds) (some s) w (.attempt d) = some w' ∧
        w'.log = w.log ++ [.stmtExecute h binds]
  | _ => True

theorem attempt_log (h : (attempt lib s binds).run w = .ok d w') :
    ∃ handle, (w.stmt s).stmt = some handle ∧ w'.log = w.log ++ [.stmtExecute handle binds] := by
  rw [attempt, run_bind_eq_ok_iff] at h
  obtain ⟨handle, w₁, hhandle, hrest⟩ := h
  obtain ⟨rfl, hs⟩ := stmtHandle_eq_ok hhandle
  refine ⟨handle, hs, ?_⟩
  rw [run_bind_ok (mysqlStmtBindParam_run handle binds w₁),
    run_bind_ok (mysqlStmtExecute_run lib handle _)] at hrest
  split at hrest
  · cases hrest
    simp
  · cases hrest
    simp

theorem bindsSent_of_move (v : World) (m : Move) (v' : World)
    (hm : move lib (attempt lib s binds) (some s) v m = some v') : BindsSent lib s binds v m := by
  cases m with
  | attempt d =>
      obtain ⟨h, hs, hlog⟩ := attempt_log (runTo_eq_some_iff.mp hm)
      exact ⟨h, v', hs, hm, hlog⟩
  | connect ok => trivial
  | prepare => trivial

/-! ### The results of a request -/

variable {action : DatabaseAction}

/-- The runs of a handler push the action once, with the results of the loop `body` from `v` on if
the last attempt succeeded, and with one failing result for its error `d` if it failed; after a
failure the handler returns. -/
structure Reports (run : ℕ → Io Unit) (body : Io (Result × Bool)) (action : DatabaseAction)
    (d : Diag) (w v : World) : Prop where
  returns : d.errno ≠ 0 → ∃ fuel w', (run fuel).run w = .ok () w'
  pushes : ∀ fuel w', (run fuel).run w = .ok () w' → ∃ results v',
    w'.completedActions = w.completedActions ++ [(action, results)] ∧ Reported body d v results v'

theorem runQuery_reports (action : DatabaseAction) {query : Bytes} {v : World}
    (hprep : Resends lib w → Reprepares lib w w.preparedStatements.length)
    (hsend : ∀ fuel, 2 ≤ fuel →
      (send lib query fuel false).run w = .ok (diagOf (lastSend lib w)) v) :
    Reports (fun fuel => runQuery lib fuel action query) (nextQueryResult lib) action
      (diagOf (lastSend lib w)) w (v.enter (diagOf (lastSend lib w)).text) where
  returns hd := by
    have hfailed : lastSend lib w ≠ none := fun hlast => hd (diagOf_errno_eq_zero_iff.mpr hlast)
    exact runQuery_returns action query ⟨hprep, fun hlast => absurd hlast hfailed⟩
  pushes fuel w' h := by
    obtain ⟨-, w₁, results, w₂, hrun, -, -, hpushed, hreported⟩ := runQuery_sent h
    have hsame := hsend (fuel + 2) (Nat.le_add_left 2 fuel)
    rw [send_mono (Nat.le_add_right fuel 2) hrun] at hsame
    cases hsame
    exact ⟨results, w₂, hpushed, hreported⟩

theorem runStatement_reports {s : StmtId} {binds : List Bind} (action : DatabaseAction)
    (hs : (w.stmt s).stmt ≠ none) (hrec : Recovers lib w) {v : World} {handle : HandleId}
    (hhandle : (v.stmt s).stmt = some handle) (hexecutions : ∀ fuel, 3 ≤ fuel →
      (executions lib s (retagBinds binds (w.stmt s).numArgs) fuel false false).run w =
      .ok (diagOf (lastExecution lib w)) v) :
    Reports (fun fuel => runStatement lib fuel s binds action)
      (nextStatementResult lib handle) action (diagOf (lastExecution lib w)) w v where
  returns hd := by
    have hfailed : lastExecution lib w ≠ none :=
      fun hlast => hd (diagOf_errno_eq_zero_iff.mpr hlast)
    exact runStatement_returns binds action ⟨hs, fun _ hlast => absurd hlast hfailed⟩
  pushes fuel w' h := by
    obtain ⟨-, results, -, hpushed, hreported⟩ := runStatement_results h
    obtain ⟨handle', v', w₂, -, hrun, hhandle', hresults⟩ := hreported hrec
    have hsame := hexecutions (fuel + 3) (Nat.le_add_left 3 fuel)
    rw [executions_mono (Nat.le_add_right fuel 3) hrun (by simp)] at hsame
    cases hsame
    rw [hhandle] at hhandle'
    cases hhandle'
    exact ⟨results, w₂, hpushed, hresults⟩

/-! ### Both requests -/

/-- **Retries are bounded and report the last attempt.** When no preparation throws, the loop of
`RunQuery` ends after at most two sends and one connection attempt, and that of `Execute` after at
most three executions, one connection attempt and one preparation. -/
theorem retries_bounded (lib : Lib) (w : World) (action : DatabaseAction) :
    (∀ query, (Resends lib w → Reprepares lib w w.preparedStatements.length) → ∃ ms d w',
      (∀ fuel, 2 ≤ fuel → (send lib query fuel false).run w = .ok d w') ∧
      exec (move lib (sendOnce lib query) none) w ms = some w' ∧ Bounded 2 0 ms d ∧
      Reports (fun fuel => runQuery lib fuel action query) (nextQueryResult lib) action d w
        (w'.enter d.text)) ∧
    (∀ s binds, (w.stmt s).stmt ≠ none → Recovers lib w → ∃ ms d w' handle,
      (∀ fuel, 3 ≤ fuel →
        (executions lib s (retagBinds binds (w.stmt s).numArgs) fuel false false).run w =
          .ok d w') ∧
      exec (move lib (attempt lib s (retagBinds binds (w.stmt s).numArgs)) (some s)) w ms =
        some w' ∧
      Bounded 3 1 ms d ∧
      Along (move lib (attempt lib s (retagBinds binds (w.stmt s).numArgs)) (some s))
        (BindsSent lib s (retagBinds binds (w.stmt s).numArgs)) w ms ∧
          (w'.stmt s).stmt = some handle ∧
      Reports (fun fuel => runStatement lib fuel s binds action) (nextStatementResult lib handle)
        action d w w') := by
  constructor
  · intro query hprep
    obtain ⟨w', hrun, -⟩ := send_spec query 0 hprep
    obtain ⟨ms, hms, hshape⟩ := send_moves hrun
    have hsend : ∀ fuel, 2 ≤ fuel → (send lib query fuel false).run w =
        .ok (diagOf (lastSend lib w)) w' :=
      fun fuel hfuel => send_mono hfuel hrun
    exact ⟨ms, _, w', hsend, hms, hshape.bounded, runQuery_reports action hprep hsend⟩
  · intro s binds hs hrec
    obtain ⟨-, w', hrun, -, handle, hhandle, -⟩ | ⟨e, hfails, -⟩ :=
      executions_run lib (retagBinds binds (w.stmt s).numArgs) 0 hs
    · obtain ⟨ms, hms, hshape⟩ := executions_moves hrun
      have hexecutions : ∀ fuel, 3 ≤ fuel →
          (executions lib s (retagBinds binds (w.stmt s).numArgs) fuel false false).run w =
          .ok (diagOf (lastExecution lib w)) w' :=
            fun fuel hfuel => executions_mono hfuel hrun (by simp)
      exact ⟨ms, _, w', handle, hexecutions, hms, hshape.bounded, .of_exec bindsSent_of_move hms,
        hhandle, runStatement_reports action hs hrec hhandle hexecutions⟩
    · exact absurd hrec hfails.not_reprepares

/-- A statement with a handle, on an open connection. -/
def World.withStatement : World :=
  { World.opened ⟨[], [], [], [], 3306, [], 0⟩ with
    stmt := fun _ => ⟨some 0, [97], 0⟩
    nextHandle := 1
    nextStmt := 1 }

/-- The connection is lost, and after the reconnect the statement is unknown. -/
def Lib.lostThenUnknown : Lib :=
  { Lib.calm with
    realQuery := fun k => if k = 0 then some .serverLost else none
    stmtExecute := fun k =>
      if k = 0 then some .serverLost
      else if k = 1 then some .unknownStatement
      else none }

theorem retries_bounded_lostThenUnknown :
    (∃ ms d w', (∀ fuel, 2 ≤ fuel →
      (send .lostThenUnknown [97] fuel false).run .withStatement = .ok d w') ∧
      exec (move .lostThenUnknown (sendOnce .lostThenUnknown [97]) none) .withStatement ms =
        some w' ∧
      Bounded 2 0 ms d ∧ Reports (fun fuel => runQuery .lostThenUnknown fuel ⟨0, true⟩ [97])
        (nextQueryResult .lostThenUnknown) ⟨0, true⟩ d .withStatement (w'.enter d.text)) ∧
    ∃ ms d w' handle, (∀ fuel, 3 ≤ fuel →
        (executions .lostThenUnknown 0 (retagBinds [] 0) fuel false false).run .withStatement =
          .ok d w') ∧
      exec (move .lostThenUnknown (attempt .lostThenUnknown 0 (retagBinds [] 0)) (some 0))
        .withStatement ms = some w' ∧
      Bounded 3 1 ms d ∧
      Along (move .lostThenUnknown (attempt .lostThenUnknown 0 (retagBinds [] 0)) (some 0))
        (BindsSent .lostThenUnknown 0 (retagBinds [] 0)) .withStatement ms ∧
          (w'.stmt 0).stmt = some handle ∧
      Reports (fun fuel => runStatement .lostThenUnknown fuel 0 [] ⟨0, true⟩)
        (nextStatementResult .lostThenUnknown handle) ⟨0, true⟩ d .withStatement w' := by
  have hrec : Recovers .lostThenUnknown .withStatement := fun i _ => ⟨rfl, rfl⟩
  obtain ⟨hquery, hstatement⟩ := retries_bounded .lostThenUnknown .withStatement ⟨0, true⟩
  exact ⟨hquery [97] fun _ => reprepares_zero, hstatement 0 [] (Option.some_ne_none _) hrec⟩

end Tmysql4.Handler
