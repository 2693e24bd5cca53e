import Mathlib.Algebra.GroupWithZero.Nat
import Tmysql4.Attempts

/-! # The executions of a prepared statement

`executions_spec` describes the retry loop of `PStatement::Execute`: the recoveries between the
executions are those that `recoveries` reads off the outcomes, and the loop ends with the outcome
of the execution after the last of them, or with the exception of a preparation that failed. -/

namespace Tmysql4.Handler

open Imperative

variable {lib : Lib} {w w' w'' w₀ : World} {s : StmtId} {h : HandleId} {binds : List Bind}
  {fns : List Fn}

/-- What `Execute` does between two executions. -/
inductive Recovery where
  | reconnect
  | reprepare
deriving DecidableEq

/-- The recoveries, from the error codes of the executions and whether a connection attempt
succeeds; each flag allows one, and `k` bounds their number. -/
def recoveries (connects : Bool) : ℕ → (ℕ → ℕ) → Bool → Bool → List Recovery
  | 0, _, _, _ => []
  | k + 1, errno, hasRetried, hasRetriedStatement =>
      if !hasRetried && lostConnection (errno 0) && connects then
        .reconnect :: recoveries connects k (fun i => errno (i + 1)) true hasRetriedStatement
      else if !hasRetriedStatement && errno 0 = 1243 then
        .reprepare :: recoveries connects k (fun i => errno (i + 1)) hasRetried true
      else []

/-- The number of preparations, with `n` cached statements. -/
def preparations (n : ℕ) (plan : List Recovery) : ℕ :=
  (plan.map fun
    | .reconnect => n
    | .reprepare => 1).sum

/-- The outcome of execution `i` of the statement run that is about to start. -/
def executeOutcome (lib : Lib) (w : World) (i : ℕ) : Option LibError :=
  lib.stmtExecute (w.calls .stmtExecute + i)

def executeErrno (lib : Lib) (w : World) (i : ℕ) : ℕ := (diagOf (executeOutcome lib w i)).errno

/-! ### One execution -/

theorem frame_attempt (hf : .stmtExecute ∈ fns) (s : StmtId) (binds : List Bind) :
    Preserves (Frame fns w₀) (attempt lib s binds) :=
      stable_frame.attempt hf (fun _ _ => frame_record _) s binds

/-- One execution on the handle `h`. -/
structure Attempted (lib : Lib) (h : HandleId) (w w' : World) : Prop where
  frame : Frame [.stmtExecute] w w'
  stmt : w'.stmt = w.stmt
  error : (w'.handle h).error = diagOf (executeOutcome lib w 0)
  outcome : ∀ i, executeOutcome lib w' i = executeOutcome lib w (i + 1)

theorem attempt_run (lib : Lib) (binds : List Bind) (hs : (w.stmt s).stmt = some h) :
    ∃ w', (attempt lib s binds).run w = .ok (diagOf (executeOutcome lib w 0)) w' ∧
      Attempted lib h w w' := by
  have hrun : ∃ w', (attempt lib s binds).run w = .ok (diagOf (executeOutcome lib w 0)) w' ∧
      w'.stmt = w.stmt ∧ (w'.handle h).error = diagOf (executeOutcome lib w 0) ∧
      w'.calls .stmtExecute = w.calls .stmtExecute + 1 := by
    rw [attempt, run_bind_ok (stmtHandle_run hs), run_bind_ok (mysqlStmtBindParam_run h binds w),
      run_bind_ok (mysqlStmtExecute_run lib h _)]
    cases ho : executeOutcome lib w 0 with
    | none =>
        rw [executeOutcome, Nat.add_zero] at ho
        simp only [ho]
        exact ⟨_, rfl, rfl, by simp, by simp⟩
    | some e =>
        rw [executeOutcome, Nat.add_zero] at ho
        simp only [ho, Option.isSome_some, if_true, mysqlStmtError_run, Function.update_self]
        exact ⟨_, rfl, rfl, by simp, by simp⟩
  obtain ⟨w', hok, hstmt, herror, hcalls⟩ := hrun
  refine ⟨w', hok, (frame_attempt (by decide) s binds).ok hok (.refl _ _), hstmt, herror,
    fun i => ?_⟩
  rw [executeOutcome, executeOutcome, hcalls, Nat.add_assoc, Nat.add_comm 1 i]

/-! ### The loop -/

/-- An execution that is not followed by a recovery ends the loop. -/
theorem executions_last (fuel : ℕ) {hasRetried hasRetriedStatement : Bool}
    (hs : (w.stmt s).stmt = some h)
    (hr : hasRetried = true ∨ lostConnection (executeErrno lib w 0) = false ∨ ¬ Connects lib w)
    (hrs : hasRetriedStatement = true ∨ executeErrno lib w 0 ≠ 1243) :
    ∃ w', (executions lib s binds (fuel + 1) hasRetried hasRetriedStatement).run w =
        .ok (diagOf (executeOutcome lib w 0)) w' ∧
      Frame (.stmtExecute :: connectFns) w w' ∧ (w'.stmt s).stmt = some h ∧
      (w'.handle h).error = diagOf (executeOutcome lib w 0) := by
  obtain ⟨w₁, hrun, hatt⟩ := attempt_run lib binds hs
  rw [executions, run_bind_ok hrun]
  have hquit : ¬ (!hasRetriedStatement && decide ((diagOf (executeOutcome lib w 0)).errno = 1243)) =
      true := by
    rintro hq
    obtain ⟨h₁, h₂⟩ := Bool.and_eq_true_iff.mp hq
    obtain h | h := hrs
    · rw [h] at h₁
      cases h₁
    · exact h (of_decide_eq_true h₂)
  by_cases hlost : (!hasRetried && lostConnection (diagOf (executeOutcome lib w 0)).errno) = true
  · obtain ⟨hfresh, hlost'⟩ := Bool.and_eq_true_iff.mp hlost
    have hc : ¬ Connects lib w₁ := by
      rw [connects_congr hatt.frame (by decide) (by decide) (by decide)]
      obtain h | h | h := hr
      · rw [h] at hfresh
        cases hfresh
      · rw [executeErrno, hlost'] at h
        cases h
      · exact h
    obtain ⟨error, w₂, hconnect, hopened⟩ := connect_refused true hc
    rw [reconnectIf, if_pos hlost, run_bind_ok hconnect, if_neg hquit]
    refine ⟨w₂, rfl, (hatt.frame.mono (by decide)).trans (hopened.frame.mono (by decide)), ?_, ?_⟩
    · rw [hopened.stmt, hatt.stmt, hs]
    · rw [hopened.handle, hatt.error]
  · rw [reconnectIf, if_neg hlost, run_bind_ok (EStateM.run_pure _ _), if_neg hquit]
    exact ⟨w₁, rfl, hatt.frame.mono (by decide), by rw [hatt.stmt, hs], hatt.error⟩

/-- An execution that lost the connection hands over to the reconnect. -/
theorem executions_reconnect (binds : List Bind) (fuel : ℕ) (hasRetriedStatement : Bool)
    (hs : (w.stmt s).stmt = some h) (hlost : lostConnection (executeErrno lib w 0) = true) :
    ∃ w₁, Attempted lib h w w₁ ∧
      (executions lib s binds (fuel + 1) false hasRetriedStatement).run w =
        (connect lib true >>= fun err =>
          match err with
          | none => executions lib s binds fuel true hasRetriedStatement
          | some _ =>
              if !hasRetriedStatement && (diagOf (executeOutcome lib w 0)).errno = 1243 then do
                prepare lib s
                executions lib s binds fuel true true
              else pure (diagOf (executeOutcome lib w 0))).run w₁ := by
  obtain ⟨w₁, hrun, hatt⟩ := attempt_run lib binds hs
  refine ⟨w₁, hatt, ?_⟩
  rw [executeErrno] at hlost
  rw [executions, run_bind_ok hrun, hlost]
  rfl

/-- An execution that found no statement hands over to the preparation. -/
theorem executions_reprepare (binds : List Bind) (fuel : ℕ) (hasRetried : Bool)
    (hs : (w.stmt s).stmt = some h) (hunknown : executeErrno lib w 0 = 1243) :
    ∃ w₁, Attempted lib h w w₁ ∧
      (executions lib s binds (fuel + 1) hasRetried false).run w =
        (prepare lib s >>= fun _ => executions lib s binds fuel hasRetried true).run w₁ := by
  obtain ⟨w₁, hrun, hatt⟩ := attempt_run lib binds hs
  refine ⟨w₁, hatt, ?_⟩
  rw [executeErrno] at hunknown
  have hlost : lostConnection 1243 = false := rfl
  rw [executions, run_bind_ok hrun, hunknown, hlost, Bool.and_false, Bool.or_false]
  rfl

theorem Attempted.shift (hatt : Attempted lib h w w') (hf : Frame fns w' w'')
    (hn : .stmtExecute ∉ fns) (i : ℕ) : executeOutcome lib w'' i =
    executeOutcome lib w (i + 1) := by
  rw [← hatt.outcome i, executeOutcome, executeOutcome, hf.calls .stmtExecute hn]

theorem executeErrno_shift (h : ∀ i, executeOutcome lib w' i = executeOutcome lib w (i + 1)) :
    executeErrno lib w' = fun i => executeErrno lib w (i + 1) := by
  funext i
  rw [executeErrno, executeErrno, h]

def executeFns : List Fn := .stmtExecute :: connectFns

/-- The loop has ended with the outcome of execution `i`, on the handle that `m_stmt` is then. -/
def Executed (lib : Lib) (s : StmtId) (i : ℕ) (w w' : World) : Prop :=
  Frame executeFns w w' ∧
    ∃ h, (w'.stmt s).stmt = some h ∧ (w'.handle h).error = diagOf (executeOutcome lib w i)

/-- How the loop ends when `m` preparations lie before execution `i`, the last one. -/
def Ends (lib : Lib) (s : StmtId) (w : World) (m i : ℕ)
    (r : EStateM.Result Exn World Diag) : Prop :=
  (Reprepares lib w m ∧ ∃ w', r = .ok (diagOf (executeOutcome lib w i)) w' ∧
    Executed lib s i w w') ∨
    ∃ e, FailsWith lib w m e ∧ ∃ w', r = .error (.myException e.errno e.text) w'

/-- The loop from the execution after a recovery on. -/
theorem Ends.after {m n i : ℕ} {r : EStateM.Result Exn World Diag}
    (hprep : Prepared (.stmtExecute :: connectFns) m w w') (hm : Reprepares lib w m)
    (hshift : ∀ i, executeOutcome lib w' i = executeOutcome lib w (i + 1))
    (hr : Ends lib s w' n i r) : Ends lib s w (m + n) (i + 1) r := by
  obtain ⟨hn, w₂, hok, hframe, h, hs, herror⟩ | ⟨e, hn, hthrow⟩ := hr
  · rw [hshift] at hok herror
    exact Or.inl ⟨hprep.reprepares_iff.mpr ⟨hm, hn⟩, w₂, hok, hprep.frame.trans hframe, h,
      hs, herror⟩
  · exact Or.inr ⟨e, hprep.failsWith hm hn, hthrow⟩

theorem Attempted.prepared {m : ℕ} (hatt : Attempted lib h w w') (hprep : Prepared fns m w' w'')
    (hsub : fns ⊆ connectFns) : Prepared (.stmtExecute :: connectFns) m w w'' where
  frame := (hatt.frame.mono (by decide)).trans
    (hprep.frame.mono fun _ hf => List.mem_cons_of_mem _ (hsub hf))
  stmtInit := by rw [hprep.stmtInit, hatt.frame.calls .stmtInit (by decide)]
  stmtPrepare := by rw [hprep.stmtPrepare, hatt.frame.calls .stmtPrepare (by decide)]

theorem Attempted.reprepares_iff {m : ℕ} (hatt : Attempted lib h w w') :
    Reprepares lib w' m ↔ Reprepares lib w m :=
  reprepares_congr hatt.frame (by decide) (by decide)

theorem Attempted.failsWith_iff {m : ℕ} {e : LibError} (hatt : Attempted lib h w w') :
    FailsWith lib w' m e ↔ FailsWith lib w m e :=
  failsWith_congr hatt.frame (by decide) (by decide)

theorem ends_last (fuel : ℕ) {hasRetried hasRetriedStatement : Bool} (hs : (w.stmt s).stmt = some h)
    (hr : hasRetried = true ∨ lostConnection (executeErrno lib w 0) = false ∨ ¬ Connects lib w)
    (hrs : hasRetriedStatement = true ∨ executeErrno lib w 0 ≠ 1243) :
    Ends lib s w 0 0 ((executions lib s binds (fuel + 1) hasRetried hasRetriedStatement).run
      w) := by
  obtain ⟨w', hok, hframe, hh, herror⟩ := executions_last fuel hs hr hrs
  exact Or.inl ⟨reprepares_zero, w', hok, hframe, h, hh, herror⟩

theorem ends_throws {m n : ℕ} {r : EStateM.Result Exn World Diag} {e : LibError}
    (hm : FailsWith lib w m e) (hthrow : ∃ w', r = .error (.myException e.errno e.text) w')
    (i : ℕ) : Ends lib s w (m + n) i r :=
  Or.inr ⟨e, hm.le (Nat.le_add_right m n), hthrow⟩

/-- **The executions of a statement run.** Unless one of the preparations of the recoveries
throws, the loop ends with the outcome of the execution after the last recovery. -/
theorem executions_spec (k fuel : ℕ) (hfuel : k + 1 ≤ fuel) {hasRetried hasRetriedStatement : Bool}
    (hk : (!hasRetried).toNat + (!hasRetriedStatement).toNat ≤ k) (hs : (w.stmt s).stmt ≠ none)
    {c : Bool} (hc : hasRetried = false → (c = true ↔ Connects lib w)) {plan : List Recovery}
    (hplan : plan = recoveries c k (executeErrno lib w) hasRetried hasRetriedStatement) :
    Ends lib s w (preparations w.preparedStatements.length plan) plan.length
      ((executions lib s binds fuel hasRetried hasRetriedStatement).run w) := by
  induction k generalizing w fuel hasRetried hasRetriedStatement plan with
  | zero =>
      obtain ⟨fuel, rfl⟩ := Nat.exists_eq_succ_of_ne_zero (Nat.ne_zero_of_lt hfuel)
      obtain ⟨h, hs⟩ := Option.ne_none_iff_exists'.mp hs
      obtain rfl : plan = [] := hplan
      have hflags : hasRetried = true ∧ hasRetriedStatement = true := by
        cases hasRetried <;> cases hasRetriedStatement <;> simp at hk ⊢
      exact ends_last fuel hs (.inl hflags.1) (.inl hflags.2)
  | succ k ih =>
      obtain ⟨fuel, rfl⟩ := Nat.exists_eq_succ_of_ne_zero (Nat.ne_zero_of_lt hfuel)
      obtain ⟨h, hh⟩ := Option.ne_none_iff_exists'.mp hs
      rw [recoveries] at hplan
      split at hplan
      · rename_i hrec
        rw [Bool.and_eq_true, Bool.and_eq_true] at hrec
        obtain ⟨⟨hfresh, hlost⟩, hconn⟩ := hrec
        obtain rfl : hasRetried = false := by simpa using hfresh
        obtain ⟨w₁, hatt, hrun⟩ :=
          executions_reconnect binds fuel hasRetriedStatement hh hlost
        have hc₁ : Connects lib w₁ :=
          (connects_congr hatt.frame (by decide) (by decide) (by decide)).mpr ((hc rfl).mp hconn)
        rw [hplan, hrun]
        by_cases hp : Reprepares lib w w.preparedStatements.length
        · rw [← hatt.reprepares_iff, ← hatt.frame.preparedStatements] at hp
          obtain ⟨w₂, hconnect, hprep, hkeeps⟩ := connect_ok true hc₁ hp
          rw [hatt.reprepares_iff, hatt.frame.preparedStatements] at hp
          rw [hatt.frame.preparedStatements] at hprep
          have hprep' := hatt.prepared hprep (List.Subset.refl _)
          have hshift := hatt.shift hprep.frame (by decide)
          rw [run_bind_ok hconnect]
          refine Ends.after hprep' hp hshift ?_
          rw [← hprep'.frame.preparedStatements]
          have hk' : (!true).toNat + (!hasRetriedStatement).toNat ≤ k := by
            simp at hk ⊢
            omega
          refine ih fuel (by omega) hk' ?_ (fun h => nomatch h) ?_
          · exact hkeeps s (by rw [hatt.stmt]; exact hs)
          · rw [executeErrno_shift hshift]
        · obtain ⟨e, hfails⟩ := exists_failsWith hp
          obtain ⟨w', hconnect⟩ := connect_throws true hc₁
            (by rw [hatt.frame.preparedStatements]; exact hatt.failsWith_iff.mpr hfails)
          exact ends_throws hfails ⟨w', run_bind_error hconnect⟩ _
      · rename_i hno
        split at hplan
        · rename_i hrec
          rw [Bool.and_eq_true] at hrec
          obtain ⟨hfresh, hunknown⟩ := hrec
          obtain rfl : hasRetriedStatement = false := by simpa using hfresh
          obtain ⟨w₁, hatt, hrun⟩ := executions_reprepare binds fuel hasRetried hh
            (of_decide_eq_true hunknown)
          rw [hplan, hrun]
          by_cases hp : Reprepares lib w 1
          · obtain ⟨w₂, n, hprepare, hprep, hstmt⟩ := prepare_ok s (hatt.reprepares_iff.mpr hp)
            have hprep' := hatt.prepared hprep (by decide)
            have hshift := hatt.shift hprep.frame (by decide)
            rw [run_bind_ok hprepare]
            refine Ends.after hprep' hp hshift ?_
            rw [← hprep'.frame.preparedStatements]
            have hk' : (!hasRetried).toNat + (!true).toNat ≤ k := by
              simp at hk ⊢
              omega
            refine ih fuel (by omega) hk' ?_ ?_ ?_
            · exact keepsHandles_update (Option.some_ne_none _) hstmt s
                (by rw [hatt.stmt]; exact hs)
            · intro hfresh
              rw [connects_congr hprep.frame (by decide) (by decide) (by decide),
                connects_congr hatt.frame (by decide) (by decide) (by decide)]
              exact hc hfresh
            · rw [executeErrno_shift hshift]
          · obtain ⟨e, hfails⟩ := exists_failsWith hp
            obtain ⟨w', hprepare⟩ := prepare_throws s (hatt.failsWith_iff.mpr hfails)
            exact ends_throws hfails ⟨w', run_bind_error hprepare⟩ _
        · rename_i hno'
          obtain rfl : plan = [] := hplan
          rw [Bool.and_eq_true, Bool.and_eq_true, not_and_or, not_and_or] at hno
          rw [Bool.and_eq_true, not_and_or] at hno'
          refine ends_last fuel hh ?_ ?_
          · cases hasRetried with
            | true => exact .inl rfl
            | false =>
                obtain (hfresh | hlost) | hconn := hno
                · exact absurd rfl hfresh
                · exact .inr (.inl (Bool.eq_false_iff.mpr hlost))
                · exact .inr (.inr fun h => hconn ((hc rfl).mpr h))
          · cases hasRetriedStatement with
            | true => exact .inl rfl
            | false =>
                obtain hfresh | hunknown := hno'
                · exact absurd rfl hfresh
                · exact .inr fun h => hunknown (decide_eq_true h)

theorem frame_executions (hf : executeFns ⊆ fns) (s : StmtId) (binds : List Bind) (fuel : ℕ)
    (hasRetried hasRetriedStatement : Bool) :
    Preserves (Frame fns w₀) (executions lib s binds fuel hasRetried hasRetriedStatement) := by
  have hc : connectFns ⊆ fns := List.Subset.trans (List.subset_cons_self _ _) hf
  exact preserves_executions (frame_attempt (hf (by decide)) s binds)
    ((connectable_frame hc).connect true)
    ((preparable_frame (List.Subset.trans (by decide) hc)).prepare s) fuel hasRetried
      hasRetriedStatement

/-- Without a handle there is no execution. -/
theorem executions_null (lib : Lib) (binds : List Bind) (hs : (w.stmt s).stmt = none) (fuel : ℕ)
    (hasRetried hasRetriedStatement : Bool) :
    ∃ e, (executions lib s binds fuel hasRetried hasRetriedStatement).run w = .error e w ∧
      (e = .outOfFuel ∨ e = .nullHandle) := by
  cases fuel with
  | zero => exact ⟨_, rfl, .inl rfl⟩
  | succ fuel =>
      have hatt : (attempt lib s binds).run w = .error .nullHandle w := by
        rw [attempt, run_bind_error (stmtHandle_null_run hs)]
      exact ⟨_, by rw [executions, run_bind_error hatt], .inr rfl⟩

/-- More fuel does not change an end of the loop. -/
theorem executions_mono {fuel fuel' : ℕ} (hfuel : fuel ≤ fuel')
    {hasRetried hasRetriedStatement : Bool} {r : EStateM.Result Exn World Diag}
    (hr : (executions lib s binds fuel hasRetried hasRetriedStatement).run w = r)
    (hne : ∀ w', r ≠ .error .outOfFuel w') :
    (executions lib s binds fuel' hasRetried hasRetriedStatement).run w = r := by
  induction fuel generalizing fuel' hasRetried hasRetriedStatement w with
  | zero => exact absurd hr.symm (hne w)
  | succ fuel ih =>
      obtain ⟨fuel', rfl⟩ := Nat.exists_eq_succ_of_ne_zero (Nat.ne_zero_of_lt hfuel)
      have hle := Nat.le_of_succ_le_succ hfuel
      rw [executions] at hr ⊢
      cases hatt : (attempt lib s binds).run w with
      | error e w₁ =>
          rw [run_bind_error hatt] at hr ⊢
          exact hr
      | ok d w₁ =>
          rw [run_bind_ok hatt] at hr ⊢
          cases hconn : (reconnectIf lib (!hasRetried && lostConnection d.errno)).run w₁ with
          | error e w₂ =>
              rw [run_bind_error hconn] at hr ⊢
              exact hr
          | ok err w₂ =>
              rw [run_bind_ok hconn] at hr ⊢
              cases err with
              | none => exact ih hle hr
              | some _ =>
                  simp only at hr ⊢
                  split
                  · rename_i hunknown
                    rw [if_pos hunknown] at hr
                    cases hprep : (prepare lib s).run w₂ with
                    | error e w₃ =>
                        rw [run_bind_error hprep] at hr ⊢
                        exact hr
                    | ok u w₃ =>
                        rw [run_bind_ok hprep] at hr ⊢
                        exact ih hle hr
                  · rename_i hunknown
                    rw [if_neg hunknown] at hr
                    exact hr

theorem preparations_cons (n : ℕ) (r : Recovery) (plan : List Recovery) :
    preparations n (r :: plan) = preparations n [r] + preparations n plan := by
  simp [preparations]

/-- What executions, preparations and reconnects keep is kept by the loop.  A connection attempt
that succeeds is one of the recoveries, and when `Q` holds their preparations succeed. -/
theorem final_executions_when {I : World → Prop} {Q : Prop}
    (hattempt : Preserves I (attempt lib s binds))
    (hprepare : ∀ w, I w → (Q → Reprepares lib w 1) → I (final ((prepare lib s).run w)))
    (fuel k : ℕ) {hasRetried hasRetriedStatement : Bool}
    (hk : (!hasRetried).toNat + (!hasRetriedStatement).toNat ≤ k) {c : Bool}
    (hc : hasRetried = false → (c = true ↔ Connects lib w)) (hconnect : ∀ w', I w' →
      (Connects lib w' → (Q → Reprepares lib w' w'.preparedStatements.length) ∧
        .reconnect ∈ recoveries c k (executeErrno lib w) hasRetried hasRetriedStatement) →
      I (final ((connect lib true).run w')))
    (hrec : Q → Reprepares lib w (preparations w.preparedStatements.length
      (recoveries c k (executeErrno lib w) hasRetried hasRetriedStatement))) (hw : I w) :
    I (final ((executions lib s binds fuel hasRetried hasRetriedStatement).run w)) := by
  induction fuel generalizing w k hasRetried hasRetriedStatement with
  | zero => exact hw
  | succ fuel ih =>
      cases hs : (w.stmt s).stmt with
      | none =>
          obtain ⟨e, hnull, -⟩ :=
            executions_null lib binds hs (fuel + 1) hasRetried hasRetriedStatement
          rw [hnull]
          exact hw
      | some h =>
          obtain ⟨w₁, hrun, hatt⟩ := attempt_run lib binds hs
          have hw₁ := hattempt.ok hrun hw
          rw [executions, run_bind_ok hrun]
          by_cases hlost : (!hasRetried && lostConnection (diagOf (executeOutcome lib w 0)).errno) =
            true
          · obtain ⟨hfresh, hlost'⟩ := Bool.and_eq_true_iff.mp hlost
            obtain rfl : hasRetried = false := by simpa using hfresh
            obtain ⟨k, rfl⟩ : ∃ k', k = k' + 1 := ⟨k - 1, by simp at hk; omega⟩
            have hhead : Connects lib w₁ →
                recoveries c (k + 1) (executeErrno lib w) false hasRetriedStatement =
                .reconnect :: recoveries c k (fun i => executeErrno lib w (i + 1)) true
                  hasRetriedStatement := by
              intro hconn
              rw [connects_congr hatt.frame (by decide) (by decide) (by decide), ← hc rfl] at hconn
              rw [recoveries, if_pos (by rw [hconn, executeErrno, hlost]; rfl)]
            have hplan : Connects lib w₁ → Q → Reprepares lib w (w.preparedStatements.length +
                preparations w.preparedStatements.length
                  (recoveries c k (fun i => executeErrno lib w (i + 1)) true
                    hasRetriedStatement)) := by
              intro hconn hq
              have hall := hrec hq
              rw [hhead hconn, preparations_cons] at hall
              exact hall
            have hready : Connects lib w₁ → Q → Reprepares lib w₁ w₁.preparedStatements.length := by
              intro hconn hq
              rw [hatt.reprepares_iff, hatt.frame.preparedStatements]
              exact (hplan hconn hq).le (Nat.le_add_right _ _)
            have hw₂ := hconnect w₁ hw₁ fun hconn =>
              ⟨hready hconn, hhead hconn ▸ List.mem_cons_self⟩
            rw [reconnectIf, if_pos hlost]
            by_cases hconn : Connects lib w₁
            · by_cases hall : Reprepares lib w₁ w₁.preparedStatements.length
              · obtain ⟨w₂, hrun₂, hprep, -⟩ := connect_ok true hconn hall
                have hprep' := hatt.prepared hprep (List.Subset.refl _)
                rw [hrun₂] at hw₂
                rw [run_bind_ok hrun₂]
                refine ih k (by simp at hk ⊢; omega) nofun
                  (fun w' hw' hconn' => hconnect w' hw' fun h => ?_) (fun hq => ?_) hw₂
                · exact ⟨(hconn' h).1, hhead hconn ▸ List.mem_cons_self⟩
                · rw [executeErrno_shift (hatt.shift hprep.frame (by decide)),
                    hprep'.frame.preparedStatements]
                  rw [hatt.frame.preparedStatements] at hprep'
                  exact (hprep'.reprepares_iff.mp (hplan hconn hq)).2
              · obtain ⟨e, hfails⟩ := exists_failsWith hall
                obtain ⟨w₂, hrun₂⟩ := connect_throws true hconn hfails
                rw [hrun₂] at hw₂
                rw [run_bind_error hrun₂]
                exact hw₂
            · obtain ⟨error, w₂, hrun₂, -⟩ := connect_refused true hconn
              rw [hrun₂] at hw₂
              rw [run_bind_ok hrun₂]
              simp only
              split
              · rename_i hunknown
                rw [of_decide_eq_true (Bool.and_eq_true_iff.mp hunknown).2] at hlost'
                cases hlost'
              · exact hw₂
          · rw [reconnectIf, if_neg hlost, run_bind_ok (EStateM.run_pure _ _)]
            simp only
            split
            · rename_i hunknown
              obtain ⟨hfresh, hunknown'⟩ := Bool.and_eq_true_iff.mp hunknown
              obtain rfl : hasRetriedStatement = false := by simpa using hfresh
              obtain ⟨k, rfl⟩ : ∃ k', k = k' + 1 := ⟨k - 1, by simp at hk; omega⟩
              have hno : lostConnection (diagOf (executeOutcome lib w 0)).errno = false := by
                rw [of_decide_eq_true hunknown']
                rfl
              have hhead : recoveries c (k + 1) (executeErrno lib w) hasRetried false =
                  .reprepare :: recoveries c k (fun i => executeErrno lib w (i + 1)) hasRetried
                    true := by
                rw [recoveries, if_neg (by rw [executeErrno, hno]; simp),
                  if_pos (by rw [executeErrno]; exact hunknown)]
              rw [hhead, preparations_cons] at hrec
              have hw₂ := hprepare w₁ hw₁ fun hq => hatt.reprepares_iff.mpr
                ((hrec hq).le (Nat.le_add_right _ _))
              by_cases hone : Reprepares lib w₁ 1
              · obtain ⟨w₂, n, hrun₂, hprep, -⟩ := prepare_ok s hone
                have hprep' := hatt.prepared hprep (by decide)
                rw [hrun₂] at hw₂
                rw [run_bind_ok hrun₂, hno, Bool.or_false]
                refine ih k (by simp at hk ⊢; omega) (fun hfresh => ?_)
                  (fun w' hw' hconn' => hconnect w' hw' fun h => ?_) (fun hq => ?_) hw₂
                · rw [hc hfresh, connects_congr hprep.frame (by decide) (by decide) (by decide),
                    connects_congr hatt.frame (by decide) (by decide) (by decide)]
                · obtain ⟨hready, hmem⟩ := hconn' h
                  rw [executeErrno_shift (hatt.shift hprep.frame (by decide))] at hmem
                  exact ⟨hready, hhead ▸ List.mem_cons_of_mem _ hmem⟩
                · rw [executeErrno_shift (hatt.shift hprep.frame (by decide)),
                    hprep'.frame.preparedStatements]
                  exact (hprep'.reprepares_iff.mp (hrec hq)).2
              · obtain ⟨e, hfails⟩ := exists_failsWith hone
                obtain ⟨w₂, hrun₂⟩ := prepare_throws s hfails
                rw [hrun₂] at hw₂
                rw [run_bind_error hrun₂]
                exact hw₂
            · exact hw₁

/-- What executions, reconnects and preparations keep while no preparation fails is kept by the
loop when the preparations of its recoveries succeed. -/
theorem final_executions {I : World → Prop} (hattempt : Preserves I (attempt lib s binds))
    (hprepare : ∀ w, I w → Reprepares lib w 1 → I (final ((prepare lib s).run w)))
    (fuel k : ℕ) {hasRetried hasRetriedStatement : Bool}
    (hk : (!hasRetried).toNat + (!hasRetriedStatement).toNat ≤ k) {c : Bool}
    (hc : hasRetried = false → (c = true ↔ Connects lib w))
    (hconnect : ∀ w', I w' → (Connects lib w' → Reprepares lib w' w'.preparedStatements.length ∧
        .reconnect ∈ recoveries c k (executeErrno lib w) hasRetried hasRetriedStatement) →
      I (final ((connect lib true).run w')))
    (hrec : Reprepares lib w (preparations w.preparedStatements.length
      (recoveries c k (executeErrno lib w) hasRetried hasRetriedStatement))) (hw : I w) :
    I (final ((executions lib s binds fuel hasRetried hasRetriedStatement).run w)) :=
  final_executions_when (Q := True) hattempt (fun w hw hone => hprepare w hw (hone trivial))
    fuel k hk hc
    (fun w' hw' hconn => hconnect w' hw' fun h => ⟨(hconn h).1 trivial, (hconn h).2⟩)
      (fun _ => hrec) hw

end Tmysql4.Handler
