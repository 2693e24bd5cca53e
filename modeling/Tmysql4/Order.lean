import Tmysql4.Sequential
import Tmysql4.SqlText

/-! # The order of the executions

What the server is asked to execute on a connection comes in blocks, one for each handler: the
sends of a query, or the executions of a statement run.  A block has one to three executions, all
of the same text and the same parameters, and on a handle for which the preparation of that
statement's query, and of no other, has been requested. `executions_in_order` says that the blocks
are in the order of the accepted calls, whatever the threads do: no call is lost, none is
overtaken, and no block is interrupted by another. -/

namespace Tmysql4

open Imperative (Preserves final run_bind_ok run_bind_error)

namespace Handler

variable {lib : Lib} {w w' w₀ : World} {A : World → Request → Prop} {lo hi : ℕ} {s : StmtId}
  {binds : List Bind} {query : Bytes} {action : DatabaseAction}

/-- The executions among the requests that have been sent. -/
def World.executed (w : World) : List Request := w.log.filter Request.executes

/-- Since `w₀` between `lo` and `hi` executions have been sent, which satisfy `A`. -/
def Executing (A : World → Request → Prop) (lo hi : ℕ) (w₀ w : World) : Prop :=
  ∃ new, w.executed = w₀.executed ++ new ∧ lo ≤ new.length ∧ new.length ≤ hi ∧ ∀ r ∈ new, A w r

theorem Executing.refl (A : World → Request → Prop) (w : World) : Executing A 0 0 w w :=
  ⟨[], (List.append_nil _).symm, Nat.le_refl _, Nat.le_refl _, nofun⟩

theorem Executing.mono {lo' hi' : ℕ} (h : Executing A lo hi w₀ w) (hlo : lo' ≤ lo)
    (hhi : hi ≤ hi') : Executing A lo' hi' w₀ w := by
  obtain ⟨new, hnew, hle, hge, hA⟩ := h
  exact ⟨new, hnew, Nat.le_trans hlo hle, Nat.le_trans hge hhi, hA⟩

/-! ### What the requests belong to -/

/-- The statements stay, and the handles that are there are not prepared any more. -/
structure Grows (w w' : World) : Prop where
  nextStmt : w.nextStmt ≤ w'.nextStmt
  query : ∀ s < w.nextStmt, (w'.stmt s).query = (w.stmt s).query
  nextHandle : w.nextHandle ≤ w'.nextHandle
  prepared : ∀ h < w.nextHandle, ∀ t, .stmtPrepare h t ∈ w'.log ↔ .stmtPrepare h t ∈ w.log

theorem Grows.refl (w : World) : Grows w w :=
  ⟨Nat.le_refl _, fun _ _ => rfl, Nat.le_refl _, fun _ _ _ => Iff.rfl⟩

theorem Grows.trans {w'' : World} (h : Grows w w') (h' : Grows w' w'') : Grows w w'' :=
  ⟨Nat.le_trans h.nextStmt h'.nextStmt,
    fun s hs => (h'.query s (Nat.lt_of_lt_of_le hs h.nextStmt)).trans (h.query s hs),
    Nat.le_trans h.nextHandle h'.nextHandle, fun handle hlt t =>
      (h'.prepared handle (Nat.lt_of_lt_of_le hlt h.nextHandle) t).trans (h.prepared handle hlt t)⟩

/-- A request that is no preparation. -/
theorem Grows.record {r : Request} (h : Grows w₀ w) (hr : ∀ handle t, r ≠ .stmtPrepare handle t) :
    Grows w₀ { w with log := w.log ++ [r] } := by
  refine ⟨h.nextStmt, h.query, h.nextHandle, fun handle hlt t => ?_⟩
  rw [List.mem_append, or_iff_left, h.prepared handle hlt t]
  exact fun ht => hr handle t (List.mem_singleton.mp ht).symm

theorem Renewed.grows (hr : Renewed lib s w w') : Grows w w' := by
  obtain ⟨handle, hnew, hnext, -, hlog⟩ := hr.sends
  refine ⟨Nat.le_of_eq hr.nextStmt.symm, fun t _ => hr.kept.query t, by omega, fun h hlt t => ?_⟩
  rw [mem_stmtPrepare_iff hlog, or_iff_left]
  rintro ⟨hh, -⟩
  rw [hnew h hh] at hlt
  exact Nat.lt_irrefl _ hlt

theorem persistent_grows (lib : Lib) (E : Request → Prop) (w₀ : World) :
    Persistent lib (fun _ => True) E (Grows w₀) := by
  have hopenable : Openable soundFns (Grows w₀) := {
    call _ _ _ h := ⟨h.nextStmt, h.query, h.nextHandle, h.prepared⟩
    connError _ _ h := ⟨h.nextStmt, h.query, h.nextHandle, h.prepared⟩
    handle _ _ _ _ h := ⟨h.nextStmt, h.query, h.nextHandle, h.prepared⟩
    locals _ _ _ h := ⟨h.nextStmt, h.query, h.nextHandle, h.prepared⟩
    frees _ _ h := ⟨h.nextStmt, h.query, h.nextHandle, h.prepared⟩
    waiter _ _ h := ⟨h.nextStmt, h.query, h.nextHandle, h.prepared⟩
    isPendingCallback _ _ h := ⟨h.nextStmt, h.query, h.nextHandle, h.prepared⟩
    opens := by decide
    quiet r he hp w h := h.record (by rintro handle t rfl; cases hp)
    charSet _ _ h := ⟨h.nextStmt, h.query, h.nextHandle, h.prepared⟩ }
  exact hopenable.persistent (fun _ _ _ _ => trivial)
    (fun _ _ h => ⟨h.nextStmt, h.query, h.nextHandle, h.prepared⟩)
    (fun r he _ w h => h.record (by rintro handle t rfl; cases he)) fun s _ w h =>
      h.trans (prepare_renewed lib s w).grows

/-- The execution of `s` on a handle that has got the query of `s`, and no other. -/
def Runs (s : StmtId) (binds : List Bind) (w : World) (r : Request) : Prop :=
  s < w.nextStmt ∧ ∃ h < w.nextHandle, r = .stmtExecute h binds ∧
    PreparedWith w.log h (w.stmt s).query

theorem Runs.grows {r : Request} (h : Runs s binds w r) (hg : Grows w w') : Runs s binds w' r := by
  obtain ⟨hlt, handle, hhandle, rfl, hprepared⟩ := h
  refine ⟨Nat.lt_of_lt_of_le hlt hg.nextStmt, handle, Nat.lt_of_lt_of_le hhandle hg.nextHandle, rfl,
    fun t => ?_⟩
  rw [hg.prepared handle hhandle t, hg.query s hlt]
  exact hprepared t

/-- What the handler of `t` sends to be executed. -/
def Task.Sends : Task → World → Request → Prop
  | .runQuery _ query, _, r => r = .realQuery query
  | .runStatement s binds _, w, r => ∃ numArgs, Runs s (retagBinds binds numArgs) w r
  | .createStatement _, _, _ => False

/-- How often it may send it. -/
def Task.attempts : Task → ℕ
  | .runQuery _ _ => 2
  | .runStatement _ _ _ => 3
  | .createStatement _ => 0

theorem Task.Sends.grows {t : Task} {r : Request} (h : t.Sends w r) (hg : Grows w w') :
    t.Sends w' r := by
  cases t with
  | runQuery action query => exact h
  | runStatement s binds action =>
      obtain ⟨numArgs, hruns⟩ := h
      exact ⟨numArgs, hruns.grows hg⟩
  | createStatement query => exact h.elim

/-! ### What sends no execution -/

/-- No execution has been sent since `w`. -/
def Quiet (w w' : World) : Prop := SendsOnly (fun r => r.executes = false) w w' ∧ Grows w w'

theorem Quiet.refl (w : World) : Quiet w w := ⟨.refl _ w, .refl w⟩

theorem Quiet.executed (h : Quiet w w') : w'.executed = w.executed := by
  obtain ⟨new, hnew, hquiet⟩ := h.1.sent
  have hnone : new.filter Request.executes = [] :=
    List.filter_eq_nil_iff.mpr fun r hr => by simp [hquiet r hr]
  unfold World.executed
  rw [hnew, List.filter_append, hnone, List.append_nil]

theorem persistent_quiet (lib : Lib) (w : World) :
    Persistent lib (fun _ => True) (fun r => r.executes = false) (Quiet w) :=
  (persistent_sends (fun _ _ => trivial) (fun _ he _ => he) (fun _ => rfl) fun _ _ _ => rfl).and
    (persistent_grows lib _ w)

/-- A destructor closes the handle of its statement. -/
theorem Quiet.closing (h : Quiet w₀ w) (stmt : Option HandleId) : Quiet w₀ (w.closing stmt) := by
  cases stmt with
  | none => exact h
  | some handle =>
      have hg := h.2.record (r := .stmtClose handle) fun _ _ => nofun
      refine ⟨h.1.append (kept_closing (some handle) w) rfl fun r hr => ?_, hg.nextStmt, hg.query,
        hg.nextHandle, hg.prepared⟩
      rw [List.mem_singleton.mp hr]
      rfl

theorem Quiet.closeAll (h : Quiet w₀ w) (entries : List (Bytes × StmtId)) :
    Quiet w₀ (w.closeAll entries) := by
  induction entries generalizing w with
  | nil => exact h
  | cons entry entries ih => exact ih (h.closing _)

theorem Written.closeAll (hw : Written w) (entries : List (Bytes × StmtId)) :
    Written (w.closeAll entries) := by
  induction entries generalizing w with
  | nil => exact hw
  | cons entry entries ih => exact ih (hw.closing _)

theorem Executing.quiet (h : Executing A lo hi w₀ w) (hA : ∀ r, A w r → A w' r)
    (hq : w'.executed = w.executed) : Executing A lo hi w₀ w' := by
  obtain ⟨new, hnew, hle, hge, hall⟩ := h
  exact ⟨new, hq.trans hnew, hle, hge, fun r hr => hA r (hall r hr)⟩

/-- One more execution. -/
theorem Executing.sent {r : Request} (h : Executing A lo hi w₀ w) (hlog : w'.log = w.log ++ [r])
    (he : r.executes = true) (hr : A w' r) (hA : ∀ r, A w r → A w' r) :
    Executing A (lo + 1) (hi + 1) w₀ w' := by
  obtain ⟨new, hnew, hle, hge, hall⟩ := h
  refine ⟨new ++ [r], ?_, ?_, ?_, fun r' hr' => ?_⟩
  · have hone : [r].filter Request.executes = [r] := by simp [he]
    unfold World.executed at hnew ⊢
    rw [hlog, List.filter_append, hone, hnew, List.append_assoc]
  · rw [List.length_append, List.length_singleton]
    omega
  · rw [List.length_append, List.length_singleton]
    omega
  · obtain hr' | hr' := List.mem_append.mp hr'
    · exact hA r' (hall r' hr')
    · rw [List.mem_singleton.mp hr']
      exact hr

/-! ### Queries -/

theorem mysqlRealQuery_executing (lib : Lib)
    (h : Executing (Task.Sends (.runQuery action query)) lo hi w₀ w) :
    Executing (Task.Sends (.runQuery action query)) (lo + 1) (hi + 1) w₀
      (final ((mysqlRealQuery lib query).run w)) :=
  h.sent rfl rfl rfl fun _ hr => hr

/-- The sends of a query: one, and another one after a reconnect. -/
theorem send_executing (lib : Lib) (fuel : ℕ) (hasRetried : Bool)
    (h : Executing (Task.Sends (.runQuery action query)) lo hi w₀ w) :
    Executing (Task.Sends (.runQuery action query)) lo (hi + 1 + (!hasRetried).toNat) w₀
        (final ((send lib query fuel hasRetried).run w)) ∧
      (0 < fuel → Executing (Task.Sends (.runQuery action query)) (lo + 1)
        (hi + 1 + (!hasRetried).toNat) w₀ (final ((send lib query fuel hasRetried).run w))) := by
  induction fuel generalizing w lo hi hasRetried with
  | zero => exact ⟨h.mono (Nat.le_refl _) (by omega), fun hlt => absurd hlt (Nat.lt_irrefl 0)⟩
  | succ fuel ih =>
      suffices hsent : Executing (Task.Sends (.runQuery action query)) (lo + 1)
          (hi + 1 + (!hasRetried).toNat) w₀
          (final ((send lib query (fuel + 1) hasRetried).run w)) from
        ⟨hsent.mono (Nat.le_succ _) (Nat.le_refl _), fun _ => hsent⟩
      have hquery := mysqlRealQuery_executing lib h
      obtain ⟨w₁, hrun, -⟩ := mysqlRealQuery_sent lib query w
      rw [hrun, Imperative.final_ok] at hquery
      have hone := hquery.mono (Nat.le_refl _) (Nat.le_add_right (hi + 1) (!hasRetried).toNat)
      rw [send, run_bind_ok hrun]
      split
      · rw [run_bind_ok (mysqlError_run _)]
        split
        · rename_i hlost
          obtain ⟨hfresh, -⟩ := Bool.and_eq_true_iff.mp hlost
          obtain rfl : hasRetried = false := by simpa using hfresh
          have hquiet : Quiet w₁ (final ((connect lib true).run w₁)) :=
            (persistent_quiet lib w₁).connect true w₁ (.refl _)
          cases hconnect : (connect lib true).run w₁ with
          | error e w₂ =>
              rw [hconnect, Imperative.final_error] at hquiet
              rw [run_bind_error hconnect]
              exact hone.quiet (fun _ hr => hr) hquiet.executed
          | ok err w₂ =>
              rw [hconnect, Imperative.final_ok] at hquiet
              rw [run_bind_ok hconnect]
              cases err with
              | none =>
                  have hagain : Executing (Task.Sends (.runQuery action query)) (lo + 1) (hi + 1)
                      w₀ w₂ :=
                    hquery.quiet (fun _ hr => hr) hquiet.executed
                  exact (ih true hagain).1
              | some err => exact hone.quiet (fun _ hr => hr) hquiet.executed
        · exact hone
      · exact hone

/-! ### Statements -/

/-- One execution. -/
theorem attempt_executing {d : Diag} (h : Executing (Runs s binds) lo hi w₀ w) (hw : Written w)
    (hlt : s < w.nextStmt) (hrun : (attempt lib s binds).run w = .ok d w') :
    Executing (Runs s binds) (lo + 1) (hi + 1) w₀ w' ∧ Grows w w' := by
  cases hs : w.holds s with
  | none =>
      rw [attempt, run_bind_error (stmtHandle_null_run hs)] at hrun
      cases hrun
  | some handle =>
      obtain ⟨w₁, hrun₁, hlog, hstmt, hnextStmt, hnextHandle, -⟩ := attempt_sent lib binds hs
      rw [hrun₁] at hrun
      cases hrun
      have hrecord := (Grows.refl w).record (r := .stmtExecute handle binds) fun _ _ =>
        Request.noConfusion
      have hg : Grows w w' := by
        refine ⟨Nat.le_of_eq hnextStmt.symm, fun s _ => by rw [hstmt],
          Nat.le_of_eq hnextHandle.symm, ?_⟩
        rw [hlog]
        exact hrecord.prepared
      refine ⟨h.sent hlog rfl ?_ fun r hr => hr.grows hg, hg⟩
      exact Runs.grows ⟨hlt, handle, hw.holds_lt hs, rfl, hw.own s handle hs⟩ hg

theorem persistent_written (lib : Lib) (E : Request → Prop) :
    Persistent lib (fun _ => True) E Written := by
  have hopenable : Openable soundFns Written := {
    call _ _ _ h := ⟨h.lt, h.own⟩
    connError _ _ h := ⟨h.lt, h.own⟩
    handle _ _ _ _ h := ⟨h.lt, h.own⟩
    locals _ _ _ h := ⟨h.lt, h.own⟩
    frees _ _ h := ⟨h.lt, h.own⟩
    waiter _ _ h := ⟨h.lt, h.own⟩
    isPendingCallback _ _ h := ⟨h.lt, h.own⟩
    opens := by decide
    quiet r he hp w h := h.record (by rintro handle t rfl; cases hp)
    charSet _ _ h := ⟨h.lt, h.own⟩ }
  exact hopenable.persistent (fun _ _ _ _ => trivial) (fun _ _ h => ⟨h.lt, h.own⟩)
    (fun r he _ w h => h.record (by rintro handle t rfl; cases he)) fun s _ w h =>
      (prepare_renewed lib s w).written h

theorem Executing.quietly (h : Executing (Runs s binds) lo hi w₀ w) (hq : Quiet w w') :
    Executing (Runs s binds) lo hi w₀ w' :=
  h.quiet (fun _ hr => hr.grows hq.2) hq.executed

/-- The handler does not go on: the statement has no handle, or the fuel is used up. -/
def Stuck {α : Type} : EStateM.Result Exn World α → Prop
  | .error .nullHandle _ => True
  | .error .outOfFuel _ => True
  | _ => False

/-- The executions of a statement run: one, another one
after a reconnect, and another one after a preparation. -/
theorem executions_executing (lib : Lib) (fuel : ℕ) (hasRetried hasRetriedStatement : Bool)
    (h : Executing (Runs s binds) lo hi w₀ w)
    (hw : Written w) (hlt : s < w.nextStmt) :
    Executing (Runs s binds) lo (hi + 1 + (!hasRetried).toNat + (!hasRetriedStatement).toNat) w₀
        (final ((executions lib s binds fuel hasRetried hasRetriedStatement).run w)) ∧
      (¬ Stuck ((executions lib s binds fuel hasRetried hasRetriedStatement).run w) →
        Executing (Runs s binds) (lo + 1)
          (hi + 1 + (!hasRetried).toNat + (!hasRetriedStatement).toNat) w₀
          (final ((executions lib s binds fuel hasRetried hasRetriedStatement).run w))) := by
  induction fuel generalizing w lo hi hasRetried hasRetriedStatement with
  | zero => exact ⟨h.mono (Nat.le_refl _) (by omega), fun hgoes => absurd trivial hgoes⟩
  | succ fuel ih =>
      cases hs : (w.stmt s).stmt with
      | none =>
          obtain ⟨e, hnull, he⟩ :=
            executions_null lib binds hs (fuel + 1) hasRetried hasRetriedStatement
          rw [hnull]
          refine ⟨h.mono (Nat.le_refl _) (by omega), fun hgoes => absurd ?_ hgoes⟩
          obtain rfl | rfl := he <;> trivial
      | some handle =>
          suffices hsent : Executing (Runs s binds) (lo + 1)
              (hi + 1 + (!hasRetried).toNat + (!hasRetriedStatement).toNat) w₀
              (final ((executions lib s binds (fuel + 1) hasRetried hasRetriedStatement).run w))
                from
            ⟨hsent.mono (Nat.le_succ _) (Nat.le_refl _), fun _ => hsent⟩
          obtain ⟨w₁, hrun, -⟩ := attempt_run lib binds hs
          obtain ⟨hone, hg⟩ := attempt_executing h hw hlt hrun
          have hw₁ := ((persistent_written lib fun _ => True).attempt (fun _ _ => trivial) s
            binds).ok hrun hw
          have hlt₁ := Nat.lt_of_lt_of_le hlt hg.nextStmt
          rw [executions, run_bind_ok hrun]
          generalize hlost : (!hasRetried && lostConnection
            (diagOf (executeOutcome lib w 0)).errno) = lost
          have hquiet : Quiet w₁ (final ((reconnectIf lib lost).run w₁)) :=
            (Preserves.ite ((persistent_quiet lib w₁).connect true) (Preserves.pure _)) w₁ (.refl _)
          have hw₂ : Written (final ((reconnectIf lib lost).run w₁)) :=
            (Preserves.ite ((persistent_written lib fun _ => True).connect true) (Preserves.pure _))
              w₁ hw₁
          cases hconnect : (reconnectIf lib lost).run w₁ with
          | error e w₂ =>
              rw [hconnect, Imperative.final_error] at hquiet
              rw [run_bind_error hconnect]
              exact (hone.quietly hquiet).mono (Nat.le_refl _) (by omega)
          | ok err w₂ =>
              rw [hconnect, Imperative.final_ok] at hquiet hw₂
              rw [run_bind_ok hconnect]
              have htwo := hone.quietly hquiet
              have hlt₂ := Nat.lt_of_lt_of_le hlt₁ hquiet.2.nextStmt
              cases err with
              | none =>
                  -- without a lost connection there is no reconnect
                  obtain rfl : lost = true := by
                    by_contra hnot
                    rw [reconnectIf, if_neg hnot] at hconnect
                    cases hconnect
                  obtain ⟨hfresh, -⟩ := Bool.and_eq_true_iff.mp hlost
                  obtain rfl : hasRetried = false := by simpa using hfresh
                  exact (ih true hasRetriedStatement htwo hw₂ hlt₂).1.mono (Nat.le_refl _) (by simp)
              | some error =>
                  dsimp only
                  split
                  · rename_i hunknown
                    obtain ⟨hfresh, -⟩ := Bool.and_eq_true_iff.mp hunknown
                    obtain rfl : hasRetriedStatement = false := by simpa using hfresh
                    have hquiet₂ : Quiet w₂ (final ((prepare lib s).run w₂)) :=
                      (persistent_quiet lib w₂).prepare s trivial w₂ (.refl _)
                    have hw₃ := (persistent_written lib fun _ => True).prepare s trivial w₂ hw₂
                    cases hprepare : (prepare lib s).run w₂ with
                    | error e w₃ =>
                        rw [hprepare, Imperative.final_error] at hquiet₂
                        rw [run_bind_error hprepare]
                        exact (htwo.quietly hquiet₂).mono (Nat.le_refl _) (by omega)
                    | ok r w₃ =>
                        rw [hprepare, Imperative.final_ok] at hquiet₂ hw₃
                        rw [run_bind_ok hprepare]
                        refine (ih _ true (htwo.quietly hquiet₂) hw₃
                          (Nat.lt_of_lt_of_le hlt₂ hquiet₂.2.nextStmt)).1.mono (Nat.le_refl _) ?_
                        cases hasRetried <;> cases lostConnection
                          (diagOf (executeOutcome lib w 0)).errno <;> simp
                  · exact htwo.mono (Nat.le_refl _) (by omega)

/-! ### Handlers -/

theorem Executing.imp {B : World → Request → Prop} (h : Executing A lo hi w₀ w)
    (hAB : ∀ r, A w r → B w r) : Executing B lo hi w₀ w := by
  obtain ⟨new, hnew, hle, hge, hall⟩ := h
  exact ⟨new, hnew, hle, hge, fun r hr => hAB r (hall r hr)⟩

theorem runQuery_executing {fuel : ℕ} (hrun : (runQuery lib fuel action query).run w = .ok () w') :
    Executing (Task.Sends (.runQuery action query)) 1 2 w w' := by
  have hfuel : 0 < fuel := by
    cases fuel with
    | zero => cases hrun
    | succ fuel => exact Nat.succ_pos fuel
  have hsent := (send_executing lib fuel false (.refl (Task.Sends (.runQuery action query)) w)).2
    hfuel
  have hquiet := persistent_quiet lib (final ((send lib query fuel false).run w))
  have hrest := final_runQuery (hquiet.toStable.mono (by decide)).anywhere
    (hquiet.pushCompleted action) (.refl _)
  rw [hrun, Imperative.final_ok] at hrest
  exact hsent.quiet (fun _ hr => hr) hrest.executed

theorem runStatement_executing {fuel : ℕ}
    (hrun : (runStatement lib fuel s binds action).run w = .ok () w') (hw : Written w)
    (hlt : s < w.nextStmt) : Executing (Task.Sends (.runStatement s binds action)) 1 3 w w' := by
  have hone := (executions_executing lib fuel false false
    (.refl (Runs s (retagBinds binds (w.stmt s).numArgs)) w) hw hlt).2
  have hgoes : ¬ Stuck ((executions lib s (retagBinds binds (w.stmt s).numArgs) fuel false
      false).run w) := by
    intro hstuck
    cases hexecutions : (executions lib s (retagBinds binds (w.stmt s).numArgs) fuel false
      false).run w with
    | ok d w₁ =>
        rw [hexecutions] at hstuck
        exact hstuck
    | error e w₁ =>
        rw [hexecutions] at hstuck
        have hexecute : (execute lib fuel s binds).run w = .error e w₁ := by
          rw [execute, run_bind_ok (EStateM.run_get _), run_bind_error hexecutions]
        rw [runStatement, Imperative.run_bind_eq_ok_iff] at hrun
        obtain ⟨results, w₂, hcatch, -⟩ := hrun
        obtain hok | ⟨errorNumber, what, w₃, hcaught, -⟩ := catchMyException_eq_ok hcatch
        · rw [hexecute] at hok
          cases hok
        · rw [hexecute] at hcaught
          cases hcaught
          exact hstuck
  have hquiet := persistent_quiet lib
    (final ((executions lib s (retagBinds binds (w.stmt s).numArgs) fuel false false).run w))
  have hrest := final_runStatement (hquiet.toStable.mono (by decide)).anywhere hquiet.frees
    (fun _ _ _ _ => trivial) (hquiet.pushCompleted action) (.refl _)
  rw [hrun, Imperative.final_ok] at hrest
  exact ((hone hgoes).quietly hrest).imp fun r hr => ⟨_, hr⟩

/-! ### Blocks -/

/-- The executions are one block for each of these handlers. -/
def Blocks (w : World) (tasks : List Task) : Prop :=
  ∃ blocks, List.Forall₂
    (fun (t : Task) block => 1 ≤ block.length ∧ block.length ≤ t.attempts ∧
      ∀ r ∈ block, t.Sends w r) tasks
    blocks ∧ w.executed = blocks.flatten

theorem Blocks.grows {tasks : List Task} (h : Blocks w tasks) (hg : Grows w w')
    (hq : w'.executed = w.executed) : Blocks w' tasks := by
  obtain ⟨blocks, hblocks, hflatten⟩ := h
  exact ⟨blocks, hblocks.imp fun t block hb => ⟨hb.1, hb.2.1, fun r hr => (hb.2.2 r hr).grows hg⟩,
    hq.trans hflatten⟩

/-- Another handler has run. -/
theorem Blocks.append {tasks : List Task} {t : Task} (h : Blocks w tasks) (hg : Grows w w')
    (hsent : Executing t.Sends 1 t.attempts w w') : Blocks w' (tasks ++ [t]) := by
  obtain ⟨blocks, hblocks, hflatten⟩ := h
  obtain ⟨new, hnew, hle, hge, hall⟩ := hsent
  refine ⟨blocks ++ [new], List.rel_append ?_ (.cons ⟨hle, hge, hall⟩ .nil), ?_⟩
  · exact hblocks.imp fun t block hb => ⟨hb.1, hb.2.1, fun r hr => (hb.2.2 r hr).grows hg⟩
  · rw [hnew, hflatten, List.flatten_append, List.flatten_singleton]

namespace Lifetime

variable {c : Credentials} {x x' : Lifetime} {op : Operation} {tasks : List Task}

/-- What a sequence of operations with these handlers leaves. -/
structure Ordered (tasks : List Task) (x : Lifetime) : Prop where
  written : Written x.world
  prepared : ∀ entry ∈ x.prepared, entry.2 < x.world.nextStmt
  cached : ∀ entry ∈ x.world.preparedStatements, entry.2 < x.world.nextStmt
  blocks : Blocks x.world tasks

theorem ordered_create (c : Credentials) : Ordered [] (create c) :=
  ⟨⟨nofun, nofun⟩, nofun, nofun, [], .nil, rfl⟩

theorem Ordered.quiet (h : Ordered tasks x) (hq : Quiet x.world x'.world) (hw : Written x'.world)
    (hprepared : x'.prepared = x.prepared) : Ordered tasks x' := by
  refine ⟨hw, fun entry hentry => ?_, fun entry hentry => ?_, h.blocks.grows hq.2 hq.executed⟩
  · rw [hprepared] at hentry
    rw [hq.1.nextStmt]
    exact h.prepared entry hentry
  · rw [hq.1.preparedStatements] at hentry
    rw [hq.1.nextStmt]
    exact h.cached entry hentry

theorem Ordered.worked {t : Task} {w' : World} (h : Ordered tasks x)
    (hkept : SendsOnly (fun _ => True) x.world w') (hg : Grows x.world w') (hw : Written w')
    (hsent : Executing t.Sends 1 t.attempts x.world w') :
    Ordered (tasks ++ [t]) { x with world := w' } := by
  refine ⟨hw, fun entry hentry => ?_, fun entry hentry => ?_, h.blocks.append hg hsent⟩
  · show entry.2 < w'.nextStmt
    rw [hkept.nextStmt]
    exact h.prepared entry hentry
  · have hentry : entry ∈ w'.preparedStatements := hentry
    rw [hkept.preparedStatements] at hentry
    show entry.2 < w'.nextStmt
    rw [hkept.nextStmt]
    exact h.cached entry hentry

theorem Ordered.hit (h : Ordered tasks x) {s : StmtId}
    (hlookup : x.world.preparedStatements.lookup (cString query) = some s) :
    Ordered tasks (x.returned query (some s, x.world)) := by
  refine ⟨h.written, fun entry hentry => ?_, h.cached, h.blocks⟩
  obtain rfl | hentry := List.mem_cons.mp hentry
  · exact h.cached (cString query, s) (mem_of_lookup_eq_some hlookup)
  · exact h.prepared entry hentry

/-- A statement that is constructed. -/
theorem Ordered.constructed {r : Option StmtId} {w' : World} (h : Ordered tasks x)
    (hconstructed : Constructed lib query x.world r w') :
    Ordered tasks (x.returned query (r, w')) := by
  obtain ⟨hnext, hothers, -⟩ := hconstructed.stmt
  have hquiet : Quiet (x.world.waiting.allocating (cString query))
      (final ((prepare lib x.world.nextStmt).run (x.world.waiting.allocating (cString query)))) :=
    (persistent_quiet lib _).prepare x.world.nextStmt trivial _ (.refl _)
  have hw := h.written.constructed hconstructed
  have hleft : x.world.nextHandle ≤ w'.nextHandle ∧
      (∀ handle < x.world.nextHandle, ∀ t, .stmtPrepare handle t ∈ w'.log ↔
        .stmtPrepare handle t ∈ x.world.log) ∧
      w'.executed = x.world.executed := by
    obtain ⟨entries, rfl⟩ := hconstructed.leaves
    exact ⟨hquiet.2.nextHandle, hquiet.2.prepared, hquiet.executed⟩
  obtain ⟨hhandle, hprepared, hexecuted⟩ := hleft
  have hlt : ∀ s < x.world.nextStmt, s < w'.nextStmt := by
    intro s hs
    rw [hnext]
    exact Nat.lt_succ_of_lt hs
  have hnew : x.world.nextStmt < w'.nextStmt := by
    rw [hnext]
    exact Nat.lt_succ_self _
  have hblocks := h.blocks.grows
    ⟨Nat.le_of_lt hnew, fun s hs => by rw [hothers s (Nat.ne_of_lt hs)], hhandle, hprepared⟩
    hexecuted
  obtain ⟨-, rfl, hentries⟩ | ⟨-, rfl, hentries⟩ := hconstructed.returns
  · refine ⟨hw, fun entry hentry => ?_, fun entry hentry => ?_, hblocks⟩
    · obtain rfl | hentry := List.mem_cons.mp hentry
      · exact hnew
      · exact hlt _ (h.prepared entry hentry)
    · have hentry : entry ∈ w'.preparedStatements := hentry
      rw [hentries, (mapInsert_perm hconstructed.miss _).mem_iff] at hentry
      obtain rfl | hentry := List.mem_cons.mp hentry
      · exact hnew
      · exact hlt _ (h.cached entry hentry)
  · refine ⟨hw, fun entry hentry => hlt _ (h.prepared entry hentry), fun entry hentry => ?_,
      hblocks⟩
    have hentry : entry ∈ w'.preparedStatements := hentry
    rw [hentries] at hentry
    exact hlt _ (h.cached entry hentry)

theorem Ordered.step (h : Ordered tasks x) (hs : Steps lib x op x') :
    Ordered (tasks ++ op.task.toList) x' := by
  have hidle : Quiet x.world x.world := .refl _
  have hnone : ∀ x', Ordered tasks x' → Ordered (tasks ++ []) x' := by
    intro x' h
    rw [List.append_nil]
    exact h
  have hpersistent : Persistent lib (fun _ => True) (fun _ => True)
      fun w => SendsOnly (fun _ => True) x.world w ∧ Grows x.world w ∧ Written w :=
    (persistent_sends (fun _ _ => trivial) (fun _ _ _ => trivial) (fun _ => trivial) fun _ _ _ =>
      trivial).and ((persistent_grows lib _ x.world).and (persistent_written lib _))
  have hstart : SendsOnly (fun _ => True) x.world x.world ∧ Grows x.world x.world ∧
      Written x.world :=
    ⟨.refl _ _, .refl _, h.written⟩
  cases hs with
  | setOption =>
      refine hnone _ ?_
      exact h.quiet ⟨⟨⟨rfl, rfl, fun _ => rfl⟩, hidle.1.sent⟩, hidle.2.nextStmt, hidle.2.query,
        hidle.2.nextHandle, hidle.2.prepared⟩ ⟨h.written.lt, h.written.own⟩ rfl
  | @connect initFails error x' created hrun =>
      refine hnone _ ?_
      obtain ⟨-, hprepared, hworld | hworld⟩ := initialize_cases hrun
      · refine h.quiet ?_ ?_ hprepared
        · rw [hworld]
          exact hidle
        · rw [hworld]
          exact h.written
      · refine h.quiet ?_ ?_ hprepared
        · rw [hworld]
          exact (persistent_quiet lib x.world).connect false x.world hidle
        · rw [hworld]
          exact (hpersistent.connect false x.world hstart).2.2
  | setCharacterSet charset =>
      refine hnone _ ?_
      exact h.quiet ((persistent_quiet lib x.world).sets charset x.world hidle)
        (hpersistent.sets charset x.world hstart).2.2 rfl
  | @query fuel action query w' hrun =>
      obtain ⟨hkept, hg, hw⟩ := (hpersistent.runQuery trivial fuel action).ok hrun hstart
      exact h.worked hkept hg hw (runQuery_executing hrun)
  | @hit query s hlookup =>
      refine hnone _ ?_
      exact h.hit hlookup
  | @miss query r w' hconstructed =>
      refine hnone _ ?_
      exact h.constructed hconstructed
  | @run fuel s binds action w' hs hrun =>
      obtain ⟨entry, hentry, rfl⟩ := List.mem_map.mp hs
      obtain ⟨hkept, hg, hw⟩ :=
        (hpersistent.runStatement (fun _ _ => trivial) trivial fuel binds action).ok hrun hstart
      exact h.worked hkept hg hw (runStatement_executing hrun h.written (h.prepared entry hentry))
  | poll =>
      refine hnone _ ?_
      exact h.quiet ⟨⟨⟨rfl, rfl, fun _ => rfl⟩, hidle.1.sent⟩, hidle.2.nextStmt, hidle.2.query,
        hidle.2.nextHandle, hidle.2.prepared⟩ ⟨h.written.lt, h.written.own⟩ rfl
  | @release s hs =>
      refine hnone _ ?_
      have hquiet := hidle.closing (x.world.stmt s).stmt
      have hw := h.written.closing (x.world.stmt s).stmt
      refine ⟨⟨hw.lt, hw.own⟩, fun entry hentry => ?_, fun entry hentry => ?_,
        h.blocks.grows ⟨hquiet.2.nextStmt, hquiet.2.query, hquiet.2.nextHandle, hquiet.2.prepared⟩
          hquiet.executed⟩
      · exact Nat.lt_of_lt_of_eq (h.prepared entry hentry) hquiet.1.nextStmt.symm
      · exact Nat.lt_of_lt_of_eq (h.cached entry (List.mem_of_mem_filter hentry))
          hquiet.1.nextStmt.symm
  | stop =>
      refine hnone _ ?_
      exact h.quiet hidle h.written rfl
  | close =>
      refine hnone _ ?_
      exact h.quiet (hidle.closeAll _) (h.written.closeAll _) rfl

theorem Ordered.run {ops : List Operation} (h : Ordered tasks x)
    (hs : Transition.exec (Lifetime.step lib) x ops = some x') :
    Ordered (tasks ++ ops.filterMap Operation.task) x' := by
  induction ops generalizing x tasks with
  | nil =>
      cases hs
      rw [List.filterMap_nil, List.append_nil]
      exact h
  | cons op ops ih =>
      obtain ⟨x₁, hstep, hrest⟩ := Transition.exec_cons_iff.mp hs
      have hall := ih (h.step (steps_of_step hstep)) hrest
      rw [List.append_assoc] at hall
      cases ht : op.task with
      | none =>
          rw [ht] at hall
          rw [List.filterMap_cons_none ht]
          exact hall
      | some t =>
          rw [ht] at hall
          rw [List.filterMap_cons_some ht]
          exact hall

end Lifetime
end Handler

namespace State

variable {s s' : State} {l : Label} {d : DbId}

/-- A database stays connected until its context stops, without a task. -/
theorem left_effect (hl : s.Lifecycle) (he : s.Effect l s') (hlt : d < s.nextDb)
    (hphase : (s.db d).phase = .connected) :
    (s'.db d).phase = .connected ∨ (s.db d).tasks = [] := by
  have hconnected : (s.db d).isConnected = true ∧ (s.db d).stopped = false := by
    unfold Database.phase at hphase
    split_ifs at hphase with hc hstopped
    exact ⟨hc, Bool.eq_false_iff.mpr hstopped⟩
  by_cases hstop : l = .io d .stop
  · subst hstop
    cases he with
    | stay turn => exact .inl hphase
    | stop d work empty idle active => exact .inr (by simp [Database.tasks, empty, idle])
  · refine .inl ?_
    by_cases hdb : ∃ r, l = .dbConnect d r
    · obtain ⟨r, rfl⟩ := hdb
      cases he with
      | stay turn => exact hphase
      | dbConnected d calls idle =>
          rw [hconnected.1] at idle
          cases idle
      | dbConnectFailed d r calls idle failed can =>
          exact absurd can (hl.not_canRelease idle failed)
    · rw [phase_effect hl he (fun r heq => hdb ⟨r, heq⟩) hstop ?_ hlt]
      · exact hphase
      · intro stack _ top
        have hstopped := hl.stopping d (.inl (by simp [top]))
        rw [hconnected.2] at hstopped
        cases hstopped

end State

namespace Runtime

open Handler (Lib Lifetime Blocks)

variable {lib : Lib} {x x' x₁ x₂ : Runtime} {d : DbId} {ops : List Lifetime.Operation}
  {y : Lifetime}

/-- The executions on the connection of `d` are those of its operations. -/
theorem Sequence.blocks (h : x.Sequence lib d ops y) :
    Blocks (x.world d) (ops.filterMap Lifetime.Operation.task) := by
  have hblocks := ((Lifetime.ordered_create (x.credentials d)).run h.run).blocks
  rw [h.world] at hblocks
  have hsame : Handler.Grows (x.view d) (x.world d) ∧
      (x.world d).executed = (x.view d).executed := by
    unfold view
    split
    · exact ⟨.refl _, rfl⟩
    · exact ⟨⟨Nat.le_refl _, fun _ _ => rfl, Nat.le_refl _, fun _ _ _ => Iff.rfl⟩, rfl⟩
  exact hblocks.grows hsame.1 hsame.2

theorem prefix_of_posted (h : x'.posted d = x.posted d) :
    x.posted d <+: x'.posted d := h ▸ List.prefix_refl _

theorem post_posted (x : Runtime) (d d' : DbId) (t : Handler.Task) :
    x.posted d' <+: (x.post d t).posted d' := by
  by_cases hd : d' = d
  · subst hd
    show _ <+: Function.update x.posted d' _ d'
    rw [Function.update_self]
    split
    · exact List.prefix_append _ _
    · exact List.prefix_refl _
  · exact prefix_of_posted (Function.update_of_ne hd _ _)

theorem settle_posted (z : Runtime) (h : z.posted = x.posted) : (x.settle z).posted = x.posted := by
  unfold settle
  split
  · rfl
  · exact h

theorem touch_posted (l : Label) (z : Runtime) : (x.touch l z).posted = z.posted := by
  unfold touch
  split
  · split <;> rfl
  · rfl
  · rfl
  · rfl
  · rfl
  · split <;> rfl
  · rfl

theorem work_posted {fuel : ℕ} {rest : List Handler.Task} {t : Handler.Task}
    (h : x.work lib d fuel rest t = some x') : x'.posted = x.posted := by
  unfold work at h
  split at h
  · split at h
    · cases h
    · split at h
      · obtain ⟨s, -, rfl⟩ := control_eq_some h
        rfl
      · obtain ⟨s, -, rfl⟩ := control_eq_some h
        rfl
  · split at h
    · cases h
    · obtain ⟨s, -, rfl⟩ := control_eq_some h
      rfl

/-- What has been accepted stays accepted. -/
theorem step_posted {c : Call} (h : x.step lib c = some x') (hd : d < x.state.nextDb) :
    x.posted d <+: x'.posted d := by
  cases c with
  | create c callback junk =>
      obtain ⟨z, hz, rfl⟩ := Option.map_eq_some_iff.mp h
      obtain ⟨s, -, rfl⟩ := control_eq_some hz
      exact prefix_of_posted (Function.update_of_ne (Nat.ne_of_lt hd) _ _)
  | connect c callback junk initFails =>
      obtain ⟨⟨r, w⟩, -, hmap⟩ := Option.bind_eq_some_iff.mp h
      obtain ⟨z, hz, rfl⟩ := Option.map_eq_some_iff.mp hmap
      obtain ⟨s, -, rfl⟩ := control_eq_some hz
      exact prefix_of_posted (Function.update_of_ne (Nat.ne_of_lt hd) _ _)
  | dbConnect d' initFails =>
      unfold Runtime.step at h
      dsimp only at h
      split at h
      · obtain ⟨s, -, rfl⟩ := control_eq_some h
        exact List.prefix_refl _
      · obtain ⟨⟨r, w⟩, -, hmap⟩ := Option.bind_eq_some_iff.mp h
        obtain ⟨z, hz, rfl⟩ := Option.map_eq_some_iff.mp hmap
        obtain ⟨s, -, rfl⟩ := control_eq_some hz
        split <;> exact List.prefix_refl _
  | setOption d' =>
      obtain ⟨-, heq⟩ := Option.ite_none_right_eq_some.mp h
      cases heq
      exact List.prefix_refl _
  | setCharacterSet d' charset =>
      obtain ⟨-, heq⟩ := Option.ite_none_right_eq_some.mp h
      cases heq
      exact List.prefix_refl _
  | query d' query callback =>
      obtain ⟨z, hz, rfl⟩ := Option.map_eq_some_iff.mp h
      obtain ⟨s, -, rfl⟩ := control_eq_some hz
      split
      · exact List.prefix_refl _
      · exact post_posted { x with state := s } d' d _
  | prepare d' query =>
      obtain ⟨z, hz, rfl⟩ := Option.map_eq_some_iff.mp h
      obtain ⟨s, -, rfl⟩ := control_eq_some hz
      split
      · exact List.prefix_refl _
      · exact post_posted { x with state := s } d' d _
  | run sid binds callback =>
      obtain ⟨z, hz, rfl⟩ := Option.map_eq_some_iff.mp h
      obtain ⟨s, -, rfl⟩ := control_eq_some hz
      split
      · exact List.prefix_refl _
      · exact post_posted { x with state := s } _ d _
  | finish d' fuel =>
      obtain ⟨t, rest, z, -, hz, rfl⟩ := finished_step h
      exact prefix_of_posted (congrFun (settle_posted z (work_posted hz)) d)
  | other l =>
      obtain ⟨-, s, -, rfl⟩ := other_step h
      exact prefix_of_posted (congrFun (settle_posted _ (touch_posted l { x with state := s })) d)

/-- Between the two points of a run: as long as the database is connected it has a sequence, and
afterwards the calls that `x₁` had accepted are in it. -/
structure Drains (lib : Lib) (d : DbId) (x₁ x : Runtime) : Prop where
  settled : x.state.Settled
  lt : d < x.state.nextDb
  posted : x₁.posted d <+: x.posted d
  sequence : ∃ ops y, x.Sequence lib d ops y ∧
    ((x.state.db d).phase = .connected ∨ x₁.posted d <+: ops.filterMap Lifetime.Operation.task)

theorem Drains.step (h : Drains lib d x₁ x) {c : Call} (hstep : x.step lib c = some x') :
    Drains lib d x₁ x' := by
  obtain ⟨hs, hlt, hposted, ops, y, hseq, hdone⟩ := h
  have ha := step_advances hs hstep
  obtain ⟨more, y', hseq'⟩ := ha.simulated d hlt ops y hseq
  refine ⟨settled_step hs hstep, Nat.lt_of_lt_of_le hlt ha.nextDb,
    hposted.trans (step_posted hstep hlt), _, y', hseq', ?_⟩
  have hmore : ops.filterMap Lifetime.Operation.task <+: (ops ++ more).filterMap
      Lifetime.Operation.task := by
    rw [List.filterMap_append]
    exact List.prefix_append _ _
  obtain hphase | hdone := hdone
  · -- the database is connected before the step
    have hkept : (x'.state.db d).phase = .connected ∨ (x.state.db d).tasks = [] := by
      obtain heq | ⟨l, hl⟩ := step_state hstep
      · rw [heq]
        exact .inl hphase
      · obtain ⟨-, he | ⟨f, -, heq⟩⟩ := State.step_effect hl
        · exact State.left_effect hs.wf.lifecycle he hlt hphase
        · rw [heq]
          exact .inl hphase
    obtain hkept | hidle := hkept
    · exact .inl hkept
    · have hhandlers : x.handlers d = [] := by
        have htasks := hseq.tasks
        rw [hidle] at htasks
        exact List.forall₂_nil_left_iff.mp htasks
      have hlive : (x.state.db d).live = true := by
        unfold Database.phase at hphase
        split_ifs at hphase with hconnected
        exact (hs.wf.lifecycle.ok d).connected_live hconnected
      obtain ⟨dropped, hall, hnil⟩ := hseq.posted
      rw [hnil hlive, hhandlers, List.filter_nil, List.append_nil, List.append_nil] at hall
      rw [← hall] at hposted
      exact .inr (hposted.trans hmore)
  · exact .inr (hdone.trans hmore)

end Runtime
end Tmysql4
