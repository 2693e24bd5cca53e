import Mathlib.Algebra.BigOperators.Group.Finset.Basic
import Tmysql4.Handles
import Tmysql4.Waits

/-! # Control returns to the script

A method of the module runs callbacks, waits for io threads and goes on afterwards, and its
callbacks may have called further methods, so that many C++ functions are unfinished at once.
Every state has a `cost`: the handlers that wait, the results that are to be dispatched and the
functions that are to be finished.  `control_returns` says that the module comes to an end with
all of them: a callback that returns, a C++ function and an io thread pay with each step, and as
long as a function is unfinished one of them can make a step.

As in `wait_ends`, a handler that is running can end: every handler is taken to return. -/

namespace Tmysql4

/-- The script makes no call in the step. -/
def Label.isInternal : Label → Bool
  | .ret => true
  | .cpp => true
  | .io _ _ => true
  | _ => false

/-- Such a step that is not a reconnect inside a handler. -/
def Label.proceeds : Label → Bool
  | .ret => true
  | .cpp => true
  | .io _ i => i ≠ .reconnected
  | _ => false

theorem Label.isInternal_of_proceeds {l : Label} (h : l.proceeds = true) : l.isInternal = true := by
  cases l <;> first | rfl | cases h

theorem Label.proceeds_of_works {l : Label} {d : DbId} (h : l.works d = true) :
    l.proceeds = true := by
  cases l with
  | io d' i =>
      cases i with
      | reconnected => cases h
      | _ => rfl
  | _ => cases h

/-- The steps in which the function is finished, with the callbacks that it starts; a batch that
is still to be taken is paid for by its results. -/
def Frame.cost : Frame → ℕ
  | .lua => 1
  | .dispatch _ completed => 2 * completed.length + 1
  | .poll _ => 2
  | .connect _ => 1
  | .wait _ => 4
  | .release _ => 2
  | .destroy _ => 1
  | .prepare _ _ => 1

def Frame.costs : List Frame → ℕ
  | [] => 0
  | f :: stack => f.cost + costs stack

/-- A handler is taken, it ends, its action is handed out and the callback returns. -/
def Database.cost (db : Database) : ℕ :=
  4 * db.queue.length + 3 * db.running.toList.length + 2 * db.completedActions.pending.length +
    if db.stopped then 0 else 1

namespace State

open scoped BigOperators

variable {s s' : State} {l : Label} {d : DbId}

def stackCost (s : State) : ℕ := Frame.costs s.stack

def databaseCost (s : State) : ℕ := ∑ d ∈ Finset.range s.nextDb, (s.db d).cost

def cost (s : State) : ℕ := s.stackCost + s.databaseCost

/-! ### The costs of the databases -/

theorem databaseCost_congr (hnext : s'.nextDb = s.nextDb)
    (h : ∀ d, (s'.db d).cost = (s.db d).cost) : s'.databaseCost = s.databaseCost := by
  unfold databaseCost
  rw [hnext]
  exact Finset.sum_congr rfl fun d _ => h d

/-- One database changes. -/
theorem databaseCost_update (hnext : s'.nextDb = s.nextDb) (hd : d < s.nextDb)
    (h : ∀ d' ≠ d, (s'.db d').cost = (s.db d').cost) :
    s'.databaseCost + (s.db d).cost = s.databaseCost + (s'.db d).cost := by
  have hm : d ∈ Finset.range s.nextDb := Finset.mem_range.mpr hd
  have hrest : ∑ d' ∈ (Finset.range s.nextDb).erase d, (s'.db d').cost =
      ∑ d' ∈ (Finset.range s.nextDb).erase d, (s.db d').cost :=
    Finset.sum_congr rfl fun d' hd' => h d' (Finset.ne_of_mem_erase hd')
  have hbefore := Finset.add_sum_erase (Finset.range s.nextDb) (fun d => (s.db d).cost) hm
  have hafter := Finset.add_sum_erase (Finset.range s.nextDb) (fun d => (s'.db d).cost) hm
  unfold databaseCost
  rw [hnext, ← hbefore, ← hafter, hrest]
  omega

theorem cost_modify {f : Database → Database} (hf : (f (s.db d)).cost = (s.db d).cost) (d' : DbId) :
    ((s.modify d f).db d').cost = (s.db d').cost := by
  by_cases hd : d' = d
  · subst hd
    rw [modify_db_self]
    exact hf
  · rw [modify_db, if_neg hd]

theorem lt_of_cost (hl : s.Lifecycle) (h : (s.db d).cost ≠ 1) : d < s.nextDb := by
  by_contra hd
  rw [hl.fresh d (Nat.le_of_not_lt hd)] at h
  exact h rfl

/-! ### What an io thread does -/

theorem access_ok {k : Except Fault State} (h : s.access d k = .ok s') : k = .ok s' := by
  unfold access at h
  split at h
  · exact h
  · cases h

theorem accessTask_ok {task : Task} {k : Except Fault State} (h : s.accessTask task k = .ok s') :
    k = .ok s' := by
  unfold accessTask at h
  split at h
  · split at h
    · exact h
    · cases h
  · exact h

/-- What the io thread of `d` can do. -/
inductive IoEffect (s : State) (d : DbId) : IoStep → State → Prop
  | take (task : Task) (queue : List Task) (idle : (s.db d).running = none)
      (head : (s.db d).queue = task :: queue) :
      IoEffect s d .take (s.modify d fun db => { db with queue := queue, running := some task })
  | reconnected :
      IoEffect s d .reconnected (s.modify d fun db => { db with isPendingCallback := false })
  | finish (ok : Bool) (task : Task) (running : (s.db d).running = some task) :
      IoEffect s d (.finish ok) (s.finish d ok task)
  | stop (empty : (s.db d).queue = []) (idle : (s.db d).running = none)
      (work : (s.db d).ioWork = false)
      (active : (s.db d).stopped = false) :
      IoEffect s d .stop (s.modify d fun db => { db with stopped := true })

theorem io_effect {i : IoStep} (h : s.ioStep d i = some (.ok s')) : s.IoEffect d i s' := by
  cases i with
  | take =>
      simp only [ioStep] at h
      split at h
      · rename_i hready
        have hidle : (s.db d).running = none := by simp at hready; exact hready.2
        split at h
        · cases h
        · rename_i task queue head
          cases accessTask_ok (access_ok (Option.some.inj h))
          exact .take task queue hidle head
      · cases h
  | reconnected =>
      simp only [ioStep] at h
      split at h
      · cases access_ok (Option.some.inj h)
        exact .reconnected
      · cases h
  | finish ok =>
      simp only [ioStep] at h
      split at h
      · cases h
      · rename_i task running
        cases accessTask_ok (access_ok (Option.some.inj h))
        exact .finish ok task running
  | stop =>
      simp only [ioStep] at h
      split at h
      · rename_i hready
        cases h
        simp at hready
        exact .stop hready.1.1.2 hready.1.2 hready.1.1.1 hready.2
      · cases h

/-! ### Every step is paid for -/

/-- A step of an io thread. -/
theorem cost_io {i : IoStep} (hl : s.Lifecycle) (he : s.IoEffect d i s') :
    (if (Label.io d i).proceeds then 1 else 0) + s'.cost ≤ s.cost := by
  have hpaid : s'.stack = s.stack → s'.nextDb = s.nextDb →
      (∀ d' ≠ d, (s'.db d').cost = (s.db d').cost) →
      (if (Label.io d i).proceeds then 1 else 0) + (s'.db d).cost ≤ (s.db d).cost →
        (s.db d).cost ≠ 1 ∨ d < s.nextDb →
      (if (Label.io d i).proceeds then 1 else 0) + s'.cost ≤ s.cost := by
    intro hstack hnext hothers hle hne
    have hd : d < s.nextDb := hne.elim (lt_of_cost hl) id
    have hcost := databaseCost_update hnext hd hothers
    unfold cost stackCost
    rw [hstack]
    omega
  cases he with
  | take task queue idle head =>
      apply hpaid
      · rfl
      · rfl
      · intro d' hd'
        simp [hd']
      · simp [Label.proceeds, Database.cost, idle, head]
        omega
      · left
        simp [Database.cost, head]
        omega
  | reconnected =>
      have hcost : (s.modify d fun db => { db with isPendingCallback := false }).databaseCost =
          s.databaseCost := by
        apply databaseCost_congr
        · rfl
        · exact cost_modify rfl
      unfold cost stackCost
      rw [hcost]
      simp [Label.proceeds]
  | finish ok task running =>
      apply hpaid
      · cases task <;> simp [State.finish]
      · cases task <;> simp [State.finish]
      · intro d' hd'
        cases task <;> simp [State.finish, hd']
      · cases task <;> simp [Label.proceeds, Database.cost, State.finish, running] <;> omega
      · left
        simp [Database.cost, running]
        omega
  | stop empty idle work active =>
      apply hpaid
      · rfl
      · rfl
      · intro d' hd'
        simp [hd']
      · simp [Label.proceeds, Database.cost, active]
        omega
      · right
        by_contra hd
        rw [hl.fresh d (Nat.le_of_not_lt hd)] at work
        cases work

theorem turn_of_cpp (h : s.step .cpp = some s') : s.luaTurn ≠ true := by
  intro turn
  obtain ⟨-, hs⟩ : _ ∧ (s.action .cpp).map s.settle = some s' := by simpa [State.step] using h
  unfold luaTurn at turn
  cases hstack : s.stack with
  | nil => simp [action, hstack] at hs
  | cons f stack =>
      cases f with
      | lua => simp [action, advance, hstack] at hs
      | _ =>
          rw [hstack] at turn
          cases turn

/-- A step of the innermost C++ function. -/
theorem cost_cpp (hl : s.Lifecycle) (he : s.Effect .cpp s') (turn : s.luaTurn ≠ true) :
    s'.cost < s.cost := by
  have hkept : ∀ stack, s.stack = stack → Frame.costs s'.stack < Frame.costs stack →
      s'.nextDb = s.nextDb → (∀ d, (s'.db d).cost = (s.db d).cost) → s'.cost < s.cost := by
    intro stack hstack hlt hnext hcost
    have hsame := databaseCost_congr hnext hcost
    unfold cost stackCost
    rw [hsame, hstack]
    omega
  have hupdated : ∀ d stack, s.stack = stack → (s.db d).live = true → s'.nextDb = s.nextDb →
      (∀ d' ≠ d, (s'.db d').cost = (s.db d').cost) →
      Frame.costs s'.stack + (s'.db d).cost < Frame.costs stack + (s.db d).cost →
        s'.cost < s.cost := by
    intro d stack hstack live hnext hothers hlt
    have hcost := databaseCost_update hnext (hl.lt_of_live live) hothers
    unfold cost stackCost
    rw [hstack]
    omega
  cases he with
  | stay turn' => exact absurd turn' turn
  | dispatchDone d stack top =>
      apply hkept _ top
      · simp [Frame.costs, Frame.cost]
      · rfl
      · intro d'
        rfl
  | dispatchSkip d action rest stack top live quiet =>
      apply hkept _ top
      · simp [Frame.costs, Frame.cost, call]
      · rfl
      · intro d'
        rfl
  | dispatchStart d action rest stack top live loud callback =>
      apply hkept _ top
      · simp [Frame.costs, Frame.cost, call]
        omega
      · rfl
      · exact cost_modify (s := (s.pop stack).call (.dispatch d rest))
          (f := fun db => { db with started := db.started ++ [action.id] }) rfl
  | connectDone d stack top live =>
      apply hkept _ top
      · simp [Frame.costs, Frame.cost]
      · rfl
      · exact cost_modify (s := s.pop stack) rfl
  | prepareFailed d query stack top done =>
      apply hkept _ top
      · simp [Frame.costs, Frame.cost]
      · rfl
      · intro d'
        rfl
  | prepareDone d query sid stack top done live =>
      apply hkept _ top
      · simp [Frame.costs, Frame.cost]
      · simp
      · intro d'
        by_cases hd' : d' = d
        · subst hd'
          simp [Database.cost]
          split <;> simp
        · simp [hd']
  | release d stack top can =>
      apply hkept _ top
      · simp [Frame.costs, Frame.cost]
      · simp
      · intro d'
        by_cases hd' : d' = d
        · subst hd'
          simp [Database.cost]
        · simp [hd']
  | pollPop d stack top live =>
      apply hupdated d _ top live
      · simp
      · intro d' hd'
        simp [hd']
      · simp [Frame.costs, Frame.cost, Database.cost]
        omega
  | waitDone d stack top live stopped =>
      apply hupdated d _ top live
      · simp
      · intro d' hd'
        simp [hd']
      · simp [Frame.costs, Frame.cost, Database.cost]
        omega
  | destroy d stack top live =>
      apply hupdated d _ top live
      · simp
      · intro d' hd'
        simp [hd']
      · simp [Frame.costs, Frame.cost, Database.cost]
        omega

/-- A step in which the script makes no call. -/
theorem cost_internal (hl : s.Lifecycle) (internal : l.isInternal = true) (hs : s.step l = some s')
    (hf : s'.fault = none) : (if l.proceeds then 1 else 0) + s'.cost ≤ s.cost := by
  have haction := action_of_step hs hf
  cases l with
  | io d i => exact cost_io hl (io_effect haction)
  | cpp =>
      obtain ⟨-, he | ⟨f, -, rfl⟩⟩ := step_effect hs
      · have hlt := cost_cpp hl he (turn_of_cpp hs)
        rw [if_pos (show Label.cpp.proceeds = true from rfl)]
        omega
      · cases hf
  | ret =>
      simp only [action] at haction
      split at haction
      · rename_i stack top
        cases haction
        simp [Label.proceeds, cost, stackCost, databaseCost, top, Frame.costs, Frame.cost]
        omega
      · cases haction
  | _ => cases internal

/-! ### Runs without faults -/

/-- The conditions on a run: the module is used as its results require. -/
def WellUsed (s : State) (l : Label) : Prop := s.KeepsWorking l ∧ s.SafeTeardown l ∧ s.SafeRelease l

instance (s : State) (l : Label) : Decidable (s.WellUsed l) :=
  inferInstanceAs (Decidable (_ ∧ _ ∧ _))

/-- The invariant of such runs. -/
structure Intact (s : State) : Prop extends Working s where
  owned : s.Owned
  started : s.Started
  fault : s.fault = none

theorem intact_init : init.Intact := ⟨working_init, owned_init, started_init, rfl⟩

theorem intact_step (h : s.Intact) (hl : s.WellUsed l) (hs : s.step l = some s') : s'.Intact := by
  obtain ⟨hworking, hteardown, hrelease⟩ := hl
  obtain ⟨hnone, he | ⟨f, hc, -⟩⟩ := step_effect hs
  · exact ⟨working_effect h.toWorking hworking hs he, owned_effect h.owned h.wf hteardown he,
      started_effect h.started h.wf hrelease he, (effect_fault he).trans hnone⟩
  · -- every fault belongs to one of the conditions
    have hgone := crash_gone h.owned h.wf hteardown hc
    have hunstarted := crash_unstarted h.started h.wf hrelease hc
    cases f with
    | databaseGone d => cases hgone
    | statementGone sid => cases hgone
    | taskStatementGone sid => exact absurd rfl (crash_task h.tasked hc sid)
    | nullThread d => cases hunstarted
    | uninitialisedMySQL d => cases hunstarted

theorem wellUsed_of_internal (internal : l.isInternal = true) (s : State) : s.WellUsed l := by
  have hnot : l ≠ .getTable := by
    rintro rfl
    cases internal
  cases l with
  | ret => exact ⟨⟨trivial, trivial⟩, ⟨trivial, fun hl => absurd hl hnot⟩, trivial⟩
  | cpp => exact ⟨⟨trivial, trivial⟩, ⟨trivial, fun hl => absurd hl hnot⟩, trivial⟩
  | io d i => exact ⟨⟨trivial, trivial⟩, ⟨trivial, fun hl => absurd hl hnot⟩, trivial⟩
  | _ => cases internal

theorem intact_internal (h : s.Intact) (internal : l.isInternal = true) (hs : s.step l = some s') :
    s'.Intact ∧ (if l.proceeds then 1 else 0) + s'.cost ≤ s.cost := by
  have h' := intact_step h (wellUsed_of_internal internal s) hs
  exact ⟨h', cost_internal h.wf.lifecycle internal hs h'.fault⟩

/-- As long as a function is unfinished, the callback returns, the innermost function goes on, or
the io thread it waits for works. -/
theorem proceeds (h : s.Intact) (hstack : s.stack ≠ []) :
    ∃ l s', l.proceeds = true ∧ s.step l = some s' := by
  have hcpp : (s.step .cpp).isSome → ∃ l s', l.proceeds = true ∧ s.step l = some s' := by
    intro hsome
    obtain ⟨s', hs⟩ := Option.isSome_iff_exists.mp hsome
    exact ⟨.cpp, s', rfl, hs⟩
  have hwaiter : ∀ d, s.Waiter d → ∃ l s', l.proceeds = true ∧ s.step l = some s' := by
    intro d hwaiter
    by_cases hw : s.WaitsFor d
    · obtain ⟨l, s', hworks, hs⟩ := hw.works h.toWorking h.fault
      exact ⟨l, s', Label.proceeds_of_works hworks, hs⟩
    · exact hcpp (hwaiter.goes_on h.fault hw)
  cases top : s.stack with
  | nil => exact absurd top hstack
  | cons f stack =>
      cases f with
      | lua =>
          refine ⟨.ret, { s with stack := stack }, rfl, ?_⟩
          simp [State.step, action, h.fault, top, settle]
      | dispatch d completed =>
          apply hcpp
          cases completed <;> simp [State.step, action, advance, h.fault, top]
      | poll d =>
          apply hcpp
          simp [State.step, action, advance, h.fault, top]
      | connect d =>
          apply hcpp
          simp [State.step, action, advance, h.fault, top]
      | wait d => exact hwaiter d ⟨_, stack, top, .inl rfl⟩
      | release d =>
          apply hcpp
          simp [State.step, action, advance, h.fault, top]
          split <;> rfl
      | destroy d =>
          apply hcpp
          simp [State.step, action, advance, h.fault, top]
      | prepare d query => exact hwaiter d ⟨_, stack, top, .inr ⟨query, rfl⟩⟩

/-- **Control returns**, when the handlers and the callbacks do. Let the callbacks make no further
calls in a run that has used the module well so far.  However the threads are scheduled, nothing
faults, the number of the steps is bounded, and there is a next one until every function has been
finished.  So the script comes back. -/
theorem control_returns {tr : List Label} (hG : Transition.Along State.step WellUsed init tr)
    (h : Transition.exec State.step init tr = some s) :
    (∀ tr' s', (∀ l ∈ tr', l.isInternal = true) → Transition.exec State.step s tr' = some s' →
      s'.fault = none ∧ tr'.countP Label.proceeds ≤ s.cost ∧
      (s'.stack ≠ [] → ∃ l s'', l.proceeds = true ∧ s'.step l = some s'' ∧ s''.fault = none)) ∧
    ∃ tr' s', tr'.length ≤ s.cost ∧ (∀ l ∈ tr', l.proceeds = true) ∧
      Transition.exec State.step s tr' = some s' ∧ s'.stack = [] ∧ s'.fault = none := by
  have hintact : s.Intact :=
    Transition.exec_inv (fun _ _ _ hI hl hs => intact_step hI hl hs) intact_init hG h
  constructor
  · intro tr' s' hinternal hs'
    have halong : Transition.Along State.step (fun _ l => l.isInternal = true) s tr' :=
      .of_forall (fun l hl _ => hinternal l hl) s
    have hintact' : s'.Intact :=
      Transition.exec_inv (fun _ _ _ hI hl hs => (intact_internal hI hl hs).1) hintact halong hs'
    have hcount := Transition.countP_add_le (p := Label.proceeds)
      (fun _ _ _ hI hl hs => intact_internal hI hl hs) hintact halong hs'
    refine ⟨hintact'.fault, by omega, fun hstack => ?_⟩
    obtain ⟨l, s'', hproceeds, hs''⟩ := proceeds hintact' hstack
    exact ⟨l, s'', hproceeds, hs'',
      (intact_internal hintact' (Label.isInternal_of_proceeds hproceeds) hs'').1.fault⟩
  · have hprogress : ∀ s : State, s.Intact → ¬ (s.stack = [] ∧ s.fault = none) →
        ∃ l s', l.proceeds = true ∧ s.step l = some s' ∧ s'.Intact ∧ s'.cost < s.cost := by
      intro s hintact hnot
      have hstack : s.stack ≠ [] := fun hnil => hnot ⟨hnil, hintact.fault⟩
      obtain ⟨l, s', hproceeds, hs⟩ := proceeds hintact hstack
      obtain ⟨hintact', hle⟩ := intact_internal hintact (Label.isInternal_of_proceeds hproceeds) hs
      rw [if_pos hproceeds] at hle
      exact ⟨l, s', hproceeds, hs, hintact', by omega⟩
    obtain ⟨tr', s', hlen, htr', hs', hstack, hfault⟩ :=
      Transition.exists_exec_of_measure hprogress hintact
    exact ⟨tr', s', hlen, htr', hs', hstack, hfault⟩

/-- The last callback of a `Poll` disconnects the database with another query queued. -/
theorem control_returns_disconnect :
    ∃ s, Transition.exec State.step init
        [.connect false false .connected, .cpp, .query 0 true, .io 0 .take, .io 0 (.finish true),
          .poll 0, .cpp, .cpp, .query 0 true, .disconnect 0] = some s ∧
      s.stack = [.wait 0, .lua, .dispatch 0 []] ∧ (s.db 0).queue.length = 1 ∧
      ∃ tr' s', tr'.length ≤ s.cost ∧ (∀ l ∈ tr', l.proceeds = true) ∧
        Transition.exec State.step s tr' = some s' ∧ s'.stack = [] ∧ s'.fault = none := by
  obtain ⟨s, hs, hw⟩ := Option.map_eq_some_iff.mp (show (Transition.exec State.step init
        [.connect false false .connected, .cpp, .query 0 true, .io 0 .take, .io 0 (.finish true),
          .poll 0, .cpp, .cpp, .query 0 true, .disconnect 0]).map
            (fun s => (s.stack, (s.db 0).queue.length)) =
      some ([.wait 0, .lua, .dispatch 0 []], 1) by decide)
  obtain ⟨top, hqueue⟩ := Prod.mk.inj hw
  exact ⟨s, hs, top, hqueue, (control_returns (by decide) hs).2⟩

end State
end Tmysql4
