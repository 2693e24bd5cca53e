import Tmysql4.Barrier
import Tmysql4.Tasks

/-! # Waits come to an end

The Lua thread spins in two places: `Disconnect` until the context has stopped, and `lua_Prepare`
until its task has been completed.  Both wait for the io thread of one database.  `wait_ends` is
progress: the io thread always has a step to make while it is waited for, there is a bound on the
number of its steps, and after them the Lua thread goes on.

That a handler ends is a step of the state machine: every handler is taken to return.  The wait
for one that does not return is without an end; a `RunQuery` from which an exception of a
preparation escapes, or whose loop over the results goes on, is one. -/

namespace Tmysql4

/-- The io thread of `d` takes a handler, ends it or stops. -/
def Label.works (d : DbId) : Label → Bool
  | .io d' .take => d' = d
  | .io d' (.finish _) => d' = d
  | .io d' .stop => d' = d
  | _ => false

/-- The number of steps of this kind that are left: two for each queued handler. -/
def Database.work (db : Database) : ℕ :=
  2 * db.queue.length + db.running.toList.length + if db.stopped then 0 else 1

theorem Database.work_le (db : Database) : db.work ≤ 2 * db.tasks.length + 1 := by
  unfold work tasks
  rw [List.length_append]
  split <;> omega

@[simp] theorem Database.fire_work (db : Database) : db.fire.work = db.work := by simp [work]

namespace State

variable {s s' : State} {l : Label} {d : DbId} {stack : List Frame}

/-- The Lua thread spins until the io thread of `d` has made a step. -/
inductive WaitsFor (s : State) (d : DbId) : Prop
  | disconnect (stack : List Frame) (top : s.stack = .wait d :: stack) (live : (s.db d).live = true)
      (active : (s.db d).stopped = false) : WaitsFor s d
  | prepare (query : Bytes) (stack : List Frame) (top : s.stack = .prepare d query :: stack)
      (undone : s.waiter = none) : WaitsFor s d

/-- A function that waits for `d` is the innermost one. -/
def Waiter (s : State) (d : DbId) : Prop :=
  ∃ f stack, s.stack = f :: stack ∧ (f = .wait d ∨ ∃ query, f = .prepare d query)

theorem WaitsFor.waiter (h : s.WaitsFor d) : s.Waiter d := by
  cases h with
  | disconnect stack top => exact ⟨_, stack, top, .inl rfl⟩
  | prepare query stack top => exact ⟨_, stack, top, .inr ⟨query, rfl⟩⟩

theorem Waiter.not_turn (h : s.Waiter d) : s.luaTurn ≠ true := by
  obtain ⟨f, stack, top, rfl | ⟨query, rfl⟩⟩ := h
  · simp [luaTurn, top]
  · simp [luaTurn, top]

/-! ### The invariant -/

/-- The work guard is gone when `Disconnect` waits, and a
context that has not been started has nothing to do. -/
structure Drained (s : State) : Prop where
  reset : ∀ d stack, s.stack = .wait d :: stack → (s.db d).ioWork = false
  unconnected : ∀ d, (s.db d).isConnected = false → (s.db d).stopped = false → (s.db d).tasks = []

theorem drained_init : init.Drained := ⟨nofun, fun _ _ _ => rfl⟩

/-- `Disconnect` resets the work guard before it waits. -/
theorem reset_step (h : s.Drained) (hl : s.Lifecycle) (he : s.Effect l s') (d : DbId)
    (stack : List Frame) (top : s'.stack = .wait d :: stack) : (s'.db d).ioWork = false := by
  have hk := h.reset d stack
  have hturn : s.luaTurn = true → .wait d ∉ s.stack := fun turn hm => by
    simpa [Frame.suspended] using hl.suspended_of_turn turn _ hm
  have hbelow : ∀ f stack', s.stack = f :: stack' → .wait d ∉ stack' := fun f stack' htop hm => by
    simpa [Frame.suspended] using hl.suspended (.wait d) (by simpa [htop] using hm)
  cases he with
  | stay turn => exact hk top
  | connected | poll =>
      simp [Database.connectFrames] at top
      grind -linarith [Calls]
  | _ => simp at top ⊢ <;> grind -linarith [Calls, CallsStmt]

theorem unconnected_tasks_step (h : s.Drained) (hw : s.Wf) (he : s.Effect l s') (d : DbId)
    (idle : (s'.db d).isConnected = false) (active : (s'.db d).stopped = false) :
    (s'.db d).tasks = [] := by
  have hk := h.unconnected d
  have hstopping := hw.lifecycle.stopping d
  have hrunning := (hw.lifecycle.ok d).thread
  cases he with
  | stay turn => exact hk idle active
  | dbConnectFailed d' r calls idle' failed can =>
      exact absurd can (hw.lifecycle.not_canRelease idle' failed)
  | run sid callback calls =>
      have hconnected := (hw.statements.pointer sid calls.handle).connected
      simp [Database.tasks] at idle active hk ⊢
      grind -linarith
  | take d' task queue live thread active' idle' head =>
      have hthread := (hw.lifecycle.ok d').thread
      simp [Database.tasks] at idle active hk ⊢
      grind -linarith
  | _ =>
      simp [Database.tasks] at idle active hk ⊢
      grind -linarith [Calls, Database.construct, Database.fire_running, Database.fire_queue,
        Database.fire_stopped, Database.fire_isConnected]

theorem drained_step (h : s.Drained) (hw : s.Wf) (he : s.Effect l s') : s'.Drained :=
  ⟨reset_step h hw.lifecycle he, unconnected_tasks_step h hw he⟩

theorem Drained.faulted (h : s.Drained) (f : Option Fault) : { s with fault := f }.Drained :=
  ⟨h.reset, h.unconnected⟩

/-- The conditions on a run: the pointers of the queued tasks stay good, and nothing new is
prepared on a stopped context. -/
def KeepsWorking (s : State) (l : Label) : Prop := s.KeepsTasks l ∧ s.PreparesRunning l

instance (s : State) (l : Label) : Decidable (s.KeepsWorking l) :=
  inferInstanceAs (Decidable (_ ∧ _))

/-- The invariant of such runs. -/
structure Working (s : State) : Prop where
  wf : s.Wf
  tasked : s.Tasked
  served : s.Served
  drained : s.Drained

theorem working_init : init.Working := ⟨wf_init, tasked_init, nofun, drained_init⟩

theorem working_effect (h : s.Working) (hl : s.KeepsWorking l) (hs : s.step l = some s')
    (he : s.Effect l s') : s'.Working :=
  ⟨h.wf.step hs, tasked_effect h.tasked h.wf hl.1 he, served_step h.served h.wf hl.2 he,
    drained_step h.drained h.wf he⟩

theorem working_step (h : s.Working) (hl : s.KeepsWorking l) (hs : s.step l = some s') :
    s'.Working := by
  obtain ⟨-, he | ⟨f, -, rfl⟩⟩ := step_effect hs
  · exact working_effect h hl hs he
  · exact ⟨h.wf.step hs, ⟨h.tasked.live, h.tasked.stopped⟩, h.served, h.drained.faulted _⟩

theorem keepsWorking_io (io : l.isIo = true) (s : State) : s.KeepsWorking l := by
  cases l with
  | io d i => exact ⟨trivial, trivial⟩
  | _ => cases io

/-! ### Steps of a waiting state -/

/-- Only io threads make steps while the Lua thread waits. -/
theorem WaitsFor.io (h : s.WaitsFor d) (hs : s.step l = some s') : l.isIo = true := by
  have hturn : s.luaTurn = false := Bool.eq_false_iff.mpr h.waiter.not_turn
  obtain ⟨-, hs⟩ : _ ∧ (s.action l).map s.settle = some s' := by simpa [State.step] using hs
  cases l with
  | io d i => rfl
  | cpp =>
      cases h with
      | disconnect stack top live active => simp [action, advance, top, live, active] at hs
      | prepare query stack top undone => simp [action, advance, top, undone] at hs
  | ret =>
      obtain ⟨f, stack, top, rfl | ⟨query, rfl⟩⟩ := h.waiter
      · simp [action, top] at hs
      · simp [action, top] at hs
  | _ => simp [action, hturn] at hs

theorem stack_io (he : s.Effect l s') (io : l.isIo = true) : s'.stack = s.stack := by
  cases he with
  | take | reconnected | finish | created | stop => simp
  | stay turn => rfl
  | _ => cases io

/-- An io thread accesses live objects only. -/
theorem not_crash_io {f : Fault} {i : IoStep} (h : s.Working) : ¬ s.Crash (.io d i) f := by
  intro hc
  cases hc with
  | method d' handle dead =>
      rw [(h.wf.lifecycle.ok d').pointer_live handle] at dead
      cases dead
  | statement sid handle dead =>
      rw [(h.wf.statements.pointer sid handle).live] at dead
      cases dead
  | parent sid handle live dead =>
      rw [(h.wf.lifecycle.ok _).connected_live
        (h.wf.statements.pointer sid handle).connected] at dead
      cases dead
  | cached d' query sid calls connected cached dead =>
      rw [(h.wf.statements.cached d' connected).live _ (mem_of_lookup cached)] at dead
      cases dead
  | thread d' i dead busy =>
      obtain thread | running := busy
      · rw [(h.wf.lifecycle.ok d).thread] at thread
        rw [(h.wf.lifecycle.ok d).connected_live thread] at dead
        cases dead
      · rw [(h.wf.lifecycle.ok d).running_live running] at dead
        cases dead
  | task d' i sid action mem dead =>
      exact crash_task h.tasked (.task d i sid action mem dead) sid rfl

/-- A step of a waiting state. -/
theorem WaitsFor.step (h : s.WaitsFor d) (hi : s.Working) (hs : s.step l = some s') :
    s.Effect l s' ∧ s'.stack = s.stack ∧ s'.Working ∧ s'.fault = none := by
  have hio := h.io hs
  obtain ⟨hnone, he | ⟨f, hc, -⟩⟩ := step_effect hs
  · refine ⟨he, stack_io he hio, working_effect hi (keepsWorking_io hio s) hs he, ?_⟩
    rw [effect_fault he, hnone]
  · cases l with
    | io d i => exact absurd hc (not_crash_io hi)
    | _ => cases hio

/-- The work of `d` decreases when its io thread works, and nothing increases it meanwhile. -/
theorem work_io (he : s.Effect l s') (io : l.isIo = true) (turn : s.luaTurn ≠ true) :
    (if l.works d then 1 else 0) + (s'.db d).work ≤ (s.db d).work := by
  cases he with
  | take d' task queue live thread active idle head =>
      by_cases hd : d' = d
      · subst hd
        simp [Label.works, Database.work, idle, head]
        omega
      · simp [Label.works, hd, Ne.symm hd]
  | finish d' ok task action live running runs =>
      by_cases hd : d' = d
      · subst hd
        simp [Label.works, Database.work, running]
        omega
      · simp [Label.works, hd, Ne.symm hd]
  | created d' ok query live running =>
      by_cases hd : d' = d
      · subst hd
        simp [Label.works, Database.work, running]
        omega
      · simp [Label.works, hd, Ne.symm hd]
  | stop d' work empty idle active =>
      by_cases hd : d' = d
      · subst hd
        simp [Label.works, Database.work, active]
        omega
      · simp [Label.works, hd, Ne.symm hd]
  | reconnected d' task action live running runs =>
      by_cases hd : d' = d
      · subst hd
        simp [Label.works, Database.work]
      · simp [Label.works, Ne.symm hd]
  | stay turn' => exact absurd turn' turn
  | _ => cases io

/-- The context that is waited for runs, and it has a handler or it may stop. -/
theorem WaitsFor.busy (h : s.WaitsFor d) (hi : s.Working) :
    (s.db d).stopped = false ∧ ((s.db d).tasks = [] → (s.db d).ioWork = false) := by
  cases h with
  | disconnect stack top live active => exact ⟨active, fun _ => hi.drained.reset d stack top⟩
  | prepare query stack top undone =>
      refine ⟨hi.served d query stack top undone, fun hnil => ?_⟩
      -- the awaited task is there
      have hcreates := hi.wf.statements.creating d
      simp [Database.creates, hnil, awaited, top, undone] at hcreates

/-- A handler finds the statement it executes. -/
theorem accessTask_eq (h : s.Tasked) {task : Task} (hm : task ∈ (s.db d).tasks)
    (k : Except Fault State) : s.accessTask task k = k := by
  cases task with
  | runStatement sid action =>
      unfold accessTask
      exact if_pos (h.live d _ hm sid rfl).1
  | _ => rfl

/-- The io thread that is waited for has a step to make. -/
theorem WaitsFor.works (h : s.WaitsFor d) (hi : s.Working) (hf : s.fault = none) :
    ∃ l s', l.works d = true ∧ s.step l = some s' := by
  obtain ⟨hactive, hreset⟩ := h.busy hi
  have hstep : ∀ i k, s.ioStep d i = some k → s.step (.io d i) = some (s.settle k) := by
    intro i k hk
    simp [State.step, action, hf, hk]
  have hok := hi.wf.lifecycle.ok d
  cases hrunning : (s.db d).running with
  | some task =>
      have hlive : (s.db d).live = true := hok.running_live (by simp [hrunning])
      have hm : task ∈ (s.db d).tasks := by simp [Database.tasks, hrunning]
      refine ⟨.io d (.finish true), _, by simp [Label.works],
        hstep _ (.ok (s.finish d true task)) ?_⟩
      simp [ioStep, hrunning, access, hlive, accessTask_eq hi.tasked hm]
  | none =>
      cases hqueue : (s.db d).queue with
      | nil =>
          have hnil : (s.db d).tasks = [] := by simp [Database.tasks, hrunning, hqueue]
          refine ⟨.io d .stop, _, by simp [Label.works],
            hstep _ (.ok (s.modify d fun db => { db with stopped := true })) ?_⟩
          simp [ioStep, hreset hnil, hqueue, hrunning, hactive]
      | cons task queue =>
          have hm : task ∈ (s.db d).tasks := by simp [Database.tasks, hrunning, hqueue]
          have hconnected : (s.db d).isConnected = true := by
            by_contra hnot
            rw [hi.drained.unconnected d (by simpa using hnot) hactive] at hm
            cases hm
          have hthread : (s.db d).ioThread = true := hok.thread.trans hconnected
          refine ⟨.io d .take, _, by simp [Label.works],
            hstep _ (.ok (s.modify d fun db => { db with queue := queue, running := some task }))
              ?_⟩
          simp [ioStep, hqueue, hrunning, hactive, hthread, access, hok.connected_live hconnected,
            accessTask_eq hi.tasked hm]

/-- A function that waits for `d` goes on, or it still waits. -/
theorem Waiter.goes_on (h : s.Waiter d) (hf : s.fault = none) (hnot : ¬ s.WaitsFor d) :
    (s.step .cpp).isSome := by
  obtain ⟨f, stack, top, rfl | ⟨query, rfl⟩⟩ := h
  · have hdone : ¬ ((s.db d).live = true ∧ (s.db d).stopped = false) := fun ⟨live, active⟩ =>
      hnot (.disconnect stack top live active)
    simp [State.step, action, advance, top, hf, hdone]
  · cases hwaiter : s.waiter with
    | none => exact absurd (.prepare query stack top hwaiter) hnot
    | some r => cases r <;> simp [State.step, action, advance, top, hf, hwaiter]

/-! ### Whole runs -/

/-- **Waits come to an end**, when the handlers return. In a run that keeps the statements of its
tasks and prepares nothing new on a stopped context, let the Lua thread wait for `d`.  However
long it waits, whatever the other io threads do and whatever the outcome with which the handlers
return, the io thread of `d` has a next step, and it makes at most two for each handler and one
more.  Such steps alone let the Lua thread go on. -/
theorem wait_ends {tr : List Label} (hG : Transition.Along State.step KeepsWorking init tr)
    (h : Transition.exec State.step init tr = some s) (hf : s.fault = none) (hw : s.WaitsFor d) :
    (∀ tr' s', Transition.Along State.step (fun s _ => s.WaitsFor d) s tr' →
      Transition.exec State.step s tr' = some s' →
      tr'.countP (Label.works d) ≤ 2 * (s.db d).tasks.length + 1 ∧
      (s'.WaitsFor d → ∃ l s'', l.works d = true ∧ s'.step l = some s'' ∧ s''.fault = none)) ∧
    ∃ tr' s', tr'.length ≤ 2 * (s.db d).tasks.length + 1 ∧ (∀ l ∈ tr', l.works d = true) ∧
      Transition.exec State.step s tr' = some s' ∧ (s'.step .cpp).isSome := by
  have hinv : s.Working :=
    Transition.exec_inv (fun _ _ _ hI hl hs => working_step hI hl hs) working_init hG h
  have hle : (s.db d).work ≤ 2 * (s.db d).tasks.length + 1 := (s.db d).work_le
  constructor
  · intro tr' s' hwaits hs'
    have hkept : s'.Working ∧ s'.fault = none :=
      Transition.exec_inv (I := fun s => s.Working ∧ s.fault = none)
        (fun s l s' hI hw hs => (hw.step hI.1 hs).2.2) ⟨hinv, hf⟩ hwaits hs'
    constructor
    · have hcount := Transition.countP_add_le (p := Label.works d) (I := Working)
        (μ := fun s => (s.db d).work) (fun s l s' hI hw hs => ⟨(hw.step hI hs).2.2.1,
          work_io (hw.step hI hs).1 (hw.io hs) hw.waiter.not_turn⟩) hinv hwaits hs'
      omega
    · intro hw'
      obtain ⟨l, s'', hl, hs''⟩ := hw'.works hkept.1 hkept.2
      exact ⟨l, s'', hl, hs'', (hw'.step hkept.1 hs'').2.2.2⟩
  · have hprogress : ∀ s : State, (s.Working ∧ s.fault = none ∧ s.Waiter d) →
        ¬ (s.step .cpp).isSome →
        ∃ l s', l.works d = true ∧ s.step l = some s' ∧
          (s'.Working ∧ s'.fault = none ∧ s'.Waiter d) ∧ (s'.db d).work < (s.db d).work := by
      rintro s ⟨hi, hf, hwaiter⟩ hstuck
      have hw : s.WaitsFor d := by
        by_contra hnot
        exact hstuck (hwaiter.goes_on hf hnot)
      obtain ⟨l, s', hl, hs⟩ := hw.works hi hf
      obtain ⟨he, hstack, hi', hf'⟩ := hw.step hi hs
      have hwork : (if l.works d then 1 else 0) + (s'.db d).work ≤ (s.db d).work :=
        work_io he (hw.io hs) hw.waiter.not_turn
      rw [if_pos hl] at hwork
      obtain ⟨f, stack, top, hframe⟩ := hwaiter
      exact ⟨l, s', hl, hs, ⟨hi', hf', f, stack, hstack.trans top, hframe⟩, by omega⟩
    obtain ⟨tr', s', hlen, htr', hs', hgoes⟩ :=
      Transition.exists_exec_of_measure (μ := fun s : State => (s.db d).work) hprogress
        ⟨hinv, hf, hw.waiter⟩
    exact ⟨tr', s', by omega, htr', hs', hgoes⟩

/-- `Disconnect` waits with a handler running and another one queued, and `Prepare` with its own
task behind both. -/
theorem wait_ends_queued :
    (∃ s, Transition.exec State.step init
        [.connect false false .connected, .cpp, .query 0 true, .query 0 false, .io 0 .take,
          .disconnect 0] = some s ∧
      s.stack = [.wait 0] ∧
      ∃ tr' s', tr'.length ≤ 2 * (s.db 0).tasks.length + 1 ∧ (∀ l ∈ tr', l.works 0 = true) ∧
        Transition.exec State.step s tr' = some s' ∧ (s'.step .cpp).isSome) ∧
    ∃ s, Transition.exec State.step init
        [.connect false false .connected, .cpp, .query 0 true, .query 0 false, .io 0 .take,
          .prepare 0 [97]] = some s ∧
      s.stack = [.prepare 0 [97]] ∧
      ∃ tr' s', tr'.length ≤ 2 * (s.db 0).tasks.length + 1 ∧ (∀ l ∈ tr', l.works 0 = true) ∧
        Transition.exec State.step s tr' = some s' ∧ (s'.step .cpp).isSome := by
  constructor
  · obtain ⟨s, hs, hw⟩ := Option.map_eq_some_iff.mp (show (Transition.exec State.step init
          [.connect false false .connected, .cpp, .query 0 true, .query 0 false, .io 0 .take,
            .disconnect 0]).map
        (fun s => (s.fault, s.stack, (s.db 0).live, (s.db 0).stopped)) =
          some (none, [.wait 0], true, false) by decide)
    obtain ⟨hf, top, live, active⟩ : s.fault = none ∧ s.stack = [.wait 0] ∧ (s.db 0).live = true ∧
        (s.db 0).stopped = false := by simpa using hw
    exact ⟨s, hs, top, (wait_ends (by decide) hs hf (.disconnect [] top live active)).2⟩
  · obtain ⟨s, hs, hw⟩ := Option.map_eq_some_iff.mp (show (Transition.exec State.step init
          [.connect false false .connected, .cpp, .query 0 true, .query 0 false, .io 0 .take,
            .prepare 0 [97]]).map
        (fun s => (s.fault, s.stack, s.waiter)) = some (none, [.prepare 0 [97]], none) by decide)
    obtain ⟨hf, top, undone⟩ : s.fault = none ∧ s.stack = [.prepare 0 [97]] ∧
        s.waiter = none := by simpa using hw
    exact ⟨s, hs, top, (wait_ends (by decide) hs hf (.prepare [97] [] top undone)).2⟩

end State
end Tmysql4
