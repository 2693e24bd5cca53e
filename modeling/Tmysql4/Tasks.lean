import Tmysql4.Teardown

/-! # The statements of queued tasks

A `RunStatement` task holds a raw pointer to its statement.  `KeepsTasks` is the condition under
which that pointer stays good (`tasks_live`): a statement is finalized only when it has no task
left, and no run is accepted once the context has stopped. -/

namespace Tmysql4

/-- The statement a task executes. -/
def Task.stmt : Task → Option StmtId
  | .runStatement sid _ => some sid
  | _ => none

@[simp] theorem Task.stmt_runQuery (query : DatabaseAction) :
    (Task.runQuery query).stmt = none := rfl
@[simp] theorem Task.stmt_runStatement (sid : StmtId) (action : DatabaseAction) :
    (Task.runStatement sid action).stmt = some sid := rfl
@[simp] theorem Task.stmt_createStatement (query : Bytes) :
    (Task.createStatement query).stmt = none := rfl

namespace State

variable {s s' : State} {l : Label} {d : DbId}

/-- What keeps the pointers of queued tasks good. -/
def KeepsTasks (s : State) : Label → Prop
  | .stmtGc sid => (s.stmt sid).handle = .pointer →
      ∀ task ∈ (s.db (s.stmt sid).database).tasks, task.stmt ≠ some sid
  | .run sid _ => (s.stmt sid).handle = .pointer → (s.db (s.stmt sid).database).stopped = false
  | _ => True

instance (s : State) (l : Label) : Decidable (s.KeepsTasks l) := by
  apply Label.casesOn (motive := fun l => Decidable (s.KeepsTasks l)) l <;>
    intros <;> dsimp only [KeepsTasks] <;> infer_instance

/-- The tasks of a database execute live statements of that database, and a stopped database has no
task that executes one. -/
structure Tasked (s : State) : Prop where
  live : ∀ d, ∀ task ∈ (s.db d).tasks, ∀ sid, task.stmt = some sid →
    (s.stmt sid).live = true ∧ (s.stmt sid).database = d
  stopped : ∀ d, (s.db d).stopped = true → ∀ task ∈ (s.db d).tasks, task.stmt = none

/-- A task of a database has been there before, executes no statement, or is posted by `Run`. -/
theorem mem_tasks {task : Task} (hl : s.Lifecycle) (he : s.Effect l s')
    (hm : task ∈ (s'.db d).tasks) : task ∈ (s.db d).tasks ∨ task.stmt = none ∨
      ∃ sid callback, l = .run sid callback ∧ s.CallsStmt sid ∧ (s.stmt sid).database = d ∧
        task.stmt = some sid := by
  cases he with
  | stay turn => exact .inl hm
  | dbConnectFailed d r calls idle failed can => exact absurd can (hl.not_canRelease idle failed)
  | query d' callback calls connected =>
      by_cases hd : d = d'
      · subst hd
        simp [Database.tasks] at hm ⊢
        grind [Task.stmt_runQuery]
      · exact .inl (by simpa [hd] using hm)
  | run sid callback calls =>
      by_cases hd : d = (s.stmt sid).database
      · subst hd
        simp [Database.tasks] at hm ⊢
        grind [Task.stmt_runStatement]
      · exact .inl (by simpa [hd] using hm)
  | prepare d' query calls connected uncached =>
      by_cases hd : d = d'
      · subst hd
        simp [Database.tasks] at hm ⊢
        grind [Task.stmt_createStatement]
      · exact .inl (by simpa [hd] using hm)
  | _ =>
      simp [Database.tasks] at hm ⊢
      grind [Database.construct, Database.fire_running, Database.fire_queue]

/-- A context stops when it has no task left. -/
theorem stopped_effect (he : s.Effect l s') (hstop : (s'.db d).stopped = true) :
    (s.db d).stopped = true ∨ (l = .io d .stop ∧ (s.db d).tasks = []) := by
  cases he with
  | stay turn => exact .inl hstop
  | stop d' work empty idle active =>
      by_cases hd : d = d'
      · subst hd
        exact .inr ⟨rfl, by simp [Database.tasks, empty, idle]⟩
      · exact .inl (by simpa [hd] using hstop)
  | _ =>
      simp at hstop ⊢
      grind [Database.construct, Database.fire_stopped]

theorem tasked_effect (h : s.Tasked) (hw : s.Wf) (hl : s.KeepsTasks l) (he : s.Effect l s') :
    s'.Tasked := by
  constructor
  · intro d task hm sid hsid
    obtain ⟨hlive, hdb⟩ : (s.stmt sid).live = true ∧ (s.stmt sid).database = d := by
      obtain hm | hnone | ⟨sid', callback, -, calls, hdb, hsid'⟩ := mem_tasks hw.lifecycle he hm
      · exact h.live d task hm sid hsid
      · rw [hnone] at hsid
        cases hsid
      · rw [hsid'] at hsid
        cases hsid
        exact ⟨calls.live, hdb⟩
    obtain ⟨-, hdb', -⟩ := stmt_effect hw.lifecycle he (hw.statements.lt_of_live hlive)
    refine ⟨(live_effect hw.lifecycle he hlive).resolve_right fun hr => ?_, hdb'.trans hdb⟩
    -- the task was there before: a call of `Run` releases no statement
    have hm : task ∈ (s.db d).tasks := by
      obtain hm | hnone | ⟨sid', callback, rfl, -⟩ := mem_tasks hw.lifecycle he hm
      · exact hm
      · rw [hnone] at hsid
        cases hsid
      · cases hr
    cases hr with
    | stmtGc calls => exact hl calls.handle task (hdb ▸ hm) hsid
    | release d' stack top can mem =>
        obtain ⟨e, he, rfl⟩ := List.mem_map.mp mem
        have hcached := hw.statements.cached d'
          (by rw [← (hw.lifecycle.ok d').thread, can.ioThread])
        rw [hcached.database e he] at hdb
        have hstopped := hw.lifecycle.stopping d' (.inl (by simp [top]))
        rw [h.stopped d' hstopped task (hdb ▸ hm)] at hsid
        cases hsid
  · intro d hstop task hm
    obtain hm | hnone | ⟨sid, callback, rfl, calls, hdb, -⟩ := mem_tasks hw.lifecycle he hm
    · obtain hstop | ⟨-, hnil⟩ := stopped_effect he hstop
      · exact h.stopped d hstop task hm
      · rw [hnil] at hm
        cases hm
    · exact hnone
    · obtain hstop | ⟨hl', -⟩ := stopped_effect he hstop
      · rw [← hdb, hl calls.handle] at hstop
        cases hstop
      · cases hl'

theorem tasked_init : init.Tasked := ⟨nofun, nofun⟩

/-- An io thread does not meet a deleted statement. -/
theorem crash_task {f : Fault} (h : s.Tasked) (hc : s.Crash l f)
    (sid : StmtId) : f ≠ .taskStatementGone sid := by
  cases hc with
  | dbConnect d r f calls idle failed fault => cases fault <;> simp
  | release d stack f top live fault => cases fault <;> simp
  | task d i sid action mem dead =>
      have hmem : .runStatement sid action ∈ (s.db d).tasks := by
        rcases mem with mem | mem
        · exact List.mem_append_right _ mem
        · simp [Database.tasks, mem]
      rw [(h.live d _ hmem sid rfl).1] at dead
      cases dead
  | _ => simp

/-- The invariant of runs that keep their tasks. -/
structure TasksKept (s : State) : Prop where
  wf : s.Wf
  tasked : s.Tasked
  fault : ∀ sid, s.fault ≠ some (.taskStatementGone sid)

theorem tasksKept_step (h : s.TasksKept) (hl : s.KeepsTasks l)
    (hs : s.step l = some s') : s'.TasksKept := by
  obtain ⟨hnone, he | ⟨f, hc, rfl⟩⟩ := step_effect hs
  · exact ⟨h.wf.step hs, tasked_effect h.tasked h.wf hl he, by rw [effect_fault he, hnone]; nofun⟩
  · refine ⟨h.wf.step hs, ⟨h.tasked.live, h.tasked.stopped⟩, fun sid hsid => ?_⟩
    cases hsid
    exact crash_task h.tasked hc sid rfl

/-- **No task outlives its statement.** In a run that finalizes only statements without tasks and
accepts no run after the context has stopped, every queued or running `RunStatement` task refers
to a live statement, and no io thread executes a deleted one. -/
theorem tasks_live {s : State} {tr : List Label}
    (hG : Transition.Along State.step KeepsTasks init tr)
    (h : Transition.exec State.step init tr = some s) :
    (∀ d sid action, .runStatement sid action ∈ (s.db d).tasks → (s.stmt sid).live = true) ∧
      ∀ sid, s.fault ≠ some (.taskStatementGone sid) := by
  have hkept : s.TasksKept := Transition.exec_inv (fun _ _ _ hI hl hs => tasksKept_step hI hl hs)
    ⟨wf_init, tasked_init, nofun⟩ hG h
  exact ⟨fun d sid action hm => (hkept.tasked.live d _ hm sid rfl).1, hkept.fault⟩

/-- The finalizer of a statement with a queued run leaves the task behind. -/
theorem tasks_live_fails :
    (Transition.exec State.step init
      [.connect false false .connected, .cpp, .prepare 0 [1], .io 0 .take, .io 0 (.finish true),
        .cpp, .run 0 true, .stmtGc 0]).map (fun s => ((s.db 0).tasks, (s.stmt 0).live)) =
      some ([.runStatement 0 ⟨0, true⟩], false) := by decide

/-- A statement is finalized while another one has a run that waits and a run that is executed. -/
theorem tasks_live_runThenGc :
    ∃ s, Transition.exec State.step init
        [.connect false false .connected, .cpp, .prepare 0 [1], .io 0 .take, .io 0 (.finish true),
          .cpp, .prepare 0 [2], .io 0 .take, .io 0 (.finish true), .cpp, .run 0 true, .run 0 false,
            .io 0 .take, .stmtGc 1] =
          some s ∧
      (s.db 0).running = some (.runStatement 0 ⟨0, true⟩) ∧
        (s.db 0).queue = [.runStatement 0 ⟨1, false⟩] ∧
      (s.stmt 1).live = false ∧ (s.stmt 0).live = true ∧ s.fault ≠ some (.taskStatementGone 0) := by
  have hrun : (Transition.exec State.step init
        [.connect false false .connected, .cpp, .prepare 0 [1], .io 0 .take, .io 0 (.finish true),
          .cpp, .prepare 0 [2], .io 0 .take, .io 0 (.finish true), .cpp, .run 0 true, .run 0 false,
            .io 0 .take, .stmtGc 1]).map
      (fun s => ((s.db 0).running, (s.db 0).queue, (s.stmt 1).live)) =
      some (some (.runStatement 0 ⟨0, true⟩), [.runStatement 0 ⟨1, false⟩], false) := by decide
  obtain ⟨s, hs, hend⟩ := Option.map_eq_some_iff.mp hrun
  obtain ⟨hrunning, hqueue, hgone⟩ := by simpa only [Prod.mk.injEq] using hend
  obtain ⟨hlive, hfault⟩ := tasks_live (by decide) hs
  exact ⟨s, hs, hrunning, hqueue, hgone, hlive 0 0 ⟨1, false⟩ (by simp [Database.tasks, hqueue]),
    hfault 0⟩

end State
end Tmysql4
