import Tmysql4.Teardown

/-! # Waiting in `lua_Prepare`

`lua_Prepare` posts a task and spins until it has been completed.  Since the Lua thread is the
only one that posts, the task is the last of its queue, and the io thread is idle once it is
completed: what was accepted before has been pushed by then, and the cache is touched by one
thread at a time (`prepare_barrier`).  The wait comes to an end only when the context is still
running, which holds in runs that prepare no new statement on a stopped context
(`prepare_waits_running`). -/

namespace Tmysql4

namespace State

variable {s s' : State} {l : Label} {d : DbId} {query : Bytes} {stack : List Frame}

/-! ### The barrier -/

/-- The task of a waiting `lua_Prepare` is the last of its queue, and with the task completed the io
thread is idle. -/
structure Barrier (s : State) : Prop where
  awaited : ∀ d query stack, s.stack = .prepare d query :: stack → s.waiter = none →
    ∃ tasks, (s.db d).tasks = tasks ++ [.createStatement query]
  completed : ∀ d query stack r, s.stack = .prepare d query :: stack → s.waiter = some r →
    (s.db d).tasks = []

theorem barrier_init : init.Barrier := ⟨nofun, nofun⟩

/-- A task that creates the awaited statement is alone. -/
theorem Barrier.alone (h : s.Barrier) (hw : s.Statements) {query' : Bytes} {queue : List Task}
    (top : s.stack = .prepare d query :: stack) (done : s.waiter = none)
    (htasks : (s.db d).tasks = .createStatement query' :: queue) : queue = [] := by
  obtain ⟨tasks, heq⟩ := h.awaited d query stack top done
  have hcreate := hw.creating d
  rw [Database.creates, heq] at hcreate
  rw [htasks] at heq
  cases tasks with
  | nil => exact (List.cons.inj heq).2
  | cons task tasks =>
      obtain ⟨rfl, -⟩ := List.cons.inj heq
      simp [State.awaited, top, done, Task.created] at hcreate

/-- A statement is only created for the database that `lua_Prepare` waits on. -/
theorem creating_top (hw : s.Statements) {query' : Bytes}
    (running : (s.db d).running = some (.createStatement query')) :
    ∃ query stack, s.stack = .prepare d query :: stack ∧ s.waiter = none := by
  obtain hnil | ⟨query, stack, top, done, -⟩ := Statements.awaited_cases s d
  · have := hw.creating d
    rw [hnil] at this
    simp [Database.creates, Database.tasks, running, Task.created] at this
  · exact ⟨query, stack, top, done⟩

/-- What a step of an io thread does to the tasks of a database that `lua_Prepare` waits on. -/
theorem tasks_io (hw : s.Statements) (he : s.Effect l s') (io : l.isIo = true)
    (top : s.stack = .prepare d query :: stack) :
    (s'.waiter = s.waiter ∧ ((s'.db d).tasks = (s.db d).tasks ∨
      ∃ task action, task.action = some action ∧ (s.db d).tasks = task :: (s'.db d).tasks)) ∨
    (s.waiter = none ∧ s'.waiter ≠ none ∧
      ∃ query, (s.db d).tasks = .createStatement query :: (s'.db d).tasks) := by
  cases he with
  | take d' task queue live thread active idle head =>
      refine .inl ⟨rfl, .inl ?_⟩
      by_cases hd : d = d'
      · subst hd
        simp [Database.tasks, idle, head]
      · simp [hd]
  | reconnected d' task action live running runs | stop d' work empty idle active =>
      refine .inl ⟨rfl, .inl ?_⟩
      by_cases hd : d = d'
      · subst hd
        simp [Database.tasks]
      · simp [hd]
  | finish d' ok task action live running runs =>
      refine .inl ⟨rfl, ?_⟩
      by_cases hd : d = d'
      · subst hd
        exact .inr ⟨task, action, runs, by simp [Database.tasks, running]⟩
      · exact .inl (by simp [hd])
  | created d' ok query' live running =>
      obtain ⟨query, stack, top', done⟩ := creating_top hw running
      rw [top] at top'
      cases top'
      exact .inr ⟨done, by simp, query', by simp [Database.tasks, running]⟩
  | stay turn => exact .inl ⟨rfl, .inl rfl⟩
  | _ => cases io

theorem barrier_step (h : s.Barrier) (hw : s.Wf) (he : s.Effect l s') : s'.Barrier := by
  refine ⟨fun d query stack top done => ?_, fun d query stack r top done => ?_⟩
  · obtain ⟨htop, io⟩ | ⟨-, -, -, -, rfl⟩ := prepare_top hw.lifecycle he top
    · obtain ⟨hwaiter, htasks⟩ | ⟨-, hdone, -⟩ := tasks_io hw.statements he io htop
      · obtain ⟨tasks, heq⟩ := h.awaited d query stack htop (hwaiter.symm.trans done)
        obtain hsame | ⟨task, action, ha, hhead⟩ := htasks
        · exact ⟨tasks, hsame.trans heq⟩
        · -- the head of the queue was an action, so it was not the awaited task
          rw [hhead] at heq
          cases tasks with
          | nil =>
              cases (List.cons.inj heq).1
              cases ha
          | cons task tasks => exact ⟨tasks, (List.cons.inj heq).2⟩
      · exact absurd done hdone
    · exact ⟨(s.db d).tasks, by simp [Database.tasks]⟩
  · obtain ⟨htop, io⟩ | ⟨-, -, -, -, rfl⟩ := prepare_top hw.lifecycle he top
    · obtain ⟨hwaiter, htasks⟩ | ⟨hnone, -, query', hhead⟩ := tasks_io hw.statements he io htop
      · have hnil := h.completed d query stack r htop (hwaiter.symm.trans done)
        obtain hsame | ⟨task, action, -, hhead⟩ := htasks
        · exact hsame.trans hnil
        · rw [hnil] at hhead
          cases hhead
      · exact h.alone hw.statements htop hnone hhead
    · cases done

theorem Barrier.faulted (h : s.Barrier) (f : Option Fault) : { s with fault := f }.Barrier :=
  ⟨h.awaited, h.completed⟩

/-! ### Accepted actions -/

/-- The step posts a handler for `action` to `d`: a `Query` or `Run` call is accepted. -/
def Posts (s s' : State) (d : DbId) (action : DatabaseAction) : Prop :=
  ∃ task, task.action = some action ∧ (s'.db d).queue = (s.db d).queue ++ [task]

/-- The action is on its way to the io thread, or has been pushed to `m_completedActions`. -/
def Holds (s : State) (d : DbId) (action : DatabaseAction) : Prop :=
  (∃ task ∈ (s.db d).tasks, task.action = some action) ∨ action ∈ (s.db d).completedActions.history

/-- An accepted action is not lost while the database is alive. -/
structure Keeps (d : DbId) (action : DatabaseAction) (s : State) : Prop where
  known : d < s.nextDb
  holds : (s.db d).live = true → s.Holds d action

theorem keeps_step {action : DatabaseAction} (h : s.Keeps d action) (hw : s.Wf)
    (he : s.Effect l s') : s'.Keeps d action := by
  obtain ⟨hlt, hholds⟩ := h
  cases he with
  | stay turn => exact ⟨hlt, hholds⟩
  | dbConnectFailed d' r calls idle failed can =>
      exact absurd can (hw.lifecycle.not_canRelease idle failed)
  | finish d' ok task action' live running runs =>
      refine ⟨hlt, fun hl => ?_⟩
      have hholds := hholds (by simp at hl; grind -linarith)
      by_cases hd : d = d'
      · subst hd
        simp [Holds, Database.tasks, running] at hholds ⊢
        grind -linarith
      · simpa [Holds, hd] using hholds
  | created d' ok query' live running =>
      refine ⟨by simpa using hlt, fun hl => ?_⟩
      have hholds := hholds (by simp at hl; grind -linarith)
      by_cases hd : d = d'
      · subst hd
        simp [Holds, Database.tasks, running, Task.action] at hholds ⊢
        grind -linarith
      · simpa [Holds, hd] using hholds
  | take d' task queue live thread active idle head =>
      refine ⟨hlt, fun hl => ?_⟩
      have hholds := hholds (by simp at hl; grind -linarith)
      by_cases hd : d = d'
      · subst hd
        simpa [Holds, Database.tasks, idle, head] using hholds
      · simpa [Holds, hd] using hholds
  | _ =>
      constructor
      · simp
        grind -linarith
      · simp [Holds, Database.tasks] at hholds ⊢
        grind -linarith [Database.fire_live, Database.fire_running, Database.fire_queue,
          Database.fire_completedActions, BatchQueue.history_popAll]

/-! ### The statements in the cache -/

/-- No finalizer of a statement runs. -/
def KeepsStatements (_ : State) (l : Label) : Prop := ∀ sid, l ≠ .stmtGc sid

instance (s : State) (l : Label) : Decidable (s.KeepsStatements l) := by
  apply Label.casesOn (motive := fun l => Decidable (s.KeepsStatements l)) l
  case stmtGc => exact fun sid => isFalse fun h => h sid rfl
  all_goals
    intros
    exact isTrue fun sid h => by cases h

/-- The statement has been created, and `lua_Prepare` is about to insert it. -/
def Inserting (s : State) (sid : StmtId) : Prop :=
  ∃ query stack, s.stack = .prepare (s.stmt sid).database query :: stack ∧
    s.waiter = some (some sid)

/-- Every statement created so far is in the cache of its database, or about to be inserted. -/
structure Complete (s : State) : Prop where
  known : ∀ sid < s.nextStmt, (s.stmt sid).database < s.nextDb
  cached : ∀ sid < s.nextStmt,
    ((s.stmt sid).query, sid) ∈ (s.db (s.stmt sid).database).preparedStatements ∨ s.Inserting sid

theorem complete_init : init.Complete := ⟨nofun, nofun⟩

/-- A statement that has been created is about to be inserted. -/
theorem inserting_created (hw : s.Wf) {query' : Bytes}
    (running : (s.db d).running = some (.createStatement query')) :
    (s.statementCreated d query' true).Inserting s.nextStmt := by
  obtain ⟨query, stack, top, -⟩ := creating_top hw.statements running
  exact ⟨query, stack, by simpa using top, by simp⟩

/-- `lua_Prepare` inserts the statement and returns it, unless an io thread makes the step. -/
theorem inserting_effect {sid : StmtId} (h : s.Inserting sid) (hw : s.Wf) (he : s.Effect l s') :
    s'.Inserting sid ∨ (((s'.stmt sid).query, sid) ∈
      (s'.db (s'.stmt sid).database).preparedStatements ∧ (s'.stmt sid).handle = .pointer) := by
  obtain ⟨query, stack, top, done⟩ := h
  generalize hdatabase : (s.stmt sid).database = d at top
  have hwait := hw.statements.waiting d query stack top
  have hsid := hwait.created sid done
  have huncached := hwait.uncached
  obtain ⟨-, hdb, -⟩ := stmt_effect hw.lifecycle he (hw.statements.lt_of_live (by rw [hsid]))
  obtain ⟨io, hstack⟩ | ⟨hfailed, -⟩ | ⟨sid', hcreated, rfl⟩ := prepare_effect he top
  · obtain ⟨hwaiter, -⟩ | ⟨hnone, -⟩ := tasks_io hw.statements he io top
    · exact .inl ⟨query, stack, by rw [hstack, hdb, hdatabase, top], hwaiter.trans done⟩
    · rw [done] at hnone
      cases hnone
  · rw [done] at hfailed
    cases hfailed
  · rw [done] at hcreated
    cases hcreated
    exact .inr ⟨by simp [hsid, huncached], by simp [hsid]⟩

theorem complete_step (h : s.Complete) (hw : s.Wf) (hl : s.KeepsStatements l) (he : s.Effect l s') :
    s'.Complete := by
  constructor
  · intro sid hsid
    obtain hlt | ⟨d, query, live, running, rfl, rfl⟩ := created_effect he hsid
    · rw [(stmt_effect hw.lifecycle he hlt).2.1]
      exact Nat.lt_of_lt_of_le (h.known sid hlt) (nextDb_effect he)
    · simpa using hw.lifecycle.lt_of_live live
  · intro sid hsid
    obtain hlt | ⟨d, query, live, running, rfl, rfl⟩ := created_effect he hsid
    · obtain hm | hi := h.cached sid hlt
      · obtain ⟨-, hdb, hquery⟩ := stmt_effect hw.lifecycle he hlt
        rw [hdb, hquery]
        exact .inl (entry_effect hw.lifecycle he hl (h.known sid hlt) hm)
      · obtain hi | ⟨hm, -⟩ := inserting_effect hi hw he
        · exact .inr hi
        · exact .inl hm
    · exact .inr (inserting_created hw running)

theorem Complete.faulted (h : s.Complete) (f : Option Fault) : { s with fault := f }.Complete :=
  ⟨h.known, fun sid hsid => h.cached sid hsid⟩

/-! ### The whole run -/

/-- The invariant of runs without statement finalizers. -/
structure Synchronised (s : State) : Prop where
  wf : s.Wf
  barrier : s.Barrier
  complete : s.Complete

theorem synchronised_init : init.Synchronised := ⟨wf_init, barrier_init, complete_init⟩

theorem synchronised_step (h : s.Synchronised) (hl : s.KeepsStatements l)
    (hs : s.step l = some s') : s'.Synchronised := by
  obtain ⟨-, he | ⟨f, -, rfl⟩⟩ := step_effect hs
  · exact ⟨h.wf.step hs, barrier_step h.barrier h.wf he, complete_step h.complete h.wf hl he⟩
  · exact ⟨h.wf.step hs, h.barrier.faulted _, h.complete.faulted _⟩

/-- With no task the io thread can only stop. -/
theorem io_idle (h : (s.db d).tasks = []) {i : IoStep} (hs : s.step (.io d i) = some s') :
    i = .stop := by
  obtain ⟨hrunning, hqueue⟩ := List.append_eq_nil_iff.mp h
  rw [Option.toList_eq_nil_iff] at hrunning
  obtain ⟨-, hs⟩ : _ ∧ (s.action (.io d i)).map s.settle = some s' := by simpa [step] using hs
  cases i with
  | stop => rfl
  | _ => simp [action, ioStep, hrunning, hqueue] at hs

/-- A running handler does not see the cache change. -/
theorem preparedStatements_step (h : s.Synchronised) (hl : s.KeepsStatements l)
    (hs : s.step l = some s') {task : Task} (running : (s.db d).running = some task) :
    (s'.db d).preparedStatements = (s.db d).preparedStatements := by
  obtain ⟨-, he | ⟨f, -, rfl⟩⟩ := step_effect hs
  · have hlt := h.wf.lifecycle.lt_of_live ((h.wf.lifecycle.ok d).running_live (by simp [running]))
    cases he with
    | stay turn => rfl
    | dbConnectFailed d' r calls idle failed can =>
        exact absurd can (h.wf.lifecycle.not_canRelease idle failed)
    | stmtGc sid calls => exact absurd rfl (hl sid)
    | prepareDone d' query sid stack top done live =>
        have hd : d ≠ d' := by
          rintro rfl
          have := h.barrier.completed d query stack _ top done
          simp [Database.tasks, running] at this
        simp [hd]
    | _ => simp <;> grind -linarith [Database.fire_preparedStatements]
  · rfl

theorem preparedStatements_exec (h : s.Synchronised) {task : Task} {tr : List Label}
    (hG : Transition.Along State.step
      (fun s l => (s.db d).running = some task ∧ s.KeepsStatements l) s tr)
    (hs : Transition.exec State.step s tr = some s') :
    (s'.db d).preparedStatements = (s.db d).preparedStatements := by
  have hinv : s'.Synchronised ∧ (s'.db d).preparedStatements = (s.db d).preparedStatements :=
    Transition.exec_inv (I := fun s₁ => s₁.Synchronised ∧
      (s₁.db d).preparedStatements = (s.db d).preparedStatements)
      (fun s₁ l s₂ hI hl hs => ⟨synchronised_step hI.1 hl.2 hs,
        (preparedStatements_step hI.1 hl.2 hs hl.1).trans hI.2⟩) ⟨h, rfl⟩ hG hs
  exact hinv.2

theorem keeps_exec {action : DatabaseAction} (hw : s.Wf) (h : s.Keeps d action) {tr : List Label}
    (hs : Transition.exec State.step s tr = some s') : s'.Keeps d action := by
  have hinv : s'.Wf ∧ s'.Keeps d action := by
    refine Transition.exec_inv' (I := fun s => s.Wf ∧ s.Keeps d action) (fun s l s' hI hs => ?_)
      ⟨hw, h⟩ hs
    obtain ⟨-, he | ⟨f, -, rfl⟩⟩ := step_effect hs
    · exact ⟨hI.1.step hs, keeps_step hI.2 hI.1 he⟩
    · exact ⟨hI.1.step hs, hI.2.known, hI.2.holds⟩
  exact hinv.2

theorem wf_exec {tr : List Label} (hs : Transition.exec State.step init tr = some s) : s.Wf :=
  Transition.exec_inv' (fun _ _ _ hI hs => hI.step hs) wf_init hs

/-- An accepted call is on its way. -/
theorem keeps_posts {action : DatabaseAction} (hw : s.Wf) (hs : s.step l = some s')
    (hp : s.Posts s' d action) : s'.Keeps d action := by
  obtain ⟨task, ha, hq⟩ := hp
  have hmem : task ∈ (s'.db d).tasks := by
    rw [Database.tasks, hq]
    simp
  refine ⟨?_, fun _ => .inl ⟨task, hmem, ha⟩⟩
  by_contra hd
  have hraw := (hw.step hs).lifecycle.fresh d (Nat.le_of_not_lt hd)
  rw [hraw] at hmem
  cases hmem

/-- **`Prepare` is a barrier.** In a run without statement finalizers, once the task of a waiting
`lua_Prepare` is completed, no task is left, the io thread can only stop, and all actions accepted
before have been pushed.  When Lua code runs, and while a query or statement run does, the cache
holds all statements created so far; and it stays the same as long as a handler runs. -/
theorem prepare_barrier {tr : List Label} (hG : Transition.Along State.step KeepsStatements init tr)
    (h : Transition.exec State.step init tr = some s) :
    (∀ d query stack r, s.stack = .prepare d query :: stack → s.waiter = some r →
      (s.db d).tasks = [] ∧ (∀ i s', s.step (.io d i) = some s' → i = .stop) ∧
      ∀ tr₁ l tr₂ s₁ s₂ action, tr = tr₁ ++ l :: tr₂ →
        Transition.exec State.step init tr₁ = some s₁ →
        s₁.step l = some s₂ → s₁.Posts s₂ d action → action ∈ (s.db d).completedActions.history) ∧
    (∀ d, (s.luaTurn = true ∨ ∃ task, (s.db d).running = some task ∧ task.action ≠ none) →
      ∀ sid < s.nextStmt, (s.stmt sid).database = d →
        ((s.stmt sid).query, sid) ∈ (s.db d).preparedStatements) ∧
    ∀ d task tr' s', Transition.Along State.step
        (fun s l => (s.db d).running = some task ∧ s.KeepsStatements l) s tr' →
      Transition.exec State.step s tr' = some s' →
        (s'.db d).preparedStatements = (s.db d).preparedStatements := by
  have hinv : s.Synchronised :=
    Transition.exec_inv (fun _ _ _ hI hl hs => synchronised_step hI hl hs) synchronised_init hG h
  refine ⟨fun d query stack r top done => ?_, fun d hwhen sid hsid hd => ?_,
    fun d task tr' s' hG' hs => preparedStatements_exec hinv hG' hs⟩
  · have hnil := hinv.barrier.completed d query stack r top done
    refine ⟨hnil, fun i s' hs => io_idle hnil hs,
      fun tr₁ l tr₂ s₁ s₂ action htr hs₁ hstep hposts => ?_⟩
    subst htr
    have hrest := Transition.exec_split h hs₁ hstep
    have hw₁ := wf_exec hs₁
    have hkeeps := keeps_exec (hw₁.step hstep) (keeps_posts hw₁ hstep hposts) hrest
    have hlive := (hinv.wf.lifecycle.ok d).connected_live
      (hinv.wf.statements.waiting d query stack top).connected
    refine (hkeeps.holds hlive).resolve_left ?_
    rintro ⟨task, hm, -⟩
    rw [hnil] at hm
    cases hm
  · rw [← hd]
    refine (hinv.complete.cached sid hsid).resolve_right ?_
    rintro ⟨query, stack, top, done⟩
    obtain turn | ⟨task, running, -⟩ := hwhen
    · exact Statements.not_prepare_of_turn turn top
    · have hnil := hinv.barrier.completed _ query stack _ top done
      rw [hd, Database.tasks, running] at hnil
      cases hnil

/-- A query is pushed before the preparation posted after it is completed. -/
theorem prepare_barrier_query :
    ∃ s, Transition.exec State.step init
        [.connect false false .connected, .cpp, .query 0 true, .prepare 0 [1], .io 0 .take,
          .io 0 .reconnected, .io 0 (.finish true), .io 0 .take, .io 0 (.finish true)] = some s ∧
      (s.db 0).tasks = [] := by
  obtain ⟨s, hs, hw⟩ := Option.map_eq_some_iff.mp (show (Transition.exec State.step init
        [.connect false false .connected, .cpp, .query 0 true, .prepare 0 [1], .io 0 .take,
          .io 0 .reconnected, .io 0 (.finish true), .io 0 .take, .io 0 (.finish true)]).map
        (fun s => (s.stack, s.waiter)) = some ([.prepare 0 [1]], some (some 0)) by decide)
  obtain ⟨top, done⟩ := Prod.mk.inj hw
  exact ⟨s, hs, ((prepare_barrier (by decide) hs).1 0 [1] [] (some 0) top done).1⟩

/-! ### The worker of a waiting `lua_Prepare` -/

/-- A statement that is not cached is prepared only while the context runs. -/
def PreparesRunning (s : State) : Label → Prop
  | .prepare d query => (s.db d).handle = .pointer → (s.db d).isConnected = true →
      (s.db d).stopped = true → (s.db d).preparedStatements.lookup query ≠ none
  | _ => True

instance (s : State) (l : Label) : Decidable (s.PreparesRunning l) := by
  apply Label.casesOn (motive := fun l => Decidable (s.PreparesRunning l)) l <;>
    intros <;> dsimp only [PreparesRunning] <;> infer_instance

/-- While `lua_Prepare` waits on `d`, the context of `d` runs. -/
def Served (s : State) : Prop :=
  ∀ d query stack, s.stack = .prepare d query :: stack → s.waiter = none → (s.db d).stopped = false

theorem Posted.running (h : s.Posted d query s') (hl : s.PreparesRunning (.prepare d query)) :
    (s.db d).stopped = false := by
  by_contra hstopped
  exact hl h.calls.handle h.connected (by simpa using hstopped) h.uncached

/-- The context of a database that has a task does not stop. -/
theorem stopped_io (he : s.Effect l s') (io : l.isIo = true) (htasks : (s.db d).tasks ≠ []) :
    (s'.db d).stopped = (s.db d).stopped := by
  cases he with
  | stop d' work empty idle active =>
      have hd : d ≠ d' := by
        rintro rfl
        exact htasks (by simp [Database.tasks, empty, idle])
      simp [hd]
  | take | reconnected | finish | created =>
      simp
      grind -linarith
  | stay turn => rfl
  | _ => cases io

theorem served_step (h : s.Served) (hw : s.Wf) (hl : s.PreparesRunning l) (he : s.Effect l s') :
    s'.Served := by
  intro d query stack top done
  obtain ⟨htop, io⟩ | ⟨rfl, hp⟩ := prepare_top hw.lifecycle he top
  · obtain ⟨hwaiter, -⟩ | ⟨-, hdone, -⟩ := tasks_io hw.statements he io htop
    · rw [hwaiter] at done
      have htasks : (s.db d).tasks ≠ [] := by
        intro hnil
        have := hw.statements.creating d
        simp [Database.creates, hnil, State.awaited, htop, done] at this
      rw [stopped_io he io htasks]
      exact h d query stack htop done
    · exact absurd done hdone
  · have hrunning := hp.running hl
    obtain ⟨-, -, -, rfl⟩ := hp
    simpa using hrunning

/-- `lua_Prepare` accesses live objects only. -/
theorem not_crash_prepare (hw : s.Wf) {f : Fault}
    (hl : l = .prepare d query ∨ (l = .cpp ∧ ∃ stack, s.stack = .prepare d query :: stack)) :
    ¬ s.Crash l f := by
  intro hc
  cases hc with
  | method d' handle dead =>
      rw [(hw.lifecycle.ok d').pointer_live handle] at dead
      cases dead
  | statement sid handle dead =>
      rw [(hw.statements.pointer sid handle).live] at dead
      cases dead
  | parent sid handle live dead =>
      rw [(hw.lifecycle.ok _).connected_live (hw.statements.pointer sid handle).connected] at dead
      cases dead
  | cached d' query' sid calls connected cached dead =>
      rw [(hw.statements.cached d' connected).live _ (mem_of_lookup cached)] at dead
      cases dead
  | frame d' frame stack top uses dead =>
      obtain hl | ⟨-, stack', top'⟩ := hl
      · cases hl
      · rw [top] at top'
        cases top'
        obtain rfl : d = d' := by simpa [Frame.uses, eq_comm] using uses
        rw [(hw.lifecycle.ok d).connected_live
          (hw.statements.waiting d query stack top).connected] at dead
        cases dead
  | release d' stack f top live fault =>
      obtain hl | ⟨-, stack', top'⟩ := hl
      · cases hl
      · rw [top] at top'
        cases top'
  | registry | dbConnect | thread | task => simp at hl

/-- What a call of `Prepare` can do: it raises an error, returns the cached statement, or waits
for a worker that runs. -/
theorem prepare_cases (hw : s.Wf) (hl : s.PreparesRunning (.prepare d query))
    (hs : s.step (.prepare d query) = some s') :
    s' = s ∨ (∃ sid, (s.db d).preparedStatements.lookup query = some sid ∧
      s' = s.pushStmtHandle sid) ∨
      (s'.stack = .prepare d query :: s.stack ∧ (s'.db d).stopped = false ∧
        (s'.db d).ioThread = true) := by
  obtain ⟨-, he | ⟨f, hc, rfl⟩⟩ := step_effect hs
  · cases he with
    | stay turn => exact .inl rfl
    | prepareCached d query sid calls connected cached live => exact .inr (.inl ⟨sid, cached, rfl⟩)
    | prepare d query calls connected uncached =>
        refine .inr (.inr ⟨rfl, ?_, ?_⟩)
        · simpa using Posted.running ⟨calls, connected, uncached, rfl⟩ hl
        · simpa [(hw.lifecycle.ok d).thread] using connected
  · exact absurd hc (not_crash_prepare hw (.inl rfl))

/-- **`Prepare` waits for a worker that runs.** In a run that prepares no
new statement on a stopped context, a `lua_Prepare` that waits for its
task does so while the io thread of the database is inside `run`; a call
that does not wait raises an error or returns the cached statement. -/
theorem prepare_waits_running {tr : List Label}
    (hG : Transition.Along State.step PreparesRunning init tr)
    (h : Transition.exec State.step init tr = some s) :
    (∀ d query stack, s.stack = .prepare d query :: stack → s.waiter = none →
      (s.db d).stopped = false ∧ (s.db d).ioThread = true) ∧
    ∀ d query s', s.PreparesRunning (.prepare d query) → s.step (.prepare d query) = some s' →
      s' = s ∨ (∃ sid, (s.db d).preparedStatements.lookup query = some sid ∧
        s' = s.pushStmtHandle sid) ∨
        (s'.stack = .prepare d query :: s.stack ∧ (s'.db d).stopped = false ∧
          (s'.db d).ioThread = true) := by
  have hinv : s.Wf ∧ s.Served := by
    refine Transition.exec_inv (I := fun s => s.Wf ∧ s.Served) (fun s l s' hI hl hs => ?_)
      ⟨wf_init, nofun⟩ hG h
    obtain ⟨-, he | ⟨f, -, rfl⟩⟩ := step_effect hs
    · exact ⟨hI.1.step hs, served_step hI.2 hI.1 hl he⟩
    · exact ⟨hI.1.step hs, hI.2⟩
  refine ⟨fun d query stack top done => ⟨hinv.2 d query stack top done, ?_⟩,
    fun d query s' hl hs => prepare_cases hinv.1 hl hs⟩
  rw [(hinv.1.lifecycle.ok d).thread]
  exact (hinv.1.statements.waiting d query stack top).connected

/-- A callback dispatched by `Disconnect` prepares a statement: the task is never taken. -/
theorem prepare_waits_running_fails :
    (Transition.exec State.step init
      [.connect false false .connected, .cpp, .query 0 true, .io 0 .take, .io 0 (.finish true),
        .disconnect 0, .io 0 .stop, .cpp, .cpp, .prepare 0 [1]]).map
      (fun s => (s.stack.head?, s.waiter, (s.db 0).stopped)) =
      some (some (.prepare 0 [1]), none, true) := by decide

theorem prepare_waits_running_reconnect :
    ∃ s, Transition.exec State.step init
        [.connect false false .connected, .cpp, .query 0 true, .io 0 .take, .prepare 0 [1],
          .io 0 .reconnected, .io 0 (.finish true)] = some s ∧ (s.db 0).stopped = false := by
  obtain ⟨s, hs, hw⟩ := Option.map_eq_some_iff.mp (show (Transition.exec State.step init
        [.connect false false .connected, .cpp, .query 0 true, .io 0 .take, .prepare 0 [1],
          .io 0 .reconnected, .io 0 (.finish true)]).map
        (fun s => (s.stack, s.waiter)) = some ([.prepare 0 [1]], none) by decide)
  obtain ⟨top, done⟩ := Prod.mk.inj hw
  exact ⟨s, hs, ((prepare_waits_running (by decide) hs).1 0 [1] [] top done).1⟩

end State
end Tmysql4
