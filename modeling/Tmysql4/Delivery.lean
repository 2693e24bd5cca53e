import Tmysql4.Mailbox
import Tmysql4.Teardown

/-! # Delivery of callbacks

The way of a `Query` or `Run` call with a callback: it is accepted, waits on the io thread, is
pushed to the completed actions, is handed to a dispatch loop as part of a batch and its callback
is started. `mailbox` is this way as a mailbox, and every step of the system is a step of it
(`step_mailbox`); what the mailbox may lose or nest says when the callbacks come in order
(`callbacks_in_order`) and when each comes exactly once (`callbacks_exactly_once`). -/

namespace Tmysql4

/-- The id of an action with a callback. -/
def DatabaseAction.called (action : DatabaseAction) : Option ℕ :=
  if action.callback then some action.id else none

def Task.called (task : Task) : Option ℕ := task.action.bind DatabaseAction.called

@[simp] theorem Task.called_runQuery (query : DatabaseAction) :
    (Task.runQuery query).called = query.called := rfl
@[simp] theorem Task.called_runStatement (sid : StmtId) (action : DatabaseAction) :
    (Task.runStatement sid action).called = action.called := rfl
@[simp] theorem Task.called_createStatement (query : Bytes) :
    (Task.createStatement query).called = none := rfl

/-- The undelivered actions of `d` a dispatch loop still owns. -/
def Frame.hand (d : DbId) : Frame → List ℕ
  | .dispatch d' completed => if d' = d then completed.filterMap DatabaseAction.called else []
  | _ => []

section Hand

variable (d d' : DbId)

@[simp] theorem Frame.hand_lua : Frame.hand d .lua = [] := rfl
@[simp] theorem Frame.hand_dispatch (completed : List DatabaseAction) :
    Frame.hand d (.dispatch d' completed) =
      if d' = d then completed.filterMap DatabaseAction.called else [] := rfl
@[simp] theorem Frame.hand_poll : Frame.hand d (.poll d') = [] := rfl
@[simp] theorem Frame.hand_connect : Frame.hand d (.connect d') = [] := rfl
@[simp] theorem Frame.hand_wait : Frame.hand d (.wait d') = [] := rfl
@[simp] theorem Frame.hand_release : Frame.hand d (.release d') = [] := rfl
@[simp] theorem Frame.hand_destroy : Frame.hand d (.destroy d') = [] := rfl
@[simp] theorem Frame.hand_prepare (query : Bytes) : Frame.hand d (.prepare d' query) = [] := rfl

@[simp] theorem Frame.hand_connectFrames (db : Database) :
    db.connectFrames.flatMap (Frame.hand d) = [] := by
  unfold Database.connectFrames
  split <;> rfl

/-- A frame that owns undelivered actions of `d` will access `d`. -/
theorem Frame.hand_eq_nil {d : DbId} {f : Frame} (h : f.uses d = false) : f.hand d = [] := by
  cases f with
  | dispatch d' completed =>
      by_cases hd : d' = d
      · subst hd
        simp [Frame.uses] at h
        simp [h]
      · simp [hd]
  | _ => rfl

end Hand

/-- The completed actions with a callback that no dispatch has taken. -/
def Database.completedCalls (db : Database) : List ℕ :=
  db.completedActions.pending.filterMap DatabaseAction.called

/-- The actions with a callback on the io thread. -/
def Database.pendingCalls (db : Database) : List ℕ := db.tasks.filterMap Task.called

@[simp] theorem Database.fire_completedCalls (db : Database) :
    db.fire.completedCalls = db.completedCalls := by simp [completedCalls]
@[simp] theorem Database.fire_pendingCalls (db : Database) :
    db.fire.pendingCalls = db.pendingCalls := by simp [pendingCalls, tasks]

theorem Task.called_of_action {task : Task} {action : DatabaseAction}
    (h : task.action = some action) : task.called = action.called := by simp [Task.called, h]

namespace State

def hand (s : State) (d : DbId) : List ℕ := s.stack.flatMap (Frame.hand d)

/-- The three queues of a database as one mailbox. -/
def mailbox (s : State) (d : DbId) : Mailbox ℕ where
  accepted := (s.db d).accepted
  inbox := (s.db d).completedCalls ++ (s.db d).pendingCalls
  hand := s.hand d
  started := (s.db d).started

/-- The database whose completed actions the innermost frame takes next. -/
def pops (s : State) : Option DbId :=
  match s.stack with
  | .poll d :: _ => some d
  | .wait d :: _ => some d
  | _ => none

/-- A batch is taken while an enclosing dispatch still owns undelivered actions. -/
def Nests (s : State) (l : Label) (d : DbId) : Prop :=
  l = .cpp ∧ s.pops = some d ∧ s.hand d ≠ [] ∧ (s.db d).completedCalls ≠ []

/-- Accepted actions may be lost: the finalizer drops callbacks, and a deletion what is queued. -/
def Loses (s : State) (d : DbId) : Prop :=
  (s.db d).isInGC = true ∨ (∃ stack, s.stack = .destroy d :: stack) ∧ (s.mailbox d).inbox ≠ []

variable {s s' : State} {l : Label}

/-- A call is accepted: its task is posted under a new id. -/
theorem step_accept (d' d : DbId) (callback : Bool) (task : Task)
    (htask : task.called = if callback then some s.nextAction else none) {lossy nested : Prop} :
    (s.mailbox d).Step lossy nested (((s.accept d' callback).post d' task).mailbox d) := by
  by_cases hd : d = d'
  · subst hd
    cases callback with
    | true =>
        have h : ((s.accept d true).post d task).mailbox d = { s.mailbox d with
            accepted := (s.mailbox d).accepted ++ [s.nextAction]
            inbox := (s.mailbox d).inbox ++ [s.nextAction] } := by
          simp [mailbox, hand, Database.completedCalls, Database.pendingCalls,
            Database.tasks, htask]
        rw [h]
        exact .accept s.nextAction
    | false =>
        refine .of_eq ?_
        simp [mailbox, hand, Database.completedCalls, Database.pendingCalls, Database.tasks, htask]
  · refine .of_eq ?_
    simp [mailbox, hand, hd]

/-- The completed actions are handed out. -/
theorem step_popAll {d : DbId} (hpops : s.pops = some d) {m : Mailbox ℕ}
    (hm : m = { s.mailbox d with
      inbox := (s.db d).pendingCalls
      hand := (s.db d).completedCalls ++ (s.mailbox d).hand }) {lossy : Prop} :
    (s.mailbox d).Step lossy (s.Nests .cpp d) m := by
  subst hm
  refine .pop _ _ rfl ?_
  by_cases hh : s.hand d = []
  · exact .inl hh
  · by_cases hc : (s.db d).completedCalls = []
    · exact .inr (.inl hc)
    · exact .inr (.inr ⟨rfl, hpops, hh, hc⟩)

/-- The deletion loses what is queued on the io thread. -/
theorem mailbox_destroy (hw : s.Wf) {d : DbId} {stack : List Frame}
    (top : s.stack = .destroy d :: stack) :
    ({ s.pop stack with databases := s.databases.filter (· ≠ d) }.delete d).mailbox d =
      { s.mailbox d with inbox := (s.db d).completedCalls, hand := (s.mailbox d).hand } := by
  have hidle := (hw.lifecycle.ok d).stopped_idle (hw.lifecycle.stopping d (.inr (by simp [top])))
  simp [mailbox, hand, top, Database.completedCalls, Database.pendingCalls, Database.tasks, hidle]

/-- **A step is a step of the mailbox.** -/
theorem step_mailbox (hw : s.Wf) (he : s.Effect l s') (d : DbId) :
    (s.mailbox d).Step (s.Loses d) (s.Nests l d) (s'.mailbox d) := by
  have hfresh : s.mailbox s.nextDb = ⟨[], [], s.hand s.nextDb, []⟩ := by
    simp [mailbox, hw.lifecycle.fresh s.nextDb (Nat.le_refl _), Database.completedCalls,
      Database.pendingCalls, Database.tasks, Database.raw, Database.construct]
  cases he with
  | stay turn => exact .stutter
  | dbConnectFailed d' r calls idle failed can =>
      exact absurd can (hw.lifecycle.not_canRelease idle failed)
  | create callback junk turn =>
      refine .of_eq ?_
      by_cases hd : d = s.nextDb
      · subst hd
        rw [hfresh]
        simp [mailbox, hand, Database.completedCalls, Database.pendingCalls, Database.tasks,
          Database.construct]
      · simp [mailbox, hand, hd]
  | connected callback junk turn =>
      refine .of_eq ?_
      by_cases hd : d = s.nextDb
      · subst hd
        rw [hfresh]
        simp [mailbox, hand, Database.completedCalls, Database.pendingCalls, Database.tasks,
          Database.construct]
      · simp [mailbox, hand, hd]
  | connectFailed callback junk r turn failed =>
      refine .of_eq ?_
      by_cases hd : d = s.nextDb
      · subst hd
        rw [hfresh]
        cases r <;> simp [mailbox, hand, Database.completedCalls, Database.pendingCalls,
          Database.tasks, Database.construct]
      · simp [mailbox, hand, hd]
  | query d' callback calls connected => exact step_accept d' d callback _ rfl
  | run sid callback calls => exact step_accept (s.stmt sid).database d callback _ rfl
  | pollPop d' stack top live =>
      by_cases hd : d = d'
      · subst hd
        refine step_popAll (by simp [pops, top]) ?_
        simp [mailbox, hand, top, Database.completedCalls, Database.pendingCalls, Database.tasks]
      · refine .of_eq ?_
        simp [mailbox, hand, top, hd, Ne.symm hd]
  | waitDone d' stack top live stopped =>
      by_cases hd : d = d'
      · subst hd
        refine step_popAll (by simp [pops, top]) ?_
        simp [mailbox, hand, top, Database.completedCalls, Database.pendingCalls, Database.tasks]
      · refine .of_eq ?_
        simp [mailbox, hand, top, hd, Ne.symm hd]
  | dispatchStart d' action rest stack top live loud callback =>
      by_cases hd : d = d'
      · subst hd
        have htop : (s.mailbox d).hand = action.id ::
            (rest.filterMap DatabaseAction.called ++ stack.flatMap (Frame.hand d)) := by
          simp [mailbox, hand, top, DatabaseAction.called, callback]
        have hm : ((((s.pop stack).call (.dispatch d rest)).modify d fun db =>
            { db with started := db.started ++ [action.id] }).call .lua).mailbox d =
            { s.mailbox d with
              hand := rest.filterMap DatabaseAction.called ++ stack.flatMap (Frame.hand d)
              started := (s.mailbox d).started ++ [action.id] } := by
          simp [mailbox, hand, Database.completedCalls, Database.pendingCalls, Database.tasks]
        rw [hm]
        exact .start _ _ htop
      · refine .of_eq ?_
        simp [mailbox, hand, top, hd, Ne.symm hd]
  | dispatchSkip d' action rest stack top live quiet =>
      by_cases hd : d = d'
      · subst hd
        by_cases hc : action.callback = true
        · have hgc : (s.db d).isInGC = true := by simpa [hc] using quiet
          have hm : ((s.pop stack).call (.dispatch d rest)).mailbox d = { s.mailbox d with
              inbox := (s.mailbox d).inbox
              hand := rest.filterMap DatabaseAction.called ++ stack.flatMap (Frame.hand d) } := by
            simp [mailbox, hand]
          rw [hm]
          refine .drop _ _ (List.Sublist.refl _) ?_ (.inl hgc)
          simp [mailbox, hand, top, DatabaseAction.called, hc]
        · refine .of_eq ?_
          simp [mailbox, hand, top, DatabaseAction.called, hc]
      · refine .of_eq ?_
        simp [mailbox, hand, top, Ne.symm hd]
  | destroy d' stack top live =>
      by_cases hd : d = d'
      · subst hd
        have hm := mailbox_destroy hw top
        by_cases hempty : (s.mailbox d).inbox = []
        · refine .of_eq ?_
          rw [hm, List.append_eq_nil_iff.mp hempty |>.1, ← hempty]
        · rw [hm]
          exact .drop _ _ (List.sublist_append_left _ _) (List.Sublist.refl _)
            (.inr ⟨⟨stack, top⟩, hempty⟩)
      · refine .of_eq ?_
        simp [mailbox, hand, top, hd]
  | prepare d' query calls connected uncached =>
      refine .of_eq ?_
      by_cases hd : d = d'
      · subst hd
        simp [mailbox, hand, Database.completedCalls, Database.pendingCalls, Database.tasks]
      · simp [mailbox, hand, hd]
  | take d' task queue live thread active idle head =>
      refine .of_eq ?_
      by_cases hd : d = d'
      · subst hd
        simp [mailbox, hand, Database.completedCalls, Database.pendingCalls, Database.tasks, idle,
          head, List.filterMap_cons]
      · simp [mailbox, hand, hd]
  | finish d' ok task action live running runs =>
      refine .of_eq ?_
      by_cases hd : d = d'
      · subst hd
        simp [mailbox, hand, Database.completedCalls, Database.pendingCalls, Database.tasks,
          running, Task.called_of_action runs, List.filterMap_cons]
        cases action.called <;> simp
      · simp [mailbox, hand, hd]
  | created d' ok query live running =>
      refine .of_eq ?_
      by_cases hd : d = d'
      · subst hd
        simp [mailbox, hand, Database.completedCalls, Database.pendingCalls, Database.tasks,
          running, List.filterMap_cons]
      · simp [mailbox, hand, hd]
  | _ =>
      refine .of_eq ?_
      simp_all [mailbox, hand] <;> grind -linarith
        [Database.completedCalls, Database.pendingCalls, Database.tasks,
        Database.fire_completedCalls, Database.fire_pendingCalls, Database.fire_accepted,
          Database.fire_started]

/-- A deleted database receives nothing any more. -/
theorem mailbox_dead (he : s.Effect l s') {d : DbId} (hdead : (s.db d).live = false)
    (hlt : d < s.nextDb) : s'.mailbox d = s.mailbox d := by
  have hne : ∀ d', (s.db d').live = true → d ≠ d' := by
    rintro d' hlive rfl
    rw [hdead] at hlive
    cases hlive
  have hnext : d ≠ s.nextDb := Nat.ne_of_lt hlt
  cases he with
  | stay turn => rfl
  | getTable turn live => 
      simp [mailbox, hand]
      grind -linarith [Database.completedCalls, Database.pendingCalls, Database.tasks]
  | stop d' work empty idle active => 
      simp [mailbox, hand]
      grind -linarith [Database.completedCalls, Database.pendingCalls, Database.tasks]
  | dbConnectFailed d' r calls idle failed can => 
      have := hne d' calls.live
      simp [mailbox, hand, this]
  | release d' stack top can => 
      have := hne d' can.live
      simp [mailbox, hand, this, top]
  | _ =>
      simp_all [mailbox, hand] <;>
        grind -linarith [Calls, CallsStmt, Database.completedCalls, Database.pendingCalls,
          Database.tasks]

/-! ### Ids -/

/-- Accepted calls have distinct ids. -/
structure Numbered (s : State) : Prop where
  lt : ∀ d, ∀ id ∈ (s.db d).accepted, id < s.nextAction
  nodup : ∀ d, (s.db d).accepted.Nodup

theorem numbered_init : init.Numbered := ⟨nofun, fun _ => List.nodup_nil⟩

theorem numbered_effect (h : s.Numbered) (he : s.Effect l s') : s'.Numbered := by
  have hlt := h.lt
  have hnd := h.nodup
  cases he with
  | stay turn => exact h
  | query d callback calls connected =>
      constructor
      · simp
        grind -linarith
      · simp
        grind -linarith
  | run sid callback calls =>
      constructor
      · simp
        grind -linarith
      · simp
        grind -linarith
  | _ =>
      constructor
      · simp
        grind -linarith [Database.construct, Database.fire_accepted]
      · simp
        grind -linarith [Database.construct, Database.fire_accepted]

/-! ### Order -/

/-- A batch is taken only when no enclosing dispatch owns undelivered actions of the database, or
when it has no callbacks, or when the database is being finalized. -/
def InOrderPops (s : State) : Label → Prop
  | .cpp => ∀ d ∈ s.pops, s.hand d = [] ∨ (s.db d).completedCalls = [] ∨ (s.db d).isInGC = true
  | _ => True

instance (s : State) (l : Label) : Decidable (s.InOrderPops l) := by
  apply Label.casesOn (motive := fun l => Decidable (s.InOrderPops l)) l <;>
    intros <;> dsimp only [InOrderPops] <;> infer_instance

/-- `m_bIsInGC` is never reset. -/
theorem isInGC_mono (hw : s.Wf) (he : s.Effect l s') {d : DbId} (h : (s.db d).isInGC = true) :
    (s'.db d).isInGC = true := by
  have hraw := hw.lifecycle.fresh s.nextDb (Nat.le_refl _)
  have hd : d ≠ s.nextDb := by
    rintro rfl
    rw [hraw] at h
    cases h
  cases he with
  | stay turn => exact h
  | _ =>
      simp
      grind -linarith [Database.fire_isInGC]

/-- While the database is being finalized no callback is started. -/
theorem started_of_isInGC (hw : s.Wf) (he : s.Effect l s') {d : DbId} (h : (s.db d).isInGC = true) :
    (s'.db d).started = (s.db d).started ∧ List.Sublist (s.db d).accepted (s'.db d).accepted := by
  have hraw := hw.lifecycle.fresh s.nextDb (Nat.le_refl _)
  have hd : d ≠ s.nextDb := by
    rintro rfl
    rw [hraw] at h
    cases h
  cases he with
  | stay turn => exact ⟨rfl, List.Sublist.refl _⟩
  | _ => simp <;> grind -linarith [Database.fire_started, Database.fire_accepted]

/-- The callbacks are started in order; as long as the
database is not being finalized, so will be the rest. -/
structure InOrder (s : State) (d : DbId) : Prop where
  ordered : (s.db d).isInGC = false → (s.mailbox d).Ordered
  started : List.Sublist (s.db d).started (s.db d).accepted

theorem inOrder_effect {d : DbId} (h : s.InOrder d) (hw : s.Wf) (hl : s.InOrderPops l)
    (he : s.Effect l s') : s'.InOrder d := by
  cases hgc : (s.db d).isInGC with
  | true =>
      obtain ⟨hs, ha⟩ := started_of_isInGC hw he hgc
      refine ⟨fun hgc' => ?_, by rw [hs]; exact h.started.trans ha⟩
      rw [isInGC_mono hw he hgc] at hgc'
      cases hgc'
  | false =>
      have hstep : (s.mailbox d).Step (s.Loses d) False (s'.mailbox d) := by
        refine (step_mailbox hw he d).mono id ?_
        rintro ⟨rfl, hpops, hhand, hcalls⟩
        rcases hl d hpops with h' | h' | h'
        · exact hhand h'
        · exact hcalls h'
        · rw [hgc] at h'
          cases h'
      have hord : (s'.mailbox d).Ordered := (h.ordered hgc).step hstep
      exact ⟨fun _ => hord, hord.started⟩

/-- The invariant of runs with pops in order. -/
structure Sequenced (s : State) : Prop where
  wf : s.Wf
  numbered : s.Numbered
  inOrder : ∀ d, s.InOrder d

theorem sequenced_step (h : s.Sequenced) (hl : s.InOrderPops l) (hs : s.step l = some s') :
    s'.Sequenced := by
  obtain ⟨-, he | ⟨f, -, rfl⟩⟩ := step_effect hs
  · exact ⟨h.wf.step hs, numbered_effect h.numbered he,
      fun d => inOrder_effect (h.inOrder d) h.wf hl he⟩
  · exact ⟨h.wf.step hs, ⟨h.numbered.lt, h.numbered.nodup⟩,
      fun d => ⟨(h.inOrder d).ordered, (h.inOrder d).started⟩⟩

/-- **Callbacks run in submission order.** In a run that takes no batch over undelivered actions,
the callbacks of every database are started in the order in which their calls were accepted. -/
theorem callbacks_in_order {s : State} {tr : List Label}
    (hG : Transition.Along State.step InOrderPops init tr)
    (h : Transition.exec State.step init tr = some s) (d : DbId) :
    (s.db d).accepted.Nodup ∧ List.Sublist (s.db d).started (s.db d).accepted := by
  have hinit : ∀ d, init.InOrder d := fun d => ⟨fun _ => List.Sublist.refl _, List.Sublist.refl _⟩
  have hseq : s.Sequenced := Transition.exec_inv (fun _ _ _ hI hl hs => sequenced_step hI hl hs)
    ⟨wf_init, numbered_init, hinit⟩ hG h
  exact ⟨hseq.numbered.nodup d, (hseq.inOrder d).started⟩

/-- A callback of a batch of two runs a query and polls: the third callback overtakes the second. -/
theorem callbacks_in_order_fails :
    (Transition.exec State.step init
      [.connect false false .connected, .cpp, .query 0 true, .query 0 true, .io 0 .take,
        .io 0 (.finish true), .io 0 .take, .io 0 (.finish true), .poll 0, .cpp, .cpp, .query 0 true,
        .io 0 .take, .io 0 (.finish true), .poll 0, .cpp, .cpp, .ret, .cpp, .ret, .cpp]).map
      (fun s => ((s.db 0).accepted, (s.db 0).started)) = some ([0, 1, 2], [0, 2, 1]) := by decide

/-- A callback that polls while nothing is completed. -/
theorem callbacks_in_order_nestedPoll :
    ∃ s, Transition.exec State.step init
        [.connect false false .connected, .cpp, .query 0 true, .query 0 true, .io 0 .take,
          .io 0 (.finish true), .io 0 .take, .io 0 (.finish true), .poll 0, .cpp, .cpp,
          .query 0 true, .poll 0, .cpp, .cpp, .ret, .cpp, .ret, .cpp] = some s ∧
      List.Sublist (s.db 0).started (s.db 0).accepted := by
  obtain ⟨s, hs⟩ := Option.isSome_iff_exists.mp (show (Transition.exec State.step init
        [.connect false false .connected, .cpp, .query 0 true, .query 0 true, .io 0 .take,
          .io 0 (.finish true), .io 0 .take, .io 0 (.finish true), .poll 0, .cpp, .cpp,
          .query 0 true, .poll 0, .cpp, .cpp, .ret, .cpp, .ret, .cpp]).isSome by decide)
  exact ⟨s, hs, (callbacks_in_order (by decide) hs 0).2⟩

/-! ### Exactly once -/

/-- No call with a callback is accepted once the context has stopped. -/
def AcceptsRunning (s : State) : Label → Prop
  | .query d callback => callback = true → (s.db d).handle = .pointer →
      (s.db d).isConnected = true → (s.db d).stopped = false
  | .run sid callback => callback = true → (s.stmt sid).handle = .pointer →
      (s.db (s.stmt sid).database).stopped = false
  | _ => True

instance (s : State) (l : Label) : Decidable (s.AcceptsRunning l) := by
  apply Label.casesOn (motive := fun l => Decidable (s.AcceptsRunning l)) l <;>
    intros <;> dsimp only [AcceptsRunning] <;> infer_instance

/-- Nothing accepted gets lost. -/
structure Delivers (s : State) : Prop where
  orderly : s.Orderly Frame.uses
  conserved : ∀ d, (s.db d).isInGC = false → (s.mailbox d).Conserved
  quiet : ∀ d, (s.db d).stopped = true → (s.db d).pendingCalls = []
  taken : ∀ d, .release d ∈ s.stack ∨ .destroy d ∈ s.stack → (s.db d).completedCalls = []
  settled : ∀ d ∈ s.deleted, (s.mailbox d).hand = [] ∧ (s.mailbox d).inbox = []

/-- The part of the io thread that is left when the context stops has no calls. -/
theorem quiet_effect (h : s.Delivers) (hw : s.Wf) (hl : s.AcceptsRunning l) (he : s.Effect l s')
    (d : DbId) (hs : (s'.db d).stopped = true) : (s'.db d).pendingCalls = [] := by
  have hq := h.quiet d
  have hidle := (hw.lifecycle.ok d).stopped_idle
  -- an accepted call without a callback adds nothing
  have haccept : ∀ (d' : DbId) (callback : Bool) (task : Task),
      (callback = true → (s.db d').stopped = false) →
      task.called = (if callback then some s.nextAction else none) → (s.db d).stopped = true →
      (((s.accept d' callback).post d' task).db d).pendingCalls = [] := by
    intro d' callback task hopen htask hs
    by_cases hd : d = d'
    · subst hd
      cases callback with
      | true =>
          rw [hopen rfl] at hs
          cases hs
      | false =>
          have hnone : task.called = none := by simpa using htask
          simpa [Database.pendingCalls, Database.tasks, hnone, List.filterMap_cons] using hq hs
    · simp [hd, hq hs]
  cases he with
  | stay turn => exact hq hs
  | query d' callback calls connected =>
      refine haccept d' callback _ (fun hc => hl hc calls.handle connected) rfl ?_
      simp at hs
      grind -linarith
  | run sid callback calls =>
      refine haccept (s.stmt sid).database callback _ (fun hc => hl hc calls.handle) rfl ?_
      simp at hs
      grind -linarith
  | prepare d' query calls connected uncached =>
      simp at hs
      have hq := hq (by grind -linarith)
      by_cases hd : d = d'
      · subst hd
        simpa [Database.pendingCalls, Database.tasks] using hq
      · simp [hd, hq]
  | _ =>
      simp at hs ⊢
      grind -linarith [Database.pendingCalls, Database.tasks, Database.construct,
        Database.fire_stopped, Database.fire_pendingCalls]

theorem taken_effect (h : s.Delivers) (hw : s.Wf) (he : s.Effect l s') (d : DbId)
    (hd : .release d ∈ s'.stack ∨ .destroy d ∈ s'.stack) : (s'.db d).completedCalls = [] := by
  have ht := h.taken d
  have hstop := hw.lifecycle.stopping d
  have hidle := (hw.lifecycle.ok d).stopped_idle
  have hknown : .release d ∈ s.stack ∨ .destroy d ∈ s.stack → d < s.nextDb := by
    rintro (hm | hm)
    · exact hw.lifecycle.known _ hm d (by simp [Frame.uses])
    · exact hw.lifecycle.known _ hm d (by simp [Frame.uses])
  cases he with
  | stay turn => exact ht hd
  | _ =>
      simp at hd ⊢
      grind -linarith [Database.completedCalls, Database.construct, Database.mem_connectFrames,
        Database.fire_completedCalls, BatchQueue.pending_popAll]

/-- While `Disconnect` is about to delete the database nothing is undelivered. -/
theorem destroy_settled (h : s.Delivers) (hw : s.Wf) {d : DbId} {stack : List Frame}
    (top : s.stack = .destroy d :: stack) : (s.mailbox d).hand = [] ∧ (s.mailbox d).inbox = [] := by
  have hmem : .destroy d ∈ s.stack := by simp [top]
  constructor
  · have horderly := h.orderly
    simp [Orderly, top] at horderly
    have hrest : stack.flatMap (Frame.hand d) = [] := by
      rw [List.flatMap_eq_nil_iff]
      exact fun f hf => Frame.hand_eq_nil (horderly.1 f hf)
    simp [mailbox, hand, top, hrest]
  · have htaken := h.taken d (.inr hmem)
    have hquiet := h.quiet d (hw.lifecycle.stopping d (.inr hmem))
    simp [mailbox, htaken, hquiet]

theorem settled_effect (h : s.Delivers) (hw : s.Wf) (he : s.Effect l s') :
    ∀ d ∈ s'.deleted, (s'.mailbox d).hand = [] ∧ (s'.mailbox d).inbox = [] := by
  intro d hd
  have hold : d ∈ s.deleted → (s'.mailbox d).hand = [] ∧ (s'.mailbox d).inbox = [] := by
    intro hd
    obtain ⟨hdead, hlt⟩ := hw.lifecycle.deleted_dead d hd
    rw [mailbox_dead he hdead hlt]
    exact h.settled d hd
  by_cases hmem : d ∈ s.deleted
  · exact hold hmem
  cases he with
  | dbConnectFailed d' r calls idle failed can =>
      exact absurd can (hw.lifecycle.not_canRelease idle failed)
  | connectFailed callback junk r turn failed =>
      obtain rfl : d = s.nextDb := by
        simp at hd
        exact hd.resolve_left hmem
      have hhand : s.stack.flatMap (Frame.hand s.nextDb) = [] := by
        rw [List.flatMap_eq_nil_iff]
        refine fun f hf => Frame.hand_eq_nil ?_
        have := hw.lifecycle.known f hf s.nextDb
        grind -linarith
      cases r <;> simp [mailbox, hand, hhand, Database.completedCalls, Database.pendingCalls,
        Database.tasks, Database.construct]
  | destroy d' stack top live =>
      obtain rfl : d = d' := by
        simp at hd
        exact hd.resolve_left hmem
      obtain ⟨hhand, hinbox⟩ := destroy_settled h hw top
      rw [mailbox_destroy hw top]
      exact ⟨hhand, (List.append_eq_nil_iff.mp hinbox).1⟩
  | stay turn => exact absurd hd hmem
  | _ => exact absurd (by simpa using hd) hmem

theorem delivers_effect (h : s.Delivers) (hw : s.Wf) (hd : s.UnusedTeardown l)
    (hl : s.AcceptsRunning l) (he : s.Effect l s') : s'.Delivers := by
  refine ⟨orderly_effect h.orderly (fun d => hd.unused) he, fun d hgc => ?_,
    quiet_effect h hw hl he, taken_effect h hw he, settled_effect h hw he⟩
  have hgc' : (s.db d).isInGC = false := by
    cases hgc' : (s.db d).isInGC with
    | false => rfl
    | true =>
        rw [isInGC_mono hw he hgc'] at hgc
        cases hgc
  have hstep : (s.mailbox d).Step False (s.Nests l d) (s'.mailbox d) := by
    refine (step_mailbox hw he d).mono ?_ id
    rintro (hloss | ⟨⟨stack, top⟩, hne⟩)
    · rw [hgc'] at hloss
      cases hloss
    · exact hne (destroy_settled h hw top).2
  exact (h.conserved d hgc').step hstep

/-- The invariant of runs that deliver. -/
structure Delivering (s : State) : Prop where
  wf : s.Wf
  numbered : s.Numbered
  delivers : s.Delivers
  bounded : ∀ d, (s.mailbox d).Bounded

theorem delivering_init : init.Delivering where
  wf := wf_init
  numbered := numbered_init
  delivers := {
    orderly := .nil
    conserved := fun _ _ _ => rfl
    quiet := fun _ h => by cases h
    taken := fun _ h => by simp [init] at h
    settled := nofun }
  bounded _ _ := Nat.le_refl _

theorem delivering_step (h : s.Delivering) (hd : s.UnusedTeardown l) (hl : s.AcceptsRunning l)
    (hs : s.step l = some s') : s'.Delivering := by
  obtain ⟨-, he | ⟨f, -, rfl⟩⟩ := step_effect hs
  · exact ⟨h.wf.step hs, numbered_effect h.numbered he, delivers_effect h.delivers h.wf hd hl he,
      fun d => (h.bounded d).step (step_mailbox h.wf he d)⟩
  · exact ⟨h.wf.step hs, ⟨h.numbered.lt, h.numbered.nodup⟩, ⟨h.delivers.orderly,
      h.delivers.conserved, h.delivers.quiet, h.delivers.taken, h.delivers.settled⟩, h.bounded⟩

/-- **Exactly-once delivery.** In a run that tears no database down from its
own callbacks and accepts no call once the context has stopped, every accepted
call has its callback started at most once, and exactly once when the database
has been deleted by a `Disconnect` outside garbage collection. -/
theorem callbacks_exactly_once {s : State} {tr : List Label}
    (hD : Transition.Along State.step UnusedTeardown init tr)
    (hG : Transition.Along State.step AcceptsRunning init tr)
    (h : Transition.exec State.step init tr = some s) (d : DbId) (id : ℕ)
    (hid : id ∈ (s.db d).accepted) :
    (s.db d).started.count id ≤ 1 ∧
      (d ∈ s.deleted → (s.db d).isInGC = false → (s.db d).started.count id = 1) := by
  have hinv : s.Delivering := Transition.exec_inv
    (fun _ _ _ hI hl hs => delivering_step hI hl.1 hl.2 hs) delivering_init (hD.and hG) h
  have hnd := hinv.numbered.nodup d
  constructor
  · exact List.nodup_iff_count_le_one.mp ((hinv.bounded d).started_nodup hnd) id
  · intro hdel hgc
    obtain ⟨hhand, hinbox⟩ := hinv.delivers.settled d hdel
    have hcount := (hinv.delivers.conserved d hgc).count_started hhand hinbox id
    rw [show (s.db d).started.count id = (s.db d).accepted.count id from hcount]
    exact List.count_eq_one_of_mem hnd hid

/-- A callback dispatched by `Disconnect` runs another query: it is accepted and never delivered. -/
theorem callbacks_exactly_once_fails :
    (Transition.exec State.step init
      [.connect false false .connected, .cpp, .query 0 true, .io 0 .take, .io 0 (.finish true),
        .disconnect 0, .io 0 .stop, .cpp, .cpp, .query 0 true, .ret, .cpp, .cpp, .cpp]).map
      (fun s => ((s.db 0).accepted, (s.db 0).started, s.deleted, (s.db 0).isInGC)) =
      some ([0, 1], [0], [0], false) := by decide

/-- A query from a callback of `Poll`, delivered by `Disconnect`. -/
theorem callbacks_exactly_once_disconnect :
    ∃ s, Transition.exec State.step init
        [.connect false false .connected, .cpp, .query 0 true, .io 0 .take, .io 0 (.finish true),
          .poll 0, .cpp, .cpp, .query 0 true, .ret, .cpp, .disconnect 0, .io 0 .take,
          .io 0 (.finish true), .io 0 .stop, .cpp, .cpp, .ret, .cpp, .cpp, .cpp] = some s ∧
      (s.db 0).started.count 1 = 1 := by
  obtain ⟨s, hs, hacc, hdel, hgc⟩ : ∃ s, Transition.exec State.step init
        [.connect false false .connected, .cpp, .query 0 true, .io 0 .take, .io 0 (.finish true),
          .poll 0, .cpp, .cpp, .query 0 true, .ret, .cpp, .disconnect 0, .io 0 .take,
          .io 0 (.finish true), .io 0 .stop, .cpp, .cpp, .ret, .cpp, .cpp, .cpp] = some s ∧
        (s.db 0).accepted = [0, 1] ∧ s.deleted = [0] ∧ (s.db 0).isInGC = false := by
    have := (show (Transition.exec State.step init
        [.connect false false .connected, .cpp, .query 0 true, .io 0 .take, .io 0 (.finish true),
          .poll 0, .cpp, .cpp, .query 0 true, .ret, .cpp, .disconnect 0, .io 0 .take,
          .io 0 (.finish true), .io 0 .stop, .cpp, .cpp, .ret, .cpp, .cpp, .cpp]).map
        (fun s => ((s.db 0).accepted, s.deleted, (s.db 0).isInGC)) =
          some ([0, 1], [0], false) by decide)
    simpa using Option.map_eq_some_iff.mp this
  exact ⟨s, hs, (callbacks_exactly_once (by decide) (by decide) hs 0 1 (by simp [hacc])).2
    (by simp [hdel]) hgc⟩

end State
end Tmysql4
