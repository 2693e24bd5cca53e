import Tmysql4.Handles
import Tmysql4.Registry
import Tmysql4.Tasks

/-! # No dangling handles

The table of userdata and references agrees with the objects in every reachable
state of the module (`consistent_step`), whatever is called when.  `handles_sound`
reads off what Lua code can rely on: a userdata points to its own live object or
holds `NULL`, an object has one userdata at most and is deleted once, and a torn
down database takes its statements and all their handles with it. -/

namespace Tmysql4

open HandleTable (Status Table Agrees)

namespace State

variable {s s' : State} {l : Label} {d : DbId} {sid : StmtId}

/-- Which objects still have a handle to clear, and which are gone. -/
structure Handled (s : State) : Prop where
  connected : ∀ d, (s.db d).isConnected = true → (s.db d).handle ≠ .null
  cleared : ∀ d, (s.db d).live = true → (s.db d).handle = .null → .destroy d ∈ s.stack
  deleted : ∀ d, d < s.nextDb → (s.db d).live = false → d ∈ s.deleted
  deletedStmts : ∀ sid, sid < s.nextStmt → (s.stmt sid).live = false → sid ∈ s.deletedStmts

theorem handled_init : init.Handled := ⟨nofun, nofun, nofun, nofun⟩

theorem connected_effect (h : s.Handled) (he : s.Effect l s') (hd : (s'.db d).isConnected = true) :
    (s'.db d).handle ≠ .null := by
  have hk := h.connected d
  cases he with
  | stay turn => exact hk hd
  | prepareCached => exact hk hd
  | _ =>
      simp at hd ⊢
      grind -linarith [Calls, Database.fire, Database.construct]

theorem cleared_effect (h : s.Handled) (he : s.Effect l s') (hd : (s'.db d).live = true)
    (hnull : (s'.db d).handle = .null) : .destroy d ∈ s'.stack := by
  have hk := h.cleared d
  cases he with
  | stay turn => exact hk hd hnull
  | prepareCached => exact hk hd hnull
  | _ =>
      simp at hd hnull ⊢
      grind -linarith [Calls, Database.fire, Database.construct]

theorem deleted_effect (h : s.Handled) (he : s.Effect l s') (hlt : d < s'.nextDb)
    (hd : (s'.db d).live = false) : d ∈ s'.deleted := by
  have hk := h.deleted d
  cases he with
  | stay turn => exact hk hlt hd
  | prepareCached => exact hk hlt hd
  | _ =>
      simp at hlt hd ⊢
      grind -linarith [Calls, Database.fire_live, Database.construct]

theorem deletedStmts_effect (h : s.Handled) (he : s.Effect l s') (hlt : sid < s'.nextStmt)
    (hd : (s'.stmt sid).live = false) : sid ∈ s'.deletedStmts := by
  have hk := h.deletedStmts sid
  cases he with
  | stay turn => exact hk hlt hd
  | _ =>
      simp at hlt hd ⊢
      grind -linarith

theorem handled_effect (h : s.Handled) (he : s.Effect l s') : s'.Handled where
  connected _ := connected_effect h he
  cleared _ := cleared_effect h he
  deleted _ := deleted_effect h he
  deletedStmts _ := deletedStmts_effect h he

theorem handled_step (h : s.Handled) (hs : s.step l = some s') : s'.Handled := by
  obtain ⟨-, he | ⟨f, -, rfl⟩⟩ := step_effect hs
  · exact handled_effect h he
  · exact ⟨h.connected, h.cleared, h.deleted, h.deletedStmts⟩

/-! ### Every handle is cleared once -/

/-- Above `Release` no statement is being inserted, so that
the cached ones all have their handle. -/
theorem cached_pointer (hr : s.Returned) {f : Frame} {stack : List Frame}
    (top : s.stack = f :: stack) (hf : ∀ d query, f ≠ .prepare d query)
    (hlive : (s.stmt sid).live = true) : (s.stmt sid).handle = .pointer := by
  obtain hpointer | ⟨query, stack', top', -⟩ := hr sid hlive
  · exact hpointer
  · rw [top] at top'
    cases top'
    exact absurd rfl (hf _ _)

/-- `Release` nullifies the handles of the cached statements and of the database. -/
theorem handleOps_release {stack : List Frame} (top : s.stack = .release d :: stack) :
    s.handleOps .cpp = ((s.cached d).map Object.statement ++ [Object.database d]).map
      HandleOp.nullify := by
  simp only [handleOps, top, cached, List.map_append, List.map_map, List.map_cons, List.map_nil]
  rfl

theorem ready_release (hc : s.Correct) (hh : s.Handled) {stack : List Frame}
    (top : s.stack = .release d :: stack) (can : s.CanRelease d) :
    HandleOp.Ready (s.handleOps .cpp) s.status := by
  rw [handleOps_release top]
  refine HandleOp.ready_nullify ?_ fun o ho => ?_
  · rw [List.nodup_append]
    refine ⟨can.nodup.map fun sid sid' he => Object.statement.inj he, List.nodup_singleton _, ?_⟩
    rintro o ho o' ho' rfl
    rw [List.mem_singleton.mp ho'] at ho
    simp at ho
  · obtain ho | ho := List.mem_append.mp ho
    · obtain ⟨sid, hsid, rfl⟩ := List.mem_map.mp ho
      rw [status, cached_pointer hc.returned top (by simp) (can.stmt_live sid hsid)]
      rintro ⟨⟩
    · rw [List.mem_singleton.mp ho]
      have hconnected : (s.db d).isConnected =
          true := by rw [← (hc.wf.lifecycle.ok d).thread, can.ioThread]
      have hne := hh.connected d hconnected
      rw [status]
      cases hhandle : (s.db d).handle with
      | null => exact absurd hhandle hne
      | _ => rintro ⟨⟩

theorem ready_step (hc : s.Correct) (hh : s.Handled) (hs : s.step l = some s')
    (hf : s'.fault = none) : HandleOp.Ready (s.handleOps l) s.status := by
  cases l with
  | stmtGc sid =>
      simp only [handleOps]
      split
      · rename_i hpointer
        refine ⟨?_, trivial⟩
        rw [status, hpointer]
        rintro ⟨⟩
      · trivial
  | cpp =>
      by_cases htop : ∃ d stack, s.stack = .release d :: stack
      · obtain ⟨d, stack, top⟩ := htop
        obtain ⟨-, he | ⟨f, -, rfl⟩⟩ := step_effect hs
        · cases he with
          | release d' stack' top' can => exact ready_release hc hh top' can
          | stay turn => simp [luaTurn, top] at turn
          | _ => simp_all
        · cases hf
      · refine HandleOp.ready_push fun op hop => ?_
        simp only [handleOps] at hop
        grind -linarith
  | _ =>
      refine HandleOp.ready_push fun op hop => ?_
      simp only [handleOps] at hop
      grind -linarith

/-! ### Objects and their deletion -/

def live : Object → Bool
  | .database d => (s.db d).live
  | .statement sid => (s.stmt sid).live

def constructed : Object → Prop
  | .database d => d < s.nextDb
  | .statement sid => sid < s.nextStmt

/-- How often the object has been deleted. -/
def deletions : Object → ℕ
  | .database d => s.deleted.count d
  | .statement sid => s.deletedStmts.count sid

/-- The object is live; a database on which `Release` is over waits for its `delete` only. -/
def inService : Object → Prop
  | .database d => (s.db d).live = true ∧ .destroy d ∉ s.stack
  | .statement sid => (s.stmt sid).live = true

/-- The step deletes the object, or the database that owns it. -/
inductive Deletes (s : State) : Label → Object → Prop
  | database (d : DbId) (stack : List Frame) (top : s.stack = .destroy d :: stack) :
      Deletes s .cpp (.database d)
  | owned (d : DbId) (sid : StmtId) (stack : List Frame) (top : s.stack = .destroy d :: stack)
      (known : sid < s.nextStmt) (owner : (s.stmt sid).database = d) :
      Deletes s .cpp (.statement sid)
  | statement (sid : StmtId) (handle : (s.stmt sid).handle = .pointer) :
      Deletes s (.stmtGc sid) (.statement sid)

variable {o : Object}

theorem live_of_inService (h : s.inService o) : s.live o = true := by
  cases o with
  | database d => exact h.1
  | statement sid => exact h

theorem inService_of_held (hw : s.Wf) (h : s.status o = .held) : s.inService o := by
  have hpointer : ∀ {handle : Handle}, handle.status = .held → handle = .pointer := by
    intro handle hh
    cases handle with
    | pointer => rfl
    | _ => cases hh
  cases o with
  | database d =>
      have hd := hpointer h
      refine ⟨(hw.lifecycle.ok d).pointer_live hd, fun hm => ?_⟩
      rw [(hw.lifecycle.destroying d hm).2] at hd
      cases hd
  | statement sid => exact (hw.statements.pointer sid (hpointer h)).live

theorem not_inService_of_cleared (hc : s.Correct) (hh : s.Handled) (h : s.status o = .cleared) :
    ¬ s.inService o := by
  have hnull : ∀ {handle : Handle}, handle.status = .cleared → handle = .null := by
    intro handle hh
    cases handle with
    | null => rfl
    | _ => cases hh
  cases o with
  | database d => exact fun hs => hs.2 (hh.cleared d hs.1 (hnull h))
  | statement sid =>
      intro hlive
      have hn := hnull h
      obtain hpointer | ⟨query, stack, top, done⟩ := hc.returned sid hlive
      · rw [hpointer] at hn
        cases hn
      · rw [(hc.wf.statements.waiting _ query stack top).created sid done] at hn
        cases hn

theorem not_live_of_deleted (hw : s.Wf) (h : s.deletions o ≠ 0) : s.live o = false := by
  cases o with
  | database d =>
      exact (hw.lifecycle.deleted_dead d (List.count_pos_iff.mp (Nat.pos_of_ne_zero h))).1
  | statement sid =>
      exact (hw.statements.deleted_dead sid (List.count_pos_iff.mp (Nat.pos_of_ne_zero h))).1

/-- An object is deleted once, and then it is dead. -/
theorem deletions_eq (hw : s.Wf) (hh : s.Handled) (ho : s.constructed o) :
    s.deletions o = if s.live o = true then 0 else 1 := by
  split
  · rename_i hlive
    by_contra hne
    rw [not_live_of_deleted hw hne] at hlive
    cases hlive
  · rename_i hdead
    cases o with
    | database d =>
        exact List.count_eq_one_of_mem hw.lifecycle.deleted_nodup
          (hh.deleted d ho (by simpa [live] using hdead))
    | statement sid =>
        exact List.count_eq_one_of_mem hw.statements.deleted_nodup
          (hh.deletedStmts sid ho (by simpa [live] using hdead))

/-- The database of a live statement is connected. -/
theorem owner_connected (hc : s.Correct) (hlive : (s.stmt sid).live = true) :
    (s.db (s.stmt sid).database).isConnected = true := by
  obtain hpointer | ⟨query, stack, top, done⟩ := hc.returned sid hlive
  · exact (hc.wf.statements.pointer sid hpointer).connected
  · exact (hc.wf.statements.waiting _ query stack top).connected

/-- A dead object stays dead. -/
theorem gone_step (ho : s.constructed o) (hdead : s.live o = false) (hs : s.step l = some s') :
    s'.constructed o ∧ s'.live o = false := by
  obtain ⟨-, he | ⟨f, -, rfl⟩⟩ := step_effect hs
  · cases o with
    | database d =>
        simp only [constructed, live] at ho hdead ⊢
        cases he with
        | stay turn => exact ⟨ho, hdead⟩
        | prepareCached => exact ⟨ho, hdead⟩
        | _ =>
            simp
            grind -linarith [Database.fire_live]
    | statement sid =>
        simp only [constructed, live] at ho hdead ⊢
        cases he with
        | stay turn => exact ⟨ho, hdead⟩
        | _ =>
            simp
            grind -linarith
  · exact ⟨ho, hdead⟩

theorem gone_of_deletes (hc : s.Correct) (hd : s.Deletes l o) (hs : s.step l = some s')
    (hf : s'.fault = none) : s'.constructed o ∧ s'.live o = false := by
  cases hd with
  | database d stack top =>
      have hlt := hc.wf.lifecycle.known _ (by rw [top]; exact List.mem_cons_self) d
        (by simp [Frame.uses])
      obtain ⟨-, he | ⟨f, -, rfl⟩⟩ := step_effect hs
      · cases he with
        | destroy d' stack' top' live =>
            rw [top] at top'
            cases top'
            exact ⟨hlt, by simp [State.live]⟩
        | stay turn => simp [luaTurn, top] at turn
        | _ => simp_all
      · cases hf
  | owned d sid stack top known owner =>
      -- the statements of `d` went with `Release`
      refine gone_step (o := .statement sid) known ?_ hs
      have hclosed := (hc.wf.lifecycle.destroying d (by rw [top]; exact List.mem_cons_self)).1
      cases hlive : (s.stmt sid).live with
      | false => exact hlive
      | true =>
          have hconnected := owner_connected hc hlive
          rw [owner, hclosed] at hconnected
          cases hconnected
  | statement sid handle =>
      have hlt := hc.wf.statements.lt_of_live (hc.wf.statements.pointer sid handle).live
      have hok := ok_of_method (luaCall_of_step hs hf rfl (by simp) (by simp)).2
      unfold luaStmtGc getPStatementFromStack accessStmt access at hok
      rw [if_pos handle] at hok
      split at hok
      · split at hok
        · cases hok
          exact ⟨hlt, by simp [State.live]⟩
        · cases hok
      · cases hok

/-! ### Databases of a successful `tmysql.Connect` -/

/-- Databases come from a successful `tmysql.Connect`, and
no callback tears its own database down. -/
def FromConnect (s : State) (l : Label) : Prop :=
  s.UnusedTeardown l ∧
    match l with
    | .create _ _ => False
    | .connect _ _ result => result = .connected
    | _ => True

instance (s : State) (l : Label) : Decidable (s.FromConnect l) := by
  apply Label.casesOn (motive := fun l => Decidable (s.FromConnect l)) l <;>
    intros <;> dsimp only [FromConnect] <;> infer_instance

/-- A live database is connected until its handle is cleared. -/
def Opened (s : State) : Prop := ∀ d, (s.db d).live = true →
  (s.db d).handle = .null ∨ (s.db d).isConnected = true

theorem Opened.connected (h : s.Opened) (hw : s.Wf) (hpointer : (s.db d).handle = .pointer) :
    (s.db d).isConnected = true := by
  obtain hnull | hconnected := h d ((hw.lifecycle.ok d).pointer_live hpointer)
  · rw [hpointer] at hnull
    cases hnull
  · exact hconnected

theorem opened_effect (h : s.Opened) (hl : s.FromConnect l) (he : s.Effect l s') : s'.Opened := by
  intro d
  have hd := h d
  cases he with
  | stay turn => exact hd
  | prepareCached => exact hd
  | create => exact absurd hl.2 id
  | connectFailed callback junk r turn failed => exact absurd hl.2 failed
  | _ =>
      simp
      grind -linarith [Calls, Database.fire, Database.construct]

/-- The invariant of the runs on databases of a successful `tmysql.Connect`. -/
structure Serving (s : State) : Prop where
  safe : s.Safe
  released : s.Released
  listed : s.Listed
  opened : s.Opened

theorem serving_step (h : s.Serving) (hl : s.FromConnect l) (hs : s.step l = some s') :
    s'.Serving := by
  have hconnected := fun d => h.opened.connected h.safe.wf (d := d)
  have hidle : ∀ d result, l = .dbConnect d result → (s.db d).handle = .pointer →
      (s.db d).isConnected = false → result = .connected := by
    intro d result _ hpointer hidle
    rw [hconnected d hpointer] at hidle
    cases hidle
  have hconnects : s.Connects l := by
    cases l with
    | connect callback junk result => exact hl.2
    | dbConnect d result => exact hidle d result rfl
    | _ => trivial
  have hrelease : s.SafeRelease l := by
    have hunused : ∀ {d}, (∀ f ∈ s.stack, f.uses d = false) → .release d ∉ s.stack := by
      intro d hall hm
      have := hall _ hm
      simp [Frame.uses] at this
    cases l with
    | dbConnect d result => exact hidle d result rfl
    | disconnect d => exact fun hpointer => hunused (hl.1 hpointer (hconnected d hpointer))
    | dbGc d => exact fun hpointer => ⟨hconnected d hpointer, hunused (hl.1 hpointer)⟩
    | _ => trivial
  have hsafe := safe_step h.safe ⟨hl.1, fun _ d hd => (h.listed d).mp hd⟩ hs
  have hreleased := released_step h.released hrelease hs
  obtain ⟨-, he | ⟨f, -, rfl⟩⟩ := step_effect hs
  · exact ⟨hsafe, hreleased, listed_effect h.listed hconnects he, opened_effect h.opened hl he⟩
  · exact ⟨hsafe, hreleased, h.listed, h.opened⟩

theorem serving_init : init.Serving :=
  ⟨⟨wf_init, owned_init, nofun⟩,
    ⟨wf_init, started_init, nofun⟩, by intro d; simp [init, Database.raw], nofun⟩

/-- No handler executes `sid`, and none has met it dead. -/
def NeverRun (s : State) (sid : StmtId) : Prop :=
  (∀ d, ∀ task ∈ (s.db d).tasks, task.stmt ≠ some sid) ∧ s.fault ≠ some (.taskStatementGone sid)

theorem neverRun_step (h : s.NeverRun sid) (hl : ∀ callback, l ≠ .run sid callback)
    (hs : s.step l = some s') : s'.NeverRun sid := by
  obtain ⟨htasks, hfault⟩ := h
  obtain ⟨hnone, he | ⟨f, hc, rfl⟩⟩ := step_effect hs
  · refine ⟨fun d => ?_, by rw [effect_fault he, hnone]; exact nofun⟩
    have hd := htasks d
    cases he with
    | stay turn => exact hd
    | run sid' callback calls =>
        have hne : sid' ≠ sid := fun heq => hl callback (heq ▸ rfl)
        simp [Database.tasks] at *
        grind -linarith [Task.stmt_runStatement]
    | _ =>
        simp [Database.tasks] at *
        grind -linarith [Task.stmt_runQuery, Task.stmt_createStatement, Database.construct,
          Database.fire_running, Database.fire_queue]
  · refine ⟨htasks, fun hf => ?_⟩
    cases hf
    cases hc with
    | dbConnect d r f calls idle failed fault => cases fault
    | release d stack f top live fault => cases fault
    | task d i sid action mem dead =>
        refine htasks d (.runStatement sid action) ?_ rfl
        obtain mem | mem := mem
        · exact List.mem_append_right _ mem
        · simp [Database.tasks, mem]

end State

namespace Module

variable {m m' : Module} {l : Label}

/-- The invariant of the module. -/
structure Consistent (m : Module) : Prop where
  correct : m.state.Correct
  handled : m.state.Handled
  agrees : Agrees Object.typeId m.state.status m.handles

theorem state_step (hs : m.step l = some m') : m.state.step l = some m'.state := by
  obtain ⟨s', hs', rfl⟩ := Option.map_eq_some_iff.mp hs
  exact hs'

theorem consistent_init : init.Consistent := by
  refine ⟨State.correct_init, State.handled_init, ?_⟩
  have hstatus : init.state.status = fun _ => .unseen := by
    funext o
    cases o <;> rfl
  rw [hstatus]
  exact Agrees.empty

theorem consistent_step (h : m.Consistent) (hs : m.step l = some m') : m'.Consistent := by
  obtain ⟨s', hs', rfl⟩ := Option.map_eq_some_iff.mp hs
  refine ⟨State.correct_step h.correct hs', State.handled_step h.handled hs', ?_⟩
  cases hf : s'.fault with
  | some f =>
      obtain ⟨hnone, he | ⟨f', -, rfl⟩⟩ := State.step_effect hs'
      · rw [State.effect_fault he, hnone] at hf
        cases hf
      · exact h.agrees
  | none =>
      simp only [Option.isSome_none, Bool.false_eq_true, if_false]
      rw [State.status_step h.correct.wf hs' hf]
      exact HandleOp.agrees_run h.agrees (State.ready_step h.correct h.handled hs' hf)

/-- What Lua code can rely on. -/
structure Sound (m : Module) : Prop where
  /-- An object has one userdata at most. -/
  once : ∀ o, (m.handles.boxes.map (·.origin)).count o ≤ 1
  /-- A userdata points to a live object of its own type, or to nothing. -/
  points : ∀ b ∈ m.handles.boxes, b.data = none ∨
    ∃ o, b.data = some o ∧ o.typeId = b.tag ∧ m.state.live o = true
  /-- `m_iLuaRef` of an object in service leads to its userdata. -/
  reference : ∀ o, m.state.inService o → m.handles.ref o = 0 ∨
    ∃ u b, m.handles.registry (m.handles.ref o) = some u ∧ m.handles.boxes[u]? = some b ∧
      b.data = some o
  /-- An object that is gone has been deleted exactly once. -/
  deletions : ∀ o, m.state.constructed o →
    m.state.deletions o = if m.state.live o = true then 0 else 1
  /-- The statements of a database go with it. -/
  owner : ∀ sid, (m.state.stmt sid).live = true →
    m.state.inService (.database (m.state.stmt sid).database)
  /-- The userdata of an object that is gone holds `NULL`. -/
  null : ∀ b ∈ m.handles.boxes, ¬ m.state.inService b.origin → b.data = none

theorem Consistent.sound (h : m.Consistent) : m.Sound := by
  obtain ⟨hc, hh, ha⟩ := h
  -- a userdata that points somewhere is that of a held object
  have hheld : ∀ b ∈ m.handles.boxes, b.data ≠ none → m.state.status b.origin = .held := by
    intro b hb hdata
    cases hs : m.state.status b.origin with
    | held => rfl
    | unseen => exact absurd rfl ((ha.unseen _ hs).2 b hb)
    | cleared => exact absurd ((ha.cleared _ hs).2 b hb rfl) hdata
  refine ⟨fun o => List.nodup_iff_count_le_one.mp ha.once o, fun b hb => ?_, fun o ho => ?_,
    fun o ho => State.deletions_eq hc.wf hh ho, fun sid hlive => ?_, fun b hb ho => ?_⟩
  · obtain ⟨htag, hnone | hsome⟩ := ha.own b hb
    · exact .inl hnone
    · have hservice := State.inService_of_held hc.wf (hheld b hb (by rw [hsome]; exact nofun))
      exact .inr ⟨b.origin, hsome, htag.symm, State.live_of_inService hservice⟩
  · cases hs : m.state.status o with
    | unseen => exact .inl (ha.unseen o hs).1
    | held =>
        obtain ⟨u, hu, hb⟩ := ha.held o hs
        exact .inr ⟨u, _, hu, hb, rfl⟩
    | cleared => exact absurd ho (State.not_inService_of_cleared hc hh hs)
  · have hconnected := State.owner_connected hc hlive
    refine ⟨(hc.wf.lifecycle.ok _).connected_live hconnected, fun hm => ?_⟩
    rw [(hc.wf.lifecycle.destroying _ hm).1] at hconnected
    cases hconnected
  · by_contra hdata
    exact ho (State.inService_of_held hc.wf (hheld b hb hdata))

theorem consistent_exec {tr : List Label} (hm : m.Consistent)
    (h : Transition.exec step m tr = some m') :
    m'.Consistent := Transition.exec_inv' (fun _ _ _ hI hs => consistent_step hI hs) hm h

theorem gone_exec {tr : List Label} {o : Object} (ho : m.state.constructed o)
    (hdead : m.state.live o = false) (h : Transition.exec step m tr = some m') :
    m'.state.live o = false :=
  (Transition.exec_inv' (I := fun m => m.state.constructed o ∧ m.state.live o = false)
    (fun _ _ _ hI hs => State.gone_step hI.1 hI.2 (state_step hs)) ⟨ho, hdead⟩ h).2

/-- A handler that meets a deleted statement was posted by `Run`. -/
theorem run_of_fault {tr : List Label} {sid : StmtId} (h : Transition.exec step init tr = some m)
    (hf : m.state.fault = some (.taskStatementGone sid)) : ∃ callback, .run sid callback ∈ tr := by
  by_contra hnone
  have hguard : Transition.Along step (fun _ l => ∀ callback, l ≠ .run sid callback) init tr := by
    refine .of_forall ?_ init
    rintro l hl _ callback rfl
    exact hnone ⟨callback, hl⟩
  have hnever : m.state.NeverRun sid := Transition.exec_inv (I := fun m => m.state.NeverRun sid)
    (fun _ _ _ hI hl hs => State.neverRun_step hI hl (state_step hs)) ⟨nofun, nofun⟩ hguard h
  exact hnever.2 hf

/-- On databases of a successful `tmysql.Connect` nothing
but a queued `Run` meets a deleted object. -/
theorem fault_of_serving {s : State} {f : Fault} (h : s.Serving) (hf : s.fault = some f) :
    ∃ sid, f = .taskStatementGone sid := by
  cases f with
  | databaseGone d => cases h.safe.fault _ hf
  | statementGone sid => cases h.safe.fault _ hf
  | taskStatementGone sid => exact ⟨sid, rfl⟩
  | nullThread d => cases h.released.fault _ hf
  | uninitialisedMySQL d => cases h.released.fault _ hf

/-- **Handles never dangle.** In every reachable state a userdata points to its own live object or
holds `NULL`, an object has one userdata at most, its reference leads there, and what has been
deleted was deleted once.  A step that deletes an object, or the database that owns it, leaves
`NULL` in its userdata for good. On databases of a successful `tmysql.Connect`, no call and no
teardown meets a deleted object. -/
theorem handles_sound {tr : List Label} (h : Transition.exec step init tr = some m) :
    m.Sound ∧
    (∀ tr₁ l tr₂ m₁ m₂ o, tr = tr₁ ++ l :: tr₂ → Transition.exec step init tr₁ = some m₁ →
      m₁.step l = some m₂ → m₂.state.fault = none → m₁.state.Deletes l o →
        m.state.live o = false ∧ ∀ b ∈ m.handles.boxes, b.origin = o → b.data = none) ∧
    (Transition.Along step (fun m l => m.state.FromConnect l) init tr →
      ∀ f, m.state.fault = some f →
      ∃ sid callback, f = .taskStatementGone sid ∧ .run sid callback ∈ tr) := by
  have hsound := (consistent_exec consistent_init h).sound
  refine ⟨hsound, ?_, fun hG f hf => ?_⟩
  · intro tr₁ l tr₂ m₁ m₂ o htr hs₁ hl hf hd
    subst htr
    have hc₁ := consistent_exec consistent_init hs₁
    obtain ⟨hknown, hdead⟩ := State.gone_of_deletes hc₁.correct hd (state_step hl) hf
    have hgone := gone_exec hknown hdead (Transition.exec_split h hs₁ hl)
    refine ⟨hgone, fun b hb ho => hsound.null b hb fun hs => ?_⟩
    rw [ho] at hs
    rw [State.live_of_inService hs] at hgone
    cases hgone
  · have hserving : m.state.Serving := Transition.exec_inv (I := fun m => m.state.Serving)
      (fun _ _ _ hI hl hs => State.serving_step hI hl (state_step hs)) State.serving_init hG h
    obtain ⟨sid, rfl⟩ := fault_of_serving hserving hf
    obtain ⟨callback, hrun⟩ := run_of_fault h hf
    exact ⟨sid, callback, rfl, hrun⟩

/-- Two databases with a statement each; one statement and one database are finalized, twice. -/
theorem handles_sound_two :
    ∃ m, Transition.exec step init
        [.connect false false .connected, .cpp, .connect false true .connected, .cpp,
          .prepare 0 [1], .io 0 .take, .io 0 (.finish true), .cpp, .prepare 1 [1], .io 1 .take,
          .io 1 (.finish true), .cpp, .getTable, .stmtGc 0, .stmtGc 0, .disconnect 1, .io 1 .stop,
            .cpp, .cpp, .cpp, .cpp, .dbGc 1, .stmtGc 1] = some m ∧
      m.handles.boxes.map (·.data) = [some (.database 0), none, none, none] ∧ m.Sound ∧
        m.state.fault = none := by
  obtain ⟨m, hs, hboxes⟩ := Option.map_eq_some_iff.mp (show (Transition.exec step init
        [.connect false false .connected, .cpp, .connect false true .connected, .cpp,
          .prepare 0 [1], .io 0 .take, .io 0 (.finish true), .cpp, .prepare 1 [1], .io 1 .take,
          .io 1 (.finish true), .cpp, .getTable, .stmtGc 0, .stmtGc 0, .disconnect 1, .io 1 .stop,
            .cpp, .cpp, .cpp, .cpp, .dbGc 1, .stmtGc 1]).map
          (fun m => m.handles.boxes.map (·.data)) =
            some [some (.database 0), none, none, none] by decide +kernel)
  obtain ⟨hsound, -, hfault⟩ := handles_sound hs
  refine ⟨m, hs, hboxes, hsound, Option.eq_none_iff_forall_ne_some.mpr fun f hf => ?_⟩
  obtain ⟨sid, callback, -, hrun⟩ := hfault (by decide +kernel) f hf
  simp at hrun

end Module
end Tmysql4
