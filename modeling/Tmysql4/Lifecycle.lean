import Tmysql4.Effects

/-! # The life of a database

What holds of every database in every reachable state, whatever is called when (`lifecycle_exec`):
a handle that is a pointer points to a live object, the io thread runs exactly while the database
is connected, a connected database is live and initialised, and a stopped context has no running
handler.  On the stack, a frame that Lua code cannot run above is the innermost one, and the context
is stopped once `Disconnect` has left its wait loop. -/

namespace Tmysql4

/-- The record of a database is consistent. -/
structure Database.Ok (db : Database) : Prop where
  pointer_live : db.handle = .pointer → db.live = true
  thread : db.ioThread = db.isConnected
  connected_live : db.isConnected = true → db.live = true
  connected_init : db.isConnected = true → db.mysqlInit = true
  running_live : db.running.isSome = true → db.live = true
  stopped_idle : db.stopped = true → db.running = none

namespace Database

theorem Ok.construct (callback junk : Bool) : (construct callback junk).Ok :=
  ⟨nofun, rfl, nofun, nofun, nofun, nofun⟩

theorem Ok.raw : raw.Ok := ⟨nofun, rfl, nofun, nofun, nofun, nofun⟩

/-- The connect callback may push the handle of a live database. -/
theorem Ok.fire {db : Database} (h : db.Ok) (hl : db.live = true) : db.fire.Ok where
  pointer_live _ := by simpa using hl
  thread := by simpa using h.thread
  connected_live := by simpa using h.connected_live
  connected_init := by simpa using h.connected_init
  running_live := by simpa using h.running_live
  stopped_idle := by simpa using h.stopped_idle

end Database

/-- Lua code can run above the frame. -/
def Frame.suspended : Frame → Bool
  | .lua => true
  | .dispatch _ _ => true
  | .poll _ => true
  | .connect _ => true
  | .release _ => true
  | .wait _ => false
  | .destroy _ => false
  | .prepare _ _ => false

namespace State

structure Lifecycle (s : State) : Prop where
  fresh : ∀ d, s.nextDb ≤ d → s.db d = Database.raw
  ok : ∀ d, (s.db d).Ok
  known : ∀ f ∈ s.stack, ∀ d, f.uses d = true → d < s.nextDb
  suspended : ∀ f ∈ s.stack.tail, f.suspended = true
  stopping : ∀ d, .release d ∈ s.stack ∨ .destroy d ∈ s.stack → (s.db d).stopped = true
  destroying : ∀ d, .destroy d ∈ s.stack → (s.db d).isConnected = false ∧ (s.db d).handle = .null
  deleted_dead : ∀ d ∈ s.deleted, (s.db d).live = false ∧ d < s.nextDb
  deleted_nodup : s.deleted.Nodup

theorem lifecycle_init : init.Lifecycle where
  fresh _ _ := rfl
  ok _ := .raw
  known := nofun
  suspended := nofun
  stopping _ h := by simp [init] at h
  destroying _ h := by simp [init] at h
  deleted_dead := nofun
  deleted_nodup := List.nodup_nil

namespace Lifecycle

variable {s s' : State} {l : Label}

theorem lt_of_live (h : s.Lifecycle) {d : DbId} (hl : (s.db d).live = true) : d < s.nextDb := by
  by_contra hd
  rw [h.fresh d (Nat.le_of_not_lt hd)] at hl
  exact absurd hl (by decide)

/-- Lua code runs above suspended frames only. -/
theorem suspended_of_turn (h : s.Lifecycle) (turn : s.luaTurn = true) :
    ∀ f ∈ s.stack, f.suspended = true := by
  have hs := h.suspended
  unfold luaTurn at turn
  cases hstack : s.stack with
  | nil => nofun
  | cons f stack =>
      rw [hstack] at hs turn
      intro g hg
      rcases List.mem_cons.mp hg with rfl | hg
      · cases g with
        | lua => rfl
        | _ => cases turn
      · exact hs g hg

/-- A failed `Database:Connect` has no thread to join. -/
theorem not_canRelease (h : s.Lifecycle) {d : DbId} {r : ConnectResult}
    (idle : (s.db d).isConnected = false) (failed : r ≠ .connected) :
    ¬ (s.databaseInitialize d r).CanRelease d := by
  intro can
  have hthread := (h.ok d).thread
  have hio := can.ioThread
  cases r <;> simp_all

theorem fresh_step (h : s.Lifecycle) (he : s.Effect l s') (d : DbId) (hd : s'.nextDb ≤ d) :
    s'.db d = Database.raw := by
  have hraw := h.fresh d
  have hlt := h.lt_of_live (d := d)
  cases he with
  | stay turn => exact hraw hd
  | prepareCached => exact hraw hd
  | ret => exact hraw hd
  | dispatchDone => exact hraw hd
  | prepareFailed => exact hraw hd
  | stop d' work =>
      have hne : d ≠ d' := by
        rintro rfl
        rw [hraw hd] at work
        exact absurd work (by decide)
      simpa [hne] using hraw hd
  | _ =>
      simp at hd ⊢
      grind -linarith [Calls, CallsStmt, CanRelease]

theorem ok_step (h : s.Lifecycle) (he : s.Effect l s') (d : DbId) : (s'.db d).Ok := by
  have hok := h.ok d
  cases he with
  | stay turn => exact hok
  | prepareCached => exact hok
  | ret => exact hok
  | dispatchDone => exact hok
  | prepareFailed => exact hok
  | create callback junk turn =>
      have := Database.Ok.construct callback junk
      simp
      grind -linarith [Database.Ok, Database.construct]
  | connected callback junk turn =>
      have := Database.Ok.construct callback junk
      simp
      grind -linarith [Database.Ok, Database.Ok.fire, Database.construct]
  | connectFailed callback junk r turn failed =>
      simp
      grind -linarith [Database.Ok, Database.construct]
  | poll d' calls =>
      simp
      grind -linarith [Database.Ok.fire, Calls]
  | dbConnectFailed d' r calls idle failed can =>
      exact absurd can (h.not_canRelease idle failed)
  | destroy d' stack top live =>
      have hmem : .destroy d' ∈ s.stack := by rw [top]; exact List.mem_cons_self
      have hstop := h.stopping d' (.inr hmem)
      have hdest := h.destroying d' hmem
      simp
      grind -linarith [Database.Ok]
  | _ =>
      simp
      grind -linarith [Database.Ok, Calls]

theorem known_step (h : s.Lifecycle) (he : s.Effect l s') :
    ∀ f ∈ s'.stack, ∀ d, f.uses d = true → d < s'.nextDb := by
  intro f hf d hu
  have hlt : ∀ d, (s.db d).live = true → d < s.nextDb := fun d => h.lt_of_live
  have hk := h.known
  cases he with
  | stay turn => exact hk f hf d hu
  | _ =>
      simp at hf ⊢
      grind -linarith [Calls, CallsStmt, CanRelease, Frame.uses, Database.mem_connectFrames]

theorem suspended_step (h : s.Lifecycle) (he : s.Effect l s') :
    ∀ f ∈ s'.stack.tail, f.suspended = true := by
  have hturn := h.suspended_of_turn
  have hk := h.suspended
  have hpop : ∀ f stack, s.stack = f :: stack → ∀ g ∈ stack, g.suspended = true :=
    fun f stack top g hg => hk g (by simpa [top] using hg)
  have hpop' : ∀ f stack, s.stack = f :: stack → ∀ g ∈ stack.tail, g.suspended = true :=
    fun f stack top g hg => hpop f stack top g (List.mem_of_mem_tail hg)
  cases he with
  | stay turn => exact hk
  | prepareCached => exact hk
  | ret stack top => exact hpop' _ stack top
  | dispatchDone d stack top => exact hpop' _ stack top
  | connectDone d stack top => exact hpop' _ stack top
  | destroy d stack top => exact hpop' _ stack top
  | prepareFailed d query stack top => exact hpop' _ stack top
  | prepareDone d query sid stack top => exact hpop' _ stack top
  | connected callback junk turn =>
      intro f hf
      simp at hf
      rcases List.mem_cons.mp (Database.mem_tail_connectFrames _ hf) with rfl | hf
      · rfl
      · exact hturn turn f hf
  | poll d calls =>
      intro f hf
      simp at hf
      rcases List.mem_cons.mp (Database.mem_tail_connectFrames _ hf) with rfl | hf
      · rfl
      · exact hturn calls.turn f hf
  | _ =>
      simp
      grind -linarith [Calls, CallsStmt, Frame.suspended]

theorem stopping_step (h : s.Lifecycle) (he : s.Effect l s') (d : DbId)
    (hd : .release d ∈ s'.stack ∨ .destroy d ∈ s'.stack) : (s'.db d).stopped = true := by
  have hk := h.stopping d
  have hlt : .release d ∈ s.stack ∨ .destroy d ∈ s.stack → d < s.nextDb := by
    rintro (hm | hm)
    · exact h.known _ hm d (by simp [Frame.uses])
    · exact h.known _ hm d (by simp [Frame.uses])
  cases he with
  | stay turn => exact hk hd
  | prepareCached => exact hk hd
  | _ =>
      simp at hd ⊢
      grind -linarith [Database.mem_connectFrames, Database.fire_stopped]

theorem destroying_step (h : s.Lifecycle) (he : s.Effect l s') (d : DbId)
    (hd : .destroy d ∈ s'.stack) : (s'.db d).isConnected = false ∧ (s'.db d).handle = .null := by
  have hk := h.destroying d
  have hturn : s.luaTurn = true → .destroy d ∉ s.stack := fun turn hm => by
    simpa [Frame.suspended] using h.suspended_of_turn turn _ hm
  have htail : ∀ f stack, s.stack = f :: stack → .destroy d ∉ stack := fun f stack top hm => by
    simpa [Frame.suspended] using h.suspended (.destroy d) (by simpa [top] using hm)
  cases he with
  | stay turn => exact hk hd
  | prepareCached => exact hk hd
  | _ =>
      simp at hd ⊢
      grind -linarith [Calls, CallsStmt, Database.mem_connectFrames]

/-- A deleted database stays dead. -/
theorem deleted_dead_step (h : s.Lifecycle) (he : s.Effect l s') :
    ∀ d ∈ s'.deleted, (s'.db d).live = false ∧ d < s'.nextDb := by
  intro d hd
  have hdead := h.deleted_dead d
  have hlt : ∀ d, (s.db d).live = true → d < s.nextDb := fun d => h.lt_of_live
  cases he with
  | stay turn => exact hdead hd
  | prepareCached => exact hdead hd
  | _ =>
      simp at hd ⊢
      grind -linarith [Calls, Database.fire_live, CanRelease]

theorem deleted_nodup_step (h : s.Lifecycle) (he : s.Effect l s') : s'.deleted.Nodup := by
  have hnd := h.deleted_nodup
  have hdead := h.deleted_dead
  cases he with
  | connectFailed callback junk r turn failed =>
      have hnew : s.nextDb ∉ s.deleted := fun hm => Nat.lt_irrefl _ (hdead _ hm).2
      simp [List.nodup_append, hnd]
      exact fun d hm he => hnew (he ▸ hm)
  | dbConnectFailed d r calls idle failed can =>
      have hnew : d ∉ s.deleted := fun hm => by
        have := (hdead d hm).1
        rw [calls.live] at this
        cases this
      simp [List.nodup_append, hnd]
      exact fun d hm he => hnew (he ▸ hm)
  | destroy d stack top live =>
      have hnew : d ∉ s.deleted := fun hm => by
        have := (hdead d hm).1
        rw [live] at this
        cases this
      simp [List.nodup_append, hnd]
      exact fun d hm he => hnew (he ▸ hm)
  | _ => simpa using hnd

theorem effect (h : s.Lifecycle) (he : s.Effect l s') : s'.Lifecycle where
  fresh := h.fresh_step he
  ok := h.ok_step he
  known := h.known_step he
  suspended := h.suspended_step he
  stopping := h.stopping_step he
  destroying := h.destroying_step he
  deleted_dead := h.deleted_dead_step he
  deleted_nodup := h.deleted_nodup_step he

/-- A fault changes no object and no frame. -/
theorem faulted (h : s.Lifecycle) (f : Option Fault) : { s with fault := f }.Lifecycle :=
  ⟨h.fresh, h.ok, h.known, h.suspended, h.stopping, h.destroying, h.deleted_dead, h.deleted_nodup⟩

theorem step (h : s.Lifecycle) (hs : s.step l = some s') : s'.Lifecycle := by
  obtain ⟨-, he | ⟨f, -, rfl⟩⟩ := step_effect hs
  · exact h.effect he
  · exact h.faulted _

end Lifecycle
end State
end Tmysql4
