import Tmysql4.Statements
import Tmysql4.Transition

/-! # Tearing a database down

`Disconnect` and the finalizer run user callbacks and then go on to use `this`; so do `Poll` and
`tmysql.Connect`.  Two conditions on the calls a run makes are compared with what they protect.
`SafeTeardown`: a teardown begins only when no frame will access the database again; then nothing
deleted is accessed and nothing is deleted twice (`safe_teardown`).  `SafeRelease`: connection
attempts through `Database:Connect` succeed, finalizers are called on connected databases and
teardowns are not nested; then `Release` always finds a thread and an initialised handle
(`release_started`).  Both are invariants of the frames on the stack, found by `Orderly`. -/

namespace Tmysql4

/-- The frame belongs to a `Disconnect` of `d`. -/
def Frame.tearsDown (d : DbId) : Frame → Bool
  | .wait d' => d' = d
  | .release d' => d' = d
  | .destroy d' => d' = d
  | _ => false

/-- A deleted database is accessed, or a deleted statement on the Lua thread. -/
def Fault.gone : Fault → Bool
  | .databaseGone _ => true
  | .statementGone _ => true
  | _ => false

/-- `Release` meets an empty thread or an uninitialised `MYSQL`. -/
def Fault.unstarted : Fault → Bool
  | .nullThread _ => true
  | .uninitialisedMySQL _ => true
  | _ => false

namespace State

/-- Everything that holds in every reachable state. -/
structure Wf (s : State) : Prop where
  lifecycle : s.Lifecycle
  statements : s.Statements

theorem wf_init : init.Wf := ⟨lifecycle_init, statements_init⟩

theorem Wf.step {s s' : State} {l : Label} (h : s.Wf) (hs : s.step l = some s') : s'.Wf :=
  ⟨h.lifecycle.step hs, h.statements.step h.lifecycle hs⟩

/-- If `f` tears a database `d` down, then `g` is not one of the frames `P d`. -/
def Above (P : DbId → Frame → Bool) (f g : Frame) : Prop :=
  ∀ d, f.tearsDown d = true → P d g = false

section Above

variable (P : DbId → Frame → Bool) (d : DbId) (g : Frame)

@[simp] theorem above_wait : Above P (.wait d) g ↔ P d g = false := by simp [Above, Frame.tearsDown]
@[simp] theorem above_release : Above P (.release d) g ↔ P d g = false := by
  simp [Above, Frame.tearsDown]
@[simp] theorem above_destroy : Above P (.destroy d) g ↔ P d g = false := by
  simp [Above, Frame.tearsDown]
@[simp] theorem above_lua : Above P .lua g := nofun
@[simp] theorem above_dispatch (completed : List DatabaseAction) :
    Above P (.dispatch d completed) g := nofun
@[simp] theorem above_poll : Above P (.poll d) g := nofun
@[simp] theorem above_connect : Above P (.connect d) g := nofun
@[simp] theorem above_prepare (query : Bytes) : Above P (.prepare d query) g := nofun

end Above

/-- No frame below a teardown of `d` is one of the frames `P d`. -/
def Orderly (P : DbId → Frame → Bool) (s : State) : Prop := s.stack.Pairwise (Above P)

/-- The call tears the database `d` down. -/
inductive TearsDown (s : State) (d : DbId) : Label → Prop
  | disconnect (handle : (s.db d).handle = .pointer) (connected : (s.db d).isConnected = true) :
      TearsDown s d (.disconnect d)
  | dbGc (handle : (s.db d).handle = .pointer) : TearsDown s d (.dbGc d)

theorem orderly_effect {P : DbId → Frame → Bool} {s s' : State} {l : Label} (h : s.Orderly P)
    (hl : ∀ d, s.TearsDown d l → ∀ f ∈ s.stack, P d f = false) (he : s.Effect l s') :
    s'.Orderly P := by
  unfold Orderly at h ⊢
  cases he with
  | stay turn => exact h
  | prepareCached => exact h
  | connected callback junk turn =>
      simp [Database.connectFrames]
      split <;> simpa using h
  | poll d calls =>
      simp [Database.connectFrames]
      split <;> simpa using h
  | disconnect d calls connected =>
      have := hl d (.disconnect calls.handle connected)
      simpa using ⟨this, h⟩
  | dbGc d calls =>
      have := hl d (.dbGc calls.handle)
      simpa using ⟨this, h⟩
  | _ => 
      simp_all

/-! ### Teardown inside callbacks -/

/-- A teardown begins only when no frame will access the database again. -/
def UnusedTeardown (s : State) : Label → Prop
  | .disconnect d => (s.db d).handle = .pointer → (s.db d).isConnected = true →
      ∀ f ∈ s.stack, f.uses d = false
  | .dbGc d => (s.db d).handle = .pointer → ∀ f ∈ s.stack, f.uses d = false
  | _ => True

instance (s : State) (l : Label) : Decidable (s.UnusedTeardown l) := by
  apply Label.casesOn (motive := fun l => Decidable (s.UnusedTeardown l)) l <;>
    intros <;> dsimp only [UnusedTeardown] <;> infer_instance

theorem UnusedTeardown.unused {s : State} {l : Label} (h : s.UnusedTeardown l) {d : DbId}
    (hl : s.TearsDown d l) : ∀ f ∈ s.stack, f.uses d = false := by
  cases hl with
  | disconnect handle connected => exact h handle connected
  | dbGc handle => exact h handle

/-- What keeps a step from using a deleted database: teardowns of unused databases only, and
`tmysql.GetTable` only while the registry lists live databases. -/
def SafeTeardown (s : State) (l : Label) : Prop :=
  s.UnusedTeardown l ∧ (l = .getTable → ∀ d ∈ s.databases, (s.db d).live = true)

instance (s : State) (l : Label) : Decidable (s.SafeTeardown l) :=
  inferInstanceAs (Decidable (_ ∧ _))

/-- Every frame finds its database alive. -/
structure Owned (s : State) : Prop where
  orderly : s.Orderly Frame.uses
  live : ∀ f ∈ s.stack, ∀ d, f.uses d = true → (s.db d).live = true

theorem owned_init : init.Owned := ⟨.nil, nofun⟩

theorem owned_effect {s s' : State} {l : Label} (h : s.Owned) (hw : s.Wf) (hl : s.SafeTeardown l)
    (he : s.Effect l s') : s'.Owned := by
  refine ⟨orderly_effect h.orderly (fun d => hl.1.unused) he, ?_⟩
  intro f hf d hu
  have hlive := h.live
  have hknown := hw.lifecycle.known
  cases he with
  | stay turn => exact hlive f hf d hu
  | connectFailed callback junk r turn failed =>
      have hd : d ≠ s.nextDb := Nat.ne_of_lt (hknown f hf d hu)
      simpa [hd] using hlive f hf d hu
  | dbConnectFailed d' r calls idle failed can =>
      exact absurd can (hw.lifecycle.not_canRelease idle failed)
  | destroy d' stack top live =>
      -- the frames below this teardown do not use the database
      have horderly := h.orderly
      simp [Orderly, top] at horderly
      have hd : d ≠ d' := by
        rintro rfl
        rw [horderly.1 f hf] at hu
        cases hu
      simpa [hd] using hlive f (by simp [top]; exact .inr hf) d hu
  | release d' stack top can =>
      have hd := hlive (.release d') (by simp [top]) d' (by simp [Frame.uses])
      simp at hf ⊢
      grind -linarith [Frame.uses]
  | _ =>
      simp at hf ⊢
      grind -linarith [Frame.uses, Calls, Database.mem_connectFrames, Database.fire_live,
        Database.construct]

theorem Owned.faulted {s : State} (h : s.Owned) (f : Option Fault) : { s with fault := f }.Owned :=
  ⟨h.orderly, h.live⟩

theorem crash_gone {s : State} {l : Label} {f : Fault} (h : s.Owned) (hw : s.Wf)
    (hl : s.SafeTeardown l) (hc : s.Crash l f) : f.gone = false := by
  obtain ⟨hlife, hstmt⟩ := hw
  cases hc with
  | method d handle dead =>
      rw [(hlife.ok d).pointer_live handle] at dead
      cases dead
  | statement sid handle dead =>
      rw [(hstmt.pointer sid handle).live] at dead
      cases dead
  | parent sid handle live dead =>
      rw [(hlife.ok _).connected_live (hstmt.pointer sid handle).connected] at dead
      cases dead
  | cached d query sid calls connected cached dead =>
      rw [(hstmt.cached d connected).live _ (mem_of_lookup cached)] at dead
      cases dead
  | registry d mem dead =>
      rw [hl.2 rfl d mem] at dead
      cases dead
  | dbConnect d r f calls idle failed fault =>
      have hthread : ((s.databaseInitialize d r).db d).ioThread = false := by
        have := (hlife.ok d).thread
        cases r <;> simp_all
      have hlive : ((s.databaseInitialize d r).db d).live = true := by
        have := calls.live
        cases r <;> simp_all
      cases fault with
      | gone dead =>
          rw [dead] at hlive
          cases hlive
      | thread => rfl
      | statement _ thread =>
          rw [thread] at hthread
          cases hthread
      | mysql => rfl
  | frame d frame stack top uses dead =>
      rw [h.live frame (by simp [top]) d uses] at dead
      cases dead
  | release d stack f top live fault =>
      cases fault with
      | gone dead => simp [live] at dead
      | thread => rfl
      | statement _ thread mem dead =>
          have hcached := hstmt.cached d (by rw [← (hlife.ok d).thread, thread])
          rcases dead with dead | dead
          · obtain ⟨e, he, rfl⟩ := List.mem_map.mp mem
            rw [hcached.live e he] at dead
            cases dead
          · exact absurd hcached.values dead
      | mysql => rfl
  | thread d i dead busy =>
      have hlive : (s.db d).live = true := by
        rcases busy with busy | busy
        · exact (hlife.ok d).connected_live (by rw [← (hlife.ok d).thread, busy])
        · exact (hlife.ok d).running_live busy
      rw [hlive] at dead
      cases dead
  | task => rfl

/-- The invariant of runs with safe teardowns. -/
structure Safe (s : State) : Prop where
  wf : s.Wf
  owned : s.Owned
  fault : ∀ f, s.fault = some f → f.gone = false

theorem safe_step {s s' : State} {l : Label} (h : s.Safe) (hl : s.SafeTeardown l)
    (hs : s.step l = some s') : s'.Safe := by
  refine ⟨h.wf.step hs, ?_, ?_⟩
  · obtain ⟨-, he | ⟨f, -, rfl⟩⟩ := step_effect hs
    · exact owned_effect h.owned h.wf hl he
    · exact h.owned.faulted _
  · intro f hf
    obtain ⟨hnone, he | ⟨f', hc, rfl⟩⟩ := step_effect hs
    · rw [effect_fault he, hnone] at hf
      cases hf
    · cases hf
      exact crash_gone h.owned h.wf hl hc

/-- **Teardown in a callback.** In a run that tears a database down only when no frame will access
it again, no step accesses a deleted object, and nothing is deleted twice. -/
theorem safe_teardown {s : State} {tr : List Label}
    (hG : Transition.Along State.step SafeTeardown init tr)
    (h : Transition.exec State.step init tr = some s) :
    (∀ d, s.fault ≠ some (.databaseGone d)) ∧ (∀ sid, s.fault ≠ some (.statementGone sid)) ∧
      s.deleted.Nodup ∧ s.deletedStmts.Nodup := by
  have hsafe : s.Safe := Transition.exec_inv (fun _ _ _ hI hl hs => safe_step hI hl hs)
    ⟨wf_init, owned_init, nofun⟩ hG h
  refine ⟨fun d hd => ?_, fun sid hsid => ?_, hsafe.wf.lifecycle.deleted_nodup,
    hsafe.wf.statements.deleted_nodup⟩
  · cases hsafe.fault _ hd
  · cases hsafe.fault _ hsid

/-- The connect callback of `tmysql.Connect` disconnects the new database; `lua_Connect` then pushes
the handle of a deleted object. -/
theorem safe_teardown_fails :
    (Transition.exec State.step init
      [.connect true false .connected, .disconnect 0, .io 0 .stop, .cpp, .cpp, .cpp, .cpp, .ret,
        .cpp]).map (fun s => (s.fault, s.deleted)) = some (some (.databaseGone 0), [0]) := by decide

/-- A callback of `Poll` may disconnect the database as the last thing the dispatch does. -/
theorem safe_teardown_lastCallback :
    ∃ s, Transition.exec State.step init
        [.connect false false .connected, .cpp, .query 0 true, .io 0 .take, .io 0 (.finish true),
          .poll 0, .cpp, .cpp, .disconnect 0, .io 0 .stop, .cpp, .cpp, .cpp, .cpp, .ret, .cpp] =
            some s ∧
      s.deleted.Nodup ∧ ∀ d, s.fault ≠ some (.databaseGone d) := by
  obtain ⟨s, hs⟩ := Option.isSome_iff_exists.mp (show (Transition.exec State.step init
    [.connect false false .connected, .cpp, .query 0 true, .io 0 .take, .io 0 (.finish true),
      .poll 0, .cpp, .cpp, .disconnect 0, .io 0 .stop, .cpp, .cpp, .cpp, .cpp, .ret,
        .cpp]).isSome by decide)
  obtain ⟨hdb, -, hnodup, -⟩ := safe_teardown (by decide) hs
  exact ⟨s, hs, hnodup, hdb⟩

/-! ### Release -/

/-- What keeps `Release` away from databases that were never started: `Database:Connect` succeeds, a
finalizer is called on a connected database, and no teardown begins inside the dispatch of another
teardown. -/
def SafeRelease (s : State) : Label → Prop
  | .dbConnect d r => (s.db d).handle = .pointer → (s.db d).isConnected = false → r = .connected
  | .disconnect d => (s.db d).handle = .pointer → .release d ∉ s.stack
  | .dbGc d => (s.db d).handle = .pointer → (s.db d).isConnected = true ∧ .release d ∉ s.stack
  | _ => True

instance (s : State) (l : Label) : Decidable (s.SafeRelease l) := by
  apply Label.casesOn (motive := fun l => Decidable (s.SafeRelease l)) l <;>
    intros <;> dsimp only [SafeRelease] <;> infer_instance

theorem SafeRelease.single {s : State} {l : Label} (h : s.SafeRelease l) {d : DbId}
    (hl : s.TearsDown d l) : .release d ∉ s.stack := by
  cases hl with
  | disconnect handle connected => exact h handle
  | dbGc handle => exact (h handle).2

/-- A database that is being disconnected is connected until it is released. -/
structure Started (s : State) : Prop where
  orderly : s.Orderly fun d f => f = .release d
  connected : ∀ d, .wait d ∈ s.stack ∨ .release d ∈ s.stack → (s.db d).isConnected = true

theorem started_init : init.Started := ⟨.nil, by simp [init]⟩

theorem started_effect {s s' : State} {l : Label} (h : s.Started) (hw : s.Wf) (hl : s.SafeRelease l)
    (he : s.Effect l s') : s'.Started := by
  refine ⟨orderly_effect h.orderly (fun d hd f hf => ?_) he, ?_⟩
  · have := hl.single hd
    simp
    rintro rfl
    exact this hf
  intro d hd
  have hc := h.connected d
  have hknown : .wait d ∈ s.stack ∨ .release d ∈ s.stack → d < s.nextDb := by
    rintro (hm | hm)
    · exact hw.lifecycle.known _ hm d (by simp [Frame.uses])
    · exact hw.lifecycle.known _ hm d (by simp [Frame.uses])
  cases he with
  | stay turn => exact hc hd
  | prepareCached => exact hc hd
  | dbConnectFailed d' r calls idle failed can =>
      exact absurd can (hw.lifecycle.not_canRelease idle failed)
  | dbGc d' calls =>
      have := (hl calls.handle).1
      simp at hd ⊢
      grind -linarith
  | release d' stack top can =>
      have horderly := h.orderly
      simp [Orderly, top] at horderly
      have hwait : .wait d' ∉ stack := fun hm => by
        have := hw.lifecycle.suspended (.wait d') (by simp [top, hm])
        simp [Frame.suspended] at this
      simp at hd ⊢
      grind -linarith
  | _ =>
      simp at hd ⊢
      grind -linarith [Database.mem_connectFrames, Database.fire_isConnected]

theorem release_ready {s : State} (h : s.Started) (hw : s.Wf) {d : DbId} {stack : List Frame}
    (top : s.stack = .release d :: stack) :
    (s.db d).live = true ∧ (s.db d).ioThread = true ∧ (s.db d).mysqlInit = true := by
  have hc := h.connected d (.inr (by simp [top]))
  have hok := hw.lifecycle.ok d
  exact ⟨hok.connected_live hc, by rw [hok.thread, hc], hok.connected_init hc⟩

theorem crash_unstarted {s : State} {l : Label} {f : Fault} (h : s.Started) (hw : s.Wf)
    (hl : s.SafeRelease l) (hc : s.Crash l f) : f.unstarted = false := by
  cases hc with
  | dbConnect d r f calls idle failed fault => exact absurd (hl calls.handle idle) failed
  | release d stack f top live fault =>
      obtain ⟨-, hthread, hmysql⟩ := release_ready h hw top
      cases fault with
      | gone => rfl
      | thread _ thread =>
          rw [hthread] at thread
          cases thread
      | statement => rfl
      | mysql _ _ init =>
          rw [hmysql] at init
          cases init
  | _ => rfl

/-- The invariant of runs with safe releases. -/
structure Released (s : State) : Prop where
  wf : s.Wf
  started : s.Started
  fault : ∀ f, s.fault = some f → f.unstarted = false

theorem released_step {s s' : State} {l : Label} (h : s.Released) (hl : s.SafeRelease l)
    (hs : s.step l = some s') : s'.Released := by
  obtain ⟨hnone, he | ⟨f, hc, rfl⟩⟩ := step_effect hs
  · refine ⟨h.wf.step hs, started_effect h.started h.wf hl he, fun f hf => ?_⟩
    rw [effect_fault he, hnone] at hf
    cases hf
  · refine ⟨h.wf.step hs, ⟨h.started.orderly, h.started.connected⟩, fun f' hf => ?_⟩
    cases hf
    exact crash_unstarted h.started h.wf hl hc

/-- **Release on a started database.** In a run with safe releases, `Release` is entered only on a
live database with a thread and an initialised `MYSQL`, and never joins an empty thread or closes
an uninitialised handle. -/
theorem release_started {s : State} {tr : List Label}
    (hG : Transition.Along State.step SafeRelease init tr)
    (h : Transition.exec State.step init tr = some s) :
    (∀ d stack, s.stack = .release d :: stack →
      (s.db d).live = true ∧ (s.db d).ioThread = true ∧ (s.db d).mysqlInit = true) ∧
    (∀ d, s.fault ≠ some (.nullThread d)) ∧ ∀ d, s.fault ≠ some (.uninitialisedMySQL d) := by
  have hinv : s.Released := Transition.exec_inv (fun _ _ _ hI hl hs => released_step hI hl hs)
    ⟨wf_init, started_init, nofun⟩ hG h
  refine ⟨fun d stack top => release_ready hinv.started hinv.wf top, fun d hd => ?_, fun d hd => ?_⟩
  · cases hinv.fault _ hd
  · cases hinv.fault _ hd

/-- A database that failed to connect is released without a thread. -/
theorem release_started_fails :
    (Transition.exec State.step init [.create true false, .dbConnect 0 .refused]).map (·.fault) =
      some (some (.nullThread 0)) := by decide

/-- A run of connect, query and disconnect up to `Release`. -/
theorem release_started_disconnect :
    ∃ s, Transition.exec State.step init
        [.connect true false .connected, .ret, .cpp, .query 0 true, .io 0 .take,
          .io 0 (.finish true), .disconnect 0, .io 0 .stop, .cpp, .cpp, .ret, .cpp] = some s ∧
      (s.db 0).ioThread = true := by
  obtain ⟨s, hs, hstack⟩ : ∃ s, Transition.exec State.step init
        [.connect true false .connected, .ret, .cpp, .query 0 true, .io 0 .take,
          .io 0 (.finish true), .disconnect 0, .io 0 .stop, .cpp, .cpp, .ret, .cpp] = some s ∧
            s.stack = [.release 0] := by
    have := (show (Transition.exec State.step init
        [.connect true false .connected, .ret, .cpp, .query 0 true, .io 0 .take,
          .io 0 (.finish true), .disconnect 0, .io 0 .stop, .cpp, .cpp, .ret, .cpp]).map
            (·.stack) = some [.release 0] by decide)
    simpa using Option.map_eq_some_iff.mp this
  exact ⟨s, hs, ((release_started (by decide) hs).1 0 [] hstack).2.1⟩

end State
end Tmysql4
