import Tmysql4.Teardown

/-! # The connect callback

`m_iCallback` and `m_bIsPendingCallback` together say whether the connect callback is still to be
called. The flag is written by the initial connect, by the trigger and by every reconnect of the
io thread, and the constructor leaves it indeterminate.  `KeepsCallback` is the condition under
which the callback is called when it should be (`connect_callback_once`): no poll of an
unconnected database whose flag happens to be set, no reconnect before the first poll, and no
`Disconnect` before it. -/

namespace Tmysql4

/-- The connect callback would be called now. -/
def Database.callbackPending (db : Database) : Bool :=
  db.isPendingCallback && decide (0 < db.callback)

/-- `m_iCallback` says whether the callback has been called: `-1` without a callback, `1` before the
call and `0` after it. -/
structure Database.Counted (db : Database) : Prop where
  without : db.callback = -1 ∨ db.callback = 0 ∨ db.callback = 1
  called : db.callback = 0 → db.connectStarted = 1
  uncalled : db.callback ≠ 0 → db.connectStarted = 0

namespace Database

theorem Counted.construct (callback junk : Bool) : (construct callback junk).Counted := by
  cases callback
  · exact ⟨.inl rfl, nofun, fun _ => rfl⟩
  · exact ⟨.inr (.inr rfl), nofun, fun _ => rfl⟩

theorem Counted.raw : raw.Counted := ⟨.inl rfl, nofun, fun _ => rfl⟩

/-- Only the two members matter. -/
theorem Counted.congr {db db' : Database} (h : db.Counted) (hc : db'.callback = db.callback)
    (hs : db'.connectStarted = db.connectStarted) : db'.Counted where
  without := by rw [hc]; exact h.without
  called := by rw [hc, hs]; exact h.called
  uncalled := by rw [hc, hs]; exact h.uncalled

theorem Counted.fire {db : Database} (h : db.Counted) : db.fire.Counted := by
  obtain ⟨hwithout, hcalled, huncalled⟩ := h
  unfold Database.fire
  split
  · constructor
    · grind -linarith
    · simp
      grind -linarith
    · simp
      grind -linarith
  · exact ⟨hwithout, hcalled, huncalled⟩

end Database

namespace State

variable {s s' : State} {l : Label} {d : DbId}

/-- The calls of the connect callback are neither early nor lost. -/
def KeepsCallback (s : State) : Label → Prop
  | .poll d => (s.db d).handle = .pointer → (s.db d).isConnected = false →
      (s.db d).callbackPending = false
  | .io d .reconnected => (s.db d).callbackPending = false
  | .disconnect d => (s.db d).handle = .pointer → (s.db d).isConnected = true →
      (s.db d).callbackPending = false
  | _ => True

instance (s : State) (l : Label) : Decidable (s.KeepsCallback l) := by
  apply Label.casesOn (motive := fun l => Decidable (s.KeepsCallback l)) l
  case io =>
    intro d i
    apply IoStep.casesOn (motive := fun i => Decidable (s.KeepsCallback (.io d i))) i <;>
      intros <;> dsimp only [KeepsCallback] <;> infer_instance
  all_goals
    intros
    dsimp only [KeepsCallback]
    infer_instance

/-- A connected database that has not called its callback has the flag set. -/
structure Triggered (s : State) : Prop where
  counted : ∀ d, (s.db d).Counted
  pending : ∀ d, (s.db d).isConnected = true → (s.db d).callback = 1 →
    (s.db d).isPendingCallback = true

theorem triggered_init : init.Triggered := ⟨fun _ => .raw, nofun⟩

theorem counted_step (h : s.Triggered) (hw : s.Wf) (he : s.Effect l s') (d : DbId) :
    (s'.db d).Counted := by
  have hd := h.counted d
  cases he with
  | stay turn => exact hd
  | dbConnectFailed d' r calls idle failed can =>
      exact absurd can (hw.lifecycle.not_canRelease idle failed)
  | create callback junk turn =>
      by_cases hn : d = s.nextDb
      · subst hn
        exact (Database.Counted.construct callback junk).congr (by simp) (by simp)
      · exact hd.congr (by simp [hn]) (by simp [hn])
  | connected callback junk turn =>
      by_cases hn : d = s.nextDb
      · subst hn
        have hinit : (((s.createDatabase callback junk).databaseInitialize s.nextDb .connected).db
            s.nextDb).Counted := (Database.Counted.construct callback junk).congr (by simp)
              (by simp)
        exact hinit.fire.congr (by simp) (by simp)
      · exact hd.congr (by simp [hn]) (by simp [hn])
  | connectFailed callback junk r turn failed =>
      by_cases hn : d = s.nextDb
      · subst hn
        exact (Database.Counted.construct callback junk).congr (by cases r <;> simp)
          (by cases r <;> simp)
      · exact hd.congr (by simp [hn]) (by simp [hn])
  | poll d' calls =>
      by_cases hn : d = d'
      · subst hn
        exact hd.fire.congr (by simp) (by simp)
      · exact hd.congr (by simp [hn]) (by simp [hn])
  | _ => exact hd.congr (by simp <;> grind -linarith) (by simp <;> grind)

theorem pending_step (h : s.Triggered) (hw : s.Wf) (hl : s.KeepsCallback l) (he : s.Effect l s')
    (d : DbId) (connected : (s'.db d).isConnected = true) (uncalled : (s'.db d).callback = 1) :
    (s'.db d).isPendingCallback = true := by
  have hp := h.pending d
  cases he with
  | stay turn => exact hp connected uncalled
  | dbConnectFailed d' r calls idle failed can =>
      exact absurd can (hw.lifecycle.not_canRelease idle failed)
  | reconnected d' task action live running runs =>
      have hkeep : (s.db d').callbackPending = false := hl
      simp at connected uncalled ⊢
      simp [Database.callbackPending] at hkeep
      grind -linarith
  | _ =>
      simp at connected uncalled ⊢
      grind -linarith [Database.fire, Database.construct]

/-- The invariant of runs that keep their connect callbacks. -/
theorem triggered_step (h : s.Triggered) (hw : s.Wf) (hl : s.KeepsCallback l)
    (hs : s.step l = some s') : s'.Triggered := by
  obtain ⟨-, he | ⟨f, -, rfl⟩⟩ := step_effect hs
  · exact ⟨counted_step h hw he, pending_step h hw hl he⟩
  · exact ⟨h.counted, h.pending⟩

/-- The callback is called on a connected database only. -/
theorem connectStarted_step (hw : s.Wf) (hl : s.KeepsCallback l) (hs : s.step l = some s')
    (hcalled : (s'.db d).connectStarted ≠ (s.db d).connectStarted) :
    (s'.db d).isConnected = true := by
  obtain ⟨-, he | ⟨f, -, rfl⟩⟩ := step_effect hs
  · cases he with
    | stay turn => exact absurd rfl hcalled
    | dbConnectFailed d' r calls idle failed can =>
        exact absurd can (hw.lifecycle.not_canRelease idle failed)
    | poll d' calls =>
        have hkeep := hl calls.handle
        simp at hcalled ⊢
        simp [Database.callbackPending] at hkeep
        grind -linarith [Database.fire]
    | create callback junk turn =>
        have hraw := hw.lifecycle.fresh s.nextDb (Nat.le_refl _)
        simp at hcalled
        grind -linarith [Database.construct, Database.raw]
    | connected callback junk turn =>
        simp at hcalled ⊢
        grind -linarith [Database.fire_isConnected]
    | connectFailed callback junk r turn failed =>
        have hraw := hw.lifecycle.fresh s.nextDb (Nat.le_refl _)
        simp at hcalled
        grind -linarith [Database.construct, Database.raw]
    | _ => simp at hcalled <;> grind -linarith
  · exact absurd rfl hcalled

/-- The callback of `d` has been called. -/
def Called (s : State) (d : DbId) : Prop := d < s.nextDb ∧ (s.db d).callback = 0

theorem called_step (h : s.Called d) (hw : s.Wf) (hs : s.step l = some s') : s'.Called d := by
  obtain ⟨hlt, hc⟩ := h
  obtain ⟨-, he | ⟨f, -, rfl⟩⟩ := step_effect hs
  · cases he with
    | stay turn => exact ⟨hlt, hc⟩
    | dbConnectFailed d' r calls idle failed can =>
        exact absurd can (hw.lifecycle.not_canRelease idle failed)
    | connectFailed callback junk r turn failed =>
        have hd : d ≠ s.nextDb := Nat.ne_of_lt hlt
        exact ⟨Nat.lt_succ_of_lt hlt, by simpa [hd] using hc⟩
    | _ =>
        constructor
        · simp
          grind -linarith
        · simp
          grind -linarith [Database.fire]
  · exact ⟨hlt, hc⟩

/-- A poll through a live handle goes ahead. -/
theorem poll_eq (hw : s.Wf) (handle : (s.db d).handle = .pointer)
    (hs : s.step (.poll d) = some s') : s' = (s.call (.poll d)).fired d := by
  have hlive := (hw.lifecycle.ok d).pointer_live handle
  unfold step at hs
  split at hs
  · cases hs
  · simp only [action] at hs
    split at hs
    · simp only [luaCall, method, luaPoll, getDatabaseFromStack, access, handle, hlive] at hs
      exact (Option.some.inj hs).symm
    · cases hs

/-- A poll of a connected database leaves its callback called, and so does a `Disconnect`. -/
theorem called_after (h : s.Triggered) (hw : s.Wf) (hl : s.KeepsCallback l)
    (hcall : l = .poll d ∨ l = .disconnect d) (hs : s.step l = some s')
    (handle : (s.db d).handle = .pointer) (connected : (s.db d).isConnected = true)
    (callback : (s.db d).callback ≠ -1) : s'.Called d := by
  have hlt := hw.lifecycle.lt_of_live ((hw.lifecycle.ok d).pointer_live handle)
  obtain hc | hc | hc := (h.counted d).without
  · exact absurd hc callback
  · exact called_step ⟨hlt, hc⟩ hw hs
  · have hp := h.pending d connected hc
    obtain rfl | rfl := hcall
    · rw [poll_eq hw handle hs]
      refine ⟨by simpa using hlt, ?_⟩
      simp [Database.fire, hp, hc]
    · have hkeep := hl handle connected
      simp [Database.callbackPending, hp, hc] at hkeep

theorem called_exec {tr : List Label} (h : s.Called d) (hw : s.Wf)
    (hs : Transition.exec State.step s tr = some s') : s'.Called d :=
  (Transition.exec_inv' (I := fun s => s.Wf ∧ s.Called d)
    (fun _ _ _ hI hs => ⟨hI.1.step hs, called_step hI.2 hI.1 hs⟩) ⟨hw, h⟩ hs).2

theorem triggered_exec {tr : List Label} (hG : Transition.Along State.step KeepsCallback init tr)
    (h : Transition.exec State.step init tr = some s) : s.Wf ∧ s.Triggered :=
  Transition.exec_inv (I := fun s => s.Wf ∧ s.Triggered)
    (fun _ _ _ hI hl hs => ⟨hI.1.step hs, triggered_step hI.2 hI.1 hl hs⟩)
      ⟨wf_init, triggered_init⟩ hG h

/-- **The connect callback is called once.** In a run that keeps its connect callbacks, no
callback is called twice, none is called on a database that is not connected, and the callback of
a database that was polled or disconnected while connected has been called. -/
theorem connect_callback_once {tr : List Label}
    (hG : Transition.Along State.step KeepsCallback init tr)
    (h : Transition.exec State.step init tr = some s) :
    (∀ d, (s.db d).connectStarted ≤ 1) ∧
    (∀ tr₁ l tr₂ s₁ s₂ d, tr = tr₁ ++ l :: tr₂ → Transition.exec State.step init tr₁ = some s₁ →
      s₁.step l = some s₂ → (s₂.db d).connectStarted ≠ (s₁.db d).connectStarted →
        (s₂.db d).isConnected = true) ∧
    ∀ tr₁ l tr₂ s₁ d, tr = tr₁ ++ l :: tr₂ → Transition.exec State.step init tr₁ = some s₁ →
      l = .poll d ∨ l = .disconnect d → (s₁.db d).handle = .pointer → (s₁.db d).isConnected = true →
        (s₁.db d).callback ≠ -1 → (s.db d).connectStarted = 1 := by
  obtain ⟨hw, htriggered⟩ := triggered_exec hG h
  refine ⟨fun d => ?_, fun tr₁ l tr₂ s₁ s₂ d htr hs₁ hstep hcalled => ?_,
    fun tr₁ l tr₂ s₁ d htr hs₁ hcall handle connected callback => ?_⟩
  · by_cases hc : (s.db d).callback = 0
    · exact Nat.le_of_eq ((htriggered.counted d).called hc)
    · rw [(htriggered.counted d).uncalled hc]
      exact Nat.zero_le 1
  · subst htr
    have hw₁ := (triggered_exec hG.left hs₁).1
    exact connectStarted_step hw₁ (hG.right hs₁).1 hstep hcalled
  · subst htr
    obtain ⟨hw₁, htriggered₁⟩ := triggered_exec hG.left hs₁
    obtain ⟨s₁', hs₁', hrest⟩ := Transition.exec_append_iff.mp h
    cases hs₁.symm.trans hs₁'
    obtain ⟨s₂, hstep, hrest⟩ := Transition.exec_cons_iff.mp hrest
    have hcalled := called_after htriggered₁ hw₁ (hG.right hs₁).1 hcall hstep handle connected
      callback
    exact (htriggered.counted d).called (called_exec hcalled (hw₁.step hstep) hrest).2

/-- A poll before the connect calls the callback when the flag happens to be set; a reconnect
before the first poll loses it; `Disconnect` does not call it. -/
theorem connect_callback_once_fails :
    (Transition.exec State.step init [.create true true, .poll 0]).map
        (fun s => ((s.db 0).connectStarted, (s.db 0).isConnected)) = some (1, false) ∧
    (Transition.exec State.step init
        [.create true false, .dbConnect 0 .connected, .query 0 false, .io 0 .take,
          .io 0 .reconnected, .io 0 (.finish true), .poll 0, .cpp, .cpp, .cpp]).map
        (fun s => ((s.db 0).connectStarted, s.stack)) = some (0, []) ∧
    (Transition.exec State.step init
        [.create true false, .dbConnect 0 .connected, .disconnect 0, .io 0 .stop, .cpp, .cpp, .cpp,
          .cpp]).map
        (fun s => ((s.db 0).connectStarted, s.deleted)) = some (0, [0]) := by decide

theorem connect_callback_once_create :
    ∃ s, Transition.exec State.step init
        [.create true false, .poll 0, .cpp, .cpp, .dbConnect 0 .connected, .poll 0, .ret, .cpp,
          .cpp, .query 0 true, .io 0 .take, .io 0 .reconnected] = some s ∧
            (s.db 0).connectStarted ≤ 1 := by
  obtain ⟨s, hs⟩ := Option.isSome_iff_exists.mp (show (Transition.exec State.step init
        [.create true false, .poll 0, .cpp, .cpp, .dbConnect 0 .connected, .poll 0, .ret, .cpp,
          .cpp, .query 0 true, .io 0 .take, .io 0 .reconnected]).isSome by decide)
  exact ⟨s, hs, (connect_callback_once (by decide) hs).1 0⟩

end State
end Tmysql4
