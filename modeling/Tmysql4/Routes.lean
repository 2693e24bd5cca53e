import Tmysql4.Delivery

/-! # Where the actions are

An action is posted when its call is accepted, and is on its way (`Outstanding`) until a dispatch
loop takes it up. `Routed` says where its id is meanwhile: no other call has it, and that of an
action with a callback is accepted and not started. -/

namespace Tmysql4

@[simp] theorem Database.fire_tasks (db : Database) : db.fire.tasks = db.tasks := by simp [tasks]

namespace State

variable {s s' : State} {l : Label} {d : DbId} {action : DatabaseAction}

/-! ### Actions on their way -/

/-- The action has not been dispatched yet. -/
inductive Outstanding (s : State) (d : DbId) (action : DatabaseAction) : Prop
  | task (task : Task) (mem : task ∈ (s.db d).tasks) (runs : task.action = some action)
  | completed (mem : action ∈ (s.db d).completedActions.pending)
  | hand (rest : List DatabaseAction) (mem : .dispatch d rest ∈ s.stack) (mem' : action ∈ rest)

def CallAccepted (s : State) (id : ℕ) : Prop := ∃ d, id ∈ (s.db d).accepted

def CallStarted (s : State) (id : ℕ) : Prop := ∃ d, id ∈ (s.db d).started

theorem outstanding_congr (htasks : (s'.db d).tasks = (s.db d).tasks)
    (hcompleted : (s'.db d).completedActions.pending = (s.db d).completedActions.pending)
    (hstack : ∀ rest, .dispatch d rest ∈ s'.stack → .dispatch d rest ∈ s.stack)
    (h : s'.Outstanding d action) :
    s.Outstanding d action := by
  cases h with
  | task task mem runs => exact .task task (htasks ▸ mem) runs
  | completed mem => exact .completed (hcompleted ▸ mem)
  | hand rest mem mem' => exact .hand rest (hstack rest mem) mem'

/-- More precisely, nothing new is on its way. -/
theorem Outstanding.of_sub (h : s'.Outstanding d action)
    (htasks : ∀ task ∈ (s'.db d).tasks, task ∈ (s.db d).tasks)
    (hcompleted : action ∈ (s'.db d).completedActions.pending → s.Outstanding d action)
    (hstack : ∀ rest, .dispatch d rest ∈ s'.stack → action ∈ rest → s.Outstanding d action) :
    s.Outstanding d action := by
  cases h with
  | task task mem runs => exact .task task (htasks task mem) runs
  | completed mem => exact hcompleted mem
  | hand rest mem mem' => exact hstack rest mem mem'

/-- The action of an accepted call. -/
theorem outstanding_accept {d' : DbId} {callback : Bool} {task : Task}
    (htask : task.action = some ⟨s.nextAction, callback⟩)
    (h : ((s.accept d' callback).post d' task).Outstanding d action) :
    s.Outstanding d action ∨ action = ⟨s.nextAction, callback⟩ := by
  cases h with
  | task task' mem runs =>
      by_cases hd : d = d'
      · subst hd
        have hmem : task' ∈ (s.db d).tasks ∨ task' = task := by
          simp [Database.tasks] at mem ⊢
          grind
        obtain hmem | rfl := hmem
        · exact .inl (.task task' hmem runs)
        · exact .inr (Option.some.inj (runs.symm.trans htask))
      · exact .inl (.task task' (by simpa [hd] using mem) runs)
  | completed mem => exact .inl (.completed (by by_cases hd : d = d' <;> simpa [hd] using mem))
  | hand rest mem mem' => exact .inl (.hand rest (by simpa using mem) mem')

/-- The completed actions are handed to a dispatch loop. -/
theorem outstanding_popAll {d' : DbId} (frames : List Frame) {stack : List Frame}
    (hstack : ∀ f ∈ stack, f ∈ s.stack) (hframes : ∀ rest, .dispatch d rest ∉ frames)
    (h : ({ s.popAll d' with
      stack := .dispatch d' (s.db d').completedActions.pending :: (frames ++ stack) } :
        State).Outstanding
      d action) : s.Outstanding d action := by
  refine h.of_sub (fun task mem => ?_) (fun mem => ?_) fun rest mem mem' => ?_
  · by_cases hd : d = d' <;> simpa [hd, Database.tasks] using mem
  · by_cases hd : d = d'
    · subst hd
      simp at mem
    · exact .completed (by simpa [hd] using mem)
  · simp only [List.mem_cons, List.mem_append, Frame.dispatch.injEq] at mem
    obtain ⟨rfl, rfl⟩ | mem | mem := mem
    · exact .completed mem'
    · exact absurd mem (hframes rest)
    · exact .hand rest (hstack _ mem) mem'

/-- An action is on its way since its call was accepted. -/
theorem outstanding_effect (hw : s.Wf) (he : s.Effect l s') (h : s'.Outstanding d action) :
    s.Outstanding d action ∨ action.id = s.nextAction ∧ s'.nextAction = s.nextAction + 1 ∧
      (action.callback = false → ∀ d, (s'.db d).accepted = (s.db d).accepted) := by
  have hraw := hw.lifecycle.fresh s.nextDb (Nat.le_refl _)
  -- a new database has no actions
  have hnew : (s.db s.nextDb).tasks = [] ∧ (s.db s.nextDb).completedActions.pending = [] := by
    rw [hraw]
    exact ⟨rfl, rfl⟩
  cases he with
  | stay turn => exact .inl h
  | create callback junk turn =>
      refine .inl (outstanding_congr ?_ ?_ (fun rest hm => by simpa using hm) h)
      · by_cases hd : d = s.nextDb
        · subst hd
          rw [hnew.1]
          simp [Database.tasks, Database.construct]
        · simp [hd, Database.tasks]
      · by_cases hd : d = s.nextDb
        · simp [hd, hnew, Database.construct]
        · simp [hd]
  | connected callback junk turn =>
      refine .inl (outstanding_congr ?_ ?_ (fun rest hm => ?_) h)
      · by_cases hd : d = s.nextDb
        · subst hd
          rw [hnew.1]
          simp [Database.tasks, Database.construct]
        · simp [hd]
      · by_cases hd : d = s.nextDb
        · subst hd
          rw [hnew.2]
          simp [Database.construct]
        · simp [hd]
      · simp at hm
        grind [Database.mem_connectFrames]
  | connectFailed callback junk r turn failed =>
      refine .inl (outstanding_congr ?_ ?_ (fun rest hm => by simpa using hm) h)
      · by_cases hd : d = s.nextDb
        · subst hd
          rw [hnew.1]
          cases r <;> simp [Database.tasks, Database.construct]
        · simp [hd]
      · by_cases hd : d = s.nextDb
        · subst hd
          rw [hnew.2]
          cases r <;> simp [Database.construct]
        · simp [hd]
  | query d' callback calls connected =>
      obtain h | rfl := outstanding_accept rfl h
      · exact .inl h
      · refine .inr ⟨rfl, by simp, ?_⟩
        rintro rfl d
        by_cases hd : d = d' <;> simp [hd]
  | run sid callback calls =>
      obtain h | rfl := outstanding_accept rfl h
      · exact .inl h
      · refine .inr ⟨rfl, by simp, ?_⟩
        rintro rfl d
        by_cases hd : d = (s.stmt sid).database <;> simp [hd]
  | dbConnectFailed d' r calls idle failed can =>
      exact absurd can (hw.lifecycle.not_canRelease idle failed)
  | poll d' calls =>
      refine .inl (outstanding_congr ?_ ?_ (fun rest hm => ?_) h)
      · by_cases hd : d = d' <;> simp [hd]
      · by_cases hd : d = d' <;> simp [hd]
      · simp at hm
        grind [Database.mem_connectFrames]
  | finish d' ok task action' live running runs =>
      by_cases hd : d = d'
      · subst hd
        refine .inl (h.of_sub (fun task' mem => ?_) (fun mem => ?_) fun rest mem mem' =>
          .hand rest (by simpa using mem) mem')
        · simp [Database.tasks] at mem
          simp [Database.tasks, mem]
        · have hmem : action ∈ (s.db d).completedActions.pending ∨
              action = action' := by simpa using mem
          obtain hmem | rfl := hmem
          · exact .completed hmem
          · exact .task task (by simp [Database.tasks, running]) runs
      · refine .inl (outstanding_congr ?_ ?_ (fun rest hm => by simpa using hm) h)
        · simp [hd]
        · simp [hd]
  | take d' task queue live thread active idle head =>
      refine .inl (outstanding_congr ?_ ?_ (fun rest hm => by simpa using hm) h)
      · by_cases hd : d = d'
        · subst hd
          simp [Database.tasks, idle, head]
        · simp [hd]
      · by_cases hd : d = d' <;> simp [hd]
  | created d' ok query live running =>
      refine .inl (h.of_sub (fun task' mem => ?_) (fun mem => .completed ?_) fun rest mem mem' =>
        .hand rest ?_ mem')
      · by_cases hd : d = d'
        · subst hd
          simp [Database.tasks] at mem
          simp [Database.tasks, mem]
        · simpa [hd] using mem
      · by_cases hd : d = d' <;> simpa [hd] using mem
      · simpa using mem
  | pollPop d' stack top live =>
      exact .inl (outstanding_popAll [] (fun f hf => by rw [top]; exact List.mem_cons_of_mem _ hf)
        (by simp) h)
  | waitDone d' stack top live stopped =>
      exact .inl (outstanding_popAll [.release d']
        (fun f hf => by rw [top]; exact List.mem_cons_of_mem _ hf) (by simp) h)
  | dispatchStart d' action' rest stack top live loud callback =>
      refine .inl (h.of_sub (fun task mem => ?_) (fun mem => .completed ?_)
        fun rest' mem mem' => ?_)
      · by_cases hd : d = d' <;> simpa [hd, Database.tasks] using mem
      · by_cases hd : d = d' <;> simpa [hd] using mem
      · simp at mem
        obtain ⟨rfl, rfl⟩ | mem := mem
        · exact .hand _ (by rw [top]; exact List.mem_cons_self) (List.mem_cons_of_mem _ mem')
        · exact .hand _ (by rw [top]; exact List.mem_cons_of_mem _ mem) mem'
  | dispatchSkip d' action' rest stack top live quiet =>
      refine .inl (h.of_sub (fun task mem => mem) (fun mem => .completed mem)
        fun rest' mem mem' => ?_)
      simp at mem
      obtain ⟨rfl, rfl⟩ | mem := mem
      · exact .hand _ (by rw [top]; exact List.mem_cons_self) (List.mem_cons_of_mem _ mem')
      · exact .hand _ (by rw [top]; exact List.mem_cons_of_mem _ mem) mem'
  | destroy d' stack top live =>
      refine .inl (h.of_sub (fun task mem => ?_) (fun mem => .completed ?_)
        fun rest' mem mem' => ?_)
      · by_cases hd : d = d'
        · subst hd
          simp [Database.tasks] at mem
          simp [Database.tasks, mem]
        · simpa [hd] using mem
      · by_cases hd : d = d' <;> simpa [hd] using mem
      · exact .hand _ (by rw [top]; exact List.mem_cons_of_mem _ (by simpa using mem)) mem'
  | prepare d' query calls connected uncached =>
      refine .inl ?_
      cases h with
      | task task mem runs =>
          have hmem : task ∈ (s.db d).tasks ∨ task = .createStatement query := by
            by_cases hd : d = d'
            · subst hd
              simp [Database.tasks] at mem ⊢
              grind
            · simp [hd] at mem
              exact .inl mem
          obtain hmem | rfl := hmem
          · exact .task task hmem runs
          · cases runs
      | completed mem => exact .completed (by by_cases hd : d = d' <;> simpa [hd] using mem)
      | hand rest mem mem' => exact .hand rest (by simpa using mem) mem'
  | _ =>
      refine .inl (outstanding_congr ?_ ?_ (fun rest hm => ?_) h)
      · simp <;> grind [Database.tasks]
      · simp <;> grind
      · simp_all

/-! ### Accepted and started calls -/

/-- A call is accepted under the next id. -/
theorem accepted_effect (hw : s.Wf) (he : s.Effect l s') {id : ℕ} (h : id ∈ (s'.db d).accepted) :
    id ∈ (s.db d).accepted ∨ id = s.nextAction ∧ s'.nextAction = s.nextAction + 1 ∧
      ∀ d', d' ≠ d → (s'.db d').accepted = (s.db d').accepted := by
  have hraw := hw.lifecycle.fresh s.nextDb (Nat.le_refl _)
  cases he with
  | stay turn => exact .inl h
  | _ =>
      simp at h ⊢
      grind [Database.construct, Database.raw, Database.fire_accepted]

theorem nextAction_effect (he : s.Effect l s') : s.nextAction ≤ s'.nextAction := by
  cases he with
  | stay turn => exact Nat.le_refl _
  | _ => simp

/-- Where the ids of actions and calls stand. -/
structure Routed (s : State) : Prop where
  numbered : s.Numbered
  apart : ∀ d d' id, id ∈ (s.db d).accepted → id ∈ (s.db d').accepted → d = d'
  bounded : ∀ d, (s.mailbox d).Bounded
  lt : ∀ d action, s.Outstanding d action → action.id < s.nextAction
  uncalled : ∀ d action, s.Outstanding d action → action.callback = false →
    ¬s.CallAccepted action.id

namespace Routed

variable (h : s.Routed)

include h

theorem accepted_lt {id : ℕ} (hid : s.CallAccepted id) : id < s.nextAction := by
  obtain ⟨d, hd⟩ := hid
  exact h.numbered.lt d id hd

theorem mem_accepted {id : ℕ} (hid : id ∈ (s.mailbox d).sequence) : id ∈ (s.db d).accepted := by
  have hpos := List.count_pos_iff.mpr hid
  exact List.count_pos_iff.mp (Nat.lt_of_lt_of_le hpos (h.bounded d id))

theorem accepted_of_started {id : ℕ} (hid : id ∈ (s.db d).started) : id ∈ (s.db d).accepted :=
  h.mem_accepted (List.mem_append_left _ hid)

theorem callAccepted_of_started {id : ℕ} (hid : s.CallStarted id) : s.CallAccepted id := by
  obtain ⟨d, hd⟩ := hid
  exact ⟨d, h.accepted_of_started hd⟩

/-- A call that waits or is in hand has not been started. -/
theorem not_started {id : ℕ} (hid : id ∈ (s.mailbox d).hand ++ (s.mailbox d).inbox) :
    ¬s.CallStarted id := by
  rintro ⟨d', hd'⟩
  have hacc := h.mem_accepted (List.mem_append_right _ hid)
  obtain rfl := h.apart d' d id (h.accepted_of_started hd') hacc
  have hone := List.nodup_iff_count_le_one.mp (h.numbered.nodup d') id
  have hbound := h.bounded d' id
  have hstarted : 0 < (s.mailbox d').started.count id := List.count_pos_iff.mpr hd'
  have hwaiting := List.count_pos_iff.mpr hid
  rw [Mailbox.sequence, List.count_append] at hbound
  have haccepted : (s.mailbox d').accepted.count id = (s.db d').accepted.count id := rfl
  omega

end Routed

theorem called_eq {action : DatabaseAction} (h : action.callback = true) :
    action.called = some action.id := if_pos h

/-- An action with a callback that is on its way is an accepted call that has not been started. -/
theorem Outstanding.waiting (h : s.Outstanding d action) (hcallback : action.callback = true) :
    action.id ∈ (s.mailbox d).hand ++ (s.mailbox d).inbox := by
  cases h with
  | task task mem runs =>
      refine List.mem_append_right _
        (List.mem_append_right _ (List.mem_filterMap.mpr ⟨task, mem, ?_⟩))
      rw [Task.called_of_action runs, called_eq hcallback]
  | completed mem =>
      exact List.mem_append_right _ (List.mem_append_left _
        (List.mem_filterMap.mpr ⟨action, mem, called_eq hcallback⟩))
  | hand rest mem mem' =>
      refine List.mem_append_left _ (List.mem_flatMap.mpr ⟨_, mem, ?_⟩)
      rw [Frame.hand_dispatch, if_pos rfl]
      exact List.mem_filterMap.mpr ⟨action, mem', called_eq hcallback⟩

theorem routed_effect (h : s.Routed) (hw : s.Wf) (he : s.Effect l s') : s'.Routed := by
  refine ⟨numbered_effect h.numbered he, fun d d' id hd hd' => ?_,
    fun d => (h.bounded d).step (step_mailbox hw he d), fun d action hout => ?_,
      fun d action hout hcallback hacc => ?_⟩
  · obtain hold | ⟨rfl, -, hsame⟩ := accepted_effect hw he hd
    · obtain hold' | ⟨rfl, -, -⟩ := accepted_effect hw he hd'
      · exact h.apart d d' id hold hold'
      · exact absurd (h.numbered.lt d _ hold) (Nat.lt_irrefl _)
    · by_contra hne
      rw [hsame d' (Ne.symm hne)] at hd'
      exact absurd (h.numbered.lt d' _ hd') (Nat.lt_irrefl _)
  · obtain hold | ⟨hid, hnext, -⟩ := outstanding_effect hw he hout
    · exact Nat.lt_of_lt_of_le (h.lt d action hold) (nextAction_effect he)
    · omega
  · obtain ⟨d', hd'⟩ := hacc
    obtain hold | ⟨hid, -, hsame⟩ := outstanding_effect hw he hout
    · obtain hacc | ⟨hid, -, -⟩ := accepted_effect hw he hd'
      · exact h.uncalled d action hold hcallback ⟨d', hacc⟩
      · have hlt := h.lt d action hold
        omega
    · rw [hsame hcallback d'] at hd'
      have hlt := h.numbered.lt d' _ hd'
      omega

theorem routed_faulted {f : Fault}
    (h : s.Routed) : ({ s with fault := some f } : State).Routed := by
  have hout : ∀ d action, ({ s with fault := some f } : State).Outstanding d action →
      s.Outstanding d action :=
    fun d action => outstanding_congr rfl rfl fun _ hm => hm
  exact ⟨⟨h.numbered.lt, h.numbered.nodup⟩, h.apart, h.bounded,
    fun d action ho => h.lt d action (hout d action ho),
      fun d action ho => h.uncalled d action (hout d action ho)⟩

theorem routed_init : init.Routed where
  numbered := numbered_init
  apart d d' id h := by cases h
  bounded _ _ := Nat.le_refl _
  lt d action h := by
    cases h with
    | task task mem runs => cases mem
    | completed mem => cases mem
    | hand rest mem mem' => cases mem
  uncalled d action h := by
    cases h with
    | task task mem runs => cases mem
    | completed mem => cases mem
    | hand rest mem mem' => cases mem

end State
end Tmysql4
