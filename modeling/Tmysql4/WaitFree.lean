import Tmysql4.ActionQueue
import Tmysql4.Occurrences

/-! # How long a push takes

`push` is a compare-and-exchange loop.  A turn of it is lost when another thread has changed
`head_` since the last load, or when the exchange fails spuriously: `push_bounded` bounds the
accesses of a push by the number of both.

The io thread of a database is the only one that pushes to its queue, and the exchange of
`pop_all` leaves an empty list, which it then stays.  So a push loses one turn at most, whatever
the Lua thread does meanwhile (`push_wait_free`). -/

namespace Tmysql4.ActionQueue

open Transition

variable {s s' : QState} {l : Label} {t t' : Tid} {data staleHead : Node} {tr : List Label}

/-- An access of the thread `t`. -/
def Label.own (t : Tid) : Label → Bool
  | .step t' => t' = t
  | .spurious t' => t' = t
  | _ => false

/-- The thread `t` is not called. -/
def Label.NoCall (t : Tid) : Label → Prop
  | .push t' _ => t' ≠ t
  | .popAll t' => t' ≠ t
  | _ => True

instance (t : Tid) (l : Label) : Decidable (l.NoCall t) := by
  cases l <;> unfold Label.NoCall <;> infer_instance

/-- No thread but `t` is called to push. -/
def Label.SolePusher (t : Tid) : Label → Prop
  | .push t' _ => t' = t
  | _ => True

instance (t : Tid) (l : Label) : Decidable (l.SolePusher t) := by
  cases l <;> unfold Label.SolePusher <;> infer_instance

/-- The compare-and-exchange of `t` fails because `head_` is not the expected value. -/
def fails (t : Tid) (s : QState) (l : Label) : Bool :=
  match s.pc t with
  | .cas _ staleHead => decide (l = .step t) && decide (s.head ≠ staleHead)
  | _ => false

/-- Another thread changes `head_` during the push of `t`. -/
def disturbs (t : Tid) (s : QState) (l : Label) : Bool :=
  (s.pc t).pushing.isSome && !l.own t && (step s l).any fun s' => s'.head ≠ s.head

/-! ### The accesses of a push -/

/-- What an access of a thread that pushes `data` does. -/
inductive Access (t : Tid) (data : Node) (s s' : QState) : Label → Prop
  | load : s.pc t = .load data → s'.pc t = .link data s.head → s'.head = s.head →
      s'.pushed = s.pushed → Access t data s s' (.step t)
  | link {staleHead : Node} : s.pc t = .link data staleHead → s'.pc t = .cas data staleHead →
      s'.head = s.head → s'.pushed = s.pushed → Access t data s s' (.step t)
  | swing : s.pc t = .cas data s.head → s'.pc t = .idle → s'.pushed = s.pushed ++ [data] →
      Access t data s s' (.step t)
  | fail {staleHead : Node} : s.pc t = .cas data staleHead → s.head ≠ staleHead →
      s'.pc t = .link data s.head →
      s'.head = s.head → s'.pushed = s.pushed → Access t data s s' (.step t)
  | spurious {staleHead : Node} : s.pc t = .cas data staleHead → s'.pc t = .link data s.head →
      s'.head = s.head → s'.pushed = s.pushed → Access t data s s' (.spurious t)

theorem own_eq (h : l.own t = true) : l = .step t ∨ l = .spurious t := by
  cases l with
  | step t' => exact .inl (of_decide_eq_true h ▸ rfl)
  | spurious t' => exact .inr (of_decide_eq_true h ▸ rfl)
  | push t' data => cases h
  | popAll t' => cases h
  | reuse n v => cases h

theorem step_access (s : QState) (t : Tid) : step s (.step t) = advance s t := rfl

theorem access (hpush : (s.pc t).pushing = some data) (hown : l.own t = true)
    (hs : step s l = some s') : Access t data s s' l := by
  obtain rfl | rfl := own_eq hown
  · rw [step_access, advance] at hs
    cases hpc : s.pc t with
    | load data' =>
        rw [hpc] at hpush hs
        cases hpush
        cases hs
        exact .load hpc (Function.update_self _ _ _) rfl rfl
    | link data' staleHead =>
        rw [hpc] at hpush hs
        cases hpush
        cases hs
        exact .link hpc (Function.update_self _ _ _) rfl rfl
    | cas data' staleHead =>
        rw [hpc] at hpush hs
        cases hpush
        simp only at hs
        by_cases hhead : s.head = staleHead
        · rw [if_pos hhead] at hs
          cases hs
          exact .swing (hhead ▸ hpc) (Function.update_self _ _ _) rfl
        · rw [if_neg hhead] at hs
          cases hs
          exact .fail hpc hhead (Function.update_self _ _ _) rfl rfl
    | _ =>
        rw [hpc] at hpush
        cases hpush
  · unfold step at hs
    cases hpc : s.pc t with
    | cas data' staleHead =>
        rw [hpc] at hpush
        cases hpush
        simp only [hpc] at hs
        cases hs
        exact .spurious hpc (Function.update_self _ _ _) rfl rfl
    | _ =>
        simp only [hpc] at hs
        cases hs

/-- An idle thread makes no access. -/
theorem idle_access (hpc : s.pc t = .idle) (hown : l.own t = true) : step s l = none := by
  obtain rfl | rfl := own_eq hown
  · rw [step, advance, hpc]
  · rw [step, hpc]

/-- The next access of a push waits for nothing. -/
theorem pushing_enabled (hpush : (s.pc t).pushing = some data) :
    ∃ s', step s (.step t) = some s' := by
  rw [step_access, advance]
  cases hpc : s.pc t with
  | load data' => exact ⟨_, rfl⟩
  | link data' staleHead => exact ⟨_, rfl⟩
  | cas data' staleHead =>
      by_cases hhead : s.head = staleHead
      · exact ⟨_, if_pos hhead⟩
      · exact ⟨_, if_neg hhead⟩
  | _ =>
      rw [hpc] at hpush
      cases hpush

/-- A step that is neither an access nor a call of `t` leaves it where it is. -/
theorem pc_frame (hown : l.own t = false) (hcall : l.NoCall t) (hs : step s l = some s') :
    s'.pc t = s.pc t := by
  cases l with
  | push t' data =>
      rw [step] at hs
      split at hs <;> cases hs
      exact Function.update_of_ne (Ne.symm hcall) _ _
  | popAll t' =>
      rw [step] at hs
      split at hs <;> cases hs
      exact Function.update_of_ne (Ne.symm hcall) _ _
  | spurious t' =>
      have hne : t ≠ t' := Ne.symm (of_decide_eq_false hown)
      rw [step] at hs
      split at hs <;> cases hs
      exact Function.update_of_ne hne _ _
  | reuse n v =>
      cases hs
      rfl
  | step t' =>
      have hne : t ≠ t' := Ne.symm (of_decide_eq_false hown)
      rw [step_access, advance] at hs
      cases hpc : s.pc t' with
      | idle =>
          rw [hpc] at hs
          cases hs
      | cas | reverse | walk =>
          rw [hpc] at hs
          simp only at hs
          split at hs <;> cases hs <;> exact Function.update_of_ne hne _ _
      | _ =>
          rw [hpc] at hs
          cases hs
          exact Function.update_of_ne hne _ _

/-- The pushes so far are never forgotten. -/
theorem pushed_grows (hs : step s l = some s') : s.pushed <+: s'.pushed := by
  cases l with
  | push t' data =>
      rw [step] at hs
      split at hs <;> cases hs
      exact List.prefix_rfl
  | popAll t' =>
      rw [step] at hs
      split at hs <;> cases hs
      exact List.prefix_rfl
  | spurious t' =>
      rw [step] at hs
      split at hs <;> cases hs
      exact List.prefix_rfl
  | reuse n v =>
      cases hs
      exact List.prefix_rfl
  | step t' =>
      rw [step_access, advance] at hs
      cases hpc : s.pc t' with
      | idle =>
          rw [hpc] at hs
          cases hs
      | cas =>
          rw [hpc] at hs
          simp only at hs
          split at hs <;> cases hs
          · exact List.prefix_append _ _
          · exact List.prefix_rfl
      | reverse | walk =>
          rw [hpc] at hs
          simp only at hs
          split at hs <;> cases hs <;> exact List.prefix_rfl
      | _ =>
          rw [hpc] at hs
          cases hs
          exact List.prefix_rfl

/-! ### Lost turns -/

/-- The accesses that a push still needs when it is left alone. -/
def Pc.toPush (head : Node) : Pc → ℕ
  | .load _ => 3
  | .link _ staleHead => if staleHead = head then 2 else 4
  | .cas _ staleHead => if staleHead = head then 1 else 3
  | _ => 0

/-- The next compare-and-exchange is going to fail. -/
def Pc.stale (head : Node) : Pc → ℕ
  | .link _ staleHead => if staleHead = head then 0 else 1
  | .cas _ staleHead => if staleHead = head then 0 else 1
  | _ => 0

section Potentials

variable (head head' : Node)

@[simp] theorem Pc.toPush_idle : Pc.idle.toPush head = 0 := rfl
@[simp] theorem Pc.toPush_load : (Pc.load data).toPush head = 3 := rfl
@[simp] theorem Pc.toPush_link :
    (Pc.link data staleHead).toPush head = if staleHead = head then 2 else 4 := rfl
@[simp] theorem Pc.toPush_cas :
    (Pc.cas data staleHead).toPush head = if staleHead = head then 1 else 3 := rfl

@[simp] theorem Pc.stale_idle : Pc.idle.stale head = 0 := rfl
@[simp] theorem Pc.stale_load : (Pc.load data).stale head = 0 := rfl
@[simp] theorem Pc.stale_link :
    (Pc.link data staleHead).stale head = if staleHead = head then 0 else 1 := rfl
@[simp] theorem Pc.stale_cas :
    (Pc.cas data staleHead).stale head = if staleHead = head then 0 else 1 := rfl

/-- A change of `head_` costs a push two accesses at most. -/
theorem Pc.toPush_le (pc : Pc) : pc.toPush head' ≤ pc.toPush head + 2 := by
  cases pc with
  | link data staleHead =>
      rw [Pc.toPush_link, Pc.toPush_link]
      split_ifs <;> omega
  | cas data staleHead =>
      rw [Pc.toPush_cas, Pc.toPush_cas]
      split_ifs <;> omega
  | _ => exact Nat.le_add_right _ _

theorem Pc.stale_le (pc : Pc) : pc.stale head' ≤ 1 := by
  cases pc with
  | link data staleHead =>
      rw [Pc.stale_link]
      split_ifs <;> omega
  | cas data staleHead =>
      rw [Pc.stale_cas]
      split_ifs <;> omega
  | _ => exact Nat.zero_le _

end Potentials

/-- The thread `t` pushes `data`, or has pushed it since the state `s₀`. -/
def Pushes (t : Tid) (data : Node) (s₀ s : QState) : Prop :=
  (s.pc t).pushing = some data ∧ s₀.pushed <+: s.pushed ∨
    s.pc t = .idle ∧ ∃ between since, s.pushed = s₀.pushed ++ between ++ data :: since

theorem toPush_pos (hpush : (s.pc t).pushing = some data) : 0 < (s.pc t).toPush s.head := by
  cases hpc : s.pc t with
  | load data' =>
      rw [Pc.toPush_load]
      omega
  | link data' staleHead =>
      rw [Pc.toPush_link]
      split_ifs <;> omega
  | cas data' staleHead =>
      rw [Pc.toPush_cas]
      split_ifs <;> omega
  | _ =>
      rw [hpc] at hpush
      cases hpush

theorem Pushes.step {s₀ : QState} (h : Pushes t data s₀ s) (hcall : l.NoCall t)
    (hs : step s l = some s') : Pushes t data s₀ s' := by
  obtain ⟨hpush, hgrows⟩ | ⟨hidle, between, since, hpushed⟩ := h
  · cases hown : l.own t with
    | true =>
        cases access hpush hown hs with
        | load hpc hpc' hhead hpushed => exact .inl ⟨by rw [hpc']; rfl, hpushed ▸ hgrows⟩
        | link hpc hpc' hhead hpushed => exact .inl ⟨by rw [hpc']; rfl, hpushed ▸ hgrows⟩
        | fail hpc hne hpc' hhead hpushed => exact .inl ⟨by rw [hpc']; rfl, hpushed ▸ hgrows⟩
        | spurious hpc hpc' hhead hpushed => exact .inl ⟨by rw [hpc']; rfl, hpushed ▸ hgrows⟩
        | swing hpc hpc' hpushed =>
            obtain ⟨between, hbetween⟩ := hgrows
            exact .inr ⟨hpc', between, [], by rw [hpushed, hbetween]⟩
    | false =>
        exact .inl ⟨by rw [pc_frame hown hcall hs]; exact hpush, hgrows.trans (pushed_grows hs)⟩
  · cases hown : l.own t with
    | true =>
        rw [idle_access hidle hown] at hs
        cases hs
    | false =>
        obtain ⟨more, hmore⟩ := pushed_grows hs
        refine .inr ⟨by rw [pc_frame hown hcall hs]; exact hidle, between, since ++ more, ?_⟩
        rw [← hmore, hpushed, List.append_assoc, List.append_assoc, List.cons_append,
          List.append_assoc]

theorem disturbs_eq (hown : l.own t = false) (hs : step s l = some s') :
    disturbs t s l = decide ((s.pc t).pushing.isSome = true ∧ s'.head ≠ s.head) := by
  rw [disturbs, hown, hs, Option.any_some, Bool.not_false, Bool.and_true, Bool.decide_and,
    Bool.decide_eq_true]

/-- A step that changes `head_` during the push of another thread disturbs it. -/
theorem disturbs_of_ne (hpush : (s.pc t).pushing = some data) (hown : l.own t = false)
    (hs : step s l = some s') (hhead : s'.head ≠ s.head) : disturbs t s l = true := by
  rw [disturbs_eq hown hs, hpush]
  exact decide_eq_true ⟨rfl, hhead⟩

/-- A push takes as many accesses as it needs alone, and two more for every turn that it loses. -/
theorem toPush_step {s₀ : QState} (h : Pushes t data s₀ s) (hcall : l.NoCall t)
    (hs : step s l = some s') : (l.own t).toNat + (s'.pc t).toPush s'.head ≤
      (s.pc t).toPush s.head + 2 * (decide (l = .spurious t) || disturbs t s l).toNat := by
  cases hown : l.own t with
  | true =>
      obtain ⟨hpush, -⟩ | ⟨hidle, -⟩ := h
      · rw [Bool.toNat_true]
        cases access hpush hown hs with
        | load hpc hpc' hhead hpushed =>
            rw [hpc, hpc', hhead, Pc.toPush_load, Pc.toPush_link, if_pos rfl]
            omega
        | link hpc hpc' hhead hpushed =>
            rw [hpc, hpc', hhead, Pc.toPush_link, Pc.toPush_cas]
            split_ifs <;> omega
        | swing hpc hpc' hpushed =>
            rw [hpc, hpc', Pc.toPush_cas, Pc.toPush_idle, if_pos rfl]
            omega
        | fail hpc hne hpc' hhead hpushed =>
            rw [hpc, hpc', hhead, Pc.toPush_cas, Pc.toPush_link, if_pos rfl, if_neg (Ne.symm hne)]
            omega
        | spurious hpc hpc' hhead hpushed =>
            rw [hpc, hpc', hhead, Pc.toPush_cas, Pc.toPush_link, if_pos rfl, decide_eq_true rfl,
              Bool.true_or, Bool.toNat_true]
            split_ifs <;> omega
      · rw [idle_access hidle hown] at hs
        cases hs
  | false =>
      rw [pc_frame hown hcall hs, Bool.toNat_false]
      obtain ⟨hpush, -⟩ | ⟨hidle, -⟩ := h
      · by_cases hhead : s'.head = s.head
        · rw [hhead]
          omega
        · have hle := (s.pc t).toPush_le s.head s'.head
          rw [disturbs_of_ne hpush hown hs hhead, Bool.or_true, Bool.toNat_true]
          omega
      · rw [hidle, Pc.toPush_idle]
        omega

/-- Only accesses fail. -/
theorem fails_of_not_own (hown : l.own t = false) : fails t s l = false := by
  have hne : l ≠ .step t := by
    rintro rfl
    rw [Label.own, decide_eq_true rfl] at hown
    cases hown
  unfold fails
  split
  · rw [decide_eq_false hne, Bool.false_and]
  · rfl

/-- A compare-and-exchange that fails and not spuriously has been disturbed. -/
theorem stale_step {s₀ : QState} (h : Pushes t data s₀ s) (hcall : l.NoCall t)
    (hs : step s l = some s') :
    (fails t s l).toNat + (s'.pc t).stale s'.head ≤
      (s.pc t).stale s.head + 1 * (disturbs t s l).toNat := by
  cases hown : l.own t with
  | true =>
      obtain ⟨hpush, -⟩ | ⟨hidle, -⟩ := h
      · unfold fails
        cases access hpush hown hs with
        | load hpc hpc' hhead hpushed =>
            rw [hpc, hpc', hhead, Pc.stale_link, if_pos rfl]
            exact Nat.zero_le _
        | link hpc hpc' hhead hpushed =>
            rw [hpc, hpc', hhead, Pc.stale_link, Pc.stale_cas, Bool.toNat_false]
            omega
        | swing hpc hpc' hpushed =>
            simp [hpc, hpc']
        | fail hpc hne hpc' hhead hpushed =>
            rw [hpc, hpc', hhead, Pc.stale_cas, Pc.stale_link, if_pos rfl, if_neg (Ne.symm hne)]
            exact Nat.le_add_right_of_le (Bool.toNat_le _)
        | spurious hpc hpc' hhead hpushed =>
            rw [hpc, hpc', hhead, Pc.stale_link, if_pos rfl]
            exact Nat.zero_le _
      · rw [idle_access hidle hown] at hs
        cases hs
  | false =>
      rw [fails_of_not_own hown, pc_frame hown hcall hs, Bool.toNat_false]
      obtain ⟨hpush, -⟩ | ⟨hidle, -⟩ := h
      · by_cases hhead : s'.head = s.head
        · rw [hhead]
          omega
        · have hle := (s.pc t).stale_le s'.head
          rw [disturbs_of_ne hpush hown hs hhead, Bool.toNat_true]
          omega
      · rw [hidle, Pc.stale_idle]
        omega

/-! ### A sole pusher -/

/-- No other thread is in `push`. -/
def Sole (t : Tid) (s : QState) : Prop := ∀ t', t' ≠ t → (s.pc t').pushing = none

theorem sole_init (next : Node → Node) (t : Tid) : Sole t (QState.init next) := fun _ _ => rfl

theorem Sole.goto {pc : Pc} (h : Sole t s) (t₁ : Tid) (hpc : t₁ ≠ t → pc.pushing = none) :
    Sole t (s.goto t₁ pc) := by
  intro t' hne
  unfold QState.goto
  by_cases ht : t' = t₁
  · subst ht
    simp only [Function.update_self]
    exact hpc hne
  · simp only [Function.update_of_ne ht]
    exact h t' hne

/-- A thread other than the sole pusher is not called to
push, and changes `head_` only to empty the list. -/
theorem sole_step (h : Sole t s) (hl : l.SolePusher t) (hs : step s l = some s') :
    Sole t s' ∧ (l.own t = false → s'.head = s.head ∨ s'.head = 0) := by
  cases l with
  | push t₁ data =>
      rw [step] at hs
      split at hs <;> cases hs
      exact ⟨h.goto t₁ fun hne => absurd hl hne, fun _ => .inl rfl⟩
  | popAll t₁ =>
      rw [step] at hs
      split at hs <;> cases hs
      exact ⟨h.goto t₁ fun _ => rfl, fun _ => .inl rfl⟩
  | spurious t₁ =>
      rw [step] at hs
      split at hs <;> cases hs
      rename_i data staleHead hpc
      refine ⟨h.goto t₁ fun hne => ?_, fun _ => .inl rfl⟩
      have hnone := h t₁ hne
      rw [hpc] at hnone
      cases hnone
  | reuse n v =>
      cases hs
      exact ⟨h, fun _ => .inl rfl⟩
  | step t₁ =>
      rw [step_access, advance] at hs
      have hother : ∀ data, (s.pc t₁).pushing = some data → t₁ = t := by
        intro data hpush
        by_contra hne
        rw [h t₁ hne] at hpush
        cases hpush
      have hown : t₁ = t → Label.own t (.step t₁) ≠ false := by
        intro ht hfalse
        rw [Label.own, decide_eq_true ht] at hfalse
        cases hfalse
      cases hpc : s.pc t₁ with
      | idle =>
          rw [hpc] at hs
          cases hs
      | load data =>
          have ht := hother data (by rw [hpc]; rfl)
          rw [hpc] at hs
          cases hs
          exact ⟨h.goto t₁ fun hne => absurd ht hne, fun _ => .inl rfl⟩
      | link data staleHead =>
          have ht := hother data (by rw [hpc]; rfl)
          rw [hpc] at hs
          cases hs
          exact ⟨Sole.goto (s := s.write data staleHead) h t₁ fun hne => absurd ht hne,
            fun _ => .inl rfl⟩
      | cas data staleHead =>
          have ht := hother data (by rw [hpc]; rfl)
          rw [hpc] at hs
          simp only at hs
          split at hs <;> cases hs
          · exact ⟨Sole.goto (s := s.swing data) h t₁ fun _ => rfl,
              fun hfalse => absurd hfalse (hown ht)⟩
          · exact ⟨h.goto t₁ fun hne => absurd ht hne, fun _ => .inl rfl⟩
      | exchange =>
          rw [hpc] at hs
          cases hs
          exact ⟨Sole.goto (s := s.detach t₁) h t₁ fun _ => rfl, fun _ => .inr rfl⟩
      | reverse last first =>
          rw [hpc] at hs
          simp only at hs
          split at hs <;> cases hs <;> exact ⟨h.goto t₁ fun _ => rfl, fun _ => .inl rfl⟩
      | relink tmp last first =>
          rw [hpc] at hs
          cases hs
          exact ⟨Sole.goto (s := s.write tmp first) h t₁ fun _ => rfl, fun _ => .inl rfl⟩
      | returned first =>
          rw [hpc] at hs
          cases hs
          exact ⟨h.goto t₁ fun _ => rfl, fun _ => .inl rfl⟩
      | walk completed =>
          rw [hpc] at hs
          simp only at hs
          split at hs <;> cases hs
          · exact ⟨h.goto t₁ fun _ => rfl, fun _ => .inl rfl⟩
          · exact ⟨Sole.goto (s := s.delete t₁) h t₁ fun _ => rfl, fun _ => .inl rfl⟩

/-- The push of `t` can still be disturbed. -/
def exposed (t : Tid) (s : QState) : ℕ := if (s.pc t).pushing.isSome ∧ s.head ≠ 0 then 1 else 0

theorem exposed_step {s₀ : QState} (hsole : Sole t s) (hl : l.SolePusher t) (h : Pushes t data s₀ s)
    (hcall : l.NoCall t) (hs : step s l = some s') :
    (disturbs t s l).toNat + exposed t s' ≤ exposed t s := by
  cases hown : l.own t with
  | true =>
      rw [disturbs, hown, Bool.not_true, Bool.and_false, Bool.false_and, Bool.toNat_false,
        Nat.zero_add]
      obtain ⟨hpush, -⟩ | ⟨hidle, -⟩ := h
      · unfold exposed
        rw [hpush]
        cases access hpush hown hs with
        | load hpc hpc' hhead hpushed =>
            rw [hpc', hhead]
            exact Nat.le_refl _
        | link hpc hpc' hhead hpushed =>
            rw [hpc', hhead]
            exact Nat.le_refl _
        | fail hpc hne hpc' hhead hpushed =>
            rw [hpc', hhead]
            exact Nat.le_refl _
        | spurious hpc hpc' hhead hpushed =>
            rw [hpc', hhead]
            exact Nat.le_refl _
        | swing hpc hpc' hpushed =>
            rw [hpc', if_neg (by rintro ⟨hsome, -⟩; cases hsome)]
            exact Nat.zero_le _
      · rw [idle_access hidle hown] at hs
        cases hs
  | false =>
      rw [disturbs_eq hown hs]
      unfold exposed
      rw [pc_frame hown hcall hs]
      obtain hhead | hzero := (sole_step hsole hl hs).2 hown
      · rw [hhead, decide_eq_false (fun hand => hand.2 rfl), Bool.toNat_false]
        omega
      · rw [hzero, if_neg (fun hand => hand.2 rfl), Nat.add_zero]
        by_cases hexposed : (s.pc t).pushing.isSome = true ∧ s.head ≠ 0
        · rw [if_pos hexposed]
          exact Bool.toNat_le _
        · rw [if_neg hexposed]
          exact Nat.le_of_eq (congrArg Bool.toNat
            (decide_eq_false fun hand => hexposed ⟨hand.1, Ne.symm hand.2⟩))

/-! ### Whole runs -/

/-- **A push is lock-free.** It fails only when it is disturbed.  It makes three accesses at most,
and two more for every spurious failure and every disturbance: until it has returned with its node
pushed, it has made fewer and its next one is enabled. -/
theorem push_bounded (hpc : s.pc t = .load data) (hcall : ∀ l ∈ tr, l.NoCall t)
    (h : exec step s tr = some s') :
    occurrences step (fails t) s tr ≤ occurrences step (disturbs t) s tr ∧
    tr.countP (Label.own t) ≤
      3 + 2 * (tr.count (.spurious t) + occurrences step (disturbs t) s tr) ∧
    ((s'.pc t = .idle ∧ ∃ between since, s'.pushed = s.pushed ++ between ++ data :: since) ∨
      (s'.pc t).pushing = some data ∧
        tr.countP (Label.own t) <
          3 + 2 * (tr.count (.spurious t) + occurrences step (disturbs t) s tr) ∧
        ∃ s'', step s' (.step t) = some s'') := by
  have hinit : Pushes t data s s := .inl ⟨by rw [hpc]; rfl, List.prefix_rfl⟩
  have hguard : Along step (fun _ l => l.NoCall t) s tr := .of_forall (fun l hl _ => hcall l hl) s
  have hfails : occurrences step (fails t) s tr + (s'.pc t).stale s'.head ≤
      (s.pc t).stale s.head + 1 * occurrences step (disturbs t) s tr :=
    occurrences_le (μ := fun s => (s.pc t).stale s.head)
      (fun s₁ l s₂ hI hG hs => ⟨Pushes.step hI hG hs, stale_step hI hG hs⟩) hinit hguard h
  have hown : occurrences step (fun _ l => l.own t) s tr + (s'.pc t).toPush s'.head ≤
      (s.pc t).toPush s.head +
        2 * occurrences step (fun s l => decide (l = .spurious t) || disturbs t s l) s tr :=
    occurrences_le (μ := fun s => (s.pc t).toPush s.head)
      (fun s₁ l s₂ hI hG hs => ⟨Pushes.step hI hG hs, toPush_step hI hG hs⟩) hinit hguard h
  have hdisjoint : ∀ s₁ l, decide (l = .spurious t) = true → disturbs t s₁ l = false := by
    intro s₁ l hl
    rw [of_decide_eq_true hl, disturbs, Label.own, decide_eq_true rfl, Bool.not_true,
      Bool.and_false, Bool.false_and]
  have hspurious : tr.countP (fun l => decide (l = .spurious t)) = tr.count (.spurious t) := rfl
  rw [occurrences_label h, occurrences_or hdisjoint h, occurrences_label h, hspurious, hpc,
    Pc.toPush_load] at hown
  rw [hpc, Pc.stale_load] at hfails
  refine ⟨by omega, by omega, ?_⟩
  have hend : Pushes t data s s' := exec_inv (fun s₁ l s₂ hI hG hs => hI.step hG hs) hinit hguard h
  obtain ⟨hpush, -⟩ | hdone := hend
  · have hpos := toPush_pos hpush
    exact .inr ⟨hpush, by omega, pushing_enabled hpush⟩
  · exact .inl hdone

/-- The Lua thread disturbs a push of the io thread once at most: afterwards the list is empty. -/
theorem disturbed_once (hsole : Sole t s) (hpc : s.pc t = .load data) (hcall : ∀ l ∈ tr, l.NoCall t)
    (hpusher : ∀ l ∈ tr, l.SolePusher t) (h : exec step s tr = some s') :
    occurrences step (disturbs t) s tr ≤ 1 := by
  have hinit : Sole t s ∧ Pushes t data s s := ⟨hsole, .inl ⟨by rw [hpc]; rfl, List.prefix_rfl⟩⟩
  have hguard : Along step (fun _ l => l.NoCall t ∧ l.SolePusher t) s tr :=
    .of_forall (fun l hl _ => ⟨hcall l hl, hpusher l hl⟩) s
  have hdisturbs : occurrences step (disturbs t) s tr + exposed t s' ≤
      exposed t s + 0 * occurrences step (disturbs t) s tr := by
    refine occurrences_le (I := fun s₁ => Sole t s₁ ∧ Pushes t data s s₁) (μ := exposed t)
      (fun s₁ l s₂ hI hG hs => ?_) hinit hguard h
    rw [Nat.zero_mul, Nat.add_zero]
    exact ⟨⟨(sole_step hI.1 hG.2 hs).1, hI.2.step hG.1 hs⟩, exposed_step hI.1 hG.2 hI.2 hG.1 hs⟩
  have hle : exposed t s ≤ 1 := by
    unfold exposed
    split_ifs <;> omega
  omega

/-- **A push of the io thread is wait-free.** When only `t` pushes, its compare-and-exchange fails
once at most other than spuriously, and it makes five accesses at most, and two more for every
spurious failure, whatever the other threads do: until it has returned with its node pushed, it
has made fewer and its next one is enabled. -/
theorem push_wait_free {next : Node → Node} {tr₀ : List Label}
    (h₀ : exec step (QState.init next) tr₀ = some s) (hpusher : ∀ l ∈ tr₀ ++ tr, l.SolePusher t)
    (hpc : s.pc t = .load data) (hcall : ∀ l ∈ tr, l.NoCall t) (h : exec step s tr = some s') :
    occurrences step (fails t) s tr ≤ 1 ∧ tr.countP (Label.own t) ≤ 5 + 2 * tr.count (.spurious t) ∧
    ((s'.pc t = .idle ∧ ∃ between since, s'.pushed = s.pushed ++ between ++ data :: since) ∨
      (s'.pc t).pushing = some data ∧ tr.countP (Label.own t) < 5 + 2 * tr.count (.spurious t) ∧
        ∃ s'', step s' (.step t) = some s'') := by
  have hguard : Along step (fun _ l => l.SolePusher t) (QState.init next) tr₀ :=
    .of_forall (fun l hl _ => hpusher l (List.mem_append_left _ hl)) _
  have hsole : Sole t s :=
    exec_inv (fun s₁ l s₂ hI hG hs => (sole_step hI hG hs).1) (sole_init next t) hguard h₀
  have honce := disturbed_once hsole hpc hcall
    (fun l hl => hpusher l (List.mem_append_right _ hl)) h
  obtain ⟨hfails, hown, hdone⟩ := push_bounded hpc hcall h
  refine ⟨by omega, by omega, ?_⟩
  obtain hdone | ⟨hpush, hlt, henabled⟩ := hdone
  · exact .inl hdone
  · exact .inr ⟨hpush, by omega, henabled⟩

/-- Thread `1` takes the list, and so disturbs the second push of thread `0`, which then fails
spuriously as well. -/
theorem push_wait_free_taken : ∃ s s',
    exec step (QState.init fun _ => 7) [.push 0 1, .step 0, .step 0, .step 0, .push 0 2] = some s ∧
    exec step s [.step 0, .step 0, .popAll 1, .step 1, .step 0, .step 0, .spurious 0, .step 0,
      .step 0] = some s' ∧
    s'.pc 0 = .idle ∧ ∃ between since, s'.pushed = s.pushed ++ between ++ 2 :: since := by
  obtain ⟨s, s', h₀, hpc, h⟩ : ∃ s s',
      exec step (QState.init fun _ => 7) [.push 0 1, .step 0, .step 0, .step 0, .push 0 2] =
        some s ∧ s.pc 0 = .load 2 ∧
      exec step s [.step 0, .step 0, .popAll 1, .step 1, .step 0, .step 0, .spurious 0, .step 0,
        .step 0] = some s' :=
    ⟨_, _, rfl, rfl, rfl⟩
  obtain hdone | ⟨-, hlt, -⟩ := (push_wait_free h₀ (by decide) hpc (by decide) h).2.2
  · exact ⟨s, s', h₀, h, hdone⟩
  · -- seven accesses are all that a push with one spurious failure makes
    exact absurd hlt (by decide)

end Tmysql4.ActionQueue
