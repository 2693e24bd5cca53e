import Tmysql4.ActionQueue

/-! # Runs of the action queue

The invariant of `ActionQueue.lean` carried over whole runs, and the termination of `pop_all`:
`Pc.remaining` counts the atomic accesses a popper still needs before it returns, every own step
takes one off, and no step of another thread changes it (`pop_all_returns`).
`completedActions_linearizable` collects the properties of the queue in every reachable state. -/

namespace Tmysql4.ActionQueue

open Transition

/-- The caller's side of a run: both parts of the discipline. -/
def Disciplined (s : QState) (tr : List Label) : Prop :=
  Throughout step PushedOutside s tr ∧ Along step ReuseFree s tr

theorem Disciplined.tail {s s₁ : QState} {l : Label} {tr : List Label}
    (h : Disciplined s (l :: tr)) (hs : step s l = some s₁) : Disciplined s₁ tr :=
  ⟨⟨h.1.2.1 s₁ hs, h.1.2.2 s₁ hs⟩, h.2.2 s₁ hs⟩

theorem Disciplined.cons {s s₁ : QState} {l : Label} {tr : List Label} (hout : PushedOutside s)
    (hfree : ReuseFree s l) (hs : step s l = some s₁) (h : Disciplined s₁ tr) :
    Disciplined s (l :: tr) := by
  have huniq : ∀ s', step s l = some s' → s' = s₁ := fun s' hs' =>
    Option.some.inj (hs'.symm.trans hs)
  refine ⟨⟨hout, fun s' hs' => huniq s' hs' ▸ h.1.1, fun s' hs' => ?_⟩, hfree, fun s' hs' => ?_⟩
  · rw [huniq s' hs']
    exact h.1.2
  · rw [huniq s' hs']
    exact h.2

/-- Without a detached chain, the nodes outside the list are in no chain. -/
theorem not_inChain_of_linked {s : QState} {n : Node} {l : List Node}
    (hhead : Linked 0 s.next s.head l) (hroots : ∀ t, (s.pc t).roots = []) (hn : n ∉ l) :
    ¬ InChain s n := by
  rintro (hr | ⟨t, p, hp, -⟩)
  · exact hn (hr.mem hhead)
  · rw [hroots t] at hp
    cases hp

theorem pushedOutside_of_linked {s : QState} {l : List Node} (hhead : Linked 0 s.next s.head l)
    (hroots : ∀ t, (s.pc t).roots = []) (hout : ∀ t data, (s.pc t).pushing = some data → data ∉ l) :
    PushedOutside s :=
  fun t data hd => not_inChain_of_linked hhead hroots (hout t data hd)

theorem pushedOutside_of_none {s : QState} (h : ∀ t, (s.pc t).pushing = none) :
    PushedOutside s := by
  intro t data hd
  rw [h t] at hd
  cases hd

/-- **Run lemma.** -/
theorem inv_exec {s s' : QState} {tr : List Label} (h : Inv s) (hd : Disciplined s tr)
    (hr : exec step s tr = some s') : Inv s' := by
  induction tr generalizing s with
  | nil =>
      cases hr
      exact h
  | cons l tr ih =>
      obtain ⟨s₁, h₁, h₂⟩ := exec_cons_iff.mp hr
      exact ih (inv_step h hd.1.1 (hd.1.2.1 s₁ h₁) hd.2.1 h₁) (hd.tail h₁) h₂

/-! ### `pop_all` terminates -/

/-- The thread is inside the reversal loop of `pop_all`. -/
def Pc.popping : Pc → Bool
  | .reverse _ _ => true
  | .relink _ _ _ => true
  | _ => false

/-- The number of own steps until `pop_all` returns the batch `b`. -/
def Pc.remaining : Pc → List Node → ℕ
  | .reverse last _, b => if last = 0 then 1 else 2 * b.idxOf last + 3
  | .relink tmp _ _, b => 2 * b.idxOf tmp + 2
  | _, _ => 0

/-- The thread is in the reversal loop or has just left it. -/
def Pc.inPopAll (pc : Pc) : Prop := pc.popping = true ∨ ∃ first, pc = .returned first

theorem idxOf_middle {l r : List Node} {n : Node} (h : (l ++ n :: r).Nodup) :
    (l ++ n :: r).idxOf n = l.length := by
  have hn : n ∉ l := fun hm => (List.disjoint_of_nodup_append h) hm List.mem_cons_self
  rw [List.idxOf_append_of_notMem hn, List.idxOf_cons_self, Nat.add_zero]

theorem idxOf_last {l r : List Node} {p : Node} {next : Node → Node} (hl : Linked 0 next p l)
    (hp : p ≠ 0) (h : (l.reverse ++ r).Nodup) : (l.reverse ++ r).idxOf p + 1 = l.length := by
  obtain ⟨l', rfl, -⟩ := hl.exists_cons hp
  rw [List.reverse_cons, List.append_assoc, List.singleton_append] at h ⊢
  rw [idxOf_middle h, List.length_reverse, List.length_cons]

theorem remaining_le {s : QState} (h : Inv s) {t : Tid} (hpc : (s.pc t).popping = true) :
    (s.pc t).remaining (s.batch t) ≤ 2 * (s.batch t).length + 1 := by
  have hb := h.popper t
  have hnd := h.batch_nodup t
  cases hpc' : s.pc t with
  | reverse last first =>
      rw [hpc'] at hb
      obtain ⟨l, r, hl, -, hbatch⟩ := hb
      rw [hbatch] at hnd ⊢
      simp only [Pc.remaining]
      split_ifs with hz
      · omega
      · have := idxOf_last hl hz hnd
        simp only [List.length_append, List.length_reverse]
        omega
  | relink tmp last first =>
      rw [hpc'] at hb
      obtain ⟨l, r, -, -, -, -, hbatch⟩ := hb
      rw [hbatch] at hnd ⊢
      simp only [Pc.remaining]
      rw [idxOf_middle hnd]
      simp only [List.length_append, List.length_reverse, List.length_cons]
      omega
  | idle | load | link | cas | exchange | returned | walk =>
      rw [hpc'] at hpc
      cases hpc

/-- A popper is never blocked, and each of its own steps brings the return nearer. -/
theorem popping_step {s : QState} (h : Inv s) {t : Tid} (hpc : (s.pc t).popping = true) :
    ∃ s', step s (.step t) = some s' ∧ s'.batch t = s.batch t ∧ (s'.pc t).inPopAll ∧
      (s'.pc t).remaining (s'.batch t) + 1 = (s.pc t).remaining (s.batch t) := by
  have hb := h.popper t
  have hnd := h.batch_nodup t
  cases hpc' : s.pc t with
  | reverse last first =>
      rw [hpc'] at hb
      obtain ⟨l, r, hl, -, hbatch⟩ := hb
      by_cases hz : last = 0
      · refine ⟨s.goto t (.returned first), by simp [step, advance, hpc', hz], rfl, ?_, ?_⟩
        · exact .inr ⟨first, by simp [QState.goto]⟩
        · simp [QState.goto, Pc.remaining, hz]
      · refine ⟨s.goto t (.relink last (s.next last) first),
          by simp [step, advance, hpc', hz], rfl, ?_, ?_⟩
        · exact .inl (by simp [QState.goto, Pc.popping])
        · simp [QState.goto, Pc.remaining, hz]
  | relink tmp last first =>
      rw [hpc'] at hb
      obtain ⟨l, r, -, -, hl, -, hbatch⟩ := hb
      refine ⟨(s.write tmp first).goto t (.reverse last tmp), by simp [step, advance, hpc'], rfl,
        .inl (by simp [QState.goto, Pc.popping]), ?_⟩
      rw [hbatch] at hnd
      have htmp := idxOf_middle hnd
      simp only [QState.goto, QState.write, Function.update_self, Pc.remaining, hbatch, htmp,
        List.length_reverse]
      split_ifs with hz
      · subst hz
        rw [hl.null_nil, List.length_nil]
      · have := idxOf_last hl hz hnd
        omega
  | idle | load | link | cas | exchange | returned | walk =>
      rw [hpc'] at hpc
      cases hpc

/-- Steps of the other threads leave a popper and its batch alone. -/
theorem inPopAll_frame {s s' : QState} {l : Label} {t : Tid} (hpc : (s.pc t).inPopAll)
    (hl : l ≠ .step t) (hs : step s l = some s') : s'.pc t = s.pc t ∧ s'.batch t = s.batch t := by
  have hidle : s.pc t ≠ .idle := by
    rintro e
    rcases hpc with hp | ⟨first, hp⟩ <;> rw [e] at hp <;> cases hp
  have hcas : ∀ data staleHead, s.pc t ≠ .cas data staleHead := by
    rintro data staleHead e
    rcases hpc with hp | ⟨first, hp⟩ <;> rw [e] at hp <;> cases hp
  cases l with
  | push t' data =>
      simp only [step] at hs
      split at hs <;> cases hs
      rename_i hg
      have hne : t ≠ t' := fun e => hidle (e ▸ hg.1)
      simp [QState.goto, hne]
  | popAll t' =>
      simp only [step] at hs
      split at hs <;> cases hs
      rename_i hg
      have hne : t ≠ t' := fun e => hidle (e ▸ hg)
      simp [QState.goto, hne]
  | spurious t' =>
      simp only [step] at hs
      split at hs <;> cases hs
      rename_i data staleHead hg
      have hne : t ≠ t' := fun e => hcas data staleHead (e ▸ hg)
      simp [QState.goto, hne]
  | reuse n v =>
      cases hs
      exact ⟨rfl, rfl⟩
  | step t' =>
      have hne : t ≠ t' := fun e => hl (e ▸ rfl)
      simp only [step, advance] at hs
      split at hs
      · cases hs
      all_goals (try split at hs) <;> cases hs
      all_goals simp [QState.goto, QState.write, QState.swing, QState.detach, QState.delete, hne]

/-- **`pop_all` terminates**: whatever the other threads do, once the popper has taken its
remaining steps it has returned, with the batch its exchange took. -/
theorem pop_all_returns {s s' : QState} {t : Tid} {tr : List Label} (h : Inv s)
    (hpc : (s.pc t).inPopAll) (hd : Disciplined s tr) (hr : exec step s tr = some s')
    (hcount : tr.count (.step t) = (s.pc t).remaining (s.batch t)) :
    ∃ first, s'.pc t = .returned first ∧ s'.batch t = s.batch t := by
  induction tr generalizing s with
  | nil =>
      cases hr
      rcases hpc with hp | ⟨first, hp⟩
      · obtain ⟨_, _, _, _, hrem⟩ := popping_step h hp
        rw [List.count_nil] at hcount
        omega
      · exact ⟨first, hp, rfl⟩
  | cons l tr ih =>
      obtain ⟨s₁, h₁, h₂⟩ := exec_cons_iff.mp hr
      have hinv : Inv s₁ := inv_step h hd.1.1 (hd.1.2.1 s₁ h₁) hd.2.1 h₁
      by_cases hl : l = .step t
      · subst hl
        rw [List.count_cons_self] at hcount
        rcases hpc with hp | ⟨first, hp⟩
        · obtain ⟨s₂, hs₂, hb, hin, hrem⟩ := popping_step h hp
          obtain rfl : s₁ = s₂ := Option.some.inj (h₁.symm.trans hs₂)
          obtain ⟨first, hfirst, hbatch⟩ := ih hinv hin (hd.tail h₁) h₂ (by omega)
          exact ⟨first, hfirst, hbatch.trans hb⟩
        · rw [hp] at hcount
          cases hcount
      · obtain ⟨hpc₁, hb₁⟩ := inPopAll_frame hpc hl h₁
        rw [List.count_cons_of_ne hl] at hcount
        obtain ⟨first, hfirst, hbatch⟩ :=
          ih hinv (by rwa [hpc₁]) (hd.tail h₁) h₂ (by rwa [hpc₁, hb₁])
        exact ⟨first, hfirst, hbatch.trans hb₁⟩

/-! ### The queue is a linearizable FIFO batch queue -/

/-- **The completed-action list is a linearizable FIFO batch queue.**  In every state reached by a
disciplined run: the chain from `head_` is finite, acyclic and holds the pushed nodes that no
exchange has taken; an exchange takes exactly that chain; `pop_all` returns its batch in push
order, and does so after at most `2 * |batch| + 1` own steps after the exchange; and the batches in
exchange order followed by the pending nodes are the successful pushes. -/
theorem completedActions_linearizable (next : Node → Node) (tr : List Label) (s : QState)
    (hr : exec step (QState.init next) tr = some s) (hd : Disciplined (QState.init next) tr) :
    (∃ l, Linked 0 s.next s.head l ∧ l.Nodup ∧ l.reverse = s.queue.pending) ∧
    (∀ t, s.pc t = .exchange → ∃ s' l, step s (.step t) = some s' ∧ Linked 0 s.next s.head l ∧
      s'.pc t = .reverse s.head 0 ∧ s'.batch t = l.reverse ∧
      s'.queue.batches = s.queue.batches ++ [l.reverse]) ∧
    (∀ t first, s.pc t = .returned first →
      Linked 0 s.next first (s.batch t) ∧ (s.batch t).Nodup) ∧
    (∀ t, (s.pc t).popping = true →
      (s.pc t).remaining (s.batch t) ≤ 2 * (s.batch t).length + 1 ∧
      (∃ s', step s (.step t) = some s') ∧
      ∀ tr' s', exec step s tr' = some s' → Disciplined s tr' →
        tr'.count (.step t) = (s.pc t).remaining (s.batch t) →
        ∃ first, s'.pc t = .returned first ∧ s'.batch t = s.batch t ∧
          Linked 0 s'.next first (s.batch t)) ∧
    s.queue.batches.flatten ++ s.queue.pending = s.pushed := by
  have h : Inv s := inv_exec (inv_init next) hd hr
  refine ⟨⟨_, h.head_linked, h.head_linked.nodup, List.reverse_reverse _⟩, ?_, ?_, ?_, h.history⟩
  · intro t hpc
    refine ⟨_, _, by rw [step, advance, hpc], h.head_linked, ?_, ?_, ?_⟩ <;>
      simp [QState.goto, QState.detach]
  · intro t first hpc
    have hb := h.popper t
    rw [hpc] at hb
    exact ⟨hb, h.batch_nodup t⟩
  · intro t hpc
    obtain ⟨s₁, hs₁, -⟩ := popping_step h hpc
    refine ⟨remaining_le h hpc, ⟨s₁, hs₁⟩, fun tr' s' hr' hd' hcount => ?_⟩
    obtain ⟨first, hfirst, hbatch⟩ := pop_all_returns h (.inl hpc) hd' hr' hcount
    have hb := (inv_exec h hd' hr').popper t
    rw [hfirst, hbatch] at hb
    exact ⟨first, hfirst, hbatch, hb⟩

/-- Threads `0` and `1` push the nodes `1` and `2`: the second one finds `head_` changed, and then
fails once spuriously. Thread `2` takes both, reverses them and deletes them.  The memory of node
`1` is reused, and the node is pushed again. -/
def twoPushers : List Label :=
  [.push 0 1, .push 1 2, .step 0, .step 1, .step 0, .step 1, .step 0, .step 1, .step 1, .spurious 1,
    .step 1, .step 1, .popAll 2, .step 2, .step 2, .step 2, .step 2, .step 2, .step 2, .step 2,
    .step 2, .step 2, .step 2, .reuse 1 9, .push 0 1, .step 0, .step 0, .step 0]

/-- The threads of the run, and all others. -/
theorem forall_tid {P : Tid → Prop} (zero : P 0) (one : P 1) (two : P 2) (others : ∀ t, P (t + 3)) :
    ∀ t, P t
  | 0 => zero
  | 1 => one
  | 2 => two
  | t + 3 => others t

theorem twoPushers_disciplined : Disciplined (QState.init fun _ => 7) twoPushers := by
  refine .cons (pushedOutside_of_none fun _ => rfl) trivial rfl ?_
  -- the list is empty until node `1` is in it
  iterate 6
    refine .cons (pushedOutside_of_linked .nil (forall_tid rfl rfl rfl fun _ => rfl) fun _ _ _ =>
      List.not_mem_nil) trivial rfl ?_
  -- node `2` is still outside
  iterate 5
    refine .cons (pushedOutside_of_linked (.cons Nat.one_ne_zero .nil)
      (forall_tid rfl rfl rfl fun _ => rfl)
      (forall_tid (fun _ hd => ?_) (fun _ hd => ?_) (fun _ hd => ?_) fun _ _ hd => ?_))
        trivial rfl ?_
    iterate 4
      cases hd <;> decide
  -- thread `2` has the list for itself
  iterate 11
    refine .cons (pushedOutside_of_none (forall_tid rfl rfl rfl fun _ => rfl)) trivial rfl ?_
  refine .cons (pushedOutside_of_none (forall_tid rfl rfl rfl fun _ => rfl))
    ⟨not_inChain_of_linked .nil (forall_tid rfl rfl rfl fun _ => rfl) List.not_mem_nil,
      forall_tid (Option.some_ne_none _).symm (Option.some_ne_none _).symm
        (Option.some_ne_none _).symm fun _ => (Option.some_ne_none _).symm⟩ rfl ?_
  iterate 4
    refine .cons (pushedOutside_of_linked .nil (forall_tid rfl rfl rfl fun _ => rfl) fun _ _ _ =>
      List.not_mem_nil) trivial rfl ?_
  exact ⟨⟨pushedOutside_of_none (forall_tid rfl rfl rfl fun _ => rfl), trivial⟩, trivial⟩

theorem completedActions_linearizable_twoPushers :
    ∃ s, exec step (QState.init fun _ => 7) twoPushers = some s ∧ s.queue.batches = [[1, 2]] ∧
      s.queue.pending = [1] ∧
      s.pushed = [1, 2, 1] ∧ ∃ l, Linked 0 s.next s.head l ∧ l.reverse = [1] := by
  obtain ⟨⟨l, hl, -, hpending⟩, -, -, -, hpushed⟩ :=
    completedActions_linearizable _ twoPushers _ rfl twoPushers_disciplined
  exact ⟨_, rfl, rfl, rfl, hpushed.symm, l, hl, hpending⟩

end Tmysql4.ActionQueue
