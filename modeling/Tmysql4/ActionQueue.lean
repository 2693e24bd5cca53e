import Mathlib.Data.List.Count
import Tmysql4.Transition
import Tmysql4.Linked
import Tmysql4.BatchQueue

/-! # `waitfree_action_queue`, one atomic access at a time

The completed-action list of a database is an intrusive lock-free stack: `push` links a node in
front of `head_` with a compare-and-exchange loop, `pop_all` detaches the whole list with one
exchange (`pop_all_reverse`) and then reverses it in place, so that the caller
(`Database::DispatchCompletedActions`) walks it in push order and deletes every node it leaves.

* **Memory.** Nodes are addresses (`0` is the null pointer) and `next` is the heap of next
  pointers.  Its initial contents are arbitrary.
* **Threads.** Any number of threads, each with a program point `Pc` that carries the locals of
  the call it is in.  A label names the thread that moves; a compare-and-exchange that finds
  `head_` equal to the expected value succeeds on `step` and may fail on `spurious`.
* **Allocator.** A node that no chain contains and that is not being pushed may be freed and its
  memory reused for anything: `reuse n v` stores an arbitrary word in it.
* **Ghost state.** `queue` is the abstract batch queue, moved by the successful
  compare-and-exchange and by the exchange only; `batch t` is what the last exchange of `t` took
  and `t` has not deleted yet; `pushed` is the sequence of successful pushes.

`PushedOutside` is the discipline of the callers: a node is in no chain while it is being
pushed.  `Inv` is the invariant of all disciplined runs, `inv_step` its step lemma. -/

namespace Tmysql4.ActionQueue

open Transition

abbrev Node := ℕ
abbrev Tid := ℕ

/-- Where a thread stands in `push`, in `pop_all`, or in the walk over what `pop_all` returned. -/
inductive Pc where
  | idle
  | load (data : Node)
  | link (data staleHead : Node)
  | cas (data staleHead : Node)
  | exchange
  | reverse (last first : Node)
  | relink (tmp last first : Node)
  | returned (first : Node)
  | walk (completed : Node)
deriving DecidableEq, Repr

/-- The node a thread is pushing. -/
def Pc.pushing : Pc → Option Node
  | .load data => some data
  | .link data _ => some data
  | .cas data _ => some data
  | _ => none

/-- The pointers into detached chains that a thread holds. -/
def Pc.roots : Pc → List Node
  | .reverse last first => [last, first]
  | .relink tmp _ first => [tmp, first]
  | .returned first => [first]
  | .walk completed => [completed]
  | _ => []

structure QState where
  head : Node
  next : Node → Node
  pc : Tid → Pc
  queue : BatchQueue Node
  batch : Tid → List Node
  pushed : List Node

namespace QState

def init (next : Node → Node) : QState where
  head := 0
  next := next
  pc := fun _ => .idle
  queue := {}
  batch := fun _ => []
  pushed := []

def goto (s : QState) (t : Tid) (pc : Pc) : QState := { s with pc := Function.update s.pc t pc }

def write (s : QState) (n v : Node) : QState := { s with next := Function.update s.next n v }

/-- The compare-and-exchange of `push` succeeds. -/
def swing (s : QState) (data : Node) : QState :=
  { s with head := data, queue := s.queue.push data, pushed := s.pushed ++ [data] }

/-- The exchange of `pop_all_reverse`. -/
def detach (s : QState) (t : Tid) : QState :=
  { s with
    head := 0
    queue := s.queue.popAll
    batch := Function.update s.batch t s.queue.pending }

/-- The caller deletes the first node of its batch. -/
def delete (s : QState) (t : Tid) : QState :=
  { s with batch := Function.update s.batch t (s.batch t).tail }

end QState

inductive Label where
  | push (t : Tid) (data : Node)
  | popAll (t : Tid)
  | step (t : Tid)
  | spurious (t : Tid)
  | reuse (n v : Node)
deriving DecidableEq, Repr

/-- Thread `t` executes its next atomic access. -/
def advance (s : QState) (t : Tid) : Option QState :=
  match s.pc t with
  | .idle => none
  | .load data => some (s.goto t (.link data s.head))
  | .link data staleHead => some ((s.write data staleHead).goto t (.cas data staleHead))
  | .cas data staleHead =>
      if s.head = staleHead then some ((s.swing data).goto t .idle)
      else some (s.goto t (.link data s.head))
  | .exchange => some ((s.detach t).goto t (.reverse s.head 0))
  | .reverse last first =>
      if last = 0 then some (s.goto t (.returned first))
      else some (s.goto t (.relink last (s.next last) first))
  | .relink tmp last first => some ((s.write tmp first).goto t (.reverse last tmp))
  | .returned first => some (s.goto t (.walk first))
  | .walk completed =>
      if completed = 0 then some (s.goto t .idle)
      else some ((s.delete t).goto t (.walk (s.next completed)))

def step (s : QState) : Label → Option QState
  | .push t data => if s.pc t = .idle ∧ data ≠ 0 then some (s.goto t (.load data)) else none
  | .popAll t => if s.pc t = .idle then some (s.goto t .exchange) else none
  | .step t => advance s t
  | .spurious t =>
      match s.pc t with
      | .cas data _ => some (s.goto t (.link data s.head))
      | _ => none
  | .reuse n v => some (s.write n v)

/-- The node `n` is in the list behind `head_` or in a chain some thread has detached. -/
def InChain (s : QState) (n : Node) : Prop :=
  Reach 0 s.next s.head n ∨ ∃ t, ∃ p ∈ (s.pc t).roots, Reach 0 s.next p n

/-- **Discipline of the callers**: a node is in no chain while it is being pushed. -/
def PushedOutside (s : QState) : Prop :=
  ∀ t data, (s.pc t).pushing = some data → ¬ InChain s data

/-- Memory is reused only when the node in it is in no chain and is not being pushed. -/
def ReuseFree (s : QState) : Label → Prop
  | .reuse n _ => ¬ InChain s n ∧ ∀ t, (s.pc t).pushing ≠ some n
  | _ => True

/-! ### The invariant -/

/-- What a popper knows about the chains it holds: `b` is the batch it took, oldest first, and
during the reversal `l` is the part still in stack order and `r` the part already turned. -/
def PopperOk (next : Node → Node) : Pc → List Node → Prop
  | .reverse last first, b => ∃ l r, Linked 0 next last l ∧ Linked 0 next first r ∧
      b = l.reverse ++ r
  | .relink tmp last first, b => ∃ l r, tmp ≠ 0 ∧ next tmp = last ∧ Linked 0 next last l ∧
      Linked 0 next first r ∧ b = l.reverse ++ tmp :: r
  | .returned first, b => Linked 0 next first b
  | .walk completed, b => Linked 0 next completed b
  | _, b => b = []

structure Inv (s : QState) : Prop where
  head_linked : Linked 0 s.next s.head s.queue.pending.reverse
  popper : ∀ t, PopperOk s.next (s.pc t) (s.batch t)
  /-- Before the compare-and-exchange the node points at the expected head, as long as no other
  thread pushes the same node. -/
  pusher : ∀ t data staleHead, s.pc t = .cas data staleHead →
    (∀ t', t' ≠ t → (s.pc t').pushing ≠ some data) → s.next data = staleHead
  data_ne : ∀ t data, (s.pc t).pushing = some data → data ≠ 0
  batch_nodup : ∀ t, (s.batch t).Nodup
  batch_pending : ∀ t, ∀ n ∈ s.batch t, n ∉ s.queue.pending
  batch_batch : ∀ t t', t ≠ t' → ∀ n ∈ s.batch t, n ∉ s.batch t'
  history : s.queue.history = s.pushed

theorem inv_init (next : Node → Node) : Inv (QState.init next) where
  head_linked := .nil
  popper _ := rfl
  pusher _ _ _ h := by cases h
  data_ne _ _ h := by cases h
  batch_nodup _ := List.nodup_nil
  batch_pending _ _ h := by cases h
  batch_batch _ _ _ _ h := by cases h
  history := rfl

namespace PopperOk

variable {next : Node → Node} {b : List Node}

/-- The batch of a popper is reached from its roots. -/
theorem reach {pc : Pc} (h : PopperOk next pc b) {n : Node} (hn : n ∈ b) :
    ∃ p ∈ pc.roots, Reach 0 next p n := by
  cases pc with
  | reverse last first =>
      obtain ⟨l, r, hl, hr, rfl⟩ := h
      rcases List.mem_append.mp hn with hn | hn
      · exact ⟨last, by simp [Pc.roots], .of_mem hl (List.mem_reverse.mp hn)⟩
      · exact ⟨first, by simp [Pc.roots], .of_mem hr hn⟩
  | relink tmp last first =>
      obtain ⟨l, r, htmp, hnext, hl, hr, rfl⟩ := h
      have htl : Linked 0 next tmp (tmp :: l) := .cons htmp (hnext ▸ hl)
      rcases List.mem_append.mp hn with hn | hn
      · exact ⟨tmp, by simp [Pc.roots], .of_mem htl (by simp_all)⟩
      · rcases List.mem_cons.mp hn with rfl | hn
        · exact ⟨n, by simp [Pc.roots], .here htmp⟩
        · exact ⟨first, by simp [Pc.roots], .of_mem hr hn⟩
  | returned first => exact ⟨first, by simp [Pc.roots], .of_mem h hn⟩
  | walk completed => exact ⟨completed, by simp [Pc.roots], .of_mem h hn⟩
  | idle | load | link | cas | exchange =>
      obtain rfl : b = [] := h
      cases hn

/-- Writing a node outside the batch does not disturb the popper. -/
theorem write {pc : Pc} (h : PopperOk next pc b) {n v : Node} (hn : n ∉ b) :
    PopperOk (Function.update next n v) pc b := by
  cases pc with
  | reverse last first =>
      obtain ⟨l, r, hl, hr, rfl⟩ := h
      simp only [List.mem_append, List.mem_reverse, not_or] at hn
      exact ⟨l, r, hl.write hn.1, hr.write hn.2, rfl⟩
  | relink tmp last first =>
      obtain ⟨l, r, htmp, hnext, hl, hr, rfl⟩ := h
      simp only [List.mem_append, List.mem_reverse, List.mem_cons, not_or] at hn
      refine ⟨l, r, htmp, ?_, hl.write hn.1, hr.write hn.2.2, rfl⟩
      rw [Function.update_of_ne (Ne.symm hn.2.1), hnext]
  | returned first => exact Linked.write h hn
  | walk completed => exact Linked.write h hn
  | idle | load | link | cas | exchange => exact h

end PopperOk

namespace Inv

variable {s : QState}

theorem inChain_of_pending (h : Inv s) {n : Node} (hn : n ∈ s.queue.pending) : InChain s n :=
  .inl (.of_mem h.head_linked (List.mem_reverse.mpr hn))

theorem inChain_of_batch (h : Inv s) {t : Tid} {n : Node} (hn : n ∈ s.batch t) : InChain s n := by
  obtain ⟨p, hp, hr⟩ := (h.popper t).reach hn
  exact .inr ⟨t, p, hp, hr⟩

/-- A write to a node outside every chain, made by its pusher or by the allocator. -/
theorem write (h : Inv s) {n v : Node} (hn : ¬ InChain s n)
    (hpush : ∀ t staleHead, s.pc t = .cas n staleHead → ∃ t', t' ≠ t ∧ (s.pc t').pushing = some n) :
    Inv (s.write n v) where
  head_linked := h.head_linked.write fun hm =>
    hn (h.inChain_of_pending (List.mem_reverse.mp hm))
  popper t := (h.popper t).write fun hm => hn (h.inChain_of_batch hm)
  pusher t data staleHead hpc huniq := by
    have hne : data ≠ n := by
      rintro rfl
      obtain ⟨t', ht', hp⟩ := hpush t staleHead hpc
      exact huniq t' ht' hp
    change Function.update s.next n v data = staleHead
    rw [Function.update_of_ne hne]
    exact h.pusher t data staleHead hpc huniq
  data_ne := h.data_ne
  batch_nodup := h.batch_nodup
  batch_pending := h.batch_pending
  batch_batch := h.batch_batch
  history := h.history

/-- A thread moves on without touching the shared memory. -/
theorem goto (h : Inv s) {t : Tid} {pc : Pc} (hpop : PopperOk s.next pc (s.batch t))
    (hcas : ∀ data staleHead, pc = .cas data staleHead → s.next data = staleHead)
    (hdata : ∀ data, pc.pushing = some data → data ≠ 0)
    (hleave : ∀ data, (s.pc t).pushing = some data →
      pc.pushing = some data ∨ ∀ t', t' ≠ t → (s.pc t').pushing ≠ some data) :
    Inv (s.goto t pc) where
  head_linked := h.head_linked
  popper t' := by
    by_cases ht : t' = t
    · subst ht
      simpa [QState.goto] using hpop
    · simpa [QState.goto, Function.update_of_ne ht] using h.popper t'
  pusher t' data staleHead hpc huniq := by
    by_cases ht : t' = t
    · subst ht
      exact hcas data staleHead (by simpa [QState.goto] using hpc)
    · have hpc' : s.pc t' = .cas data staleHead := by
        simpa [QState.goto, Function.update_of_ne ht] using hpc
      refine h.pusher t' data staleHead hpc' fun t₁ ht₁ hp => ?_
      by_cases htt : t₁ = t
      · subst htt
        rcases hleave data hp with hstay | hnone
        · exact huniq t₁ ht₁ (by simpa [QState.goto] using hstay)
        · exact hnone t' ht (by rw [hpc']; rfl)
      · exact huniq t₁ ht₁ (by simpa [QState.goto, Function.update_of_ne htt] using hp)
  data_ne t' data hp := by
    by_cases ht : t' = t
    · subst ht
      exact hdata data (by simpa [QState.goto] using hp)
    · exact h.data_ne t' data (by simpa [QState.goto, Function.update_of_ne ht] using hp)
  batch_nodup := h.batch_nodup
  batch_pending := h.batch_pending
  batch_batch := h.batch_batch
  history := h.history

/-- A thread that pushes nothing and moves to a point where it pushes nothing. -/
theorem goto' (h : Inv s) {t : Tid} {pc : Pc} (hpop : PopperOk s.next pc (s.batch t))
    (hp : (s.pc t).pushing = none) (hp' : pc.pushing = none) : Inv (s.goto t pc) := by
  refine h.goto hpop ?_ ?_ ?_
  · rintro data staleHead rfl
    cases hp'
  · intro data hd
    rw [hp'] at hd
    cases hd
  · intro data hd
    rw [hp] at hd
    cases hd

/-- The successful compare-and-exchange: the node points at the old head and becomes the new. -/
theorem swing (h : Inv s) {t : Tid} {data : Node} (hpc : s.pc t = .cas data s.head)
    (hout : PushedOutside s) (hout' : PushedOutside ((s.swing data).goto t .idle)) :
    Inv ((s.swing data).goto t .idle) := by
  have hpush : (s.pc t).pushing = some data := by rw [hpc]; rfl
  have hne : data ≠ 0 := h.data_ne t data hpush
  have hfree : ¬ InChain s data := hout t data hpush
  -- the node is in the list now, so by the discipline nobody else is pushing it
  have huniq : ∀ t', t' ≠ t → (s.pc t').pushing ≠ some data := by
    intro t' ht hp
    refine hout' t' data ?_ (.inl (.here hne))
    simpa [QState.goto, QState.swing, Function.update_of_ne ht] using hp
  have hnext : s.next data = s.head := h.pusher t data s.head hpc huniq
  have hmid : Inv (s.swing data) :=
    { head_linked := by
        simp only [QState.swing, BatchQueue.pending_push, List.reverse_append,
          List.reverse_singleton, List.singleton_append]
        exact .cons hne (hnext ▸ h.head_linked)
      popper := h.popper
      pusher := h.pusher
      data_ne := h.data_ne
      batch_nodup := h.batch_nodup
      batch_pending := by
        intro t' n hn
        simp only [QState.swing, BatchQueue.pending_push, List.mem_append,
          List.mem_singleton, not_or]
        exact ⟨h.batch_pending t' n hn, fun e => hfree (e ▸ h.inChain_of_batch hn)⟩
      batch_batch := h.batch_batch
      history := by simp [QState.swing, h.history] }
  refine hmid.goto ?_ (by intro _ _ e; cases e) (by intro _ e; cases e) ?_
  · have hb := h.popper t
    rw [hpc] at hb
    exact hb
  · intro data' hd
    have he : data' = data := Option.some.inj (hd.symm.trans hpush)
    exact .inr (he ▸ huniq)

/-- A thread that pushes nothing before and after a move does not matter to the pushers. -/
theorem pusher_update (h : Inv s) {t : Tid} {pc : Pc} (hp : (s.pc t).pushing = none)
    (hp' : pc.pushing = none) {t' : Tid} {data staleHead : Node}
    (hpc : Function.update s.pc t pc t' = .cas data staleHead)
    (huniq : ∀ t₁, t₁ ≠ t' → (Function.update s.pc t pc t₁).pushing ≠ some data) :
    (s.pc t').pushing = some data ∧ s.next data = staleHead := by
  have ht : t' ≠ t := by
    rintro rfl
    rw [Function.update_self] at hpc
    subst hpc
    cases hp'
  rw [Function.update_of_ne ht] at hpc
  refine ⟨by rw [hpc]; rfl, h.pusher t' data staleHead hpc fun t₁ ht₁ hd => ?_⟩
  by_cases htt : t₁ = t
  · subst htt
    rw [hp] at hd
    cases hd
  · exact huniq t₁ ht₁ (by rwa [Function.update_of_ne htt])

theorem data_ne_update (h : Inv s) {t : Tid} {pc : Pc} (hp' : pc.pushing = none) {t' : Tid}
    {data : Node} (hd : (Function.update s.pc t pc t').pushing = some data) : data ≠ 0 := by
  by_cases ht : t' = t
  · subst ht
    rw [Function.update_self, hp'] at hd
    cases hd
  · exact h.data_ne t' data (by rwa [Function.update_of_ne ht] at hd)

/-- The exchange hands the whole list to its thread. -/
theorem detach (h : Inv s) {t : Tid} (hpc : s.pc t = .exchange) :
    Inv ((s.detach t).goto t (.reverse s.head 0)) := by
  have hnil : s.batch t = [] := by
    have hb := h.popper t
    rw [hpc] at hb
    exact hb
  have hbatch : ∀ t', t' ≠ t → Function.update s.batch t s.queue.pending t' = s.batch t' :=
    fun t' ht => Function.update_of_ne ht _ _
  exact
    { head_linked := .nil
      popper := by
        intro t'
        by_cases ht : t' = t
        · subst ht
          simp only [QState.goto, QState.detach, Function.update_self]
          exact ⟨s.queue.pending.reverse, [], h.head_linked, .nil, by simp⟩
        · simpa [QState.goto, QState.detach, Function.update_of_ne ht] using h.popper t'
      pusher := fun t' data staleHead hp huniq =>
        (h.pusher_update (by rw [hpc]; rfl) rfl hp huniq).2
      data_ne := fun t' data hd => h.data_ne_update rfl hd
      batch_nodup := by
        intro t'
        by_cases ht : t' = t
        · subst ht
          simpa [QState.goto, QState.detach] using (List.nodup_reverse.mp h.head_linked.nodup)
        · simpa [QState.goto, QState.detach, hbatch t' ht] using h.batch_nodup t'
      batch_pending := by
        intro t' n _
        simp [QState.goto, QState.detach]
      batch_batch := by
        intro t₁ t₂ hne n hn
        simp only [QState.goto, QState.detach] at hn ⊢
        by_cases h₁ : t₁ = t
        · subst h₁
          rw [Function.update_self] at hn
          rw [hbatch t₂ (Ne.symm hne)]
          exact fun hm => h.batch_pending t₂ n hm hn
        · rw [hbatch t₁ h₁] at hn
          by_cases h₂ : t₂ = t
          · subst h₂
            rw [Function.update_self]
            exact h.batch_pending t₁ n hn
          · rw [hbatch t₂ h₂]
            exact h.batch_batch t₁ t₂ hne n hn
      history := by simp [QState.goto, QState.detach, h.history] }

/-- One turn of the reversal: the popper writes a node of its own batch. -/
theorem relink (h : Inv s) {t : Tid} {tmp last first : Node} (hpc : s.pc t = .relink tmp last first)
    (hout : PushedOutside s) : Inv ((s.write tmp first).goto t (.reverse last tmp)) := by
  obtain ⟨l, r, htmp, -, hl, hr, hb⟩ : PopperOk s.next (.relink tmp last first) (s.batch t) :=
    hpc ▸ h.popper t
  have hmem : tmp ∈ s.batch t := by simp [hb]
  have hnd : (l.reverse ++ tmp :: r).Nodup := hb ▸ h.batch_nodup t
  have hl' : tmp ∉ l := fun hm => by
    exact (List.disjoint_of_nodup_append hnd) (List.mem_reverse.mpr hm) List.mem_cons_self
  have hr' : tmp ∉ r := (List.nodup_cons.mp (List.nodup_append.mp hnd).2.1).1
  have hother : ∀ t', t' ≠ t → tmp ∉ s.batch t' :=
    fun t' ht => h.batch_batch t t' (Ne.symm ht) tmp hmem
  exact
    { head_linked := h.head_linked.write fun hm =>
        h.batch_pending t tmp hmem (List.mem_reverse.mp hm)
      popper := by
        intro t'
        by_cases ht : t' = t
        · subst ht
          simp only [QState.goto, QState.write, Function.update_self]
          exact ⟨l, tmp :: r, hl.write hl', hr.write_cons hr' htmp, hb⟩
        · simpa [QState.goto, QState.write, Function.update_of_ne ht] using
            (h.popper t').write (hother t' ht)
      pusher := by
        intro t' data staleHead hp huniq
        obtain ⟨hd, hnext⟩ := h.pusher_update (by rw [hpc]; rfl) rfl hp huniq
        have hne : data ≠ tmp := by
          rintro rfl
          exact hout t' data hd (h.inChain_of_batch hmem)
        simp only [QState.goto, QState.write]
        rw [Function.update_of_ne hne, hnext]
      data_ne := fun t' data hd => h.data_ne_update rfl hd
      batch_nodup := h.batch_nodup
      batch_pending := h.batch_pending
      batch_batch := h.batch_batch
      history := h.history }

/-- Shrinking a batch keeps everything but the popper's own view of it. -/
theorem delete (h : Inv s) {t : Tid} {completed : Node} (hpc : s.pc t = .walk completed)
    (hne : completed ≠ 0) : Inv ((s.delete t).goto t (.walk (s.next completed))) := by
  have hb : Linked 0 s.next completed (s.batch t) := by
    have := h.popper t
    rw [hpc] at this
    exact this
  obtain ⟨l, hbl, hl⟩ := hb.exists_cons hne
  have hsub : ∀ t', ∀ n ∈ Function.update s.batch t (s.batch t).tail t', n ∈ s.batch t' := by
    intro t' n hn
    by_cases ht : t' = t
    · subst ht
      rw [Function.update_self] at hn
      exact List.mem_of_mem_tail hn
    · rwa [Function.update_of_ne ht] at hn
  exact
    { head_linked := h.head_linked
      popper := by
        intro t'
        by_cases ht : t' = t
        · subst ht
          simp only [QState.goto, QState.delete, Function.update_self, hbl, List.tail_cons]
          exact hl
        · simpa [QState.goto, QState.delete, Function.update_of_ne ht] using h.popper t'
      pusher := fun t' data staleHead hp huniq =>
        (h.pusher_update (by rw [hpc]; rfl) rfl hp huniq).2
      data_ne := fun t' data hd => h.data_ne_update rfl hd
      batch_nodup := by
        intro t'
        by_cases ht : t' = t
        · subst ht
          simp only [QState.goto, QState.delete, Function.update_self]
          exact (h.batch_nodup t').tail
        · simpa [QState.goto, QState.delete, Function.update_of_ne ht] using h.batch_nodup t'
      batch_pending := fun t' n hn => h.batch_pending t' n (hsub t' n hn)
      batch_batch := fun t₁ t₂ hne n hn hm => h.batch_batch t₁ t₂ hne n (hsub t₁ n hn)
        (hsub t₂ n hm)
      history := h.history }

end Inv

/-- **Step lemma.** A disciplined step keeps the invariant. -/
theorem inv_step {s s' : QState} {l : Label} (h : Inv s) (hout : PushedOutside s)
    (hout' : PushedOutside s') (hfree : ReuseFree s l) (hs : step s l = some s') : Inv s' := by
  cases l with
  | push t data =>
      simp only [step] at hs
      split at hs
      · rename_i hg
        cases hs
        have hb : s.batch t = [] := by
          have := h.popper t
          rw [hg.1] at this
          exact this
        refine h.goto (by rw [hb]; rfl) (by intro _ _ e; cases e) ?_ ?_
        · intro data' hd
          cases hd
          exact hg.2
        · intro data' hd
          rw [hg.1] at hd
          cases hd
      · cases hs
  | popAll t =>
      simp only [step] at hs
      split at hs
      · rename_i hg
        cases hs
        have hb : s.batch t = [] := by
          have := h.popper t
          rw [hg] at this
          exact this
        exact h.goto' (by rw [hb]; rfl) (by rw [hg]; rfl) rfl
      · cases hs
  | spurious t =>
      simp only [step] at hs
      split at hs
      · rename_i data staleHead hpc
        cases hs
        have hb : PopperOk s.next (.cas data staleHead) (s.batch t) := hpc ▸ h.popper t
        refine h.goto hb (by intro _ _ e; cases e) ?_ ?_
        · intro data' hd
          exact h.data_ne t data' (by rw [hpc]; exact hd)
        · intro data' hd
          rw [hpc] at hd
          exact .inl hd
      · cases hs
  | reuse n v =>
      cases hs
      exact h.write hfree.1 fun t staleHead hpc => absurd (by rw [hpc]; rfl) (hfree.2 t)
  | step t =>
      have hb := h.popper t
      simp only [step, advance] at hs
      split at hs <;> rename_i hpc
      · cases hs
      · rename_i data
        cases hs
        rw [hpc] at hb
        refine h.goto hb (by intro _ _ e; cases e) ?_ ?_
        · intro data' hd
          exact h.data_ne t data' (by rw [hpc]; exact hd)
        · intro data' hd
          rw [hpc] at hd
          exact .inl hd
      · rename_i data staleHead
        cases hs
        rw [hpc] at hb
        have hpush : (s.pc t).pushing = some data := by rw [hpc]; rfl
        -- another thread at its compare-and-exchange on the same node now has company
        have hw : Inv (s.write data staleHead) := by
          refine h.write (hout t data hpush) fun t' stale hpc' => ⟨t, ?_, hpush⟩
          rintro rfl
          rw [hpc] at hpc'
          cases hpc'
        refine hw.goto hb ?_ ?_ ?_
        · intro data' stale e
          cases e
          simp [QState.write]
        · intro data' hd
          exact h.data_ne t data' (by rw [hpc]; exact hd)
        · intro data' hd
          change (s.pc t).pushing = some data' at hd
          rw [hpc] at hd
          exact .inl hd
      · rename_i data staleHead
        split at hs <;> cases hs
        · rename_i he
          exact h.swing (by rw [hpc, he]) hout hout'
        · rw [hpc] at hb
          refine h.goto hb (by intro _ _ e; cases e) ?_ ?_
          · intro data' hd
            exact h.data_ne t data' (by rw [hpc]; exact hd)
          · intro data' hd
            rw [hpc] at hd
            exact .inl hd
      · cases hs
        exact h.detach hpc
      · rename_i last first
        rw [hpc] at hb
        obtain ⟨l, r, hl, hr, hbatch⟩ := hb
        split at hs <;> cases hs
        · rename_i hz
          subst hz
          refine h.goto' ?_ (by rw [hpc]; rfl) rfl
          obtain rfl := hl.null_nil
          rw [hbatch]
          simpa [PopperOk] using hr
        · rename_i hz
          obtain ⟨l', rfl, hl'⟩ := hl.exists_cons hz
          exact h.goto' ⟨l', r, hz, rfl, hl', hr, by simp [hbatch]⟩ (by rw [hpc]; rfl) rfl
      · cases hs
        exact h.relink hpc hout
      · cases hs
        rw [hpc] at hb
        exact h.goto' hb (by rw [hpc]; rfl) rfl
      · rename_i completed
        split at hs <;> cases hs
        · rename_i hz
          subst hz
          rw [hpc] at hb
          exact h.goto' (Linked.null_nil hb) (by rw [hpc]; rfl) rfl
        · rename_i hz
          exact h.delete hpc hz

end Tmysql4.ActionQueue
