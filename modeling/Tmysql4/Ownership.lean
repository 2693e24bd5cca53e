import Mathlib.Data.Nat.Notation
import Mathlib.Logic.Function.Basic

/-! # Handles with one owner each

Owners hold handles, which are numbered in the order of their allocation.  A handle is closed by
its owner, and an owner may get a new one afterwards.

`Valid P` says that no handle has two owners and that the owners `P`
hold open ones.  `Owned P` says moreover that every open handle is held
by one of them, and that every other handle has been closed once. -/

namespace Ownership

/-- What every owner holds, which handles are closed, how
many were allocated and how often each was closed. -/
@[ext] structure Holding (S : Type*) where
  held : S → Option ℕ
  closed : ℕ → Bool
  next : ℕ
  closes : ℕ → ℕ

namespace Holding

variable {S : Type*} (a : Holding S) (s : S)

/-- The owner closes what it holds. -/
def close : Holding S :=
  match a.held s with
  | none => a
  | some h => { a with
      closed := Function.update a.closed h true
      closes := Function.update a.closes h (a.closes h + 1) }

/-- The owner holds nothing any more. -/
def clear [DecidableEq S] : Holding S := { a with held := Function.update a.held s none }

/-- The owner gets a new handle. -/
def renew [DecidableEq S] : Holding S where
  held := Function.update a.held s (some a.next)
  closed := Function.update a.closed a.next false
  next := a.next + 1
  closes := a.closes

variable {a s} {t : S} {i : ℕ}

theorem close_of_held (hs : a.held s = some i) : a.close s = { a with
    closed := Function.update a.closed i true
    closes := Function.update a.closes i (a.closes i + 1) } := by
  unfold close
  rw [hs]

theorem close_of_not_held (hs : a.held s = none) : a.close s = a := by
  unfold close
  rw [hs]

theorem close_held (a : Holding S) (s : S) : (a.close s).held = a.held := by
  unfold close
  split <;> rfl

theorem close_next (a : Holding S) (s : S) : (a.close s).next = a.next := by
  unfold close
  split <;> rfl

/-- What another owner holds stays as it is. -/
theorem close_closed_of_ne (h : a.held s ≠ some i) : (a.close s).closed i = a.closed i := by
  cases hs : a.held s with
  | none => rw [close_of_not_held hs]
  | some j =>
      rw [close_of_held hs]
      refine Function.update_of_ne ?_ _ _
      rintro rfl
      exact h hs

theorem close_closed_self (h : a.held s = some i) : (a.close s).closed i = true := by
  rw [close_of_held h]
  exact Function.update_self ..

variable [DecidableEq S]

theorem clear_held_eq_some : (a.clear s).held t = some i ↔ t ≠ s ∧ a.held t = some i := by
  unfold clear
  by_cases ht : t = s
  · subst ht
    simp
  · simp [ht]

theorem renew_held_eq_some : (a.renew s).held t = some i ↔
    t = s ∧ i = a.next ∨ t ≠ s ∧ a.held t = some i := by
  unfold renew
  by_cases ht : t = s
  · subst ht
    simp [eq_comm]
  · simp [ht]

theorem renew_closed_of_ne (h : i ≠ a.next) :
    (a.renew s).closed i = a.closed i := Function.update_of_ne h _ _

end Holding

open Holding

variable {S : Type*} {P Q : S → Prop} {a : Holding S} {s : S}

/-! ### Valid owners -/

structure Valid (P : S → Prop) (a : Holding S) : Prop where
  lt : ∀ s h, a.held s = some h → h < a.next
  inj : ∀ s t h, a.held s = some h → a.held t = some h → s = t
  held_open : ∀ s, P s → ∀ h, a.held s = some h → a.closed h = false

namespace Valid

/-- Only the owners that hold something matter. -/
theorem congr (h : Valid P a) (hPQ : ∀ s, a.held s ≠ none → Q s → P s) : Valid Q a := by
  refine ⟨h.lt, h.inj, fun s hs i hi => h.held_open s (hPQ s ?_ hs) i hi⟩
  rw [hi]
  exact Option.some_ne_none i

/-- Whoever closes what it holds leaves the handles of the others open. -/
theorem close (h : Valid P a) (s : S) : Valid (fun t => P t ∧ t ≠ s) (a.close s) := by
  refine ⟨fun t i ht => ?_, fun t t' i ht ht' => ?_, fun t hP i ht => ?_⟩
  · rw [close_held] at ht
    rw [close_next]
    exact h.lt t i ht
  · rw [close_held] at ht ht'
    exact h.inj t t' i ht ht'
  · rw [close_held] at ht
    rw [close_closed_of_ne fun hs => hP.2 (h.inj t s i ht hs)]
    exact h.held_open t hP.1 i ht

/-- Owners that close what they hold one after the other. -/
theorem closeAll (h : Valid P a) (l : List S) :
    Valid (fun t => P t ∧ t ∉ l) (l.foldl Holding.close a) := by
  induction l generalizing a P with
  | nil => exact h.congr fun t _ ht => ht.1
  | cons s l ih =>
      refine (ih (h.close s)).congr fun t _ ht => ⟨⟨ht.1, ?_⟩, ?_⟩
      · rintro rfl
        exact ht.2 List.mem_cons_self
      · exact fun hm => ht.2 (List.mem_cons_of_mem _ hm)

variable [DecidableEq S]

theorem clear (h : Valid (fun t => P t ∧ t ≠ s) a) : Valid P (a.clear s) := by
  refine ⟨fun t i ht => ?_, fun t t' i ht ht' => ?_, fun t hP i ht => ?_⟩
  · exact h.lt t i (clear_held_eq_some.mp ht).2
  · exact h.inj t t' i (clear_held_eq_some.mp ht).2 (clear_held_eq_some.mp ht').2
  · obtain ⟨hne, ht⟩ := clear_held_eq_some.mp ht
    exact h.held_open t ⟨hP, hne⟩ i ht

/-- The owner gets the next handle, which nobody has held. -/
theorem renew (h : Valid (fun t => P t ∧ t ≠ s) a) : Valid P (a.renew s) := by
  refine ⟨fun t i ht => ?_, fun t t' i ht ht' => ?_, fun t hP i ht => ?_⟩
  · show i < a.next + 1
    obtain ⟨-, rfl⟩ | ⟨-, ht⟩ := renew_held_eq_some.mp ht
    · exact Nat.lt_succ_self _
    · exact Nat.lt_succ_of_lt (h.lt t i ht)
  · obtain ⟨hts, hi⟩ | ⟨-, ht⟩ := renew_held_eq_some.mp ht
    · obtain ⟨hts', -⟩ | ⟨-, ht'⟩ := renew_held_eq_some.mp ht'
      · rw [hts, hts']
      · exact absurd hi (Nat.ne_of_lt (h.lt t' i ht'))
    · obtain ⟨-, hi⟩ | ⟨-, ht'⟩ := renew_held_eq_some.mp ht'
      · exact absurd hi (Nat.ne_of_lt (h.lt t i ht))
      · exact h.inj t t' i ht ht'
  · obtain ⟨-, rfl⟩ | ⟨hne, ht⟩ := renew_held_eq_some.mp ht
    · exact Function.update_self ..
    · rw [renew_closed_of_ne (Nat.ne_of_lt (h.lt t i ht))]
      exact h.held_open t ⟨hP, hne⟩ i ht

end Valid

/-! ### Owners of all open handles -/

structure Owned (P : S → Prop) (a : Holding S) : Prop extends Valid P a where
  owner : ∀ h, a.closed h = false → ∃ s, P s ∧ a.held s = some h
  closes : ∀ h, a.closes h = if h < a.next ∧ a.closed h = true then 1 else 0

namespace Owned

theorem congr (h : Owned P a) (hPQ : ∀ s, a.held s ≠ none → (P s ↔ Q s)) : Owned Q a := by
  refine ⟨h.toValid.congr fun s hs => (hPQ s hs).mpr, fun i hi => ?_, h.closes⟩
  obtain ⟨s, hs, hheld⟩ := h.owner i hi
  refine ⟨s, (hPQ s ?_).mp hs, hheld⟩
  rw [hheld]
  exact Option.some_ne_none i

/-- An open handle has exactly one owner. -/
theorem existsUnique (h : Owned P a) {i : ℕ} (hi : a.closed i = false) :
    ∃! s, P s ∧ a.held s = some i := by
  obtain ⟨s, hs, hheld⟩ := h.owner i hi
  exact ⟨s, ⟨hs, hheld⟩, fun t ht => h.inj t s i ht.2 hheld⟩

theorem closes_le_one (h : Owned P a) (i : ℕ) : a.closes i ≤ 1 := by
  rw [h.closes]
  split
  · exact Nat.le_refl 1
  · exact Nat.zero_le 1

/-- A handle that was never closed is open. -/
theorem closed_of_closes_eq_zero (h : Owned P a) {i : ℕ} (hi : i < a.next)
    (hzero : a.closes i = 0) : a.closed i = false := by
  rw [h.closes] at hzero
  by_contra hclosed
  rw [if_pos ⟨hi, eq_true_of_ne_false hclosed⟩] at hzero
  omega

/-- Without owners every handle has been closed once. -/
theorem closes_eq_one (h : Owned P a) (hP : ∀ s, ¬ P s) {i : ℕ} (hi : i < a.next) :
    a.closes i = 1 := by
  have hclosed : a.closed i = true := by
    apply eq_true_of_ne_false
    intro hopen
    obtain ⟨s, hs, -⟩ := h.owner i hopen
    exact hP s hs
  rw [h.closes, if_pos ⟨hi, hclosed⟩]

/-- The owner that closes its handle is none any more. -/
theorem close (h : Owned P a) (hs : P s) : Owned (fun t => P t ∧ t ≠ s) (a.close s) := by
  refine ⟨h.toValid.close s, fun i hi => ?_, fun i => ?_⟩
  · have hne : a.held s ≠ some i := by
      intro hheld
      rw [close_closed_self hheld] at hi
      cases hi
    rw [close_closed_of_ne hne] at hi
    obtain ⟨t, ht, htheld⟩ := h.owner i hi
    rw [close_held]
    refine ⟨t, ⟨ht, ?_⟩, htheld⟩
    rintro rfl
    exact hne htheld
  · cases hheld : a.held s with
    | none =>
        rw [close_of_not_held hheld]
        exact h.closes i
    | some j =>
        rw [close_of_held hheld]
        by_cases hij : i = j
        · subst hij
          have hopen := h.held_open s hs i hheld
          simp only [Function.update_self, h.closes i, hopen, h.lt s i hheld, Bool.false_eq_true,
            and_false, if_false, and_true, if_true]
        · simp only [Function.update_of_ne hij, h.closes i]

/-- The owners close their handles one after the other. -/
theorem closeAll (h : Owned P a) {l : List S} (hl : ∀ s ∈ l, P s) (hnodup : l.Nodup) :
    Owned (fun t => P t ∧ t ∉ l) (l.foldl Holding.close a) := by
  induction l generalizing a P with
  | nil => exact h.congr fun t _ => by simp
  | cons s l ih =>
      obtain ⟨hs, hnodup⟩ := List.nodup_cons.mp hnodup
      have hrest := ih (h.close (hl s List.mem_cons_self))
        (fun t ht => ⟨hl t (List.mem_cons_of_mem _ ht), ?_⟩) hnodup
      · exact hrest.congr fun t _ => by simp [and_assoc]
      · rintro rfl
        exact hs ht

variable [DecidableEq S]

theorem clear (h : Owned (fun t => P t ∧ t ≠ s) a) : Owned P (a.clear s) := by
  refine ⟨h.toValid.clear, fun i hi => ?_, h.closes⟩
  obtain ⟨t, ⟨ht, hne⟩, hheld⟩ := h.owner i hi
  exact ⟨t, ht, clear_held_eq_some.mpr ⟨hne, hheld⟩⟩

theorem renew (h : Owned (fun t => P t ∧ t ≠ s) a) (hs : P s) : Owned P (a.renew s) := by
  have hnew : a.closes a.next = 0 := by rw [h.closes, if_neg (by omega)]
  refine ⟨h.toValid.renew, fun i hi => ?_, fun i => ?_⟩
  · by_cases hnext : i = a.next
    · exact ⟨s, hs, renew_held_eq_some.mpr (.inl ⟨rfl, hnext⟩)⟩
    · rw [renew_closed_of_ne hnext] at hi
      obtain ⟨t, ⟨ht, hne⟩, hheld⟩ := h.owner i hi
      exact ⟨t, ht, renew_held_eq_some.mpr (.inr ⟨hne, hheld⟩)⟩
  · by_cases hi : i = a.next
    · subst hi
      simp [Holding.renew, hnew]
    · have hlt : i < a.next + 1 ↔ i < a.next := by omega
      simp [Holding.renew, hi, hlt, h.closes i]

end Owned

end Ownership
