import Mathlib.Data.List.Nodup
import Mathlib.Logic.Function.Basic

/-! # Null-terminated chains of next pointers

A heap of list nodes is a function `next : α → α` with a distinguished `null : α`.
`Linked null next p l` says that following `next` from `p` visits exactly the nodes of `l`, in
this order, and then reaches `null`.  Such an `l` is unique (`Linked.unique`) and has no
repetition (`Linked.nodup`), so the chain is finite and acyclic; writing a node outside `l`
leaves it as it is (`Linked.write`).  `Reach null next p n` is membership in the chain from `p`
without a list, meaningful also for chains that never end. -/

variable {α : Type*} {null : α} {next : α → α}

/-- The chain from `p` is exactly `l`. -/
inductive Linked (null : α) (next : α → α) : α → List α → Prop
  | nil : Linked null next null []
  | cons {p : α} {l : List α} (hp : p ≠ null) (h : Linked null next (next p) l) :
      Linked null next p (p :: l)

/-- The node `n` is met by following `next` from `p`. -/
inductive Reach (null : α) (next : α → α) : α → α → Prop
  | here {p : α} (hp : p ≠ null) : Reach null next p p
  | step {p n : α} (hp : p ≠ null) (h : Reach null next (next p) n) : Reach null next p n

namespace Linked

theorem null_nil {l : List α} (h : Linked null next null l) : l = [] := by
  cases h with
  | nil => rfl
  | cons hp _ => exact absurd rfl hp

theorem exists_cons {p : α} {l : List α} (h : Linked null next p l) (hp : p ≠ null) :
    ∃ l', l = p :: l' ∧ Linked null next (next p) l' := by
  cases h with
  | nil => exact absurd rfl hp
  | cons _ h => exact ⟨_, rfl, h⟩

theorem unique {p : α} {l l' : List α} (h : Linked null next p l) (h' : Linked null next p l') :
    l = l' := by
  induction h generalizing l' with
  | nil => exact h'.null_nil.symm
  | cons hp _ ih =>
      obtain ⟨l₁, rfl, h₁⟩ := h'.exists_cons hp
      rw [ih h₁]

/-- From a node of the chain on, the chain is a suffix. -/
theorem exists_suffix {p n : α} {l : List α} (h : Linked null next p l) (hn : n ∈ l) :
    ∃ l', Linked null next n l' ∧ l' <:+ l := by
  induction h with
  | nil => cases hn
  | @cons p l hp h ih =>
      rcases List.mem_cons.mp hn with rfl | hn
      · exact ⟨_, .cons hp h, List.suffix_refl _⟩
      · obtain ⟨l', hl', hs⟩ := ih hn
        exact ⟨l', hl', hs.trans (List.suffix_cons _ _)⟩

/-- A null-terminated chain does not return to a node. -/
theorem nodup {p : α} {l : List α} (h : Linked null next p l) : l.Nodup := by
  induction h with
  | nil => exact List.nodup_nil
  | @cons p l hp h ih =>
      refine List.nodup_cons.mpr ⟨fun hmem => ?_, ih⟩
      obtain ⟨l', hl', hs⟩ := h.exists_suffix hmem
      have heq : l' = p :: l := hl'.unique (.cons hp h)
      have hlen := hs.length_le
      rw [heq, List.length_cons] at hlen
      omega

variable [DecidableEq α]

/-- Writing a node outside the chain leaves the chain as it is. -/
theorem write {p n v : α} {l : List α} (h : Linked null next p l) (hn : n ∉ l) :
    Linked null (Function.update next n v) p l := by
  induction h with
  | nil => exact .nil
  | @cons p l hp h ih =>
      have hne : p ≠ n := fun e => hn (e ▸ List.mem_cons_self)
      refine .cons hp ?_
      rw [Function.update_of_ne hne]
      exact ih fun hm => hn (List.mem_cons_of_mem _ hm)

/-- Pointing a fresh node at the chain puts it in front. -/
theorem write_cons {p n : α} {l : List α} (h : Linked null next p l) (hn : n ∉ l)
    (hnull : n ≠ null) : Linked null (Function.update next n p) n (n :: l) := by
  refine .cons hnull ?_
  rw [Function.update_self]
  exact h.write hn

end Linked

namespace Reach

theorem of_mem {p n : α} {l : List α} (hl : Linked null next p l) (hn : n ∈ l) :
    Reach null next p n := by
  induction hl with
  | nil => cases hn
  | cons hp _ ih =>
      rcases List.mem_cons.mp hn with rfl | hn
      · exact .here hp
      · exact .step hp (ih hn)

theorem mem {p n : α} {l : List α} (hl : Linked null next p l) (h : Reach null next p n) :
    n ∈ l := by
  induction h generalizing l with
  | here hp =>
      obtain ⟨l', rfl, -⟩ := hl.exists_cons hp
      exact List.mem_cons_self
  | step hp _ ih =>
      obtain ⟨l', rfl, hl'⟩ := hl.exists_cons hp
      exact List.mem_cons_of_mem _ (ih hl')

end Reach
