import Mathlib.Data.List.TakeDrop
import Mathlib.Data.List.TakeWhile
import Mathlib.Data.Nat.Notation

/-! # Strings that end at a terminator

A buffer is read up to the first terminator `z`, and what follows it does
not matter.  `find` searches for the terminator in the buffer alone, so
that it may fail where a reader of the memory goes on.  The lemmas say when
the text of a buffer, or of a bounded copy of it, is the whole buffer. -/

namespace CStrings

variable {α : Type*} [DecidableEq α] (z : α)

/-- Everything before the first terminator. -/
def text (buffer : List α) : List α := buffer.takeWhile (· ≠ z)

/-- The position of the first terminator, `none` when the search leaves the buffer. -/
def find : List α → Option ℕ
  | [] => none
  | a :: buffer => if a = z then some 0 else (find buffer).map (· + 1)

/-- The text of a copy of at most `n` characters. -/
def copy (n : ℕ) (buffer : List α) : List α := (text z buffer).take n

variable {z} {buffer more : List α} {n : ℕ}

/-! ### The text -/

@[simp] theorem text_nil : text z [] = [] := rfl

theorem text_cons (a : α) (buffer : List α) :
    text z (a :: buffer) = if a = z then [] else a :: text z buffer := by
  unfold text
  rw [List.takeWhile_cons]
  by_cases h : a = z <;> simp [h]

theorem not_mem_text (buffer : List α) : z ∉ text z buffer := by
  intro h
  have hne := List.mem_takeWhile_imp h
  simp at hne

theorem text_eq_self_iff : text z buffer = buffer ↔ z ∉ buffer := by
  constructor
  · intro h
    rw [← h]
    exact not_mem_text buffer
  · intro h
    refine List.takeWhile_eq_self_iff.mpr fun a ha => decide_eq_true ?_
    rintro rfl
    exact h ha

/-- What follows a terminator is not read. -/
theorem text_append_of_mem (h : z ∈ buffer) (more : List α) :
    text z (buffer ++ more) = text z buffer := by
  induction buffer with
  | nil => cases h
  | cons a buffer ih =>
      rw [List.cons_append, text_cons, text_cons]
      split
      · rfl
      · rename_i hne
        obtain rfl | h := List.mem_cons.mp h
        · exact absurd rfl hne
        · rw [ih h]

/-- Without a terminator the reader goes on behind the buffer. -/
theorem text_append_of_not_mem (h : z ∉ buffer) (more : List α) :
    text z (buffer ++ more) = buffer ++ text z more := by
  induction buffer with
  | nil => rfl
  | cons a buffer ih =>
      rw [List.mem_cons, not_or] at h
      rw [List.cons_append, text_cons, if_neg (Ne.symm h.1), ih h.2, List.cons_append]

theorem length_text_lt (h : z ∈ buffer) : (text z buffer).length < buffer.length := by
  apply Nat.lt_of_le_of_ne (List.takeWhile_sublist _).length_le
  intro heq
  have hself : text z buffer = buffer := (List.takeWhile_sublist _).eq_of_length heq
  exact text_eq_self_iff.mp hself h

theorem text_eq_nil_iff : text z more = [] ↔ ∀ a ∈ more.head?, a = z := by
  cases more with
  | nil => simp
  | cons a more =>
      rw [text_cons]
      by_cases h : a = z <;> simp [h]

/-- The text has the length of the buffer when the buffer has no terminator and is followed by
one, or by nothing. -/
theorem length_text_append_iff :
    (text z (buffer ++ more)).length = buffer.length ↔ z ∉ buffer ∧ ∀ a ∈ more.head?, a = z := by
  by_cases h : z ∈ buffer
  · rw [text_append_of_mem h]
    exact iff_of_false (Nat.ne_of_lt (length_text_lt h)) fun hnot => hnot.1 h
  · rw [text_append_of_not_mem h, List.length_append, ← text_eq_nil_iff, ← List.length_eq_zero_iff]
    constructor
    · exact fun hlen => ⟨h, by omega⟩
    · rintro ⟨-, hlen⟩
      omega

/-! ### The search -/

theorem find_eq_none_iff : find z buffer = none ↔ z ∉ buffer := by
  induction buffer with
  | nil => simp [find]
  | cons a buffer ih =>
      rw [find, List.mem_cons]
      by_cases h : a = z
      · simp [h]
      · simp [h, Ne.symm h, ih]

/-- A search that succeeds has found the end of the text. -/
theorem find_of_mem (h : z ∈ buffer) : find z buffer = some (text z buffer).length := by
  induction buffer with
  | nil => cases h
  | cons a buffer ih =>
      rw [find, text_cons]
      by_cases ha : a = z
      · rw [if_pos ha, if_pos ha]
        rfl
      · obtain rfl | h := List.mem_cons.mp h
        · exact absurd rfl ha
        · rw [if_neg ha, if_neg ha, ih h]
          rfl

/-! ### Copies -/

theorem copy_eq_self_iff : copy z n buffer = buffer ↔ z ∉ buffer ∧ buffer.length ≤ n := by
  unfold copy
  constructor
  · intro h
    have hmem : z ∉ buffer := fun hz => not_mem_text buffer (List.mem_of_mem_take (h ▸ hz))
    refine ⟨hmem, ?_⟩
    rw [text_eq_self_iff.mpr hmem] at h
    exact (List.take_eq_self_iff buffer).mp h
  · rintro ⟨hmem, hlen⟩
    rw [text_eq_self_iff.mpr hmem]
    exact List.take_of_length_le hlen

end CStrings
