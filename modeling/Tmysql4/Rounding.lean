import Mathlib.Data.Nat.Dist

/-! # Rounding to nearest, ties to even

The natural numbers of a binary format of precision `p` are the multiples of powers of two with a
factor below `2 ^ p`. `nearestEven` rounds to the multiples of one unit, and `roundTo` to the unit
of the binade of its argument.  The first leads to `roundTo_nearest`, that no number of the format
is closer; the order is kept for that reason alone. -/

namespace Rounding

variable {unit n m c p : ℕ}

/-- The nearest multiple of `unit`, and of two the one with the even factor. -/
def nearestEven (unit n : ℕ) : ℕ :=
  let q := n / unit
  let r := n % unit
  if 2 * r < unit ∨ (2 * r = unit ∧ q % 2 = 0) then q * unit else (q + 1) * unit

/-! ### Multiples of a unit -/

theorem nearestEven_cases (unit n : ℕ) :
    (nearestEven unit n = n / unit * unit ∧ 2 * (n % unit) ≤ unit) ∨
      (nearestEven unit n = (n / unit + 1) * unit ∧ unit ≤ 2 * (n % unit)) := by
  unfold nearestEven
  dsimp only
  split
  · left
    refine ⟨rfl, ?_⟩
    omega
  · right
    refine ⟨rfl, ?_⟩
    omega

theorem nearestEven_eq_mul (unit n : ℕ) : ∃ c, nearestEven unit n = c * unit := by
  obtain ⟨heq, -⟩ | ⟨heq, -⟩ := nearestEven_cases unit n
  · exact ⟨_, heq⟩
  · exact ⟨_, heq⟩

/-- No multiple is closer. -/
theorem nearestEven_nearest (hunit : 0 < unit) (n c : ℕ) :
    Nat.dist (nearestEven unit n) n ≤ Nat.dist (c * unit) n := by
  have hn := Nat.div_add_mod' n unit
  have hlt := Nat.mod_lt n hunit
  have hnext : (n / unit + 1) * unit = n / unit * unit + unit := Nat.succ_mul _ _
  -- the multiple is below the number or above the next multiple
  have hside : c * unit ≤ n / unit * unit ∨ (n / unit + 1) * unit ≤ c * unit := by
    obtain hle | hle := Nat.lt_or_ge (n / unit) c
    · right
      apply Nat.mul_le_mul_right
      exact hle
    · left
      apply Nat.mul_le_mul_right
      exact hle
  unfold Nat.dist
  obtain ⟨heq, hlow⟩ | ⟨heq, hhigh⟩ := nearestEven_cases unit n
  · rw [heq]
    omega
  · rw [heq]
    omega

/-- The error is at most half a unit. -/
theorem nearestEven_error (hunit : 0 < unit) (n : ℕ) :
    2 * Nat.dist (nearestEven unit n) n ≤ unit := by
  have hn := Nat.div_add_mod' n unit
  have hlt := Nat.mod_lt n hunit
  have hnext : (n / unit + 1) * unit = n / unit * unit + unit := Nat.succ_mul _ _
  unfold Nat.dist
  obtain ⟨heq, hlow⟩ | ⟨heq, hhigh⟩ := nearestEven_cases unit n
  · rw [heq]
    omega
  · rw [heq]
    omega

theorem nearestEven_le (hunit : 0 < unit) (hle : n ≤ c * unit) : nearestEven unit n ≤ c * unit := by
  have hnear := nearestEven_nearest hunit n c
  obtain ⟨d, heq⟩ := nearestEven_eq_mul unit n
  rw [heq] at hnear ⊢
  by_contra hnot
  -- a multiple beyond the bound is further away by a unit
  have hlt : c < d := by
    by_contra hge
    apply hnot
    apply Nat.mul_le_mul_right
    omega
  have hstep : (c + 1) * unit ≤ d * unit := Nat.mul_le_mul_right unit hlt
  rw [Nat.succ_mul] at hstep
  unfold Nat.dist at hnear
  omega

/-! ### Numbers of a format -/

/-- The numbers of precision `p`. -/
def Format (p : ℕ) : Set ℕ := {m | ∃ c e, c < 2 ^ p ∧ m = c * 2 ^ e}

/-- The number of precision `p` that `n` is rounded to. -/
def roundTo (p n : ℕ) : ℕ := nearestEven (2 ^ (n.log2 + 1 - p)) n

theorem lt_binade (p n : ℕ) : n < 2 ^ p * 2 ^ (n.log2 + 1 - p) := by
  have hlog : n < 2 ^ (n.log2 + 1) := Nat.lt_log2_self
  rw [← Nat.pow_add]
  apply Nat.lt_of_lt_of_le hlog
  apply Nat.pow_le_pow_right
  · decide
  · omega

/-- The first number of the binade is a multiple of the unit. -/
theorem binade_first (hp : 0 < p) (h : p ≤ n.log2 + 1) :
    2 ^ (p - 1) * 2 ^ (n.log2 + 1 - p) = 2 ^ n.log2 := by
  rw [← Nat.pow_add]
  congr 1
  omega

theorem binade_le (h : 0 < n.log2) : 2 ^ n.log2 ≤ n := by
  apply Nat.log2_self_le
  rintro rfl
  simp at h

theorem mem_format_of_le (hp : 0 < p) (hle : n ≤ 2 ^ p) : n ∈ Format p := by
  obtain hlt | heq := Nat.lt_or_eq_of_le hle
  · exact ⟨n, 0, hlt, by simp⟩
  · exact ⟨1, p, Nat.one_lt_two_pow (by omega), by simp [heq]⟩

theorem roundTo_mem_format (hp : 0 < p) (n : ℕ) : roundTo p n ∈ Format p := by
  unfold roundTo
  have hle := nearestEven_le (Nat.two_pow_pos (n.log2 + 1 - p)) (Nat.le_of_lt (lt_binade p n))
  obtain ⟨c, heq⟩ := nearestEven_eq_mul (2 ^ (n.log2 + 1 - p)) n
  rw [heq] at hle ⊢
  have hc : c ≤ 2 ^ p := Nat.le_of_mul_le_mul_right hle (Nat.two_pow_pos _)
  obtain ⟨d, e, hd, rfl⟩ := mem_format_of_le hp hc
  refine ⟨d, e + (n.log2 + 1 - p), hd, ?_⟩
  rw [Nat.pow_add, Nat.mul_assoc]

/-- No number of the format is closer. -/
theorem roundTo_nearest (hp : 0 < p) (n : ℕ) (hm : m ∈ Format p) :
    Nat.dist (roundTo p n) n ≤ Nat.dist m n := by
  obtain ⟨c, e, hc, rfl⟩ := hm
  unfold roundTo
  have hpos := Nat.two_pow_pos (n.log2 + 1 - p)
  obtain hlt | hle := Nat.lt_or_ge e (n.log2 + 1 - p)
  · -- a number below the binade of `n`, whose first number is a multiple of the unit
    have hbelow : c * 2 ^ e ≤ 2 ^ n.log2 := calc
      c * 2 ^ e ≤ 2 ^ p * 2 ^ e := Nat.mul_le_mul_right _ (Nat.le_of_lt hc)
      _ = 2 ^ (p + e) := (Nat.pow_add 2 p e).symm
      _ ≤ 2 ^ n.log2 := Nat.pow_le_pow_right (by decide) (by omega)
    have hfirst := binade_first hp (n := n) (by omega)
    have hbinade := binade_le (n := n) (by omega)
    have hnear := nearestEven_nearest hpos n (2 ^ (p - 1))
    rw [hfirst] at hnear
    unfold Nat.dist at hnear ⊢
    omega
  · -- a multiple of the unit
    have hmul : c * 2 ^ e = c * 2 ^ (e - (n.log2 + 1 - p)) * 2 ^ (n.log2 + 1 - p) := by
      rw [Nat.mul_assoc, ← Nat.pow_add, Nat.sub_add_cancel hle]
    rw [hmul]
    exact nearestEven_nearest hpos n _

/-- The error relative to the number is at most `2 ^ -p`. -/
theorem roundTo_error (hp : 0 < p) (n : ℕ) : Nat.dist (roundTo p n) n * 2 ^ p ≤ n := by
  have herror := nearestEven_error (Nat.two_pow_pos (n.log2 + 1 - p)) n
  unfold roundTo
  obtain hle | hlt := Nat.lt_or_ge p (n.log2 + 1)
  · have hfirst := binade_first hp (n := n) (by omega)
    calc
      _ = 2 ^ (p - 1) * (2 * Nat.dist (nearestEven (2 ^ (n.log2 + 1 - p)) n) n) := by
        rw [← Nat.mul_assoc, ← Nat.pow_succ, Nat.succ_eq_add_one, Nat.sub_add_cancel hp,
          Nat.mul_comm]
      _ ≤ 2 ^ (p - 1) * 2 ^ (n.log2 + 1 - p) := Nat.mul_le_mul_left _ herror
      _ = 2 ^ n.log2 := hfirst
      _ ≤ n := binade_le (by omega)
  · -- the unit is one, so that nothing is rounded
    rw [Nat.sub_eq_zero_of_le hlt] at herror ⊢
    have hzero : Nat.dist (nearestEven (2 ^ 0) n) n = 0 := by
      rw [Nat.pow_zero] at herror ⊢
      omega
    rw [hzero, Nat.zero_mul]
    exact Nat.zero_le n

theorem roundTo_eq_self_iff (hp : 0 < p) : roundTo p n = n ↔ n ∈ Format p := by
  constructor
  · intro heq
    rw [← heq]
    exact roundTo_mem_format hp n
  · intro hn
    have hnear := roundTo_nearest hp n hn
    rw [Nat.dist_self] at hnear
    exact Nat.eq_of_dist_eq_zero (Nat.le_zero.mp hnear)

/-- Each rounding is at least as close as the other one, so two that were exchanged would be
roundings of one number. -/
theorem roundTo_mono (hp : 0 < p) {a b : ℕ} (hab : a ≤ b) : roundTo p a ≤ roundTo p b := by
  by_contra hnot
  have ha := roundTo_nearest hp a (roundTo_mem_format hp b)
  have hb := roundTo_nearest hp b (roundTo_mem_format hp a)
  have hne : a ≠ b := by
    rintro rfl
    exact hnot (Nat.le_refl _)
  unfold Nat.dist at ha hb
  omega

end Rounding
