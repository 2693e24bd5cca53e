import Tmysql4.Transition

/-! # Counting the steps of a run

`occurrences p s tr` is the number of steps of the run `tr` from `s` at which `p` holds of the
state before the step and of its label.  By `occurrences_le` a run makes at most so many steps in
`p` as a potential allows that the steps in `q` refill. -/

namespace Transition

variable {σ ℓ : Type*} (step : σ → ℓ → Option σ)

/-- The number of steps of the run from `s` at which `p` holds. -/
def occurrences (p : σ → ℓ → Bool) : σ → List ℓ → ℕ
  | _, [] => 0
  | s, l :: tr => (p s l).toNat + (step s l).elim 0 fun s' => occurrences p s' tr

variable {step} {p q : σ → ℓ → Bool} {s s₁ s' : σ} {l : ℓ} {tr : List ℓ}

theorem occurrences_cons (h : step s l = some s₁) :
    occurrences step p s (l :: tr) = (p s l).toNat + occurrences step p s₁ tr := by
  rw [occurrences, h, Option.elim_some]

/-- Steps that the label alone decides. -/
theorem occurrences_label {p : ℓ → Bool} (h : exec step s tr = some s') :
    occurrences step (fun _ l => p l) s tr = tr.countP p := by
  induction tr generalizing s with
  | nil => rfl
  | cons l tr ih =>
      obtain ⟨s₁, h₁, hrest⟩ := exec_cons_iff.mp h
      rw [occurrences_cons h₁, ih hrest, List.countP_cons, Nat.add_comm]
      cases p l <;> rfl

/-- The steps in `p` and those in `q`, when no step is in both. -/
theorem occurrences_or (hdisjoint : ∀ s l, p s l = true → q s l = false)
    (h : exec step s tr = some s') :
    occurrences step (fun s l => p s l || q s l) s tr =
      occurrences step p s tr + occurrences step q s tr := by
  induction tr generalizing s with
  | nil => rfl
  | cons l tr ih =>
      obtain ⟨s₁, h₁, hrest⟩ := exec_cons_iff.mp h
      rw [occurrences_cons h₁, occurrences_cons h₁, occurrences_cons h₁, ih hrest]
      cases hp : p s l with
      | false =>
          rw [Bool.false_or, Bool.toNat_false]
          omega
      | true =>
          rw [hdisjoint s l hp, Bool.or_false, Bool.toNat_false]
          omega

/-- **The rule of the potential.** Where a step in `p` takes one from `μ` and a step in `q` gives
it at most `c`, a run has at most `μ s` steps in `p`, and `c` for every step in `q`. -/
theorem occurrences_le {I : σ → Prop} {G : σ → ℓ → Prop} {μ : σ → ℕ} {c : ℕ}
    (hstep : ∀ s l s', I s → G s l → step s l = some s' →
      I s' ∧ (p s l).toNat + μ s' ≤ μ s + c * (q s l).toNat) (hI : I s)
    (hG : Along step G s tr) (h : exec step s tr = some s') :
    occurrences step p s tr + μ s' ≤ μ s + c * occurrences step q s tr := by
  induction tr generalizing s with
  | nil =>
      cases h
      exact Nat.add_comm _ _ ▸ Nat.le_refl _
  | cons l tr ih =>
      obtain ⟨s₁, h₁, hrest⟩ := exec_cons_iff.mp h
      obtain ⟨hI₁, hle⟩ := hstep s l s₁ hI hG.1 h₁
      have hrun := ih hI₁ (hG.2 s₁ h₁) hrest
      rw [occurrences_cons h₁, occurrences_cons h₁, Nat.mul_add]
      omega

end Transition
