import Mathlib.Data.Nat.Notation
import Mathlib.Data.Option.Basic

/-! # Runs of a partial labelled step function

A system is given by a partial step function `step : σ → ℓ → Option σ`: the label names who
moves and how, `none` means that the move is not enabled.  `exec` replays a list of labels,
`Along G` says that every step of a run meets the guard `G` (a condition on the state before
the step and on its label), and `Throughout D` that every state visited satisfies `D`.

The induction over a run is done once, in `exec_inv`; a development supplies the step lemmas of
its invariants. -/

namespace Transition

variable {σ ℓ : Type*} (step : σ → ℓ → Option σ)

/-- Replay a list of labels. -/
def exec : σ → List ℓ → Option σ
  | s, [] => some s
  | s, l :: tr => (step s l).bind fun s' => exec s' tr

/-- Every step of the run from `s` meets the guard `G`. -/
def Along (G : σ → ℓ → Prop) : σ → List ℓ → Prop
  | _, [] => True
  | s, l :: tr => G s l ∧ ∀ s', step s l = some s' → Along G s' tr

instance Along.decidable {G : σ → ℓ → Prop} [∀ s l, Decidable (G s l)] :
    ∀ (s : σ) (tr : List ℓ), Decidable (Along step G s tr)
  | _, [] => isTrue trivial
  | s, l :: tr =>
      match h : step s l with
      | none =>
          decidable_of_iff (G s l) ⟨fun hG => ⟨hG, fun s' h' => by simp [h] at h'⟩, fun h => h.1⟩
      | some s₁ =>
          have : Decidable (Along step G s₁ tr) := Along.decidable s₁ tr
          decidable_of_iff (G s l ∧ Along step G s₁ tr)
            ⟨fun hG => ⟨hG.1, fun s' h' => by cases h.symm.trans h'; exact hG.2⟩,
              fun hG => ⟨hG.1, hG.2 s₁ h⟩⟩

/-- Every state visited by the run from `s` satisfies `D`. -/
def Throughout (D : σ → Prop) (s : σ) (tr : List ℓ) : Prop :=
  D s ∧ Along step (fun s l => ∀ s', step s l = some s' → D s') s tr

variable {step}

@[simp] theorem exec_nil (s : σ) : exec step s [] = some s := rfl

theorem exec_cons_iff {s s' : σ} {l : ℓ} {tr : List ℓ} :
    exec step s (l :: tr) = some s' ↔ ∃ s₁, step s l = some s₁ ∧ exec step s₁ tr = some s' :=
  Option.bind_eq_some_iff

theorem exec_singleton {s s' : σ} {l : ℓ} (h : step s l = some s') : exec step s [l] = some s' :=
  exec_cons_iff.mpr ⟨s', h, rfl⟩

theorem exec_append_iff {s s' : σ} {tr₁ tr₂ : List ℓ} :
    exec step s (tr₁ ++ tr₂) = some s' ↔
      ∃ s₁, exec step s tr₁ = some s₁ ∧ exec step s₁ tr₂ = some s' := by
  induction tr₁ generalizing s with
  | nil => simp
  | cons l tr ih =>
      simp only [List.cons_append, exec_cons_iff, ih]
      constructor
      · rintro ⟨s₁, h₁, s₂, h₂, h₃⟩
        exact ⟨s₂, ⟨s₁, h₁, h₂⟩, h₃⟩
      · rintro ⟨s₂, ⟨s₁, h₁, h₂⟩, h₃⟩
        exact ⟨s₁, h₁, s₂, h₂, h₃⟩

namespace Along

variable {G G' : σ → ℓ → Prop}

theorem nil (s : σ) : Along step G s [] := trivial

theorem cons {s : σ} {l : ℓ} {tr : List ℓ} (hG : G s l)
    (h : ∀ s', step s l = some s' → Along step G s' tr) : Along step G s (l :: tr) := ⟨hG, h⟩

theorem mono (h : ∀ s l, G s l → G' s l) {s : σ} {tr : List ℓ} (hG : Along step G s tr) :
    Along step G' s tr := by
  induction tr generalizing s with
  | nil => trivial
  | cons l tr ih => exact ⟨h s l hG.1, fun s' hs => ih (hG.2 s' hs)⟩

/-- A guard on the labels alone. -/
theorem of_forall {tr : List ℓ} (h : ∀ l ∈ tr, ∀ s, G s l) (s : σ) : Along step G s tr := by
  induction tr generalizing s with
  | nil => trivial
  | cons l tr ih =>
      exact ⟨h l List.mem_cons_self s, fun s' _ =>
        ih (fun l hl => h l (List.mem_cons_of_mem _ hl)) s'⟩

/-- A guard that every enabled step meets. -/
theorem of_exec (h : ∀ s l s', step s l = some s' → G s l) {s s' : σ} {tr : List ℓ}
    (hs : exec step s tr = some s') : Along step G s tr := by
  induction tr generalizing s with
  | nil => trivial
  | cons l tr ih =>
      obtain ⟨s₁, h₁, h₂⟩ := exec_cons_iff.mp hs
      refine ⟨h s l s₁ h₁, fun s₂ h₂' => ?_⟩
      cases h₁.symm.trans h₂'
      exact ih h₂

theorem and {s : σ} {tr : List ℓ} (h : Along step G s tr) (h' : Along step G' s tr) :
    Along step (fun s l => G s l ∧ G' s l) s tr := by
  induction tr generalizing s with
  | nil => trivial
  | cons l tr ih => exact ⟨⟨h.1, h'.1⟩, fun s' hs => ih (h.2 s' hs) (h'.2 s' hs)⟩

theorem left {s : σ} {tr₁ tr₂ : List ℓ} (h : Along step G s (tr₁ ++ tr₂)) : Along step G s tr₁ := by
  induction tr₁ generalizing s with
  | nil => trivial
  | cons l tr ih => exact ⟨h.1, fun s' hs => ih (h.2 s' hs)⟩

theorem right {s s₁ : σ} {tr₁ tr₂ : List ℓ} (h : Along step G s (tr₁ ++ tr₂))
    (hs : exec step s tr₁ = some s₁) : Along step G s₁ tr₂ := by
  induction tr₁ generalizing s with
  | nil =>
      cases hs
      exact h
  | cons l tr ih =>
      obtain ⟨s', hs', hrest⟩ := exec_cons_iff.mp hs
      exact ih (h.2 s' hs') hrest

end Along

/-- A run split at one of its steps. -/
theorem exec_split {s s' s₁ s₂ : σ} {tr₁ tr₂ : List ℓ} {l : ℓ}
    (h : exec step s (tr₁ ++ l :: tr₂) = some s') (hs₁ : exec step s tr₁ = some s₁)
    (hs₂ : step s₁ l = some s₂) : exec step s₂ tr₂ = some s' := by
  obtain ⟨s₁', hs₁', hrest⟩ := exec_append_iff.mp h
  cases hs₁.symm.trans hs₁'
  obtain ⟨s₂', hs₂', hrest⟩ := exec_cons_iff.mp hrest
  cases hs₂.symm.trans hs₂'
  exact hrest

/-- **The invariant rule.** What every guarded step preserves, every guarded run preserves. -/
theorem exec_inv {I : σ → Prop} {G : σ → ℓ → Prop}
    (hstep : ∀ s l s', I s → G s l → step s l = some s' → I s') {s s' : σ} {tr : List ℓ}
    (hI : I s) (hG : Along step G s tr) (h : exec step s tr = some s') : I s' := by
  induction tr generalizing s with
  | nil =>
      cases h
      exact hI
  | cons l tr ih =>
      obtain ⟨s₁, h₁, h₂⟩ := exec_cons_iff.mp h
      exact ih (hstep s l s₁ hI hG.1 h₁) (hG.2 s₁ h₁) h₂

/-- The invariant rule for runs without a guard. -/
theorem exec_inv' {I : σ → Prop} (hstep : ∀ s l s', I s → step s l = some s' → I s')
    {s s' : σ} {tr : List ℓ} (hI : I s) (h : exec step s tr = some s') : I s' :=
  exec_inv (G := fun _ _ => True) (fun s l s' hI _ hs => hstep s l s' hI hs) hI
    (.of_forall (fun _ _ _ => trivial) s) h

/-! ### Progress -/

section Measure

variable {I : σ → Prop} {μ : σ → ℕ} {s s' : σ} {tr : List ℓ}

/-- **The counting rule.** Where no step increases `μ` and the steps in `p` decrease it, a run has
at most `μ s` steps in `p`. -/
theorem countP_add_le {G : σ → ℓ → Prop} {p : ℓ → Bool}
    (hstep : ∀ s l s', I s → G s l → step s l = some s' →
      I s' ∧ (if p l then 1 else 0) + μ s' ≤ μ s) (hI : I s)
    (hG : Along step G s tr) (h : exec step s tr = some s') : tr.countP p + μ s' ≤ μ s := by
  induction tr generalizing s with
  | nil =>
      cases h
      simp
  | cons l tr ih =>
      obtain ⟨s₁, h₁, h₂⟩ := exec_cons_iff.mp h
      obtain ⟨hI₁, hle⟩ := hstep s l s₁ hI hG.1 h₁
      have hrest := ih hI₁ (hG.2 s₁ h₁) h₂
      rw [List.countP_cons]
      omega

/-- **The progress rule.** Where a step in `p` that decreases `μ` is enabled until `Q` holds, a
run of at most `μ s` steps in `p` leads to `Q`. -/
theorem exists_exec_of_measure {Q : σ → Prop} {p : ℓ → Prop}
    (hstep : ∀ s, I s → ¬ Q s → ∃ l s', p l ∧ step s l = some s' ∧ I s' ∧ μ s' < μ s) (hI : I s) :
    ∃ tr s', tr.length ≤ μ s ∧ (∀ l ∈ tr, p l) ∧ exec step s tr = some s' ∧ Q s' := by
  induction hμ : μ s using Nat.strongRecOn generalizing s with
  | ind n ih =>
      by_cases hQ : Q s
      · exact ⟨[], s, Nat.zero_le _, nofun, rfl, hQ⟩
      · obtain ⟨l, s₁, hp, h₁, hI₁, hlt⟩ := hstep s hI hQ
        obtain ⟨tr, s', hlen, htr, h, hQ'⟩ := ih (μ s₁) (by omega) hI₁ rfl
        refine ⟨l :: tr, s', ?_, ?_, exec_cons_iff.mpr ⟨s₁, h₁, h⟩, hQ'⟩
        · rw [List.length_cons]
          omega
        · intro l' hl'
          obtain rfl | hl' := List.mem_cons.mp hl'
          · exact hp
          · exact htr l' hl'

end Measure

end Transition
