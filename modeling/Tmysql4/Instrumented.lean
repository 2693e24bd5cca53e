import Tmysql4.Imperative

/-! # Instrumented programs

A program whose state has a second part, in which it counts or measures what it does, is an
instrumented version of a program on the first part: it does the same there and ends in the same
way, whatever it keeps in the second. -/

namespace Imperative

variable {ε σ τ α β : Type}

/-- A result, with the second part of the state. -/
def pairWith (t : τ) : EStateM.Result ε σ α → EStateM.Result ε (σ × τ) α
  | .ok a s => .ok a (s, t)
  | .error e s => .error e (s, t)

/-- `x` on the first part of the state. -/
def onFirst (x : EStateM ε σ α) : EStateM ε (σ × τ) α := fun s => pairWith s.2 (x.run s.1)

theorem onFirst_run (x : EStateM ε σ α) (s : σ) (t : τ) :
    (onFirst x).run (s, t) = pairWith t (x.run s) := rfl

theorem onFirst_ok {x : EStateM ε σ α} {s s' : σ} {a : α} (h : x.run s = .ok a s') (t : τ) :
    (onFirst x).run (s, t) = .ok a (s', t) := by
  rw [onFirst_run, h]
  rfl

theorem onFirst_error {x : EStateM ε σ α} {s s' : σ} {e : ε} (h : x.run s = .error e s') (t : τ) :
    (onFirst x).run (s, t) = .error e (s', t) := by
  rw [onFirst_run, h]
  rfl

theorem onFirst_eq_ok {x : EStateM ε σ α} {s : σ} {t : τ} {a : α} {p : σ × τ}
    (h : (onFirst x).run (s, t) = .ok a p) : ∃ s', x.run s = .ok a s' ∧ p = (s', t) := by
  rw [onFirst_run] at h
  cases hx : x.run s with
  | ok b s' =>
      rw [hx] at h
      cases h
      exact ⟨s', rfl, rfl⟩
  | error e s' =>
      rw [hx] at h
      cases h

/-- A change of the second part. -/
def onSecond (f : τ → τ) : EStateM ε (σ × τ) Unit := modify fun s => (s.1, f s.2)

theorem onSecond_run (f : τ → τ) (s : σ) (t : τ) :
    (onSecond f : EStateM ε (σ × τ) Unit).run (s, t) = .ok () (s, f t) := rfl

/-- `y` is `x`, instrumented. -/
def Instruments (y : EStateM ε (σ × τ) α) (x : EStateM ε σ α) : Prop :=
  ∀ s t, ∃ t', y.run (s, t) = pairWith t' (x.run s)

namespace Instruments

variable {y : EStateM ε (σ × τ) α} {x : EStateM ε σ α}

theorem first (x : EStateM ε σ α) : Instruments (onFirst x : EStateM ε (σ × τ) α) x :=
  fun _ t => ⟨t, rfl⟩

theorem after_second (f : τ → τ) (h : Instruments y x) :
    Instruments (onSecond f >>= fun _ => y) x := by
  intro s t
  obtain ⟨t', ht'⟩ := h s (f t)
  exact ⟨t', by rw [run_bind_ok (onSecond_run f s t), ht']⟩

theorem bind {g : α → EStateM ε (σ × τ) β} {f : α → EStateM ε σ β} (h : Instruments y x)
    (hf : ∀ a, Instruments (g a) (f a)) : Instruments (y >>= g) (x >>= f) := by
  intro s t
  obtain ⟨t', ht'⟩ := h s t
  cases hx : x.run s with
  | ok a s' =>
      rw [hx] at ht'
      obtain ⟨t'', ht''⟩ := hf a s' t'
      exact ⟨t'', by rw [run_bind_ok hx, run_bind_ok ht', ht'']⟩
  | error e s' =>
      rw [hx] at ht'
      exact ⟨t', by rw [run_bind_error hx, run_bind_error ht']; rfl⟩

theorem tryCatch {g : ε → EStateM ε (σ × τ) α} {f : ε → EStateM ε σ α} (h : Instruments y x)
    (hf : ∀ e, Instruments (g e) (f e)) : Instruments (tryCatch y g) (tryCatch x f) := by
  intro s t
  obtain ⟨t', ht'⟩ := h s t
  rw [run_tryCatch, run_tryCatch, ht']
  cases x.run s with
  | ok a s' => exact ⟨t', rfl⟩
  | error e s' => exact hf e s' t'

end Instruments

end Imperative
