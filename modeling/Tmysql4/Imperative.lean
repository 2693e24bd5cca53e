import Mathlib.Data.Nat.Notation
import Mathlib.Order.Basic

/-! # Rules for imperative programs with exceptions

`EStateM ε σ` programs read and write a state `σ` and may end with an exception `ε`, which keeps
the state.  A program `Preserves` a predicate when it holds at the end whenever it held at the
start, whichever way the program ends.  `collect` is the loop that runs a body until it says that
it was the last time; it takes fuel, and the relation `Iterates` describes its runs without it. -/

namespace Imperative

variable {ε σ α β : Type}

/-- The state a program ends in. -/
def final : EStateM.Result ε σ α → σ
  | .ok _ s => s
  | .error _ s => s

@[simp] theorem final_ok (a : α) (s : σ) : final (.ok a s : EStateM.Result ε σ α) = s := rfl

@[simp] theorem final_error (e : ε) (s : σ) : final (.error e s : EStateM.Result ε σ α) = s := rfl

/-! ### Running a sequence -/

theorem run_bind_ok {x : EStateM ε σ α} {f : α → EStateM ε σ β} {s s' : σ} {a : α}
    (h : x.run s = .ok a s') : (x >>= f).run s = (f a).run s' := by
  rw [EStateM.run_bind, h]

theorem run_bind_error {x : EStateM ε σ α} {f : α → EStateM ε σ β} {s s' : σ} {e : ε}
    (h : x.run s = .error e s') : (x >>= f).run s = .error e s' := by
  rw [EStateM.run_bind, h]

theorem run_bind_eq_ok_iff {x : EStateM ε σ α} {f : α → EStateM ε σ β} {s s'' : σ} {b : β} :
    (x >>= f).run s = .ok b s'' ↔ ∃ a s', x.run s = .ok a s' ∧ (f a).run s' = .ok b s'' := by
  rw [EStateM.run_bind]
  cases x.run s with
  | ok a s' =>
      constructor
      · exact fun h => ⟨a, s', rfl, h⟩
      · rintro ⟨_, _, ⟨⟩, h⟩
        exact h
  | error e s' => simp

@[simp] theorem run_throw (e : ε) (s : σ) : (throw e : EStateM ε σ α).run s = .error e s := rfl

theorem run_map_ok {x : EStateM ε σ α} {s s' : σ} {a : α} (f : α → β) (h : x.run s = .ok a s') :
    (f <$> x).run s = .ok (f a) s' := by
  rw [← bind_pure_comp, run_bind_ok h]
  rfl

/-- Catching keeps the state in which the exception was thrown. -/
theorem run_tryCatch (x : EStateM ε σ α) (h : ε → EStateM ε σ α) (s : σ) :
    (tryCatch x h).run s = match x.run s with
      | .ok a s' => .ok a s'
      | .error e s' => (h e).run s' := by
  change EStateM.tryCatch x h s = _
  rw [EStateM.tryCatch, EStateM.run]
  cases x s with
  | ok a s' => rfl
  | error e s' => rfl

/-! ### Preserved predicates -/

def Preserves (I : σ → Prop) (x : EStateM ε σ α) : Prop := ∀ s, I s → I (final (x.run s))

namespace Preserves

variable {I : σ → Prop}

theorem ok {x : EStateM ε σ α} (h : Preserves I x) {s s' : σ} {a : α} (hx : x.run s = .ok a s')
    (hs : I s) : I s' := by
  have := h s hs
  rwa [hx] at this

theorem error {x : EStateM ε σ α} (h : Preserves I x) {s s' : σ} {e : ε}
    (hx : x.run s = .error e s') (hs : I s) : I s' := by
  have := h s hs
  rwa [hx] at this

theorem pure (a : α) : Preserves I (pure a : EStateM ε σ α) := fun _ hs => hs

theorem throw (e : ε) : Preserves I (throw e : EStateM ε σ α) := fun _ hs => hs

theorem get : Preserves I (get : EStateM ε σ σ) := fun _ hs => hs

theorem modify {f : σ → σ} (h : ∀ s, I s → I (f s)) :
    Preserves I (modify f : EStateM ε σ PUnit) := h

theorem modifyGet {f : σ → α × σ} (h : ∀ s, I s → I (f s).2) :
    Preserves I (modifyGet f : EStateM ε σ α) := h

/-- What holds at the end of a program still holds after a second one. -/
theorem final_bind {x : EStateM ε σ α} {f : α → EStateM ε σ β} (hf : ∀ a, Preserves I (f a)) {s : σ}
    (hx : I (final (x.run s))) : I (final ((x >>= f).run s)) := by
  rw [EStateM.run_bind]
  cases hr : x.run s with
  | ok a s' =>
      rw [hr] at hx
      exact hf a s' hx
  | error e s' =>
      rw [hr] at hx
      exact hx

theorem bind {x : EStateM ε σ α} {f : α → EStateM ε σ β} (hx : Preserves I x)
    (hf : ∀ a, Preserves I (f a)) : Preserves I (x >>= f) := fun s hs => final_bind hf (hx s hs)

theorem map {x : EStateM ε σ α} (f : α → β) (hx : Preserves I x) : Preserves I (f <$> x) := by
  rw [← bind_pure_comp]
  exact hx.bind fun _ => Preserves.pure _

theorem ite {c : Prop} [Decidable c] {x y : EStateM ε σ α} (hx : Preserves I x)
    (hy : Preserves I y) : Preserves I (if c then x else y) := by
  split
  · exact hx
  · exact hy

theorem final_tryCatch {x : EStateM ε σ α} {h : ε → EStateM ε σ α}
    (hh : ∀ e, Preserves I (h e)) {s : σ} (hx : I (final (x.run s))) :
    I (final ((tryCatch x h).run s)) := by
  rw [run_tryCatch]
  cases hr : x.run s with
  | ok a s' =>
      rw [hr] at hx
      exact hx
  | error e s' =>
      rw [hr] at hx
      exact hh e s' hx

end Preserves

/-! ### The collecting loop -/

/-- Runs `body` until it returns `false`, and collects what it returns. -/
def collect (outOfFuel : ε) (body : EStateM ε σ (α × Bool)) : ℕ → EStateM ε σ (List α)
  | 0 => throw outOfFuel
  | fuel + 1 => do
    let (a, again) ← body
    if again then do
      let as ← collect outOfFuel body fuel
      pure (a :: as)
    else pure [a]

/-- The runs of `collect`. -/
inductive Iterates (body : EStateM ε σ (α × Bool)) : σ → List α → σ → Prop where
  | last {s a s'} (h : body.run s = .ok (a, false) s') : Iterates body s [a] s'
  | again {s a s' as s''} (h : body.run s = .ok (a, true) s') (hs : Iterates body s' as s'') :
      Iterates body s (a :: as) s''

theorem Iterates.ne_nil {body : EStateM ε σ (α × Bool)} {s s' : σ} {as : List α}
    (h : Iterates body s as s') : as ≠ [] := by
  cases h with
  | last _ => exact List.cons_ne_nil _ _
  | again _ _ => exact List.cons_ne_nil _ _

/-- What the turns keep from each number to the next holds
at every turn, and so does what a turn returns. -/
theorem Iterates.forall_getElem {body : EStateM ε σ (α × Bool)} {I : ℕ → σ → Prop}
    {P : ℕ → α → Prop} (hbody : ∀ i s a again s', I i s → body.run s = .ok (a, again) s' →
      P i a ∧ I (i + 1) s') {s s' : σ} {as : List α} {n : ℕ}
    (h : Iterates body s as s') (hs : I n s) : ∀ i (hi : i < as.length), P (n + i) as[i] := by
  induction h generalizing n with
  | last hrun =>
      intro i hi
      rw [List.length_singleton, Nat.lt_one_iff] at hi
      subst hi
      exact (hbody _ _ _ _ _ hs hrun).1
  | again hrun _ ih =>
      obtain ⟨hP, hI⟩ := hbody _ _ _ _ _ hs hrun
      intro i hi
      cases i with
      | zero => exact hP
      | succ i =>
          have hrest := ih hI i (Nat.lt_of_succ_lt_succ hi)
          rw [Nat.add_right_comm] at hrest
          exact hrest

theorem iterates_of_collect {outOfFuel : ε} {body : EStateM ε σ (α × Bool)} {fuel : ℕ} {s s' : σ}
    {as : List α} (h : (collect outOfFuel body fuel).run s = .ok as s') :
    Iterates body s as s' := by
  induction fuel generalizing s as with
  | zero => cases h
  | succ fuel ih =>
      rw [collect, run_bind_eq_ok_iff] at h
      obtain ⟨⟨a, again⟩, s₁, hbody, hrest⟩ := h
      cases again with
      | false =>
          cases hrest
          exact .last hbody
      | true =>
          obtain ⟨rest, s₂, hcollect, hpure⟩ := run_bind_eq_ok_iff.mp hrest
          cases hpure
          exact .again hbody (ih hcollect)

/-- Enough fuel for a run of the loop. -/
theorem Iterates.collect {outOfFuel : ε} {body : EStateM ε σ (α × Bool)} {s s' : σ} {as : List α}
    (h : Iterates body s as s') {fuel : ℕ} (hfuel : as.length ≤ fuel) :
    (collect outOfFuel body fuel).run s = .ok as s' := by
  induction h generalizing fuel with
  | last hbody =>
      obtain ⟨fuel, rfl⟩ : ∃ n, fuel = n + 1 := ⟨fuel - 1, by simp at hfuel; omega⟩
      rw [Imperative.collect, run_bind_ok hbody]
      rfl
  | again hbody _ ih =>
      obtain ⟨fuel, rfl⟩ : ∃ n, fuel = n + 1 := ⟨fuel - 1, by simp at hfuel; omega⟩
      rw [Imperative.collect, run_bind_ok hbody]
      exact run_bind_ok (ih (Nat.le_of_succ_le_succ hfuel))

/-- A loop fails for want of fuel or with its body. -/
theorem collect_error {outOfFuel : ε} {body : EStateM ε σ (α × Bool)} {fuel : ℕ} {s s' : σ} {e : ε}
    (h : (Imperative.collect outOfFuel body fuel).run s = .error e s') :
    e = outOfFuel ∨ ∃ s₁ s₂, body.run s₁ = .error e s₂ := by
  induction fuel generalizing s with
  | zero =>
      cases h
      exact Or.inl rfl
  | succ fuel ih =>
      rw [Imperative.collect] at h
      cases hbody : body.run s with
      | error e' s₁ =>
          rw [run_bind_error hbody] at h
          cases h
          exact Or.inr ⟨s, s', hbody⟩
      | ok p s₁ =>
          obtain ⟨a, again⟩ := p
          rw [run_bind_ok hbody] at h
          cases again with
          | false => cases h
          | true =>
              simp only [if_true] at h
              cases hrest : (Imperative.collect outOfFuel body fuel).run s₁ with
              | ok as s₂ =>
                  rw [run_bind_ok hrest] at h
                  cases h
              | error e' s₂ =>
                  rw [run_bind_error hrest] at h
                  cases h
                  exact ih hrest

/-- A loop ends when its body does something for certain in turn `i`, given by `I i`: it fails
unless `F i`, and `L i` says that it is the last one. -/
theorem exists_iterates_iff {body : EStateM ε σ (α × Bool)} {I : ℕ → σ → Prop} {F L : ℕ → Prop}
    [DecidablePred L]
    (hok : ∀ i s, I i s → F i → ∃ a s', body.run s = .ok (a, !decide (L i)) s' ∧ I (i + 1) s')
    (hbad : ∀ i s, I i s → ¬ F i → ∃ e s', body.run s = .error e s') {s : σ} (hs : I 0 s) :
    (∃ as s', Iterates body s as s') ↔ ∃ n, L n ∧ ∀ i ≤ n, F i := by
  have hfits : ∀ i s a s', I i s → body.run s = .ok a s' → F i := by
    intro i s a s' hi hrun
    by_contra hn
    obtain ⟨e, s'', herror⟩ := hbad i s hi hn
    rw [hrun] at herror
    cases herror
  constructor
  · rintro ⟨as, s', hit⟩
    suffices h : ∀ i, I i s → ∃ n, i ≤ n ∧ L n ∧ ∀ j, i ≤ j → j ≤ n → F j by
      obtain ⟨n, -, hlast, hall⟩ := h 0 hs
      exact ⟨n, hlast, fun i hi => hall i (Nat.zero_le i) hi⟩
    clear hs
    induction hit with
    | last hbody =>
        intro i hi
        have hf := hfits i _ _ _ hi hbody
        obtain ⟨a, s'', hrun, -⟩ := hok i _ hi hf
        rw [hbody] at hrun
        have hlast : L i := by
          by_contra hn
          simp [hn] at hrun
        refine ⟨i, Nat.le_refl i, hlast, fun j hij hji => ?_⟩
        rwa [Nat.le_antisymm hji hij]
    | again hbody hrest ih =>
        intro i hi
        have hf := hfits i _ _ _ hi hbody
        obtain ⟨a, s'', hrun, hi'⟩ := hok i _ hi hf
        rw [hbody] at hrun
        injection hrun with hvalue hstate
        rw [← hstate] at hi'
        obtain ⟨n, hn, hlast, hall⟩ := ih (i + 1) hi'
        refine ⟨n, by omega, hlast, fun j hij hjn => ?_⟩
        obtain rfl | hlt := Nat.eq_or_lt_of_le hij
        · exact hf
        · exact hall j hlt hjn
  · rintro ⟨n, hlast, hall⟩
    suffices h : ∀ k i s, i + k = n → I i s → ∃ as s', Iterates body s as s' from
      h n 0 s (Nat.zero_add n) hs
    intro k
    induction k with
    | zero =>
        rintro i s rfl hi
        obtain ⟨a, s', hrun, -⟩ := hok i s hi (hall i (by omega))
        rw [Nat.add_zero] at hlast
        rw [decide_eq_true hlast] at hrun
        exact ⟨[a], s', .last hrun⟩
    | succ k ih =>
        rintro i s hik hi
        obtain ⟨a, s', hrun, hi'⟩ := hok i s hi (hall i (by omega))
        by_cases hl : L i
        · rw [decide_eq_true hl] at hrun
          exact ⟨[a], s', .last hrun⟩
        · rw [decide_eq_false hl] at hrun
          obtain ⟨as, s'', hrest⟩ := ih (i + 1) s' (by omega) hi'
          exact ⟨a :: as, s'', .again hrun hrest⟩

/-- How a loop goes whose body does something for certain in turn `i`, given by `I i`: it ends
with the first turn that is the last one, or with the first that fails, or goes on for as long as
there is fuel.  `P i` holds of what turn `i` returns. -/
theorem collect_cases {outOfFuel : ε} {body : EStateM ε σ (α × Bool)} {I : ℕ → σ → Prop}
    {F L : ℕ → Prop} {P : ℕ → α → Prop} [DecidablePred L]
    (hok : ∀ i s, I i s → F i → ∃ a s', body.run s = .ok (a, !decide (L i)) s' ∧
      I (i + 1) s' ∧ P i a)
    (hbad : ∀ i s, I i s → ¬ F i → ∃ e s', e ≠ outOfFuel ∧ body.run s = .error e s')
    (fuel : ℕ) {i : ℕ} {s : σ} (hs : I i s) :
    (∃ k < fuel, (∀ j < k, F (i + j) ∧ ¬ L (i + j)) ∧ F (i + k) ∧ L (i + k) ∧ ∃ as s',
      (Imperative.collect outOfFuel body fuel).run s = .ok as s' ∧ as.length = k + 1 ∧
        ∀ m a, as[m]? = some a → P (i + m) a) ∨
    (∃ k < fuel, ¬ F (i + k) ∧ ∃ e s', e ≠ outOfFuel ∧
      (Imperative.collect outOfFuel body fuel).run s = .error e s') ∨
    ((∀ j < fuel, F (i + j) ∧ ¬ L (i + j)) ∧
      ∃ s', (Imperative.collect outOfFuel body fuel).run s = .error outOfFuel s') := by
  induction fuel generalizing i s with
  | zero => exact Or.inr (Or.inr ⟨fun j hj => absurd hj (Nat.not_lt_zero j), s, rfl⟩)
  | succ fuel ih =>
      rw [Imperative.collect]
      by_cases hf : F i
      · obtain ⟨a, s', hrun, hs', hp⟩ := hok i s hs hf
        rw [run_bind_ok hrun]
        by_cases hl : L i
        · rw [decide_eq_true hl]
          refine Or.inl ⟨0, Nat.succ_pos fuel, fun j hj => absurd hj (Nat.not_lt_zero j), hf, hl,
            [a], s', rfl, rfl, ?_⟩
          intro m b hm
          cases m with
          | zero =>
              cases hm
              exact hp
          | succ m => cases hm
        · rw [decide_eq_false hl]
          have hshift : ∀ j, i + (j + 1) = i + 1 + j := fun j => by omega
          -- what holds of turn `i` and of the turns after it holds of all
          have hall : ∀ {k : ℕ}, (∀ j < k, F (i + 1 + j) ∧ ¬ L (i + 1 + j)) →
              ∀ j < k + 1, F (i + j) ∧ ¬ L (i + j) := by
            intro k h j hj
            cases j with
            | zero => exact ⟨hf, hl⟩
            | succ j =>
                rw [hshift]
                exact h j (Nat.lt_of_succ_lt_succ hj)
          obtain ⟨k, hk, hbefore, hfits, hlast, as, s'', hcollect, hlen, hps⟩ |
              ⟨k, hk, hfail, e, s'', he, hcollect⟩ | ⟨hgo, s'', hcollect⟩ := ih hs'
          · refine Or.inl ⟨k + 1, Nat.succ_lt_succ hk,
              hall hbefore, by rwa [hshift], by rwa [hshift], a :: as, s'', ?_, ?_, ?_⟩
            · exact run_bind_ok hcollect
            · rw [List.length_cons, hlen]
            · intro m b hm
              cases m with
              | zero =>
                  cases hm
                  exact hp
              | succ m =>
                  rw [hshift]
                  exact hps m b hm
          · exact Or.inr (Or.inl ⟨k + 1, Nat.succ_lt_succ hk, by rwa [hshift], e, s'', he,
              run_bind_error hcollect⟩)
          · exact Or.inr (Or.inr ⟨hall hgo, s'', run_bind_error hcollect⟩)
      · obtain ⟨e, s', he, hrun⟩ := hbad i s hs hf
        exact Or.inr (Or.inl ⟨0, Nat.succ_pos fuel, hf, e, s', he, run_bind_error hrun⟩)

theorem Preserves.collect {I : σ → Prop} {outOfFuel : ε} {body : EStateM ε σ (α × Bool)}
    (h : Preserves I body) (fuel : ℕ) : Preserves I (collect outOfFuel body fuel) := by
  induction fuel with
  | zero => exact Preserves.throw _
  | succ fuel ih =>
      exact h.bind fun _ => Preserves.ite (ih.bind fun _ => Preserves.pure _) (Preserves.pure _)

end Imperative
