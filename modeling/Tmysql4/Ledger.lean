import Mathlib.Data.Int.Notation
import Mathlib.Data.List.Nodup
import Mathlib.Logic.Function.Basic

/-! # Ledgers of references

Native code keeps references to the values of a host in variables.  A variable holds a reference
or a number that is none; the host gives out a number for a value (`create`), uses it (`push`) and
takes it back (`free`).

* **Numbers.** The `k`-th reference is `k`.  A host may give out a
  number again once it is freed; the variables only hand the numbers
  back, so that a use after the free is the same mistake either way.
* **Strays.** `stray` records the uses and frees of numbers that were not created or had been freed.

`Agrees` compares a ledger with an `Account` of every variable: no reference yet, one that it
holds, or all of them freed.  Each operation on an account that allows it keeps the comparison. -/

namespace RefLedger

inductive Account where
  | none
  | held
  | closed
deriving DecidableEq, Repr

/-- `created` lists the variables that the references `1`, `2`, … were created for. -/
structure Ledger (V : Type*) where
  value : V → ℤ
  created : List V
  freed : List ℤ
  stray : List ℤ

variable {V : Type*}

namespace Ledger

variable (L : Ledger V)

def empty (unset : V → ℤ) : Ledger V := ⟨unset, [], [], []⟩

/-- The variable that the reference was created for. -/
def owner (r : ℤ) : Option V := if 0 < r then L.created[r.toNat - 1]? else Option.none

def InUse (r : ℤ) : Prop := (L.owner r).isSome = true ∧ r ∉ L.freed

instance (r : ℤ) : Decidable (L.InUse r) := inferInstanceAs (Decidable (_ ∧ _))

def push (r : ℤ) : Ledger V := if L.InUse r then L else { L with stray := L.stray ++ [r] }

def free (r : ℤ) : Ledger V := { L.push r with freed := L.freed ++ [r] }

variable [DecidableEq V]

def assign (v : V) (x : ℤ) : Ledger V := { L with value := Function.update L.value v x }

/-- A new reference for `v`, which holds it from then on. -/
def create (v : V) : Ledger V :=
  { L.assign v (L.created.length + 1) with created := L.created ++ [v] }

/-- A variable with no reference has its initial value; one that holds a reference has no other. -/
def Holds (unset : V → ℤ) (v : V) : Account → Prop
  | .none => L.value v = unset v ∧ ∀ r, L.owner r ≠ some v
  | .held =>
      L.owner (L.value v) = some v ∧ L.value v ∉ L.freed ∧ ∀ r, L.owner r = some v → r = L.value v
  | .closed => ∀ r, L.owner r = some v → r ∈ L.freed

end Ledger

/-- The ledger is what the accounts say, and nothing went astray. -/
structure Agrees (unset : V → ℤ) (account : V → Account) (L : Ledger V) : Prop where
  stray : L.stray = []
  once : L.freed.Nodup
  known : ∀ r ∈ L.freed, (L.owner r).isSome = true
  holds : ∀ v, L.Holds unset v (account v)

/-! ### The operations -/

namespace Ledger

variable {L : Ledger V}

theorem owner_pos {r : ℤ} (h : (L.owner r).isSome = true) : 0 < r ∧ r ≤ L.created.length := by
  unfold owner at h
  split at h
  · have hlt := (List.getElem?_eq_some_iff.mp (Option.some_get h).symm).1
    omega
  · cases h

theorem push_of_inUse {r : ℤ} (h : L.InUse r) : L.push r = L := if_pos h

theorem free_of_inUse {r : ℤ} (h : L.InUse r) : L.free r = { L with freed := L.freed ++ [r] } := by
  rw [free, push_of_inUse h]

/-- A variable keeps its account when its value, its references and their frees are the same. -/
theorem Holds.congr {unset : V → ℤ} {L' : Ledger V} {v : V} {a : Account} (h : L.Holds unset v a)
    (hvalue : L'.value v = L.value v) (howner : ∀ r, L'.owner r = some v ↔ L.owner r = some v)
    (hfreed : ∀ r, L.owner r = some v → (r ∈ L'.freed ↔ r ∈ L.freed)) : L'.Holds unset v a := by
  cases a with
  | none => exact ⟨hvalue.trans h.1, fun r hr => h.2 r ((howner r).mp hr)⟩
  | held =>
      obtain ⟨hown, hopen, honly⟩ := h
      refine ⟨?_, ?_, fun r hr => ?_⟩
      · rw [hvalue]
        exact (howner _).mpr hown
      · rw [hvalue]
        exact fun hmem => hopen ((hfreed _ hown).mp hmem)
      · rw [hvalue]
        exact honly r ((howner r).mp hr)
  | closed => exact fun r hr => (hfreed r ((howner r).mp hr)).mpr (h r ((howner r).mp hr))

variable [DecidableEq V]

theorem owner_create (v : V) (r : ℤ) :
    (L.create v).owner r = if r = L.created.length + 1 then some v else L.owner r := by
  unfold owner create
  by_cases hr : 0 < r
  · rw [if_pos hr, if_pos hr]
    by_cases heq : r = L.created.length + 1
    · have hidx : r.toNat - 1 = L.created.length := by omega
      rw [if_pos heq, hidx, List.getElem?_concat_length]
    · rw [if_neg heq]
      obtain hlt | hge := Nat.lt_or_ge (r.toNat - 1) L.created.length
      · rw [List.getElem?_append_left hlt]
      · rw [List.getElem?_eq_none (by rw [List.length_append, List.length_singleton]; omega),
          List.getElem?_eq_none hge]
  · rw [if_neg hr, if_neg hr, if_neg (by omega)]

end Ledger

/-! ### What keeps the comparison -/

namespace Agrees

variable {unset : V → ℤ} {account : V → Account} {L : Ledger V} {v : V}

theorem empty : Agrees unset (fun _ => .none) (.empty unset) where
  stray := rfl
  once := List.nodup_nil
  known := nofun
  holds v := by
    refine ⟨rfl, fun r hr => ?_⟩
    unfold Ledger.owner at hr
    split at hr
    · cases hr
    · cases hr

/-- The reference that a variable holds is in use. -/
theorem inUse (h : Agrees unset account L) (hv : account v = .held) : L.InUse (L.value v) := by
  have hholds := h.holds v
  rw [hv] at hholds
  exact ⟨by rw [hholds.1]; rfl, hholds.2.1⟩

theorem push (h : Agrees unset account L) (hv : account v = .held) : L.push (L.value v) = L :=
  Ledger.push_of_inUse (h.inUse hv)

theorem value_pos (h : Agrees unset account L) (hv : account v = .held) : 0 < L.value v :=
  (Ledger.owner_pos (h.inUse hv).1).1

theorem value_unset (h : Agrees unset account L) (hv : account v = .none) :
    L.value v = unset v := by
  have hholds := h.holds v
  rw [hv] at hholds
  exact hholds.1

/-- All references of a variable that holds none have been freed once. -/
theorem count_freed (h : Agrees unset account L) (hv : account v ≠ .held) {r : ℤ}
    (hr : L.owner r = some v) : L.freed.count r = 1 := by
  have hholds := h.holds v
  cases ha : account v with
  | none =>
      rw [ha] at hholds
      exact absurd hr (hholds.2 r)
  | held => exact absurd ha hv
  | closed =>
      rw [ha] at hholds
      exact List.count_eq_one_of_mem h.once (hholds r hr)

variable [DecidableEq V]

theorem create (h : Agrees unset account L) (hv : account v = .none) :
    Agrees unset (Function.update account v .held) (L.create v) := by
  have hnew : ((L.created.length : ℤ) + 1) ∉ L.freed := fun hmem => by
    have := (Ledger.owner_pos (h.known _ hmem)).2
    omega
  have hunowned := h.holds v
  rw [hv] at hunowned
  refine ⟨h.stray, h.once, fun r hr => ?_, fun v' => ?_⟩
  · rw [Ledger.owner_create]
    split
    · rfl
    · exact h.known r hr
  · by_cases hne : v' = v
    · subst hne
      have hvalue : (L.create v').value v' = L.created.length + 1 := Function.update_self _ _ _
      rw [Function.update_self]
      refine ⟨?_, ?_, fun r hr => ?_⟩
      · rw [hvalue, Ledger.owner_create, if_pos rfl]
      · rw [hvalue]
        exact hnew
      · rw [Ledger.owner_create] at hr
        split at hr
        · rename_i heq
          rw [heq, hvalue]
        · exact absurd hr (hunowned.2 r)
    · have hvalue : (L.create v).value v' = L.value v' := Function.update_of_ne hne _ _
      have howner : ∀ r, (L.create v).owner r = some v' ↔ L.owner r = some v' := by
        intro r
        rw [Ledger.owner_create]
        split
        · rename_i heq
          have hnone : L.owner r ≠ some v' := fun hr => by
            have := (Ledger.owner_pos (L := L) (r := r) (by rw [hr]; rfl)).2
            omega
          exact ⟨fun hr => absurd (Option.some.inj hr).symm hne, fun hr => absurd hr hnone⟩
        · exact Iff.rfl
      rw [Function.update_of_ne hne]
      exact (h.holds v').congr hvalue howner fun _ _ => Iff.rfl

theorem free (h : Agrees unset account L) (hv : account v = .held) :
    Agrees unset (Function.update account v .closed) (L.free (L.value v)) := by
  have huse := h.inUse hv
  rw [Ledger.free_of_inUse huse]
  have hv' := h.holds v
  rw [hv] at hv'
  refine ⟨h.stray, ?_, fun r hr => ?_, fun v' => ?_⟩
  · rw [List.nodup_append]
    refine ⟨h.once, List.nodup_singleton _, fun r hr r' hr' heq => ?_⟩
    rw [heq, List.mem_singleton.mp hr'] at hr
    exact huse.2 hr
  · obtain hr | hr := List.mem_append.mp hr
    · exact h.known r hr
    · rw [List.mem_singleton.mp hr]
      exact huse.1
  · by_cases hne : v' = v
    · subst hne
      rw [Function.update_self]
      intro r hr
      exact List.mem_append_right _ (List.mem_singleton.mpr (hv'.2.2 r hr))
    · rw [Function.update_of_ne hne]
      refine (h.holds v').congr rfl (fun _ => Iff.rfl) fun r hr => ?_
      have hother : r ≠ L.value v := fun heq => by
        rw [heq, hv'.1] at hr
        exact hne (Option.some.inj hr).symm
      simp [hother]

/-- A variable without a reference may get any value after the free, and its initial one before. -/
theorem assign (h : Agrees unset account L) {x : ℤ}
    (hv : account v = .closed ∨ account v = .none ∧ x = unset v) :
    Agrees unset account (L.assign v x) := by
  refine ⟨h.stray, h.once, h.known, fun v' => ?_⟩
  have hholds := h.holds v'
  by_cases hne : v' = v
  · subst hne
    have hvalue : (L.assign v' x).value v' = x := Function.update_self _ _ _
    obtain hclosed | ⟨hnone, rfl⟩ := hv
    · rw [hclosed] at hholds ⊢
      exact hholds
    · rw [hnone] at hholds ⊢
      exact ⟨hvalue, hholds.2⟩
  · exact hholds.congr (Function.update_of_ne hne _ _) (fun _ => Iff.rfl) fun _ _ => Iff.rfl

end Agrees
end RefLedger
