import Mathlib.Data.List.Nodup
import Mathlib.Logic.Function.Basic

/-! # Handles of native objects in a scripting host

A native object is handed to scripts as a *box*, a garbage-collected cell with
a type tag and a data pointer.  The object keeps a reference to its box in the
host's registry, so that the box is created once (`pushHandle`) and can be
emptied when the object goes away (`nullify`).  References are recycled.

`Agrees` compares a table with what is known of each object, its `Status`.  The two operations
keep it, and from it one reads off that an object has at most one box, that a box holds its own
object or nothing, and that the references of two objects do not meet. -/

namespace HandleTable

/-- What a script has seen of an object: nothing, its box, or its box after it was emptied. -/
inductive Status where
  | unseen
  | held
  | cleared
deriving DecidableEq, Repr

/-- The status of an object after its box has been pushed. -/
def Status.pushed : Status → Status
  | .unseen => .held
  | status => status

/-- A box; `origin` is ghost, the object it was created for. -/
structure Box (O T : Type*) where
  tag : T
  origin : O
  data : Option O
deriving DecidableEq

/-- Boxes in the order of their creation, the registry from references
to boxes, the references that were given back and the largest one so
far; `ref` is the reference an object keeps, `0` at first. -/
structure Table (O T : Type*) where
  boxes : List (Box O T)
  registry : ℕ → Option ℕ
  free : List ℕ
  size : ℕ
  ref : O → ℕ

def Table.empty (O T : Type*) : Table O T := ⟨[], fun _ => none, [], 0, fun _ => 0⟩

variable {O T : Type*} (kind : O → T) (t : Table O T) (o : O)

namespace Table

/-- The next reference to be given out: the last one given back, or a new one. -/
def nextRef : ℕ := t.free.head?.getD (t.size + 1)

/-- A new box for `o`. -/
def pushUserType : Table O T := { t with boxes := t.boxes ++ [⟨kind o, o, some o⟩] }

/-- Empties the box that the reference `r` leads to. -/
def clear (r : ℕ) : Table O T :=
  match t.registry r with
  | none => t
  | some u => { t with boxes := t.boxes.modify u fun b => { b with data := none } }

def referenceFree (r : ℕ) : Table O T :=
  { t with registry := Function.update t.registry r none, free := r :: t.free }

variable [DecidableEq O]

/-- A reference to the box `u`, which `o` keeps. -/
def referenceCreate (u : ℕ) : Table O T :=
  { t with
    registry := Function.update t.registry t.nextRef (some u)
    free := t.free.tail
    size := max t.size t.nextRef
    ref := Function.update t.ref o t.nextRef }

/-- The box of `o`, created when `o` has none. -/
def pushHandle : Table O T :=
  if t.ref o = 0 then (t.pushUserType kind o).referenceCreate o t.boxes.length else t

/-- Empties the box of `o` and gives the reference back. -/
def nullify : Table O T :=
  ((t.pushHandle kind o).clear ((t.pushHandle kind o).ref o)).referenceFree
    ((t.pushHandle kind o).ref o)

end Table

/-- The table is what the statuses say. -/
structure Agrees (status : O → Status) (t : Table O T) : Prop where
  unseen : ∀ o, status o = .unseen → t.ref o = 0 ∧ ∀ b ∈ t.boxes, b.origin ≠ o
  held : ∀ o, status o = .held → ∃ u, t.registry (t.ref o) = some u ∧
    t.boxes[u]? = some ⟨kind o, o, some o⟩
  cleared : ∀ o, status o = .cleared → t.ref o ≠ 0 ∧ ∀ b ∈ t.boxes, b.origin = o → b.data = none
  once : (t.boxes.map (·.origin)).Nodup
  own : ∀ b ∈ t.boxes, b.tag = kind b.origin ∧ (b.data = none ∨ b.data = some b.origin)
  registered : ∀ r u, t.registry r = some u →
    r ≠ 0 ∧ r ≤ t.size ∧ ∃ b, t.boxes[u]? = some b ∧ status b.origin = .held ∧ t.ref b.origin = r
  free_known : ∀ r ∈ t.free, r ≠ 0 ∧ r ≤ t.size ∧ t.registry r = none
  free_nodup : t.free.Nodup

namespace Agrees

variable {kind t o} {status : O → Status}

theorem empty : Agrees kind (fun _ => .unseen) (Table.empty O T) where
  unseen _ _ := ⟨rfl, nofun⟩
  held := nofun
  cleared := nofun
  once := List.nodup_nil
  own := nofun
  registered := nofun
  free_known := nofun
  free_nodup := List.nodup_nil

theorem ref_ne_zero (h : Agrees kind status t) (ho : status o ≠ .unseen) : t.ref o ≠ 0 := by
  cases hs : status o with
  | unseen => exact absurd hs ho
  | held =>
      obtain ⟨u, hu, -⟩ := h.held o hs
      exact (h.registered _ u hu).1
  | cleared => exact (h.cleared o hs).1

/-- The next reference is not in use. -/
theorem nextRef_fresh (h : Agrees kind status t) : t.nextRef ≠ 0 ∧ t.registry t.nextRef = none := by
  unfold Table.nextRef
  cases hf : t.free with
  | nil =>
      refine ⟨Nat.succ_ne_zero _, ?_⟩
      by_contra hr
      obtain ⟨u, hu⟩ := Option.ne_none_iff_exists'.mp hr
      exact absurd (h.registered _ u hu).2.1 (by simp)
  | cons r free =>
      obtain ⟨h₁, -, h₂⟩ := h.free_known r (by simp [hf])
      exact ⟨h₁, h₂⟩

variable [DecidableEq O]

/-- The table once `o` has its box. -/
theorem pushHandle_eq (href : t.ref o = 0) :
    t.pushHandle kind o =
      { boxes := t.boxes ++ [⟨kind o, o, some o⟩]
        registry := Function.update t.registry t.nextRef (some t.boxes.length)
        free := t.free.tail
        size := max t.size t.nextRef
        ref := Function.update t.ref o t.nextRef } := if_pos href

theorem pushHandle_new (h : Agrees kind status t) (ho : status o = .unseen) :
    Agrees kind (Function.update status o .held) (t.pushHandle kind o) := by
  obtain ⟨href, hbox⟩ := h.unseen o ho
  obtain ⟨hpos, hfresh⟩ := h.nextRef_fresh
  have hkept : ∀ {u : ℕ} {b}, t.boxes[u]? = some b →
      (t.boxes ++ [⟨kind o, o, some o⟩])[u]? = some b := by
    intro u b hu
    rw [List.getElem?_append_left (List.getElem?_eq_some_iff.mp hu).1, hu]
  have hstatus : ∀ o', o' ≠ o → Function.update status o .held o' = status o' :=
    fun o' hne => Function.update_of_ne hne _ _
  have hself : Function.update status o .held o = .held := Function.update_self _ _ _
  rw [pushHandle_eq href]
  constructor
  · intro o' ho'
    have hne : o' ≠ o := by
      rintro rfl
      rw [hself] at ho'
      cases ho'
    obtain ⟨href', hbox'⟩ := h.unseen o' (by rwa [hstatus o' hne] at ho')
    refine ⟨by simpa [hne] using href', fun b hb => ?_⟩
    obtain hb | hb := List.mem_append.mp hb
    · exact hbox' b hb
    · rw [List.mem_singleton.mp hb]
      exact hne.symm
  · intro o' ho'
    by_cases hne : o' = o
    · subst hne
      exact ⟨t.boxes.length, by simp, by simp⟩
    · obtain ⟨u, hu, hb⟩ := h.held o' (by rwa [hstatus o' hne] at ho')
      have hr : t.ref o' ≠ t.nextRef := fun hr => by
        rw [hr, hfresh] at hu
        cases hu
      exact ⟨u, by simpa [hne, hr] using hu, hkept hb⟩
  · intro o' ho'
    have hne : o' ≠ o := by
      rintro rfl
      rw [hself] at ho'
      cases ho'
    obtain ⟨href', hbox'⟩ := h.cleared o' (by rwa [hstatus o' hne] at ho')
    refine ⟨by simpa [hne] using href', fun b hb hbo => ?_⟩
    obtain hb | hb := List.mem_append.mp hb
    · exact hbox' b hb hbo
    · rw [List.mem_singleton.mp hb] at hbo
      exact absurd hbo.symm hne
  · rw [List.map_append, List.nodup_append]
    refine ⟨h.once, by simp, ?_⟩
    rintro x hx y hy rfl
    obtain ⟨b, hb, hbo⟩ := List.mem_map.mp hx
    exact hbox b hb (by simpa [hbo] using hy)
  · intro b hb
    obtain hb | hb := List.mem_append.mp hb
    · exact h.own b hb
    · rw [List.mem_singleton.mp hb]
      exact ⟨rfl, .inr rfl⟩
  · intro r u hr
    by_cases hrn : r = t.nextRef
    · subst hrn
      obtain rfl : t.boxes.length = u := by simpa using hr
      exact ⟨hpos, Nat.le_max_right _ _, ⟨kind o, o, some o⟩, by simp, hself, by simp⟩
    · obtain ⟨h₁, h₂, b, hb, hst, href'⟩ := h.registered r u (by simpa [hrn] using hr)
      have hne : b.origin ≠ o := hbox b (List.mem_of_getElem? hb)
      exact ⟨h₁, Nat.le_trans h₂ (Nat.le_max_left _ _), b, hkept hb, by rwa [hstatus _ hne],
        by simpa [hne] using href'⟩
  · intro r hr
    have hmem : r ∈ t.free := List.mem_of_mem_tail hr
    obtain ⟨h₁, h₂, h₃⟩ := h.free_known r hmem
    have hrn : r ≠ t.nextRef := by
      intro hrn
      have hnd := h.free_nodup
      unfold Table.nextRef at hrn
      cases hf : t.free with
      | nil =>
          rw [hf] at hmem
          cases hmem
      | cons r' free =>
          simp only [hf] at hnd hrn hr
          obtain rfl : r = r' := hrn
          exact (List.nodup_cons.mp hnd).1 hr
    exact ⟨h₁, Nat.le_trans h₂ (Nat.le_max_left _ _), by simpa [hrn] using h₃⟩
  · exact h.free_nodup.sublist (List.tail_sublist _)

omit [DecidableEq O] in
/-- Two objects that are held keep different references. -/
theorem ref_inj (h : Agrees kind status t) {o o' : O} (ho : status o = .held)
    (ho' : status o' = .held) (href : t.ref o = t.ref o') : o = o' := by
  obtain ⟨u, hu, hb⟩ := h.held o ho
  obtain ⟨u', hu', hb'⟩ := h.held o' ho'
  rw [href, hu'] at hu
  cases hu
  rw [hb] at hb'
  injection hb' with hb'
  injection hb'

theorem pushHandle (h : Agrees kind status t) (o : O) :
    Agrees kind (Function.update status o (status o).pushed) (t.pushHandle kind o) := by
  by_cases ho : status o = .unseen
  · rw [ho]
    exact h.pushHandle_new ho
  · have hpushed : (status o).pushed = status o := by
      cases hs : status o with
      | unseen => exact absurd hs ho
      | _ => rfl
    rw [hpushed, Function.update_eq_self, Table.pushHandle, if_neg (h.ref_ne_zero ho)]
    exact h

/-- The table once the box of a held object is empty and its reference given back. -/
theorem nullify_eq (h : Agrees kind status t) (ho : status o = .held) :
    ∃ u, t.registry (t.ref o) = some u ∧ t.boxes[u]? = some ⟨kind o, o, some o⟩ ∧
      t.nullify kind o =
        { t with
          boxes := t.boxes.modify u fun b => { b with data := none }
          registry := Function.update t.registry (t.ref o) none
          free := t.ref o :: t.free } := by
  obtain ⟨u, hu, hb⟩ := h.held o ho
  have hpush : t.pushHandle kind o = t := if_neg (h.ref_ne_zero (by rw [ho]; nofun))
  refine ⟨u, hu, hb, ?_⟩
  rw [Table.nullify, hpush]
  simp only [Table.clear, hu, Table.referenceFree]

theorem nullify_held (h : Agrees kind status t) (ho : status o = .held) :
    Agrees kind (Function.update status o .cleared) (t.nullify kind o) := by
  obtain ⟨u, hu, hbox, heq⟩ := h.nullify_eq ho
  obtain ⟨hpos, hsize, -⟩ := h.registered _ u hu
  have hstatus : ∀ o', o' ≠ o → Function.update status o .cleared o' = status o' :=
    fun o' hne => Function.update_of_ne hne _ _
  have hself : Function.update status o .cleared o = .cleared := Function.update_self _ _ _
  -- the box of `o` is the one at `u`, the others are as they were
  have hcell : ∀ {i : ℕ} {b}, (t.boxes.modify u fun b => { b with data := none })[i]? = some b →
      (i = u ∧ b = ⟨kind o, o, none⟩) ∨ (i ≠ u ∧ t.boxes[i]? = some b ∧ b.origin ≠ o) := by
    intro i b hb
    by_cases hi : i = u
    · subst hi
      rw [List.getElem?_modify_eq, hbox] at hb
      exact .inl ⟨rfl, (Option.some.inj hb).symm⟩
    · rw [List.getElem?_modify_ne _ _ (Ne.symm hi)] at hb
      refine .inr ⟨hi, hb, fun hbo => hi ?_⟩
      have hlt : i < (t.boxes.map (·.origin)).length := by
        rw [List.length_map]
        exact (List.getElem?_eq_some_iff.mp hb).1
      refine (List.getElem?_inj hlt h.once).mp ?_
      rw [List.getElem?_map, List.getElem?_map, hb, hbox, Option.map_some, Option.map_some, hbo]
  have hmem : ∀ {b}, b ∈ (t.boxes.modify u fun b => { b with data := none }) →
      b = ⟨kind o, o, none⟩ ∨ (b ∈ t.boxes ∧ b.origin ≠ o) := by
    intro b hb
    obtain ⟨i, hi⟩ := List.mem_iff_getElem?.mp hb
    obtain ⟨-, rfl⟩ | ⟨-, hi, hbo⟩ := hcell hi
    · exact .inl rfl
    · exact .inr ⟨List.mem_of_getElem? hi, hbo⟩
  have hkept : ∀ {i : ℕ} {b}, i ≠ u → t.boxes[i]? = some b →
      (t.boxes.modify u fun b => { b with data := none })[i]? = some b := fun hi hb => by
    rw [List.getElem?_modify_ne _ _ (Ne.symm hi), hb]
  rw [heq]
  constructor
  · intro o' ho'
    have hne : o' ≠ o := by
      rintro rfl
      rw [hself] at ho'
      cases ho'
    obtain ⟨href, hb⟩ := h.unseen o' (by rwa [hstatus o' hne] at ho')
    refine ⟨href, fun b hb' => ?_⟩
    obtain rfl | ⟨hb', -⟩ := hmem hb'
    · exact hne.symm
    · exact hb b hb'
  · intro o' ho'
    have hne : o' ≠ o := by
      rintro rfl
      rw [hself] at ho'
      cases ho'
    have hheld : status o' = .held := by rwa [hstatus o' hne] at ho'
    obtain ⟨u', hu', hb⟩ := h.held o' hheld
    have hr : t.ref o' ≠ t.ref o := fun hr => hne (h.ref_inj hheld ho hr)
    refine ⟨u', by simpa [hr] using hu', hkept ?_ hb⟩
    rintro rfl
    rw [hbox] at hb
    injection hb with hb
    injection hb with _ hb
    exact hne hb.symm
  · intro o' ho'
    by_cases hne : o' = o
    · subst hne
      refine ⟨hpos, fun b hb hbo => ?_⟩
      obtain rfl | ⟨-, hb⟩ := hmem hb
      · rfl
      · exact absurd hbo hb
    · obtain ⟨href, hdata⟩ := h.cleared o' (by rwa [hstatus o' hne] at ho')
      refine ⟨href, fun b hb hbo => ?_⟩
      obtain rfl | ⟨hb, -⟩ := hmem hb
      · rfl
      · exact hdata b hb hbo
  · have horigin : (t.boxes.modify u fun b => { b with data := none }).map (·.origin) =
        t.boxes.map (·.origin) := by
      refine List.ext_getElem? fun i => ?_
      rw [List.getElem?_map, List.getElem?_map, List.getElem?_modify]
      cases t.boxes[i]? with
      | none => rfl
      | some b => by_cases hi : u = i <;> simp [hi]
    rw [horigin]
    exact h.once
  · intro b hb
    obtain rfl | ⟨hb, -⟩ := hmem hb
    · exact ⟨rfl, .inl rfl⟩
    · exact h.own b hb
  · intro r u' hr
    have hrn : r ≠ t.ref o := by
      rintro rfl
      simp at hr
    obtain ⟨h₁, h₂, b, hb, hst, href⟩ := h.registered r u' (by simpa [hrn] using hr)
    have hne : b.origin ≠ o := by
      rintro rfl
      exact hrn href.symm
    have hu' : u' ≠ u := by
      rintro rfl
      rw [hbox] at hb
      cases hb
      exact hne rfl
    exact ⟨h₁, h₂, b, hkept hu' hb, by rwa [hstatus _ hne], href⟩
  · intro r hr
    obtain rfl | hr := List.mem_cons.mp hr
    · exact ⟨hpos, hsize, by simp⟩
    · obtain ⟨h₁, h₂, h₃⟩ := h.free_known r hr
      refine ⟨h₁, h₂, ?_⟩
      by_cases hrn : r = t.ref o
      · simp [hrn]
      · simpa [hrn] using h₃
  · refine List.nodup_cons.mpr ⟨fun hm => ?_, h.free_nodup⟩
    have := (h.free_known _ hm).2.2
    rw [hu] at this
    cases this

theorem nullify (h : Agrees kind status t) (ho : status o ≠ .cleared) :
    Agrees kind (Function.update status o .cleared) (t.nullify kind o) := by
  cases hs : status o with
  | cleared => exact absurd hs ho
  | held => exact h.nullify_held hs
  | unseen =>
      -- the box is created first
      have h' := h.pushHandle_new hs
      have hnull := h'.nullify_held (Function.update_self o .held status)
      rw [Function.update_idem] at hnull
      have hpush : (t.pushHandle kind o).pushHandle kind o = t.pushHandle kind o :=
        if_neg (h'.ref_ne_zero (by simp))
      rw [Table.nullify, hpush] at hnull
      exact hnull

end Agrees
end HandleTable
