import Tmysql4.CStrings
import Tmysql4.Transmission

/-! # How strings with null bytes are told from others

`PStatement::Execute` compares `strlen` of a string's buffer with its length, and `lua_Run` has
allocated the buffer without room for a terminator.  `strlen?` is `none` when the search leaves
the buffer; where it does not, it is what `Bind.strlen` is, whatever follows in memory.

`classified_iff` is the result: the strings that are
classified by their own bytes are those with a null byte. -/

namespace Tmysql4.Handler

open Imperative LuaBase

/-! ### The scan -/

/-- `strlen` on the bytes of an allocation, `none` when it reads past them. -/
def strlen? (buffer : Bytes) : Option ℕ := CStrings.find 0 buffer

/-- The body of the loop of `Execute` that looks for null
bytes, `none` when it reads past the buffer. -/
def Bind.scan (b : Bind) : Option Bind :=
  if b.bufferType = mysqlTypeString then
    (strlen? b.buffer).map fun n => if n ≠ b.bufferLength then
      { b with bufferType := mysqlTypeBlob } else b
  else some b

/-- The loop over the first `numArgs` binds. -/
def scanBinds (binds : List Bind) (numArgs : ℕ) : Option (List Bind) :=
  ((binds.take numArgs).mapM Bind.scan).map (· ++ binds.drop numArgs)

variable {b b' : Bind} {binds binds' : List Bind} {text beyond : Bytes} {ps : List Parameter}

theorem cString_eq_text (s : Bytes) : cString s = CStrings.text 0 s := rfl

/-- A string with a null byte has the same length wherever its buffer lies. -/
theorem strlen_of_mem (h : 0 ∈ b.buffer) : strlen? b.buffer = some b.strlen := by
  unfold strlen? Bind.strlen
  rw [cString_eq_text, CStrings.text_append_of_mem h]
  exact CStrings.find_of_mem h

/-- A scan that keeps to the buffer is that of the model with memory. -/
theorem retag_of_scan (h : b.scan = some b') : b.retag = b' := by
  unfold Bind.scan at h
  unfold Bind.retag
  by_cases htype : b.bufferType = mysqlTypeString
  · rw [if_pos htype] at h
    obtain ⟨n, hn, hb'⟩ := Option.map_eq_some_iff.mp h
    have hmem : 0 ∈ b.buffer := by
      by_contra hnot
      rw [strlen?, CStrings.find_eq_none_iff.mpr hnot] at hn
      cases hn
    rw [strlen_of_mem hmem] at hn
    cases hn
    rw [← hb']
    by_cases hlen : b.strlen = b.bufferLength
    · rw [if_neg fun h => h.2 hlen, if_neg (not_not.mpr hlen)]
    · rw [if_pos ⟨htype, hlen⟩, if_pos hlen]
  · rw [if_neg htype] at h
    cases h
    exact if_neg fun h => htype h.1

theorem map_of_mapM {α β : Type} {f : α → Option β} {g : α → β}
    (hfg : ∀ a b, f a = some b → g a = b) {l : List α} {l' : List β} (h : l.mapM f = some l') :
    l.map g = l' := by
  induction l generalizing l' with
  | nil =>
      cases h
      rfl
  | cons a l ih =>
      rw [List.mapM_cons] at h
      obtain ⟨b, hb, hrest⟩ := Option.bind_eq_some_iff.mp h
      obtain ⟨rest, hl, hcons⟩ := Option.bind_eq_some_iff.mp hrest
      cases hcons
      rw [List.map_cons, hfg a b hb, ih hl]

theorem retagBinds_of_scanBinds {n : ℕ} (h : scanBinds binds n = some binds') :
    retagBinds binds n = binds' := by
  obtain ⟨scanned, hscan, rfl⟩ := Option.map_eq_some_iff.mp h
  rw [retagBinds, map_of_mapM (fun _ _ => retag_of_scan) hscan]

/-! ### The parameters -/

theorem scan_bind_isSome_iff (beyond : Bytes) (p : Parameter) :
    (p.bind beyond).scan.isSome ↔ ∀ text, p = .string text → 0 ∈ text := by
  cases p with
  | string text =>
      have hscan : ((Parameter.string text).bind beyond).scan =
          (strlen? text).map fun n => if n ≠ text.length then
            ⟨mysqlTypeBlob, text, text.length, beyond⟩
            else (Parameter.string text).bind beyond := rfl
      rw [hscan, Option.isSome_map, Option.isSome_iff_ne_none, strlen?, ne_eq,
        CStrings.find_eq_none_iff, not_not]
      constructor
      · rintro h text' ⟨⟩
        exact h
      · exact fun h => h text rfl
  | null => exact iff_of_true rfl (by simp)
  | bool b => exact iff_of_true rfl (by simp)
  | number bits => exact iff_of_true rfl (by simp)

/-- The type of a string's bind after the scan depends on the string and on the byte behind it. -/
theorem retag_string_iff (text beyond : Bytes) :
    ((Parameter.string text).bind beyond).retag.bufferType = mysqlTypeBlob ↔
      0 ∈ text ∨ ∃ x ∈ beyond.head?, x ≠ 0 := by
  have hlen : ((Parameter.string text).bind beyond).strlen = text.length ↔
      0 ∉ text ∧ ∀ x ∈ beyond.head?, x = 0 :=
    CStrings.length_text_append_iff
  unfold Bind.retag
  by_cases h : ((Parameter.string text).bind beyond).strlen = text.length
  · obtain ⟨hmem, hhead⟩ := hlen.mp h
    rw [if_neg fun hcond => hcond.2 h]
    refine iff_of_false (fun htype => absurd htype (show mysqlTypeString ≠ mysqlTypeBlob by decide))
      ?_
    rintro (hmem' | ⟨x, hx, hne⟩)
    · exact hmem hmem'
    · exact hne (hhead x hx)
  · rw [if_pos ⟨rfl, h⟩]
    refine iff_of_true rfl ?_
    by_contra hnot
    rw [not_or] at hnot
    refine h (hlen.mpr ⟨hnot.1, fun x hx => ?_⟩)
    by_contra hne
    exact hnot.2 ⟨x, hx, hne⟩

/-- The scan of a bind stays inside its buffer, and the type that the bind then has tells whether
the string has a null byte, whatever lies behind the buffer. -/
structure Classified (text : Bytes) (b : Bind) : Prop where
  within : b.scan.isSome
  blob : ∀ beyond, ({ b with beyond := beyond } : Bind).retag.bufferType = mysqlTypeBlob ↔ 0 ∈ text

theorem classified_bind_iff (text beyond : Bytes) :
    Classified text ((Parameter.string text).bind beyond) ↔ 0 ∈ text := by
  constructor
  · exact fun h => (scan_bind_isSome_iff beyond (.string text)).mp h.within text rfl
  · intro h
    refine ⟨(scan_bind_isSome_iff beyond _).mpr ?_, fun beyond' => ?_⟩
    · rintro text' ⟨⟩
      exact h
    · exact (retag_string_iff text beyond').trans (or_iff_left_of_imp fun _ => h)

theorem Takes.getElem_binds {s : RunState} {task : RunTask} (h : Takes s ps task) {i : ℕ}
    {p : Parameter} (hi : ps[i]? = some p) : task.binds[i]? = some (p.bind (s.beyond i)) := by
  rw [h.binds_eq, bindsFor, List.getElem?_mapIdx, hi]
  rfl

/-- **The scan keeps to the buffer of a string, and tells whether the string has a null byte,
exactly when it has one.** -/
theorem classified_iff {s : RunState} {task : RunTask} {i : ℕ} (h : Takes s ps task)
    (hi : ps[i]? = some (.string text)) :
    (∃ b, task.binds[i]? = some b ∧ Classified text b) ↔ 0 ∈ text := by
  have hbind := h.getElem_binds hi
  constructor
  · rintro ⟨b, hb, hclassified⟩
    rw [hbind] at hb
    cases hb
    exact (classified_bind_iff text _).mp hclassified
  · exact fun hmem => ⟨_, hbind, (classified_bind_iff text _).mpr hmem⟩

/-- The second of two strings has a null byte in the middle. -/
theorem classified_iff_middle : ∃ task, Takes (.calling 2 [.string [97], .string [97, 0, 98]])
    [.string [97], .string [97, 0, 98]] task ∧
      ((∃ b, task.binds[1]? = some b ∧ Classified [97, 0, 98] b) ↔ 0 ∈ ([97, 0, 98] : Bytes)) := by
  obtain ⟨task, htask⟩ := exists_takes [.string [97], .string [97, 0, 98]]
  exact ⟨task, htask, classified_iff htask rfl⟩

/-- The scan of "a" reads past its buffer, and its type is that of the byte behind it. -/
theorem classified_iff_fails : ∃ task b, Takes (.calling 1 [.string [97]]) [.string [97]] task ∧
    task.binds[0]? = some b ∧ b.scan = none ∧
      ({ b with beyond := [98] } : Bind).retag.bufferType = mysqlTypeBlob ∧
      ({ b with beyond := [0] } : Bind).retag.bufferType = mysqlTypeString ∧
        ¬Classified [97] b := by
  obtain ⟨task, htask⟩ := exists_takes [.string [97]]
  refine ⟨task, _, htask, htask.getElem_binds rfl, rfl, rfl, rfl, ?_⟩
  rw [classified_bind_iff]
  decide

end Tmysql4.Handler
