import Mathlib.Data.List.Nodup
import Tmysql4.Persistence
import Tmysql4.Scan

/-! # Who releases the buffers of a statement run

`lua_Run` allocates a buffer for each parameter and the bind array, and `Execute` is to release
them once the statement has run.  `deleteBinds` has an array form for strings, whose pointer is a
`void*`, so that the buffer of a string is never released in the form in which it was allocated;
and an exception of a re-preparation leaves `Execute` without it.

`buffers_released_iff` is the result.  Behind it is the invariant `Numbers`: the number of
parameters of a statement is the one that the server has reported for its query, also after
re-preparations that failed. -/

namespace Tmysql4.Handler

open Imperative LuaBase

variable {lib : Lib} {w w' w₀ : World} {s t : StmtId} {binds : List Bind} {ss : List StmtId}
  {query : Bytes} {action : DatabaseAction}

/-! ### The number of parameters -/

/-- `m_numArgs` is the number that was reported when the query of the statement was accepted. -/
def Numbered (lib : Lib) (w : World) (s : StmtId) : Prop :=
  ∃ i, (prepareHistory lib w.log).accepted[i]? = some (w.stmt s).query ∧
    (w.stmt s).numArgs = lib.stmtParamCount i

/-- Since `w₀`, the statements `ss` are numbered, and the
queries of the statements are what they were. -/
structure Numbers (lib : Lib) (w₀ : World) (ss : List StmtId) (w : World) : Prop where
  counted : Counted lib w
  accepted : (prepareHistory lib w₀.log).accepted <+: (prepareHistory lib w.log).accepted
  nextStmt : w₀.nextStmt ≤ w.nextStmt
  query : ∀ s < w₀.nextStmt, (w.stmt s).query = (w₀.stmt s).query
  lt : ∀ s ∈ ss, s < w.nextStmt
  numbered : ∀ s ∈ ss, Numbered lib w s

theorem Numbers.mono {ss' : List StmtId} (h : Numbers lib w₀ ss w) (hsub : ss' ⊆ ss) :
    Numbers lib w₀ ss' w :=
  ⟨h.counted, h.accepted, h.nextStmt, h.query, fun s hs => h.lt s (hsub hs),
    fun s hs => h.numbered s (hsub hs)⟩

/-- The base may be moved up. -/
theorem Numbers.self (h : Numbers lib w₀ ss w) : Numbers lib w ss w :=
  ⟨h.counted, List.prefix_refl _, Nat.le_refl _, fun _ _ => rfl, h.lt, h.numbered⟩

/-- A request other than a preparation is recorded. -/
theorem Numbers.record (h : Numbers lib w₀ ss w) {r : Request}
    (hr : ∀ σ, PrepareHistory.after lib σ r = σ) :
    Numbers lib w₀ ss { w with log := w.log ++ [r] } := by
  have hlog : prepareHistory lib (w.log ++ [r]) =
      prepareHistory lib w.log := by rw [prepareHistory_snoc, hr]
  refine ⟨?_, ?_, h.nextStmt, h.query, h.lt, fun s hs => ?_⟩
  · simpa only [Counted, hlog] using h.counted
  · simpa only [hlog] using h.accepted
  · simpa only [Numbered, hlog] using h.numbered s hs

theorem openable_numbers : Openable soundFns (Numbers lib w₀ ss) where
  call f hf w h := by
    have hne : ∀ {g : Fn}, g ∉ soundFns → g ≠ f := fun hg he => hg (he ▸ hf)
    refine ⟨⟨?_, ?_⟩, h.accepted, h.nextStmt, h.query, h.lt, h.numbered⟩
    · rw [counted_calls_ne w (hne (by decide))]
      exact h.counted.1
    · rw [counted_calls_ne w (hne (by decide))]
      exact h.counted.2
  connError _ _ h := ⟨h.counted, h.accepted, h.nextStmt, h.query, h.lt, h.numbered⟩
  handle _ _ _ _ h := ⟨h.counted, h.accepted, h.nextStmt, h.query, h.lt, h.numbered⟩
  locals _ _ _ h := ⟨h.counted, h.accepted, h.nextStmt, h.query, h.lt, h.numbered⟩
  frees _ _ h := ⟨h.counted, h.accepted, h.nextStmt, h.query, h.lt, h.numbered⟩
  waiter _ _ h := ⟨h.counted, h.accepted, h.nextStmt, h.query, h.lt, h.numbered⟩
  isPendingCallback _ _ h := ⟨h.counted, h.accepted, h.nextStmt, h.query, h.lt, h.numbered⟩
  opens := by decide
  quiet r he hp w h := h.record fun σ => by
    cases r with
    | stmtPrepare handle query => cases hp
    | _ => rfl
  charSet _ _ h := ⟨h.counted, h.accepted, h.nextStmt, h.query, h.lt, h.numbered⟩

/-- `Prepare` assigns `m_numArgs` only when the preparation succeeds. -/
theorem prepare_numArgs (h : ¬ Reprepares lib w 1) :
    ((final ((prepare lib s).run w)).stmt s).numArgs = (w.stmt s).numArgs := by
  obtain ⟨hcalls, -, -, -⟩ := closing_eq (w.stmt s).stmt w
  rw [reprepares_one, ← hcalls] at h
  rw [prepare, run_bind_ok (EStateM.run_get _), run_bind_ok (closeHandle_closing _ _)]
  generalize w.closing (w.stmt s).stmt = w₁ at *
  cases hinit : lib.stmtInit (w₁.calls .stmtInit) with
  | some e =>
      rw [run_bind_ok (mysqlStmtInit_none_run hinit), run_bind_ok (setStmt_run _ _ _), prepareOn,
        throwException_run]
      simp
  | none =>
      cases hprepare : lib.stmtPrepare (w₁.calls .stmtPrepare) with
      | none => exact absurd ⟨hinit, hprepare⟩ h
      | some e =>
          rw [run_bind_ok (mysqlStmtInit_some_run hinit), run_bind_ok (setStmt_run _ _ _),
            prepareOn, run_bind_ok
              (mysqlStmtPrepare_some_run (by simpa [World.counted] using hprepare)), if_pos rfl,
            throwException_run]
          simp [World.counted]

theorem Replaced.numbered (h : Replaced lib s w w') (hne : t ≠ s) (ht : Numbered lib w t) :
    Numbered lib w' t := by
  obtain ⟨i, hi, hnumArgs⟩ := ht
  obtain ⟨more, hmore⟩ := h.accepted
  refine ⟨i, ?_, ?_⟩
  · rw [h.others t hne, ← hmore, List.getElem?_append_left (List.getElem?_eq_some_iff.mp hi).1]
    exact hi
  · rw [h.others t hne]
    exact hnumArgs

theorem numbers_prepare (s : StmtId) : Preserves (Numbers lib w₀ ss) (prepare lib s) := by
  intro w h
  obtain ⟨hreplaced, hcounted⟩ := prepare_final lib s w
  obtain ⟨hcounted, hholds⟩ := hcounted h.counted
  have hnumArgs : ¬ Reprepares lib w 1 → _ := prepare_numArgs (s := s)
  generalize final ((prepare lib s).run w) = w' at *
  have hquery : ∀ t, (w'.stmt t).query = (w.stmt t).query := by
    intro t
    by_cases hts : t = s
    · rw [hts, hreplaced.query]
    · rw [hreplaced.others t hts]
  refine ⟨hcounted, h.accepted.trans hreplaced.accepted, ?_, fun t ht => ?_, fun t ht => ?_,
    fun t ht => ?_⟩
  · rw [hreplaced.nextStmt]
    exact h.nextStmt
  · rw [hquery, h.query t ht]
  · rw [hreplaced.nextStmt]
    exact h.lt t ht
  · by_cases hts : t = s
    · subst hts
      by_cases hone : Reprepares lib w 1
      · obtain ⟨-, i, -, -, -, hi, hcount⟩ := hholds hone
        exact ⟨i, hi, hcount⟩
      · obtain ⟨i, hi, hcount⟩ := h.numbered t ht
        obtain ⟨more, hmore⟩ := hreplaced.accepted
        refine ⟨i, ?_, ?_⟩
        · rw [hquery, ← hmore, List.getElem?_append_left (List.getElem?_eq_some_iff.mp hi).1]
          exact hi
        · rw [hnumArgs hone]
          exact hcount
    · exact hreplaced.numbered hts (h.numbered t ht)

theorem persistent_numbers : Persistent lib (fun _ => True) (fun _ => True) (Numbers lib w₀ ss) :=
  openable_numbers.persistent (fun _ _ _ _ => trivial)
    (fun _ _ h => ⟨h.counted, h.accepted, h.nextStmt, h.query, h.lt, h.numbered⟩)
    (fun r hr _ w h => h.record fun σ => by
      cases r with
      | stmtPrepare handle query => cases hr
      | _ => rfl)
    fun s _ => numbers_prepare s

theorem numbers_allocating (h : Numbers lib w₀ ss w) (query : Bytes) :
    Numbers lib w₀ ss (w.allocating query) := by
  refine ⟨h.counted, h.accepted, Nat.le_succ_of_le h.nextStmt, fun t ht => ?_, fun t ht => ?_,
    fun t ht => ?_⟩
  · have hne : t ≠ w.nextStmt := Nat.ne_of_lt (Nat.lt_of_lt_of_le ht h.nextStmt)
    simpa only [World.allocating, Function.update_of_ne hne] using h.query t ht
  · exact Nat.lt_succ_of_lt (h.lt t ht)
  · have hne : t ≠ w.nextStmt := Nat.ne_of_lt (h.lt t ht)
    simpa only [World.allocating, Numbered, Function.update_of_ne hne] using h.numbered t ht

/-- A statement that is constructed is numbered. -/
theorem newStatement_numbers (h : Numbers lib w₀ ss w) (query : Bytes) :
    Numbers lib w₀ (born lib w (.createStatement query) ++ ss)
      (final ((newStatement lib query).run w)) := by
  have hw₁ := numbers_allocating h query
  obtain ⟨hfinal, hborn⟩ := newStatement_final lib query w
  obtain ⟨hreplaced, hcounted⟩ := prepare_final lib w.nextStmt (w.allocating query)
  have hnumbers : Numbers lib w₀ ss (final ((prepare lib w.nextStmt).run (w.allocating query))) :=
    numbers_prepare w.nextStmt _ hw₁
  rw [hfinal, hborn]
  split
  · rename_i hone
    refine ⟨hnumbers.counted, hnumbers.accepted, hnumbers.nextStmt, hnumbers.query, ?_, ?_⟩
    · rintro t (_ | ⟨_, ht⟩)
      · exact Nat.lt_of_lt_of_eq (Nat.lt_succ_self _) hreplaced.nextStmt.symm
      · exact hnumbers.lt t ht
    · rintro t (_ | ⟨_, ht⟩)
      · obtain ⟨-, i, -, -, -, hi, hcount⟩ := (hcounted hw₁.counted).2 hone
        exact ⟨i, hi, hcount⟩
      · exact hnumbers.numbered t ht
  · exact hnumbers

theorem handle_numbers (h : Numbers lib w₀ ss w) (fuel : ℕ) (t : Task) :
    Numbers lib w₀ (born lib w t ++ ss) (final ((handle lib fuel t).run w)) := by
  cases t with
  | runQuery action query => exact persistent_numbers.runQuery trivial fuel action w h
  | runStatement s binds action =>
      exact persistent_numbers.runStatement (fun _ _ => trivial) trivial fuel binds action w h
  | createStatement query =>
      exact final_createStatement openable_numbers.toStable (newStatement_numbers h query)

theorem Population.numbers_step {x x' : Population} {e : Event}
    (h : Numbers lib w₀ (ss ++ x.live) x.world) (hs : x.step lib e = some x') :
    Numbers lib w₀ (ss ++ x'.live) x'.world := by
  cases e with
  | handler l =>
      cases l with
      | task fuel t =>
          obtain ⟨w, hw, rfl⟩ := Option.map_eq_some_iff.mp hs
          have hnumbers := handle_numbers h fuel t
          simp only [Handler.step] at hw
          split at hw
          · rename_i w' hrun
            cases hw
            rw [hrun] at hnumbers
            refine hnumbers.mono fun t ht => ?_
            simp only [List.mem_append] at ht ⊢
            obtain ht | ht | ht := ht
            · exact Or.inr (Or.inl ht)
            · exact Or.inl ht
            · exact Or.inr (Or.inr ht)
          · cases hw
      | register query s =>
          cases hs
          exact ⟨h.counted, h.accepted, h.nextStmt, h.query, h.lt, h.numbered⟩
      | poll =>
          cases hs
          exact ⟨h.counted, h.accepted, h.nextStmt, h.query, h.lt, h.numbered⟩
  | release s =>
      simp only [Population.step] at hs
      split at hs
      · cases hs
        have hclose : Numbers lib w₀ (ss ++ x.live) (x.world.closing (x.world.stmt s).stmt) := by
          obtain ⟨hcalls, hstmt, -, hnextStmt⟩ := closing_eq (x.world.stmt s).stmt x.world
          have hhistory : prepareHistory lib (x.world.closing (x.world.stmt s).stmt).log =
              prepareHistory lib x.world.log :=
            closing_history _ _
          refine ⟨?_, ?_, ?_, ?_, ?_, ?_⟩
          · simpa only [Counted, hcalls, hhistory] using h.counted
          · simpa only [hhistory] using h.accepted
          · simpa only [hnextStmt] using h.nextStmt
          · simpa only [hstmt] using h.query
          · simpa only [hnextStmt] using h.lt
          · simpa only [Numbered, hstmt, hhistory] using h.numbered
        have hreleased : Numbers lib w₀ (ss ++ x.live) (x.world.release s) :=
          ⟨hclose.counted, hclose.accepted, hclose.nextStmt, hclose.query, hclose.lt,
            hclose.numbered⟩
        exact hreleased.mono (fun t ht => by
          simp only [List.mem_append, List.mem_filter] at ht ⊢
          exact ht.imp_right And.left)
      · cases hs

/-- Between two worlds of a run, the number of parameters of a statement does not change, when the
server always reports the same number for a query. -/
theorem numArgs_eq {params : Bytes → ℕ} (h : Numbers lib w₀ ss w) (hs : s ∈ ss)
    (hs₀ : s < w₀.nextStmt) (hnumbered : Numbered lib w₀ s)
    (hcount : ReportsCounts lib params w.log) :
    (w.stmt s).numArgs = (w₀.stmt s).numArgs := by
  obtain ⟨i₀, hi₀, hcount₀⟩ := hnumbered
  obtain ⟨i, hi, hnumArgs⟩ := h.numbered s hs
  obtain ⟨more, hmore⟩ := h.accepted
  have hold : (prepareHistory lib w.log).accepted[i₀]? = some (w₀.stmt s).query := by
    rw [← hmore, List.getElem?_append_left (List.getElem?_eq_some_iff.mp hi₀).1]
    exact hi₀
  rw [hnumArgs, hcount₀, hcount i _ hi, hcount i₀ _ hold, h.query s hs₀]

/-! ### What releases a buffer -/

section Frees

variable {fs : List Free}

/-- Nothing has been released besides `fs`. -/
def FreesAre (fs : List Free) (w : World) : Prop := w.frees = fs

theorem frees_openConnection (c : Credentials) :
    Preserves (FreesAre fs) (openConnection lib c) := by
  have hoptions : Preserves (FreesAre fs) (mysqlOptions lib) := fun _ h => h
  have hconnect : ∀ socket flags, Preserves (FreesAre fs) (mysqlRealConnect lib c socket flags) :=
    fun _ _ _ h => h
  exact hoptions.bind fun _ => (Preserves.ite (Preserves.pure _) hoptions).bind fun _ =>
    Preserves.ite (Preserves.pure _) (hconnect _ _)

theorem frees_restoreCharacterSet (charset : Bytes) :
    Preserves (FreesAre fs) (restoreCharacterSet lib charset) := by
  have hset : Preserves (FreesAre fs) (mysqlSetCharacterSet lib charset) := fun _ h => h
  exact Preserves.ite (Preserves.pure _) <| hset.bind fun _ => Preserves.ite
    (preserves_mysqlError.bind fun _ => Preserves.pure _)
    (Preserves.bind (Preserves.modify fun _ h => h) fun _ => Preserves.pure _)

theorem frees_prepare (s : StmtId) : Preserves (FreesAre fs) (prepare lib s) := fun w h =>
  (prepare_renewed lib s w).frees.trans h

theorem frees_connect (isReconnect : Bool) : Preserves (FreesAre fs) (connect lib isReconnect) := by
  have hall : ∀ entries, Preserves (FreesAre fs) (prepareAll lib entries) := by
    intro entries
    induction entries with
    | nil => exact Preserves.pure _
    | cons entry entries ih => exact (frees_prepare entry.2).bind fun _ => ih
  refine Preserves.get.bind fun w => (frees_openConnection w.credentials).bind fun failed => ?_
  refine Preserves.ite (preserves_mysqlError.bind fun _ => Preserves.pure _) ?_
  refine (frees_restoreCharacterSet w.charSet).bind fun error => ?_
  cases error with
  | some error => exact Preserves.pure _
  | none =>
      exact (hall _).bind fun _ =>
        Preserves.bind (Preserves.modify fun _ h => h) fun _ => Preserves.pure _

theorem stable_frees : StableAt soundFns (fun _ => True) (FreesAre fs) :=
  ⟨fun _ _ _ h => h, fun _ _ h => h, fun _ _ _ _ _ h => h, fun _ _ _ h => h⟩

/-- The executions release nothing, however they end. -/
theorem frees_executions (s : StmtId) (binds : List Bind) (fuel : ℕ)
    (hasRetried hasRetriedStatement : Bool) :
    Preserves (FreesAre fs) (executions lib s binds fuel hasRetried hasRetriedStatement) := by
  have hattempt : Preserves (FreesAre fs) (attempt lib s binds) :=
    stable_frees.attempt (by decide) (fun _ _ _ h => h) (fun _ _ _ _ => trivial) binds
  exact preserves_executions hattempt (frees_connect true) (frees_prepare s) fuel hasRetried
    hasRetriedStatement

/-- Reading the results releases nothing. -/
theorem frees_resultsOr (h : HandleId) (d : Diag) (errStr : Loc) (fuel : ℕ) :
    Preserves (FreesAre fs)
      (resultsOr lib d errStr (collect .outOfFuel (nextStatementResult lib h) fuel)) :=
  stable_frees.resultsOr (by decide) d errStr
    (Preserves.collect ((stable_frees.mono (by decide)).nextStatementResult trivial) fuel)

end Frees

/-- `RunStatement` reaches `deleteBinds` unless a preparation of its recoveries throws. -/
theorem runStatement_frees {fuel : ℕ}
    (h : (runStatement lib fuel s binds action).run w = .ok () w') :
    (Recovers lib w ∧ w'.frees = w.frees ++
      (freesFrom ((retagBinds binds (w.stmt s).numArgs).take (w'.stmt s).numArgs) 0 ++ [.binds])) ∨
    (¬ Recovers lib w ∧ w'.frees = w.frees) := by
  obtain ⟨results, w₂, rfl,
      ⟨hrec, w₁, hexecutions, -, hresults⟩ | ⟨e, w₁, hfails, hexecutions, hcaught⟩⟩ :=
    runStatement_cases h
  · have hfrees : w₁.frees = w.frees := (frees_executions s _ fuel false false).ok hexecutions rfl
    obtain ⟨handle, v, -, hread, rfl⟩ := executeResults_eq_ok hresults
    have hfrees' : v.frees = w₁.frees := (frees_resultsOr handle _ _ fuel).ok hread rfl
    refine Or.inl ⟨hrec, ?_⟩
    rw [← hfrees, ← hfrees']
    exact List.append_assoc _ _ _
  · have hfrees : w₁.frees = w.frees :=
      (frees_executions s _ fuel false false).error hexecutions rfl
    obtain ⟨w₃, hbody, rfl⟩ := withObject_eq_ok_iff.mp hcaught
    rw [run_map_ok _ (newError_run lib _ _ _ _)] at hbody
    cases hbody
    exact Or.inr ⟨hfails.not_reprepares, hfrees⟩

/-! ### The form of `delete` -/

/-- `deleteBinds` releases no buffer as an array. -/
theorem array_not_mem_freesFrom (binds : List Bind) (i j : ℕ) : .array j ∉ freesFrom binds i := by
  induction binds generalizing i with
  | nil => exact List.not_mem_nil
  | cons b binds ih =>
      rw [freesFrom]
      split
      · exact ih (i + 1)
      · split
        · simpa using ih (i + 1)
        · simpa using ih (i + 1)

/-- The scan does not change what is released. -/
theorem freesFrom_retag (binds : List Bind) (i : ℕ) :
    freesFrom (binds.map Bind.retag) i = freesFrom binds i := by
  induction binds generalizing i with
  | nil => rfl
  | cons b binds ih =>
      have hretag : b.retag.bufferType = mysqlTypeNull ↔ b.bufferType = mysqlTypeNull := by
        unfold Bind.retag
        split
        · rename_i hstring
          exact iff_of_false (show mysqlTypeBlob ≠ mysqlTypeNull by decide) fun hnull => by
            rw [hstring.1] at hnull
            exact absurd hnull (by decide)
        · exact Iff.rfl
      rw [List.map_cons, freesFrom, freesFrom, ih]
      simp only [hretag, ite_self]

theorem array_mem_buffersFrom {b : Bind} (hb : b ∈ binds) (htype : b.bufferType = mysqlTypeString)
    (i : ℕ) : ∃ j, .array j ∈ buffersFrom binds i := by
  have hnull : b.bufferType ≠ mysqlTypeNull := by
    rw [htype]
    decide
  induction binds generalizing i with
  | nil => cases hb
  | cons b' binds ih =>
      rw [buffersFrom]
      obtain rfl | hb := List.mem_cons.mp hb
      · exact ⟨i, by rw [if_neg hnull, if_pos htype]; exact List.mem_cons_self⟩
      · obtain ⟨j, hj⟩ := ih hb (i + 1)
        refine ⟨j, ?_⟩
        split
        · exact hj
        · split
          · exact List.mem_cons_of_mem _ hj
          · exact List.mem_cons_of_mem _ hj

/-- Without strings every buffer was allocated as it is released. -/
theorem buffersFrom_eq (h : ∀ b ∈ binds, b.bufferType ≠ mysqlTypeString) (i : ℕ) :
    buffersFrom binds i = freesFrom binds i := by
  induction binds generalizing i with
  | nil => rfl
  | cons b binds ih =>
      have hb := h b List.mem_cons_self
      rw [buffersFrom, freesFrom, ih (fun b hb => h b (List.mem_cons_of_mem _ hb)), if_neg hb,
        if_neg hb]

/-- The forms fit exactly when no bind is a string. -/
theorem freesFrom_perm_iff :
    (freesFrom binds 0).Perm (buffersFrom binds 0) ↔
      ∀ b ∈ binds, b.bufferType ≠ mysqlTypeString := by
  constructor
  · intro hperm b hb htype
    obtain ⟨j, hj⟩ := array_mem_buffersFrom hb htype 0
    exact array_not_mem_freesFrom binds 0 j (hperm.mem_iff.mpr hj)
  · intro h
    rw [buffersFrom_eq h]

theorem bufferType_bind_iff (beyond : Bytes) (p : Parameter) :
    (p.bind beyond).bufferType = mysqlTypeString ↔ ∃ text, p = .string text := by
  cases p with
  | string text => exact iff_of_true rfl ⟨text, rfl⟩
  | null => exact iff_of_false (show mysqlTypeNull ≠ mysqlTypeString by decide) (by simp)
  | bool b => exact iff_of_false (show mysqlTypeBit ≠ mysqlTypeString by decide) (by simp)
  | number bits => exact iff_of_false (show mysqlTypeDouble ≠ mysqlTypeString by decide) (by simp)

/-! ### The whole of a call -/

/-- What the call has allocated, in `st`, is released once between `w` and `w'`, in the form in
which it was allocated. -/
def Released (st st' : RunState) (w w' : World) : Prop :=
  ∃ buffers freed, st'.allocated = st.allocated ++ buffers ∧ w'.frees = w.frees ++ freed ∧
    buffers.Nodup ∧ freed.Perm buffers

theorem released_iff {st st' : RunState} {buffers freed : List Free}
    (hst : st'.allocated = st.allocated ++ buffers) (hw : w'.frees = w.frees ++ freed)
    (hnodup : buffers.Nodup) : Released st st' w w' ↔ freed.Perm buffers := by
  constructor
  · rintro ⟨buffers', freed', hst', hw', -, hperm⟩
    rw [List.append_cancel_left (hst.symm.trans hst'), List.append_cancel_left (hw.symm.trans hw')]
    exact hperm
  · exact fun hperm => ⟨buffers, freed, hst, hw, hnodup, hperm⟩

/-- **When the buffers of a call are released.** Everything that an accepted call of `Run` has
allocated has been released once, in the right form, when `RunStatement` returns, if and only if
no preparation that it makes throws and no parameter is a string. -/
theorem buffers_released_iff {c : Credentials} {tr tr' : List Event} {x y : Population}
    {params : Bytes → ℕ} {st st' : RunState} {ps : List Parameter} {task : RunTask} {fuel : ℕ}
    (hx : Transition.exec (Population.step lib) (.start c) tr = some x) (hlive : task.stmt ∈ x.live)
    (hargs : st.numArgs task.stmt = (x.world.stmt task.stmt).numArgs) (htakes : Takes st ps task)
    (hcall : luaRun.run st = .ok () st') (hy : Transition.exec (Population.step lib) x tr' = some y)
    (hreturns : (runStatement lib fuel task.stmt task.binds action).run y.world = .ok () w')
    (hcount : ReportsCounts lib params w'.log) :
    Released st st' y.world w' ↔
      Recovers lib y.world ∧ ∀ (i : ℕ) text, ps[i]? ≠ some (.string text) := by
  -- the number of parameters is the same at the call, at the start of the handler and when it
  -- deletes the binds
  have hnumbers : Numbers lib (Population.start c).world x.live x.world :=
    Transition.exec_inv' (I := fun x => Numbers lib (Population.start c).world ([] ++ x.live)
      x.world) (fun _ _ _ hI hs => Population.numbers_step hI hs)
        ⟨⟨rfl, rfl⟩, List.prefix_refl _, Nat.le_refl _, fun _ _ => rfl, nofun, nofun⟩ hx
  have hnumbers' : Numbers lib x.world ([task.stmt] ++ y.live) y.world := by
    refine Transition.exec_inv' (I := fun y => Numbers lib x.world ([task.stmt] ++ y.live) y.world)
      (fun _ _ _ hI hs => Population.numbers_step hI hs) (hnumbers.self.mono ?_) hy
    rintro s (_ | ⟨_, hs⟩)
    · exact hlive
    · exact hs
  have hruns : ∀ {w₀}, Numbers lib w₀ ([task.stmt] ++ y.live) y.world →
      Numbers lib w₀ ([task.stmt] ++ y.live) w' :=
    fun h => (persistent_numbers.runStatement (fun _ _ => trivial) trivial fuel task.binds
      action).ok hreturns h
  have hmem : task.stmt ∈ [task.stmt] ++ y.live := List.mem_append_left _ List.mem_cons_self
  have hafter : (w'.stmt task.stmt).numArgs = (x.world.stmt task.stmt).numArgs :=
    numArgs_eq (hruns hnumbers') hmem (hnumbers.lt _ hlive) (hnumbers.numbered _ hlive) hcount
  have hbefore : (w'.stmt task.stmt).numArgs = (y.world.stmt task.stmt).numArgs :=
    numArgs_eq (hruns hnumbers'.self) hmem (hnumbers'.lt _ hmem) (hnumbers'.numbered _ hmem) hcount
  have hqueued : Queued st st' task.stmt task := htakes.queued hcall
  have hlength : task.binds.length = (w'.stmt task.stmt).numArgs := by
    rw [hafter, hqueued.length, hargs]
  have hretag : (retagBinds task.binds (y.world.stmt task.stmt).numArgs).take
      (w'.stmt task.stmt).numArgs = task.binds.map Bind.retag := by
    rw [← hbefore, ← hlength, retagBinds, List.take_length, List.drop_length, List.append_nil]
    exact List.take_of_length_le (Nat.le_of_eq (List.length_map _))
  have htypes : (∀ b ∈ task.binds, b.bufferType ≠ mysqlTypeString) ↔
      ∀ (i : ℕ) text, ps[i]? ≠ some (.string text) := by
    rw [htakes.binds_eq]
    constructor
    · intro h i text hi
      have hb := List.mem_of_getElem? (htakes.binds_eq ▸ htakes.getElem_binds hi)
      exact h _ hb rfl
    · intro h b hb
      obtain ⟨i, hi, rfl⟩ := List.mem_mapIdx.mp hb
      rw [Ne, bufferType_bind_iff]
      rintro ⟨text, htext⟩
      refine h i text ?_
      rw [List.getElem?_eq_getElem hi, htext]
  obtain ⟨hrec, hfrees⟩ | ⟨hrec, hfrees⟩ := runStatement_frees hreturns
  · rw [hretag, freesFrom_retag] at hfrees
    have hperm : (freesFrom task.binds 0 ++ [Free.binds]).Perm
        (.binds :: buffersFrom task.binds 0) ↔
        (freesFrom task.binds 0).Perm (buffersFrom task.binds 0) :=
      (List.perm_append_comm.congr_left _).trans (List.perm_cons _)
    rw [released_iff hqueued.allocated hfrees (List.Nodup.of_map _ (nodup_buffers _)), hperm,
      freesFrom_perm_iff, htypes]
    exact (and_iff_right hrec).symm
  · rw [← List.append_nil y.world.frees] at hfrees
    rw [released_iff hqueued.allocated hfrees (List.Nodup.of_map _ (nodup_buffers _))]
    refine iff_of_false (fun hperm => ?_) fun h => hrec h.1
    cases hperm.length_eq

/-- The handler of a call with one parameter. -/
def RunTask.one (p : Parameter) : RunTask := ⟨0, [p.bind []], -1, -1, false⟩

theorem takes_one (p : Parameter) : Takes (.calling 1 [p.value]) [p] (.one p) := by
  refine ⟨0, final (luaRun.run (.calling 1 [p.value])), rfl, rfl, fun i hi => ?_, ?_, ?_⟩
  · obtain rfl : i = 0 := by simpa using hi
    rfl
  · cases p <;> rfl
  · cases p <;> rfl

/-- The library on which queries have one parameter. -/
def oneParameter : Lib := { Lib.calm with stmtParamCount := fun _ => 1 }

/-- The handlers that create and cache a statement. -/
def oneStatement : List Event :=
  [.handler (.task 1 (.createStatement [97])), .handler (.register [97] 0)]

/-- A run of the statement after it was created. -/
def runOnce (lib : Lib) (p : Parameter) : Option (Population × World) :=
  (Transition.exec (Population.step lib) (.start ⟨[], [], [], [], 3306, [], 0⟩) oneStatement).bind
    fun x =>
    match (runStatement lib 3 0 (RunTask.one p).binds ⟨0, true⟩).run x.world with
    | .ok _ w => some (x, w)
    | .error _ _ => none

theorem runOnce_eq_some {p : Parameter} {x : Population} (h : runOnce lib p = some (x, w)) :
    Transition.exec (Population.step lib) (.start ⟨[], [], [], [], 3306, [], 0⟩) oneStatement =
      some x ∧ (runStatement lib 3 0 (RunTask.one p).binds ⟨0, true⟩).run x.world = .ok () w := by
  obtain ⟨x', hexec, hrun⟩ := Option.bind_eq_some_iff.mp h
  split at hrun
  · rename_i w' hok
    cases hrun
    exact ⟨hexec, hok⟩
  · cases hrun

/-- After a reconnect both buffers of a call with a number are released. -/
theorem buffers_released_iff_reconnected :
    ∃ x w st', runOnce Population.lostExecution (.number 1) = some (x, w) ∧
    w.frees = [.scalar 0, .binds] ∧ Released (.calling 1 [.number 1]) st' x.world w := by
  have hrun : (runOnce Population.lostExecution (.number 1)).map (fun p =>
      (p.1.live, (p.1.world.stmt 0).numArgs, decide (Recovers Population.lostExecution p.1.world),
        p.2.frees)) =
      some ([0], 1, true, [.scalar 0, .binds]) := by decide +kernel
  obtain ⟨⟨x, w⟩, hrun, hx⟩ := Option.map_eq_some_iff.mp hrun
  simp only [Prod.mk.injEq, decide_eq_true_eq] at hx
  obtain ⟨hlive, hnumArgs, hrecovers, hfrees⟩ := hx
  obtain ⟨hexec, hreturns⟩ := runOnce_eq_some hrun
  have hmem : (RunTask.one (.number 1)).stmt ∈ x.live := by
    rw [hlive]
    exact List.mem_singleton_self 0
  have hstill : Transition.exec (Population.step Population.lostExecution) x [] = some x := rfl
  have hnumber : ∀ (i : ℕ) text, [Parameter.number 1][i]? ≠ some (.string text) := by
    intro i text hi
    cases List.mem_singleton.mp (List.mem_of_getElem? hi)
  exact ⟨x, w, final (luaRun.run (.calling 1 [.number 1])), hrun, hfrees,
    (buffers_released_iff hexec hmem hnumArgs.symm
    (takes_one (.number 1)) rfl hstill hreturns fun _ _ _ => rfl).mpr ⟨hrecovers, hnumber⟩⟩

/-- The buffer of a string is released as a scalar, and
nothing is released after a preparation that failed. -/
theorem buffers_released_iff_fails :
    (∃ x w, runOnce oneParameter (.string [97]) = some (x, w) ∧ w.frees = [.scalar 0, .binds] ∧
      ¬ Released (.calling 1 [.string [97]]) (final (luaRun.run (.calling 1 [.string [97]])))
        x.world w) ∧
    ∃ x w, runOnce Population.goneTable (.number 1) = some (x, w) ∧ w.frees = [] ∧
      ¬ Released (.calling 1 [.number 1]) (final (luaRun.run (.calling 1 [.number 1])))
        x.world w := by
  constructor
  · have hallocated : (final (luaRun.run (.calling 1 [.string [97]]))).allocated =
        [] ++ [.binds, .array 0] := rfl
    have hrun : (runOnce oneParameter (.string [97])).map (fun p => (p.1.world.frees, p.2.frees)) =
        some ([], [.scalar 0, .binds]) := by decide +kernel
    obtain ⟨⟨x, w⟩, hrun, hx⟩ := Option.map_eq_some_iff.mp hrun
    obtain ⟨hx, hw⟩ := Prod.mk.inj hx
    refine ⟨x, w, hrun, hw, ?_⟩
    rw [released_iff hallocated (show w.frees = x.world.frees ++ _ by rw [hx]; exact hw)
      (by decide)]
    decide
  · have hallocated : (final (luaRun.run (.calling 1 [.number 1]))).allocated =
        [] ++ [.binds, .scalar 0] := rfl
    have hrun : (runOnce Population.goneTable (.number 1)).map
        (fun p => (p.1.world.frees, p.2.frees)) = some ([], []) := by
      decide +kernel
    obtain ⟨⟨x, w⟩, hrun, hx⟩ := Option.map_eq_some_iff.mp hrun
    obtain ⟨hx, hw⟩ := Prod.mk.inj hx
    refine ⟨x, w, hrun, hw, ?_⟩
    rw [released_iff hallocated (show w.frees = x.world.frees ++ _ by rw [hx]; exact hw)
      (by decide)]
    decide

end Tmysql4.Handler
