import Tmysql4.StatementHandles

/-! # The text of an execution that failed

A failed execution leaves a `Result` whose `m_strError` points into the buffer of the statement's
handle, where it is read when the script polls.  `Spared` is the frame of a handler that leaves
one handle alone: it may execute and prepare every statement that holds another one.

`execution_error_told` is the result: as long as the statement is not executed, prepared again or
finalized, the script reads the error of the execution, whatever else the database does. -/

namespace Tmysql4.Handler

open Imperative Ownership

variable {lib : Lib} {w w' w₀ : World} {s t : StmtId} {h : HandleId} {T : StmtId → Prop}
  {fns : List Fn} {binds : List Bind} {action : DatabaseAction} {query : Bytes} {e : LibError}

/-! ### The text of the result -/

/-- A statement run whose last execution failed has pushed one result: its text is in the buffer
of the handle that the statement then has. -/
theorem runStatement_failed {fuel : ℕ} (hrec : Recovers lib w)
    (hlast : lastExecution lib w = some e)
    (hrun : (runStatement lib fuel s binds action).run w = .ok () w') :
    ∃ handle mem, (w'.stmt s).stmt = some handle ∧ (w'.handle handle).error = e.diag ∧
      w'.completedActions = w.completedActions ++
        [(action, [.ofError mem e.errno (.handle handle) e.diag])] := by
  obtain ⟨results, w₂, rfl,
      ⟨-, w₁, -, ⟨hframe, handle, hs, herror⟩, hresults⟩ | ⟨e', w₁, hfails, -⟩⟩ :=
    runStatement_cases hrun
  · have herror : (w₁.handle handle).error = diagOf (lastExecution lib w) := herror
    rw [hlast, diagOf_some] at herror hresults
    obtain ⟨handle', v, hs', hread, rfl⟩ := executeResults_eq_ok hresults
    rw [hs] at hs'
    cases hs'
    rw [resultsOr, if_pos e.diag_errno_ne, run_map_ok _ (newError_run lib _ _ _ w₁)] at hread
    cases hread
    refine ⟨handle, lib.newResult (w₁.calls .newResult), hs, herror, ?_⟩
    show w₁.completedActions ++ _ = _
    rw [hframe.completedActions]
    rfl
  · exact absurd hrec hfails.not_reprepares

/-! ### Handlers that leave a handle alone -/

/-- The handle `h`, the completed actions and the statements outside `T` are as they were in `w₀`,
and no statement of `T` holds the handle. -/
structure Spared (h : HandleId) (T : StmtId → Prop) (w₀ w : World) : Prop where
  handle : w.handle h = w₀.handle h
  others : ∀ t, ¬ T t → w.stmt t = w₀.stmt t
  lt : h < w.nextHandle
  free : ∀ t, T t → (w.stmt t).stmt ≠ some h
  preparedStatements : w.preparedStatements = w₀.preparedStatements
  completedActions : w₀.completedActions <+: w.completedActions

theorem stableAt_spared (fns : List Fn) : StableAt fns (· ≠ h) (Spared h T w₀) where
  call _ _ _ hw := ⟨hw.handle, hw.others, hw.lt, hw.free, hw.preparedStatements,
    hw.completedActions⟩
  connError _ _ hw := ⟨hw.handle, hw.others, hw.lt, hw.free, hw.preparedStatements,
    hw.completedActions⟩
  handle i hi d binds w hw := by
    refine ⟨?_, hw.others, hw.lt, hw.free, hw.preparedStatements, hw.completedActions⟩
    rw [← hw.handle]
    exact Function.update_of_ne (Ne.symm hi) _ _
  locals _ _ _ hw := ⟨hw.handle, hw.others, hw.lt, hw.free, hw.preparedStatements,
    hw.completedActions⟩

theorem spared_record (r : Request) : Preserves (Spared h T w₀) (record r) :=
  Preserves.modify fun _ hw =>
    ⟨hw.handle, hw.others, hw.lt, hw.free, hw.preparedStatements, hw.completedActions⟩

theorem spared_pushCompleted (results : List Result) :
    Preserves (Spared h T w₀) (pushCompleted action results) :=
  Preserves.modify fun _ hw => ⟨hw.handle, hw.others, hw.lt, hw.free, hw.preparedStatements,
    hw.completedActions.trans (List.prefix_append _ _)⟩

/-- `Prepare` closes the handle that the statement has, and writes to a new one. -/
theorem Spared.prepare (hw : Spared h T w₀ w) (hs : T s) :
    Spared h T w₀ (final ((prepare lib s).run w)) := by
  obtain ⟨hreplaced, -⟩ := prepare_final lib s w
  have hframe : Frame prepareFns w (final ((Handler.prepare lib s).run w)) :=
    (preparable_frame (List.Subset.refl _)).prepare s w (.refl _ _)
  refine ⟨?_, fun t ht => ?_, Nat.lt_of_lt_of_le hw.lt hreplaced.nextHandle, fun t ht => ?_, ?_, ?_⟩
  · rw [hreplaced.handle h hw.lt (hw.free s hs), hw.handle]
  · rw [hreplaced.others t (fun hts => ht (hts ▸ hs)), hw.others t ht]
  · by_cases hts : t = s
    · subst hts
      intro hheld
      exact absurd hw.lt (Nat.not_lt.mpr (hreplaced.fresh h hheld).1)
    · rw [hreplaced.others t hts]
      exact hw.free t ht
  · rw [hframe.preparedStatements, hw.preparedStatements]
  · rw [hframe.completedActions]
    exact hw.completedActions

theorem Spared.prepareAll {entries : List (Bytes × StmtId)} (he : ∀ entry ∈ entries, T entry.2) :
    Preserves (Spared h T w₀) (prepareAll lib entries) := by
  induction entries with
  | nil => exact Preserves.pure _
  | cons entry entries ih =>
      refine Preserves.bind (fun w hw => hw.prepare (he entry List.mem_cons_self)) fun _ => ?_
      exact ih fun entry' he' => he entry' (List.mem_cons_of_mem _ he')

theorem openable_nextHandle_eq (n : ℕ) : Openable soundFns fun w => w.nextHandle = n where
  call _ _ _ hw := hw
  connError _ _ hw := hw
  handle _ _ _ _ hw := hw
  locals _ _ _ hw := hw
  frees _ _ hw := hw
  waiter _ _ hw := hw
  isPendingCallback _ _ hw := hw
  opens := by decide
  quiet _ _ _ _ hw := hw
  charSet _ _ hw := hw

theorem Spared.opened (hw : Spared h T w₀ w) (ho : Opened fns w w')
    (hnext : w'.nextHandle = w.nextHandle) : Spared h T w₀ w' := by
  obtain ⟨hframe, hstmt, hhandle⟩ := ho
  refine ⟨?_, ?_, ?_, ?_, ?_, ?_⟩
  · rw [hhandle, hw.handle]
  · rw [hstmt]
    exact hw.others
  · rw [hnext]
    exact hw.lt
  · rw [hstmt]
    exact hw.free
  · rw [hframe.preparedStatements, hw.preparedStatements]
  · rw [hframe.completedActions]
    exact hw.completedActions

/-- A connection attempt that succeeds prepares the cached statements. -/
theorem Spared.connect (hw : Spared h T w₀ w)
    (hT : Connects lib w → ∀ entry ∈ w₀.preparedStatements, T entry.2) (isReconnect : Bool) :
    Spared h T w₀ (final ((connect lib isReconnect).run w)) := by
  have hI := openable_nextHandle_eq w.nextHandle
  by_cases hc : Connects lib w
  · refine connect_final hI
      (fun b v hv => ⟨hv.handle, hv.others, hv.lt, hv.free, hv.preparedStatements,
        hv.completedActions⟩) rfl
      (fun hnot => absurd hc hnot) fun w₁ _ ho hnext => ?_
    refine Spared.prepareAll (fun entry hentry => ?_) w₁ (hw.opened ho hnext)
    rw [hw.preparedStatements] at hentry
    exact hT hc entry hentry
  · have hnext : (final ((Handler.connect lib isReconnect).run w)).nextHandle = w.nextHandle :=
      final_connect hI rfl fun _ hc' => absurd hc' hc
    obtain ⟨error, w₁, hrun, ho⟩ := connect_refused isReconnect hc
    rw [hrun] at hnext ⊢
    exact hw.opened ho hnext

theorem Spared.runQuery (hw : Spared h T w₀ w)
    (hT : Resends lib w → ∀ entry ∈ w₀.preparedStatements, T entry.2) (fuel : ℕ) :
    Spared h T w₀ (final ((runQuery lib fuel action query).run w)) := by
  refine final_runQuery (stableAt_spared queryFns) spared_pushCompleted ?_
  refine final_send ((stableAt_spared [.realQuery]).mysqlRealQuery (by decide) (spared_record _))
    (fun hlost w₁ hframe hw₁ => hw₁.connect (fun hc => hT ⟨hlost, ?_⟩) true) fuel hw
  exact (connects_congr hframe (by decide) (by decide) (by decide)).mp hc

theorem Spared.runStatement (hw : Spared h T w₀ w) (hs : T s)
    (hT : .reconnect ∈ statementPlan lib w → ∀ entry ∈ w₀.preparedStatements, T entry.2)
    (fuel : ℕ) :
    Spared h T w₀ (final ((runStatement lib fuel s binds action).run w)) := by
  have hA : ∀ v, Spared h T w₀ v → ∀ i ∈ (v.stmt s).stmt, i ≠ h := by
    rintro v hv i hi rfl
    exact hv.free s hs hi
  refine final_runStatement (stableAt_spared statementFns)
    (fun f v hv => ⟨hv.handle, hv.others, hv.lt, hv.free, hv.preparedStatements,
      hv.completedActions⟩) hA
    spared_pushCompleted ?_
  refine final_executions_when (Q := False) (c := decide (Connects lib w))
    ((stableAt_spared [.stmtExecute]).attempt (by decide) (fun _ _ => spared_record _) hA _)
    (fun v hv _ => hv.prepare hs) fuel 2 (by decide) (fun _ => decide_eq_true_iff)
      (fun v hv hconn => ?_) False.elim hw
  exact hv.connect (fun hc => hT (hconn hc).2) true

theorem spared_mysqlOptions : Preserves (Spared h T w₀) (mysqlOptions lib) :=
  ((stableAt_spared [.options]).tick (by decide)).bind fun _ =>
    ((stableAt_spared []).reportConn _).bind fun _ => Preserves.pure _

theorem spared_setCharacterSet (charset : Bytes) :
    Preserves (Spared h T w₀) (setCharacterSet lib charset) := by
  have hset : Preserves (Spared h T w₀) (mysqlSetCharacterSet lib charset) :=
    (spared_record _).bind fun _ => ((stableAt_spared [.setCharacterSet]).tick (by decide)).bind
      fun _ =>
      ((stableAt_spared []).reportConn _).bind fun _ => Preserves.pure _
  have hcopy : Preserves (Spared h T w₀)
      (modify fun w => { w with charSet := (cString charset).take 64 } : Io Unit) :=
    Preserves.modify fun v hv =>
      ⟨hv.handle, hv.others, hv.lt, hv.free, hv.preparedStatements, hv.completedActions⟩
  exact hset.bind fun _ => Preserves.ite (preserves_mysqlError.bind fun _ => Preserves.pure _)
    (hcopy.bind fun _ => Preserves.pure _)

/-! ### What the script reads -/

/-- Entry `i` of the completed actions has one result, whose table tells `e`, whatever is read
where storage is invalid. -/
def World.Told (w : World) (i : ℕ) (action : DatabaseAction) (e : LibError) : Prop :=
  ∃ r, w.completedActions[i]? = some (action, [r]) ∧ ∀ read, w.Reads read → ∀ useNumbers,
    r.populateLuaTable read useNumbers = some ⟨false, some e.text, some e.errno, none, none, none⟩

/-- The buffer of an open handle is read as it is. -/
theorem told_of_open {i : ℕ} {mem : Storage} (hopen : (w.handle h).closed = false)
    (herror : (w.handle h).error = e.diag) (hentry : w.completedActions[i]? =
      some (action, [.ofError mem e.errno (.handle h) e.diag])) : w.Told i action e := by
  refine ⟨_, hentry, fun read hread useNumbers => ?_⟩
  have htext : read (.handle h) = e.text := by
    apply hread
    show (if (w.handle h).closed then none else some (w.handle h).error.text) = some e.text
    rw [hopen, herror]
    rfl
  have herrno : (Result.ofError mem e.errno (.handle h) e.diag).iError ≠ 0 := e.diag_errno_ne
  unfold Result.populateLuaTable
  rw [if_pos herrno]
  show some (⟨false, some (read (.handle h)), some e.errno, none, none, none⟩ : ResultTable) = _
  rw [htext]

namespace Lifetime

variable {c : Credentials} {x x' y : Lifetime} {op : Operation} {i : ℕ}

/-! ### Statements with handles of their own -/

/-- No two statements have one handle, and the statements that can be used are numbered. -/
structure Separate (x : Lifetime) : Prop where
  valid : Valid (fun _ => False) x.world.holding
  prepared : ∀ s ∈ x.prepared.map Prod.snd, s < x.world.nextStmt
  cached : ∀ entry ∈ x.world.preparedStatements, entry.2 < x.world.nextStmt

theorem separate_create (c : Credentials) : Separate (create c) :=
  ⟨⟨nofun, nofun, nofun⟩, nofun, nofun⟩

theorem Separate.kept (hx : Separate x) (hkept : Kept x.world x'.world)
    (hvalid : Valid (fun _ => False) x'.world.holding) (hprepared : x'.prepared = x.prepared) :
    Separate x' := by
  refine ⟨hvalid, ?_, ?_⟩
  · rw [hprepared, hkept.nextStmt]
    exact hx.prepared
  · rw [hkept.preparedStatements, hkept.nextStmt]
    exact hx.cached

theorem Separate.constructed {r : Option StmtId} (hx : Separate x)
    (hconstructed : Constructed lib query x.world r w') : Separate (x.returned query (r, w')) := by
  have hworld : (x.returned query (r, w')).world = w' := by cases r <;> rfl
  obtain ⟨hnext, -, -⟩ := hconstructed.stmt
  have hvalid : Valid (fun _ => False) w'.holding := hconstructed.valid hx.valid
  have hold : ∀ s, s < x.world.nextStmt → s < w'.nextStmt := by
    intro s hs
    rw [hnext]
    exact Nat.lt_succ_of_lt hs
  have hnew : x.world.nextStmt < w'.nextStmt := hnext ▸ Nat.lt_succ_self _
  obtain ⟨-, rfl, hentries⟩ | ⟨-, rfl, hentries⟩ := hconstructed.returns
  · refine ⟨hworld ▸ hvalid, fun s hs => ?_, fun entry hentry => ?_⟩
    · obtain ⟨⟨q, t⟩, ht, rfl⟩ := List.mem_map.mp hs
      obtain ⟨⟩ | ⟨_, ht⟩ := ht
      · exact hnew
      · exact hold _ (hx.prepared _ (List.mem_map_of_mem ht))
    · have hentry : entry ∈ w'.preparedStatements := hentry
      rw [hentries, (mapInsert_perm hconstructed.miss _).mem_iff, List.mem_cons] at hentry
      obtain rfl | hentry := hentry
      · exact hnew
      · exact hold _ (hx.cached entry hentry)
  · refine ⟨hworld ▸ hvalid, fun s hs => hold s (hx.prepared s hs), fun entry hentry => ?_⟩
    have hentry : entry ∈ w'.preparedStatements := hentry
    rw [hentries] at hentry
    exact hold _ (hx.cached entry hentry)

/-- One operation. -/
theorem Separate.step (hx : Separate x) (hs : Steps lib x op x') : Separate x' := by
  have hpersistent : Persistent lib (fun _ => True) (fun _ => True) fun w =>
      Kept x.world w ∧ Valid (fun _ => False) w.holding :=
    persistent_holding (fun _ _ => trivial) fun _ _ _ _ hrenewed hvalid => hrenewed.valid hvalid
  have hstart : Kept x.world x.world ∧ Valid (fun _ => False) x.world.holding := ⟨.refl _, hx.valid⟩
  cases hs with
  | setOption => exact hx.kept ⟨rfl, rfl, fun _ => rfl⟩ hx.valid rfl
  | connect _ hrun =>
      obtain ⟨-, hprepared, hworld | hworld⟩ := initialize_cases hrun
      · exact hx.kept (hworld ▸ .refl _) (hworld ▸ hx.valid) hprepared
      · obtain ⟨hkept, hvalid⟩ := hpersistent.connect false _ hstart
        rw [← hworld] at hkept hvalid
        exact hx.kept hkept hvalid hprepared
  | setCharacterSet charset =>
      obtain ⟨hkept, hvalid⟩ := hpersistent.sets charset _ hstart
      exact hx.kept hkept hvalid rfl
  | query hrun =>
      obtain ⟨hkept, hvalid⟩ := (hpersistent.runQuery trivial _ _).ok hrun hstart
      exact hx.kept hkept hvalid rfl
  | @hit query s hlookup =>
      refine ⟨hx.valid, ?_, hx.cached⟩
      rintro t (_ | ⟨_, ht⟩)
      · exact hx.cached (cString query, s) (mem_of_lookup_eq_some hlookup)
      · exact hx.prepared t ht
  | miss hconstructed => exact hx.constructed hconstructed
  | run _ hrun =>
      obtain ⟨hkept, hvalid⟩ :=
        (hpersistent.runStatement (fun _ _ => trivial) trivial _ _ _).ok hrun hstart
      exact hx.kept hkept hvalid rfl
  | poll => exact hx.kept ⟨rfl, rfl, fun _ => rfl⟩ hx.valid rfl
  | @release s _ =>
      have hkept := kept_closing (x.world.stmt s).stmt x.world
      have hclosed : (x.world.release s).holding = x.world.holding.close s :=
        holding_closing s x.world
      refine ⟨?_, ?_, fun entry hentry => ?_⟩
      · show Valid _ (x.world.release s).holding
        rw [hclosed]
        exact (hx.valid.close s).congr fun _ _ hfalse => hfalse.elim
      · intro t ht
        exact Nat.lt_of_lt_of_eq (hx.prepared t ht) hkept.nextStmt.symm
      · exact Nat.lt_of_lt_of_eq (hx.cached entry (List.mem_of_mem_filter hentry))
          hkept.nextStmt.symm
  | stop => exact hx.kept (.refl _) hx.valid rfl
  | close =>
      refine hx.kept (kept_closeAll _ _) ?_ rfl
      rw [holding_closeAll]
      exact (hx.valid.closeAll _).congr fun _ _ hfalse => hfalse.elim

/-! ### The wait for the poll -/

/-- The operation does not poll, and it does not execute the
statement, prepare it again or finalize it. -/
def LeavesAlone (lib : Lib) (s : StmtId) (x : Lifetime) : Operation → Prop
  | .query .. => Resends lib x.world → s ∉ x.world.preparedStatements.map Prod.snd
  | .run _ t _ _ =>
      t ≠ s ∧ (.reconnect ∈ statementPlan lib x.world → s ∉ x.world.preparedStatements.map Prod.snd)
  | .release t => t ≠ s
  | .poll | .close => False
  | _ => True

instance (lib : Lib) (s : StmtId) (x : Lifetime) (op : Operation) :
    Decidable (LeavesAlone lib s x op) :=
  match op with
  | .query .. => inferInstanceAs (Decidable (_ → _))
  | .run .. => inferInstanceAs (Decidable (_ ∧ (_ → _)))
  | .release _ => inferInstanceAs (Decidable (_ ≠ _))
  | .poll | .close => isFalse not_false
  | .setOption | .connect _ | .setCharacterSet _ | .prepare _ | .stop => isTrue trivial

/-- What `Prepare` has returned stays returned. -/
theorem prepared_subset (hs : Steps lib x op x') : x.prepared ⊆ x'.prepared := by
  cases hs with
  | connect _ hrun =>
      obtain ⟨-, hprepared, -⟩ := initialize_cases hrun
      rw [hprepared]
      exact List.Subset.refl _
  | hit _ => exact List.subset_cons_self _ _
  | @miss query r w' _ =>
      cases r with
      | none => exact List.Subset.refl _
      | some s => exact List.subset_cons_self _ _
  | _ => exact List.Subset.refl _

/-- Entry `i` of the completed actions waits for the poll,
with its text in the buffer of the handle of `s`. -/
structure Awaits (s : StmtId) (h : HandleId) (e : LibError) (action : DatabaseAction) (i : ℕ)
    (x : Lifetime) : Prop extends Separate x where
  known : s ∈ x.prepared.map Prod.snd
  started : x.phase ≠ .created
  held : (x.world.stmt s).stmt = some h
  opened : (x.world.handle h).closed = false
  error : (x.world.handle h).error = e.diag
  entry : ∃ mem, x.world.completedActions[i]? =
    some (action, [.ofError mem e.errno (.handle h) e.diag])

theorem Awaits.told (hx : Awaits s h e action i x) : x.world.Told i action e := by
  obtain ⟨mem, hentry⟩ := hx.entry
  exact told_of_open hx.opened hx.error hentry

theorem Awaits.lt (hx : Awaits s h e action i x) : h < x.world.nextHandle := hx.valid.lt s h hx.held

/-- No other statement has the handle. -/
theorem Awaits.free (hx : Awaits s h e action i x) (t : StmtId) (ht : t ≠ s) :
    (x.world.stmt t).stmt ≠ some h := by
  intro hheld
  exact ht (hx.valid.inj t s h hheld hx.held)

theorem Awaits.spared (hx : Awaits s h e action i x) : Spared h (· ≠ s) x.world x.world :=
  ⟨rfl, fun _ _ => rfl, hx.lt, hx.free, rfl, List.prefix_rfl⟩

/-- What leaves the handle alone leaves the text alone. -/
theorem Awaits.kept (hx : Awaits s h e action i x) (hseparate : Separate x')
    (hprepared : x.prepared ⊆ x'.prepared) (hphase : x'.phase ≠ .created)
    (hhandle : x'.world.handle h = x.world.handle h) (hstmt : x'.world.stmt s = x.world.stmt s)
    (hcompleted : x.world.completedActions <+: x'.world.completedActions) :
    Awaits s h e action i x' := by
  refine ⟨hseparate, List.map_subset _ hprepared hx.known, hphase, ?_, ?_, ?_, ?_⟩
  · rw [hstmt]
    exact hx.held
  · rw [hhandle]
    exact hx.opened
  · rw [hhandle]
    exact hx.error
  · obtain ⟨mem, hentry⟩ := hx.entry
    obtain ⟨more, hmore⟩ := hcompleted
    refine ⟨mem, ?_⟩
    rw [← hmore, List.getElem?_append_left (List.getElem?_eq_some_iff.mp hentry).1]
    exact hentry

theorem Awaits.of_spared (hx : Awaits s h e action i x) (hseparate : Separate x')
    (hprepared : x.prepared ⊆ x'.prepared) (hphase : x'.phase ≠ .created)
    (hspared : Spared h (· ≠ s) x.world x'.world) : Awaits s h e action i x' :=
  hx.kept hseparate hprepared hphase hspared.handle (hspared.others s fun hne => hne rfl)
    hspared.completedActions

/-- One operation. -/
theorem Awaits.step (hx : Awaits s h e action i x) (ha : LeavesAlone lib s x op)
    (hs : Steps lib x op x') : Awaits s h e action i x' := by
  have hseparate := hx.toSeparate.step hs
  have hprepared := prepared_subset hs
  have hcached : s ∉ x.world.preparedStatements.map Prod.snd →
      ∀ entry ∈ x.world.preparedStatements, entry.2 ≠ s := by
    rintro hnot entry hentry rfl
    exact hnot (List.mem_map_of_mem hentry)
  cases hs with
  | setOption => exact hx.of_spared hseparate hprepared hx.started (spared_mysqlOptions _ hx.spared)
  | connect created _ => exact absurd created hx.started
  | setCharacterSet charset =>
      exact hx.of_spared hseparate hprepared hx.started (spared_setCharacterSet charset _ hx.spared)
  | @query fuel action' query w' hrun =>
      have hspared : Spared h (· ≠ s) x.world
          (final ((Handler.runQuery lib fuel action' (cString query)).run x.world)) :=
        hx.spared.runQuery (fun hr => hcached (ha hr)) fuel
      rw [hrun] at hspared
      exact hx.of_spared hseparate hprepared hx.started hspared
  | hit _ => exact hx.kept hseparate hprepared hx.started rfl rfl List.prefix_rfl
  | @miss query r w' hconstructed =>
      have hworld : (x.returned query (r, w')).world = w' := by cases r <;> rfl
      have hphase : (x.returned query (r, w')).phase = x.phase := by cases r <;> rfl
      have hne : s ≠ x.world.nextStmt := Nat.ne_of_lt (hx.prepared s hx.known)
      have hstart : Spared h (· ≠ s) x.world (x.world.waiting.allocating (cString query)) := by
        refine ⟨rfl, fun t ht => ?_, hx.lt, fun t ht => ?_, rfl, List.prefix_rfl⟩
        · obtain rfl : t = s := not_not.mp ht
          exact Function.update_of_ne hne _ _
        · by_cases hnew : t = x.world.nextStmt
          · subst hnew
            simp [World.allocating, World.waiting]
          · have hsame : (x.world.waiting.allocating (cString query)).stmt t = x.world.stmt t :=
              Function.update_of_ne hnew _ _
            rw [hsame]
            exact hx.free t ht
      have hspared : Spared h (· ≠ s) x.world
          (final ((Handler.prepare lib x.world.nextStmt).run
            (x.world.waiting.allocating (cString query)))) :=
        hstart.prepare (Ne.symm hne)
      obtain ⟨entries, hw'⟩ := hconstructed.leaves
      refine hx.kept hseparate hprepared (hphase ▸ hx.started) ?_ ?_ ?_
      · rw [hworld, hw']
        exact hspared.handle
      · rw [hworld, hw']
        exact hspared.others s fun hne => hne rfl
      · rw [hworld, hw']
        exact hspared.completedActions
  | @run fuel t binds action' w' _ hrun =>
      have hspared : Spared h (· ≠ s) x.world
          (final ((Handler.runStatement lib fuel t binds action').run x.world)) :=
        hx.spared.runStatement ha.1 (fun hr => hcached (ha.2 hr)) fuel
      rw [hrun] at hspared
      exact hx.of_spared hseparate hprepared hx.started hspared
  | poll => exact ha.elim
  | @release t _ =>
      obtain ⟨-, hstmt, -, -⟩ := closing_eq (x.world.stmt t).stmt x.world
      refine hx.kept hseparate hprepared hx.started ?_ ?_ ?_
      · exact closing_handle (hx.free t ha)
      · exact congrFun hstmt s
      · show x.world.completedActions <+: (x.world.closing (x.world.stmt t).stmt).completedActions
        cases (x.world.stmt t).stmt <;> exact List.prefix_rfl
  | stop =>
      refine hx.kept hseparate hprepared ?_ rfl rfl List.prefix_rfl
      intro hcreated
      cases hcreated
  | close => exact ha.elim

/-- A run whose last execution has failed waits from then on. -/
theorem awaits_run {fuel : ℕ} (hx : Separate x)
    (hopen : ∀ h ∈ (x.world.stmt s).stmt, (x.world.handle h).closed = false)
    (hrec : Recovers lib x.world) (hlast : lastExecution lib x.world = some e)
    (hs : x.step lib (.run fuel s binds action) = some x') :
    ∃ h, Awaits s h e action x.world.completedActions.length x' := by
  have hphase : x.phase = .connected := (Option.ite_none_right_eq_some.mp hs).1.1
  have hseparate := hx.step (steps_of_step hs)
  cases steps_of_step hs with
  | @run _ _ _ _ w' hknown hrun =>
      obtain ⟨h, mem, hheld, herror, hpushed⟩ := runStatement_failed hrec hlast hrun
      -- the handle that the statement has in the end is open, old or new
      have hpersistent : Persistent lib (fun _ => True) (fun _ => True) fun w =>
          Kept x.world w ∧ Valid (· = s) w.holding :=
        persistent_holding (fun _ _ => trivial) fun _ _ _ _ hrenewed hvalid => hrenewed.valid hvalid
      have hvalid : Valid (· = s) x.world.holding := by
        refine ⟨hx.valid.lt, hx.valid.inj, ?_⟩
        rintro t rfl i hi
        exact hopen i hi
      obtain ⟨-, hvalid⟩ :=
        (hpersistent.runStatement (fun _ _ => trivial) trivial fuel binds action).ok hrun
        ⟨.refl _, hvalid⟩
      refine ⟨h, hseparate, hknown, ?_, hheld, hvalid.held_open s rfl h hheld, herror, mem, ?_⟩
      · show x.phase ≠ .created
        intro hcreated
        rw [hphase] at hcreated
        cases hcreated
      · show w'.completedActions[x.world.completedActions.length]? = _
        rw [hpushed, List.getElem?_concat_length]

/-- **An execution's error is told.** When the last execution of a statement run fails on an open
handle, and until the poll nothing executes the statement, prepares it again or finalizes it, the
script reads the code and the text of that failure. -/
theorem execution_error_told {tr tr' : List Operation} {fuel : ℕ}
    (h : Transition.exec (Lifetime.step lib) (create c) tr = some x)
    (hopen : ∀ h ∈ (x.world.stmt s).stmt, (x.world.handle h).closed = false)
    (hrec : Recovers lib x.world) (hlast : lastExecution lib x.world = some e)
    (hs : x.step lib (.run fuel s binds action) = some x')
    (ha : Transition.Along (Lifetime.step lib) (LeavesAlone lib s) x' tr')
    (h' : Transition.exec (Lifetime.step lib) x' tr' = some y) :
    y.world.Told x.world.completedActions.length action e := by
  have hseparate : Separate x :=
    Transition.exec_inv' (I := Separate) (fun _ _ _ hI hs => hI.step (steps_of_step hs))
      (separate_create c) h
  obtain ⟨i, hawaits⟩ := awaits_run hseparate hopen hrec hlast hs
  have hy : Awaits s i e action x.world.completedActions.length y :=
    Transition.exec_inv (fun _ _ _ hI ha hs => hI.step ha (steps_of_step hs)) hawaits ha h'
  exact hy.told

/-- The first execution fails. -/
def failsOnce : Lib :=
  { Lib.calm with
    stmtExecute := fun k => if k = 0 then some .noSuchTable else none }

/-- A query, another statement, a preparation and a finalizer come before the poll. -/
theorem execution_error_told_failsOnce : ∃ x x' y,
    Transition.exec (Lifetime.step failsOnce) (create ⟨[], [], [], [], 3306, [], 0⟩)
      [.connect false, .prepare [97], .prepare [98]] = some x ∧
    x.step failsOnce (.run 1 0 [] ⟨0, true⟩) = some x' ∧
    Transition.exec (Lifetime.step failsOnce) x'
      [.query 2 ⟨1, true⟩ [99], .run 1 1 [] ⟨2, true⟩, .prepare [99], .release 1] = some y ∧
    y.world.Told x.world.completedActions.length ⟨0, true⟩ .noSuchTable := by
  have hrun : ((Transition.exec (Lifetime.step failsOnce) (create ⟨[], [], [], [], 3306, [], 0⟩)
      [.connect false, .prepare [97], .prepare [98]]).bind fun x =>
        (x.step failsOnce (.run 1 0 [] ⟨0, true⟩)).bind fun x' =>
        (Transition.exec (Lifetime.step failsOnce) x'
          [.query 2 ⟨1, true⟩ [99], .run 1 1 [] ⟨2, true⟩, .prepare [99], .release 1]).map fun _ =>
        decide ((∀ h ∈ (x.world.stmt 0).stmt, (x.world.handle h).closed = false) ∧
          Recovers failsOnce x.world ∧ lastExecution failsOnce x.world = some .noSuchTable ∧
          Transition.Along (Lifetime.step failsOnce) (LeavesAlone failsOnce 0) x'
            [.query 2 ⟨1, true⟩ [99], .run 1 1 [] ⟨2, true⟩, .prepare [99], .release 1])) =
              some true := by decide +kernel
  obtain ⟨x, hx, hrest⟩ := Option.bind_eq_some_iff.mp hrun
  obtain ⟨x', hx', hrest⟩ := Option.bind_eq_some_iff.mp hrest
  obtain ⟨y, hy, hguards⟩ := Option.map_eq_some_iff.mp hrest
  obtain ⟨hopen, hrec, hlast, ha⟩ := of_decide_eq_true hguards
  exact ⟨x, x', y, hx, hx', hy, execution_error_told hx hopen hrec hlast hx' ha hy⟩

end Lifetime

end Tmysql4.Handler
