import Tmysql4.Barrier

/-! # The cache of prepared statements

`m_preparedStatements` is filled by `lua_Prepare` from an object that the io thread has built,
emptied by key from the finalizers and walked at release.  `CacheCorrect` says what Lua code can
rely on: the cache of a connected database and its live statements are in bijection, a statement
is found again by its query and by no other, a cached query is answered without the io thread, and
a preparation that fails changes nothing. -/

namespace Tmysql4
namespace State

variable {s s' s₁ s₂ : State} {l : Label} {d : DbId} {query : Bytes} {sid : StmtId}

/-! ### The live statements -/

/-- Every live statement has been returned to Lua, or `lua_Prepare` is about to insert it. -/
def Returned (s : State) : Prop := ∀ sid, (s.stmt sid).live = true →
  (s.stmt sid).handle = .pointer ∨ s.Inserting sid

theorem returned_step (h : s.Returned) (hw : s.Wf) (he : s.Effect l s') : s'.Returned := by
  intro sid hlive
  have hw' := hw.statements.effect hw.lifecycle he
  obtain hlt | ⟨d, query, live, running, rfl, rfl⟩ := created_effect he (hw'.lt_of_live hlive)
  · obtain ⟨hlive', hhandle⟩ := live_of_effect hw.lifecycle he hlt hlive
    obtain hpointer | hi := h sid hlive'
    · exact .inl (hhandle hpointer)
    · obtain hi | ⟨-, hpointer⟩ := inserting_effect hi hw he
      · exact .inr hi
      · exact .inl hpointer
  · exact .inr (inserting_created hw running)

/-- A statement of `d` that was prepared for `query` and returned to Lua. -/
structure Found (s : State) (d : DbId) (query : Bytes) (sid : StmtId) : Prop where
  known : sid < s.nextStmt
  database : (s.stmt sid).database = d
  query : (s.stmt sid).query = query
  handle : (s.stmt sid).handle ≠ .absent

theorem found_step (h : s.Found d query sid) (hw : s.Wf) (hs : s.step l = some s') :
    s'.Found d query sid := by
  obtain ⟨hknown, hdatabase, hquery, hhandle⟩ := h
  obtain ⟨-, he | ⟨f, -, rfl⟩⟩ := step_effect hs
  · cases he with
    | stay turn => exact ⟨hknown, hdatabase, hquery, hhandle⟩
    | dbConnectFailed d' r calls idle failed can =>
        exact absurd can (hw.lifecycle.not_canRelease idle failed)
    | created d' ok query' live running =>
        have hne : sid ≠ s.nextStmt := Nat.ne_of_lt hknown
        refine ⟨?_, by simpa [hne] using hdatabase, by simpa [hne] using hquery,
          by simpa [hne] using hhandle⟩
        simp
        grind
    | release d' stack top can =>
        refine ⟨hknown, ?_, ?_, ?_⟩ <;> simp <;> grind
    | prepareCached | prepareDone | stmtGc =>
        refine ⟨hknown, ?_, ?_, ?_⟩ <;> simp <;> grind
    | _ =>
        exact ⟨by simpa using hknown, by simpa using hdatabase, by simpa using hquery,
          by simpa using hhandle⟩
  · exact ⟨hknown, hdatabase, hquery, hhandle⟩

/-- The step returns the statement `sid` from `lua_Prepare` on `d`: a cached one at once, a new
one after the wait. -/
inductive Prepares (s : State) (d : DbId) (query : Bytes) (sid : StmtId) : Label → Prop
  | cached (calls : s.Calls d) (connected : (s.db d).isConnected = true)
      (cached : (s.db d).preparedStatements.lookup query = some sid) :
      Prepares s d query sid (.prepare d query)
  | created (stack : List Frame) (top : s.stack = .prepare d query :: stack)
      (done : s.waiter = some (some sid)) : Prepares s d query sid .cpp

theorem found_prepares (hr : s.Returned) (hw : s.Wf) (hp : s.Prepares d query sid l)
    (hs : s.step l = some s') : s'.Found d query sid := by
  cases hp with
  | cached calls connected cached =>
      have hcached := hw.statements.cached d connected
      have hm := mem_of_lookup cached
      have hlive := hcached.live _ hm
      refine found_step ⟨hw.statements.lt_of_live hlive, hcached.database _ hm, hcached.query _ hm,
        ?_⟩ hw hs
      obtain hpointer | ⟨query', stack, top, -⟩ := hr sid hlive
      · rw [hpointer]
        exact nofun
      · exact absurd top (Statements.not_prepare_of_turn calls.turn)
  | created stack top done =>
      have hwait := hw.statements.waiting d query stack top
      have hsid := hwait.created sid done
      have hlt : sid < s.nextStmt := hw.statements.lt_of_live (by rw [hsid])
      obtain ⟨-, he | ⟨f, hc, rfl⟩⟩ := step_effect hs
      · cases he with
        | stay turn => exact absurd top (Statements.not_prepare_of_turn turn)
        | prepareDone d' query' sid' stack' top' done' live =>
            rw [top] at top'
            rw [done] at done'
            cases top'
            cases done'
            exact ⟨hlt, by simp [hsid], by simp [hsid], by simp [hsid]⟩
        | prepareFailed d' query' stack' top' done' =>
            rw [done] at done'
            cases done'
        | dispatchDone | dispatchSkip | dispatchStart | pollPop | connectDone | waitDone | release
        | destroy =>
            simp_all
      · exact absurd hc (not_crash_prepare hw (.inr ⟨rfl, stack, top⟩))

/-! ### Cached queries and failures -/

theorem pushStmtHandle_of_pointer (h : (s.stmt sid).handle = .pointer) :
    s.pushStmtHandle sid = s := by
  have hne : ¬ (s.stmt sid).handle = .absent := by simp [h]
  simp only [pushStmtHandle, modifyStmt, hne, if_false]
  exact congrArg (fun f => { s with stmt := f }) (Function.update_eq_self sid s.stmt)

/-- A cached query is answered at once, and nothing changes. -/
theorem prepare_cached (hr : s.Returned) (hw : s.Wf) (handle : (s.db d).handle = .pointer)
    (connected : (s.db d).isConnected = true)
    (cached : (s.db d).preparedStatements.lookup query = some sid)
    (hs : s.step (.prepare d query) = some s') : s' = s := by
  have hlive := (hw.statements.cached d connected).live _ (mem_of_lookup cached)
  have hdb := (hw.lifecycle.ok d).connected_live connected
  unfold step at hs
  split at hs
  · cases hs
  · simp only [action] at hs
    split at hs
    · rename_i turn
      have hpointer : (s.stmt sid).handle = .pointer := by
        obtain hpointer | ⟨query', stack, top, -⟩ := hr sid hlive
        · exact hpointer
        · exact absurd top (Statements.not_prepare_of_turn turn)
      have hprepare : s.luaPrepare d query = .ok s := by
        simp [luaPrepare, getDatabaseFromStack, access, accessStmt, handle, hdb, connected, cached,
          hlive, -pushStmtHandle, pushStmtHandle_of_pointer hpointer]
      rw [luaCall, method, if_neg (by simp [handle]), hprepare] at hs
      exact (Option.some.inj hs).symm
    · cases hs

/-- What a waiting `lua_Prepare` has not changed since its call from `s₁`. -/
structure Waited (s₁ s : State) (d : DbId) (query : Bytes) : Prop where
  stack : s.stack = .prepare d query :: s₁.stack
  cache : ∀ d', (s.db d').preparedStatements = (s₁.db d').preparedStatements
  handle : ∀ d', (s.db d').handle = (s₁.db d').handle
  databases : s.databases = s₁.databases
  stmt : (∀ sid, s.waiter ≠ some (some sid)) → s.stmt = s₁.stmt

theorem waited_step (h : Waited s₁ s d query) (hw : s.Wf) (io : l.isIo = true)
    (hs : s.step l = some s') : Waited s₁ s' d query := by
  obtain ⟨hstack, hcache, hhandle, hdatabases, hstmt⟩ := h
  obtain ⟨-, he | ⟨f, -, rfl⟩⟩ := step_effect hs
  · cases he with
    | stay turn => exact ⟨hstack, hcache, hhandle, hdatabases, hstmt⟩
    | take | reconnected | finish | stop =>
        refine ⟨hstack, fun d' => ?_, fun d' => ?_, hdatabases, hstmt⟩
        · rw [← hcache d']
          simp
          grind
        · rw [← hhandle d']
          simp
          grind
    | created d' ok query' live running =>
        obtain ⟨query'', stack, top, done⟩ := creating_top hw.statements running
        refine ⟨by simpa using hstack, fun d' => ?_, fun d' => ?_, by simpa using hdatabases,
          fun hnone => ?_⟩
        · rw [← hcache d']
          simp
          grind
        · rw [← hhandle d']
          simp
          grind
        · rw [← hstmt (by simp [done])]
          funext sid
          cases ok with
          | false => simp
          | true => simp at hnone
    | _ => cases io
  · exact ⟨hstack, hcache, hhandle, hdatabases, hstmt⟩

theorem waited_exec (h : Waited s₁ s d query) (hw : s.Wf) {tr : List Label}
    (io : ∀ l ∈ tr, l.isIo = true) (hs : Transition.exec State.step s tr = some s') :
    Waited s₁ s' d query := by
  induction tr generalizing s with
  | nil =>
      cases hs
      exact h
  | cons l tr ih =>
      obtain ⟨s₂, hs₂, hrest⟩ := Transition.exec_cons_iff.mp hs
      exact ih (waited_step h hw (io l (by simp)) hs₂) (hw.step hs₂)
        (fun l hl => io l (by simp [hl])) hrest

theorem stack_exec {tr : List Label} (io : ∀ l ∈ tr, l.isIo = true)
    (hs : Transition.exec State.step s tr = some s') : s'.stack = s.stack := by
  induction tr generalizing s with
  | nil =>
      cases hs
      rfl
  | cons l tr ih =>
      obtain ⟨s₂, hs₂, hrest⟩ := Transition.exec_cons_iff.mp hs
      rw [ih (fun l hl => io l (by simp [hl])) hrest]
      have hio := io l (by simp)
      obtain ⟨-, he | ⟨f, -, rfl⟩⟩ := step_effect hs₂
      · cases he with
        | take | reconnected | finish | created | stop => simp
        | stay turn => rfl
        | _ => cases hio
      · rfl

/-- The call of a `lua_Prepare` that waits. -/
theorem waited_call (hw : s₁.Wf) (hs : s₁.step (.prepare d query) = some s₂)
    (top : s₂.stack = .prepare d query :: s₁.stack) : Waited s₁ s₂ d query := by
  have hne : s₁.stack ≠ .prepare d query :: s₁.stack := fun h => by
    simpa using congrArg List.length h
  obtain ⟨-, he | ⟨f, hc, rfl⟩⟩ := step_effect hs
  · cases he with
    | stay turn => exact absurd top hne
    | prepareCached => exact absurd top hne
    | prepare d query calls connected uncached =>
        refine ⟨rfl, fun d' => ?_, fun d' => ?_, rfl, fun _ => rfl⟩
        · simp
          grind
        · simp
          grind
  · exact absurd hc (not_crash_prepare hw (.inl rfl))

theorem waiter_call (hw : s₁.Wf) (hs : s₁.step (.prepare d query) = some s₂)
    (top : s₂.stack = .prepare d query :: s₁.stack) : s₂.waiter = none := by
  have hne : s₁.stack ≠ .prepare d query :: s₁.stack := fun h => by
    simpa using congrArg List.length h
  obtain ⟨-, he | ⟨f, hc, rfl⟩⟩ := step_effect hs
  · cases he with
    | stay turn => exact absurd top hne
    | prepareCached => exact absurd top hne
    | prepare d query calls connected uncached => rfl
  · exact absurd hc (not_crash_prepare hw (.inl rfl))

/-- A preparation that failed leaves the caches, the handles
and the table of databases as they were. -/
theorem prepare_failed (hw : s₁.Wf) (hcall : s₁.step (.prepare d query) = some s₂)
    {tr : List Label} (io : ∀ l ∈ tr, l.isIo = true)
    (hs : Transition.exec State.step s₂ tr = some s) (top : s.stack = .prepare d query :: s₁.stack)
    (failed : s.waiter = some none) (hreturn : s.step .cpp = some s') :
    s'.stack = s₁.stack ∧ (∀ d', (s'.db d').preparedStatements = (s₁.db d').preparedStatements) ∧
      (∀ d', (s'.db d').handle = (s₁.db d').handle) ∧ s'.stmt = s₁.stmt ∧
        s'.databases = s₁.databases := by
  have hw₂ := hw.step hcall
  have hw' : s.Wf := Transition.exec_inv' (fun _ _ _ hI hs => hI.step hs) hw₂ hs
  have hwaited := waited_exec (waited_call hw hcall (by rw [← stack_exec io hs, top])) hw₂ io hs
  have hstmt := hwaited.stmt (by simp [failed])
  obtain ⟨-, he | ⟨f, hc, rfl⟩⟩ := step_effect hreturn
  · cases he with
    | stay turn => exact absurd top (Statements.not_prepare_of_turn turn)
    | prepareDone d' query' sid' stack' top' done' live =>
        rw [failed] at done'
        cases done'
    | prepareFailed d' query' stack' top' done' =>
        rw [top] at top'
        cases top'
        exact ⟨rfl, hwaited.cache, hwaited.handle, hstmt, hwaited.databases⟩
    | dispatchDone | dispatchSkip | dispatchStart | pollPop | connectDone | waitDone | release
    | destroy =>
        simp_all
  · exact absurd hc (not_crash_prepare hw' (.inr ⟨rfl, _, top⟩))

/-! ### The cache of a connected database -/

/-- The live statements of `d` and the entries of its cache are in bijection. -/
structure Caches (s : State) (d : DbId) : Prop where
  entry : ∀ query sid, (query, sid) ∈ (s.db d).preparedStatements →
    (s.stmt sid).live = true ∧ (s.stmt sid).query = query ∧ (s.stmt sid).database = d
  keys : ((s.db d).preparedStatements.map (·.1)).Nodup
  once : ∀ sid, (s.stmt sid).live = true → (s.stmt sid).database = d → (s.cached d).count sid = 1

theorem registered_of_live (hr : s.Returned) (hw : s.Wf) (turn : s.luaTurn = true)
    (hlive : (s.stmt sid).live = true) : s.Registered sid := by
  obtain hpointer | ⟨query, stack, top, -⟩ := hr sid hlive
  · exact hw.statements.pointer sid hpointer
  · exact absurd top (Statements.not_prepare_of_turn turn)

theorem caches_of_turn (hr : s.Returned) (hw : s.Wf) (turn : s.luaTurn = true)
    (connected : (s.db d).isConnected = true) : s.Caches d := by
  have hcached := hw.statements.cached d connected
  refine ⟨fun query sid hm => ⟨hcached.live _ hm, hcached.query _ hm, hcached.database _ hm⟩,
    hcached.keys, fun sid hlive hdb => ?_⟩
  have hm := (registered_of_live hr hw turn hlive).mem
  rw [hdb] at hm
  exact List.count_eq_one_of_mem hcached.values (List.mem_map_of_mem hm)

/-- Live statements that were returned for two queries are the same exactly when the queries are. -/
theorem found_inj (hr : s.Returned) (hw : s.Wf) {query' : Bytes} {sid' : StmtId}
    (h : s.Found d query sid) (h' : s.Found d query' sid') (hlive : (s.stmt sid).live = true)
    (hlive' : (s.stmt sid').live = true) : sid = sid' ↔ query = query' := by
  have hreg : ∀ {query sid}, s.Found d query sid → (s.stmt sid).live = true → s.Registered sid := by
    intro query sid hf hl
    obtain hpointer | ⟨query', stack, top, done⟩ := hr sid hl
    · exact hw.statements.pointer sid hpointer
    · -- a statement that is about to be inserted has no handle yet
      have := (hw.statements.waiting _ query' stack top).created sid done
      exact absurd (by rw [this]) hf.handle
  constructor
  · rintro rfl
    exact h.query.symm.trans h'.query
  · rintro rfl
    have hm := (hreg h hlive).mem
    have hm' := (hreg h' hlive').mem
    have hc := (hreg h hlive).connected
    rw [h.query, h.database] at hm
    rw [h'.query, h'.database] at hm'
    rw [h.database] at hc
    exact (hw.statements.cached d hc).unique hm hm'

structure Correct (s : State) : Prop where
  wf : s.Wf
  returned : s.Returned

theorem correct_step (h : s.Correct) (hs : s.step l = some s') : s'.Correct := by
  refine ⟨h.wf.step hs, ?_⟩
  obtain ⟨-, he | ⟨f, -, rfl⟩⟩ := step_effect hs
  · exact returned_step h.returned h.wf he
  · exact fun sid hlive => h.returned sid hlive

theorem correct_init : init.Correct := ⟨wf_init, nofun⟩

theorem correct_exec {tr : List Label} (hc : s.Correct)
    (h : Transition.exec State.step s tr = some s') :
    s'.Correct := Transition.exec_inv' (fun _ _ _ hI hs => correct_step hI hs) hc h

theorem found_exec {tr : List Label} (hc : s.Correct) (hf : s.Found d query sid)
    (h : Transition.exec State.step s tr = some s') : s'.Found d query sid :=
  (Transition.exec_inv' (I := fun s => s.Correct ∧ s.Found d query sid)
    (fun _ _ _ hI hs => ⟨correct_step hI.1 hs, found_step hI.2 hI.1.wf hs⟩) ⟨hc, hf⟩ h).2

/-- What Lua code can rely on after the run `tr`.  `same`: two calls of `Prepare` have returned
the same statement, both being alive, exactly when the queries were the same.  `failed`: a
preparation that fails, after some steps of the io threads, leaves all caches, handles and the
table of databases as they were. -/
structure CacheCorrect (tr : List Label) (s : State) : Prop where
  caches : s.luaTurn = true → ∀ d, (s.db d).isConnected = true → s.Caches d
  same : ∀ tr₁ l₁ tr₁' s₁ s₁' tr₂ l₂ tr₂' s₂ s₂' d query₁ query₂ sid₁ sid₂,
    tr = tr₁ ++ l₁ :: tr₁' → Transition.exec State.step init tr₁ = some s₁ → s₁.step l₁ = some s₁' →
    tr = tr₂ ++ l₂ :: tr₂' → Transition.exec State.step init tr₂ = some s₂ → s₂.step l₂ = some s₂' →
    s₁.Prepares d query₁ sid₁ l₁ → s₂.Prepares d query₂ sid₂ l₂ →
    (s.stmt sid₁).live = true → (s.stmt sid₂).live = true → (sid₁ = sid₂ ↔ query₁ = query₂)
  cached : ∀ d query sid s', (s.db d).handle = .pointer → (s.db d).isConnected = true →
    (s.db d).preparedStatements.lookup query = some sid →
      s.step (.prepare d query) = some s' → s' = s
  failed : ∀ d query s₁ tr' s₂ s₃, s.step (.prepare d query) = some s₁ →
    (∀ l ∈ tr', l.isIo = true) →
    Transition.exec State.step s₁ tr' = some s₂ → s₂.stack = .prepare d query :: s.stack →
    s₂.waiter = some none → s₂.step .cpp = some s₃ →
      s₃.stack = s.stack ∧ (∀ d', (s₃.db d').preparedStatements = (s.db d').preparedStatements) ∧
        (∀ d', (s₃.db d').handle = (s.db d').handle) ∧ s₃.stmt = s.stmt ∧ s₃.databases = s.databases

theorem cacheCorrect_exec {tr : List Label} (h : Transition.exec State.step init tr = some s) :
    s.CacheCorrect tr := by
  have hc := correct_exec correct_init h
  refine ⟨fun turn d connected => caches_of_turn hc.returned hc.wf turn connected, ?_,
    fun d query sid s' handle connected cached hs =>
      prepare_cached hc.returned hc.wf handle connected cached hs,
    fun d query s₁ tr' s₂ s₃ hcall io hs top failed hreturn =>
      prepare_failed hc.wf hcall io hs top failed hreturn⟩
  intro tr₁ l₁ tr₁' s₁ s₁' tr₂ l₂ tr₂' s₂ s₂' d query₁ query₂ sid₁ sid₂ htr₁ hs₁ hl₁ htr₂ hs₂ hl₂
    hp₁ hp₂ hlive₁ hlive₂
  have hfound : ∀ {tr₁ l₁ tr₁' s₁ s₁' query sid}, tr = tr₁ ++ l₁ :: tr₁' →
      Transition.exec State.step init tr₁ = some s₁ → s₁.step l₁ = some s₁' →
        s₁.Prepares d query sid l₁ →
      s.Found d query sid := by
    intro tr₁ l₁ tr₁' s₁ s₁' query sid htr hs hl hp
    subst htr
    have hc₁ := correct_exec correct_init hs
    exact found_exec (correct_step hc₁ hl) (found_prepares hc₁.returned hc₁.wf hp hl)
      (Transition.exec_split h hs hl)
  exact found_inj hc.returned hc.wf (hfound htr₁ hs₁ hl₁ hp₁) (hfound htr₂ hs₂ hl₂ hp₂)
    hlive₁ hlive₂

end State
end Tmysql4
