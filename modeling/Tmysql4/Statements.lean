import Tmysql4.Lifecycle

/-! # The statements of a database

What holds of the prepared statements in every reachable state (`statements_step`): the cache of a
connected database maps each query to one live statement of that database, a statement handle that
is a pointer points to a live cached statement of a connected database, and the only task that
creates a statement is the one `lua_Prepare` is waiting for. -/

namespace Tmysql4

/-- A step of an io thread. -/
def Label.isIo : Label → Bool
  | .io _ _ => true
  | _ => false

/-- The query a task prepares. -/
def Task.created : Task → Option Bytes
  | .createStatement query => some query
  | _ => none

theorem Task.created_eq_none {task : Task} {action : DatabaseAction}
    (h : task.action = some action) : task.created = none := by
  cases task with
  | createStatement query => cases h
  | runQuery query => rfl
  | runStatement sid a => rfl

/-- The handlers of the database, the running one first. -/
def Database.tasks (db : Database) : List Task := db.running.toList ++ db.queue

/-- The queries that are being prepared for the database. -/
def Database.creates (db : Database) : List Bytes := db.tasks.filterMap Task.created

@[simp] theorem Database.fire_creates (db : Database) : db.fire.creates = db.creates := by
  simp [creates, tasks]

namespace State

/-- The query `lua_Prepare` is waiting for on `d`. -/
def awaited (s : State) (d : DbId) : List Bytes :=
  match s.stack, s.waiter with
  | .prepare d' query :: _, none => if d' = d then [query] else []
  | _, _ => []

/-- The cache of `d` is a map from queries to the live statements of `d`. -/
structure Cached (s : State) (d : DbId) : Prop where
  live : ∀ e ∈ (s.db d).preparedStatements, (s.stmt e.2).live = true
  database : ∀ e ∈ (s.db d).preparedStatements, (s.stmt e.2).database = d
  query : ∀ e ∈ (s.db d).preparedStatements, (s.stmt e.2).query = e.1
  keys : ((s.db d).preparedStatements.map (·.1)).Nodup

/-- The statement `sid` is cached on a connected database. -/
structure Registered (s : State) (sid : StmtId) : Prop where
  live : (s.stmt sid).live = true
  connected : (s.db (s.stmt sid).database).isConnected = true
  mem : ((s.stmt sid).query, sid) ∈ (s.db (s.stmt sid).database).preparedStatements

/-- `lua_Prepare` waits for a statement that is not cached yet. -/
structure Waiting (s : State) (d : DbId) (query : Bytes) : Prop where
  connected : (s.db d).isConnected = true
  uncached : (s.db d).preparedStatements.lookup query = none
  created : ∀ sid, s.waiter = some (some sid) → s.stmt sid = ⟨true, d, query, .absent⟩

structure Statements (s : State) : Prop where
  fresh : ∀ sid, s.nextStmt ≤ sid → s.stmt sid = PStatement.raw
  pointer : ∀ sid, (s.stmt sid).handle = .pointer → s.Registered sid
  cached : ∀ d, (s.db d).isConnected = true → s.Cached d
  unconnected : ∀ d, (s.db d).isConnected = false → (s.db d).handle ≠ .null →
    (s.db d).preparedStatements = []
  creating : ∀ d, (s.db d).creates = s.awaited d
  waiting : ∀ d query stack, s.stack = .prepare d query :: stack → s.Waiting d query
  deleted_dead : ∀ sid ∈ s.deletedStmts, (s.stmt sid).live = false ∧ sid < s.nextStmt
  deleted_nodup : s.deletedStmts.Nodup

theorem statements_init : init.Statements where
  fresh _ _ := rfl
  pointer _ h := by cases h
  cached _ h := by cases h
  unconnected _ _ _ := rfl
  creating _ := rfl
  waiting _ _ _ h := by cases h
  deleted_dead := nofun
  deleted_nodup := List.nodup_nil

/-- Lua code does not run above `lua_Prepare`. -/
theorem awaited_of_turn {s : State} (turn : s.luaTurn = true) (d : DbId) : s.awaited d = [] := by
  unfold awaited
  split
  next h _ => simp [luaTurn, h] at turn
  next => rfl

/-- A query that is looked up successfully is cached. -/
theorem mem_of_lookup {cache : List (Bytes × StmtId)} {query : Bytes} {sid : StmtId}
    (h : cache.lookup query = some sid) : (query, sid) ∈ cache := by
  obtain ⟨l₁, l₂, rfl, -⟩ := List.lookup_eq_some_iff.mp h
  simp

namespace Cached

variable {s : State} {d : DbId}

theorem unique (h : s.Cached d) {query : Bytes} {sid sid' : StmtId}
    (hm : (query, sid) ∈ (s.db d).preparedStatements)
    (hm' : (query, sid') ∈ (s.db d).preparedStatements) : sid = sid' := by
  have := List.inj_on_of_nodup_map h.keys hm hm' rfl
  cases this
  rfl

/-- A cache whose statements are left alone, except for their handles, and that may shrink. -/
theorem keep {s' : State} (h : s.Cached d)
    (hprep : List.Sublist (s'.db d).preparedStatements (s.db d).preparedStatements)
    (hstmt : ∀ e ∈ (s'.db d).preparedStatements, (s'.stmt e.2).live = (s.stmt e.2).live ∧
      (s'.stmt e.2).database = (s.stmt e.2).database ∧ (s'.stmt e.2).query = (s.stmt e.2).query) :
    s'.Cached d where
  live e he := by rw [(hstmt e he).1, h.live e (hprep.subset he)]
  database e he := by rw [(hstmt e he).2.1, h.database e (hprep.subset he)]
  query e he := by rw [(hstmt e he).2.2, h.query e (hprep.subset he)]
  keys := (hprep.map _).nodup h.keys

/-- No statement is cached under two queries. -/
theorem values (h : s.Cached d) : (s.cached d).Nodup := by
  refine List.Nodup.map_on ?_ (List.Nodup.of_map _ h.keys)
  rintro ⟨query, sid⟩ hm ⟨query', sid'⟩ hm' rfl
  have hq := h.query _ hm
  rw [h.query _ hm'] at hq
  cases hq
  rfl

end Cached

namespace Statements

variable {s s' : State} {l : Label}

theorem lt_of_live (h : s.Statements) {sid : StmtId} (hl : (s.stmt sid).live = true) :
    sid < s.nextStmt := by
  by_contra hsid
  rw [h.fresh sid (Nat.le_of_not_lt hsid)] at hl
  exact absurd hl (by decide)

theorem fresh_step (h : s.Statements) (hl : s.Lifecycle) (he : s.Effect l s') (sid : StmtId)
    (hd : s'.nextStmt ≤ sid) : s'.stmt sid = PStatement.raw := by
  have hraw := h.fresh sid
  have hlt : ∀ sid, (s.stmt sid).live = true → sid < s.nextStmt := fun sid => h.lt_of_live
  cases he with
  | stay turn => exact hraw hd
  | release d stack top can =>
      have hlive := can.stmt_live
      simp at hd ⊢
      grind -linarith
  | dbConnectFailed d r calls idle failed can => exact absurd can (hl.not_canRelease idle failed)
  | prepareDone d query sid' stack top done live =>
      have := (h.waiting d query stack top).created sid' done
      simp at hd ⊢
      grind -linarith
  | _ =>
      simp at hd ⊢
      grind -linarith [CallsStmt]

/-- The stack below the innermost frame has no `lua_Prepare` on top. -/
theorem not_prepare_below (hl : s.Lifecycle) {f : Frame} {stack stack' : List Frame} {d : DbId}
    {query : Bytes} (top : s.stack = f :: stack) : stack ≠ .prepare d query :: stack' := by
  intro hm
  have := hl.suspended (.prepare d query) (by simp [top, hm])
  simp [Frame.suspended] at this

theorem not_prepare_of_turn (turn : s.luaTurn = true) {stack : List Frame} {d : DbId}
    {query : Bytes} : s.stack ≠ .prepare d query :: stack := by
  intro hs
  simp [luaTurn, hs] at turn

end Statements

section Waits

variable {s s' : State} {l : Label} {d : DbId} {query : Bytes} {stack : List Frame}

/-! ### How `lua_Prepare` comes to the top -/

/-- `lua_Prepare` has just posted its task. -/
structure Posted (s : State) (d : DbId) (query : Bytes) (s' : State) : Prop where
  calls : s.Calls d
  connected : (s.db d).isConnected = true
  uncached : (s.db d).preparedStatements.lookup query = none
  eq : s' = { (s.post d (.createStatement query)).call (.prepare d query) with waiter := none }

/-- A wait begins with the call, and while it lasts only io threads make steps. -/
theorem prepare_top (hl : s.Lifecycle) (he : s.Effect l s')
    (top : s'.stack = .prepare d query :: stack) :
    (s.stack = .prepare d query :: stack ∧ l.isIo = true) ∨
      (l = .prepare d query ∧ s.Posted d query s') := by
  have hturn : s.luaTurn = true → s.stack ≠ .prepare d query :: stack :=
    fun turn => Statements.not_prepare_of_turn turn
  have hpop : ∀ f stack', s.stack = f :: stack' → stack' ≠ .prepare d query :: stack :=
    fun f stack' => Statements.not_prepare_below hl
  cases he with
  | prepare d' query' calls connected uncached =>
      simp at top
      obtain ⟨⟨rfl, rfl⟩, rfl⟩ := top
      exact .inr ⟨rfl, calls, connected, uncached, rfl⟩
  | take | reconnected | finish | created | stop => exact .inl ⟨by simpa using top, rfl⟩
  | connected | poll =>
      simp [Database.connectFrames] at top
      grind -linarith [Calls]
  | stay turn => exact absurd top (hturn turn)
  | getTable turn live => exact absurd (by simpa using top) (hturn turn)
  | _ => simp at top <;> grind -linarith [Calls, CallsStmt]

/-- From a `lua_Prepare` on the top on, an io thread makes a step or the wait ends. -/
theorem prepare_effect (he : s.Effect l s') (top : s.stack = .prepare d query :: stack) :
    (l.isIo = true ∧ s'.stack = s.stack) ∨ (s.waiter = some none ∧ s' = s.pop stack) ∨
      ∃ sid, s.waiter = some (some sid) ∧ s' = (s.pop stack).cacheStatement d sid query := by
  have hturn : s.luaTurn ≠ true := fun turn => Statements.not_prepare_of_turn turn top
  have hframe : ∀ f stack', s.stack = f :: stack' → f = .prepare d query := fun f stack' top' =>
    (List.cons.inj (top'.symm.trans top)).1
  cases he with
  | stay turn => exact absurd turn hturn
  | create _ _ turn => exact absurd turn hturn
  | connected _ _ turn => exact absurd turn hturn
  | connectFailed _ _ _ turn => exact absurd turn hturn
  | getTable turn => exact absurd turn hturn
  | run sid callback calls => exact absurd calls.turn hturn
  | stmtGc sid calls => exact absurd calls.turn hturn
  | dbConnected _ calls | dbConnectFailed _ _ calls | query _ _ calls | prepareCached _ _ _ calls
  | prepare _ _ calls | poll _ calls | disconnect _ calls | dbGc _ calls =>
      exact absurd calls.turn hturn
  | take | reconnected | finish | created | stop => exact .inl ⟨rfl, by simp⟩
  | prepareFailed d' query' stack' top' done =>
      rw [top] at top'
      cases top'
      exact .inr (.inl ⟨done, rfl⟩)
  | prepareDone d' query' sid stack' top' done live =>
      rw [top] at top'
      cases top'
      exact .inr (.inr ⟨sid, done, rfl⟩)
  | _ => cases hframe _ _ ‹s.stack = _›

end Waits

namespace Statements

variable {s s' : State} {l : Label}

/-- The wait goes on when a handler of a database makes a
step that leaves its connection and its cache alone. -/
theorem waiting_modify {d d' : DbId} {query : Bytes} {f : Database → Database}
    (h : s.Waiting d query) (hconnected : (f (s.db d')).isConnected = (s.db d').isConnected)
    (hprep : (f (s.db d')).preparedStatements = (s.db d').preparedStatements) :
    (s.modify d' f).Waiting d query := by
  obtain ⟨hc, hu, hcreated⟩ := h
  by_cases hd : d = d'
  · subst hd
    exact ⟨by simpa [hconnected] using hc, by simpa [hprep] using hu, hcreated⟩
  · exact ⟨by simpa [hd] using hc, by simpa [hd] using hu, hcreated⟩

theorem waiting_step (h : s.Statements) (hl : s.Lifecycle) (he : s.Effect l s') (d : DbId)
    (query : Bytes) (stack : List Frame) (top : s'.stack = .prepare d query :: stack) :
    s'.Waiting d query := by
  obtain ⟨htop, io⟩ | ⟨-, calls, connected, uncached, rfl⟩ := prepare_top hl he top
  · have hw := h.waiting d query stack htop
    cases he with
    | stay turn => exact hw
    | take d' task queue live thread active idle head => exact waiting_modify hw rfl rfl
    | reconnected d' task action live running runs => exact waiting_modify hw rfl rfl
    | finish d' ok task action live running runs => exact waiting_modify hw rfl rfl
    | stop d' work empty idle active => exact waiting_modify hw rfl rfl
    | created d' ok query' live running =>
        have hcreate := h.creating d'
        obtain ⟨hc, hu, -⟩ := hw
        simp [Database.creates, Database.tasks, running, Task.created, awaited, htop] at hcreate
        constructor <;> simp <;> grind -linarith
    | _ => cases io
  · exact ⟨by simpa using connected, by simpa using uncached, nofun⟩

/-- At most one creation is awaited, on one database. -/
theorem awaited_cases (s : State) (d : DbId) : s.awaited d = [] ∨
    ∃ query stack, s.stack = .prepare d query :: stack ∧ s.waiter = none ∧ s.awaited d = [query] ∧
      ∀ d', d' ≠ d → s.awaited d' = [] := by
  unfold awaited
  split
  next d₁ query stack top done =>
      by_cases hd : d₁ = d
      · subst hd
        exact .inr ⟨query, stack, top, done, by simp, fun d' hd' => by simp [Ne.symm hd']⟩
      · exact .inl (by simp [hd])
  next => exact .inl rfl

theorem awaited_of_waiter {w : Option StmtId} (done : s.waiter = some w) (d : DbId) :
    s.awaited d = [] := by
  unfold awaited
  split
  next h => rw [done] at h; cases h
  next => rfl

theorem awaited_of_top (h : ∀ d query stack, s.stack ≠ .prepare d query :: stack) (d : DbId) :
    s.awaited d = [] := by
  unfold awaited
  split
  next top _ => exact absurd top (h _ _ _)
  next => rfl

/-- Away from `lua_Prepare` nothing is being prepared. -/
theorem creating_of_top (h : s.Statements)
    (htop : ∀ d query stack, s.stack ≠ .prepare d query :: stack)
    (htop' : ∀ d query stack, s'.stack ≠ .prepare d query :: stack) {d : DbId}
    (hdb : (s'.db d).creates = (s.db d).creates ∨ (s'.db d).creates = []) :
    (s'.db d).creates = s'.awaited d := by
  rw [awaited_of_top htop']
  rcases hdb with hdb | hdb
  · rw [hdb, h.creating, awaited_of_top htop]
  · exact hdb

/-- A step of an io thread other than the end of a creation. -/
theorem creating_modify (h : s.Statements) {d' : DbId} {f : Database → Database}
    (hf : (f (s.db d')).creates = (s.db d').creates) (d : DbId) :
    ((s.modify d' f).db d).creates = (s.modify d' f).awaited d := by
  have hdb : ((s.modify d' f).db d).creates = (s.db d).creates := by
    by_cases hd : d = d'
    · subst hd
      simpa using hf
    · simp [hd]
  rw [hdb, h.creating]
  rfl

theorem creating_step (h : s.Statements) (hl : s.Lifecycle) (he : s.Effect l s') (d : DbId) :
    (s'.db d).creates = s'.awaited d := by
  have hc := h.creating d
  have hturn : s.luaTurn = true → ∀ d query stack, s.stack ≠ .prepare d query :: stack :=
    fun turn _ _ _ => not_prepare_of_turn turn
  have hpop : ∀ f stack', s.stack = f :: stack' →
      ∀ d query stack, stack' ≠ .prepare d query :: stack :=
    fun f stack' top _ _ _ => not_prepare_below hl top
  cases he with
  | stay turn => exact hc
  | dbConnectFailed d' r calls idle failed can => exact absurd can (hl.not_canRelease idle failed)
  | prepare d' query calls connected uncached =>
      have hnil : (s.db d).creates = [] := by rw [hc, awaited_of_turn calls.turn]
      by_cases hd : d = d'
      · subst hd
        simp only [Database.creates, Database.tasks] at hnil
        simp only [awaited, Database.creates, Database.tasks, call, post, modify_db_self, if_true,
          ← List.append_assoc]
        rw [List.filterMap_append, hnil]
        rfl
      · simp [awaited, hd, Ne.symm hd, hnil]
  | destroy d' stack top live =>
      refine h.creating_of_top (by simp [top]) (by simpa using hpop _ _ top) ?_
      have hidle := (hl.ok d').stopped_idle (hl.stopping d' (.inr (by simp [top])))
      by_cases hd : d = d'
      · subst hd
        exact .inr (by simp [Database.creates, Database.tasks, hidle])
      · exact .inl (by simp [hd])
  | prepareFailed d' query stack top done =>
      rw [awaited_of_top (by simpa using hpop _ _ top)]
      simpa [awaited_of_waiter done] using hc
  | prepareDone d' query sid stack top done live =>
      rw [awaited_of_top (by simpa using hpop _ _ top)]
      rw [awaited_of_waiter done] at hc
      by_cases hd : d = d'
      · subst hd
        simpa [Database.creates, Database.tasks, apply_ite] using hc
      · simpa [hd] using hc
  | take d' task queue live thread active idle head =>
      refine h.creating_modify ?_ d
      simp [Database.creates, Database.tasks, idle, head, List.filterMap_cons]
  | reconnected d' task action live running runs => exact h.creating_modify rfl d
  | finish d' ok task action live running runs =>
      refine h.creating_modify ?_ d
      simp [Database.creates, Database.tasks, running, Task.created_eq_none runs]
  | stop d' work empty idle active => exact h.creating_modify rfl d
  | created d' ok query live running =>
      have hd' : (s.db d').creates = query :: (s.db d').queue.filterMap Task.created := by
        simp [Database.creates, Database.tasks, running, Task.created]
      rw [awaited_of_waiter (statementCreated_waiter s d' query ok)]
      rcases awaited_cases s d' with hnil | ⟨query', stack, -, -, hone, hother⟩
      · rw [h.creating, hnil] at hd'
        cases hd'
      · rw [h.creating, hone] at hd'
        by_cases hd : d = d'
        · subst hd
          simpa [Database.creates, Database.tasks] using (List.cons.inj hd').2.symm
        · simpa [hd, hc] using hother d hd
  | _ =>
      refine h.creating_of_top ?before ?after ?same
      case before => grind -linarith [Calls, CallsStmt]
      case after => simp <;> grind -linarith [Calls, CallsStmt, Database.connectFrames]
      case same =>
        simp [apply_ite Database.creates] <;>
          grind -linarith [Database.creates, Database.tasks, Database.construct, Task.created]

theorem unconnected_step (h : s.Statements) (he : s.Effect l s') (d : DbId)
    (idle : (s'.db d).isConnected = false) (handle : (s'.db d).handle ≠ .null) :
    (s'.db d).preparedStatements = [] := by
  have hu := h.unconnected d
  cases he with
  | stay turn => exact hu idle handle
  | prepareDone d' query sid stack top done live =>
      have := (h.waiting d' query stack top)
      simp at idle handle ⊢
      grind -linarith [Waiting]
  | _ =>
      simp at idle handle ⊢
      grind -linarith [Database.fire, Database.construct, Calls]

/-- A step that leaves the statements and the caches of connected databases alone. -/
theorem cached_keep (h : s.Statements) (hstmt : s'.stmt = s.stmt) {d : DbId}
    (hdb : (s'.db d).preparedStatements = [] ∨ ((s.db d).isConnected = true ∧
      (s'.db d).preparedStatements = (s.db d).preparedStatements)) : s'.Cached d := by
  rcases hdb with hnil | ⟨hc, heq⟩
  · constructor <;> simp [hnil]
  · exact (h.cached d hc).keep (by rw [heq]) (by simp [hstmt])

theorem cached_step (h : s.Statements) (hl : s.Lifecycle) (he : s.Effect l s') (d : DbId)
    (connected : (s'.db d).isConnected = true) : s'.Cached d := by
  have hc := h.cached d
  have hu := h.unconnected d
  cases he with
  | stay turn => exact hc connected
  | dbConnectFailed d' r calls idle failed can => exact absurd can (hl.not_canRelease idle failed)
  | prepareCached d' query sid calls connected' cached live =>
      refine (hc connected).keep (by simp) fun e he => ?_
      simp
      grind -linarith
  | created d' ok query live running =>
      simp at connected
      have hc := hc (by grind -linarith)
      refine hc.keep (by simp; grind -linarith) fun e he => ?_
      simp at he
      have hlt := h.lt_of_live (hc.live e (by grind -linarith))
      simp
      grind -linarith
  | prepareDone d' query sid stack top done live =>
      have hw := h.waiting d' query stack top
      have hsid := hw.created sid done
      simp at connected
      have hc := hc (by grind -linarith)
      by_cases hd : d = d'
      · subst hd
        have hnew := List.lookup_eq_none_iff.mp hw.uncached
        have hprep : (((s.pop stack).cacheStatement d sid query).db d).preparedStatements =
            (query, sid) :: (s.db d).preparedStatements := by simp [hw.uncached]
        refine ⟨fun e he => ?_, fun e he => ?_, fun e he => ?_, ?_⟩
        · rw [hprep] at he
          have := hc.live e
          simp
          grind -linarith
        · rw [hprep] at he
          have := hc.database e
          simp
          grind -linarith
        · rw [hprep] at he
          have := hc.query e
          simp
          grind -linarith
        · rw [hprep]
          have := hc.keys
          grind -linarith
      · refine hc.keep (by simp [hd]) fun e he => ?_
        simp
        grind -linarith
  | release d' stack top can =>
      simp at connected
      have hd : d ≠ d' := by
        rintro rfl
        simp at connected
      have hc := hc (by simpa [hd] using connected)
      have hc' := h.cached d' (by rw [← (hl.ok d').thread, can.ioThread])
      refine hc.keep (by simp [hd]) fun e he => ?_
      -- a statement of another database is not released
      have hother : e.2 ∉ s.cached d' := by
        intro hm
        obtain ⟨e', he', heq⟩ := List.mem_map.mp hm
        have h₁ := hc.database e (by simpa [hd] using he)
        have h₂ := hc'.database e' he'
        rw [heq, h₁] at h₂
        exact hd h₂
      simp [hother]
  | stmtGc sid calls =>
      simp at connected
      have hc := hc (by grind -linarith)
      have hsub : List.Sublist ((((s.deregisterStatement (s.stmt sid).database
          (s.stmt sid).query).releaseStmt sid).db d).preparedStatements)
            (s.db d).preparedStatements := by
        by_cases hd : d = (s.stmt sid).database
        · simp [hd]
        · simp [hd]
      refine hc.keep hsub fun e he => ?_
      -- the entry of the finalized statement has been erased
      have hne : e.2 ≠ sid := by
        intro hs
        have hdb := hc.database e (hsub.subset he)
        have hquery := hc.query e (hsub.subset he)
        rw [hs] at hdb hquery
        simp [hdb] at he
        exact he.2 hquery.symm
      simp [hne]
  | _ =>
      refine h.cached_keep (by simp) ?_
      simp at connected ⊢
      grind -linarith [Database.construct, Calls, Database.fire_preparedStatements,
        Database.fire_isConnected]

/-- A step that leaves the statement alone and its database connected and caching it. -/
theorem registered_keep {sid : StmtId} (h : s.Registered sid) (hstmt : s'.stmt sid = s.stmt sid)
    (hdb : (s.db (s.stmt sid).database).isConnected = true →
      ((s.stmt sid).query, sid) ∈ (s.db (s.stmt sid).database).preparedStatements →
      (s'.db (s.stmt sid).database).isConnected = true ∧
      ((s.stmt sid).query, sid) ∈ (s'.db (s.stmt sid).database).preparedStatements) :
    s'.Registered sid := by
  obtain ⟨hlive, hc, hm⟩ := h
  obtain ⟨hc', hm'⟩ := hdb hc hm
  constructor
  · rwa [hstmt]
  · rwa [hstmt]
  · rwa [hstmt]

theorem pointer_step (h : s.Statements) (hl : s.Lifecycle) (he : s.Effect l s') (sid : StmtId)
    (handle : (s'.stmt sid).handle = .pointer) : s'.Registered sid := by
  have hp := h.pointer sid
  have hlive : (s.stmt sid).handle = .pointer → (s.db (s.stmt sid).database).live = true :=
    fun hh =>
    (hl.ok _).connected_live (hp hh).connected
  have hlt : ∀ d, (s.db d).live = true → d < s.nextDb := fun d => hl.lt_of_live
  cases he with
  | stay turn => exact hp handle
  | dbConnectFailed d' r calls idle failed can => exact absurd can (hl.not_canRelease idle failed)
  | prepareCached d' query sid' calls connected cached live =>
      by_cases hs : sid = sid'
      · subst hs
        have hm := mem_of_lookup cached
        obtain ⟨hlive, hdatabase, hquery, -⟩ := h.cached d' connected
        constructor <;> simp <;> grind -linarith
      · simp [hs] at handle
        exact registered_keep (hp handle) (by simp [hs]) fun hc hm => ⟨hc, hm⟩
  | created d' ok query live running =>
      simp at handle
      have hs : ¬ (ok = true ∧ sid = s.nextStmt) := by
        intro hs
        simp [hs] at handle
      simp [hs] at handle
      refine registered_keep (hp handle) (by simp [hs]) fun hc hm => ?_
      simp
      grind -linarith
  | prepareDone d' query sid' stack top done live =>
      have hw := h.waiting d' query stack top
      have hsid := hw.created sid' done
      by_cases hs : sid = sid'
      · subst hs
        constructor <;> simp [hsid, hw.uncached, hw.connected]
      · simp [hs] at handle
        refine registered_keep (hp handle) (by simp [hs]) fun hc hm => ?_
        simp
        grind -linarith
  | release d' stack top can =>
      simp at handle
      have hs : sid ∉ s.cached d' := by
        intro hs
        simp [hs] at handle
      simp [hs] at handle
      refine registered_keep (hp handle) (by simp [hs]) fun hc hm => ?_
      have hd : (s.stmt sid).database ≠ d' := by
        rintro rfl
        exact hs (List.mem_map_of_mem hm)
      simpa [hd] using ⟨hc, hm⟩
  | stmtGc sid' calls =>
      have hs : sid ≠ sid' := by
        rintro rfl
        simp at handle
      simp [hs] at handle
      refine registered_keep (hp handle) (by simp [hs]) fun hc hm => ?_
      have hr' := h.pointer sid' calls.handle
      by_cases hd : (s.stmt sid).database = (s.stmt sid').database
      · have hq : (s.stmt sid).query ≠ (s.stmt sid').query := fun hq =>
          hs ((h.cached _ hc).unique hm (by rw [hd, hq]; exact hr'.mem))
        simp [hd, hq]
        exact ⟨hd ▸ hc, hd ▸ hm⟩
      · simpa [hd] using ⟨hc, hm⟩
  | _ =>
      simp at handle
      refine registered_keep (hp handle) (by simp) ?_
      have := hlive handle
      simp
      grind -linarith [Calls, Database.fire_isConnected, Database.fire_preparedStatements]

theorem deleted_dead_step (h : s.Statements) (hl : s.Lifecycle) (he : s.Effect l s') :
    ∀ sid ∈ s'.deletedStmts, (s'.stmt sid).live = false ∧ sid < s'.nextStmt := by
  intro sid hd
  have hdead := h.deleted_dead sid
  have hlt : ∀ sid, (s.stmt sid).live = true → sid < s.nextStmt := fun sid => h.lt_of_live
  cases he with
  | stay turn => exact hdead hd
  | dbConnectFailed d' r calls idle failed can => exact absurd can (hl.not_canRelease idle failed)
  | release d' stack top can =>
      have := can.stmt_live
      simp at hd ⊢ this
      grind -linarith
  | _ =>
      simp at hd ⊢
      grind -linarith [CallsStmt]

theorem deleted_nodup_step (h : s.Statements) (hl : s.Lifecycle) (he : s.Effect l s') :
    s'.deletedStmts.Nodup := by
  have hnd := h.deleted_nodup
  have hlive : ∀ sid, (s.stmt sid).live = true → sid ∉ s.deletedStmts := fun sid hlive hm => by
    rw [(h.deleted_dead sid hm).1] at hlive
    cases hlive
  cases he with
  | dbConnectFailed d' r calls idle failed can => exact absurd can (hl.not_canRelease idle failed)
  | release d' stack top can =>
      simp [List.nodup_append, hnd, can.nodup]
      exact fun x hx y hy he => hlive y (can.stmt_live y hy) (he ▸ hx)
  | stmtGc sid calls =>
      simp [List.nodup_append, hnd]
      exact fun x hx he => hlive sid calls.live (he ▸ hx)
  | _ => simpa using hnd

theorem effect (h : s.Statements) (hl : s.Lifecycle) (he : s.Effect l s') : s'.Statements where
  fresh := h.fresh_step hl he
  pointer := h.pointer_step hl he
  cached := h.cached_step hl he
  unconnected := h.unconnected_step he
  creating := h.creating_step hl he
  waiting := h.waiting_step hl he
  deleted_dead := h.deleted_dead_step hl he
  deleted_nodup := h.deleted_nodup_step hl he

/-- A fault changes no object and no frame. -/
theorem faulted (h : s.Statements) (f : Option Fault) : { s with fault := f }.Statements where
  fresh := h.fresh
  pointer sid hp := ⟨(h.pointer sid hp).live, (h.pointer sid hp).connected, (h.pointer sid hp).mem⟩
  cached d hc := ⟨(h.cached d hc).live, (h.cached d hc).database, (h.cached d hc).query,
    (h.cached d hc).keys⟩
  unconnected := h.unconnected
  creating := h.creating
  waiting d query stack top := ⟨(h.waiting d query stack top).connected,
    (h.waiting d query stack top).uncached, (h.waiting d query stack top).created⟩
  deleted_dead := h.deleted_dead
  deleted_nodup := h.deleted_nodup

theorem step (h : s.Statements) (hl : s.Lifecycle) (hs : s.step l = some s') : s'.Statements := by
  obtain ⟨-, he | ⟨f, -, rfl⟩⟩ := step_effect hs
  · exact h.effect hl he
  · exact h.faulted _

end Statements

/-! ### What becomes of a statement -/

variable {s s' : State} {l : Label} {sid : StmtId}

/-- A statement keeps its database and its query. -/
theorem stmt_effect (hl : s.Lifecycle) (he : s.Effect l s') (hlt : sid < s.nextStmt) :
    sid < s'.nextStmt ∧ (s'.stmt sid).database = (s.stmt sid).database ∧
      (s'.stmt sid).query = (s.stmt sid).query := by
  cases he with
  | stay turn => exact ⟨hlt, rfl, rfl⟩
  | created d ok query live running =>
      have hne : sid ≠ s.nextStmt := Nat.ne_of_lt hlt
      have hle : s.nextStmt ≤ (s.statementCreated d query ok).nextStmt := by cases ok <;> simp
      exact ⟨Nat.lt_of_lt_of_le hlt hle, by simp [hne], by simp [hne]⟩
  | dbConnectFailed d r calls idle failed can => exact absurd can (hl.not_canRelease idle failed)
  | release d stack top can =>
      by_cases hm : sid ∈ s.cached d
      · exact ⟨hlt, by simp [hm], by simp [hm]⟩
      · exact ⟨hlt, by simp [hm], by simp [hm]⟩
  | stmtGc sid' | prepareCached d query sid' | prepareDone d query sid' =>
      by_cases hs : sid = sid'
      · subst hs
        exact ⟨hlt, by simp, by simp⟩
      · exact ⟨hlt, by simp [hs], by simp [hs]⟩
  | _ => simpa using hlt

/-- How a live statement goes: it is finalized, or released with its database. -/
inductive Releases (s : State) (sid : StmtId) : Label → Prop
  | stmtGc (calls : s.CallsStmt sid) : Releases s sid (.stmtGc sid)
  | release (d : DbId) (stack : List Frame) (top : s.stack = .release d :: stack)
      (can : s.CanRelease d) (mem : sid ∈ s.cached d) : Releases s sid .cpp

theorem live_effect (hl : s.Lifecycle) (he : s.Effect l s') (hlive : (s.stmt sid).live = true) :
    (s'.stmt sid).live = true ∨ s.Releases sid l := by
  cases he with
  | stay turn => exact .inl hlive
  | dbConnectFailed d r calls idle failed can => exact absurd can (hl.not_canRelease idle failed)
  | created d ok query live running =>
      refine .inl ?_
      by_cases h : ok = true ∧ sid = s.nextStmt
      · simp [h]
      · simpa [h] using hlive
  | release d stack top can =>
      by_cases hm : sid ∈ s.cached d
      · exact .inr (.release d stack top can hm)
      · exact .inl (by simpa [hm] using hlive)
  | stmtGc sid' calls =>
      by_cases hs : sid = sid'
      · subst hs
        exact .inr (.stmtGc calls)
      · exact .inl (by simpa [hs] using hlive)
  | prepareCached d query sid' | prepareDone d query sid' =>
      refine .inl ?_
      by_cases hs : sid = sid'
      · subst hs
        simpa using hlive
      · simpa [hs] using hlive
  | _ => exact .inl (by simpa using hlive)

/-- A statement number that is in use has been so before, or the step creates the statement. -/
theorem created_effect (he : s.Effect l s') (hlt : sid < s'.nextStmt) :
    sid < s.nextStmt ∨ ∃ d query, (s.db d).live = true ∧
      (s.db d).running = some (.createStatement query) ∧
      sid = s.nextStmt ∧ s' = s.statementCreated d query true := by
  cases he with
  | stay turn => exact .inl hlt
  | created d ok query live running =>
      cases ok with
      | false => exact .inl hlt
      | true =>
          obtain h | h := Nat.lt_succ_iff_lt_or_eq.mp hlt
          · exact .inl h
          · exact .inr ⟨d, query, live, running, h, rfl⟩
  | _ => exact .inl (by simpa using hlt)

/-- A statement that is alive after the step has been so before, and its handle stays. -/
theorem live_of_effect (hl : s.Lifecycle) (he : s.Effect l s') (hlt : sid < s.nextStmt)
    (hlive : (s'.stmt sid).live = true) :
    (s.stmt sid).live = true ∧
      ((s.stmt sid).handle = .pointer → (s'.stmt sid).handle = .pointer) := by
  cases he with
  | stay turn => exact ⟨hlive, id⟩
  | dbConnectFailed d r calls idle failed can => exact absurd can (hl.not_canRelease idle failed)
  | created d ok query live running =>
      have hne : sid ≠ s.nextStmt := Nat.ne_of_lt hlt
      exact ⟨by simpa [hne] using hlive, fun hh => by simpa [hne] using hh⟩
  | release d stack top can =>
      by_cases hm : sid ∈ s.cached d
      · simp [hm] at hlive
      · exact ⟨by simpa [hm] using hlive, fun hh => by simpa [hm] using hh⟩
  | stmtGc sid' calls =>
      by_cases hs : sid = sid'
      · simp [hs] at hlive
      · exact ⟨by simpa [hs] using hlive, fun hh => by simpa [hs] using hh⟩
  | prepareCached d query sid' | prepareDone d query sid' =>
      by_cases hs : sid = sid'
      · subst hs
        exact ⟨by simpa using hlive, fun hh => by simp [hh]⟩
      · exact ⟨by simpa [hs] using hlive, fun hh => by simpa [hs] using hh⟩
  | _ => exact ⟨by simpa using hlive, fun hh => by simpa using hh⟩

theorem nextDb_effect (he : s.Effect l s') : s.nextDb ≤ s'.nextDb := by
  cases he <;> simp

/-- Only a finalizer takes an entry out of a cache. -/
theorem entry_effect (hl : s.Lifecycle) (he : s.Effect l s') (hkeep : ∀ sid, l ≠ .stmtGc sid)
    {d : DbId} (hlt : d < s.nextDb) {e : Bytes × StmtId} (hm : e ∈ (s.db d).preparedStatements) :
    e ∈ (s'.db d).preparedStatements := by
  cases he with
  | stay turn => exact hm
  | dbConnectFailed d' r calls idle failed can => exact absurd can (hl.not_canRelease idle failed)
  | stmtGc sid calls => exact absurd rfl (hkeep sid)
  | create | connected | connectFailed =>
      have hne : d ≠ s.nextDb := Nat.ne_of_lt hlt
      simpa [hne] using hm
  | prepareDone d' query sid stack top done live =>
      by_cases hd : d = d'
      · subst hd
        simp [apply_ite Database.preparedStatements]
        split
        · exact hm
        · exact List.mem_cons_of_mem _ hm
      · simpa [hd] using hm
  | _ =>
      simp [apply_ite Database.preparedStatements]
      first
        | exact hm
        | split <;> grind -linarith

end State
end Tmysql4
