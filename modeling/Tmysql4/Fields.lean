import Mathlib.Data.List.Nodup
import Tmysql4.System

/-! # Fields of the states a step leads to

Every state transformer of the system comes with the values of its fields, so that the proofs about
steps need not unfold it: `modify_db` and its companions for a local update, `released` for
`Release`, `fired` for the connect callback, `pushAll` for `tmysql.GetTable`. -/

namespace Tmysql4

/-- What the test of `m_bIsPendingCallback` and `TriggerCallback` do to the database. -/
def Database.fire (db : Database) : Database :=
  if db.isPendingCallback then
    { db with
      isPendingCallback := false
      callback := if 0 ≤ db.callback then 0 else db.callback
      handle := if 0 < db.callback ∧ db.handle = .absent then .pointer else db.handle
      connectStarted := if 0 < db.callback then db.connectStarted + 1 else db.connectStarted }
  else db

/-- The frame of the connect callback, if it is called. -/
def Database.connectFrames (db : Database) : List Frame :=
  if db.isPendingCallback ∧ 0 < db.callback then [.lua] else []

namespace Database

variable (db : Database)

theorem mem_connectFrames {f : Frame} (h : f ∈ db.connectFrames) : f = .lua := by
  unfold connectFrames at h
  split at h
  · exact List.mem_singleton.mp h
  · cases h

theorem mem_tail_connectFrames {f : Frame} {stack : List Frame}
    (h : f ∈ (db.connectFrames ++ stack).tail) : f ∈ stack := by
  unfold connectFrames at h
  split at h
  · exact h
  · exact List.mem_of_mem_tail h

@[simp] theorem fire_live : db.fire.live = db.live := by unfold fire; split <;> rfl
@[simp] theorem fire_mysqlInit : db.fire.mysqlInit = db.mysqlInit := by unfold fire; split <;> rfl
@[simp] theorem fire_isConnected : db.fire.isConnected = db.isConnected := by
  unfold fire; split <;> rfl
@[simp] theorem fire_isInGC : db.fire.isInGC = db.isInGC := by unfold fire; split <;> rfl
@[simp] theorem fire_preparedStatements : db.fire.preparedStatements = db.preparedStatements := by
  unfold fire; split <;> rfl
@[simp] theorem fire_completedActions : db.fire.completedActions = db.completedActions := by
  unfold fire; split <;> rfl
@[simp] theorem fire_ioThread : db.fire.ioThread = db.ioThread := by unfold fire; split <;> rfl
@[simp] theorem fire_ioWork : db.fire.ioWork = db.ioWork := by unfold fire; split <;> rfl
@[simp] theorem fire_queue : db.fire.queue = db.queue := by unfold fire; split <;> rfl
@[simp] theorem fire_running : db.fire.running = db.running := by unfold fire; split <;> rfl
@[simp] theorem fire_stopped : db.fire.stopped = db.stopped := by unfold fire; split <;> rfl
@[simp] theorem fire_accepted : db.fire.accepted = db.accepted := by unfold fire; split <;> rfl
@[simp] theorem fire_started : db.fire.started = db.started := by unfold fire; split <;> rfl

end Database

namespace State

variable (s : State)

/-! ### Field lemmas of the state transformers -/

@[simp] theorem modify_db (d : DbId) (f : Database → Database) (d' : DbId) :
    (s.modify d f).db d' = if d' = d then f (s.db d) else s.db d' := by
  simp [modify, Function.update_apply]

@[simp] theorem modify_db_self (d : DbId) (f : Database → Database) :
    (s.modify d f).db d = f (s.db d) := by simp

@[simp] theorem modify_stmt (d : DbId) (f : Database → Database) :
    (s.modify d f).stmt = s.stmt := rfl
@[simp] theorem modify_stack (d : DbId) (f : Database → Database) :
    (s.modify d f).stack = s.stack := rfl
@[simp] theorem modify_databases (d : DbId) (f : Database → Database) :
    (s.modify d f).databases = s.databases := rfl
@[simp] theorem modify_deleted (d : DbId) (f : Database → Database) :
    (s.modify d f).deleted = s.deleted := rfl
@[simp] theorem modify_deletedStmts (d : DbId) (f : Database → Database) :
    (s.modify d f).deletedStmts = s.deletedStmts := rfl
@[simp] theorem modify_waiter (d : DbId) (f : Database → Database) :
    (s.modify d f).waiter = s.waiter := rfl
@[simp] theorem modify_nextDb (d : DbId) (f : Database → Database) :
    (s.modify d f).nextDb = s.nextDb := rfl
@[simp] theorem modify_nextStmt (d : DbId) (f : Database → Database) :
    (s.modify d f).nextStmt = s.nextStmt := rfl
@[simp] theorem modify_nextAction (d : DbId) (f : Database → Database) :
    (s.modify d f).nextAction = s.nextAction := rfl
@[simp] theorem modify_fault (d : DbId) (f : Database → Database) :
    (s.modify d f).fault = s.fault := rfl

@[simp] theorem modifyStmt_stmt (sid : StmtId) (f : PStatement → PStatement) (sid' : StmtId) :
    (s.modifyStmt sid f).stmt sid' = if sid' = sid then f (s.stmt sid) else s.stmt sid' := by
  simp [modifyStmt, Function.update_apply]

@[simp] theorem modifyStmt_db (sid : StmtId) (f : PStatement → PStatement) :
    (s.modifyStmt sid f).db = s.db := rfl
@[simp] theorem modifyStmt_stack (sid : StmtId) (f : PStatement → PStatement) :
    (s.modifyStmt sid f).stack = s.stack := rfl
@[simp] theorem modifyStmt_databases (sid : StmtId) (f : PStatement → PStatement) :
    (s.modifyStmt sid f).databases = s.databases := rfl
@[simp] theorem modifyStmt_deleted (sid : StmtId) (f : PStatement → PStatement) :
    (s.modifyStmt sid f).deleted = s.deleted := rfl
@[simp] theorem modifyStmt_deletedStmts (sid : StmtId) (f : PStatement → PStatement) :
    (s.modifyStmt sid f).deletedStmts = s.deletedStmts := rfl
@[simp] theorem modifyStmt_waiter (sid : StmtId) (f : PStatement → PStatement) :
    (s.modifyStmt sid f).waiter = s.waiter := rfl
@[simp] theorem modifyStmt_nextDb (sid : StmtId) (f : PStatement → PStatement) :
    (s.modifyStmt sid f).nextDb = s.nextDb := rfl
@[simp] theorem modifyStmt_nextStmt (sid : StmtId) (f : PStatement → PStatement) :
    (s.modifyStmt sid f).nextStmt = s.nextStmt := rfl
@[simp] theorem modifyStmt_fault (sid : StmtId) (f : PStatement → PStatement) :
    (s.modifyStmt sid f).fault = s.fault := rfl
@[simp] theorem modifyStmt_nextAction (sid : StmtId) (f : PStatement → PStatement) :
    (s.modifyStmt sid f).nextAction = s.nextAction := rfl

/-! ### Releasing statements -/

/-- The statements `ids` have been released. -/
def releaseStmts (ids : List StmtId) : State :=
  { s with
    stmt := fun sid => if sid ∈ ids then { s.stmt sid with live := false, handle := .null }
      else s.stmt sid
    deletedStmts := s.deletedStmts ++ ids }

/-- The statements cached on the database. -/
def cached (d : DbId) : List StmtId := (s.db d).preparedStatements.map (·.2)

theorem releaseStmts_nil : s.releaseStmts [] = s := by simp [releaseStmts]

theorem releaseStmt_releaseStmts (sid : StmtId) (ids : List StmtId) :
    (s.releaseStmt sid).releaseStmts ids = s.releaseStmts (sid :: ids) := by
  have hs : ((s.releaseStmt sid).releaseStmts ids).stmt = (s.releaseStmts (sid :: ids)).stmt := by
    funext x
    by_cases hx : x = sid <;> by_cases hx' : x ∈ ids <;>
      simp [releaseStmt, releaseStmts, modifyStmt, hx, hx']
  simp only [releaseStmt, releaseStmts, modifyStmt, List.append_assoc,
    List.singleton_append] at hs ⊢
  rw [hs]

/-- The loop releases everything, or stops at a statement that is dead or comes twice. -/
theorem releaseAll_cases (entries : List (Bytes × StmtId)) (s : State) :
    ((∀ sid ∈ entries.map (·.2), (s.stmt sid).live = true) ∧ (entries.map (·.2)).Nodup ∧
      releaseAll entries s = .ok (s.releaseStmts (entries.map (·.2)))) ∨
    ∃ sid ∈ entries.map (·.2), releaseAll entries s = .error (.statementGone sid) ∧
      ((s.stmt sid).live = false ∨ ¬ (entries.map (·.2)).Nodup) := by
  induction entries generalizing s with
  | nil => exact .inl ⟨by simp, List.nodup_nil, by rw [List.map_nil, releaseStmts_nil]; rfl⟩
  | cons e entries ih =>
      obtain ⟨query, sid⟩ := e
      simp only [releaseAll, accessStmt, List.map_cons]
      cases hlive : (s.stmt sid).live with
      | false =>
          exact .inr ⟨sid, List.mem_cons_self, by simp, .inl hlive⟩
      | true =>
          rcases ih (s.releaseStmt sid) with ⟨hall, hnd, hok⟩ | ⟨x, hx, herr, hcause⟩
          · have hne : ∀ x ∈ entries.map (·.2), x ≠ sid := by
              rintro x hx rfl
              have := hall x hx
              simp [releaseStmt, modifyStmt] at this
            refine .inl ⟨?_, List.nodup_cons.mpr ⟨fun hm => hne sid hm rfl, hnd⟩, ?_⟩
            · intro x hx
              rcases List.mem_cons.mp hx with rfl | hx
              · exact hlive
              · simpa [releaseStmt, modifyStmt, hne x hx] using hall x hx
            · simp [hok, releaseStmt_releaseStmts]
          · refine .inr ⟨x, List.mem_cons_of_mem _ hx, by simpa using herr, ?_⟩
            rw [List.nodup_cons]
            rcases hcause with hdead | hnd
            · by_cases hxs : x = sid
              · exact .inr fun h => h.1 (hxs ▸ hx)
              · exact .inl (by simpa [releaseStmt, modifyStmt, hxs] using hdead)
            · exact .inr fun h => hnd h.2

/-- The state after a successful `Release`. -/
def released (d : DbId) : State :=
  (s.releaseStmts (s.cached d)).modify d fun db =>
    { db with ioThread := false, isConnected := false, handle := .null }

/-- What `Release` needs: a thread to join, an initialised `MYSQL`, and cached statements that are
live and cached once. -/
structure CanRelease (d : DbId) : Prop where
  live : (s.db d).live = true
  ioThread : (s.db d).ioThread = true
  mysqlInit : (s.db d).mysqlInit = true
  stmt_live : ∀ sid ∈ s.cached d, (s.stmt sid).live = true
  nodup : (s.cached d).Nodup

/-- How `Release` can fail. -/
inductive ReleaseFault (d : DbId) : Fault → Prop
  | gone (h : (s.db d).live = false) : ReleaseFault d (.databaseGone d)
  | thread (hl : (s.db d).live = true) (h : (s.db d).ioThread = false) :
      ReleaseFault d (.nullThread d)
  | statement {sid : StmtId} (hl : (s.db d).live = true) (ht : (s.db d).ioThread = true)
      (hc : sid ∈ s.cached d) (h : (s.stmt sid).live = false ∨ ¬ (s.cached d).Nodup) :
      ReleaseFault d (.statementGone sid)
  | mysql (hl : (s.db d).live = true) (ht : (s.db d).ioThread = true)
      (h : (s.db d).mysqlInit = false) : ReleaseFault d (.uninitialisedMySQL d)

theorem release_cases (d : DbId) :
    (s.CanRelease d ∧ s.release d = .ok (s.released d)) ∨
    ∃ f, s.ReleaseFault d f ∧ s.release d = .error f := by
  cases hl : (s.db d).live with
  | false => exact .inr ⟨_, .gone hl, by simp [release, access, hl]⟩
  | true =>
      cases ht : (s.db d).ioThread with
      | false => exact .inr ⟨_, .thread hl ht, by simp [release, access, hl, ht]⟩
      | true =>
          rcases releaseAll_cases (s.db d).preparedStatements
            (s.modify d fun db => { db with ioThread := false }) with ⟨hall, hnd, hok⟩ |
              ⟨sid, hsid, herr, hc⟩
          · cases hm : (s.db d).mysqlInit with
            | false => exact .inr ⟨_, .mysql hl ht hm, by simp [release, access, hl, ht, hok, hm]⟩
            | true =>
                refine .inl ⟨⟨hl, ht, hm, hall, hnd⟩, ?_⟩
                simp only [release, access, hl, ht, hok, hm, if_true, Bool.true_eq_false, if_false]
                simp only [released, modify, releaseStmts, cached, Function.update_self,
                  Function.update_idem]
                rfl
          · exact .inr ⟨_, .statement hl ht hsid hc, by simp [release, access, hl, ht, herr]⟩

/-! ### The connect callback -/

/-- The state after the connect callback has been started, if it is pending. -/
def fired (d : DbId) : State := if (s.db d).isPendingCallback then s.triggerCallback d else s

theorem fired_eq (d : DbId) :
    s.fired d = { s.modify d Database.fire with stack := (s.db d).connectFrames ++ s.stack } := by
  unfold fired Database.fire Database.connectFrames triggerCallback
  cases hp : (s.db d).isPendingCallback with
  | false => simp [modify, hp]
  | true =>
      rcases Int.lt_trichotomy (s.db d).callback 0 with h | h | h
      · simp [modify, Int.not_le.mpr h, Int.not_lt.mpr (Int.le_of_lt h), hp]
      · simp [modify, h, hp]
      · simp [modify, pushHandle, call, h, Int.le_of_lt h, Int.ne_of_gt h, hp]

@[simp] theorem fired_db (d d' : DbId) :
    (s.fired d).db d' = if d' = d then (s.db d).fire else s.db d' := by
  rw [fired_eq]
  exact s.modify_db d _ d'

@[simp] theorem fired_stmt (d : DbId) : (s.fired d).stmt = s.stmt := by rw [fired_eq]; rfl
@[simp] theorem fired_databases (d : DbId) : (s.fired d).databases = s.databases := by
  rw [fired_eq]; rfl
@[simp] theorem fired_deleted (d : DbId) : (s.fired d).deleted = s.deleted := by rw [fired_eq]; rfl
@[simp] theorem fired_deletedStmts (d : DbId) : (s.fired d).deletedStmts = s.deletedStmts := by
  rw [fired_eq]; rfl
@[simp] theorem fired_waiter (d : DbId) : (s.fired d).waiter = s.waiter := by rw [fired_eq]; rfl
@[simp] theorem fired_nextDb (d : DbId) : (s.fired d).nextDb = s.nextDb := by rw [fired_eq]; rfl
@[simp] theorem fired_nextStmt (d : DbId) : (s.fired d).nextStmt = s.nextStmt := by
  rw [fired_eq]; rfl
@[simp] theorem fired_nextAction (d : DbId) : (s.fired d).nextAction = s.nextAction := by
  rw [fired_eq]; rfl
@[simp] theorem fired_fault (d : DbId) : (s.fired d).fault = s.fault := by rw [fired_eq]; rfl

@[simp] theorem fired_stack (d : DbId) :
    (s.fired d).stack = (s.db d).connectFrames ++ s.stack := by rw [fired_eq]

/-! ### The table of databases -/

/-- The handles of the databases `ds` have been pushed. -/
def pushAll (ds : List DbId) : State := ds.foldl pushHandle s

theorem pushAll_eq (ds : List DbId) :
    s.pushAll ds = { s with
      db := fun d => if d ∈ ds then { s.db d with
        handle := if (s.db d).handle = .absent then .pointer else (s.db d).handle }
        else s.db d } := by
  induction ds generalizing s with
  | nil => simp [pushAll]
  | cons d ds ih =>
      have h := ih (s.pushHandle d)
      simp only [pushAll, List.foldl_cons] at h ⊢
      rw [h]
      simp only [pushHandle, modify_db, modify_stmt, modify_stack, modify_databases, modify_deleted,
        modify_deletedStmts, modify_waiter, modify_nextDb, modify_nextStmt, modify_nextAction,
        modify_fault, State.mk.injEq, and_self, and_true]
      funext d'
      by_cases h₁ : d' = d <;> by_cases h₂ : d' ∈ ds <;> simp [h₁, h₂]
      · subst h₁
        cases hh : (s.db d').handle <;> simp [h₂]
      · subst h₁
        simp [h₂]

@[simp] theorem pushAll_db (ds : List DbId) (d : DbId) :
    (s.pushAll ds).db d = if d ∈ ds then { s.db d with
      handle := if (s.db d).handle = .absent then .pointer else (s.db d).handle } else s.db d := by
  rw [pushAll_eq]

@[simp] theorem pushAll_stmt (ds : List DbId) : (s.pushAll ds).stmt = s.stmt := by rw [pushAll_eq]
@[simp] theorem pushAll_stack (ds : List DbId) : (s.pushAll ds).stack = s.stack := by
  rw [pushAll_eq]
@[simp] theorem pushAll_databases (ds : List DbId) : (s.pushAll ds).databases = s.databases := by
  rw [pushAll_eq]
@[simp] theorem pushAll_deleted (ds : List DbId) : (s.pushAll ds).deleted = s.deleted := by
  rw [pushAll_eq]
@[simp] theorem pushAll_deletedStmts (ds : List DbId) :
    (s.pushAll ds).deletedStmts = s.deletedStmts := by rw [pushAll_eq]
@[simp] theorem pushAll_waiter (ds : List DbId) : (s.pushAll ds).waiter = s.waiter := by
  rw [pushAll_eq]
@[simp] theorem pushAll_nextDb (ds : List DbId) : (s.pushAll ds).nextDb = s.nextDb := by
  rw [pushAll_eq]
@[simp] theorem pushAll_nextStmt (ds : List DbId) : (s.pushAll ds).nextStmt = s.nextStmt := by
  rw [pushAll_eq]
@[simp] theorem pushAll_nextAction (ds : List DbId) : (s.pushAll ds).nextAction = s.nextAction := by
  rw [pushAll_eq]

@[simp] theorem pushAll_fault (ds : List DbId) : (s.pushAll ds).fault = s.fault := by
  rw [pushAll_eq]

/-! ### Construction -/

@[simp] theorem createDatabase_db (callback junk : Bool) (d : DbId) :
    (s.createDatabase callback junk).db d =
      if d = s.nextDb then Database.construct callback junk else s.db d := by
  simp [createDatabase, Function.update_apply]

@[simp] theorem createDatabase_stmt (callback junk : Bool) :
    (s.createDatabase callback junk).stmt = s.stmt := rfl
@[simp] theorem createDatabase_stack (callback junk : Bool) :
    (s.createDatabase callback junk).stack = s.stack := rfl
@[simp] theorem createDatabase_nextDb (callback junk : Bool) :
    (s.createDatabase callback junk).nextDb = s.nextDb + 1 := rfl
@[simp] theorem createDatabase_nextStmt (callback junk : Bool) :
    (s.createDatabase callback junk).nextStmt = s.nextStmt := rfl
@[simp] theorem createDatabase_nextAction (callback junk : Bool) :
    (s.createDatabase callback junk).nextAction = s.nextAction := rfl
@[simp] theorem createDatabase_databases (callback junk : Bool) :
    (s.createDatabase callback junk).databases = s.nextDb :: s.databases := rfl
@[simp] theorem createDatabase_waiter (callback junk : Bool) :
    (s.createDatabase callback junk).waiter = s.waiter := rfl
@[simp] theorem createDatabase_deleted (callback junk : Bool) :
    (s.createDatabase callback junk).deleted = s.deleted := rfl
@[simp] theorem createDatabase_deletedStmts (callback junk : Bool) :
    (s.createDatabase callback junk).deletedStmts = s.deletedStmts := rfl

@[simp] theorem createDatabase_fault (callback junk : Bool) :
    (s.createDatabase callback junk).fault = s.fault := rfl

@[simp] theorem statementCreated_db (d d' : DbId) (query : Bytes) (ok : Bool) :
    (s.statementCreated d query ok).db d' =
      if d' = d then { s.db d with running := none } else s.db d' := by
  cases ok <;> simp [statementCreated]

@[simp] theorem statementCreated_stmt (d : DbId) (query : Bytes) (ok : Bool) (sid : StmtId) :
    (s.statementCreated d query ok).stmt sid =
      if ok = true ∧ sid = s.nextStmt then ⟨true, d, query, .absent⟩ else s.stmt sid := by
  cases ok <;> simp [statementCreated, Function.update_apply]

@[simp] theorem statementCreated_nextStmt (d : DbId) (query : Bytes) (ok : Bool) :
    (s.statementCreated d query ok).nextStmt = if ok then s.nextStmt + 1 else s.nextStmt := by
  cases ok <;> rfl
@[simp] theorem statementCreated_waiter (d : DbId) (query : Bytes) (ok : Bool) :
    (s.statementCreated d query ok).waiter = some (if ok then some s.nextStmt else none) := by
  cases ok <;> rfl
@[simp] theorem statementCreated_stack (d : DbId) (query : Bytes) (ok : Bool) :
    (s.statementCreated d query ok).stack = s.stack := by cases ok <;> rfl
@[simp] theorem statementCreated_nextDb (d : DbId) (query : Bytes) (ok : Bool) :
    (s.statementCreated d query ok).nextDb = s.nextDb := by cases ok <;> rfl
@[simp] theorem statementCreated_nextAction (d : DbId) (query : Bytes) (ok : Bool) :
    (s.statementCreated d query ok).nextAction = s.nextAction := by cases ok <;> rfl
@[simp] theorem statementCreated_databases (d : DbId) (query : Bytes) (ok : Bool) :
    (s.statementCreated d query ok).databases = s.databases := by cases ok <;> rfl
@[simp] theorem statementCreated_deleted (d : DbId) (query : Bytes) (ok : Bool) :
    (s.statementCreated d query ok).deleted = s.deleted := by cases ok <;> rfl
@[simp] theorem statementCreated_deletedStmts (d : DbId) (query : Bytes) (ok : Bool) :
    (s.statementCreated d query ok).deletedStmts = s.deletedStmts := by cases ok <;> rfl
@[simp] theorem statementCreated_fault (d : DbId) (query : Bytes) (ok : Bool) :
    (s.statementCreated d query ok).fault = s.fault := by cases ok <;> rfl

attribute [simp] tmysqlCreate databaseInitialize call pushHandle pushStmtHandle delete
  releaseStmt post
  accept queueQuery queueStatement disconnect deregisterStatement popAll cacheStatement complete
  released releaseStmts

end State
end Tmysql4
