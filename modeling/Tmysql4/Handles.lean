import Tmysql4.Cache
import Tmysql4.HandleTable

/-! # The userdata of databases and statements

`Handle` says what a script has seen of an object; here the userdata and the registry references
behind it are explicit.  `handleOps` lists the `PushHandle` and nullifying calls that a step
makes, in their order, and `Module` runs them on a handle table next to the state.  `status_step`
compares the two: what a step does to `Handle` is what its operations do. -/

namespace Tmysql4

open HandleTable (Status Table Agrees)

/-- An object that is handed to Lua. -/
inductive Object where
  | database (d : DbId)
  | statement (sid : StmtId)
deriving DecidableEq, Repr

inductive TypeId where
  | iDatabaseMTID
  | iStatementMTID
deriving DecidableEq, Repr

def Object.typeId : Object → TypeId
  | .database _ => .iDatabaseMTID
  | .statement _ => .iStatementMTID

def Handle.status : Handle → Status
  | .absent => .unseen
  | .pointer => .held
  | .null => .cleared

/-- `PushHandle`, or `PushHandle` with `SetUserType(-1, NULL)` and `ReferenceFree`. -/
inductive HandleOp where
  | push (o : Object)
  | nullify (o : Object)
deriving DecidableEq, Repr

namespace HandleOp

def apply (t : Table Object TypeId) : HandleOp → Table Object TypeId
  | .push o => t.pushHandle Object.typeId o
  | .nullify o => t.nullify Object.typeId o

def status (st : Object → Status) : HandleOp → Object → Status
  | .push o => Function.update st o (st o).pushed
  | .nullify o => Function.update st o .cleared

/-- No object is nullified twice. -/
def Ready : List HandleOp → (Object → Status) → Prop
  | [], _ => True
  | .push o :: ops, st => Ready ops (status st (.push o))
  | .nullify o :: ops, st => st o ≠ .cleared ∧ Ready ops (status st (.nullify o))

theorem ready_push {ops : List HandleOp} {st : Object → Status}
    (h : ∀ op ∈ ops, ∃ o, op = .push o) : Ready ops st := by
  induction ops generalizing st with
  | nil => trivial
  | cons op ops ih =>
      obtain ⟨o, rfl⟩ := h op List.mem_cons_self
      exact ih fun op hop => h op (List.mem_cons_of_mem _ hop)

theorem ready_nullify {os : List Object} {st : Object → Status} (hnd : os.Nodup)
    (h : ∀ o ∈ os, st o ≠ .cleared) : Ready (os.map .nullify) st := by
  induction os generalizing st with
  | nil => trivial
  | cons o os ih =>
      obtain ⟨hne, hnd⟩ := List.nodup_cons.mp hnd
      refine ⟨h o List.mem_cons_self, ih hnd fun o' ho' => ?_⟩
      have hoo' : o' ≠ o := fun heq => hne (heq ▸ ho')
      simpa [status, hoo'] using h o' (List.mem_cons_of_mem _ ho')

theorem agrees_run {ops : List HandleOp} {st : Object → Status} {t : Table Object TypeId}
    (h : Agrees Object.typeId st t) (hr : Ready ops st) :
    Agrees Object.typeId (ops.foldl status st) (ops.foldl apply t) := by
  induction ops generalizing st t with
  | nil => exact h
  | cons op ops ih =>
      cases op with
      | push o => exact ih (h.pushHandle o) hr
      | nullify o => exact ih (h.nullify hr.1) hr.2

end HandleOp

namespace State

variable (s : State)

def status : Object → Status
  | .database d => (s.db d).handle.status
  | .statement sid => (s.stmt sid).handle.status

/-- The handle operations of a call or of a step of the innermost C++ frame. -/
def handleOps : Label → List HandleOp
  | .create _ _ => [.push (.database s.nextDb)]
  | .connect callback _ result =>
      if result = .connected ∧ callback = true then [.push (.database s.nextDb)] else []
  | .getTable => s.databases.map fun d => .push (.database d)
  | .prepare d query =>
      if (s.db d).handle = .pointer ∧ (s.db d).isConnected = true then
        ((s.db d).preparedStatements.lookup query).toList.map fun sid => .push (.statement sid)
      else []
  | .poll d =>
      if (s.db d).handle = .pointer ∧ (s.db d).isPendingCallback = true ∧ 0 < (s.db d).callback then
        [.push (.database d)]
      else []
  | .stmtGc sid => if (s.stmt sid).handle = .pointer then [.nullify (.statement sid)] else []
  | .cpp =>
      match s.stack with
      | .connect d :: _ => [.push (.database d)]
      | .release d :: _ =>
          ((s.db d).preparedStatements.map fun e => .nullify (.statement e.2)) ++
            [.nullify (.database d)]
      | .prepare _ _ :: _ =>
          s.waiter.toList.flatMap fun r => r.toList.map fun sid => .push (.statement sid)
      | _ => []
  | _ => []

end State

/-- The module with the userdata that Lua holds. -/
structure Module where
  state : State
  handles : Table Object TypeId

namespace Module

def init : Module := ⟨State.init, Table.empty Object TypeId⟩

def step (m : Module) (l : Label) : Option Module :=
  (m.state.step l).map fun s' =>
    ⟨s', if s'.fault.isSome then m.handles
      else (m.state.handleOps l).foldl HandleOp.apply m.handles⟩

end Module

namespace State

variable {s s' : State} {l : Label} {d : DbId} {sid : StmtId}

theorem action_of_step (hs : s.step l = some s') (hf : s'.fault = none) :
    s.action l = some (.ok s') := by
  unfold step at hs
  split at hs
  · cases hs
  · obtain ⟨r, hr, rfl⟩ := Option.map_eq_some_iff.mp hs
    cases r with
    | ok s₁ => exact hr
    | error f => cases hf

/-! ### What a step does to the handles -/

theorem status_congr (hdb : ∀ d, (s'.db d).handle = (s.db d).handle)
    (hstmt : ∀ sid, (s'.stmt sid).handle = (s.stmt sid).handle) : s'.status = s.status := by
  funext o
  cases o with
  | database d => exact congrArg Handle.status (hdb d)
  | statement sid => exact congrArg Handle.status (hstmt sid)

theorem status_pushHandle (s : State) (d : DbId) :
    (s.pushHandle d).status = HandleOp.status s.status (.push (.database d)) := by
  funext o
  cases o with
  | database d' =>
      by_cases hd : d' = d
      · subst hd
        cases hh : (s.db d').handle <;>
          simp [status, HandleOp.status, Handle.status, Status.pushed, hh]
      · simp [status, HandleOp.status, hd]
  | statement sid => simp [status, HandleOp.status]

theorem status_pushStmtHandle (s : State) (sid : StmtId) :
    (s.pushStmtHandle sid).status = HandleOp.status s.status (.push (.statement sid)) := by
  funext o
  cases o with
  | database d => simp [status, HandleOp.status]
  | statement sid' =>
      by_cases hs : sid' = sid
      · subst hs
        cases hh : (s.stmt sid').handle <;>
          simp [status, HandleOp.status, Handle.status, Status.pushed, hh]
      · simp [status, HandleOp.status, hs]

theorem status_pushAll (ds : List DbId) (s : State) :
    (s.pushAll ds).status =
      (ds.map fun d => HandleOp.push (.database d)).foldl HandleOp.status s.status := by
  induction ds generalizing s with
  | nil => rfl
  | cons d ds ih =>
      rw [List.map_cons, List.foldl_cons, ← status_pushHandle]
      exact ih (s.pushHandle d)

theorem status_releaseStmt (s : State) (sid : StmtId) :
    (s.releaseStmt sid).status = HandleOp.status s.status (.nullify (.statement sid)) := by
  funext o
  cases o with
  | database d => simp [status, HandleOp.status]
  | statement sid' =>
      by_cases hs : sid' = sid
      · subst hs
        simp [status, HandleOp.status, Handle.status]
      · simp [status, HandleOp.status, hs]

theorem status_releaseStmts (ids : List StmtId) (s : State) :
    (s.releaseStmts ids).status =
      (ids.map fun sid => HandleOp.nullify (.statement sid)).foldl HandleOp.status s.status := by
  induction ids generalizing s with
  | nil => simp only [releaseStmts_nil, List.map_nil, List.foldl_nil]
  | cons sid ids ih =>
      rw [← releaseStmt_releaseStmts, ih, status_releaseStmt, List.map_cons, List.foldl_cons]

theorem status_released (s : State) (d : DbId) :
    (s.released d).status =
      (((s.cached d).map fun sid => HandleOp.nullify (.statement sid)) ++
        [HandleOp.nullify (.database d)]).foldl HandleOp.status s.status := by
  rw [List.foldl_append, ← status_releaseStmts, List.foldl_cons, List.foldl_nil]
  funext o
  cases o with
  | database d' =>
      by_cases hd : d' = d
      · subst hd
        simp [status, HandleOp.status, Handle.status]
      · simp [status, HandleOp.status, hd]
  | statement sid => simp [status, HandleOp.status]

/-- A new database has no handle. -/
theorem status_createDatabase (hl : s.Lifecycle) (callback junk : Bool) :
    (s.createDatabase callback junk).status = s.status := by
  refine status_congr (fun d => ?_) fun sid => by simp
  by_cases hd : d = s.nextDb
  · subst hd
    rw [hl.fresh _ (Nat.le_refl _)]
    simp [Database.construct, Database.raw]
  · simp [hd]

theorem status_fired (s : State) (d : DbId) :
    (s.fired d).status =
      (if (s.db d).isPendingCallback = true ∧ 0 < (s.db d).callback then
        [HandleOp.push (.database d)] else []).foldl HandleOp.status s.status := by
  have hhandle : ∀ d', ((s.fired d).db d').handle =
      if d' = d then (s.db d).fire.handle else (s.db d').handle := fun d' => by
    rw [fired_db]
    split <;> rfl
  split
  · rw [List.foldl_cons, List.foldl_nil, ← status_pushHandle]
    refine status_congr (fun d' => ?_) fun sid => by simp
    rw [hhandle]
    simp
    grind [Database.fire]
  · rw [List.foldl_nil]
    refine status_congr (fun d' => ?_) fun sid => by simp
    rw [hhandle]
    grind [Database.fire]

theorem status_databaseInitialize (hl : s.Lifecycle) (callback junk : Bool)
    (result : ConnectResult) :
    ((s.createDatabase callback junk).databaseInitialize s.nextDb result).status = s.status := by
  rw [← status_createDatabase hl callback junk]
  refine status_congr (fun d => ?_) fun sid => by simp
  cases result <;> simp <;> grind

theorem status_connect (hl : s.Lifecycle) (callback junk : Bool) (result : ConnectResult) :
    (s.tmysqlConnect callback junk result).status =
      (s.handleOps (.connect callback junk result)).foldl HandleOp.status s.status := by
  have hinit := status_databaseInitialize hl callback junk result
  unfold tmysqlConnect
  by_cases hr : result = .connected
  · subst hr
    have hfired := status_fired
      (((s.createDatabase callback junk).databaseInitialize s.nextDb .connected).call
      (.connect s.nextDb)) s.nextDb
    rw [if_pos rfl]
    refine Eq.trans hfired ?_
    have hcall : (((s.createDatabase callback junk).databaseInitialize s.nextDb .connected).call
        (.connect s.nextDb)).status = s.status := hinit
    rw [hcall]
    cases callback <;> simp [handleOps, Database.construct]
  · rw [if_neg hr, handleOps, if_neg (fun h => hr h.1), List.foldl_nil, ← hinit]
    exact status_congr (fun d => by simp; grind) fun sid => by simp

/-- A call is made by Lua code and ends as its label says. -/
theorem luaCall_of_step (hs : s.step l = some s') (hf : s'.fault = none) (io : l.isIo = false)
    (hret : l ≠ .ret) (hcpp : l ≠ .cpp) : s.luaTurn = true ∧ s.luaCall l = some (.ok s') := by
  have hact := action_of_step hs hf
  cases l with
  | io d i => cases io
  | ret => exact absurd rfl hret
  | cpp => exact absurd rfl hcpp
  | _ =>
      simp only [action] at hact
      split at hact
      · exact ⟨‹_›, hact⟩
      · cases hact

theorem ok_of_method {handle : Handle} {body : Except Fault State}
    (h : method handle body = some (.ok s')) : body = .ok s' := by
  unfold method at h
  split at h
  · cases h
  · exact Option.some.inj h

theorem status_prepare {query : Bytes} (hok : s.luaPrepare d query = .ok s') :
    s'.status = (s.handleOps (.prepare d query)).foldl HandleOp.status s.status := by
  unfold luaPrepare getDatabaseFromStack access accessStmt at hok
  simp only [handleOps]
  split at hok
  · rename_i hh
    cases hc : (s.db d).isConnected with
    | false =>
        simp only [hc, Bool.not_false, Bool.and_true, if_true] at hok
        split at hok
        · cases hok
          simp
        · cases hok
    | true =>
        rw [if_pos ⟨hh, rfl⟩]
        simp only [hc, Bool.not_true, Bool.and_false, Bool.false_eq_true, if_false] at hok
        split at hok
        · split at hok
          · rename_i sid hlookup
            rw [hlookup]
            split at hok
            · cases hok
              exact status_pushStmtHandle s sid
            · cases hok
          · rename_i hlookup
            rw [hlookup]
            cases hok
            exact status_congr (fun d' => by simp; grind) fun sid => rfl
        · cases hok
  · rename_i hh
    cases hok
    rw [if_neg fun h => hh h.1]
    rfl

theorem status_poll (hok : s.luaPoll d = .ok s') :
    s'.status = (s.handleOps (.poll d)).foldl HandleOp.status s.status := by
  unfold luaPoll getDatabaseFromStack access at hok
  simp only [handleOps]
  split at hok
  · rename_i hh
    split at hok
    · cases hok
      have hfired := status_fired (s.call (.poll d)) d
      simp only [hh, true_and]
      exact hfired
    · cases hok
  · rename_i hh
    cases hok
    rw [if_neg fun h => hh h.1]
    rfl

theorem status_stmtGc (hok : s.luaStmtGc sid = .ok s') :
    s'.status = (s.handleOps (.stmtGc sid)).foldl HandleOp.status s.status := by
  unfold luaStmtGc getPStatementFromStack accessStmt access at hok
  simp only [handleOps]
  split at hok
  · rename_i hh
    rw [if_pos hh]
    split at hok
    · split at hok
      · cases hok
        rw [status_releaseStmt, List.foldl_cons, List.foldl_nil]
        exact congrArg (HandleOp.status · _) (status_congr (fun d => by simp; grind) fun _ => rfl)
      · cases hok
    · cases hok
  · rename_i hh
    cases hok
    rw [if_neg hh]
    rfl

theorem status_cpp (hs : s.step .cpp = some s') (hf : s'.fault = none) :
    s'.status = (s.handleOps .cpp).foldl HandleOp.status s.status := by
  obtain ⟨-, he | ⟨f, -, rfl⟩⟩ := step_effect hs
  · cases he with
    | stay turn =>
        have hact := action_of_step hs hf
        simp only [action, luaTurn] at hact turn
        split at hact
        · cases hact
        · rename_i frame stack top
          rw [top] at turn
          cases frame with
          | lua => cases hact
          | _ => cases turn
    | dispatchDone d stack top | dispatchSkip d action rest stack top | pollPop d stack top
      | dispatchStart d action rest stack top | destroy d stack top | waitDone d stack top =>
        simp only [handleOps, top, List.foldl_nil]
        exact status_congr (fun d' => by simp <;> grind) fun sid => by simp
    | prepareFailed d query stack top done =>
        simp only [handleOps, top, done]
        exact status_congr (fun _ => rfl) fun _ => rfl
    | connectDone d stack top live =>
        simp only [handleOps, top]
        exact status_pushHandle (s.pop stack) d
    | release d stack top can =>
        simp only [handleOps, top]
        refine Eq.trans (status_released s d) ?_
        rw [cached, List.map_map]
        rfl
    | prepareDone d query sid stack top done live =>
        simp only [handleOps, top, done]
        refine Eq.trans (status_pushStmtHandle _ sid) ?_
        exact congrArg (HandleOp.status · _) (status_congr (fun d' => by simp; grind) fun _ => rfl)
  · cases hf

/-- What a step without a fault does to the handles. -/
theorem status_step (hw : s.Wf) (hs : s.step l = some s') (hf : s'.fault = none) :
    s'.status = (s.handleOps l).foldl HandleOp.status s.status := by
  have hcall := luaCall_of_step hs hf
  have hquiet : (∀ s', s.Effect l s' → s'.status = s.status) → s'.status = s.status := by
    intro h
    obtain ⟨-, he | ⟨f, -, rfl⟩⟩ := step_effect hs
    · exact h s' he
    · cases hf
  cases l with
  | create callback junk =>
      obtain ⟨-, hok⟩ := hcall rfl (by simp) (by simp)
      cases hok
      rw [tmysqlCreate, status_pushHandle, status_createDatabase hw.lifecycle]
      rfl
  | connect callback junk result =>
      obtain ⟨-, hok⟩ := hcall rfl (by simp) (by simp)
      cases hok
      exact status_connect hw.lifecycle callback junk result
  | getTable =>
      obtain ⟨-, hok⟩ := hcall rfl (by simp) (by simp)
      obtain ⟨-, he⟩ | ⟨d, -, -, he⟩ := getTable_cases s.databases s
      · rw [luaCall, he] at hok
        cases hok
        exact status_pushAll s.databases s
      · rw [luaCall, he] at hok
        cases hok
  | prepare d query => exact status_prepare (ok_of_method (hcall rfl (by simp) (by simp)).2)
  | poll d => exact status_poll (ok_of_method (hcall rfl (by simp) (by simp)).2)
  | stmtGc sid => exact status_stmtGc (ok_of_method (hcall rfl (by simp) (by simp)).2)
  | cpp => exact status_cpp hs hf
  | dbConnect d r =>
      refine hquiet fun s' he => ?_
      cases he with
      | stay turn => rfl
      | dbConnected => exact status_congr (fun d' => by simp; grind) fun sid => by simp
      | dbConnectFailed d r calls idle failed can =>
          exact absurd can (hw.lifecycle.not_canRelease idle failed)
  | io d i =>
      refine hquiet fun s' he => ?_
      cases he with
      | stay turn => rfl
      | created d ok query live running =>
          -- a new statement has no handle
          refine status_congr (fun d' => by simp; grind) fun sid => ?_
          by_cases hsid : sid = s.nextStmt
          · subst hsid
            cases ok <;> simp [hw.statements.fresh _ (Nat.le_refl _), PStatement.raw]
          · simp [hsid]
      | _ => exact status_congr (fun d' => by simp; grind) fun sid => by simp
  | _ =>
      refine hquiet fun s' he => ?_
      cases he with
      | stay turn => rfl
      | _ => exact status_congr (fun d' => by simp <;> grind) fun sid => by simp

end State
end Tmysql4
