import Tmysql4.Fields

/-! # What a step can do

The inversion lemma of the system: `step_effect` says once, for every label, which states a step
can lead to and which guards held before it, and which accesses can fault.  All invariants of the
system are proved by cases on `Effect` and `Crash`; no proof unfolds a method again. -/

namespace Tmysql4

/-- The C++ function of the frame will access the database again. -/
def Frame.uses (d : DbId) : Frame → Bool
  | .lua => false
  | .dispatch d' completed => d' = d && !completed.isEmpty
  | .poll d' => d' = d
  | .connect d' => d' = d
  | .wait d' => d' = d
  | .release d' => d' = d
  | .destroy d' => d' = d
  | .prepare d' _ => d' = d

namespace State

variable (s : State)

/-! ### Effects -/

/-- A call is made on the live database `d` through its handle. -/
structure Calls (d : DbId) : Prop where
  turn : s.luaTurn = true
  handle : (s.db d).handle = .pointer
  live : (s.db d).live = true

/-- A call is made on the live statement `sid` of a live database through its handle. -/
structure CallsStmt (sid : StmtId) : Prop where
  turn : s.luaTurn = true
  handle : (s.stmt sid).handle = .pointer
  live : (s.stmt sid).live = true
  database_live : (s.db (s.stmt sid).database).live = true

/-- The innermost frame has been popped, down to `stack`. -/
@[simp] def pop (stack : List Frame) : State := { s with stack := stack }

/-- What a step that does not fault can do. -/
inductive Effect : Label → State → Prop
  | stay {l : Label} (turn : s.luaTurn = true) : Effect l s
  | create (callback junk : Bool) (turn : s.luaTurn = true) :
      Effect (.create callback junk) (s.tmysqlCreate callback junk)
  | connected (callback junk : Bool) (turn : s.luaTurn = true) :
      Effect (.connect callback junk .connected)
        ((((s.createDatabase callback junk).databaseInitialize s.nextDb .connected).call
          (.connect s.nextDb)).fired s.nextDb)
  | connectFailed (callback junk : Bool) (r : ConnectResult) (turn : s.luaTurn = true)
      (failed : r ≠ .connected) :
      Effect (.connect callback junk r)
        (((s.createDatabase callback junk).databaseInitialize s.nextDb r).delete s.nextDb)
  | getTable (turn : s.luaTurn = true) (live : ∀ d ∈ s.databases, (s.db d).live = true) :
      Effect .getTable (s.pushAll s.databases)
  | dbConnected (d : DbId) (calls : s.Calls d) (idle : (s.db d).isConnected = false) :
      Effect (.dbConnect d .connected) (s.databaseInitialize d .connected)
  | dbConnectFailed (d : DbId) (r : ConnectResult) (calls : s.Calls d)
      (idle : (s.db d).isConnected = false) (failed : r ≠ .connected)
      (can : (s.databaseInitialize d r).CanRelease d) :
      Effect (.dbConnect d r) (((s.databaseInitialize d r).released d).delete d)
  | query (d : DbId) (callback : Bool) (calls : s.Calls d)
      (connected : (s.db d).isConnected = true) :
      Effect (.query d callback) (s.queueQuery d callback)
  | run (sid : StmtId) (callback : Bool) (calls : s.CallsStmt sid) :
      Effect (.run sid callback) (s.queueStatement (s.stmt sid).database sid callback)
  | prepareCached (d : DbId) (query : Bytes) (sid : StmtId) (calls : s.Calls d)
      (connected : (s.db d).isConnected = true)
      (cached : (s.db d).preparedStatements.lookup query = some sid)
      (live : (s.stmt sid).live = true) : Effect (.prepare d query) (s.pushStmtHandle sid)
  | prepare (d : DbId) (query : Bytes) (calls : s.Calls d)
      (connected : (s.db d).isConnected = true)
      (uncached : (s.db d).preparedStatements.lookup query = none) :
      Effect (.prepare d query)
        { (s.post d (.createStatement query)).call (.prepare d query) with waiter := none }
  | poll (d : DbId) (calls : s.Calls d) : Effect (.poll d) ((s.call (.poll d)).fired d)
  | disconnect (d : DbId) (calls : s.Calls d) (connected : (s.db d).isConnected = true) :
      Effect (.disconnect d) (s.disconnect d)
  | dbGc (d : DbId) (calls : s.Calls d) :
      Effect (.dbGc d) ((s.modify d fun db => { db with isInGC := true }).disconnect d)
  | stmtGc (sid : StmtId) (calls : s.CallsStmt sid) :
      Effect (.stmtGc sid)
        ((s.deregisterStatement (s.stmt sid).database (s.stmt sid).query).releaseStmt sid)
  | ret (stack : List Frame) (top : s.stack = .lua :: stack) : Effect .ret (s.pop stack)
  | dispatchDone (d : DbId) (stack : List Frame) (top : s.stack = .dispatch d [] :: stack) :
      Effect .cpp (s.pop stack)
  | dispatchSkip (d : DbId) (action : DatabaseAction) (rest : List DatabaseAction)
      (stack : List Frame) (top : s.stack = .dispatch d (action :: rest) :: stack)
      (live : (s.db d).live = true) (quiet : ((s.db d).isInGC || !action.callback) = true) :
      Effect .cpp ((s.pop stack).call (.dispatch d rest))
  | dispatchStart (d : DbId) (action : DatabaseAction) (rest : List DatabaseAction)
      (stack : List Frame) (top : s.stack = .dispatch d (action :: rest) :: stack)
      (live : (s.db d).live = true) (loud : (s.db d).isInGC = false)
      (callback : action.callback = true) :
      Effect .cpp ((((s.pop stack).call (.dispatch d rest)).modify d fun db =>
        { db with started := db.started ++ [action.id] }).call .lua)
  | pollPop (d : DbId) (stack : List Frame) (top : s.stack = .poll d :: stack)
      (live : (s.db d).live = true) : Effect .cpp ((s.pop stack).popAll d)
  | connectDone (d : DbId) (stack : List Frame) (top : s.stack = .connect d :: stack)
      (live : (s.db d).live = true) : Effect .cpp ((s.pop stack).pushHandle d)
  | waitDone (d : DbId) (stack : List Frame) (top : s.stack = .wait d :: stack)
      (live : (s.db d).live = true) (stopped : (s.db d).stopped = true) :
      Effect .cpp (((s.pop stack).call (.release d)).popAll d)
  | release (d : DbId) (stack : List Frame) (top : s.stack = .release d :: stack)
      (can : s.CanRelease d) : Effect .cpp (((s.released d).pop stack).call (.destroy d))
  | destroy (d : DbId) (stack : List Frame) (top : s.stack = .destroy d :: stack)
      (live : (s.db d).live = true) :
      Effect .cpp
        ({ s.pop stack with databases := s.databases.filter (· ≠ d) }.delete d)
  | prepareFailed (d : DbId) (query : Bytes) (stack : List Frame)
      (top : s.stack = .prepare d query :: stack) (done : s.waiter = some none) :
      Effect .cpp (s.pop stack)
  | prepareDone (d : DbId) (query : Bytes) (sid : StmtId) (stack : List Frame)
      (top : s.stack = .prepare d query :: stack) (done : s.waiter = some (some sid))
      (live : (s.db d).live = true) : Effect .cpp ((s.pop stack).cacheStatement d sid query)
  | take (d : DbId) (task : Task) (queue : List Task) (live : (s.db d).live = true)
      (thread : (s.db d).ioThread = true) (active : (s.db d).stopped = false)
      (idle : (s.db d).running = none) (head : (s.db d).queue = task :: queue) :
      Effect (.io d .take)
        (s.modify d fun db => { db with queue := queue, running := some task })
  | reconnected (d : DbId) (task : Task) (action : DatabaseAction)
      (live : (s.db d).live = true) (running : (s.db d).running = some task)
      (runs : task.action = some action) :
      Effect (.io d .reconnected) (s.modify d fun db => { db with isPendingCallback := false })
  | finish (d : DbId) (ok : Bool) (task : Task) (action : DatabaseAction)
      (live : (s.db d).live = true) (running : (s.db d).running = some task)
      (runs : task.action = some action) : Effect (.io d (.finish ok)) (s.complete d action)
  | created (d : DbId) (ok : Bool) (query : Bytes) (live : (s.db d).live = true)
      (running : (s.db d).running = some (.createStatement query)) :
      Effect (.io d (.finish ok)) (s.statementCreated d query ok)
  | stop (d : DbId) (work : (s.db d).ioWork = false) (empty : (s.db d).queue = [])
      (idle : (s.db d).running = none) (active : (s.db d).stopped = false) :
      Effect (.io d .stop) (s.modify d fun db => { db with stopped := true })

/-- The steps that fault. -/
inductive Crash : Label → Fault → Prop
  | method {l : Label} (d : DbId) (handle : (s.db d).handle = .pointer)
      (dead : (s.db d).live = false) : Crash l (.databaseGone d)
  | statement {l : Label} (sid : StmtId) (handle : (s.stmt sid).handle = .pointer)
      (dead : (s.stmt sid).live = false) : Crash l (.statementGone sid)
  | parent {l : Label} (sid : StmtId) (handle : (s.stmt sid).handle = .pointer)
      (live : (s.stmt sid).live = true) (dead : (s.db (s.stmt sid).database).live = false) :
      Crash l (.databaseGone (s.stmt sid).database)
  | cached {l : Label} (d : DbId) (query : Bytes) (sid : StmtId) (calls : s.Calls d)
      (connected : (s.db d).isConnected = true)
      (cached : (s.db d).preparedStatements.lookup query = some sid)
      (dead : (s.stmt sid).live = false) : Crash l (.statementGone sid)
  | registry (d : DbId) (mem : d ∈ s.databases) (dead : (s.db d).live = false) :
      Crash .getTable (.databaseGone d)
  | dbConnect (d : DbId) (r : ConnectResult) (f : Fault) (calls : s.Calls d)
      (idle : (s.db d).isConnected = false) (failed : r ≠ .connected)
      (fault : (s.databaseInitialize d r).ReleaseFault d f) : Crash (.dbConnect d r) f
  | frame (d : DbId) (frame : Frame) (stack : List Frame) (top : s.stack = frame :: stack)
      (uses : frame.uses d = true) (dead : (s.db d).live = false) : Crash .cpp (.databaseGone d)
  | release (d : DbId) (stack : List Frame) (f : Fault) (top : s.stack = .release d :: stack)
      (live : (s.db d).live = true) (fault : s.ReleaseFault d f) : Crash .cpp f
  | thread (d : DbId) (i : IoStep) (dead : (s.db d).live = false)
      (busy : (s.db d).ioThread = true ∨ (s.db d).running.isSome = true) :
      Crash (.io d i) (.databaseGone d)
  | task (d : DbId) (i : IoStep) (sid : StmtId) (action : DatabaseAction)
      (mem : .runStatement sid action ∈ (s.db d).queue ∨
        (s.db d).running = some (.runStatement sid action))
      (dead : (s.stmt sid).live = false) : Crash (.io d i) (.taskStatementGone sid)

/-! ### The inversion lemma -/

/-- The outcome of a step is one of the effects or one of the crashes of the label. -/
def Explains (l : Label) : Except Fault State → Prop
  | .ok s' => s.Effect l s'
  | .error f => s.Crash l f

variable {s}

theorem explains_database {l : Label} {d : DbId} {throwDisconnectedError : Bool}
    {body : Except Fault State} (turn : s.luaTurn = true)
    (h : s.Calls d → (throwDisconnectedError = true → (s.db d).isConnected = true) →
      s.Explains l body) : s.Explains l (s.getDatabaseFromStack d throwDisconnectedError body) := by
  unfold getDatabaseFromStack access
  split
  next hh =>
      split
      next hl =>
          split
          next hc => exact .stay turn
          next hc =>
              refine h ⟨turn, hh, hl⟩ fun ht => ?_
              simpa [ht] using hc
      next hl => exact .method d hh (by simpa using hl)
  next => exact .stay turn

theorem explains_statement {l : Label} {sid : StmtId} {body : Except Fault State}
    (turn : s.luaTurn = true) (h : s.CallsStmt sid → s.Explains l body) :
    s.Explains l (s.getPStatementFromStack sid (s.access (s.stmt sid).database body)) := by
  unfold getPStatementFromStack accessStmt access
  split
  next hh =>
      split
      next hl =>
          split
          next hd => exact h ⟨turn, hh, hl, hd⟩
          next hd => exact .parent sid hh hl (by simpa using hd)
      next hl => exact .statement sid hh (by simpa using hl)
  next => exact .stay turn

/-- A frame's access to its database. -/
theorem explains_frame {d : DbId} {frame : Frame} {stack : List Frame} {k : Except Fault State}
    (top : s.stack = frame :: stack) (uses : frame.uses d = true)
    (h : (s.db d).live = true → s.Explains .cpp k) : s.Explains .cpp (s.access d k) := by
  unfold access
  split
  next hl => exact h hl
  next hl => exact .frame d frame stack top uses (by simpa using hl)

theorem explains_connect (callback junk : Bool) (r : ConnectResult) (turn : s.luaTurn = true) :
    s.Effect (.connect callback junk r) (s.tmysqlConnect callback junk r) := by
  unfold tmysqlConnect
  by_cases hr : r = .connected
  · subst hr
    exact .connected callback junk turn
  · simp only [hr, if_false]
    exact .connectFailed callback junk r turn hr

/-- `tmysql.GetTable` pushes every handle, or stops at a dead database. -/
theorem getTable_cases (ds : List DbId) (s : State) :
    ((∀ d ∈ ds, (s.db d).live = true) ∧ tmysqlGetTable ds s = .ok (s.pushAll ds)) ∨
    ∃ d ∈ ds, (s.db d).live = false ∧ tmysqlGetTable ds s = .error (.databaseGone d) := by
  induction ds generalizing s with
  | nil => exact .inl ⟨by simp, rfl⟩
  | cons d ds ih =>
      have hlive : ∀ d', ((s.pushHandle d).db d').live = (s.db d').live := by
        intro d'
        by_cases hd : d' = d
        · subst hd
          simp
        · simp [hd]
      cases hl : (s.db d).live with
      | false => exact .inr ⟨d, List.mem_cons_self, hl, by simp [tmysqlGetTable, access, hl]⟩
      | true =>
          simp only [tmysqlGetTable, access, hl, if_true, pushAll, List.foldl_cons]
          rcases ih (s.pushHandle d) with ⟨hall, he⟩ | ⟨d', hm, hd, he⟩
          · refine .inl ⟨fun d' hd' => ?_, he⟩
            rcases List.mem_cons.mp hd' with rfl | hd'
            · exact hl
            · rw [← hlive]
              exact hall d' hd'
          · exact .inr ⟨d', List.mem_cons_of_mem _ hm, by rw [← hlive, hd], he⟩

theorem explains_getTable (turn : s.luaTurn = true) :
    s.Explains .getTable (tmysqlGetTable s.databases s) := by
  rcases getTable_cases s.databases s with ⟨hall, he⟩ | ⟨d, hm, hd, he⟩
  · rw [he]
    exact .getTable turn hall
  · rw [he]
    exact .registry d hm hd

theorem explains_luaConnect (d : DbId) (r : ConnectResult) (turn : s.luaTurn = true) :
    s.Explains (.dbConnect d r) (s.luaConnect d r) := by
  refine explains_database turn fun calls _ => ?_
  split
  next => exact .stay turn
  next hc =>
      have idle : (s.db d).isConnected = false := by simpa using hc
      by_cases hr : r = .connected
      · subst hr
        exact .dbConnected d calls idle
      · simp only [hr, if_false]
        rcases release_cases (s.databaseInitialize d r) d with ⟨can, he⟩ | ⟨f, hf, he⟩
        · rw [he]
          exact .dbConnectFailed d r calls idle hr can
        · rw [he]
          exact .dbConnect d r f calls idle hr hf

theorem explains_luaPrepare (d : DbId) (query : Bytes) (turn : s.luaTurn = true) :
    s.Explains (.prepare d query) (s.luaPrepare d query) := by
  refine explains_database turn fun calls connected => ?_
  have connected := connected rfl
  split
  next sid hlookup =>
      unfold accessStmt
      split
      next hl => exact .prepareCached d query sid calls connected hlookup hl
      next hl => exact .cached d query sid calls connected hlookup (by simpa using hl)
  next hlookup => exact .prepare d query calls connected hlookup

theorem explains_luaCall {l : Label} {r : Except Fault State} (turn : s.luaTurn = true)
    (h : s.luaCall l = some r) : s.Explains l r := by
  have hmethod : ∀ {handle : Handle} {body : Except Fault State},
      method handle body = some r → s.Explains l body → s.Explains l r := by
    intro handle body hm hb
    unfold method at hm
    split at hm
    · cases hm
    · cases hm
      exact hb
  cases l with
  | create callback junk =>
      cases h
      exact .create callback junk turn
  | connect callback junk result =>
      cases h
      exact explains_connect callback junk result turn
  | getTable =>
      cases h
      exact explains_getTable turn
  | dbConnect d result => exact hmethod h (explains_luaConnect d result turn)
  | query d callback =>
      refine hmethod h (explains_database turn fun calls connected => ?_)
      exact .query d callback calls (connected rfl)
  | prepare d query => exact hmethod h (explains_luaPrepare d query turn)
  | run sid callback =>
      refine hmethod h (explains_statement turn fun calls => ?_)
      exact .run sid callback calls
  | poll d =>
      refine hmethod h (explains_database turn fun calls _ => ?_)
      exact .poll d calls
  | disconnect d =>
      refine hmethod h (explains_database turn fun calls connected => ?_)
      exact .disconnect d calls (connected rfl)
  | dbGc d =>
      refine hmethod h (explains_database turn fun calls _ => ?_)
      exact .dbGc d calls
  | stmtGc sid =>
      refine hmethod h (explains_statement turn fun calls => ?_)
      exact .stmtGc sid calls
  | ret => cases h
  | cpp => cases h
  | io d i => cases h

theorem explains_advance {frame : Frame} {stack : List Frame} {r : Except Fault State}
    (top : s.stack = frame :: stack) (h : advance frame (s.pop stack) = some r) :
    s.Explains .cpp r := by
  have haccess : ∀ (d : DbId) (k : Except Fault State),
      (s.pop stack).access d k = s.access d k := fun _ _ => rfl
  cases frame with
  | lua => cases h
  | dispatch d completed =>
      cases completed with
      | nil =>
          cases h
          exact .dispatchDone d stack top
      | cons action rest =>
          cases h
          unfold dispatchNext
          rw [haccess]
          refine explains_frame top (by simp [Frame.uses]) fun hl => ?_
          split
          next hc =>
              obtain ⟨hgc, hcb⟩ : (s.db d).isInGC = false ∧ action.callback = true := by
                simpa [pop] using hc
              exact .dispatchStart d action rest stack top hl hgc hcb
          next hc =>
              refine .dispatchSkip d action rest stack top hl ?_
              cases hgc : (s.db d).isInGC with
              | true => rfl
              | false => simpa [pop, hgc] using hc
  | poll d =>
      cases h
      rw [haccess]
      exact explains_frame top (by simp [Frame.uses]) fun hl => .pollPop d stack top hl
  | connect d =>
      cases h
      rw [haccess]
      exact explains_frame top (by simp [Frame.uses]) fun hl => .connectDone d stack top hl
  | wait d =>
      simp only [advance] at h
      split at h
      next => cases h
      next hw =>
          cases h
          rw [haccess]
          refine explains_frame top (by simp [Frame.uses]) fun hl => ?_
          refine .waitDone d stack top hl ?_
          simpa [pop, hl] using hw
  | release d =>
      simp only [advance] at h
      rcases release_cases (s.pop stack) d with ⟨can, he⟩ | ⟨f, hf, he⟩
      · rw [he] at h
        cases h
        exact .release d stack top ⟨can.live, can.ioThread, can.mysqlInit, can.stmt_live, can.nodup⟩
      · rw [he] at h
        cases h
        cases hf with
        | gone hl => exact .frame d _ stack top (by simp [Frame.uses]) hl
        | thread hl ht => exact .release d stack _ top hl (.thread hl ht)
        | statement hl ht hc hd => exact .release d stack _ top hl (.statement hl ht hc hd)
        | mysql hl ht hm => exact .release d stack _ top hl (.mysql hl ht hm)
  | destroy d =>
      cases h
      rw [haccess]
      exact explains_frame top (by simp [Frame.uses]) fun hl => .destroy d stack top hl
  | prepare d query =>
      simp only [advance] at h
      split at h
      next => cases h
      next hw =>
          cases h
          exact .prepareFailed d query stack top hw
      next sid hw =>
          cases h
          rw [haccess]
          exact explains_frame top (by simp [Frame.uses]) fun hl =>
            .prepareDone d query sid stack top hw hl

theorem explains_ioStep {d : DbId} {i : IoStep} {r : Except Fault State}
    (h : s.ioStep d i = some r) : s.Explains (.io d i) r := by
  have haccess : ∀ {k : Except Fault State},
      (s.db d).ioThread = true ∨ (s.db d).running.isSome = true →
      ((s.db d).live = true → s.Explains (.io d i) k) → s.Explains (.io d i) (s.access d k) := by
    intro k busy hk
    unfold access
    split
    next hl => exact hk hl
    next hl => exact .thread d i (by simpa using hl) busy
  have htask : ∀ {task : Task} {k : Except Fault State},
      (task ∈ (s.db d).queue ∨ (s.db d).running = some task) → s.Explains (.io d i) k →
      s.Explains (.io d i) (s.accessTask task k) := by
    intro task k hmem hk
    unfold accessTask
    split
    next sid action =>
        split
        next => exact hk
        next hd => exact .task d i sid action hmem (by simpa using hd)
    next => exact hk
  cases i with
  | take =>
      simp only [ioStep] at h
      split at h
      next hc =>
          simp only [Bool.and_eq_true, Bool.not_eq_true', Option.isNone_iff_eq_none] at hc
          obtain ⟨⟨ht, hs⟩, hr⟩ := hc
          split at h
          next => cases h
          next task queue hq =>
              cases h
              refine haccess (.inl ht) fun hl => htask (.inl ?_) (.take d task queue hl ht hs hr hq)
              rw [hq]
              exact List.mem_cons_self
      next => cases h
  | reconnected =>
      simp only [ioStep] at h
      split at h
      next hc =>
          cases h
          obtain ⟨action, ha⟩ := Option.isSome_iff_exists.mp hc
          obtain ⟨task, hr, ha⟩ := Option.bind_eq_some_iff.mp ha
          exact haccess (.inr (by simp [hr])) fun hl => .reconnected d task action hl hr ha
      next => cases h
  | finish ok =>
      simp only [ioStep] at h
      split at h
      next => cases h
      next task hr =>
          cases h
          refine haccess (.inr (by simp [hr])) fun hl => htask (.inr hr) ?_
          cases task with
          | runQuery query => exact .finish d ok _ query hl hr rfl
          | runStatement sid action => exact .finish d ok _ action hl hr rfl
          | createStatement query => exact .created d ok query hl hr
  | stop =>
      simp only [ioStep] at h
      split at h
      next hc =>
          cases h
          simp only [Bool.and_eq_true, Bool.not_eq_true', Option.isNone_iff_eq_none,
            List.isEmpty_iff] at hc
          exact .stop d hc.1.1.1 hc.1.1.2 hc.1.2 hc.2
      next => cases h

theorem explains_action {l : Label} {r : Except Fault State} (h : s.action l = some r) :
    s.Explains l r := by
  have hcall : (if s.luaTurn = true then s.luaCall l else none) = some r → s.Explains l r := by
    intro hif
    split at hif
    next turn => exact explains_luaCall turn hif
    next => cases hif
  cases l with
  | io d i => exact explains_ioStep h
  | cpp =>
      simp only [action] at h
      split at h
      next => cases h
      next frame stack top => exact explains_advance top h
  | ret =>
      simp only [action] at h
      split at h
      next stack top =>
          cases h
          exact .ret stack top
      next => cases h
  | create callback junk => exact hcall h
  | connect callback junk result => exact hcall h
  | getTable => exact hcall h
  | dbConnect d result => exact hcall h
  | query d callback => exact hcall h
  | prepare d query => exact hcall h
  | run sid callback => exact hcall h
  | poll d => exact hcall h
  | disconnect d => exact hcall h
  | dbGc d => exact hcall h
  | stmtGc sid => exact hcall h

theorem effect_fault {l : Label} {s' : State} (he : s.Effect l s') : s'.fault = s.fault := by
  cases he <;> simp

/-- **What a step can do.** A step has one of the effects, or ends the run with a fault. -/
theorem step_effect {l : Label} {s' : State} (h : s.step l = some s') :
    s.fault = none ∧ (s.Effect l s' ∨ ∃ f, s.Crash l f ∧ s' = { s with fault := some f }) := by
  unfold step at h
  split at h
  next => cases h
  next hf =>
      refine ⟨by simpa using hf, ?_⟩
      obtain ⟨r, hr, rfl⟩ := Option.map_eq_some_iff.mp h
      have he := explains_action hr
      cases r with
      | ok s₁ => exact .inl he
      | error f => exact .inr ⟨f, he, rfl⟩

end State
end Tmysql4
