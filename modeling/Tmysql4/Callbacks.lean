import Tmysql4.Populate

/-! # Callbacks

`triggerCallback` is `DatabaseAction::TriggerCallback`, `ConnectCallback.trigger` is
`Database::TriggerCallback` and `dispatchCompletedActions` the loop over a batch.  `none` stands
for a call that does not return: an operation that is not allowed, an error text that is a null
pointer, or an error of `ErrorNoHalt` itself.

Both push the message handler before the callback, and `PCall` pops the
callback and its arguments only. `callbacks_neutral_iff` says that a call
is neutral for the stack exactly when the callback is not called. -/

namespace Tmysql4.Handler

open LuaBase

/-- An action with its results and the nanoseconds that its timer has measured. -/
structure CompletedAction where
  iCallback : ℤ
  iCallbackRef : ℤ
  useNumbers : Bool
  results : List Result
  elapsed : ℤ

/-- The members of a `Database` that its callback needs; `this` is the pointer to it. -/
structure ConnectCallback where
  this : DbId
  iCallback : ℤ
  iLuaRef : ℤ
  isPendingCallback : Bool

/-- The references of the module, what functions do, and how
pointers and numbers are read as text. -/
structure Env where
  iRefDebugTraceBack : ℤ
  iRefErrorNoHalt : ℤ
  iDatabaseMTID : ℕ
  callee : Callee LuaNumber ℕ (Option DbId)
  read : Loc → Bytes
  formatNumber : LuaNumber → Bytes

variable (env : Env)

/-! ### Errors -/

/-- `GetString`; `none` is a null pointer. -/
def getString : LuaObject → Option Bytes
  | .string text => some text
  | .number n => some (env.formatNumber n)
  | _ => none

/-- `tmysql::ThrowErrorNoHalt`. -/
def throwErrorNoHalt (error : Bytes) (m : Lua) : Option Lua :=
  ((m.referencePush env.iRefErrorNoHalt).pushString (error ++ [10]) 0).call env.callee 1

/-- The error of a callback is at the top of the stack. -/
def reportError (m : Lua) : Option Lua := do
  let text ← getString env (m.value (-1))
  let m ← throwErrorNoHalt env (key "[tmysql callback error]\n" ++ cString text) m
  m.pop 1

/-- `PCall`, and the report of an error. -/
def callAndReport (args : ℕ) (errorFunc : ℤ) (m : Lua) : Option Lua := do
  let (status, m) ← m.pCall env.callee args errorFunc
  if status ≠ 0 then reportError env m else some m

/-! ### `DatabaseAction::TriggerCallback` -/

/-- The body of the loop over the results. -/
def pushResult (action : CompletedAction) (m : Lua) (entry : Result × ℕ) : Option Lua := do
  let m := (m.pushNumber (.int (entry.2 + 1))).createTable
  let m ← populateLuaTable env.read entry.1 action.useNumbers m
  let m ← (m.pushNumber (.seconds action.elapsed)).setField (-2) (key "time")
  m.setTable (-3)

/-- The arguments of a callback that is on the stack, and the call. -/
def callWithResults (action : CompletedAction) (m : Lua) : Option Lua := do
  let args := if 0 < action.iCallbackRef then 2 else 1
  let m := if 0 < action.iCallbackRef then
    (m.referencePush action.iCallbackRef).referenceFree action.iCallbackRef else m
  let m ← action.results.zipIdx.foldlM (pushResult env action) m.createTable
  callAndReport env args (-args - 2) m

/-- `DatabaseAction::TriggerCallback`. -/
def triggerCallback (action : CompletedAction) (m : Lua) : Option Lua :=
  if action.iCallback ≤ 0 then some m
  else
    let m := ((m.referencePush env.iRefDebugTraceBack).referencePush action.iCallback).referenceFree
      action.iCallback
    if m.isType (-1) .function then callWithResults env action m
    else do
      let m ← m.pop 2
      some (if 0 < action.iCallbackRef then m.referenceFree action.iCallbackRef else m)

/-- `Database::DispatchCompletedActions` for the actions that it takes. -/
def dispatchCompletedActions (isInGC : Bool) (actions : List CompletedAction) (m : Lua) :
    Option Lua :=
  actions.foldlM (fun m action => if isInGC then some m else triggerCallback env action m) m

/-! ### `Database::TriggerCallback` -/

/-- `Database::PushHandle`. -/
def ConnectCallback.pushHandle (db : ConnectCallback) (m : Lua) :
    Option (ConnectCallback × Lua) := do
  let (iLuaRef, m) ←
    if db.iLuaRef = 0 then (m.pushUserType env.iDatabaseMTID (some db.this)).referenceCreate
    else some (db.iLuaRef, m)
  some ({ db with iLuaRef := iLuaRef }, m.referencePush iLuaRef)

/-- `Database::TriggerCallback`. -/
def ConnectCallback.trigger (db : ConnectCallback) (m : Lua) : Option (ConnectCallback × Lua) :=
  let db := { db with isPendingCallback := false }
  if 0 ≤ db.iCallback then
    let m := ((m.referencePush env.iRefDebugTraceBack).referencePush db.iCallback).referenceFree
      db.iCallback
    let db := { db with iCallback := 0 }
    if m.isType (-1) .function then do
      let (db, m) ← db.pushHandle env m
      let m ← callAndReport env 1 (-3) m
      some (db, m)
    else do
      let m ← m.pop 2
      some (db, m)
  else some (db, m)

variable {env : Env} {m m' : Lua}

/-! ### The call -/

/-- A report that returns takes the error from the stack. -/
theorem reportError_eq_some {v : LuaObject} {rest : List LuaObject} (hm : m.stack = v :: rest)
    (h : reportError env m = some m') : m'.stack = rest ∧ m'.calls = m.calls := by
  unfold reportError at h
  simp only [Option.bind_eq_bind, Option.bind_eq_some_iff] at h
  obtain ⟨text, -, m₁, hcall, hpop⟩ := h
  unfold throwErrorNoHalt at hcall
  obtain ⟨hstack, hcalls⟩ := Machine.call_eq_some [_] rfl hcall
  unfold Machine.pop at hpop
  split at hpop
  · cases hpop
    exact ⟨congrArg (List.drop 1) (hstack.trans hm), hcalls⟩
  · cases hpop

/-- A call that returns has popped the callback and its arguments, and nothing else. -/
theorem callAndReport_eq_some {args rest : List LuaObject} {f : LuaObject} {errorFunc : ℤ}
    (hm : m.stack = args.reverse ++ f :: rest)
    (h : callAndReport env args.length errorFunc m = some m') :
    m'.stack = rest ∧ m'.calls = m.calls ++ [⟨f, m.value errorFunc, args, m.toHeap⟩] := by
  unfold callAndReport at h
  rw [Machine.pCall_eq hm, Option.bind_eq_bind, Option.bind_some] at h
  cases hcallee : env.callee f (m.value errorFunc) args m.toHeap with
  | mk heap message =>
      rw [hcallee] at h
      cases message with
      | none =>
          cases h
          exact ⟨rfl, rfl⟩
      | some message => exact reportError_eq_some rfl h

/-- A call of a function that raises no error returns. -/
theorem callAndReport_returns {args rest : List LuaObject} {f : LuaObject} (errorFunc : ℤ)
    (hm : m.stack = args.reverse ++ f :: rest)
    (hcallee : (env.callee f (m.value errorFunc) args m.toHeap).2 = none) :
    ∃ m', callAndReport env args.length errorFunc m = some m' := by
  unfold callAndReport
  rw [Machine.pCall_eq hm, Option.bind_eq_bind, Option.bind_some]
  cases h : env.callee f (m.value errorFunc) args m.toHeap with
  | mk heap message =>
      rw [h] at hcallee
      cases hcallee
      exact ⟨_, rfl⟩

/-! ### The results -/

/-- The entry `e` of a result; it and the tables in it are at `lo` or above. -/
def EntryIn (heap : LuaBase.Heap LuaNumber ℕ (Option DbId)) (elapsed : ℤ) (lo e : ℕ)
    (rt : ResultTable) : Prop :=
  lo ≤ e ∧ ∃ data, heap.Holds e (Machine.entries (fun _ => .nil)
      (rt.fields data ++ [(.string (key "time"), .number (.seconds elapsed))])) ∧
    ∀ rows, rt.data = some rows → ∃ d, data = .table d ∧ DataIn heap lo d rows

theorem EntryIn.keeps {elapsed : ℤ} {lo e t : ℕ} {rt : ResultTable}
    (h : EntryIn m.toHeap elapsed lo e rt) (hkeeps : Machine.Keeps [t] m m') (ht : t < lo) :
    EntryIn m'.toHeap elapsed lo e rt := by
  obtain ⟨he, data, hentry, hdata⟩ := h
  refine ⟨he, data, hkeeps.holds hentry (by rw [List.mem_singleton]; omega), fun rows hrows => ?_⟩
  obtain ⟨d, hd, hin⟩ := hdata rows hrows
  exact ⟨d, hd, hin.keeps hkeeps ht⟩

/-- The loop over the results makes a new entry and appends it. -/
theorem pushResult_run {action : CompletedAction} {r : Result} {i t lo : ℕ} {rt : ResultTable}
    {vs : List LuaObject} (h : r.populateLuaTable env.read action.useNumbers = some rt)
    (hi : vs.length = i) (hlo : lo ≤ m.nextTable) (hm : AtArray t vs m) :
    ∃ m', pushResult env action m (r, i) = some m' ∧ Appends t (vs ++ [.table m.nextTable]) m m' ∧
      EntryIn m'.toHeap action.elapsed lo m.nextTable rt := by
  obtain ⟨⟨rest, hstack⟩, hlt, htable⟩ := hm
  have hnew : Machine.Keeps [] m (m.pushNumber (.int (i + 1))).createTable :=
    (Machine.Keeps.pushValue m _).trans (.createTable _) (by simp)
  have hempty : (m.pushNumber (.int (i + 1))).createTable.tables m.nextTable = fun _ => .nil :=
    Function.update_self _ _ _
  have hstack₀ : (m.pushNumber (.int (i + 1))).createTable.stack =
      .table m.nextTable :: .number (.int (i + 1)) :: .table t :: rest := by
    rw [← hstack]
    rfl
  have hnext : (m.pushNumber (.int (i + 1))).createTable.nextTable = m.nextTable + 1 := rfl
  unfold pushResult
  generalize (m.pushNumber (.int (i + 1))).createTable = m₀ at *
  obtain ⟨m₁, data, hrun, hstack₁, hkeeps₁, htable₁, hdata⟩ :=
    populateLuaTable_run h hstack₀ (by omega)
  rw [hstack₀] at hstack₁
  rw [hempty] at htable₁
  have hassign :=
    Machine.Keeps.assign m₁ m.nextTable (.string (key "time")) (.number (.seconds action.elapsed))
  have hkept : Machine.Keeps [] m
      (m₁.assign m.nextTable (.string (key "time")) (.number (.seconds action.elapsed))) :=
    (hnew.trans_new hkeeps₁ (Nat.le_refl _)).trans_new hassign (Nat.le_refl _)
  have hset := Machine.Keeps.assign
    (m₁.assign m.nextTable (.string (key "time")) (.number (.seconds action.elapsed))) t
    (.number (.int (i + 1))) (.table m.nextTable)
  refine ⟨_, ?_, ⟨hstack.symm, (hkept.trans hset (by simp)).withStack _, ?_⟩,
    Nat.le_trans hlo (Nat.le_refl _), data, ?_, fun rows hrows => ?_⟩
  · simp only [Option.bind_eq_bind]
    rw [hrun, Option.bind_some]
    have hfield : (m₁.pushNumber (.seconds action.elapsed)).setField (-2) (key "time") = _ :=
      Machine.pushValue_setField hstack₁ (.number (.seconds action.elapsed)) (key "time")
    rw [hfield, Option.bind_some]
    exact Machine.setTable_eq hstack₁ (by simp)
  · have hold := hkept.tables t hlt List.not_mem_nil
    rw [← update_arrayTable, hi, ← htable, ← hold]
    exact Function.update_self _ _ _
  · have hentry : (m₁.assign m.nextTable (.string (key "time"))
        (.number (.seconds action.elapsed))).Holds m.nextTable (Machine.entries (fun _ => .nil)
          (rt.fields data ++ [(.string (key "time"), .number (.seconds action.elapsed))])) := by
      refine ⟨?_, ?_⟩
      · have hle := hkeeps₁.nextTable
        rw [hnext] at hle
        exact hle
      · have htime : (m₁.assign m.nextTable (.string (key "time"))
            (.number (.seconds action.elapsed))).tables m.nextTable =
              Function.update (m₁.tables m.nextTable) (.string (key "time"))
                (.number (.seconds action.elapsed)) :=
          Function.update_self _ _ _
        rw [htime, htable₁, Machine.entries, Machine.entries, List.foldl_append]
        rfl
    exact hset.holds hentry (by rw [List.mem_singleton]; omega)
  · obtain ⟨d, hd, hin⟩ := hdata rows hrows
    have hin' := (hin.keeps hassign (by omega)).keeps hset (by omega)
    exact ⟨d, hd, hin'.mono (by omega)⟩

/-- The results in a new array at the top of the stack. -/
theorem pushResults_run {action : CompletedAction} {rts : List ResultTable} {t lo : ℕ}
    (h : action.results.mapM (fun r => r.populateLuaTable env.read action.useNumbers) = some rts)
    (ht : t < lo) (hlo : lo ≤ m.nextTable) (hm : AtArray t [] m) :
    ∃ m' ids, action.results.zipIdx.foldlM (pushResult env action) m = some m' ∧
      Appends t (ids.map .table) m m' ∧
      List.Forall₂ (EntryIn m'.toHeap action.elapsed lo) ids rts := by
  have hlen : rts.length = action.results.zipIdx.length := by
    rw [List.length_zipIdx, length_of_mapM h]
  refine foldlM_appends (fun hkeeps hentry => hentry.keeps hkeeps ht) hlen
    (fun i hi hb m vs hvs hlo hm => ?_) hlo hm
  rw [List.length_zipIdx] at hi
  have hr := getElem_of_mapM h hi hb
  rw [List.getElem_zipIdx, Nat.zero_add]
  rw [List.length_nil, Nat.zero_add] at hvs
  obtain ⟨m', hrun, happends, hentry⟩ := pushResult_run hr hvs hlo hm
  exact ⟨m', _, hrun, happends, hentry⟩

/-- The callback of the action is a function. -/
def CompletedAction.Calls (action : CompletedAction) (m : Lua) : Prop :=
  0 < action.iCallback ∧ (m.reference action.iCallback).type = .function

/-- The callback `f` and its arguments are on the stack, and
the table of the results is the last argument. -/
structure Passes (f handler : LuaObject) (args rest : List LuaObject) (elapsed : ℤ)
    (rts : List ResultTable) (m : Lua) : Prop where
  stack : m.stack = args.reverse ++ f :: handler :: rest
  handler : m.value (-args.length - 2) = handler
  results : ∃ t ids, args.getLast? = some (.table t) ∧ m.Holds t (arrayTable (ids.map .table)) ∧
    List.Forall₂ (EntryIn m.toHeap elapsed (t + 1)) ids rts

/-- The object, when there is one, is pushed and its reference is freed. -/
theorem pushObject (action : CompletedAction) (m : Lua) :
    ∃ objs m₁, (if 0 < action.iCallbackRef then
      (m.referencePush action.iCallbackRef).referenceFree action.iCallbackRef
        else m) = m₁ ∧
      (if 0 < action.iCallbackRef then 2 else 1) = (objs : List LuaObject).length + 1 ∧
        m₁.stack = objs ++ m.stack ∧
      m₁.calls = m.calls := by
  split
  · exact ⟨[m.reference action.iCallbackRef], _, rfl, rfl, Machine.referenceFree_stack _ _,
      Machine.referenceFree_calls _ _⟩
  · exact ⟨[], _, rfl, rfl, rfl, rfl⟩

/-- The arguments are built whatever the callback does with them. -/
theorem callWithResults_eq {action : CompletedAction} {rts : List ResultTable}
    {f handler : LuaObject} {rest : List LuaObject}
    (h : action.results.mapM (fun r => r.populateLuaTable env.read action.useNumbers) = some rts)
    (hm : m.stack = f :: handler :: rest) :
    ∃ args m₁, callWithResults env action m = callAndReport env args.length (-args.length - 2) m₁ ∧
      m₁.calls = m.calls ∧ Passes f handler args rest action.elapsed rts m₁ := by
  obtain ⟨objs, m₁, hobj, hargs, hstack₁, hcalls₁⟩ := pushObject action m
  have hempty : m₁.createTable.tables m₁.nextTable = arrayTable [] :=
    (Function.update_self _ _ _).trans arrayTable_nil.symm
  obtain ⟨m₂, ids, hloop, happends, hentries⟩ :=
    pushResults_run h (Nat.lt_succ_self _) (Nat.le_refl _)
    (show AtArray m₁.nextTable [] m₁.createTable from ⟨⟨_, rfl⟩, Nat.lt_succ_self _, hempty⟩)
  have hstack₂ : m₂.stack = (LuaBase.Value.table m₁.nextTable :: objs) ++ f :: handler :: rest := by
    rw [happends.stack, ← hm, List.cons_append, ← hstack₁]
    rfl
  have hlen : (objs.reverse ++ [LuaBase.Value.table m₁.nextTable]).length = objs.length + 1 := by
    rw [List.length_append, List.length_reverse, List.length_singleton]
  refine ⟨objs.reverse ++ [LuaBase.Value.table m₁.nextTable], m₂, ?_,
    happends.keeps.calls.trans hcalls₁,
      ⟨?_, ?_, ⟨m₁.nextTable, ids, List.getLast?_concat, ?_, hentries⟩⟩⟩
  · unfold callWithResults
    simp only [hobj, hargs, Option.bind_eq_bind]
    rw [hloop, Option.bind_some, hlen]
  · rw [hstack₂, List.reverse_append, List.reverse_reverse]
    rfl
  · have hbelow : m₂.stack = ((LuaBase.Value.table m₁.nextTable :: objs) ++ [f]) ++
        handler :: rest := by
      rw [hstack₂, List.append_assoc]
      rfl
    have hidx : (-↑(objs.length + 1) - 2 : ℤ) =
        -↑((LuaBase.Value.table m₁.nextTable :: objs) ++ [f]).length - 1 := by
      rw [List.length_append, List.length_cons, List.length_singleton]
      omega
    rw [hlen, hidx]
    exact Machine.value_below hbelow
  · exact ⟨Nat.lt_of_lt_of_le (Nat.lt_succ_self _) happends.keeps.nextTable, happends.table⟩

/-! ### The two callbacks -/

/-- The message handler and the callback are pushed, and the reference of the callback is freed. -/
theorem pushCallback_stack (env : Env) (m : Lua) (r : ℤ) :
    (((m.referencePush env.iRefDebugTraceBack).referencePush r).referenceFree r).stack =
      m.reference r :: m.reference env.iRefDebugTraceBack :: m.stack :=
        Machine.referenceFree_stack _ _

theorem isType_pushCallback (m : Lua) (r : ℤ) :
    (((m.referencePush env.iRefDebugTraceBack).referencePush r).referenceFree r).isType (-1)
      .function = decide ((m.reference r).type = .function) := by
  rw [Machine.isType, Machine.getType, Machine.value_top (pushCallback_stack env m r)]

/-- A value that is not a function is popped with the message handler. -/
theorem popCallback (env : Env) (m : Lua) (r : ℤ) :
    ∃ m', (((m.referencePush env.iRefDebugTraceBack).referencePush r).referenceFree r).pop 2 =
      some m' ∧ m'.stack = m.stack ∧ m'.calls = m.calls := by
  have hstack := pushCallback_stack env m r
  refine ⟨_, if_pos ?_, ?_, Machine.referenceFree_calls _ _⟩
  · rw [hstack, List.length_cons, List.length_cons]
    omega
  · exact congrArg (List.drop 2) hstack

/-- An action whose callback is not called leaves the stack as it was. -/
theorem triggerCallback_of_not_calls (env : Env) {action : CompletedAction} (h : ¬action.Calls m) :
    ∃ m', triggerCallback env action m = some m' ∧ m'.stack = m.stack ∧ m'.calls = m.calls := by
  unfold triggerCallback
  split
  · exact ⟨m, rfl, rfl, rfl⟩
  · rename_i hpos
    have htype : ¬(m.reference action.iCallback).type = .function :=
      fun htype => h ⟨by omega, htype⟩
    obtain ⟨m₁, hpop, hstack, hcalls⟩ := popCallback env m action.iCallback
    simp only [isType_pushCallback, decide_eq_false htype]
    rw [if_neg Bool.false_ne_true, hpop]
    simp only [Option.bind_eq_bind, Option.bind_some]
    split
    · exact ⟨_, rfl, (Machine.referenceFree_stack _ _).trans hstack,
        (Machine.referenceFree_calls _ _).trans hcalls⟩
    · exact ⟨_, rfl, hstack, hcalls⟩

/-- An action calls its callback with the results. -/
theorem triggerCallback_eq {action : CompletedAction} {rts : List ResultTable}
    (hrts : action.results.mapM (fun r => r.populateLuaTable env.read action.useNumbers) = some rts)
    (h : action.Calls m) :
    ∃ args m₁, triggerCallback env action m = callAndReport env args.length (-args.length - 2) m₁ ∧
      m₁.calls = m.calls ∧ Passes (m.reference action.iCallback)
        (m.reference env.iRefDebugTraceBack) args m.stack action.elapsed rts m₁ := by
  obtain ⟨args, m₁, hrun, hcalls, hpasses⟩ :=
    callWithResults_eq hrts (pushCallback_stack env m action.iCallback)
  refine ⟨args, m₁, ?_, hcalls.trans (Machine.referenceFree_calls _ _), hpasses⟩
  unfold triggerCallback
  rw [if_neg (by have := h.1; omega)]
  simp only [isType_pushCallback, decide_eq_true h.2, if_true]
  exact hrun

/-- An action whose callback is called leaves the message handler on the stack. -/
theorem triggerCallback_of_calls {action : CompletedAction} {rts : List ResultTable}
    (hrts : action.results.mapM (fun r => r.populateLuaTable env.read action.useNumbers) = some rts)
    (h : action.Calls m) (hrun : triggerCallback env action m = some m') :
    m'.stack = m.reference env.iRefDebugTraceBack :: m.stack ∧
      ∃ call, m'.calls = m.calls ++ [call] ∧ call.handler = m.reference env.iRefDebugTraceBack := by
  obtain ⟨args, m₁, heq, hcalls, hpasses⟩ := triggerCallback_eq hrts h
  obtain ⟨hstack', hcalls'⟩ := callAndReport_eq_some hpasses.stack (heq.symm.trans hrun)
  exact ⟨hstack', _, hcalls ▸ hcalls', hpasses.handler⟩

/-- The results of constructed actions have tables. -/
def CompletedAction.Built (action : CompletedAction) : Prop := ∀ r ∈ action.results, r.Constructed

theorem CompletedAction.Built.tables {action : CompletedAction} (h : action.Built)
    (read : Loc → Bytes) :
    ∃ rts, action.results.mapM (fun r => r.populateLuaTable read action.useNumbers) = some rts :=
  exists_mapM fun r hr => (h r hr).readable.populateLuaTable read action.useNumbers

/-- A callback that raises no error returns. -/
theorem triggerCallback_returns {action : CompletedAction} (m : Lua) (hbuilt : action.Built)
    (hcallee : ∀ f handler args heap, (env.callee f handler args heap).2 = none) :
    ∃ m', triggerCallback env action m = some m' := by
  by_cases h : action.Calls m
  · obtain ⟨rts, hrts⟩ := hbuilt.tables env.read
    obtain ⟨args, m₁, heq, -, hpasses⟩ := triggerCallback_eq hrts h
    rw [heq]
    exact callAndReport_returns _ hpasses.stack (hcallee _ _ _ _)
  · obtain ⟨m', hrun, -⟩ := triggerCallback_of_not_calls env h
    exact ⟨m', hrun⟩

/-- The connect callback is a function. -/
def ConnectCallback.Calls (db : ConnectCallback) (m : Lua) : Prop :=
  0 ≤ db.iCallback ∧ (m.reference db.iCallback).type = .function

theorem pushHandle_run (env : Env) (db : ConnectCallback) (m : Lua) :
    ∃ db' m' handle, db.pushHandle env m = some (db', m') ∧ m'.stack = handle :: m.stack ∧
      m'.calls = m.calls := by
  unfold ConnectCallback.pushHandle
  split
  · have hcreate : (m.pushUserType env.iDatabaseMTID (some db.this)).referenceCreate = _ :=
      Machine.referenceCreate_pushValue (by simp)
    rw [hcreate]
    exact ⟨_, _, _, rfl, rfl, rfl⟩
  · exact ⟨_, _, _, rfl, rfl, rfl⟩

theorem trigger_of_not_calls (env : Env) {db : ConnectCallback} (h : ¬db.Calls m) :
    ∃ db' m', db.trigger env m = some (db', m') ∧ m'.stack = m.stack ∧ m'.calls = m.calls := by
  unfold ConnectCallback.trigger
  by_cases hpos : 0 ≤ db.iCallback
  · have htype : ¬(m.reference db.iCallback).type = .function := fun htype => h ⟨hpos, htype⟩
    obtain ⟨m₁, hpop, hstack, hcalls⟩ := popCallback env m db.iCallback
    simp only [isType_pushCallback, decide_eq_false htype, if_pos hpos]
    rw [if_neg Bool.false_ne_true, hpop]
    exact ⟨_, _, rfl, hstack, hcalls⟩
  · rw [if_neg hpos]
    exact ⟨_, _, rfl, rfl, rfl⟩

theorem trigger_of_calls {db db' : ConnectCallback} (h : db.Calls m)
    (hrun : db.trigger env m = some (db', m')) :
    m'.stack = m.reference env.iRefDebugTraceBack :: m.stack ∧
      ∃ call, m'.calls = m.calls ++ [call] ∧ call.handler = m.reference env.iRefDebugTraceBack := by
  unfold ConnectCallback.trigger at hrun
  simp only [if_pos h.1, isType_pushCallback, decide_eq_true h.2, if_true] at hrun
  obtain ⟨db₁, m₁, handle, hhandle, hstack₁, hcalls₁⟩ := pushHandle_run env
    { db with isPendingCallback := false, iCallback := 0 }
    (((m.referencePush env.iRefDebugTraceBack).referencePush db.iCallback).referenceFree
      db.iCallback)
  rw [pushCallback_stack] at hstack₁
  rw [hhandle] at hrun
  simp only [Option.bind_eq_bind, Option.bind_some] at hrun
  obtain ⟨m₂, hcall, heq⟩ := Option.bind_eq_some_iff.mp hrun
  cases heq
  have hstack : m₁.stack = [handle].reverse ++
      m.reference db.iCallback :: m.reference env.iRefDebugTraceBack :: m.stack :=
    hstack₁
  have hvalue : m₁.value (-3) = m.reference env.iRefDebugTraceBack := by
    have hbelow : m₁.stack = [handle, m.reference db.iCallback] ++
        m.reference env.iRefDebugTraceBack :: m.stack := hstack₁
    exact Machine.value_below hbelow
  obtain ⟨hstack', hcalls'⟩ := callAndReport_eq_some hstack hcall
  rw [hvalue, hcalls₁, Machine.referenceFree_calls] at hcalls'
  exact ⟨hstack', _, hcalls', rfl⟩

/-! ### Batches -/

/-- No action of a batch has its callback called when its turn comes. -/
def NoneCalled (env : Env) : List CompletedAction → Lua → Prop
  | [], _ => True
  | action :: actions, m =>
      ¬action.Calls m ∧ ∀ m', triggerCallback env action m = some m' → NoneCalled env actions m'

/-- A batch leaves one value for every callback that it calls. -/
theorem dispatch_stack {actions : List CompletedAction} (hbuilt : ∀ action ∈ actions, action.Built)
    (hrun : dispatchCompletedActions env false actions m = some m') :
    ∃ left, m'.stack = left ++ m.stack ∧ (left = [] ↔ NoneCalled env actions m) := by
  induction actions generalizing m with
  | nil =>
      cases hrun
      exact ⟨[], rfl, by simp [NoneCalled]⟩
  | cons action actions ih =>
      rw [dispatchCompletedActions, List.foldlM_cons] at hrun
      obtain ⟨m₁, htrigger, hrest⟩ := Option.bind_eq_some_iff.mp hrun
      obtain ⟨left, hstack, hleft⟩ := ih (fun a ha => hbuilt a (List.mem_cons_of_mem _ ha)) hrest
      by_cases hcalls : action.Calls m
      · obtain ⟨rts, hrts⟩ := (hbuilt action List.mem_cons_self).tables env.read
        have hpushed := (triggerCallback_of_calls hrts hcalls htrigger).1
        refine ⟨left ++ [m.reference env.iRefDebugTraceBack], ?_, ?_⟩
        · rw [hstack, hpushed, List.append_assoc]
          rfl
        · exact ⟨fun h => by simp at h, fun h => absurd hcalls h.1⟩
      · obtain ⟨m₂, htrigger', hstack', -⟩ := triggerCallback_of_not_calls env hcalls
        have hsame : ∀ m₃, triggerCallback env action m = some m₃ → m₃ = m₁ := fun m₃ h =>
          Option.some.inj (h.symm.trans htrigger)
        refine ⟨left, ?_, hleft.trans
          ⟨fun h => ⟨hcalls, fun m₃ h₃ => hsame m₃ h₃ ▸ h⟩, fun h => h.2 m₁ htrigger⟩⟩
        rw [hstack, ← hsame m₂ htrigger', hstack']

theorem dispatch_returns {actions : List CompletedAction} (m : Lua)
    (hbuilt : ∀ action ∈ actions, action.Built)
    (hcallee : ∀ f handler args heap, (env.callee f handler args heap).2 = none) :
    ∃ m', dispatchCompletedActions env false actions m = some m' := by
  induction actions generalizing m with
  | nil => exact ⟨m, rfl⟩
  | cons action actions ih =>
      obtain ⟨m₁, htrigger⟩ := triggerCallback_returns m (hbuilt action List.mem_cons_self) hcallee
      obtain ⟨m', hrest⟩ := ih m₁ fun a ha => hbuilt a (List.mem_cons_of_mem _ ha)
      refine ⟨m', ?_⟩
      rw [dispatchCompletedActions, List.foldlM_cons]
      exact Option.bind_eq_some_iff.mpr ⟨m₁, htrigger, hrest⟩

theorem dispatch_gc (actions : List CompletedAction) :
    dispatchCompletedActions env true actions m = some m := by
  induction actions with
  | nil => rfl
  | cons action actions ih => exact ih

/-! ### The stack -/

/-- The calls made meanwhile have this message handler. -/
def HandledBy (handler : LuaObject) (m m' : Lua) : Prop :=
  ∃ calls, m'.calls = m.calls ++ calls ∧ ∀ call ∈ calls, call.handler = handler

theorem stack_eq_iff {P : Prop} {v : LuaObject} (hcalls : P → m'.stack = v :: m.stack)
    (hnot : ¬P → m'.stack = m.stack) : m'.stack = m.stack ↔ ¬P := by
  refine ⟨fun heq hP => ?_, hnot⟩
  have hlen := congrArg List.length (heq.symm.trans (hcalls hP))
  rw [List.length_cons] at hlen
  omega

/-- **Callback delivery is neutral for the stack exactly when no callback is called.** The message
handler is `debug.traceback` at every call. -/
theorem callbacks_neutral_iff (env : Env) :
    (∀ (action : CompletedAction) (m m' : Lua), action.Built →
      triggerCallback env action m = some m' →
      (m'.stack = m.stack ↔ ¬action.Calls m) ∧
        HandledBy (m.reference env.iRefDebugTraceBack) m m') ∧
    (∀ (db db' : ConnectCallback) (m m' : Lua), db.trigger env m = some (db', m') →
      (m'.stack = m.stack ↔ ¬db.Calls m) ∧ HandledBy (m.reference env.iRefDebugTraceBack) m m') ∧
    ∀ (isInGC : Bool) (actions : List CompletedAction) (m m' : Lua),
      (∀ action ∈ actions, action.Built) → dispatchCompletedActions env isInGC actions m = some m' →
      (m'.stack = m.stack ↔ isInGC = true ∨ NoneCalled env actions m) := by
  refine ⟨fun action m m' hbuilt hrun => ?_, fun db db' m m' hrun => ?_,
    fun isInGC actions m m' hbuilt hrun => ?_⟩
  · obtain ⟨rts, hrts⟩ := hbuilt.tables env.read
    have hnot : ¬action.Calls m → m'.stack = m.stack ∧ m'.calls = m.calls := fun h => by
      obtain ⟨m₁, hrun', hstack, hcalls⟩ := triggerCallback_of_not_calls env h
      cases hrun.symm.trans hrun'
      exact ⟨hstack, hcalls⟩
    refine ⟨stack_eq_iff (fun h => (triggerCallback_of_calls hrts h hrun).1) fun h =>
      (hnot h).1, ?_⟩
    by_cases h : action.Calls m
    · obtain ⟨-, call, hcalls, hhandler⟩ := triggerCallback_of_calls hrts h hrun
      exact ⟨[call], hcalls, by simpa using hhandler⟩
    · exact ⟨[], by rw [(hnot h).2, List.append_nil], by simp⟩
  · have hnot : ¬db.Calls m → m'.stack = m.stack ∧ m'.calls = m.calls := fun h => by
      obtain ⟨db₁, m₁, hrun', hstack, hcalls⟩ := trigger_of_not_calls env h
      cases hrun.symm.trans hrun'
      exact ⟨hstack, hcalls⟩
    refine ⟨stack_eq_iff (fun h => (trigger_of_calls h hrun).1) fun h => (hnot h).1, ?_⟩
    by_cases h : db.Calls m
    · obtain ⟨-, call, hcalls, hhandler⟩ := trigger_of_calls h hrun
      exact ⟨[call], hcalls, by simpa using hhandler⟩
    · exact ⟨[], by rw [(hnot h).2, List.append_nil], by simp⟩
  · cases isInGC with
    | true =>
        cases (dispatch_gc actions).symm.trans hrun
        simp
    | false =>
        obtain ⟨left, hstack, hleft⟩ := dispatch_stack hbuilt hrun
        simpa [hstack] using hleft

/-- Functions that return. -/
def Env.calm : Env where
  iRefDebugTraceBack := 1
  iRefErrorNoHalt := 2
  iDatabaseMTID := 20
  callee _ _ _ heap := (heap, none)
  read _ := []
  formatNumber _ := []

/-- An empty stack, and the functions `0`, `1` and `2` with the references `1`, `2` and `3`. -/
def Lua.withFunctions : Lua :=
  ⟨⟨fun _ _ => .nil, 0, [.function 0, .function 1, .function 2]⟩, [], []⟩

theorem Env.calm_returns (f handler : LuaObject) (args : List LuaObject)
    (heap : LuaBase.Heap LuaNumber ℕ (Option DbId)) :
    (Env.calm.callee f handler args heap).2 = none := rfl

/-- The actions have two rows as their results, and only the last callback is a function. -/
theorem callbacks_neutral_iff_rows :
    ∃ r w', (resultOfMySQL (.answering (twoStored .fetched))).run
      (.opened ⟨[], [], [], [], 3306, [], 0⟩) = .ok r w' ∧
      (∃ m', triggerCallback .calm ⟨-1, -1, false, [r], 0⟩ .withFunctions = some m' ∧
        m'.stack = Lua.withFunctions.stack) ∧
      (∃ db' m', ConnectCallback.trigger .calm ⟨0, -1, 0, true⟩ .withFunctions = some (db', m') ∧
        m'.stack = Lua.withFunctions.stack) ∧
      ∃ m', dispatchCompletedActions .calm false [⟨7, -1, false, [r], 0⟩, ⟨3, -1, true, [r, r], 0⟩]
        .withFunctions = some m' ∧ m'.stack ≠ Lua.withFunctions.stack := by
  obtain ⟨r, w', hrun⟩ : ∃ r w', (resultOfMySQL (.answering (twoStored .fetched))).run
      (.opened ⟨[], [], [], [], 3306, [], 0⟩) = .ok r w' :=
        resultOfMySQL_ok rfl (by decide : FitsInt 2)
  obtain ⟨hone, hconnect, hbatch⟩ := callbacks_neutral_iff .calm
  have hbuilt : ∀ i j useNumbers, (⟨i, j, useNumbers, [r, r], 0⟩ : CompletedAction).Built := by
    intro i j useNumbers r' hr'
    obtain rfl : r' = r := by simpa using hr'
    exact .ofMySQL hrun
  have hfirst : ∀ i, (⟨i, -1, false, [r], 0⟩ : CompletedAction).Built := fun i r' hr' =>
    hbuilt i (-1) false r' (List.mem_cons_of_mem _ hr')
  have hbatchBuilt : ∀ action ∈ [⟨7, -1, false, [r], 0⟩, ⟨3, -1, true, [r, r], 0⟩],
      CompletedAction.Built action := by
    simpa using ⟨hfirst 7, hbuilt 3 (-1) true⟩
  obtain ⟨m', hdispatch⟩ := dispatch_returns .withFunctions hbatchBuilt Env.calm_returns
  refine ⟨r, w', hrun, ⟨_, rfl, (hone _ _ _ (hfirst (-1)) rfl).1.mpr fun h =>
    absurd h.1 (by decide : ¬(0 : ℤ) < -1)⟩,
    ⟨_, _, rfl, (hconnect ⟨0, -1, 0, true⟩ _ .withFunctions _ rfl).1.mpr fun h =>
      absurd h.1 (by decide)⟩,
    m', hdispatch, fun heq => ?_⟩
  obtain hgc | hnone := (hbatch false _ _ _ hbatchBuilt hdispatch).mp heq
  · cases hgc
  · exact (hnone.2 _ rfl).1 ⟨(by decide : (0 : ℤ) < 3), rfl⟩

/-- The callbacks return, that of a query with two rows and that of the connection, and
`debug.traceback` stays on the stack each time. -/
theorem callbacks_neutral_iff_fails :
    ∃ r w', (resultOfMySQL (.answering (twoStored .fetched))).run
      (.opened ⟨[], [], [], [], 3306, [], 0⟩) = .ok r w' ∧
      (triggerCallback .calm ⟨3, -1, false, [r], 0⟩ .withFunctions).map (·.stack) =
        some [.function 0] ∧
      ((ConnectCallback.trigger .calm ⟨0, 3, 0, true⟩ .withFunctions).map (·.2.stack)) =
        some [.function 0] ∧
      ¬(∀ (action : CompletedAction) (m m' : Lua), action.Built →
        triggerCallback .calm action m = some m' → m'.stack = m.stack) ∧
      ¬∀ (db db' : ConnectCallback) (m m' : Lua), db.trigger .calm m = some (db', m') →
        m'.stack = m.stack := by
  obtain ⟨r, w', hrun⟩ : ∃ r w', (resultOfMySQL (.answering (twoStored .fetched))).run
      (.opened ⟨[], [], [], [], 3306, [], 0⟩) = .ok r w' :=
        resultOfMySQL_ok rfl (by decide : FitsInt 2)
  have hbuilt : (⟨3, -1, false, [r], 0⟩ : CompletedAction).Built := by
    intro r' hr'
    obtain rfl := List.mem_singleton.mp hr'
    exact .ofMySQL hrun
  obtain ⟨rts, hrts⟩ := hbuilt.tables Env.calm.read
  obtain ⟨m', hm'⟩ := triggerCallback_returns .withFunctions hbuilt Env.calm_returns
  have hstack : m'.stack = [.function 0] :=
    (triggerCallback_of_calls hrts ⟨(by decide : (0 : ℤ) < 3), rfl⟩ hm').1
  refine ⟨r, w', hrun, by rw [hm']; exact congrArg some hstack, rfl, fun h => ?_, fun h => ?_⟩
  · have heq := h _ _ _ hbuilt hm'
    rw [hstack] at heq
    cases heq
  · cases h ⟨0, 3, 0, true⟩ _ .withFunctions _ rfl

end Tmysql4.Handler
