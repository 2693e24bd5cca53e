import Tmysql4.Ledger
import Tmysql4.Userdata

/-! # The references of the module

`RefOp` has the pieces of the source that create, push or free a reference, and `refOps` lists
those of a step, in their order.  `Accounts` runs them on a ledger next to the state.  Each
operation does to the accounts of the members what `RefOp.account` says, where they allow it
(`agrees_apply`); those of handles are never pushed after they were freed (`alive_step`). -/

namespace Tmysql4

open HandleTable (Status)
open RefLedger (Account Ledger Agrees)

/-- The members that hold references; those of an action go by its id. -/
inductive Member where
  | callback (id : ℕ)
  | callbackRef (id : ℕ)
  | iCallback (d : DbId)
  | iLuaRef (o : Object)
deriving DecidableEq, Repr

/-- `m_iLuaRef` starts as `0`, and a callback that is not given is `-1`. -/
def Member.unset : Member → ℤ
  | .iLuaRef _ => 0
  | _ => -1

inductive RefOp where
  /-- `tmysql::createDatabase`. -/
  | createDatabase (d : DbId) (callback : Bool)
  /-- `Database::TriggerCallback`, before `PushHandle`. -/
  | triggerConnect (d : DbId)
  /-- `lua_Query` and `lua_Run`. -/
  | queue (id : ℕ) (callback object : Bool)
  /-- `DatabaseAction::TriggerCallback`. -/
  | trigger (id : ℕ)
  | handle (op : HandleOp)
deriving DecidableEq, Repr

/-! ### The operations -/

section Operations

variable (L : Ledger Member)

/-- The reference of an argument that is given, else `-1`. -/
def createReference (given : Bool) (m : Member) : Ledger Member :=
  if given then L.create m else L.assign m (-1)

def pushHandle (o : Object) : Ledger Member :=
  let L := if L.value (.iLuaRef o) = 0 then L.create (.iLuaRef o) else L
  L.push (L.value (.iLuaRef o))

/-- `NullifyReference`, or the same in `PStatement::Release`. -/
def nullifyReference (o : Object) : Ledger Member :=
  let L := pushHandle L o
  L.free (L.value (.iLuaRef o))

def triggerConnect (d : DbId) : Ledger Member :=
  let r := L.value (.iCallback d)
  if 0 ≤ r then ((L.push r).free r).assign (.iCallback d) 0 else L

/-- A reference in use leads to the function that it was created for, any other to none. -/
def triggerAction (id : ℕ) : Ledger Member :=
  let r := L.value (.callback id)
  let ref := L.value (.callbackRef id)
  if r ≤ 0 then L
  else
    let L' := (L.push r).free r
    if ref ≤ 0 then L' else if L.InUse r then (L'.push ref).free ref else L'.free ref

end Operations

namespace RefOp

def apply (L : Ledger Member) : RefOp → Ledger Member
  | .createDatabase d callback =>
      (createReference L callback (.iCallback d)).assign (.iLuaRef (.database d)) 0
  | .triggerConnect d => Tmysql4.triggerConnect L d
  | .queue id callback object =>
      createReference (createReference L callback (.callback id)) object (.callbackRef id)
  | .trigger id => triggerAction L id
  | .handle (.push o) => pushHandle L o
  | .handle (.nullify o) => nullifyReference L o

/-- What an operation does to the accounts. -/
def account (a : Member → Account) : RefOp → Member → Account
  | .createDatabase d callback => if callback then Function.update a (.iCallback d) .held else a
  | .triggerConnect d =>
      if a (.iCallback d) = .held then Function.update a (.iCallback d) .closed else a
  | .queue id callback object =>
      let a := if callback then Function.update a (.callback id) .held else a
      if object then Function.update a (.callbackRef id) .held else a
  | .trigger id =>
      if a (.callback id) = .held then
        let a := Function.update a (.callback id) .closed
        if a (.callbackRef id) = .held then Function.update a (.callbackRef id) .closed else a
      else a
  | .handle (.push o) => if a (.iLuaRef o) = .none then Function.update a (.iLuaRef o) .held else a
  | .handle (.nullify o) => Function.update a (.iLuaRef o) .closed

/-- The accounts allow the operation. -/
def Allowed (a : Member → Account) : RefOp → Prop
  | .createDatabase d _ => a (.iCallback d) = .none ∧ a (.iLuaRef (.database d)) = .none
  | .triggerConnect d => a (.iCallback d) ≠ .closed
  | .queue id _ _ => a (.callback id) = .none ∧ a (.callbackRef id) = .none
  | .trigger id =>
      a (.callback id) = .none ∨ a (.callback id) = .held ∧ a (.callbackRef id) ≠ .closed
  | .handle (.push o) => a (.iLuaRef o) ≠ .closed
  | .handle (.nullify o) => a (.iLuaRef o) ≠ .closed

def Ready : List RefOp → (Member → Account) → Prop
  | [], _ => True
  | op :: ops, a => op.Allowed a ∧ Ready ops (op.account a)

/-- The members whose account an operation may change. -/
def members : RefOp → List Member
  | .createDatabase d _ => [.iCallback d]
  | .triggerConnect d => [.iCallback d]
  | .queue id _ _ => [.callback id, .callbackRef id]
  | .trigger id => [.callback id, .callbackRef id]
  | .handle (.push o) => [.iLuaRef o]
  | .handle (.nullify o) => [.iLuaRef o]

variable {a : Member → Account} {ops ops' : List RefOp} {op : RefOp} {m : Member}

theorem account_of_not_mem (hm : m ∉ op.members) : op.account a m = a m := by
  have hupdate : ∀ {m' : Member} {a' : Member → Account} {x : Account}, m ≠ m' →
      Function.update a' m' x m = a' m := fun h => Function.update_of_ne h _ _
  cases op with
  | createDatabase d callback =>
      simp only [members, List.mem_singleton] at hm
      simp only [account]
      split
      · exact hupdate hm
      · rfl
  | triggerConnect d =>
      simp only [members, List.mem_singleton] at hm
      simp only [account]
      split
      · exact hupdate hm
      · rfl
  | queue id callback object =>
      simp only [members, List.mem_cons, List.not_mem_nil, or_false, not_or] at hm
      simp only [account]
      split
      · rw [hupdate hm.2]
        split
        · exact hupdate hm.1
        · rfl
      · split
        · exact hupdate hm.1
        · rfl
  | trigger id =>
      simp only [members, List.mem_cons, List.not_mem_nil, or_false, not_or] at hm
      simp only [account]
      split
      · split
        · rw [hupdate hm.2, hupdate hm.1]
        · exact hupdate hm.1
      · rfl
  | handle op =>
      cases op with
      | push o =>
          simp only [members, List.mem_singleton] at hm
          simp only [account]
          split
          · exact hupdate hm
          · rfl
      | nullify o =>
          simp only [members, List.mem_singleton] at hm
          exact hupdate hm

theorem account_foldl_of_not_mem (hm : ∀ op ∈ ops, m ∉ op.members) :
    ops.foldl account a m = a m := by
  induction ops generalizing a with
  | nil => rfl
  | cons op ops ih =>
      rw [List.foldl_cons, ih fun op hop => hm op (List.mem_cons_of_mem _ hop)]
      exact account_of_not_mem (hm op List.mem_cons_self)

theorem ready_append : Ready (ops ++ ops') a ↔ Ready ops a ∧ Ready ops' (ops.foldl account a) := by
  induction ops generalizing a with
  | nil => exact ⟨fun h => ⟨trivial, h⟩, fun h => h.2⟩
  | cons op ops ih => rw [List.cons_append, Ready, ih, Ready, List.foldl_cons, and_assoc]

end RefOp

/-! ### Each operation keeps the comparison -/

section Agreement

variable {a : Member → Account} {L : Ledger Member} {m : Member}

theorem agrees_createReference (h : Agrees Member.unset a L) (given : Bool) (hm : a m = .none)
    (hunset : m.unset = -1) :
    Agrees Member.unset (if given then Function.update a m .held else a)
      (createReference L given m) := by
  cases given with
  | true => exact h.create hm
  | false => exact h.assign (.inr ⟨hm, hunset.symm⟩)

/-- A reference that is held is pushed and freed. -/
theorem agrees_pushFree (h : Agrees Member.unset a L) (hm : a m = .held) :
    Agrees Member.unset (Function.update a m .closed) ((L.push (L.value m)).free (L.value m)) := by
  rw [h.push hm]
  exact h.free hm

theorem agrees_pushHandle {o : Object} (h : Agrees Member.unset a L)
    (ho : a (.iLuaRef o) ≠ .closed) :
    Agrees Member.unset (if a (.iLuaRef o) = .none then Function.update a (.iLuaRef o) .held else a)
      (pushHandle L o) ∧
    (if a (.iLuaRef o) = .none then Function.update a (.iLuaRef o) .held else a) (.iLuaRef o) =
      .held := by
  unfold pushHandle
  cases ha : a (.iLuaRef o) with
  | none =>
      have hself : Function.update a (.iLuaRef o) .held (.iLuaRef o) = Account.held :=
        Function.update_self _ _ _
      have hvalue : L.value (.iLuaRef o) = 0 := h.value_unset ha
      have hcreate := h.create ha
      simp only [if_pos hvalue, if_true]
      rw [hcreate.push hself]
      exact ⟨hcreate, hself⟩
  | held =>
      have hvalue : L.value (.iLuaRef o) ≠ 0 := fun heq => by
        have hpos := h.value_pos ha
        omega
      simp only [if_neg hvalue, reduceCtorEq, if_false]
      rw [h.push ha]
      exact ⟨h, ha⟩
  | closed => exact absurd ha ho

theorem agrees_nullifyReference {o : Object} (h : Agrees Member.unset a L)
    (ho : a (.iLuaRef o) ≠ .closed) :
    Agrees Member.unset (Function.update a (.iLuaRef o) .closed) (nullifyReference L o) := by
  obtain ⟨hpush, hheld⟩ := agrees_pushHandle h ho
  have hfree := hpush.free hheld
  split at hfree
  · rwa [Function.update_idem] at hfree
  · exact hfree

theorem agrees_triggerConnect {d : DbId} (h : Agrees Member.unset a L)
    (hd : a (.iCallback d) ≠ .closed) :
    Agrees Member.unset (if a (.iCallback d) = .held then
      Function.update a (.iCallback d) .closed else a) (triggerConnect L d) := by
  unfold triggerConnect
  cases ha : a (.iCallback d) with
  | none =>
      have hvalue : L.value (.iCallback d) = -1 := h.value_unset ha
      simp only [hvalue]
      exact h
  | held =>
      have hpos := h.value_pos ha
      simp only [if_pos (Int.le_of_lt hpos), if_true]
      exact (agrees_pushFree h ha).assign (.inl (Function.update_self _ _ _))
  | closed => exact absurd ha hd

theorem agrees_triggerAction {id : ℕ} (h : Agrees Member.unset a L)
    (hop : (RefOp.trigger id).Allowed a) :
    Agrees Member.unset (RefOp.account a (.trigger id)) (triggerAction L id) := by
  unfold triggerAction RefOp.account
  obtain hnone | ⟨hcallback, href⟩ := hop
  · have hvalue : L.value (.callback id) = -1 := h.value_unset hnone
    have hle : L.value (.callback id) ≤ 0 := by omega
    simp only [hnone, reduceCtorEq, if_false, if_pos hle]
    exact h
  · have hpos : ¬L.value (.callback id) ≤ 0 := fun hle => by
      have hpos := h.value_pos hcallback
      omega
    have hfree := agrees_pushFree h hcallback
    have hsame : Function.update a (.callback id) .closed (.callbackRef id) = a (.callbackRef id) :=
      Function.update_of_ne (by simp) _ _
    have hvalue : ((L.push (L.value (.callback id))).free (L.value (.callback id))).value =
        L.value := by
      rw [h.push hcallback, Ledger.free_of_inUse (h.inUse hcallback)]
    simp only [if_neg hpos, if_pos hcallback, hsame, if_pos (h.inUse hcallback)]
    cases ha : a (.callbackRef id) with
    | none =>
        have hunset : L.value (.callbackRef id) = -1 := h.value_unset ha
        have hle : L.value (.callbackRef id) ≤ 0 := by omega
        simp only [if_pos hle, reduceCtorEq, if_false]
        exact hfree
    | held =>
        have hrefpos : ¬L.value (.callbackRef id) ≤ 0 := fun hle => by
          have hpos := h.value_pos ha
          omega
        have hboth := agrees_pushFree hfree (hsame.trans ha)
        rw [hvalue] at hboth
        simp only [if_neg hrefpos, if_true]
        exact hboth
    | closed => exact absurd ha href

theorem agrees_apply {op : RefOp} (h : Agrees Member.unset a L) (hop : op.Allowed a) :
    Agrees Member.unset (op.account a) (op.apply L) := by
  cases op with
  | createDatabase d callback =>
      have hcreate := agrees_createReference h callback hop.1 rfl
      refine hcreate.assign (.inr ⟨?_, rfl⟩)
      split
      · exact (Function.update_of_ne (by simp) _ _).trans hop.2
      · exact hop.2
  | triggerConnect d => exact agrees_triggerConnect h hop
  | queue id callback object =>
      have hcreate := agrees_createReference h callback hop.1 rfl
      refine agrees_createReference hcreate object ?_ rfl
      split
      · exact (Function.update_of_ne (by simp) _ _).trans hop.2
      · exact hop.2
  | trigger id => exact agrees_triggerAction h hop
  | handle op =>
      cases op with
      | push o => exact (agrees_pushHandle h hop).1
      | nullify o => exact agrees_nullifyReference h hop

theorem agrees_run {ops : List RefOp} (h : Agrees Member.unset a L) (hr : RefOp.Ready ops a) :
    Agrees Member.unset (ops.foldl RefOp.account a) (ops.foldl RefOp.apply L) := by
  induction ops generalizing a L with
  | nil => exact h
  | cons op ops ih => exact ih (agrees_apply h hr.1) hr.2

end Agreement

/-! ### Handles -/

namespace HandleOp

def object : HandleOp → Object
  | .push o => o
  | .nullify o => o

/-- No operation is on an object whose handle has been cleared. -/
def Alive : List HandleOp → (Object → Status) → Prop
  | [], _ => True
  | op :: ops, st => st op.object ≠ .cleared ∧ Alive ops (status st op)

theorem alive_push {ops : List HandleOp} {st : Object → Status}
    (h : ∀ op ∈ ops, ∃ o, op = .push o ∧ st o ≠ .cleared) : Alive ops st := by
  induction ops generalizing st with
  | nil => trivial
  | cons op ops ih =>
      obtain ⟨o, rfl, ho⟩ := h op List.mem_cons_self
      refine ⟨ho, ih fun op hop => ?_⟩
      obtain ⟨o', rfl, ho'⟩ := h op (List.mem_cons_of_mem _ hop)
      refine ⟨o', rfl, ?_⟩
      by_cases heq : o' = o
      · subst heq
        rw [status, Function.update_self]
        cases hst : st o' with
        | cleared => exact absurd hst ho'
        | _ => exact Status.noConfusion
      · rw [status, Function.update_of_ne heq]
        exact ho'

/-- On nullifying operations the two conditions are one. -/
theorem alive_of_ready {os : List Object} {st : Object → Status} (h : Ready (os.map .nullify) st) :
    Alive (os.map .nullify) st := by
  induction os generalizing st with
  | nil => trivial
  | cons o os ih => exact ⟨h.1, ih h.2⟩

end HandleOp

def statusAccount : Status → Account
  | .unseen => .none
  | .held => .held
  | .cleared => .closed

section Handles

variable {ops : List HandleOp} {a : Member → Account} {st : Object → Status}

theorem account_handle (h : ∀ o, a (.iLuaRef o) = statusAccount (st o)) (op : HandleOp)
    (o : Object) :
    RefOp.account a (.handle op) (.iLuaRef o) = statusAccount (HandleOp.status st op o) := by
  cases op with
  | push o' =>
      by_cases ho : o = o'
      · subst ho
        cases hst : st o <;> simp [RefOp.account, HandleOp.status, h, hst, statusAccount,
          Status.pushed]
      · have hne : Member.iLuaRef o ≠ .iLuaRef o' := fun heq => ho (Member.iLuaRef.inj heq)
        simp only [RefOp.account, HandleOp.status, Function.update_of_ne ho]
        split
        · rw [Function.update_of_ne hne, h]
        · exact h o
  | nullify o' =>
      by_cases ho : o = o'
      · subst ho
        simp [RefOp.account, HandleOp.status, statusAccount]
      · have hne : Member.iLuaRef o ≠ .iLuaRef o' := fun heq => ho (Member.iLuaRef.inj heq)
        simp only [RefOp.account, HandleOp.status, Function.update_of_ne ho,
          Function.update_of_ne hne]
        exact h o

/-- The accounts of the handles are their statuses. -/
theorem account_handles (h : ∀ o, a (.iLuaRef o) = statusAccount (st o)) (o : Object) :
    ((ops.map RefOp.handle).foldl RefOp.account a) (.iLuaRef o) =
      statusAccount (ops.foldl HandleOp.status st o) := by
  induction ops generalizing a st with
  | nil => exact h o
  | cons op ops ih => exact ih (account_handle h op)

theorem account_handles_of_ne {m : Member} (hm : ∀ o, m ≠ .iLuaRef o) :
    ((ops.map RefOp.handle).foldl RefOp.account a) m = a m := by
  refine RefOp.account_foldl_of_not_mem fun op hop => ?_
  obtain ⟨op, -, rfl⟩ := List.mem_map.mp hop
  cases op with
  | push o => simpa [RefOp.members] using hm o
  | nullify o => simpa [RefOp.members] using hm o

theorem ready_handles (h : ∀ o, a (.iLuaRef o) = statusAccount (st o))
    (hops : HandleOp.Alive ops st) : RefOp.Ready (ops.map .handle) a := by
  induction ops generalizing a st with
  | nil => trivial
  | cons op ops ih =>
      refine ⟨?_, ih (account_handle h op) hops.2⟩
      have hopen : a (.iLuaRef op.object) ≠ .closed := by
        rw [h]
        cases hst : st op.object with
        | cleared => exact absurd hst hops.1
        | _ => exact Account.noConfusion
      cases op with
      | push o => exact hopen
      | nullify o => exact hopen

end Handles

/-! ### The operations of a step -/

namespace State

variable (s : State)

/-- The operations of a step on references that are not those of handles; `object` says whether a
`Query` or `Run` call has a callback object. -/
def callbackOps (object : Bool) : Label → List RefOp
  | .create callback _ => [.createDatabase s.nextDb callback]
  | .connect callback _ result =>
      .createDatabase s.nextDb callback :: if result = .connected then
        [.triggerConnect s.nextDb] else []
  | .query d callback =>
      if (s.db d).handle = .pointer ∧ (s.db d).isConnected = true then
        [.queue s.nextAction callback object]
      else []
  | .run sid callback =>
      if (s.stmt sid).handle = .pointer then [.queue s.nextAction callback object] else []
  | .poll d =>
      if (s.db d).handle = .pointer ∧ (s.db d).isPendingCallback = true then
        [.triggerConnect d]
      else []
  | .cpp =>
      match s.stack with
      | .dispatch d (action :: _) :: _ =>
          if (s.db d).isInGC = true then [] else [.trigger action.id]
      | _ => []
  | _ => []

/-- The operations of a step, in their order. -/
def refOps (object : Bool) (l : Label) : List RefOp :=
  s.callbackOps object l ++ (s.handleOps l).map .handle

/-- The action that a step deletes; its references are done with before its callback runs. -/
def deletes : Label → List ℕ
  | .cpp =>
      match s.stack with
      | .dispatch _ (action :: _) :: _ => [action.id]
      | _ => []
  | _ => []

/-- The call that a step accepts with a callback object. -/
def objectOf (object : Bool) (l : Label) : List ℕ :=
  if object = true ∧ s.callbackOps object l ≠ [] then
    match l with
    | .query _ _ => [s.nextAction]
    | .run _ _ => [s.nextAction]
    | _ => []
  else []

variable {s} {s' : State} {l : Label} {d : DbId}

theorem not_mem_callbackOps {object : Bool} {op : RefOp} (hop : op ∈ s.callbackOps object l)
    (o : Object) : .iLuaRef o ∉ op.members := by
  cases l with
  | cpp =>
      simp only [callbackOps] at hop
      split at hop
      · split at hop
        · cases hop
        · rw [List.mem_singleton.mp hop]
          simp [RefOp.members]
      · cases hop
  | connect callback junk result =>
      obtain rfl | hop := List.mem_cons.mp hop
      · simp [RefOp.members]
      · split at hop
        · rw [List.mem_singleton.mp hop]
          simp [RefOp.members]
        · cases hop
  | create callback junk =>
      rw [List.mem_singleton.mp hop]
      simp [RefOp.members]
  | query d callback | run sid callback | poll d =>
      simp only [callbackOps] at hop
      split at hop
      · rw [List.mem_singleton.mp hop]
        simp [RefOp.members]
      · cases hop
  | _ => cases hop

/-! ### No handle is used after it was cleared -/

/-- The handles of live databases are not cleared while Lua code runs, or below another frame. -/
theorem not_cleared_of_live (hc : s.Correct) (hh : s.Handled) (hlive : (s.db d).live = true)
    (htop : ∀ stack, s.stack ≠ .destroy d :: stack) : s.status (.database d) ≠ .cleared := by
  intro hstatus
  have hnull : (s.db d).handle = .null := by
    cases hhandle : (s.db d).handle with
    | null => rfl
    | _ =>
        rw [status, hhandle] at hstatus
        cases hstatus
  have hmem := hh.cleared d hlive hnull
  cases hstack : s.stack with
  | nil =>
      rw [hstack] at hmem
      cases hmem
  | cons frame stack =>
      rw [hstack] at hmem
      obtain rfl | hmem := List.mem_cons.mp hmem
      · exact htop stack hstack
      · have hsuspended := hc.wf.lifecycle.suspended (.destroy d) (by rw [hstack]; exact hmem)
        cases hsuspended

theorem not_destroy_of_turn (turn : s.luaTurn = true) (stack : List Frame) :
    s.stack ≠ .destroy d :: stack := by
  intro hstack
  rw [luaTurn, hstack] at turn
  cases turn

/-- A live statement that is not waiting for its handle has it. -/
theorem not_cleared_of_live_stmt (hc : s.Correct) {sid : StmtId}
    (hlive : (s.stmt sid).live = true) : s.status (.statement sid) ≠ .cleared := by
  rw [status]
  obtain hpointer | ⟨query, stack, top, done⟩ := hc.returned sid hlive
  · rw [hpointer]
    exact Status.noConfusion
  · rw [(hc.wf.statements.waiting _ query stack top).created sid done]
    exact Status.noConfusion

theorem not_cleared_nextDb (hc : s.Correct) : s.status (.database s.nextDb) ≠ .cleared := by
  rw [status, hc.wf.lifecycle.fresh _ (Nat.le_refl _)]
  exact Status.noConfusion

theorem not_cleared_of_pointer {handle : Handle} (h : handle = .pointer) :
    handle.status ≠ .cleared := by
  rw [h]
  exact Status.noConfusion

theorem alive_cpp (hc : s.Correct) (hh : s.Handled) (hs : s.step .cpp = some s')
    (hf : s'.fault = none) : HandleOp.Alive (s.handleOps .cpp) s.status := by
  obtain ⟨-, he | ⟨f, -, rfl⟩⟩ := step_effect hs
  · cases he with
    | release d stack top can =>
        rw [handleOps_release top]
        refine HandleOp.alive_of_ready ?_
        rw [← handleOps_release top]
        exact ready_release hc hh top can
    | connectDone d stack top live =>
        simp only [handleOps, top]
        refine HandleOp.alive_push fun op hop =>
          ⟨_, List.mem_singleton.mp hop, not_cleared_of_live hc hh live ?_⟩
        intro stack' top'
        rw [top] at top'
        cases top'
    | prepareDone d query sid stack top done live =>
        simp only [handleOps, top, done]
        refine HandleOp.alive_push fun op hop => ⟨.statement sid, by simpa using hop, ?_⟩
        rw [status, (hc.wf.statements.waiting _ query stack top).created sid done]
        exact Status.noConfusion
    | prepareFailed d query stack top done =>
        simp only [handleOps, top, done]
        trivial
    | stay turn =>
        cases hstack : s.stack with
        | nil =>
            simp only [handleOps, hstack]
            trivial
        | cons frame stack =>
            rw [luaTurn, hstack] at turn
            cases frame with
            | lua =>
                simp only [handleOps, hstack]
                trivial
            | _ => cases turn
    | dispatchDone d stack top | dispatchSkip d action rest stack top | pollPop d stack top
      | dispatchStart d action rest stack top | destroy d stack top | waitDone d stack top =>
        simp only [handleOps, top]
        trivial
  · cases hf

/-- **No handle is used after it was cleared.** -/
theorem alive_step (hc : s.Correct) (hh : s.Handled) (hs : s.step l = some s')
    (hf : s'.fault = none) : HandleOp.Alive (s.handleOps l) s.status := by
  have hcall := luaCall_of_step hs hf
  cases l with
  | create callback junk =>
      exact HandleOp.alive_push fun op hop => ⟨_, List.mem_singleton.mp hop, not_cleared_nextDb hc⟩
  | connect callback junk result =>
      simp only [handleOps]
      split
      · exact HandleOp.alive_push fun op hop =>
          ⟨_, List.mem_singleton.mp hop, not_cleared_nextDb hc⟩
      · trivial
  | getTable =>
      obtain ⟨turn, hok⟩ := hcall rfl (by simp) (by simp)
      obtain ⟨hlive, -⟩ | ⟨d, -, -, he⟩ := getTable_cases s.databases s
      · refine HandleOp.alive_push fun op hop => ?_
        obtain ⟨d, hd, rfl⟩ := List.mem_map.mp hop
        exact ⟨_, rfl, not_cleared_of_live hc hh (hlive d hd) (not_destroy_of_turn turn)⟩
      · rw [luaCall, he] at hok
        cases hok
  | prepare d query =>
      simp only [handleOps]
      split
      · rename_i hh'
        refine HandleOp.alive_push fun op hop => ?_
        obtain ⟨sid, hsid, rfl⟩ := List.mem_map.mp hop
        rw [Option.mem_toList] at hsid
        have hlive := (hc.wf.statements.cached d hh'.2).live _ (mem_of_lookup hsid)
        exact ⟨_, rfl, not_cleared_of_live_stmt hc hlive⟩
      · trivial
  | poll d =>
      simp only [handleOps]
      split
      · rename_i hh'
        exact HandleOp.alive_push fun op hop =>
          ⟨_, List.mem_singleton.mp hop, not_cleared_of_pointer hh'.1⟩
      · trivial
  | stmtGc sid =>
      simp only [handleOps]
      split
      · rename_i hh'
        exact ⟨not_cleared_of_pointer hh', trivial⟩
      · trivial
  | cpp => exact alive_cpp hc hh hs hf
  | _ => trivial

end State

/-- The module with its references, the calls that gave a
callback object and the actions deleted so far. -/
structure Accounts where
  state : State
  ledger : Ledger Member
  objects : List ℕ
  deletedActions : List ℕ

namespace Accounts

def init : Accounts := ⟨State.init, .empty Member.unset, [], []⟩

/-- A step, with the callback object that a `Query` or `Run` call gives. -/
def step (m : Accounts) (l : Label × Bool) : Option Accounts :=
  (m.state.step l.1).map fun s' =>
    if s'.fault.isSome then { m with state := s' }
    else ⟨s', (m.state.refOps l.2 l.1).foldl RefOp.apply m.ledger,
      m.objects ++ m.state.objectOf l.2 l.1, m.deletedActions ++ m.state.deletes l.1⟩

end Accounts

end Tmysql4
