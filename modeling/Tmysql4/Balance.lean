import Tmysql4.References
import Tmysql4.Routes

/-! # Registry references are balanced

`account` says from the state alone which member holds a reference: a callback from the acceptance
of its call to its start, a callback object as long, if its action has a callback, and for ever
otherwise.  A step changes the accounts as its operations do (`account_step`), which are allowed
(`ready_refOps`) as long as no connect callback is run again. `references_balanced` adds what else
has to be avoided, so that nothing is deleted while it holds a reference. -/

namespace Tmysql4

open HandleTable (Status)
open RefLedger (Account Ledger Agrees)

namespace State

variable {s s' : State} {l : Label} {d : DbId} {objects : List ℕ} {object : Bool}

/-! ### The accounts of a state -/

open Classical in
/-- What the members hold, from the state and the calls that gave an object. -/
noncomputable def account (s : State) (objects : List ℕ) : Member → Account
  | .callback id => if s.CallStarted id then .closed else if s.CallAccepted id then .held else .none
  | .callbackRef id => if id ∈ objects then if s.CallStarted id then .closed else .held else .none
  | .iCallback d =>
      if (s.db d).callback < 0 then .none else if (s.db d).callback = 0 then .closed else .held
  | .iLuaRef o => statusAccount (s.status o)

theorem account_iLuaRef (o : Object) :
    s.account objects (.iLuaRef o) = statusAccount (s.status o) := rfl

theorem account_iCallback (d : DbId) :
    s.account objects (.iCallback d) =
      if (s.db d).callback < 0 then .none else if (s.db d).callback = 0 then .closed
      else .held := rfl

theorem account_callback {id : ℕ} (hacc : s.CallAccepted id) (hstart : ¬s.CallStarted id) :
    s.account objects (.callback id) = .held := by
  rw [account, if_neg hstart, if_pos hacc]

theorem account_callback_none (h : s.Routed) {id : ℕ} (hacc : ¬s.CallAccepted id) :
    s.account objects (.callback id) = .none := by
  rw [account, if_neg fun hstart => hacc (h.callAccepted_of_started hstart), if_neg hacc]

theorem account_callback_closed {id : ℕ} (hstart : s.CallStarted id) :
    s.account objects (.callback id) = .closed := by
  rw [account, if_pos hstart]

theorem account_callbackRef {id : ℕ} (hid : id ∈ objects) (hstart : ¬s.CallStarted id) :
    s.account objects (.callbackRef id) = .held := by
  rw [account, if_pos hid, if_neg hstart]

theorem account_callbackRef_none {id : ℕ} (hid : id ∉ objects) :
    s.account objects (.callbackRef id) = .none := by
  rw [account, if_neg hid]

theorem account_callbackRef_closed {id : ℕ} (hid : id ∈ objects) (hstart : s.CallStarted id) :
    s.account objects (.callbackRef id) = .closed := by
  rw [account, if_pos hid, if_pos hstart]

/-- The references of an action depend on its own call only. -/
theorem account_congr {id : ℕ} (hacc : s'.CallAccepted id ↔ s.CallAccepted id)
    (hstart : s'.CallStarted id ↔ s.CallStarted id) :
    s'.account objects (.callback id) = s.account objects (.callback id) ∧
      s'.account objects (.callbackRef id) = s.account objects (.callbackRef id) := by
  have haccepted := propext hacc
  have hstarted := propext hstart
  constructor
  · rw [account, account, haccepted, hstarted]
  · rw [account, account, hstarted]

/-! ### What a step does to calls and connect callbacks -/

/-- Calls are accepted by `Query` and `Run` only. -/
theorem accepted_of_effect (hw : s.Wf) (he : s.Effect l s')
    (hquery : ∀ d callback, l ≠ .query d callback) (hrun : ∀ sid callback, l ≠ .run sid callback)
    (d : DbId) : (s'.db d).accepted = (s.db d).accepted := by
  have hraw := hw.lifecycle.fresh s.nextDb (Nat.le_refl _)
  cases he with
  | stay turn => rfl
  | query d' callback => exact absurd rfl (hquery d' callback)
  | run sid callback => exact absurd rfl (hrun sid callback)
  | prepareCached => rfl
  | _ =>
      simp <;> grind [Database.construct, Database.raw, Database.fire_accepted]

/-- Callbacks are started by the dispatch loop only. -/
theorem started_of_effect (hw : s.Wf) (he : s.Effect l s') (hcpp : l ≠ .cpp) (d : DbId) :
    (s'.db d).started = (s.db d).started := by
  have hraw := hw.lifecycle.fresh s.nextDb (Nat.le_refl _)
  cases he with
  | stay turn => rfl
  | prepareCached => rfl
  | _ =>
      first
      | exact absurd rfl hcpp
      | simp <;> grind [Database.construct, Database.raw, Database.fire_started]

/-- `m_iCallback` is set by the constructor and by `Database::TriggerCallback`. -/
theorem callback_of_effect (he : s.Effect l s')
    (hcreate : ∀ callback junk, l ≠ .create callback junk) (hconnect : ∀ callback junk result,
      l ≠ .connect callback junk result) (hpoll : ∀ d, l ≠ .poll d) (d : DbId) :
    (s'.db d).callback = (s.db d).callback := by
  cases he with
  | stay turn => rfl
  | prepareCached => rfl
  | create callback junk => exact absurd rfl (hcreate callback junk)
  | connected callback junk => exact absurd rfl (hconnect callback junk _)
  | connectFailed callback junk r => exact absurd rfl (hconnect callback junk r)
  | poll d => exact absurd rfl (hpoll d)
  | _ =>
      simp <;> grind

/-- One of the lists gets one more id. -/
theorem exists_mem_append {f g : DbId → List ℕ} {p : Prop} [Decidable p] {id id' : ℕ}
    (h : ∀ d', g d' = if p ∧ d' = d then f d' ++ [id'] else f d') :
    (∃ d', id ∈ g d') ↔ (∃ d', id ∈ f d') ∨ p ∧ id = id' := by
  constructor
  · rintro ⟨d', hd'⟩
    rw [h] at hd'
    split at hd'
    · rename_i hp
      obtain hd' | hid := List.mem_append.mp hd'
      · exact .inl ⟨d', hd'⟩
      · exact .inr ⟨hp.1, List.mem_singleton.mp hid⟩
    · exact .inl ⟨d', hd'⟩
  · rintro (⟨d', hd'⟩ | ⟨hp, rfl⟩)
    · refine ⟨d', ?_⟩
      rw [h]
      split
      · exact List.mem_append_left _ hd'
      · exact hd'
    · refine ⟨d, ?_⟩
      rw [h, if_pos ⟨hp, rfl⟩]
      exact List.mem_append_right _ (List.mem_singleton_self _)

/-! ### What a step does to the accounts -/

/-- Nothing happens to calls, nor to connect callbacks but that of `d`. -/
theorem account_of_ne (hacc : ∀ d, (s'.db d).accepted = (s.db d).accepted)
    (hstart : ∀ d, (s'.db d).started = (s.db d).started)
    (hcallback : ∀ d', d' ≠ d → (s'.db d').callback = (s.db d').callback) {m : Member}
    (hm : ∀ o, m ≠ .iLuaRef o) (hne : m ≠ .iCallback d) :
    s'.account objects m = s.account objects m := by
  have hcalls : ∀ id, s'.account objects (.callback id) = s.account objects (.callback id) ∧
      s'.account objects (.callbackRef id) = s.account objects (.callbackRef id) := fun id =>
    account_congr (by simp only [CallAccepted, hacc]) (by simp only [CallStarted, hstart])
  cases m with
  | callback id => exact (hcalls id).1
  | callbackRef id => exact (hcalls id).2
  | iCallback d' => rw [account_iCallback, account_iCallback, hcallback d' (by simpa using hne)]
  | iLuaRef o => exact absurd rfl (hm o)

theorem account_quiet (hacc : ∀ d, (s'.db d).accepted = (s.db d).accepted)
    (hstart : ∀ d, (s'.db d).started = (s.db d).started)
    (hcallback : ∀ d, (s'.db d).callback = (s.db d).callback) {m : Member}
    (hm : ∀ o, m ≠ .iLuaRef o) : s'.account objects m = s.account objects m := by
  by_cases hne : m = .iCallback 0
  · subst hne
    rw [account_iCallback, account_iCallback, hcallback]
  · exact account_of_ne hacc hstart (fun d _ => hcallback d) hm hne

theorem account_iCallback_nextDb (hw : s.Wf) : s.account objects (.iCallback s.nextDb) = .none := by
  rw [account_iCallback, hw.lifecycle.fresh _ (Nat.le_refl _), if_pos]
  decide

/-- A database is constructed, and perhaps connected. -/
theorem account_create (hw : s.Wf) {callback : Bool} (hstatus : s'.status = s.status)
    (hacc : ∀ d, (s'.db d).accepted = (s.db d).accepted)
    (hstart : ∀ d, (s'.db d).started = (s.db d).started) (hcallback : ∀ d, (s'.db d).callback =
      if d = s.nextDb then if callback = true then 1 else -1 else (s.db d).callback) :
    RefOp.account (s.account objects) (.createDatabase s.nextDb callback) = s'.account objects := by
  funext m
  by_cases hne : m = .iCallback s.nextDb
  · subst hne
    rw [account_iCallback, hcallback, if_pos rfl]
    cases callback with
    | true => simp [RefOp.account]
    | false =>
        simp only [RefOp.account, Bool.false_eq_true, if_false]
        rw [account_iCallback_nextDb hw]
        decide
  · rw [RefOp.account_of_not_mem (by simpa [RefOp.members] using hne)]
    by_cases hm : ∃ o, m = .iLuaRef o
    · obtain ⟨o, rfl⟩ := hm
      rw [account_iLuaRef, account_iLuaRef, hstatus]
    · exact (account_of_ne hacc hstart (fun d hd => by rw [hcallback, if_neg hd])
        (fun o ho => hm ⟨o, ho⟩) hne).symm

/-- The connect callback, when it is due. -/
theorem account_fired (d : DbId) {m : Member} (hm : ∀ o, m ≠ .iLuaRef o) :
    (if (s.db d).isPendingCallback = true then [RefOp.triggerConnect d] else []).foldl RefOp.account
      (s.account objects) m = (s.fired d).account objects m := by
  by_cases hne : m = .iCallback d
  · subst hne
    rw [account_iCallback, fired_db, if_pos rfl, Database.fire]
    cases hpending : (s.db d).isPendingCallback with
    | false => simp [account_iCallback]
    | true =>
        simp only [if_true, List.foldl_cons, List.foldl_nil, RefOp.account, account_iCallback]
        obtain hneg | hzero | hpos := Int.lt_trichotomy (s.db d).callback 0
        · simp [account_iCallback, hneg, Int.not_le.mpr hneg]
        · simp [account_iCallback, hzero]
        · simp [Int.le_of_lt hpos, Int.not_lt.mpr (Int.le_of_lt hpos), Int.ne_of_gt hpos]
  · rw [RefOp.account_foldl_of_not_mem fun op hop => ?_]
    · refine (account_of_ne (d := d) (fun d' => ?_) (fun d' => ?_) (fun d' hd => ?_) hm hne).symm
      · by_cases hd : d' = d <;> simp [hd]
      · by_cases hd : d' = d <;> simp [hd]
      · simp [hd]
    · split at hop
      · rw [List.mem_singleton.mp hop]
        simpa [RefOp.members] using hne
      · cases hop

/-- A `Query` or `Run` call is accepted. -/
theorem account_queue (h : s.Routed) {callback : Bool}
    (hacc : ∀ id, s'.CallAccepted id ↔ s.CallAccepted id ∨ callback = true ∧ id = s.nextAction)
    (hstart : ∀ id, s'.CallStarted id ↔ s.CallStarted id)
    (hcallback : ∀ d, (s'.db d).callback = (s.db d).callback) {m : Member}
    (hm : ∀ o, m ≠ .iLuaRef o) :
    RefOp.account (s.account objects) (.queue s.nextAction callback object) m =
      s'.account (objects ++ if object = true then [s.nextAction] else []) m := by
  have hnew : ¬s'.CallStarted s.nextAction := fun hid =>
    Nat.lt_irrefl _ (h.accepted_lt (h.callAccepted_of_started ((hstart _).mp hid)))
  cases m with
  | callback id =>
      have hcase : RefOp.account (s.account objects) (.queue s.nextAction callback object)
          (.callback id) =
          if callback = true ∧ id = s.nextAction then .held
          else s.account objects (.callback id) := by
        simp only [RefOp.account]
        cases callback <;> cases object <;> simp [Function.update_apply]
      rw [hcase]
      split
      · rename_i hid
        obtain ⟨rfl, rfl⟩ := hid
        exact (account_callback ((hacc _).mpr (.inr ⟨rfl, rfl⟩)) hnew).symm
      · rename_i hid
        exact (account_congr (by rw [hacc, or_iff_left hid]) (hstart id)).1.symm
  | callbackRef id =>
      have hcase : RefOp.account (s.account objects) (.queue s.nextAction callback object)
          (.callbackRef id) =
          if object = true ∧ id = s.nextAction then .held
          else s.account objects (.callbackRef id) := by
        simp only [RefOp.account]
        cases callback <;> cases object <;> simp [Function.update_apply]
      rw [hcase]
      split
      · rename_i hid
        obtain ⟨rfl, rfl⟩ := hid
        exact (account_callbackRef (by simp) hnew).symm
      · rename_i hid
        have hmem : id ∈ (objects ++ if object = true then [s.nextAction] else []) ↔
            id ∈ objects := by
          rw [List.mem_append, or_iff_left]
          cases object with
          | false => exact List.not_mem_nil
          | true => exact fun hin => hid ⟨rfl, List.mem_singleton.mp hin⟩
        rw [account, account, propext (hstart id)]
        simp only [hmem]
  | iCallback d =>
      rw [RefOp.account_of_not_mem (by simp [RefOp.members]), account_iCallback, account_iCallback,
        hcallback]
  | iLuaRef o => exact absurd rfl (hm o)

/-- The accounts of an action with a callback that is on its way. -/
theorem account_outstanding (objects : List ℕ) (h : s.Routed) {action : DatabaseAction}
    (hout : s.Outstanding d action) (hcallback : action.callback = true) :
    s.account objects (.callback action.id) = .held ∧ ¬s.CallStarted action.id := by
  have hwaiting := hout.waiting hcallback
  have hnew : ¬s.CallStarted action.id := h.not_started hwaiting
  exact ⟨account_callback ⟨d, h.mem_accepted (List.mem_append_right _ hwaiting)⟩ hnew, hnew⟩

/-- An action is dispatched; its callback is run, if it has one. -/
theorem account_trigger (h : s.Routed) {action : DatabaseAction} (hout : s.Outstanding d action)
    (hacc : ∀ d, (s'.db d).accepted = (s.db d).accepted)
    (hstart : ∀ id, s'.CallStarted id ↔ s.CallStarted id ∨ action.callback = true ∧ id = action.id)
    (hcallback : ∀ d, (s'.db d).callback = (s.db d).callback) {m : Member}
    (hm : ∀ o, m ≠ .iLuaRef o) :
    RefOp.account (s.account objects) (.trigger action.id) m = s'.account objects m := by
  have hcalls : ∀ id, ¬(action.callback = true ∧ id = action.id) →
      s'.account objects (.callback id) = s.account objects (.callback id) ∧
        s'.account objects (.callbackRef id) = s.account objects (.callbackRef id) := fun id hid =>
    account_congr (by simp only [CallAccepted, hacc]) (by rw [hstart, or_iff_left hid])
  by_cases hm' : m ∈ (RefOp.trigger action.id).members
  · cases hcb : action.callback with
    | false =>
        have hnone : s.account objects (.callback action.id) = .none :=
          account_callback_none h (h.uncalled d action hout hcb)
        have hsame := hcalls action.id (by simp [hcb])
        rw [RefOp.account, hnone, if_neg (by simp)]
        obtain rfl | hm' := List.mem_cons.mp hm'
        · exact hsame.1.symm
        · rw [List.mem_singleton.mp hm']
          exact hsame.2.symm
    | true =>
        obtain ⟨hheld, hnew⟩ := account_outstanding objects h hout hcb
        have hnow : s'.CallStarted action.id := (hstart _).mpr (.inr ⟨hcb, rfl⟩)
        have hne : Member.callbackRef action.id ≠ .callback action.id := by simp
        simp only [RefOp.account, hheld, if_true, Function.update_of_ne hne]
        obtain rfl | hm' := List.mem_cons.mp hm'
        · rw [account_callback_closed hnow]
          split
          · rw [Function.update_of_ne hne.symm, Function.update_self]
          · rw [Function.update_self]
        · obtain rfl := List.mem_singleton.mp hm'
          by_cases hin : action.id ∈ objects
          · rw [account_callbackRef hin hnew, if_pos rfl, Function.update_self,
              account_callbackRef_closed hin hnow]
          · rw [account_callbackRef_none hin, if_neg (by simp), Function.update_of_ne hne,
              account_callbackRef_none hin, account_callbackRef_none hin]
  · rw [RefOp.account_of_not_mem hm']
    cases m with
    | callback id => exact (hcalls id fun hid => hm' (by simp [RefOp.members, hid.2])).1.symm
    | callbackRef id => exact (hcalls id fun hid => hm' (by simp [RefOp.members, hid.2])).2.symm
    | iCallback d => rw [account_iCallback, account_iCallback, hcallback]
    | iLuaRef o => exact absurd rfl (hm o)

/-! ### The accounts of a call -/

theorem luaQuery_cases {callback : Bool} (hok : s.luaQuery d callback = .ok s') :
    s' =
      if (s.db d).handle = .pointer ∧ (s.db d).isConnected = true then s.queueQuery d callback
      else s := by
  unfold luaQuery getDatabaseFromStack access at hok
  split at hok
  · rename_i hpointer
    split at hok
    · cases hconnected : (s.db d).isConnected with
      | false =>
          rw [hconnected] at hok
          cases hok
          rw [if_neg (by simp)]
      | true =>
          rw [hconnected] at hok
          cases hok
          rw [if_pos ⟨hpointer, rfl⟩]
    · cases hok
  · rename_i hpointer
    cases hok
    rw [if_neg fun h => hpointer h.1]

theorem luaRun_cases {sid : StmtId} {callback : Bool} (hok : s.luaRun sid callback = .ok s') :
    s' =
      if (s.stmt sid).handle = .pointer then s.queueStatement (s.stmt sid).database sid callback
      else s := by
  unfold luaRun getPStatementFromStack accessStmt access at hok
  split at hok
  · rename_i hpointer
    split at hok
    · split at hok
      · cases hok
        rw [if_pos hpointer]
      · cases hok
    · cases hok
  · rename_i hpointer
    cases hok
    rw [if_neg hpointer]

theorem luaPoll_cases (hok : s.luaPoll d = .ok s') :
    s' = if (s.db d).handle = .pointer then (s.call (.poll d)).fired d else s := by
  unfold luaPoll getDatabaseFromStack access at hok
  split at hok
  · rename_i hpointer
    split at hok
    · cases hok
      rw [if_pos hpointer]
      rfl
    · cases hok
  · rename_i hpointer
    cases hok
    rw [if_neg hpointer]

theorem callAccepted_accept {callback : Bool} {task : Task} (id : ℕ) :
    ((s.accept d callback).post d task).CallAccepted id ↔
      s.CallAccepted id ∨ callback = true ∧ id = s.nextAction := by
  refine exists_mem_append (d := d) fun d' => ?_
  by_cases hd : d' = d <;> cases callback <;> simp [hd]

theorem account_accept (h : s.Routed) (callback : Bool) (task : Task) {m : Member}
    (hm : ∀ o, m ≠ .iLuaRef o) :
    RefOp.account (s.account objects) (.queue s.nextAction callback object) m =
      ((s.accept d callback).post d task).account
        (objects ++ if object = true then [s.nextAction] else []) m := by
  refine account_queue h callAccepted_accept (fun id => ?_) (fun d' => ?_) hm
  · have hsame : ∀ d', (((s.accept d callback).post d task).db d').started = (s.db d').started := by
      intro d'
      by_cases hd : d' = d <;> simp [hd]
    simp only [CallStarted, hsame]
  · by_cases hd : d' = d <;> simp [hd]

theorem account_query (h : s.Routed) {callback : Bool} (hok : s.luaQuery d callback = .ok s')
    {m : Member} (hm : ∀ o, m ≠ .iLuaRef o) :
    (s.callbackOps object (.query d callback)).foldl RefOp.account (s.account objects) m =
      s'.account (objects ++ s.objectOf object (.query d callback)) m := by
  rw [luaQuery_cases hok]
  simp only [objectOf, callbackOps]
  split
  · simpa using account_accept h callback _ hm
  · simp

theorem account_run (h : s.Routed) {sid : StmtId} {callback : Bool}
    (hok : s.luaRun sid callback = .ok s') {m : Member} (hm : ∀ o, m ≠ .iLuaRef o) :
    (s.callbackOps object (.run sid callback)).foldl RefOp.account (s.account objects) m =
      s'.account (objects ++ s.objectOf object (.run sid callback)) m := by
  rw [luaRun_cases hok]
  simp only [objectOf, callbackOps]
  split
  · simpa using account_accept h callback _ hm
  · simp

theorem account_poll (hok : s.luaPoll d = .ok s') {m : Member} (hm : ∀ o, m ≠ .iLuaRef o) :
    (s.callbackOps object (.poll d)).foldl RefOp.account (s.account objects) m =
      s'.account objects m := by
  rw [luaPoll_cases hok]
  simp only [callbackOps]
  by_cases hpointer : (s.db d).handle = .pointer
  · simp only [hpointer, true_and, if_true]
    exact account_fired (s := s.call (.poll d)) d hm
  · rw [if_neg hpointer, if_neg fun h => hpointer h.1, List.foldl_nil]

theorem account_tmysqlCreate (hw : s.Wf) (callback junk : Bool) {m : Member}
    (hm : ∀ o, m ≠ .iLuaRef o) :
    RefOp.account (s.account objects) (.createDatabase s.nextDb callback) m =
      (s.tmysqlCreate callback junk).account objects m := by
  have hraw := hw.lifecycle.fresh s.nextDb (Nat.le_refl _)
  have hcreate : RefOp.account (s.account objects) (.createDatabase s.nextDb callback) =
      (s.createDatabase callback junk).account objects := by
    refine account_create hw (status_createDatabase hw.lifecycle callback junk) (fun d => ?_)
      (fun d => ?_) fun d => ?_ <;>
      by_cases hd : d = s.nextDb <;> simp [hd, hraw, Database.construct, Database.raw]
  rw [hcreate]
  refine (account_quiet (fun d => ?_) (fun d => ?_) (fun d => ?_) hm).symm <;>
    by_cases hd : d = s.nextDb <;> simp [hd]

theorem account_connect (hw : s.Wf) (callback junk : Bool) (result : ConnectResult) {m : Member}
    (hm : ∀ o, m ≠ .iLuaRef o) :
    (s.callbackOps object (.connect callback junk result)).foldl RefOp.account
      (s.account objects) m = (s.tmysqlConnect callback junk result).account objects m := by
  have hraw := hw.lifecycle.fresh s.nextDb (Nat.le_refl _)
  have hcreate : RefOp.account (s.account objects) (.createDatabase s.nextDb callback) =
      ((s.createDatabase callback junk).databaseInitialize s.nextDb result).account objects := by
    refine account_create hw ?_ (fun d => ?_) (fun d => ?_) fun d => ?_
    · exact status_databaseInitialize hw.lifecycle callback junk result
    all_goals by_cases hd :
      d = s.nextDb <;> cases result <;> simp [hd, hraw, Database.construct, Database.raw]
  unfold callbackOps tmysqlConnect
  rw [List.foldl_cons, hcreate]
  split
  · rename_i hr
    subst hr
    have hpending : ((((s.createDatabase callback junk).databaseInitialize s.nextDb .connected).call
        (.connect s.nextDb)).db s.nextDb).isPendingCallback = true := by simp
    refine Eq.trans ?_ (account_fired s.nextDb hm)
    rw [if_pos hpending]
    rfl
  · refine (account_quiet (fun d => ?_) (fun d => ?_) (fun d => ?_) hm).symm <;>
      by_cases hd : d = s.nextDb <;> simp [hd]

theorem account_cpp (h : s.Routed) (hw : s.Wf) (hs : s.step .cpp = some s') (hf : s'.fault = none)
    {m : Member} (hm : ∀ o, m ≠ .iLuaRef o) :
    (s.callbackOps object .cpp).foldl RefOp.account (s.account objects) m =
      s'.account objects m := by
  obtain ⟨-, he | ⟨f, -, rfl⟩⟩ := step_effect hs
  · have hacc := accepted_of_effect hw he (by simp) (by simp)
    have hcallback := callback_of_effect he (by simp) (by simp) (by simp)
    have hquiet : s.callbackOps object .cpp = [] → (∀ d, (s'.db d).started = (s.db d).started) →
        (s.callbackOps object .cpp).foldl RefOp.account (s.account objects) m =
          s'.account objects m := by
      intro hops hstart
      rw [hops]
      exact (account_quiet hacc hstart hcallback hm).symm
    cases he with
    | stay turn =>
        refine hquiet ?_ fun _ => rfl
        cases hstack : s.stack with
        | nil => simp only [callbackOps, hstack]
        | cons frame stack =>
            rw [luaTurn, hstack] at turn
            cases frame with
            | lua => simp only [callbackOps, hstack]
            | _ => cases turn
    | dispatchStart d action rest stack top live loud callback =>
        have hout : s.Outstanding d action :=
          .hand (action :: rest) (by rw [top]; exact List.mem_cons_self) List.mem_cons_self
        have hops : s.callbackOps object .cpp = [.trigger action.id] := by
          simp only [callbackOps, top, loud, Bool.false_eq_true, if_false]
        rw [hops]
        refine account_trigger h hout hacc (fun id => exists_mem_append (d := d) fun d' => ?_)
          hcallback hm
        by_cases hd : d' = d <;> simp [hd, callback]
    | dispatchSkip d action rest stack top live quiet =>
        have hout : s.Outstanding d action :=
          .hand (action :: rest) (by rw [top]; exact List.mem_cons_self) List.mem_cons_self
        cases hgc : (s.db d).isInGC with
        | true =>
            refine hquiet ?_ fun _ => rfl
            simp only [callbackOps, top, hgc, if_true]
        | false =>
            have hops : s.callbackOps object .cpp = [.trigger action.id] := by
              simp only [callbackOps, top, hgc, Bool.false_eq_true, if_false]
            have hnone : action.callback = false := by simpa [hgc] using quiet
            rw [hops]
            exact account_trigger h hout hacc (fun id => by simp [CallStarted, hnone]) hcallback hm
    | _ =>
        refine hquiet (by simp_all [callbackOps]) fun d' => ?_
        simp <;> grind
  · cases hf

/-- What a step does to the members other than handles. -/
theorem account_callbackOps (h : s.Routed) (hw : s.Wf) (hs : s.step l = some s')
    (hf : s'.fault = none) {m : Member} (hm : ∀ o, m ≠ .iLuaRef o) :
    (s.callbackOps object l).foldl RefOp.account (s.account objects) m =
      s'.account (objects ++ s.objectOf object l) m := by
  have hcall := luaCall_of_step hs hf
  have hnone : s.objectOf object l = [] →
      (s.callbackOps object l).foldl RefOp.account (s.account objects) m = s'.account objects m →
      (s.callbackOps object l).foldl RefOp.account (s.account objects) m =
        s'.account (objects ++ s.objectOf object l) m := by
    intro hobject heq
    rw [hobject, List.append_nil, heq]
  cases l with
  | query d callback => exact account_query h (ok_of_method (hcall rfl (by simp) (by simp)).2) hm
  | run sid callback => exact account_run h (ok_of_method (hcall rfl (by simp) (by simp)).2) hm
  | poll d =>
      have hok := ok_of_method (hcall rfl (by simp) (by simp)).2
      exact hnone (by simp [objectOf]) (account_poll hok hm)
  | create callback junk =>
      obtain ⟨-, hok⟩ := hcall rfl (by simp) (by simp)
      cases hok
      exact hnone (by simp [objectOf]) (account_tmysqlCreate hw callback junk hm)
  | connect callback junk result =>
      obtain ⟨-, hok⟩ := hcall rfl (by simp) (by simp)
      cases hok
      exact hnone (by simp [objectOf]) (account_connect hw callback junk result hm)
  | cpp => exact hnone (by simp [objectOf]) (account_cpp h hw hs hf hm)
  | _ =>
      refine hnone (by simp [objectOf]) ?_
      obtain ⟨-, he | ⟨f, -, rfl⟩⟩ := step_effect hs
      · exact (account_quiet (accepted_of_effect hw he (by simp) (by simp))
          (started_of_effect hw he (by simp))
          (callback_of_effect he (by simp) (by simp) (by simp)) hm).symm
      · cases hf

/-- **What a step does to the accounts.** -/
theorem account_step (h : s.Routed) (hw : s.Wf) (hs : s.step l = some s') (hf : s'.fault = none) :
    (s.refOps object l).foldl RefOp.account (s.account objects) =
      s'.account (objects ++ s.objectOf object l) := by
  funext m
  rw [refOps, List.foldl_append]
  by_cases hm : ∃ o, m = .iLuaRef o
  · obtain ⟨o, rfl⟩ := hm
    rw [account_iLuaRef, status_step hw hs hf]
    refine account_handles (fun o => ?_) o
    rw [RefOp.account_foldl_of_not_mem fun op hop => not_mem_callbackOps hop o, account_iLuaRef]
  · have hm' : ∀ o, m ≠ .iLuaRef o := fun o ho => hm ⟨o, ho⟩
    rw [account_handles_of_ne hm', account_callbackOps h hw hs hf hm']

/-! ### The operations of a step are allowed -/

theorem allowed_createDatabase (hw : s.Wf) (callback : Bool) :
    (RefOp.createDatabase s.nextDb callback).Allowed (s.account objects) := by
  refine ⟨account_iCallback_nextDb hw, ?_⟩
  rw [account_iLuaRef, status, hw.lifecycle.fresh _ (Nat.le_refl _)]
  rfl

theorem allowed_queue (h : s.Routed) (hobjects : ∀ id ∈ objects, id < s.nextAction)
    (callback : Bool) : (RefOp.queue s.nextAction callback object).Allowed (s.account objects) := by
  refine ⟨account_callback_none h fun hacc => Nat.lt_irrefl _ (h.accepted_lt hacc),
    account_callbackRef_none ?_⟩
  exact fun hin => Nat.lt_irrefl _ (hobjects _ hin)

theorem allowed_trigger (h : s.Routed) {action : DatabaseAction} (hout : s.Outstanding d action) :
    (RefOp.trigger action.id).Allowed (s.account objects) := by
  cases hcb : action.callback with
  | false => exact .inl (account_callback_none h (h.uncalled d action hout hcb))
  | true =>
      obtain ⟨hheld, hnew⟩ := account_outstanding objects h hout hcb
      refine .inr ⟨hheld, ?_⟩
      by_cases hin : action.id ∈ objects
      · rw [account_callbackRef hin hnew]
        exact Account.noConfusion
      · rw [account_callbackRef_none hin]
        exact Account.noConfusion

/-- No action with a reference is deleted without its callback, and no database with its connect
callback to come. -/
def DeletesSpent (s : State) (objects : List ℕ) : List Frame → Prop
  | .dispatch d (action :: _) :: _ =>
      action.callback = true ∨ action.id ∈ objects →
        action.callback = true ∧ (s.db d).isInGC = false
  | .destroy d :: _ => (s.db d).callback ≤ 0
  | _ => True

instance (s : State) (objects : List ℕ) (stack : List Frame) :
    Decidable (s.DeletesSpent objects stack) := by
  unfold DeletesSpent
  split <;> infer_instance

/-- No `tmysql.Connect` call with a callback fails, no connect callback is run again, and nothing
is deleted with a reference that is still to be used. -/
def Balances (s : State) (objects : List ℕ) : Label → Prop
  | .connect callback _ result => callback = true → result = .connected
  | .poll d =>
      (s.db d).handle = .pointer → (s.db d).isPendingCallback = true → (s.db d).callback ≠ 0
  | .cpp => s.DeletesSpent objects s.stack
  | _ => True

instance (s : State) (objects : List ℕ) (l : Label) : Decidable (s.Balances objects l) := by
  apply Label.casesOn (motive := fun l => Decidable (s.Balances objects l)) l <;>
    intros <;> dsimp only [Balances] <;> infer_instance

theorem ready_callbackOps (h : s.Routed) (hw : s.Wf) (hobjects : ∀ id ∈ objects, id < s.nextAction)
    (hl : s.Balances objects l) : RefOp.Ready (s.callbackOps object l) (s.account objects) := by
  cases l with
  | create callback junk => exact ⟨allowed_createDatabase hw callback, trivial⟩
  | connect callback junk result =>
      refine ⟨allowed_createDatabase hw callback, ?_⟩
      split
      · refine ⟨?_, trivial⟩
        simp only [RefOp.Allowed, RefOp.account]
        split
        · rw [Function.update_self]
          exact Account.noConfusion
        · rw [account_iCallback_nextDb hw]
          exact Account.noConfusion
      · trivial
  | query d callback =>
      simp only [callbackOps]
      split
      · exact ⟨allowed_queue h hobjects callback, trivial⟩
      · trivial
  | run sid callback =>
      simp only [callbackOps]
      split
      · exact ⟨allowed_queue h hobjects callback, trivial⟩
      · trivial
  | poll d =>
      simp only [callbackOps]
      split
      · rename_i hdue
        refine ⟨?_, trivial⟩
        have hne := hl hdue.1 hdue.2
        simp only [RefOp.Allowed, account_iCallback, if_neg hne]
        split <;> exact Account.noConfusion
      · trivial
  | cpp =>
      simp only [callbackOps]
      split
      · rename_i d action rest stack top
        split
        · trivial
        · refine ⟨allowed_trigger (d := d) h ?_, trivial⟩
          exact .hand (action :: rest) (by rw [top]; exact List.mem_cons_self) List.mem_cons_self
      · trivial
  | _ => trivial

/-- **The operations of a step are allowed.** -/
theorem ready_refOps (hc : s.Correct) (hh : s.Handled) (h : s.Routed)
    (hobjects : ∀ id ∈ objects, id < s.nextAction) (hl : s.Balances objects l)
    (hs : s.step l = some s') (hf : s'.fault = none) :
    RefOp.Ready (s.refOps object l) (s.account objects) := by
  refine RefOp.ready_append.mpr ⟨ready_callbackOps h hc.wf hobjects hl, ?_⟩
  refine ready_handles (fun o => ?_) (alive_step hc hh hs hf)
  rw [RefOp.account_foldl_of_not_mem fun op hop => not_mem_callbackOps hop o, account_iLuaRef]

/-! ### What stays done with -/

theorem callStarted_effect (hw : s.Wf) (he : s.Effect l s') {id : ℕ} (h : s.CallStarted id) :
    s'.CallStarted id := by
  obtain ⟨d, hd⟩ := h
  refine ⟨d, ?_⟩
  by_cases hcpp : l = .cpp
  · subst hcpp
    cases he with
    | stay turn => exact hd
    | _ =>
        simp
        grind
  · rw [started_of_effect hw he hcpp]
    exact hd

/-- A connect callback that is not given or has been run is not to come. -/
theorem callback_nonpos_effect (he : s.Effect l s') (hd : d < s.nextDb)
    (h : (s.db d).callback ≤ 0) : (s'.db d).callback ≤ 0 := by
  cases he with
  | stay turn => exact h
  | prepareCached => exact h
  | _ =>
      simp
      grind [Database.fire]

theorem objectOf_cases {id : ℕ} (hid : id ∈ s.objectOf object l) (hs : s.step l = some s')
    (hf : s'.fault = none) : id = s.nextAction ∧ s'.nextAction = s.nextAction + 1 := by
  have hcall := luaCall_of_step hs hf
  unfold objectOf at hid
  split at hid
  · rename_i hobject
    cases l with
    | query d callback =>
        have hs' := luaQuery_cases (ok_of_method (hcall rfl (by simp) (by simp)).2)
        split at hs'
        · rw [hs']
          exact ⟨List.mem_singleton.mp hid, by simp⟩
        · rename_i hcond
          exact absurd (by simp only [callbackOps, if_neg hcond]) hobject.2
    | run sid callback =>
        have hs' := luaRun_cases (ok_of_method (hcall rfl (by simp) (by simp)).2)
        split at hs'
        · rw [hs']
          exact ⟨List.mem_singleton.mp hid, by simp⟩
        · rename_i hcond
          exact absurd (by simp only [callbackOps, if_neg hcond]) hobject.2
    | _ => cases hid
  · cases hid

theorem deletes_cases {id : ℕ} (hid : id ∈ s.deletes l) :
    l = .cpp ∧ ∃ d action rest stack, s.stack = .dispatch d (action :: rest) :: stack ∧
      id = action.id := by
  cases l with
  | cpp =>
      simp only [deletes] at hid
      split at hid
      · rename_i d action rest stack top
        exact ⟨rfl, d, action, rest, stack, top, List.mem_singleton.mp hid⟩
      · cases hid
  | _ => cases hid

end State

namespace Accounts

def Balances (m : Accounts) (l : Label × Bool) : Prop := m.state.Balances m.objects l.1

instance (m : Accounts) (l : Label × Bool) : Decidable (m.Balances l) :=
  inferInstanceAs (Decidable (m.state.Balances m.objects l.1))

variable {m m' : Accounts} {l : Label × Bool}

/-- The invariant of balanced runs. -/
structure Kept (m : Accounts) : Prop where
  correct : m.state.Correct
  handled : m.state.Handled
  routed : m.state.Routed
  objects : ∀ id ∈ m.objects, id < m.state.nextAction
  agrees : Agrees Member.unset (m.state.account m.objects) m.ledger
  actions : ∀ id ∈ m.deletedActions, id < m.state.nextAction ∧
    (m.state.CallAccepted id ∨ id ∈ m.objects → m.state.CallStarted id)
  databases : ∀ d ∈ m.state.deleted, (m.state.db d).callback ≤ 0

theorem kept_init : init.Kept where
  correct := State.correct_init
  handled := State.handled_init
  routed := State.routed_init
  objects := nofun
  agrees := by
    have hnone : ∀ id, ¬State.init.CallAccepted id := by
      rintro id ⟨d, hd⟩
      cases hd
    have haccount : State.init.account [] = fun _ => .none := by
      funext m
      cases m with
      | callback id => exact State.account_callback_none State.routed_init (hnone id)
      | callbackRef id => exact State.account_callbackRef_none List.not_mem_nil
      | iCallback d =>
          rw [State.account_iCallback, if_pos]
          exact Int.negSucc_lt_zero 0
      | iLuaRef o => cases o <;> rfl
    exact haccount ▸ Agrees.empty
  actions := nofun
  databases := nofun

/-- An action that is deleted is done with. -/
theorem actions_deleted (h : m.Kept) (hl : m.Balances l) {s' : State} (he : m.state.Effect l.1 s')
    {id : ℕ} (hid : id ∈ m.state.deletes l.1) :
    id < m.state.nextAction ∧ (s'.CallAccepted id ∨ id ∈ m.objects → s'.CallStarted id) := by
  obtain ⟨hcpp, d, action, rest, stack, top, rfl⟩ := State.deletes_cases hid
  have hout : m.state.Outstanding d action :=
    .hand (action :: rest) (by rw [top]; exact List.mem_cons_self) List.mem_cons_self
  have hguard := hl
  simp only [Balances, State.Balances, hcpp, top, State.DeletesSpent] at hguard
  rw [hcpp] at he
  have hacc := State.accepted_of_effect h.correct.wf he (by simp) (by simp)
  have hcalled : s'.CallAccepted action.id → action.callback = true := by
    rintro ⟨d', hd'⟩
    by_contra hcallback
    rw [hacc] at hd'
    exact h.routed.uncalled d action hout (by simpa using hcallback) ⟨d', hd'⟩
  refine ⟨h.routed.lt d action hout, fun href => ?_⟩
  obtain ⟨hcallback, hgc⟩ := hguard (href.imp_left hcalled)
  cases he with
  | dispatchStart d' action' rest' stack' top' live loud callback =>
      rw [top] at top'
      cases top'
      exact ⟨d, by simp⟩
  | dispatchSkip d' action' rest' stack' top' live quiet =>
      rw [top] at top'
      cases top'
      simp [hcallback, hgc] at quiet
  | stay turn => simp [State.luaTurn, top] at turn
  | _ => simp_all

/-- A database that is deleted is done with. -/
theorem databases_deleted (h : m.Kept) (hl : m.Balances l) {s' : State} (he : m.state.Effect l.1 s')
    {d : DbId} (hd : d ∈ s'.deleted) : (s'.db d).callback ≤ 0 := by
  have hkeep : d ∈ m.state.deleted → (s'.db d).callback ≤ 0 := fun hold =>
    State.callback_nonpos_effect he (h.correct.wf.lifecycle.deleted_dead d hold).2
      (h.databases d hold)
  have hguard : m.state.Balances m.objects l.1 := hl
  obtain ⟨l, object⟩ := l
  cases he with
  | stay turn => exact hkeep hd
  | connectFailed callback junk r turn failed =>
      cases callback with
      | true => exact absurd (hguard rfl) failed
      | false =>
          simp at hd
          obtain hd | rfl := hd
          · exact hkeep hd
          · cases r <;> simp [Database.construct]
  | dbConnectFailed d' r calls idle failed can =>
      exact absurd can (h.correct.wf.lifecycle.not_canRelease idle failed)
  | destroy d' stack top live =>
      simp only [State.Balances, top, State.DeletesSpent] at hguard
      simp at hd
      obtain hd | rfl := hd
      · exact hkeep hd
      · simpa using hguard
  | _ => exact hkeep (by simpa using hd)

theorem kept_step (h : m.Kept) (hl : m.Balances l) (hs : m.step l = some m') : m'.Kept := by
  obtain ⟨s', hs', rfl⟩ := Option.map_eq_some_iff.mp hs
  have hcorrect := State.correct_step h.correct hs'
  have hhandled := State.handled_step h.handled hs'
  obtain ⟨hnone, he | ⟨f, -, rfl⟩⟩ := State.step_effect hs'
  · have hf : s'.fault = none := (State.effect_fault he).trans hnone
    have hw := h.correct.wf
    simp only [hf, Option.isSome_none, Bool.false_eq_true, if_false]
    have hnext := State.nextAction_effect he
    refine ⟨hcorrect, hhandled, State.routed_effect h.routed hw he, fun id hid => ?_, ?_,
      fun id hid => ?_, fun d hd => databases_deleted h hl he hd⟩
    · obtain hid | hid := List.mem_append.mp hid
      · exact Nat.lt_of_lt_of_le (h.objects id hid) hnext
      · obtain ⟨rfl, hsucc⟩ := State.objectOf_cases hid hs' hf
        show m.state.nextAction < s'.nextAction
        omega
    · rw [← State.account_step h.routed hw hs' hf]
      exact agrees_run h.agrees
        (State.ready_refOps h.correct h.handled h.routed h.objects hl hs' hf)
    · have hdone : id < m.state.nextAction ∧
          (s'.CallAccepted id ∨ id ∈ m.objects → s'.CallStarted id) := by
        obtain hid | hid := List.mem_append.mp hid
        · obtain ⟨hlt, hstarted⟩ := h.actions id hid
          refine ⟨hlt, fun href => State.callStarted_effect hw he (hstarted (href.imp_left ?_))⟩
          rintro ⟨d, hd⟩
          obtain hold | ⟨rfl, -, -⟩ := State.accepted_effect hw he hd
          · exact ⟨d, hold⟩
          · exact absurd hlt (Nat.lt_irrefl _)
        · exact actions_deleted h hl he hid
      refine ⟨Nat.lt_of_lt_of_le hdone.1 hnext, fun href => hdone.2 (href.imp_right fun hin => ?_)⟩
      obtain hin | hin := List.mem_append.mp hin
      · exact hin
      · obtain ⟨rfl, -⟩ := State.objectOf_cases hin hs' hf
        exact absurd hdone.1 (Nat.lt_irrefl _)
  · exact ⟨hcorrect, hhandled, State.routed_faulted h.routed, h.objects, h.agrees, h.actions,
      h.databases⟩

/-- The references of what has been deleted have been freed once, and no other number has been
pushed or freed. -/
structure Balanced (m : Accounts) : Prop where
  stray : m.ledger.stray = []
  once : m.ledger.freed.Nodup
  actions : ∀ id ∈ m.deletedActions, ∀ r,
    m.ledger.owner r = some (.callback id) ∨ m.ledger.owner r = some (.callbackRef id) →
      m.ledger.freed.count r = 1
  databases : ∀ d ∈ m.state.deleted, ∀ r,
    m.ledger.owner r = some (.iCallback d) ∨ m.ledger.owner r = some (.iLuaRef (.database d)) →
      m.ledger.freed.count r = 1

theorem Kept.balanced (h : m.Kept) : m.Balanced := by
  have hfreed : ∀ {v r}, m.state.account m.objects v ≠ .held → m.ledger.owner r = some v →
      m.ledger.freed.count r = 1 := fun hv hr => h.agrees.count_freed hv hr
  refine ⟨h.agrees.stray, h.agrees.once, fun id hid r hr => ?_, fun d hd r hr => ?_⟩
  · have hdone := (h.actions id hid).2
    obtain hr | hr := hr
    · refine hfreed (fun hheld => ?_) hr
      by_cases hacc : m.state.CallAccepted id
      · rw [State.account_callback_closed (hdone (.inl hacc))] at hheld
        cases hheld
      · rw [State.account_callback_none h.routed hacc] at hheld
        cases hheld
    · refine hfreed (fun hheld => ?_) hr
      by_cases hin : id ∈ m.objects
      · rw [State.account_callbackRef_closed hin (hdone (.inr hin))] at hheld
        cases hheld
      · rw [State.account_callbackRef_none hin] at hheld
        cases hheld
  · obtain hr | hr := hr
    · refine hfreed (fun hheld => ?_) hr
      have hle := h.databases d hd
      rw [State.account_iCallback] at hheld
      split at hheld
      · cases hheld
      · split at hheld
        · cases hheld
        · omega
    · refine hfreed (fun hheld => ?_) hr
      have hstatus : m.state.status (.database d) = .held := by
        rw [State.account_iLuaRef] at hheld
        cases hs : m.state.status (.database d) with
        | held => rfl
        | _ =>
            rw [hs] at hheld
            cases hheld
      have hservice := State.inService_of_held h.correct.wf hstatus
      have hlive := hservice.1
      rw [(h.correct.wf.lifecycle.deleted_dead d hd).1] at hlive
      cases hlive

/-- **Registry references are balanced.** In a run in which no `tmysql.Connect` call with a
callback fails, no connect callback is run again, and nothing is deleted with a reference that is
still to be used, all references of what has been deleted have been freed, each once, and nothing
else has been pushed or freed. -/
theorem references_balanced {tr : List (Label × Bool)} (hG : Transition.Along step Balances init tr)
    (h : Transition.exec step init tr = some m) : m.Balanced :=
  (Transition.exec_inv (fun _ _ _ hI hl hs => kept_step hI hl hs) kept_init hG h).balanced

/-- A connect callback, and a query with a callback and its object, on a database that is
disconnected in the end. -/
theorem references_balanced_query :
    ∃ m, Transition.exec step init
        [(.connect true false .connected, false), (.ret, false), (.cpp, false),
          (.query 0 true, true), (.io 0 .take, false), (.io 0 (.finish true), false),
          (.poll 0, false), (.cpp, false), (.cpp, false), (.ret, false), (.cpp, false),
          (.disconnect 0, false), (.io 0 .stop, false), (.cpp, false), (.cpp, false), (.cpp, false),
            (.cpp, false)] = some m ∧
      (m.ledger.created = [.iCallback 0, .iLuaRef (.database 0), .callback 0, .callbackRef 0] ∧
        m.ledger.freed = [1, 3, 4, 2] ∧ m.deletedActions = [0] ∧ m.state.deleted = [0]) ∧
          m.Balanced := by
  obtain ⟨m, hs, hresult⟩ := Option.map_eq_some_iff.mp (show (Transition.exec step init
        [(.connect true false .connected, false), (.ret, false), (.cpp, false),
          (.query 0 true, true), (.io 0 .take, false), (.io 0 (.finish true), false),
          (.poll 0, false), (.cpp, false), (.cpp, false), (.ret, false), (.cpp, false),
          (.disconnect 0, false), (.io 0 .stop, false), (.cpp, false), (.cpp, false), (.cpp, false),
            (.cpp, false)]).map
          (fun m => (m.ledger.created, m.ledger.freed, m.deletedActions, m.state.deleted)) =
        some ([.iCallback 0, .iLuaRef (.database 0), .callback 0, .callbackRef 0], [1, 3, 4, 2],
          [0], [0])
      by decide +kernel)
  simp only [Prod.mk.injEq] at hresult
  exact ⟨m, hs, hresult, references_balanced (by decide +kernel) hs⟩

/-- `db:Query("SELECT 1", nil, object)`: the reference of the object is never freed. -/
theorem references_balanced_fails :
    ¬∀ (tr : List (Label × Bool)) (m : Accounts), Transition.exec step init tr = some m →
      m.Balanced := by
  intro hall
  obtain ⟨m, hs, hresult⟩ := Option.map_eq_some_iff.mp (show (Transition.exec step init
        [(.connect false false .connected, false), (.cpp, false), (.query 0 false, true),
          (.io 0 .take, false), (.io 0 (.finish true), false), (.poll 0, false), (.cpp, false),
            (.cpp, false)]).map
          (fun m => (m.deletedActions, m.ledger.owner 2, m.ledger.freed)) =
        some ([0], some (.callbackRef 0), []) by decide +kernel)
  simp only [Prod.mk.injEq] at hresult
  obtain ⟨hdeleted, howner, hfreed⟩ := hresult
  have hcount := (hall _ m hs).actions 0 (by rw [hdeleted]; exact List.mem_singleton_self 0) 2
    (.inr howner)
  rw [hfreed] at hcount
  cases hcount

end Accounts
end Tmysql4
