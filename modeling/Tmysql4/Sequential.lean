import Tmysql4.Correspondence

/-! # Concurrent runs are sequential

The handlers of a database run on its io thread while the script calls other methods.
`runs_sequential` says that this makes no difference to the connection: for every database of
every run there is a sequence of operations, one after the other from its creation, that leads to
the same connection, and the handlers in it are those of the accepted calls, each at most once and
in the order of the calls.  What is proved about a `Lifetime` thus holds of the module. -/

namespace Tmysql4

open Imperative (final)
open Handler (World Lib Credentials Bind cString Lifetime Phase)

namespace Runtime

open State (step_effect)

variable {lib : Lib} {x x' : Runtime} {d d' : DbId} {y y' : Lifetime}
  {ops more : List Lifetime.Operation}

theorem cString_cString (s : Bytes) : cString (cString s) = cString s :=
  CStrings.text_eq_self_iff.mpr (CStrings.not_mem_text s)

theorem control_eq_some {l : Label} {y : Runtime} (h : x.control l = some y) :
    ∃ s, x.state.step l = some s ∧ y = { x with state := s } := by
  obtain ⟨s, hs, rfl⟩ := Option.map_eq_some_iff.mp h
  exact ⟨s, hs, rfl⟩

theorem SameData.refl (s : State) (d : DbId) :
    x.SameData { x with state := s } d := ⟨rfl, rfl, rfl, rfl, fun _ _ => rfl⟩

/-- A fault leaves the data alone. -/
theorem Advances.faulted (hw : x.state.Wf) (f : Option Fault) :
    x.Advances lib { x with state := { x.state with fault := f } } :=
  .same hw rfl (fun _ => State.same_faulted f) fun d => .refl _ d

/-! ### Posted handlers -/

theorem sameData_post {t : Handler.Task} (s : State) (hd : d' ≠ d) :
    x.SameData (({ x with state := s }).post d t) d' :=
  ⟨rfl, Function.update_of_ne hd _ _, Function.update_of_ne hd _ _, rfl, fun _ _ => rfl⟩

theorem sameData_modifyWorld {f : World → World} (s : State) (hd : d' ≠ d) :
    x.SameData (({ x with state := s }).modifyWorld d f) d' :=
  ⟨Function.update_of_ne hd _ _, rfl, rfl, rfl, fun _ _ => rfl⟩

/-- A handler is posted. -/
theorem Sequence.post (h : x.Sequence lib d ops y) (hw : x.state.Wf) {s : State} {t : Handler.Task}
    {k : Task} (hu : x.state.Untouched s d) (hphase : (s.db d).phase = (x.state.db d).phase)
    (htasks : (s.db d).tasks = (x.state.db d).tasks ++ [k]) (hbound : k.Bound t)
    (hruns : ∀ sid binds action, t = .runStatement sid binds action → sid ∈ y.prepared.map Prod.snd)
    (hlive : (x.state.db d).live = true) : (({ x with state := s }).post d t).Sequence lib d
    (ops ++ []) y := by
  have hhandlers : (({ x with state := s }).post d t).handlers d = x.handlers d ++ [t] :=
    Function.update_self _ _ _
  refine h.update rfl (h.toMatches.update hw hu (.refl _) (fun _ _ => rfl) ?_
    (h.phase.trans hphase.symm) id rfl (fun _ => rfl) ?_ ?_) rfl ?_ hlive
  · exact h.world.trans (view_untouched (({ x with state := s }).post d t) hw hu rfl fun _ _ =>
      rfl).symm
  · show List.Forall₂ Task.Bound (s.db d).tasks _
    rw [htasks, hhandlers]
    exact List.rel_append h.tasks (.cons hbound .nil)
  · intro sid binds action hmem
    rw [hhandlers] at hmem
    obtain hmem | hmem := List.mem_append.mp hmem
    · exact .inl hmem
    · exact .inr (hruns sid binds action (List.mem_singleton.mp hmem).symm)
  · refine ⟨if t.isAction then [t] else [], [], ?_, ?_, fun _ => rfl⟩
    · show Function.update x.posted d _ d = _
      rw [Function.update_self]
      split
      · rfl
      · rw [List.append_nil]
    · rw [hhandlers, List.filter_append, List.append_nil]
      cases ht : t.isAction <;> simp [ht]

theorem Advances.query (hs : x.state.Settled) {query : Bytes} {callback : Bool}
    (hstep : x.step lib (.query d query callback) = some x') : x.Advances lib x' := by
  obtain ⟨y, hy, rfl⟩ := Option.map_eq_some_iff.mp hstep
  obtain ⟨s, hs', rfl⟩ := control_eq_some hy
  obtain ⟨-, he | ⟨f, -, rfl⟩⟩ := step_effect hs'
  · have hu := fun d => State.untouched_effect (d := d) hs.wf he
    have hphase := State.phase_effect (d := d) hs.wf.lifecycle he nofun nofun nofun
    cases he with
    | stay turn =>
        rw [if_pos rfl]
        exact .refl lib x
    | query d callback calls connected =>
        rw [if_neg (by simp)]
        refine .step (d := d) hs.wf hs' (by simp [Runtime.post]) (fun d' hne hc => hne hc)
          (fun d' hne => sameData_post _ hne) ?_
        intro ops y hseq hlt
        refine ⟨_, y, hseq.post hs.wf (k := .runQuery ⟨x.state.nextAction, callback⟩)
          (hu _ id) ?_ ?_ (.runQuery _ (cString_cString _)) nofun calls.live⟩
        · exact hphase hlt
        · simp [Database.tasks]
  · rw [if_pos rfl]
    exact .faulted hs.wf _

theorem Advances.prepare (hs : x.state.Settled) {query : Bytes}
    (hstep : x.step lib (.prepare d query) = some x') : x.Advances lib x' := by
  obtain ⟨y, hy, rfl⟩ := Option.map_eq_some_iff.mp hstep
  obtain ⟨s, hs', rfl⟩ := control_eq_some hy
  obtain ⟨-, he | ⟨f, -, rfl⟩⟩ := step_effect hs'
  · have hu := fun d => State.untouched_effect (d := d) hs.wf he
    have hphase := State.phase_effect (d := d) hs.wf.lifecycle he nofun nofun nofun
    cases he with
    | stay turn =>
        rw [if_pos rfl]
        exact .refl lib x
    | prepareCached d query sid calls connected cached live =>
        rw [if_pos (by simp)]
        exact .same hs.wf (by simp) (fun d => ⟨hu d id, rfl, rfl, rfl⟩) fun d => .refl _ d
    | prepare d query calls connected uncached =>
        rw [if_neg (by simp)]
        refine .step (d := d) hs.wf hs' (by simp [Runtime.post]) (fun d' hne hc => hne hc)
          (fun d' hne => sameData_post _ hne) ?_
        intro ops y hseq hlt
        refine ⟨_, y, hseq.post hs.wf (k := .createStatement (cString query))
          (hu _ id) ?_ ?_ (.createStatement (cString_cString _)) nofun calls.live⟩
        · exact hphase hlt
        · simp [Database.tasks]
  · rw [if_pos rfl]
    exact .faulted hs.wf _

theorem Advances.run (hs : x.state.Settled) {sid : StmtId} {binds : List Bind} {callback : Bool}
    (hstep : x.step lib (.run sid binds callback) = some x') : x.Advances lib x' := by
  obtain ⟨y, hy, rfl⟩ := Option.map_eq_some_iff.mp hstep
  obtain ⟨s, hs', rfl⟩ := control_eq_some hy
  obtain ⟨-, he | ⟨f, -, rfl⟩⟩ := step_effect hs'
  · have hu := fun d => State.untouched_effect (d := d) hs.wf he
    have hphase := State.phase_effect (d := (x.state.stmt sid).database) hs.wf.lifecycle he nofun
      nofun nofun
    cases he with
    | stay turn =>
        rw [if_pos rfl]
        exact .refl lib x
    | run sid callback calls =>
        rw [if_neg (by simp)]
        refine .step (d := (x.state.stmt sid).database) hs.wf hs' (by simp [Runtime.post])
          (fun d' hne hc => hne hc) (fun d' hne => sameData_post _ hne) ?_
        intro ops y hseq hlt
        have hknown := hseq.known sid (hs.wf.statements.lt_of_live calls.live) rfl
        refine ⟨_, y, hseq.post hs.wf (k := .runStatement sid ⟨x.state.nextAction, callback⟩)
          (hu _ id) ?_ ?_ (.runStatement _ _ _ _) ?_ calls.database_live⟩
        · exact hphase hlt
        · simp [Database.tasks]
        · intro s binds' action heq
          cases heq
          exact hknown.1
  · rw [if_pos rfl]
    exact .faulted hs.wf _

/-! ### New databases -/

theorem create_step {s s' : State} {callback junk : Bool}
    (h : s.step (.create callback junk) = some s') :
    s.luaTurn = true ∧ s' = s.tmysqlCreate callback junk := by
  simp only [State.step, State.action, State.luaCall] at h
  split at h
  · cases h
  · split at h
    · rename_i turn
      cases h
      exact ⟨turn, rfl⟩
    · cases h

theorem connect_step {s s' : State} {callback junk : Bool} {r : ConnectResult}
    (h : s.step (.connect callback junk r) = some s') :
    s.luaTurn = true ∧ s' = s.tmysqlConnect callback junk r := by
  simp only [State.step, State.action, State.luaCall] at h
  split at h
  · cases h
  · split at h
    · rename_i turn
      cases h
      exact ⟨turn, rfl⟩
    · cases h

/-- A database without statements and tasks. -/
theorem Matches.fresh (hnone : ∀ sid < x.state.nextStmt, (x.state.stmt sid).database ≠ d)
    (hinsert : x.state.toInsert d = none)
    (htasks : (x.state.db d).tasks = []) (hcache : (x.state.db d).preparedStatements = [])
    (hhandlers : x.handlers d = []) (hworld : y.world = x.world d)
    (hentries : (x.world d).preparedStatements = []) (hphase : y.phase = (x.state.db d).phase) :
    x.Matches d y := by
  refine ⟨hworld.trans (view_of_none hinsert).symm, hphase, ?_, ?_, fun _ query => ?_,
    fun sid hsid hdb => ?_, fun _ sid hsid hdb => ?_, fun sid hsid _ _ hdb => ?_⟩
  · rw [htasks, hhandlers]
    exact .nil
  · rw [hhandlers]
    exact nofun
  · rw [hcache, hentries]
    rfl
  · exact absurd hdb (hnone sid hsid)
  · exact absurd hdb (hnone sid hsid)
  · exact absurd hdb (hnone sid hsid)

theorem sameData_construct {c : Credentials} {w : World} (s : State) (hd : d' ≠ d) :
    x.SameData (({ x with state := s }).construct d c w) d' :=
  ⟨Function.update_of_ne hd _ _, Function.update_of_ne hd _ _, Function.update_of_ne hd _ _,
    Function.update_of_ne hd _ _, fun _ _ => rfl⟩

/-- A database is constructed. -/
theorem Advances.construct (hs : x.state.Settled) {l : Label} {s : State} {c : Credentials}
    {w : World} (hs' : x.state.step l = some s) (hnext : s.nextDb = x.state.nextDb + 1)
    (hconcerns : ∀ d, d ≠ x.state.nextDb → ¬ x.state.Concerns l d)
    (hrun : Transition.exec (Lifetime.step lib) (Lifetime.create c) ops = some y)
    (hops : ops.filterMap Lifetime.Operation.task = [])
    (hstmt : s.stmt = x.state.stmt) (hnextStmt : s.nextStmt = x.state.nextStmt)
    (hinsert : s.toInsert x.state.nextDb = none) (htasks : (s.db x.state.nextDb).tasks = [])
    (hcache : (s.db x.state.nextDb).preparedStatements = []) (hworld : y.world = w)
    (hentries : w.preparedStatements = []) (hphase : y.phase = (s.db x.state.nextDb).phase) :
    x.Advances lib (({ x with state := s }).construct x.state.nextDb c w) := by
  refine ⟨?_, fun d hlt ops y hseq => ?_, fun d hd hge => ?_⟩
  · show x.state.nextDb ≤ s.nextDb
    omega
  · have hne : d ≠ x.state.nextDb := Nat.ne_of_lt hlt
    exact ⟨[], y, hseq.same hs.wf (State.same_step hs.wf hs' (hconcerns d hne) hlt)
      (sameData_construct s hne)⟩
  · obtain rfl : d = x.state.nextDb := by
      have hd : d < s.nextDb := hd
      rw [hnext] at hd
      exact Nat.le_antisymm (Nat.le_of_lt_succ hd) hge
    refine ⟨ops, y, Matches.fresh (fun sid hsid => ?_) hinsert htasks hcache
      (Function.update_self _ _ _) ?_ ?_ hphase, ?_, [],
      ?_, fun _ => rfl⟩
    · show (s.stmt sid).database ≠ _
      rw [hstmt]
      exact Nat.ne_of_lt (hs.databases sid (hnextStmt ▸ hsid))
    · rw [hworld]
      exact (Function.update_self x.state.nextDb w x.world).symm
    · show (Function.update x.world _ w _).preparedStatements = []
      rw [Function.update_self]
      exact hentries
    · show Transition.exec (Lifetime.step lib)
          (Lifetime.create (Function.update x.credentials _ c _)) ops = some y
      rw [Function.update_self]
      exact hrun
    · simp [Runtime.construct, hops]

theorem Advances.create (hs : x.state.Settled) {c : Credentials} {callback junk : Bool}
    (hstep : x.step lib (.create c callback junk) = some x') : x.Advances lib x' := by
  obtain ⟨y, hy, rfl⟩ := Option.map_eq_some_iff.mp hstep
  obtain ⟨s, hs', rfl⟩ := control_eq_some hy
  obtain ⟨turn, rfl⟩ := create_step hs'
  have hrun : Transition.exec (Lifetime.step lib) (Lifetime.create c) [] =
      some (Lifetime.create c) := rfl
  refine .construct hs hs' (by simp) (fun d hne hc => hne hc) hrun rfl (by simp) (by simp) ?_ ?_ ?_
    rfl rfl ?_
  · refine State.toInsert_of_turn ?_ _
    simpa [State.luaTurn] using turn
  · simp [Database.tasks, Database.construct]
  · simp [Database.construct]
  · simp [Database.phase, Database.construct, Lifetime.create]

/-! ### Connections -/

/-- `Initialize` is the operation `connect`. -/
theorem initialize_step {initFails : Bool} {w w' : World} {r : ConnectResult}
    (h : databaseInitialize lib initFails w = some (r, w')) (hy : y.phase = .created)
    (hw : y.world = w) :
    y.step lib (.connect initFails) =
      some { y with phase := if r = .connected then .connected else .gone, world := w' } ∧
        Handler.Kept w w' := by
  subst hw
  unfold databaseInitialize at h
  have hkept : Handler.Kept y.world (final ((Handler.connect lib false).run y.world)) :=
    ((Handler.persistent_sends (A := fun _ => True) (P := fun _ => True) (fun _ _ => trivial)
      (fun _ _ _ => trivial)
      (fun _ => trivial) fun _ _ _ => trivial).connect false y.world (.refl _ _)).toKept
  show (if y.phase = .created then ( Handler.Lifetime.initialize lib initFails y).map Prod.snd
      else none) = _ ∧ _
  rw [if_pos hy, Handler.Lifetime.initialize]
  by_cases hfails : initFails = true
  · rw [if_pos hfails] at h ⊢
    cases h
    exact ⟨rfl, .refl _⟩
  · rw [if_neg hfails] at h ⊢
    cases hrun : (Handler.connect lib false).run y.world with
    | error e w =>
        simp only [hrun] at h
        cases h
    | ok error w =>
        rw [hrun] at hkept
        cases error with
        | none =>
            simp only [hrun] at h ⊢
            cases h
            exact ⟨rfl, hkept⟩
        | some error =>
            simp only [hrun] at h ⊢
            cases h
            exact ⟨rfl, hkept⟩

theorem Advances.connect (hs : x.state.Settled) {c : Credentials} {callback junk initFails : Bool}
    (hstep : x.step lib (.connect c callback junk initFails) = some x') : x.Advances lib x' := by
  obtain ⟨⟨r, w⟩, hinit, hmap⟩ := Option.bind_eq_some_iff.mp hstep
  obtain ⟨z, hz, rfl⟩ := Option.map_eq_some_iff.mp hmap
  obtain ⟨s, hs', rfl⟩ := control_eq_some hz
  obtain ⟨turn, rfl⟩ := connect_step hs'
  obtain ⟨hconnect, hkept⟩ := initialize_step (y := Lifetime.create c) hinit rfl rfl
  have hrun := Transition.exec_singleton hconnect
  by_cases hr : r = .connected
  · subst hr
    have heq : x.state.tmysqlConnect callback junk .connected =
        (((x.state.createDatabase callback junk).databaseInitialize x.state.nextDb .connected).call
          (.connect x.state.nextDb)).fired x.state.nextDb := rfl
    rw [heq] at hs' ⊢
    refine .construct hs hs' (by simp) (fun d hne hc => hne hc) hrun rfl (by simp) (by simp) ?_
      ?_ ?_ rfl hkept.preparedStatements ?_
    · apply State.toInsert_of_stack
      intro d query stack
      simp [Database.connectFrames]
      split <;> simp
    · simp [Database.tasks, Database.construct]
    · simp [Database.construct]
    · simp [Database.phase, Database.construct]
  · have hfailed : ((x.state.tmysqlConnect callback junk r).db x.state.nextDb).tasks = [] ∧
        ((x.state.tmysqlConnect callback junk r).db x.state.nextDb).preparedStatements = [] ∧
        ((x.state.tmysqlConnect callback junk r).db x.state.nextDb).phase = .gone := by
      cases r with
      | connected => exact absurd rfl hr
      | _ => simp [State.tmysqlConnect, Database.tasks, Database.phase, Database.construct]
    have heq : x.state.tmysqlConnect callback junk r =
        ((x.state.createDatabase callback junk).databaseInitialize x.state.nextDb r).delete
          x.state.nextDb := by
      unfold State.tmysqlConnect
      rw [if_neg hr]
    refine .construct hs hs' (by simp [heq]) (fun d hne hc => hne hc) hrun rfl (by simp [heq])
      (by simp [heq]) ?_ hfailed.1 hfailed.2.1 rfl hkept.preparedStatements ?_
    · refine State.toInsert_of_turn ?_ _
      simpa [State.luaTurn, heq] using turn
    · rw [if_neg hr]
      exact hfailed.2.2.symm

/-- `Database:Connect` on a database that is not connected. -/
theorem Advances.dbConnect (hs : x.state.Settled) {initFails : Bool}
    (hstep : x.step lib (.dbConnect d initFails) = some x') : x.Advances lib x' := by
  simp only [Runtime.step] at hstep
  by_cases hc : (x.state.db d).isConnected = true
  · rw [if_pos hc] at hstep
    obtain ⟨s, hs', rfl⟩ := control_eq_some hstep
    obtain ⟨-, he | ⟨f, -, rfl⟩⟩ := step_effect hs'
    · cases he with
      | stay turn => exact .refl lib x
      | dbConnected d calls idle => simp [idle] at hc
      | dbConnectFailed d r calls idle failed can =>
          exact absurd can (hs.wf.lifecycle.not_canRelease idle failed)
    · exact .faulted hs.wf _
  · rw [if_neg hc] at hstep
    obtain ⟨⟨r, w⟩, hinit, hmap⟩ := Option.bind_eq_some_iff.mp hstep
    obtain ⟨z, hz, rfl⟩ := Option.map_eq_some_iff.mp hmap
    obtain ⟨s, hs', rfl⟩ := control_eq_some hz
    obtain ⟨-, he | ⟨f, -, rfl⟩⟩ := step_effect hs'
    · have hu := fun d => State.untouched_effect (d := d) hs.wf he
      have htasks := State.tasks_effect (d := d) hs.wf.lifecycle he nofun nofun nofun nofun nofun
      cases he with
      | stay turn =>
          rw [if_neg hc]
          exact .refl lib x
      | dbConnectFailed d r calls idle failed can =>
          exact absurd can (hs.wf.lifecycle.not_canRelease idle failed)
      | dbConnected d calls idle =>
          rw [if_pos (by simp)]
          refine .step (d := d) hs.wf hs' (by simp [Runtime.modifyWorld]) (fun d' hne hc => hne hc)
            (fun d' hne => sameData_modifyWorld _ hne) ?_
          intro ops y hseq hlt
          have hinsert : x.state.toInsert d = none := State.toInsert_of_turn calls.turn d
          have hcreated : y.phase = .created := by
            rw [hseq.phase]
            simp [Database.phase, idle, calls.live, calls.handle]
          obtain ⟨hconnect, hkept⟩ :=
            initialize_step hinit hcreated (hseq.world.trans (view_of_none hinsert))
          rw [if_pos rfl] at hconnect
          have hworld :
              (({ x with state := x.state.databaseInitialize d .connected }).modifyWorld d fun _ =>
                w).world d = w :=
            Function.update_self _ _ _
          have hview :
              (({ x with state := x.state.databaseInitialize d .connected }).modifyWorld d fun _ =>
                w).view d = w := by
            rw [view_of_none]
            · exact hworld
            · exact State.toInsert_of_turn calls.turn d
          -- the context of a database may have been stopped before it is connected
          have hrun : ∃ more, Transition.exec (Lifetime.step lib) y more = some { y with
              phase := ((x.state.databaseInitialize d .connected).db d).phase
              world := w } ∧ more.filterMap Lifetime.Operation.task = [] := by
            cases hstopped : (x.state.db d).stopped with
            | false =>
                refine ⟨[.connect initFails], ?_, rfl⟩
                rw [Transition.exec_singleton hconnect]
                simp [Database.phase, hstopped]
            | true =>
                refine ⟨[.connect initFails, .stop], ?_, rfl⟩
                rw [Transition.exec, hconnect]
                simp [Database.phase, hstopped, Handler.Lifetime.step, Transition.exec]
          obtain ⟨more, hrun, hmore⟩ := hrun
          refine ⟨_, _, hseq.update hrun
            (hseq.toMatches.update hs.wf (hu d id) ?_ (fun _ _ => rfl) hview.symm rfl ?_ rfl
            (fun _ => rfl) ?_ fun _ _ _ hmem => .inl hmem) rfl ?_ calls.live⟩
          · rw [hworld]
            exact .of_kept hkept
          · intro hgone
            rw [hcreated] at hgone
            cases hgone
          · show List.Forall₂ Task.Bound ((x.state.databaseInitialize d .connected).db d).tasks _
            rw [htasks hlt]
            exact hseq.tasks
          · refine ⟨[], [], (List.append_nil _).symm, ?_, fun _ => rfl⟩
            rw [hmore]
            simp [Runtime.modifyWorld]
    · rw [if_neg hc]
      exact .faulted hs.wf _

/-! ### Operations on a connection -/

/-- The Lua thread changes the world of `d`, as an operation does. -/
theorem Sequence.operate (h : x.Sequence lib d ops y) (hw : x.state.Wf) {s : State}
    {f : World → World} {op : Lifetime.Operation} (hu : x.state.Untouched s d)
    (htasks : (s.db d).tasks = (x.state.db d).tasks) (hf : Extends (x.world d) (f (x.world d)))
    (hinsert : x.state.toInsert d = none) (hop : y.step lib op = some y') (htask : op.task = none)
    (hworld : y'.world = f (x.world d)) (hphase : y'.phase = (s.db d).phase) (hgone : y.phase ≠
      .gone) (hprepared : y'.prepared = y.prepared) (hlive' : y'.phase ≠ .gone → y'.live = y.live)
    (hlive : (x.state.db d).live = true) : (({ x with state := s }).modifyWorld d f).Sequence lib d
    (ops ++ [op]) y' := by
  have hself : (({ x with state := s }).modifyWorld d f).world d = f (x.world d) :=
    Function.update_self _ _ _
  have hview : (({ x with state := s }).modifyWorld d f).view d = f (x.world d) := by
    rw [view_of_none]
    · exact hself
    · exact hu.toInsert.trans hinsert
  refine h.update (Transition.exec_singleton hop)
    (h.toMatches.update hw hu ?_ (fun _ _ => rfl) (hworld.trans hview.symm) hphase
    (fun heq => absurd heq hgone) hprepared hlive' ?_ fun _ _ _ hmem => .inl hmem) rfl ?_ hlive
  · rw [hself]
    exact hf
  · show List.Forall₂ Task.Bound (s.db d).tasks _
    rw [htasks]
    exact h.tasks
  · refine ⟨[], [], (List.append_nil _).symm, ?_, fun _ => rfl⟩
    simp [htask, Runtime.modifyWorld]

theorem phase_of_pointer {db : Database} (hlive : db.live = true) (hhandle : db.handle = .pointer) :
    db.phase ≠ .gone := by
  unfold Database.phase
  rw [hlive, hhandle]
  split_ifs <;> simp_all

theorem kept_setCharacterSet (charset : Bytes) (w : World) :
    Handler.Kept w (final ((Handler.setCharacterSet lib charset).run w)) :=
  ((Handler.persistent_sends (A := fun _ => True) (P := fun _ => True) (fun _ _ => trivial)
    (fun _ _ _ => trivial)
    (fun _ => trivial) fun _ _ _ => trivial).sets charset w (.refl _ _)).toKept

theorem Undisturbed.advances (hx : x.Undisturbed d) (hs : x.state.Settled) {f : World → World}
    {o : Lifetime.Operation} (hf : Extends (x.world d) (f (x.world d))) (htask : o.task = none)
    (hop : ∀ y : Lifetime, y.phase = (x.state.db d).phase → y.world = x.world d →
      y.step lib o = some { y with world := f (x.world d) }) : x.Advances lib
        (x.modifyWorld d f) := by
  obtain ⟨-, turn, handle, live, -⟩ := hx
  refine .of_nextDb rfl fun d' hd' ops y hseq => ?_
  by_cases heq : d' = d
  · subst heq
    have hinsert : x.state.toInsert d' = none := State.toInsert_of_turn turn d'
    have hu : x.state.Untouched x.state d' := ⟨rfl, rfl, fun _ hsid hdb => ⟨hsid, hdb, rfl, id⟩⟩
    refine ⟨_, _, hseq.operate hs.wf hu rfl hf hinsert
      (hop y hseq.phase (hseq.world.trans (view_of_none hinsert))) htask rfl
      hseq.phase ?_ rfl (fun _ => rfl) live⟩
    rw [hseq.phase]
    exact phase_of_pointer live handle
  · exact ⟨[], y, hseq.same hs.wf (State.same_faulted x.state.fault)
      (sameData_modifyWorld x.state heq)⟩

theorem Advances.setOption (hs : x.state.Settled) (hstep : x.step lib (.setOption d) = some x') :
    x.Advances lib x' := by
  obtain ⟨hx, heq⟩ := Option.ite_none_right_eq_some.mp hstep
  cases heq
  refine hx.advances hs (o := .setOption) (.of_kept ⟨rfl, rfl, fun _ => rfl⟩) rfl
    fun y hphase hworld => ?_
  show (if y.phase = .gone then none else some _) = _
  rw [if_neg (hphase ▸ phase_of_pointer hx.2.2.2.1 hx.2.2.1), hworld]

theorem Advances.setCharacterSet (hs : x.state.Settled) {charset : Bytes}
    (hstep : x.step lib (.setCharacterSet d charset) = some x') : x.Advances lib x' := by
  obtain ⟨⟨hx, hconnected⟩, heq⟩ := Option.ite_none_right_eq_some.mp hstep
  cases heq
  refine hx.advances hs (o := .setCharacterSet charset)
    (.of_kept (kept_setCharacterSet charset _)) rfl fun y hphase hworld => ?_
  have hy : y.isConnected := by
    rw [Handler.Lifetime.isConnected, hphase]
    simp only [Database.phase, hconnected, if_true]
    split
    · exact .inr rfl
    · exact .inl rfl
  show (if y.isConnected then some _ else none) = _
  rw [if_pos hy, hworld]

/-! ### Steps without data -/

theorem touch_state (l : Label) (z : Runtime) : (x.touch l z).state = z.state := by
  unfold touch
  split
  · split <;> rfl
  · rfl
  · rfl
  · rfl
  · rfl
  · split <;> rfl
  · rfl

theorem settle_state (z : Runtime) : (x.settle z).state = z.state := by
  unfold settle
  split <;> rfl

theorem settle_of_none {z : Runtime} (h : z.state.fault = none) : x.settle z = z := by
  unfold settle
  rw [h]
  rfl

theorem settle_of_some {z : Runtime} {f : Fault} (h : z.state.fault = some f) :
    x.settle z = { x with state := z.state } := by
  unfold settle
  rw [h]
  rfl

theorem other_step {l : Label} (hstep : x.step lib (.other l) = some x') :
    l.isPlain = true ∧ ∃ s, x.state.step l = some s ∧
      x' = x.settle (x.touch l { x with state := s }) := by
  obtain ⟨plain, hmap⟩ := Option.ite_none_right_eq_some.mp hstep
  obtain ⟨z, hz, rfl⟩ := Option.map_eq_some_iff.mp hmap
  obtain ⟨s, hs', rfl⟩ := control_eq_some hz
  exact ⟨plain, s, hs', rfl⟩

theorem finished_step {fuel : ℕ} (hstep : x.step lib (.finish d fuel) = some x') :
    ∃ t rest z, x.handlers d = t :: rest ∧ x.work lib d fuel rest t = some z ∧ x' = x.settle z := by
  unfold Runtime.step at hstep
  dsimp only at hstep
  split at hstep
  · cases hstep
  · rename_i t rest hhandlers
    obtain ⟨z, hz, rfl⟩ := Option.map_eq_some_iff.mp hstep
    exact ⟨t, rest, z, hhandlers, hz, rfl⟩

theorem touch_stmtGc {sid : StmtId} {z : Runtime}
    (h : (z.state.stmt sid).live ≠ (x.state.stmt sid).live) :
    x.touch (.stmtGc sid) z = z.modifyWorld (x.state.stmt sid).database fun w =>
      w.release (x.object sid) := if_neg h

theorem touch_of_turn (turn : x.state.luaTurn = true) (l : Label) : x.touch l x = x := by
  unfold touch
  split
  · exact if_pos rfl
  · rename_i top
    simp [State.luaTurn, top] at turn
  · rename_i top
    simp [State.luaTurn, top] at turn
  · rename_i top
    simp [State.luaTurn, top] at turn
  · rename_i top
    simp [State.luaTurn, top] at turn
  · rename_i top
    simp [State.luaTurn, top] at turn
  · rfl

/-- A step that is about no database. -/
theorem Advances.unconcerned (hw : x.state.Wf) {l : Label} {s : State}
    (hs : x.state.step l = some s) (hnext : s.nextDb = x.state.nextDb)
    (hconcerns : ∀ d, ¬ x.state.Concerns l d) :
    x.Advances lib { x with state := s } :=
  .of_nextDb hnext fun d hlt _ y hseq =>
    ⟨[], y, hseq.same hw (State.same_step hw hs (hconcerns d) hlt) (.refl _ d)⟩

/-- The context of `d` stops. -/
theorem Sequence.stop (h : x.Sequence lib d ops y) (hs : x.state.Settled) {s : State}
    (hu : x.state.Untouched s d) (hlive : (s.db d).live = (x.state.db d).live)
    (htasks : (s.db d).tasks = (x.state.db d).tasks) (hconnected : (s.db d).isConnected =
      (x.state.db d).isConnected) (hhandle : (s.db d).handle = (x.state.db d).handle)
    (hactive : (x.state.db d).stopped = false) (hstopped : (s.db d).stopped = true) :
    ∃ more y, Sequence lib { x with state := s } d (ops ++ more) y := by
  cases hc : (x.state.db d).isConnected with
  | false =>
      have hphase : (s.db d).phase = (x.state.db d).phase := by
        simp [Database.phase, hconnected, hc, hlive, hhandle]
      exact ⟨[], y, h.same hs.wf ⟨hu, htasks, hphase, hlive⟩ (.refl s d)⟩
  | true =>
      have hphase : y.phase = .connected := by
        rw [h.phase]
        simp [Database.phase, hc, hactive]
      have hop : y.step lib .stop = some { y with phase := .stopped } := by
        show (if y.phase = .connected then some _ else none) = _
        rw [if_pos hphase]
      refine ⟨_, _, h.update (Transition.exec_singleton hop)
        (h.toMatches.update hs.wf hu (.refl _) (fun _ _ => rfl) ?_ ?_ ?_ rfl
        (fun _ => rfl) ?_ fun _ _ _ hmem => .inl hmem) rfl
          ⟨[], [], (List.append_nil _).symm, by simp [Handler.Lifetime.Operation.task],
            fun _ => rfl⟩
        ((hs.wf.lifecycle.ok d).connected_live hc)⟩
      · exact h.world.trans (view_untouched { x with state := s } hs.wf hu rfl fun _ _ => rfl).symm
      · show Phase.stopped = (s.db d).phase
        simp [Database.phase, hconnected, hc, hstopped]
      · intro hgone
        rw [hphase] at hgone
        cases hgone
      · show List.Forall₂ Task.Bound (s.db d).tasks _
        rw [htasks]
        exact h.tasks

/-- The completed actions of `d` are taken. -/
theorem Sequence.poll (h : x.Sequence lib d ops y) (hw : x.state.Wf) {s : State}
    (hu : x.state.Untouched s d) (htasks : (s.db d).tasks = (x.state.db d).tasks)
    (hphase : (s.db d).phase = (x.state.db d).phase) (hinsert : x.state.toInsert d = none)
    (hgone : (x.state.db d).phase ≠ .gone) (hlive : (x.state.db d).live = true) :
    ∃ more y, (({ x with state := s }).modifyWorld d fun w =>
      { w with completedActions := [] }).Sequence lib d (ops ++ more) y := by
  have hworld : y.world = x.world d := h.world.trans (view_of_none hinsert)
  have hop : y.step lib .poll =
      some { y with world := { x.world d with completedActions := [] } } := by
    show (if y.phase = .gone then none else some _) = _
    rw [if_neg (h.phase ▸ hgone), hworld]
  exact ⟨_, _, h.operate hw hu htasks (.of_kept ⟨rfl, rfl, fun _ => rfl⟩) hinsert hop rfl rfl
    (h.phase.trans hphase.symm) (h.phase ▸ hgone) rfl (fun _ => rfl) hlive⟩

/-- `Release` and `mysql_close`. -/
theorem Sequence.release (h : x.Sequence lib d ops y) (hw : x.state.Wf) {s : State}
    (hu : x.state.Untouched s d) (htasks : (s.db d).tasks = (x.state.db d).tasks)
    (hphase : (s.db d).phase = .gone) (hinsert : x.state.toInsert d = none)
    (hstopped : (x.state.db d).phase = .stopped) (hlive : (x.state.db d).live = true) :
    ∃ more y, (({ x with state := s }).modifyWorld d fun w =>
      w.closeAll w.preparedStatements).Sequence lib d (ops ++ more) y := by
  have hworld : y.world = x.world d := h.world.trans (view_of_none hinsert)
  have hop : y.step lib .close = some { y with
      phase := .gone
      world := (x.world d).closeAll (x.world d).preparedStatements
      live := y.live.filter fun s => s ∉ (x.world d).preparedStatements.map Prod.snd } := by
    show (if y.phase = .stopped then some _ else none) = _
    rw [if_pos (h.phase.trans hstopped), hworld]
  refine ⟨_, _, h.operate hw hu htasks (.of_kept (Handler.kept_closeAll _ _)) hinsert hop rfl rfl
    hphase.symm ?_ rfl (fun hgone => absurd rfl hgone) hlive⟩
  rw [h.phase, hstopped]
  decide

/-- The database is deleted, with the handlers that are still queued. -/
theorem Sequence.destroy (h : x.Sequence lib d ops y) (hw : x.state.Wf) {s : State}
    (hu : x.state.Untouched s d) (htasks : (s.db d).tasks = []) (hphase : (s.db d).phase = .gone)
    (hgone : (x.state.db d).phase = .gone) (hdead : (s.db d).live = false)
    (hlive : (x.state.db d).live = true) :
    ∃ more y, Sequence lib { x with state := s, handlers := Function.update x.handlers d [] } d
      (ops ++ more) y := by
  have hhandlers : Function.update x.handlers d [] d = [] := Function.update_self _ _ _
  refine ⟨[], y, h.update rfl
    (h.toMatches.update hw hu (.refl _) (fun _ _ => rfl) ?_ ?_ id rfl (fun _ => rfl) ?_ ?_) rfl
    ?_ hlive⟩
  · exact h.world.trans (view_untouched
      { x with state := s, handlers := Function.update x.handlers d [] } hw hu rfl
      fun _ _ => rfl).symm
  · exact h.phase.trans (hgone.trans hphase.symm)
  · show List.Forall₂ Task.Bound (s.db d).tasks (Function.update x.handlers d [] d)
    rw [htasks, hhandlers]
    exact .nil
  · intro sid binds action hmem
    have hmem : .runStatement sid binds action ∈ Function.update x.handlers d [] d := hmem
    rw [hhandlers] at hmem
    cases hmem
  · refine ⟨[], (x.handlers d).filter Handler.Task.isAction, (List.append_nil _).symm, ?_,
      fun hl => ?_⟩
    · show [] ++ (Function.update x.handlers d [] d).filter _ ++ _ = _
      rw [hhandlers]
      simp
    · have hl : (s.db d).live = true := hl
      rw [hdead] at hl
      cases hl

/-! ### The cache -/

theorem lookup_cons (entry : Bytes × StmtId) (entries : List (Bytes × StmtId)) (q : Bytes) :
    (entry :: entries).lookup q = if q = entry.1 then some entry.2 else entries.lookup q := by
  obtain ⟨key, s⟩ := entry
  rw [List.lookup_cons]
  by_cases hq : q = key
  · simp [hq]
  · rw [beq_eq_false_iff_ne.mpr hq, if_neg hq]

theorem lookup_mapInsert {entries : List (Bytes × StmtId)} {query : Bytes}
    (h : entries.lookup query = none) (s : StmtId) (q : Bytes) : (Handler.mapInsert query s
      entries).lookup q = if q = query then some s else entries.lookup q := by
  have hne := Handler.ne_of_lookup_eq_none h
  clear h
  induction entries with
  | nil => rw [Handler.mapInsert, lookup_cons]
  | cons entry entries ih =>
      have ih := ih fun entry' h => hne entry' (List.mem_cons_of_mem _ h)
      have hentry := hne entry List.mem_cons_self
      unfold Handler.mapInsert
      split
      · rw [lookup_cons]
      · split
        · rename_i heq
          exact absurd heq.symm hentry
        · rw [lookup_cons, lookup_cons, ih]
          by_cases hq : q = entry.1
          · rw [if_pos hq, if_pos hq, if_neg (hq ▸ hentry)]
          · rw [if_neg hq, if_neg hq]

theorem lookup_filter_ne (entries : List (Bytes × StmtId)) (query q : Bytes) :
    (entries.filter fun entry => entry.1 ≠ query).lookup q =
      if q = query then none else entries.lookup q := by
  induction entries with
  | nil => simp
  | cons entry entries ih =>
      by_cases hentry : entry.1 = query
      · rw [List.filter_cons_of_neg (by simp [hentry]), ih, lookup_cons, hentry]
        split_ifs <;> rfl
      · rw [List.filter_cons_of_pos (by simp [hentry]), lookup_cons, lookup_cons, ih]
        by_cases hq : q = entry.1
        · rw [if_pos hq, if_pos hq, if_neg (hq ▸ hentry)]
        · rw [if_neg hq, if_neg hq]

/-- `lua_Prepare` inserts its statement. -/
theorem Sequence.insert (h : x.Sequence lib d ops y) (hs : x.state.Settled) {query : Bytes}
    {sid : StmtId} {stack : List Frame}
    (top : x.state.stack = .prepare d query :: stack) (done : x.state.waiter = some (some sid))
    (hbelow : ∀ d query stack', stack ≠ .prepare d query :: stack') :
    (({ x with state := (x.state.pop stack).cacheStatement d sid query }).modifyWorld d
      fun w => w.register (x.object sid)).Sequence lib d (ops ++ []) y := by
  rw [List.append_nil]
  have hwaiting := hs.wf.statements.waiting d query stack top
  have hcreated := hwaiting.created sid done
  have hsid : sid < x.state.nextStmt := hs.wf.statements.lt_of_live (by rw [hcreated])
  have hquery : ((x.world d).stmt (x.object sid)).query = query := by
    rw [(h.known sid hsid (by rw [hcreated])).2.2, hcreated]
  have hinsert : x.state.toInsert d = some sid := by
    unfold State.toInsert
    rw [top, done]
    exact if_pos rfl
  have hself : (({ x with state := (x.state.pop stack).cacheStatement d sid query }).modifyWorld d
      fun w => w.register (x.object sid)).world d = (x.world d).register (x.object sid) :=
        Function.update_self _ _ _
  have hstmt : ∀ sid', (((x.state.pop stack).cacheStatement d sid query).stmt sid').database =
      (x.state.stmt sid').database ∧
      (((x.state.pop stack).cacheStatement d sid query).stmt sid').query =
        (x.state.stmt sid').query ∧
      (((x.state.pop stack).cacheStatement d sid query).stmt sid').live =
        (x.state.stmt sid').live := by
    intro sid'
    by_cases heq : sid' = sid
    · subst heq
      simp
    · simp [heq]
  have hdb : ((x.state.pop stack).cacheStatement d sid query).db d =
      { x.state.db d with
        preparedStatements := (query, sid) :: (x.state.db d).preparedStatements } := by
    simp [hwaiting.uncached]
  refine ⟨⟨?_, ?_, ?_, h.runs, fun hphase q => ?_, fun sid' hsid' hdb' => ?_,
    fun hphase sid' hsid' hdb' hlive => ?_, fun sid₁ hsid₁ sid₂ hsid₂ hdb₁ hdb₂ heq => ?_⟩,
      h.run, ?_⟩
  · rw [view_of_none, hself, h.world]
    · unfold view
      rw [hinsert]
    · exact State.toInsert_of_stack hbelow _
  · show y.phase = (((x.state.pop stack).cacheStatement d sid query).db d).phase
    rw [hdb, h.phase]
    rfl
  · show List.Forall₂ Task.Bound (((x.state.pop stack).cacheStatement d sid query).db d).tasks
        (x.handlers d)
    rw [hdb]
    exact h.tasks
  · show _ = ((((x.state.pop stack).cacheStatement d sid query).db d).preparedStatements.lookup
        q).map x.object
    have hmiss : (x.world d).preparedStatements.lookup query = none := by
      rw [h.cache hphase, hwaiting.uncached]
      rfl
    rw [hself, hdb, lookup_cons]
    show (Handler.mapInsert ((x.world d).stmt (x.object sid)).query (x.object sid)
      (x.world d).preparedStatements).lookup q = _
    rw [hquery, lookup_mapInsert hmiss, h.cache hphase]
    split_ifs <;> rfl
  · obtain ⟨hsame, hq, -⟩ := hstmt sid'
    rw [hself]
    have hknown := h.known sid' hsid' (hsame.symm.trans hdb')
    exact ⟨hknown.1, hknown.2.1, hknown.2.2.trans hq.symm⟩
  · obtain ⟨hsame, -, hl⟩ := hstmt sid'
    exact h.live hphase sid' hsid' (hsame.symm.trans hdb') (hl.symm.trans hlive)
  · exact h.inj sid₁ hsid₁ sid₂ hsid₂ ((hstmt sid₁).1.symm.trans hdb₁)
      ((hstmt sid₂).1.symm.trans hdb₂) heq
  · show ∃ dropped, _ ∧ ((((x.state.pop stack).cacheStatement d sid query).db d).live = true → _)
    rw [hdb]
    exact h.posted

/-- The finalizer of a statement. -/
theorem Sequence.finalize (h : x.Sequence lib d ops y) (hs : x.state.Settled) {sid : StmtId}
    (calls : x.state.CallsStmt sid) (hd : (x.state.stmt sid).database = d) {s : State}
    (hs' : s = (x.state.deregisterStatement (x.state.stmt sid).database
      (x.state.stmt sid).query).releaseStmt sid) :
    ∃ more y, (({ x with state := s }).modifyWorld d fun w => w.release (x.object sid)).Sequence lib
      d (ops ++ more) y := by
  have hregistered := hs.wf.statements.pointer sid calls.handle
  rw [hd] at hs'
  have hconnected : (x.state.db d).isConnected = true := hd ▸ hregistered.connected
  have hsid : sid < x.state.nextStmt := hs.wf.statements.lt_of_live calls.live
  have hinsert : x.state.toInsert d = none := State.toInsert_of_turn calls.turn d
  have hworld : y.world = x.world d := h.world.trans (view_of_none hinsert)
  have hgone : y.phase ≠ .gone := by
    rw [h.phase]
    simp only [Database.phase, hconnected, if_true]
    split <;> decide
  have hself : (({ x with state := s }).modifyWorld d fun w => w.release (x.object sid)).world d =
      (x.world d).release (x.object sid) := Function.update_self _ _ _
  obtain ⟨-, hnext, hquery⟩ := h.known sid hsid hd
  have hop : y.step lib (.release (x.object sid)) = some { y with
      world := (x.world d).release (x.object sid)
      live := y.live.filter (· ≠ x.object sid) } := by
    show (if x.object sid ∈ y.live then some _ else none) = _
    rw [if_pos (h.live hgone sid hsid hd calls.live), hworld]
  have hkept := Handler.kept_closing ((x.world d).stmt (x.object sid)).stmt (x.world d)
  have hstmt : ∀ sid', (s.stmt sid').database = (x.state.stmt sid').database ∧
      (s.stmt sid').query = (x.state.stmt sid').query ∧
      ((s.stmt sid').live = true → sid' ≠ sid ∧ (x.state.stmt sid').live = true) := by
    intro sid'
    rw [hs']
    by_cases heq : sid' = sid
    · subst heq
      simp
    · simp [heq]
  have hdb : s.db d = { x.state.db d with preparedStatements :=
      (x.state.db d).preparedStatements.filter fun entry =>
        entry.1 ≠ (x.state.stmt sid).query } := by
    rw [hs']
    simp
  have hnextStmt : s.nextStmt = x.state.nextStmt := by rw [hs']; simp
  have hstack : s.stack = x.state.stack := by rw [hs']; simp
  refine ⟨_, _, h.update (Transition.exec_singleton hop) ⟨?_, ?_, ?_, h.runs, fun hphase q => ?_,
    fun sid' hsid' hdb' => ?_, fun hphase sid' hsid' hdb' hlive => ?_,
      fun sid₁ hsid₁ sid₂ hsid₂ hdb₁ hdb₂ heq => ?_⟩ rfl ?_
    (hd ▸ calls.database_live)⟩
  · rw [view_of_none, hself]
    refine State.toInsert_of_turn ?_ _
    show s.luaTurn = true
    unfold State.luaTurn
    rw [hstack]
    exact calls.turn
  · show y.phase = (s.db d).phase
    rw [hdb, h.phase]
    rfl
  · show List.Forall₂ Task.Bound (s.db d).tasks (x.handlers d)
    rw [hdb]
    exact h.tasks
  · show _ = ((s.db d).preparedStatements.lookup q).map x.object
    rw [hself, hdb]
    show ((x.world d).preparedStatements.filter fun entry =>
        entry.1 ≠ ((x.world d).stmt (x.object sid)).query).lookup q = _
    rw [hquery, lookup_filter_ne, lookup_filter_ne, h.cache hgone]
    split_ifs <;> rfl
  · obtain ⟨hsame, hq, -⟩ := hstmt sid'
    have hknown := h.known sid' (hnextStmt ▸ hsid') (hsame.symm.trans hdb')
    rw [hself]
    refine ⟨hknown.1, ?_, ?_⟩
    · exact Nat.lt_of_lt_of_eq hknown.2.1 hkept.nextStmt.symm
    · exact (hkept.query _).trans (hknown.2.2.trans hq.symm)
  · obtain ⟨hsame, -, hl⟩ := hstmt sid'
    obtain ⟨hne, hl⟩ := hl hlive
    have hlt : sid' < x.state.nextStmt := hnextStmt ▸ hsid'
    refine List.mem_filter.mpr ⟨h.live hgone sid' hlt (hsame.symm.trans hdb') hl, ?_⟩
    exact decide_eq_true fun heq => hne (h.inj sid' hlt sid hsid (hsame.symm.trans hdb') hd heq)
  · exact h.inj sid₁ (hnextStmt ▸ hsid₁) sid₂ (hnextStmt ▸ hsid₂) ((hstmt sid₁).1.symm.trans hdb₁)
      ((hstmt sid₂).1.symm.trans hdb₂) heq
  · refine ⟨[], [], (List.append_nil _).symm, ?_, fun _ => rfl⟩
    simp [Handler.Lifetime.Operation.task, Runtime.modifyWorld]

theorem phase_of_live (hs : x.state.Settled) (hlive : (x.state.db d).live = true)
    (htop : ∀ stack, x.state.stack ≠ .destroy d :: stack) : (x.state.db d).phase ≠ .gone := by
  have hnull : (x.state.db d).handle ≠ .null := by
    intro hnull
    obtain ⟨stack, top⟩ := hs.dying d hlive hnull
    exact htop stack top
  unfold Database.phase
  rw [hlive]
  split_ifs <;> simp_all

/-- A step that needs no data. -/
theorem Advances.other (hs : x.state.Settled) {l : Label}
    (hstep : x.step lib (.other l) = some x') : x.Advances lib x' := by
  obtain ⟨plain, s, hs', rfl⟩ := other_step hstep
  obtain ⟨hnone, he | ⟨f, -, rfl⟩⟩ := step_effect hs'
  · have hfault : s.fault = none := (State.effect_fault he).trans hnone
    rw [settle_of_none (by rw [touch_state]; exact hfault)]
    have hu := fun d => State.untouched_effect (d := d) hs.wf he
    cases he with
    | stay turn =>
        rw [touch_of_turn turn]
        exact .refl lib x
    | getTable turn live => exact .unconcerned hs.wf hs' (by simp) fun d => id
    | poll d calls => exact .unconcerned hs.wf hs' (by simp) fun d => id
    | disconnect d calls connected => exact .unconcerned hs.wf hs' (by simp) fun d => id
    | dbGc d calls => exact .unconcerned hs.wf hs' (by simp) fun d => id
    | ret stack top => exact .unconcerned hs.wf hs' (by simp) fun d => id
    | take d => exact .unconcerned hs.wf hs' (by simp) fun d => id
    | reconnected d => exact .unconcerned hs.wf hs' (by simp) fun d => id
    | stmtGc sid calls =>
        rw [touch_stmtGc (by simp [calls.live])]
        refine .step (d := (x.state.stmt sid).database) hs.wf hs' (by simp [Runtime.modifyWorld])
          (fun d' hne hc => hne hc)
          (fun d' hne => sameData_modifyWorld _ hne) fun ops y hseq hlt => ?_
        exact hseq.finalize hs calls rfl rfl
    | dispatchDone d stack top | dispatchSkip d action rest stack top
    | dispatchStart d action rest stack top | connectDone d stack top =>
        have htouch : ∀ z, x.touch .cpp z = z := fun z => by simp only [touch, top]
        rw [htouch]
        exact .unconcerned hs.wf hs' (by simp) fun d => by simp [State.Concerns, top]
    | pollPop d stack top live =>
        have htouch : ∀ z, x.touch .cpp z = z.modifyWorld d fun w =>
            { w with completedActions := [] } :=
          fun z => by simp only [touch, top]
        rw [htouch]
        refine .step (d := d) hs.wf hs' (by simp [Runtime.modifyWorld])
          (fun d' hne => by simpa [State.Concerns, top] using hne)
          (fun d' hne => sameData_modifyWorld _ hne) fun ops y hseq hlt => ?_
        exact hseq.poll hs.wf (hu d (by simp [State.Touches, top])) (by simp [Database.tasks])
          (by simp [Database.phase])
          (State.toInsert_of_stack (by simp [top]) d) (phase_of_live hs live (by simp [top])) live
    | waitDone d stack top live stopped =>
        have htouch : ∀ z, x.touch .cpp z = z.modifyWorld d fun w =>
            { w with completedActions := [] } :=
          fun z => by simp only [touch, top]
        rw [htouch]
        refine .step (d := d) hs.wf hs' (by simp [Runtime.modifyWorld])
          (fun d' hne => by simpa [State.Concerns, top] using hne)
          (fun d' hne => sameData_modifyWorld _ hne) fun ops y hseq hlt => ?_
        exact hseq.poll hs.wf (hu d (by simp [State.Touches, top])) (by simp [Database.tasks])
          (by simp [Database.phase])
          (State.toInsert_of_stack (by simp [top]) d) (phase_of_live hs live (by simp [top])) live
    | release d stack top can =>
        have htouch : ∀ z, x.touch .cpp z = z.modifyWorld d fun w =>
            w.closeAll w.preparedStatements :=
          fun z => by simp only [touch, top]
        rw [htouch]
        refine .step (d := d) hs.wf hs' (by simp [Runtime.modifyWorld])
          (fun d' hne => by simpa [State.Concerns, top] using hne)
          (fun d' hne => sameData_modifyWorld _ hne) fun ops y hseq hlt => ?_
        have hconnected : (x.state.db d).isConnected = true :=
          (hs.wf.lifecycle.ok d).thread.symm.trans can.ioThread
        have hstopped : (x.state.db d).stopped = true :=
          hs.wf.lifecycle.stopping d (.inl (by simp [top]))
        exact hseq.release hs.wf (hu d (by simp [State.Touches, top])) (by simp [Database.tasks])
          (by simp [Database.phase])
          (State.toInsert_of_stack (by simp [top]) d)
            (by simp [Database.phase, hconnected, hstopped]) can.live
    | destroy d stack top live =>
        have htouch : ∀ z, x.touch .cpp z =
            { z with handlers := Function.update z.handlers d [] } :=
          fun z => by simp only [touch, top]
        rw [htouch]
        refine .step (d := d) hs.wf hs' (by simp)
          (fun d' hne => by simpa [State.Concerns, top] using hne)
          (fun d' hne => ⟨rfl, Function.update_of_ne hne _ _, rfl, rfl, fun _ _ => rfl⟩)
            fun ops y hseq hlt => ?_
        have hdestroy : .destroy d ∈ x.state.stack := by simp [top]
        obtain ⟨hconnected, hnull⟩ := hs.wf.lifecycle.destroying d hdestroy
        have hidle := (hs.wf.lifecycle.ok d).stopped_idle
          (hs.wf.lifecycle.stopping d (.inr hdestroy))
        exact hseq.destroy hs.wf (hu d (by simp [State.Touches, top]))
          (by simp [Database.tasks, hidle])
          (by simp [Database.phase, hconnected]) (by simp [Database.phase, hconnected, hnull])
            (by simp) live
    | prepareFailed d query stack top done =>
        have htouch : ∀ z, x.touch .cpp z = z := fun z => by simp only [touch, top, done]
        rw [htouch]
        refine .step (d := d) hs.wf hs' (by simp)
          (fun d' hne => by simpa [State.Concerns, top] using hne)
          (fun d' _ => .refl _ d') fun ops y hseq hlt => ?_
        have hbefore : x.state.toInsert d = none := by simp [State.toInsert, top, done]
        have hafter : (x.state.pop stack).toInsert d = none :=
          State.toInsert_of_stack
            (fun d query stack' => State.Statements.not_prepare_below hs.wf.lifecycle top) d
        exact ⟨[], y, hseq.same hs.wf
          ⟨⟨rfl, hafter.trans hbefore.symm, fun _ hsid hdb => ⟨hsid, hdb, rfl, id⟩⟩, rfl, rfl, rfl⟩
          (.refl _ d)⟩
    | prepareDone d query sid stack top done live =>
        have htouch : ∀ z, x.touch .cpp z = z.modifyWorld d fun w => w.register (x.object sid) :=
          fun z => by simp only [touch, top, done]
        rw [htouch]
        refine .step (d := d) hs.wf hs' (by simp [Runtime.modifyWorld])
          (fun d' hne => by simpa [State.Concerns, top] using hne)
          (fun d' hne => sameData_modifyWorld _ hne) fun ops y hseq hlt => ?_
        exact ⟨[], y, hseq.insert hs top done fun d' query' stack' =>
          State.Statements.not_prepare_below hs.wf.lifecycle top⟩
    | stop d work empty idle active =>
        have htouch : ∀ z, x.touch (.io d .stop) z = z := fun z => rfl
        rw [htouch]
        refine .step (d := d) hs.wf hs' (by simp) (fun d' hne hc => hne hc) (fun d' _ => .refl _ d')
          fun ops y hseq hlt => ?_
        exact hseq.stop (s := x.state.modify d fun db => { db with stopped := true }) hs (hu d id)
          (by simp) (by simp [Database.tasks]) (by simp) (by simp) active (by simp)
    | _ => cases plain
  · rw [settle_of_some (by rw [touch_state]), touch_state]
    exact .faulted hs.wf _

/-! ### Handlers -/

theorem finish_step {s s' : State} {ok : Bool} (h : s.step (.io d (.finish ok)) = some s') :
    s.fault = none ∧ ∃ task, (s.db d).running = some task ∧
      (s' = s.finish d ok task ∨ ∃ f, s' = { s with fault := some f }) := by
  have hnone := (step_effect h).1
  refine ⟨hnone, ?_⟩
  simp only [State.step, hnone, State.action, State.ioStep] at h
  cases hrunning : (s.db d).running with
  | none =>
      rw [hrunning] at h
      cases h
  | some task =>
      rw [hrunning] at h
      refine ⟨task, rfl, ?_⟩
      have hsettle : s' = s.settle
          (s.access d (s.accessTask task (.ok (s.finish d ok task)))) := by simpa using h.symm
      rw [hsettle]
      unfold State.access
      split
      · cases task with
        | runStatement sid action =>
            unfold State.accessTask
            dsimp only
            split
            · exact .inl rfl
            · exact .inr ⟨_, rfl⟩
        | _ => exact .inl rfl
      · exact .inr ⟨_, rfl⟩

/-- The handlers of a database and its tasks end together. -/
theorem Matches.head (h : x.Matches d y) {t : Handler.Task} {rest : List Handler.Task}
    (hhandlers : x.handlers d = t :: rest) {task : Task}
    (hrunning : (x.state.db d).running = some task) :
    task.Bound t ∧ List.Forall₂ Task.Bound (x.state.db d).queue rest := by
  have htasks := h.tasks
  rw [hhandlers, Database.tasks, hrunning] at htasks
  cases htasks with
  | cons hbound hrest => exact ⟨hbound, hrest⟩

/-- The io thread that runs a handler is that of a connected database, whose `lua_Prepare` has
nothing to insert. -/
theorem phase_of_running (hs : x.state.Settled) {task : Task}
    (hrunning : (x.state.db d).running = some task) :
    (x.state.db d).phase = .connected ∧ x.state.toInsert d = none ∧ (x.state.db d).live = true := by
  have hok := hs.wf.lifecycle.ok d
  have htasks : (x.state.db d).tasks ≠ [] := by simp [Database.tasks, hrunning]
  have hactive : (x.state.db d).stopped = false := by
    cases hstopped : (x.state.db d).stopped with
    | false => rfl
    | true =>
        rw [hok.stopped_idle hstopped] at hrunning
        cases hrunning
  have hconnected : (x.state.db d).isConnected = true := by
    cases hc : (x.state.db d).isConnected with
    | true => rfl
    | false => exact absurd (hs.drained.unconnected d hc hactive) htasks
  refine ⟨by simp [Database.phase, hconnected, hactive], ?_, hok.running_live (by simp [hrunning])⟩
  unfold State.toInsert
  split
  · rename_i d' query stack sid top done
    refine if_neg ?_
    rintro rfl
    exact htasks (hs.barrier.completed _ query stack _ top done)
  · rfl

/-- A handler of `Query` or `Run` works. -/
theorem Sequence.work (h : x.Sequence lib d ops y) (hs : x.state.Settled) {t : Handler.Task}
    {rest : List Handler.Task} {fuel : ℕ} {w : World} {task : Task} {action : DatabaseAction}
    {o : Lifetime.Operation} (hhandlers : x.handlers d = t :: rest)
    (hrunning : (x.state.db d).running = some task) (hrun : (Handler.handle lib fuel t).run
      (x.world d) = .ok () w) (hkept : Handler.Kept (x.world d) w)
    (haction : t.isAction = true) (htask : o.task = some t)
    (hop : ∀ y : Lifetime, y.phase = .connected → y.world = x.world d →
      (∀ s binds a, t = .runStatement s binds a →
      s ∈ y.prepared.map Prod.snd) → y.step lib o = y.handler lib fuel t) :
    ({ x.modifyWorld d fun _ => w with
      handlers := Function.update x.handlers d rest
      state := x.state.complete d action }).Sequence lib d (ops ++ [o]) { y with world := w } := by
  obtain ⟨hphase, hinsert, hlive⟩ := phase_of_running hs hrunning
  obtain ⟨hbound, hrest⟩ := h.toMatches.head hhandlers hrunning
  have hworld : y.world = x.world d := h.world.trans (view_of_none hinsert)
  have hself : Function.update x.world d w d = w := Function.update_self _ _ _
  have hrest' : Function.update x.handlers d rest d = rest := Function.update_self _ _ _
  have hdb : (x.state.complete d action).db d = { x.state.db d with
      completedActions := (x.state.db d).completedActions.push action, running := none } := by simp
  have hstep : y.step lib o = some { y with world := w } := by
    rw [hop y (h.phase.trans hphase) hworld]
    · simp only [Handler.Lifetime.handler, Handler.step, hworld, hrun, Option.map_some]
    · rintro s binds a rfl
      exact h.runs s binds a (by simp [hhandlers])
  refine h.update (Transition.exec_singleton hstep)
    (h.toMatches.update hs.wf (State.untouched_complete d action _) ?_
    (fun _ _ => rfl) ?_ ?_ id rfl (fun _ => rfl) ?_ ?_) rfl ?_ hlive
  · show Extends _ (Function.update x.world d w d)
    rw [hself]
    exact .of_kept hkept
  · show w = Runtime.view _ d
    rw [view_of_none]
    · exact hself.symm
    · exact (State.untouched_complete d action _).toInsert.trans hinsert
  · show y.phase = ((x.state.complete d action).db d).phase
    rw [hdb, h.phase]
    rfl
  · show List.Forall₂ Task.Bound ((x.state.complete d action).db d).tasks
        (Function.update x.handlers d rest d)
    rw [hdb, hrest']
    exact hrest
  · intro s binds a hmem
    have hmem : .runStatement s binds a ∈ Function.update x.handlers d rest d := hmem
    rw [hrest'] at hmem
    exact .inl (by rw [hhandlers]; exact List.mem_cons_of_mem _ hmem)
  · refine ⟨[], [], (List.append_nil _).symm, ?_, fun _ => rfl⟩
    show _ ++ (Function.update x.handlers d rest d).filter _ ++ [] = _
    rw [hrest', hhandlers, List.filter_cons_of_pos haction]
    simp [htask]

/-- What `CreateStatement` leaves. -/
theorem createStatement_extends {query : Bytes} {w w' : World}
    (hrun : (Handler.createStatement lib query).run w.waiting = .ok () w') :
    Extends w { w' with waiter := none } ∧ w'.nextStmt = w.nextStmt + 1 ∧
      (w'.stmt w.nextStmt).query = query ∧
      ∀ s, w'.waiter.bind (·.stmt) = some s → s = w.nextStmt := by
  obtain ⟨waiter, hreturns, hwaiter⟩ := Handler.createStatement_run lib query w.waiting
  rw [hreturns] at hrun
  cases hrun
  have hrenewed := Handler.prepare_renewed lib w.nextStmt (w.waiting.allocating query)
  have hnext : w.waiting.nextStmt = w.nextStmt := rfl
  rw [hnext]
  refine ⟨⟨?_, hrenewed.preparedStatements, fun s hs => ?_⟩, hrenewed.nextStmt, ?_, fun s hs => ?_⟩
  · exact Nat.le_of_lt (Nat.lt_of_lt_of_eq (Nat.lt_succ_self _) hrenewed.nextStmt.symm)
  · have hne : s ≠ w.nextStmt := Nat.ne_of_lt hs
    show ((final ((Handler.prepare lib w.nextStmt).run (w.waiting.allocating query))).stmt
        s).query = _
    rw [hrenewed.others s hne]
    exact congrArg Handler.PStatement.query (Function.update_of_ne hne _ _)
  · show ((final ((Handler.prepare lib w.nextStmt).run (w.waiting.allocating query))).stmt
        w.nextStmt).query = _
    rw [hrenewed.query]
    simp [World.allocating, World.waiting]
  · have hs : waiter.bind (·.stmt) = some s := hs
    rw [hwaiter _ rfl] at hs
    split at hs
    · exact (Option.some.inj hs).symm
    · cases hs

/-- `Prepare` with a query that is not in the cache is the creation and the insertion. -/
theorem luaPrepare_miss {query : Bytes} {w w' : World} (hquery : cString query = query)
    (hmiss : w.preparedStatements.lookup query = none)
    (hrun : (Handler.createStatement lib query).run w.waiting = .ok () w') :
    Handler.luaPrepare lib true query w = match w'.waiter.bind (·.stmt) with
      | none => some (none, { w' with waiter := none })
      | some s => some (some s, World.register { w' with waiter := none } s) := by
  unfold Handler.luaPrepare
  simp only [hquery, hmiss, hrun, if_true]
  rfl

/-- The handler of `lua_Prepare` and the operation. -/
theorem Sequence.prepares (h : x.Sequence lib d ops y) (hs : x.state.Settled) {query : Bytes}
    {rest : List Handler.Task} {w : World}
    (hhandlers : x.handlers d = .createStatement query :: rest) {task : Task}
    (hrunning : (x.state.db d).running = some task)
    (hrun : (Handler.createStatement lib query).run (x.world d).waiting = .ok () w) :
    task = .createStatement query ∧ y.step lib (.prepare query) = match w.waiter.bind (·.stmt) with
      | none => some { y with world := { w with waiter := none } }
      | some s => some (y.returned query (some s, World.register { w with waiter := none } s)) := by
  obtain ⟨hphase, hinsert, hlive⟩ := phase_of_running hs hrunning
  obtain ⟨hbound, -⟩ := h.toMatches.head hhandlers hrunning
  have hworld : y.world = x.world d := h.world.trans (view_of_none hinsert)
  have hy : y.phase = .connected := h.phase.trans hphase
  cases hbound with
  | createStatement hquery =>
      refine ⟨rfl, ?_⟩
      obtain ⟨query', stack, top, undone⟩ := State.creating_top hs.wf.statements hrunning
      have hcreates := hs.wf.statements.creating d
      obtain rfl : query = query' := by
        simp [Database.creates, Database.tasks, hrunning, Task.created, State.awaited, top,
          undone] at hcreates
        exact hcreates.1
      have hmiss : (x.world d).preparedStatements.lookup query = none := by
        rw [h.cache (by rw [hy]; decide), (hs.wf.statements.waiting d query stack top).uncached]
        rfl
      have hconnected : y.isConnected := .inl hy
      show (if y.isConnected then
          (Handler.luaPrepare lib (y.phase = .connected) query y.world).map (y.returned query)
        else none) = _
      rw [if_pos hconnected, decide_eq_true hy, hworld, luaPrepare_miss hquery hmiss hrun]
      cases w.waiter.bind (·.stmt) <;> rfl

/-- The creation fails. -/
theorem Sequence.createFailed (h : x.Sequence lib d ops y) (hs : x.state.Settled) {query : Bytes}
    {rest : List Handler.Task} {w : World}
    (hhandlers : x.handlers d = .createStatement query :: rest) {task : Task}
    (hrunning : (x.state.db d).running = some task)
    (hrun : (Handler.createStatement lib query).run (x.world d).waiting = .ok () w)
    (hresult : w.waiter.bind (·.stmt) = none) :
    ({ x.modifyWorld d fun _ => { w with waiter := none } with
      handlers := Function.update x.handlers d rest
      waiter := w.waiter
      state := x.state.statementCreated d query false }).Sequence lib d
        (ops ++ [Lifetime.Operation.prepare query])
        { y with world := { w with waiter := none } } := by
  obtain ⟨hphase, hinsert, hlive⟩ := phase_of_running hs hrunning
  obtain ⟨-, hrest⟩ := h.toMatches.head hhandlers hrunning
  obtain ⟨rfl, hop⟩ := h.prepares hs hhandlers hrunning hrun
  rw [hresult] at hop
  obtain ⟨hextends, -, -, -⟩ := createStatement_extends hrun
  have hself : Function.update x.world d { w with waiter := none } d = { w with waiter := none } :=
    Function.update_self _ _ _
  have hrest' : Function.update x.handlers d rest d = rest := Function.update_self _ _ _
  have hafter : (x.state.statementCreated d query false).toInsert d = none := by
    unfold State.toInsert
    simp
  have hdb : (x.state.statementCreated d query false).db d =
      { x.state.db d with running := none } := by simp
  refine h.update (Transition.exec_singleton hop) (h.toMatches.update hs.wf
    ⟨by rw [hdb], hafter.trans hinsert.symm,
      fun sid hsid hdb => ⟨by simpa using hsid, by simpa using hdb, by simp, by simp⟩⟩
    ?_ (fun _ _ => rfl) ?_ ?_ id rfl (fun _ => rfl) ?_ ?_) rfl ?_ hlive
  · show Extends _ (Function.update x.world d _ d)
    rw [hself]
    exact hextends
  · show _ = Runtime.view _ d
    rw [view_of_none]
    · exact hself.symm
    · exact hafter
  · show y.phase = ((x.state.statementCreated d query false).db d).phase
    rw [hdb, h.phase]
    rfl
  · show List.Forall₂ Task.Bound ((x.state.statementCreated d query false).db d).tasks
        (Function.update x.handlers d rest d)
    rw [hdb, hrest']
    exact hrest
  · intro s binds a hmem
    have hmem : .runStatement s binds a ∈ Function.update x.handlers d rest d := hmem
    rw [hrest'] at hmem
    exact .inl (by rw [hhandlers]; exact List.mem_cons_of_mem _ hmem)
  · refine ⟨[], [], (List.append_nil _).symm, ?_, fun _ => rfl⟩
    show _ ++ (Function.update x.handlers d rest d).filter _ ++ [] = _
    rw [hrest', hhandlers]
    simp [Handler.Lifetime.Operation.task, Handler.Task.isAction, Handler.Task.action]

/-- The creation succeeds. -/
theorem Sequence.created (h : x.Sequence lib d ops y) (hs : x.state.Settled) {query : Bytes}
    {rest : List Handler.Task} {w : World} {n : StmtId}
    (hhandlers : x.handlers d = .createStatement query :: rest) {task : Task}
    (hrunning : (x.state.db d).running = some task)
    (hrun : (Handler.createStatement lib query).run (x.world d).waiting = .ok () w)
    (hresult : w.waiter.bind (·.stmt) = some n) :
    ({ x.modifyWorld d fun _ => { w with waiter := none } with
      handlers := Function.update x.handlers d rest
      waiter := w.waiter
      object := Function.update x.object x.state.nextStmt n
      state := x.state.statementCreated d query true }).Sequence lib d
        (ops ++ [Lifetime.Operation.prepare query])
        (y.returned query (some n, World.register { w with waiter := none } n)) := by
  obtain ⟨hphase, hinsert, hlive⟩ := phase_of_running hs hrunning
  obtain ⟨-, hrest⟩ := h.toMatches.head hhandlers hrunning
  obtain ⟨rfl, hop⟩ := h.prepares hs hhandlers hrunning hrun
  rw [hresult] at hop
  obtain ⟨hextends, hnext, hquery, hobject⟩ := createStatement_extends hrun
  obtain rfl := hobject n hresult
  obtain ⟨query', stack, top, undone⟩ := State.creating_top hs.wf.statements hrunning
  have hself : Function.update x.world d { w with waiter := none } d = { w with waiter := none } :=
    Function.update_self _ _ _
  have hrest' : Function.update x.handlers d rest d = rest := Function.update_self _ _ _
  have hnew : Function.update x.object x.state.nextStmt (x.world d).nextStmt x.state.nextStmt =
      (x.world d).nextStmt :=
    Function.update_self _ _ _
  have hold : ∀ sid < x.state.nextStmt,
      Function.update x.object x.state.nextStmt (x.world d).nextStmt sid = x.object sid :=
    fun sid hsid => Function.update_of_ne (Nat.ne_of_lt hsid) _ _
  have hafter : (x.state.statementCreated d query true).toInsert d = some x.state.nextStmt := by
    unfold State.toInsert
    simp [top]
  have hdb : (x.state.statementCreated d query true).db d =
      { x.state.db d with running := none } := by simp
  have hstmt : ∀ sid < x.state.nextStmt, (x.state.statementCreated d query true).stmt sid =
      x.state.stmt sid := by
    intro sid hsid
    simp [Nat.ne_of_lt hsid]
  have hstmt' : (x.state.statementCreated d query true).stmt x.state.nextStmt =
      ⟨true, d, query, .absent⟩ := by simp
  have hlt : ∀ sid, sid < (x.state.statementCreated d query true).nextStmt →
      sid < x.state.nextStmt ∨ sid = x.state.nextStmt := by
    intro sid hsid
    rw [State.statementCreated_nextStmt, if_pos rfl] at hsid
    omega
  have hbelow : ∀ sid < x.state.nextStmt,
      ((x.state.statementCreated d query true).stmt sid).database = d →
      x.object sid < (x.world d).nextStmt := by
    intro sid hsid hdb
    rw [hstmt sid hsid] at hdb
    exact (h.known sid hsid hdb).2.1
  refine h.update (Transition.exec_singleton hop)
    ⟨?_, ?_, ?_, fun s binds a hmem => ?_, fun hphase q => ?_, fun sid hsid hdb => ?_,
    fun hphase sid hsid hdb hl => ?_, fun sid hsid sid' hsid' hdb hdb' heq => ?_⟩ rfl ?_ hlive
  · show World.register _ _ = Runtime.view _ d
    unfold view
    dsimp only
    rw [hafter]
    show World.register _ _ =
        World.register (Function.update x.world d _ d) (Function.update x.object _ _ _)
    rw [hself, hnew]
  · show y.phase = ((x.state.statementCreated d query true).db d).phase
    rw [hdb, h.phase]
    rfl
  · show List.Forall₂ Task.Bound ((x.state.statementCreated d query true).db d).tasks
        (Function.update x.handlers d rest d)
    rw [hdb, hrest']
    exact hrest
  · have hmem : .runStatement s binds a ∈ Function.update x.handlers d rest d := hmem
    rw [hrest'] at hmem
    exact List.mem_cons_of_mem _
      (h.runs s binds a (by rw [hhandlers]; exact List.mem_cons_of_mem _ hmem))
  · show (Function.update x.world d _ d).preparedStatements.lookup q =
      (((x.state.statementCreated d query true).db d).preparedStatements.lookup q).map
        (Function.update x.object _ _)
    rw [hself, hdb]
    show w.preparedStatements.lookup q = _
    rw [hextends.preparedStatements, h.cache hphase q]
    exact Option.map_congr fun sid hsid =>
      (hold sid (lt_of_cached hs.wf (h.phase ▸ hphase) hsid)).symm
  · show Function.update x.object _ _ sid ∈ _ ∧
        Function.update x.object _ _ sid < (Function.update x.world d _ d).nextStmt ∧
      ((Function.update x.world d _ d).stmt (Function.update x.object _ _ sid)).query =
        ((x.state.statementCreated d query true).stmt sid).query
    rw [hself]
    obtain hsid | rfl := hlt sid hsid
    · have hdb : ((x.state.statementCreated d query true).stmt sid).database = d := hdb
      rw [hstmt sid hsid] at hdb ⊢
      rw [hold sid hsid]
      obtain ⟨hmem, hlt, hq⟩ := h.known sid hsid hdb
      exact ⟨List.mem_cons_of_mem _ hmem, Nat.lt_of_lt_of_le hlt hextends.nextStmt,
        (hextends.query _ hlt).trans hq⟩
    · rw [hnew, hstmt']
      exact ⟨List.mem_cons_self, Nat.lt_of_lt_of_eq (Nat.lt_succ_self _) hnext.symm, hquery⟩
  · show Function.update x.object _ _ sid ∈ List.insert _ y.live
    obtain hsid | rfl := hlt sid hsid
    · have hdb : ((x.state.statementCreated d query true).stmt sid).database = d := hdb
      have hl : ((x.state.statementCreated d query true).stmt sid).live = true := hl
      rw [hstmt sid hsid] at hdb hl
      rw [hold sid hsid]
      exact List.mem_insert_of_mem (h.live hphase sid hsid hdb hl)
    · rw [hnew]
      exact List.mem_insert_self
  · have heq : Function.update x.object _ _ sid = Function.update x.object _ _ sid' := heq
    obtain hlt₁ | rfl := hlt sid hsid <;> obtain hlt₂ | rfl := hlt sid' hsid'
    · rw [hold sid hlt₁, hold sid' hlt₂] at heq
      have hdb : ((x.state.statementCreated d query true).stmt sid).database = d := hdb
      have hdb' : ((x.state.statementCreated d query true).stmt sid').database = d := hdb'
      rw [hstmt sid hlt₁] at hdb
      rw [hstmt sid' hlt₂] at hdb'
      exact h.inj sid hlt₁ sid' hlt₂ hdb hdb' heq
    · rw [hold sid hlt₁, hnew] at heq
      exact absurd heq (Nat.ne_of_lt (hbelow sid hlt₁ hdb))
    · rw [hold sid' hlt₂, hnew] at heq
      exact absurd heq.symm (Nat.ne_of_lt (hbelow sid' hlt₂ hdb'))
    · rfl
  · refine ⟨[], [], (List.append_nil _).symm, ?_, fun _ => rfl⟩
    show _ ++ (Function.update x.handlers d rest d).filter _ ++ [] = _
    rw [hrest', hhandlers]
    simp [Handler.Lifetime.Operation.task, Handler.Task.isAction, Handler.Task.action]

/-- A handler of `d` ends, with the data `z` it leaves. -/
theorem Advances.finished (hs : x.state.Settled) {z z' : Runtime} {ok : Bool}
    (hz : z.control (.io d (.finish ok)) = some z') (hstate : z.state = x.state)
    (hdata : ∀ d', d' ≠ d → x.SameData z d')
    (hd : ∀ task, (x.state.db d).running = some task → ∀ ops y, x.Sequence lib d ops y →
      ∃ more y', Sequence lib { z with state := x.state.finish d ok task } d (ops ++ more) y') :
    x.Advances lib (x.settle z') := by
  obtain ⟨s, hs', rfl⟩ := control_eq_some hz
  rw [hstate] at hs'
  obtain ⟨hnone, task, hrunning, rfl | ⟨f, rfl⟩⟩ := finish_step hs'
  · have hfault : (x.state.finish d ok task).fault = none := by
      cases task <;> simp [State.finish, hnone]
    have hnext : (x.state.finish d ok task).nextDb = x.state.nextDb := by
      cases task <;> simp [State.finish]
    rw [settle_of_none hfault]
    refine .step (d := d) hs.wf hs' hnext (fun d' hne hc => hne hc) (fun d' hne => ?_)
      fun ops y hseq _ => hd task hrunning ops y hseq
    obtain ⟨hworld, hhandlers, hposted, hcredentials, hobject⟩ := hdata d' hne
    exact ⟨hworld, hhandlers, hposted, hcredentials, hobject⟩
  · rw [settle_of_some rfl]
    exact .faulted hs.wf _

theorem sameData_worked (w : World) (rest : List Handler.Task) (hd : d' ≠ d) :
    x.SameData { x.modifyWorld d fun _ => w with handlers := Function.update x.handlers d rest }
      d' :=
  ⟨Function.update_of_ne hd _ _, Function.update_of_ne hd _ _, rfl, rfl, fun _ _ => rfl⟩

theorem Advances.finish (hs : x.state.Settled) {fuel : ℕ}
    (hstep : x.step lib (.finish d fuel) = some x') : x.Advances lib x' := by
  have hpersistent : Handler.Persistent lib (fun _ => True) (fun _ => True)
      (Handler.SendsOnly (fun _ => True) (x.world d)) :=
    Handler.persistent_sends (fun _ _ => trivial) (fun _ _ _ => trivial) (fun _ => trivial)
      fun _ _ _ => trivial
  unfold Runtime.step at hstep
  cases hhandlers : x.handlers d with
  | nil =>
      simp only [hhandlers] at hstep
      cases hstep
  | cons t rest =>
      simp only [hhandlers] at hstep
      obtain ⟨z, hz, rfl⟩ := Option.map_eq_some_iff.mp hstep
      cases t with
      | runQuery action query =>
          cases hrun : (Handler.handle lib fuel (.runQuery action query)).run (x.world d) with
          | error e w =>
              simp only [work, hrun] at hz
              cases hz
          | ok r w =>
              simp only [work, hrun] at hz
              refine .finished hs hz rfl (fun d' hne => sameData_worked w rest hne)
                fun task hrunning ops y hseq => ?_
              obtain ⟨hbound, -⟩ := hseq.toMatches.head hhandlers hrunning
              have hkept := ((hpersistent.runQuery trivial fuel action).ok hrun (.refl _ _)).toKept
              cases hbound with
              | runQuery action hquery =>
                  refine ⟨_, _, hseq.work hs (o := .query fuel action query) hhandlers hrunning hrun
                    hkept rfl ?_ fun y hphase hworld _ => ?_⟩
                  · exact congrArg (fun q => some (Handler.Task.runQuery action q)) hquery
                  · show (if y.phase = .connected then
                        y.handler lib fuel (.runQuery action (cString query)) else none) = _
                    rw [if_pos hphase, hquery]
      | runStatement s binds action =>
          cases hrun : (Handler.handle lib fuel (.runStatement s binds action)).run (x.world d) with
          | error e w =>
              simp only [work, hrun] at hz
              cases hz
          | ok r w =>
              simp only [work, hrun] at hz
              refine .finished hs hz rfl (fun d' hne => sameData_worked w rest hne)
                fun task hrunning ops y hseq => ?_
              obtain ⟨hbound, -⟩ := hseq.toMatches.head hhandlers hrunning
              have hkept := ((hpersistent.runStatement (fun _ _ => trivial) trivial fuel binds
                action).ok hrun (.refl _ _)).toKept
              cases hbound with
              | runStatement sid action s binds =>
                  refine ⟨_, _, hseq.work hs (o := .run fuel s binds action) hhandlers hrunning hrun
                    hkept rfl rfl fun y hphase hworld hruns => ?_⟩
                  exact if_pos ⟨hphase, hruns s binds action rfl⟩
      | createStatement query =>
          cases hrun : (Handler.createStatement lib query).run (x.world d).waiting with
          | error e w =>
              simp only [work, hrun] at hz
              cases hz
          | ok r w =>
              cases hresult : w.waiter.bind (·.stmt) with
              | none =>
                  simp only [work, hrun, hresult] at hz
                  refine .finished hs hz rfl (fun d' hne => ?_) fun task hrunning ops y hseq => ?_
                  · obtain ⟨hworld, hhandlers, hposted, hcredentials, hobject⟩ :=
                      sameData_worked (x := x) _ rest hne
                    exact ⟨hworld, hhandlers, hposted, hcredentials, hobject⟩
                  · obtain ⟨rfl, -⟩ := hseq.prepares hs hhandlers hrunning hrun
                    exact ⟨_, _, hseq.createFailed hs hhandlers hrunning hrun hresult⟩
              | some n =>
                  simp only [work, hrun, hresult] at hz
                  refine .finished hs hz rfl (fun d' hne => ?_) fun task hrunning ops y hseq => ?_
                  · obtain ⟨hworld, hhandlers, hposted, hcredentials, -⟩ :=
                      sameData_worked (x := x) _ rest hne
                    exact ⟨hworld, hhandlers, hposted, hcredentials,
                      fun sid hsid => Function.update_of_ne (Nat.ne_of_lt hsid) _ _⟩
                  · obtain ⟨rfl, -⟩ := hseq.prepares hs hhandlers hrunning hrun
                    exact ⟨_, _, hseq.created hs hhandlers hrunning hrun hresult⟩

/-! ### Runs -/

theorem work_step {fuel : ℕ} {rest : List Handler.Task} {t : Handler.Task}
    (h : x.work lib d fuel rest t = some x') :
    ∃ ok, x.state.step (.io d (.finish ok)) = some x'.state := by
  unfold work at h
  split at h
  · split at h
    · cases h
    · split at h
      · obtain ⟨s, hs, rfl⟩ := control_eq_some h
        exact ⟨_, hs⟩
      · obtain ⟨s, hs, rfl⟩ := control_eq_some h
        exact ⟨_, hs⟩
  · split at h
    · cases h
    · obtain ⟨s, hs, rfl⟩ := control_eq_some h
      exact ⟨_, hs⟩

/-- With its data a step is still one of the state machine. -/
theorem step_state {c : Call} (h : x.step lib c = some x') :
    x'.state = x.state ∨ ∃ l, x.state.step l = some x'.state := by
  cases c with
  | create c callback junk =>
      obtain ⟨z, hz, rfl⟩ := Option.map_eq_some_iff.mp h
      obtain ⟨s, hs, rfl⟩ := control_eq_some hz
      exact .inr ⟨_, hs⟩
  | connect c callback junk initFails =>
      obtain ⟨⟨r, w⟩, -, hmap⟩ := Option.bind_eq_some_iff.mp h
      obtain ⟨z, hz, rfl⟩ := Option.map_eq_some_iff.mp hmap
      obtain ⟨s, hs, rfl⟩ := control_eq_some hz
      exact .inr ⟨_, hs⟩
  | dbConnect d initFails =>
      unfold Runtime.step at h
      dsimp only at h
      split at h
      · obtain ⟨s, hs, rfl⟩ := control_eq_some h
        exact .inr ⟨_, hs⟩
      · obtain ⟨⟨r, w⟩, -, hmap⟩ := Option.bind_eq_some_iff.mp h
        obtain ⟨z, hz, rfl⟩ := Option.map_eq_some_iff.mp hmap
        obtain ⟨s, hs, rfl⟩ := control_eq_some hz
        refine .inr ⟨.dbConnect d r, ?_⟩
        split <;> exact hs
  | setOption d =>
      obtain ⟨-, heq⟩ := Option.ite_none_right_eq_some.mp h
      cases heq
      exact .inl rfl
  | setCharacterSet d charset =>
      obtain ⟨-, heq⟩ := Option.ite_none_right_eq_some.mp h
      cases heq
      exact .inl rfl
  | query d query callback =>
      obtain ⟨z, hz, rfl⟩ := Option.map_eq_some_iff.mp h
      obtain ⟨s, hs, rfl⟩ := control_eq_some hz
      refine .inr ⟨.query d callback, ?_⟩
      split <;> exact hs
  | prepare d query =>
      obtain ⟨z, hz, rfl⟩ := Option.map_eq_some_iff.mp h
      obtain ⟨s, hs, rfl⟩ := control_eq_some hz
      refine .inr ⟨.prepare d (cString query), ?_⟩
      split <;> exact hs
  | run sid binds callback =>
      obtain ⟨z, hz, rfl⟩ := Option.map_eq_some_iff.mp h
      obtain ⟨s, hs, rfl⟩ := control_eq_some hz
      refine .inr ⟨.run sid callback, ?_⟩
      split <;> exact hs
  | finish d fuel =>
      obtain ⟨t, rest, z, -, hz, rfl⟩ := finished_step h
      rw [settle_state]
      obtain ⟨ok, hs⟩ := work_step hz
      exact .inr ⟨_, hs⟩
  | other l =>
      obtain ⟨-, s, hs, rfl⟩ := other_step h
      rw [settle_state, touch_state]
      exact .inr ⟨_, hs⟩

theorem settled_step {c : Call} (hs : x.state.Settled) (h : x.step lib c = some x') :
    x'.state.Settled := by
  obtain heq | ⟨l, hl⟩ := step_state h
  · rw [heq]
    exact hs
  · exact State.settled_step hs hl

/-- Every step of the threads is simulated by operations. -/
theorem step_advances {c : Call} (hs : x.state.Settled) (hstep : x.step lib c = some x') :
    x.Advances lib x' := by
  cases c with
  | create c callback junk => exact .create hs hstep
  | connect c callback junk initFails => exact .connect hs hstep
  | dbConnect d initFails => exact .dbConnect hs hstep
  | setOption d => exact .setOption hs hstep
  | setCharacterSet d charset => exact .setCharacterSet hs hstep
  | query d query callback => exact .query hs hstep
  | prepare d query => exact .prepare hs hstep
  | run sid binds callback => exact .run hs hstep
  | finish d fuel => exact .finish hs hstep
  | other l => exact .other hs hstep

theorem run_advances {tr : List Call} (hs : x.state.Settled)
    (h : Transition.exec (Runtime.step lib) x tr = some x') :
    x'.state.Settled ∧ x.Advances lib x' :=
  Transition.exec_inv' (I := fun x' => x'.state.Settled ∧ x.Advances lib x')
    (fun _ _ _ hI hstep => ⟨settled_step hI.1 hstep, hI.2.trans (step_advances hI.1 hstep)⟩)
      ⟨hs, .refl lib x⟩ h

theorem sequential_init : init.Sequential lib := nofun

end Runtime
end Tmysql4
