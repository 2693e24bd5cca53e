import Tmysql4.Teardown

/-! # Exchanges on a connection

A connection carries one command at a time: an exchange is begun by sending a command and ended by
reading its whole answer.  `Wire` adds the exchanges in progress to the state of the module.

* **io threads.** A running handler begins and ends exchanges on the connection of its database
  (`Task.exchanges`); an io thread does nothing else while one is in progress.
* **Lua thread.** `SetCharacterSet`, the finalizer of a statement and
  `Release` use the connection themselves: `lua` is what they have
  still to exchange, and the thread does nothing else meanwhile.
* The exchanges of `tmysql.Connect` and `Database:Connect`,
  before the io thread is started, are left out. -/

namespace Tmysql4

inductive Exchange where
  | realQuery
  | stmtPrepare
  | stmtExecute
  | stmtClose
  | setCharacterSet
  | realConnect
  | close
deriving DecidableEq, Repr

/-- The exchanges of `Database::Connect` with a reconnect. -/
def Exchange.reconnect : List Exchange := [.realConnect, .setCharacterSet, .stmtClose, .stmtPrepare]

/-- What a handler may exchange. -/
def Task.exchanges : Task → List Exchange
  | .runQuery _ => .realQuery :: Exchange.reconnect
  | .runStatement _ _ => .stmtExecute :: Exchange.reconnect
  | .createStatement _ => [.stmtPrepare]

namespace State

variable (s : State) (d : DbId)

/-- What a step of the Lua thread has to exchange. -/
def exchanges : Label → List (DbId × Exchange)
  | .stmtGc sid =>
      if (s.stmt sid).handle = .pointer then [((s.stmt sid).database, .stmtClose)] else []
  | .cpp =>
      match s.stack with
      | .release d :: _ => ((s.cached d).map fun _ => (d, .stmtClose)) ++ [(d, .close)]
      | _ => []
  | _ => []

/-- No handler of the database is running or will run. -/
def Quiet : Prop :=
  (s.db d).running = none ∧ ((s.db d).queue = [] ∨ (s.db d).stopped = true)

instance : Decidable (s.Quiet d) := inferInstanceAs (Decidable (_ ∧ _))

end State

/-- The module with the exchanges in progress: `lua` is what the Lua thread has still to exchange,
the first one being in progress when `begun` says so, and `io` the exchange of each io thread. -/
structure Wire where
  state : State
  lua : List (DbId × Exchange)
  begun : Bool
  io : DbId → Option Exchange

/-- A step of the module, a call of `SetCharacterSet`, or the begin or end of an exchange. -/
inductive Event where
  | sys (l : Label)
  | setCharacterSet (d : DbId)
  | luaBegin
  | luaEnd
  | ioBegin (d : DbId) (e : Exchange)
  | ioEnd (d : DbId)
deriving DecidableEq, Repr

namespace Wire

def init : Wire := ⟨State.init, [], false, fun _ => none⟩

variable (w : Wire)

/-- The thread that makes the step is not in an exchange. -/
def idle : Label → Bool
  | .io d _ => (w.io d).isNone
  | _ => w.lua.isEmpty

/-- A step of the module. -/
def sys (l : Label) : Option Wire :=
  if w.idle l then
    (w.state.step l).map fun s' =>
      { w with
        state := s'
        lua := if l matches .io _ _ then w.lua else w.state.exchanges l }
  else none

/-- `Database::lua_SetCharacterSet`. -/
def luaSetCharacterSet (d : DbId) : Option Wire :=
  if w.state.luaTurn && w.lua.isEmpty then
    (State.method (w.state.db d).handle (w.state.getDatabaseFromStack d true (.ok w.state))).map
      fun r =>
      { w with
        state := w.state.settle r
        lua := if (w.state.db d).handle = .pointer ∧ (w.state.db d).isConnected = true then
          [(d, .setCharacterSet)] else [] }
  else none

def action : Event → Option Wire
  | .sys l => w.sys l
  | .setCharacterSet d => w.luaSetCharacterSet d
  | .luaBegin => if w.lua ≠ [] ∧ w.begun = false then some { w with begun := true } else none
  | .luaEnd => if w.begun then some { w with begun := false, lua := w.lua.tail } else none
  | .ioBegin d e =>
      if w.io d = none ∧ ∃ task ∈ (w.state.db d).running, e ∈ task.exchanges then
        some { w with io := Function.update w.io d (some e) }
      else none
  | .ioEnd d =>
      if (w.io d).isSome then some { w with io := Function.update w.io d none } else none

def step (ev : Event) : Option Wire := if w.state.fault.isSome then none else w.action ev

/-- An exchange on the connection of `d` is in progress. -/
def InProgress (d : DbId) : Prop := (w.begun = true ∧ ∃ e, w.lua.head? = some (d, e)) ∨
  (w.io d).isSome = true

/-- The event begins an exchange on the connection of `d`. -/
def Begins (d : DbId) : Event → Prop
  | .luaBegin => ∃ e, w.lua.head? = some (d, e)
  | .ioBegin d' _ => d' = d
  | _ => False

/-- The Lua thread uses a connection itself only while no handler runs or will run. -/
def Undisturbed : Event → Prop
  | .setCharacterSet d =>
      (w.state.db d).handle = .pointer → (w.state.db d).isConnected = true → w.state.Quiet d
  | .sys (.stmtGc sid) =>
      (w.state.stmt sid).handle = .pointer → w.state.Quiet (w.state.stmt sid).database
  | _ => True

instance (ev : Event) : Decidable (w.Undisturbed ev) := by
  apply Event.casesOn (motive := fun ev => Decidable (w.Undisturbed ev)) ev
  case sys =>
    intro l
    apply Label.casesOn (motive := fun l => Decidable (w.Undisturbed (.sys l))) l <;>
      intros <;> dsimp only [Undisturbed] <;> infer_instance
  all_goals
    intros
    dsimp only [Undisturbed]
    infer_instance

end Wire

namespace State

variable {s s' : State} {l : Label} {d : DbId}

/-- An io thread keeps quiet, and only its own handler changes. -/
theorem quiet_io {d' : DbId} {i : IoStep} (h : s.Quiet d) (hs : s.step (.io d' i) = some s') :
    s'.Quiet d := by
  obtain ⟨hrunning, hqueue⟩ := h
  obtain ⟨-, he | ⟨f, -, rfl⟩⟩ := step_effect hs
  · unfold Quiet
    cases he with
    | stay turn => exact ⟨hrunning, hqueue⟩
    | _ =>
        simp
        grind
  · exact ⟨hrunning, hqueue⟩

theorem running_io {d' : DbId} {i : IoStep} (hne : d ≠ d') (hs : s.step (.io d' i) = some s') :
    (s'.db d).running = (s.db d).running := by
  obtain ⟨-, he | ⟨f, -, rfl⟩⟩ := step_effect hs
  · cases he with
    | stay turn => rfl
    | _ => simp [hne]
  · rfl

/-- The Lua thread leaves the running handlers alone. -/
theorem running_lua (hw : s.Wf) (hl : (l matches .io _ _) = false) (hs : s.step l = some s') :
    (s'.db d).running = (s.db d).running := by
  have hfresh := hw.lifecycle.fresh d
  obtain ⟨-, he | ⟨f, -, rfl⟩⟩ := step_effect hs
  · cases he with
    | stay turn => rfl
    | prepareCached => rfl
    | take | reconnected | finish | created | stop => cases hl
    | _ => simp <;> grind [Database.raw, Database.construct, Database.fire_running]
  · rfl

/-- What the Lua thread exchanges after a step is on a quiet connection. -/
theorem quiet_exchanges (hw : s.Wf) (hs : s.step l = some s') {e : Exchange}
    (hquiet : ∀ sid, l = .stmtGc sid → (s.stmt sid).handle = .pointer →
      s.Quiet (s.stmt sid).database)
    (hm : (d, e) ∈ s.exchanges l) : s'.Quiet d := by
  cases l with
  | stmtGc sid =>
      have hq := hquiet sid rfl
      simp only [exchanges] at hm
      split at hm
      · rename_i hpointer
        obtain ⟨rfl, rfl⟩ : d = (s.stmt sid).database ∧ e = .stmtClose := by simpa using hm
        obtain ⟨hrunning, hqueue⟩ := hq hpointer
        obtain ⟨-, he | ⟨f, -, rfl⟩⟩ := step_effect hs
        · cases he with
          | stay turn => exact ⟨hrunning, hqueue⟩
          | stmtGc sid' calls =>
              unfold Quiet
              simp
              grind
        · exact ⟨hrunning, hqueue⟩
      · cases hm
  | cpp =>
      simp only [exchanges] at hm
      split at hm
      · rename_i d' stack top
        obtain rfl : d = d' := by
          simp at hm
          grind
        have hstopped := hw.lifecycle.stopping d (.inl (by rw [top]; exact List.mem_cons_self))
        have hq : s.Quiet d := ⟨(hw.lifecycle.ok d).stopped_idle hstopped, .inr hstopped⟩
        obtain ⟨-, he | ⟨f, -, rfl⟩⟩ := step_effect hs
        · cases he with
          | release d'' stack' top' can =>
              unfold Quiet at hq ⊢
              simp
              grind
          | stay turn => simp [luaTurn, top] at turn
          | _ => simp_all
        · exact hq
      · cases hm
  | _ => cases hm

end State

namespace Wire

variable {w w' : Wire} {ev : Event} {d : DbId}

/-- The Lua thread exchanges on quiet connections only, an io thread in a handler only. -/
structure Exclusive (w : Wire) : Prop where
  wf : w.state.Wf
  quiet : ∀ d e, (d, e) ∈ w.lua → w.state.Quiet d
  handler : ∀ d, (w.io d).isSome = true → (w.state.db d).running.isSome = true

theorem exclusive_init : init.Exclusive := ⟨State.wf_init, nofun, nofun⟩

theorem exclusive_sys {l : Label} (h : w.Exclusive) (hl : w.Undisturbed (.sys l))
    (hs : w.sys l = some w') : w'.Exclusive := by
  unfold sys at hs
  split at hs
  · rename_i hidle
    obtain ⟨s', hs', rfl⟩ := Option.map_eq_some_iff.mp hs
    have hw' := h.wf.step hs'
    cases l with
    | io d' i =>
        refine ⟨hw', fun d e hm => State.quiet_io (h.quiet d e hm) hs', fun d hd => ?_⟩
        have hne : d ≠ d' := by
          rintro rfl
          rw [idle, Option.isNone_iff_eq_none] at hidle
          simp [hidle] at hd
        rw [State.running_io hne hs']
        exact h.handler d hd
    | stmtGc sid =>
        refine ⟨hw', fun d e hm => State.quiet_exchanges h.wf hs' ?_ hm, fun d hd => ?_⟩
        · rintro sid' heq
          cases heq
          exact hl
        · rw [State.running_lua h.wf rfl hs']
          exact h.handler d hd
    | _ =>
        refine ⟨hw', fun d e hm => State.quiet_exchanges h.wf hs' nofun hm, fun d hd => ?_⟩
        rw [State.running_lua h.wf rfl hs']
        exact h.handler d hd
  · cases hs

theorem exclusive_setCharacterSet (h : w.Exclusive) (hl : w.Undisturbed (.setCharacterSet d))
    (hs : w.luaSetCharacterSet d = some w') : w'.Exclusive := by
  have hsettle : ∀ r, State.method (w.state.db d).handle
      (w.state.getDatabaseFromStack d true (.ok w.state)) = some r →
      ∃ f, w.state.settle r = { w.state with fault := f } := by
    intro r hr
    have hret : r = .ok w.state ∨ r = .error (.databaseGone d) := by
      unfold State.method State.getDatabaseFromStack State.access at hr
      grind
    obtain rfl | rfl := hret
    · exact ⟨_, rfl⟩
    · exact ⟨_, rfl⟩
  unfold luaSetCharacterSet at hs
  split at hs
  · obtain ⟨r, hr, rfl⟩ := Option.map_eq_some_iff.mp hs
    obtain ⟨f, hf⟩ := hsettle r hr
    refine ⟨?_, fun d' e hm => ?_, fun d' hd' => ?_⟩
    · simp only [hf]
      exact ⟨h.wf.lifecycle.faulted f, h.wf.statements.faulted f⟩
    · simp only [hf]
      simp only at hm
      split at hm
      · rename_i hc
        obtain ⟨rfl, rfl⟩ : d' = d ∧ e = .setCharacterSet := by simpa using hm
        exact hl hc.1 hc.2
      · cases hm
    · simp only [hf]
      exact h.handler d' hd'
  · cases hs

theorem exclusive_step (h : w.Exclusive) (hl : w.Undisturbed ev) (hs : w.step ev = some w') :
    w'.Exclusive := by
  unfold step at hs
  split at hs
  · cases hs
  · cases ev with
    | sys l => exact exclusive_sys h hl hs
    | setCharacterSet d => exact exclusive_setCharacterSet h hl hs
    | luaBegin =>
        simp only [action] at hs
        split at hs
        · cases hs
          exact ⟨h.wf, h.quiet, h.handler⟩
        · cases hs
    | luaEnd =>
        simp only [action] at hs
        split at hs
        · cases hs
          exact ⟨h.wf, fun d e hm => h.quiet d e (List.mem_of_mem_tail hm), h.handler⟩
        · cases hs
    | ioBegin d e =>
        simp only [action] at hs
        split at hs
        · rename_i hc
          cases hs
          refine ⟨h.wf, h.quiet, fun d' hd' => ?_⟩
          by_cases hd : d' = d
          · subst hd
            obtain ⟨-, task, htask, -⟩ := hc
            exact Option.isSome_of_mem htask
          · exact h.handler d' (by simpa [hd] using hd')
        · cases hs
    | ioEnd d =>
        simp only [action] at hs
        split at hs
        · cases hs
          refine ⟨h.wf, h.quiet, fun d' hd' => ?_⟩
          by_cases hd : d' = d
          · subst hd
            simp at hd'
          · exact h.handler d' (by simpa [hd] using hd')
        · cases hs

/-- No exchange begins on a connection where one is in progress. -/
theorem not_inProgress (h : w.Exclusive) (hs : w.step ev = some w') (hb : w.Begins d ev) :
    ¬ w.InProgress d := by
  have hquiet : ∀ e, w.lua.head? = some (d, e) → (w.state.db d).running = none := fun e he =>
    (h.quiet d e (List.mem_of_head? he)).1
  unfold step at hs
  split at hs
  · cases hs
  · cases ev with
    | luaBegin =>
        obtain ⟨e, he⟩ := hb
        simp only [action] at hs
        split at hs
        · rename_i hc
          rintro (⟨hbegun, -⟩ | hio)
          · rw [hc.2] at hbegun
            cases hbegun
          · have := h.handler d hio
            simp [hquiet e he] at this
        · cases hs
    | ioBegin d' e =>
        obtain rfl : d' = d := hb
        simp only [action] at hs
        split at hs
        · rename_i hc
          obtain ⟨hio, task, htask, -⟩ := hc
          rintro (⟨-, e', he'⟩ | hio')
          · rw [hquiet e' he'] at htask
            cases htask
          · simp [hio] at hio'
        · cases hs
    | _ => cases hb

/-- **One command at a time.** In a run where the Lua thread uses a
connection itself only while no handler of the database runs or will run,
no exchange begins on a connection while another one is in progress. -/
theorem one_command {tr : List Event} {l : Event} (tr' : List Event) {w₁ w₂ : Wire}
    (hG : Transition.Along step Undisturbed init (tr ++ l :: tr'))
    (h : Transition.exec step init tr = some w₁) (hs : w₁.step l = some w₂) (hb : w₁.Begins d l) :
    ¬ w₁.InProgress d :=
  not_inProgress (Transition.exec_inv (fun _ _ _ hI hl hs => exclusive_step hI hl hs) exclusive_init
    hG.left h) hs hb

/-- `SetCharacterSet` during a query, and a finalizer between two handlers. -/
theorem one_command_fails :
    (∃ w, Transition.exec step init
        [.sys (.connect false false .connected), .sys .cpp, .sys (.query 0 true),
          .sys (.io 0 .take), .ioBegin 0 .realQuery, .setCharacterSet 0] = some w ∧
      (w.step .luaBegin).isSome ∧ w.Begins 0 .luaBegin ∧ w.InProgress 0) ∧
    ∃ w, Transition.exec step init
        [.sys (.connect false false .connected), .sys .cpp, .sys (.prepare 0 [1]),
          .sys (.io 0 .take), .sys (.io 0 (.finish true)), .sys .cpp, .sys (.query 0 true),
          .sys (.stmtGc 0), .luaBegin, .sys (.io 0 .take)] = some w ∧
      (w.step (.ioBegin 0 .realQuery)).isSome ∧ w.Begins 0 (.ioBegin 0 .realQuery) ∧
        w.InProgress 0 := by
  constructor
  · obtain ⟨w, hs, hw⟩ := Option.map_eq_some_iff.mp (show (Transition.exec step init
        [.sys (.connect false false .connected), .sys .cpp, .sys (.query 0 true),
          .sys (.io 0 .take), .ioBegin 0 .realQuery, .setCharacterSet 0]).map
          (fun w => (w.lua, w.io 0, (w.step .luaBegin).isSome)) =
        some ([(0, .setCharacterSet)], some .realQuery, true) by decide)
    simp only [Prod.mk.injEq] at hw
    exact ⟨w, hs, hw.2.2, ⟨.setCharacterSet, by rw [hw.1]; rfl⟩, .inr (by rw [hw.2.1]; rfl)⟩
  · obtain ⟨w, hs, hw⟩ := Option.map_eq_some_iff.mp (show (Transition.exec step init
        [.sys (.connect false false .connected), .sys .cpp, .sys (.prepare 0 [1]),
          .sys (.io 0 .take), .sys (.io 0 (.finish true)), .sys .cpp, .sys (.query 0 true),
          .sys (.stmtGc 0), .luaBegin, .sys (.io 0 .take)]).map
          (fun w => (w.lua, w.begun, (w.step (.ioBegin 0 .realQuery)).isSome)) =
        some ([(0, .stmtClose)], true, true) by decide)
    simp only [Prod.mk.injEq] at hw
    exact ⟨w, hs, hw.2.2, rfl, .inl ⟨hw.2.1, .stmtClose, by rw [hw.1]; rfl⟩⟩

/-- A finalizer after the queue has drained. -/
theorem one_command_drained :
    ∃ w, Transition.exec step init
        [.sys (.connect false false .connected), .sys .cpp, .sys (.prepare 0 [1]),
          .sys (.io 0 .take), .ioBegin 0 .stmtPrepare, .ioEnd 0, .sys (.io 0 (.finish true)),
            .sys .cpp, .sys (.stmtGc 0)] = some w ∧
      w.Begins 0 .luaBegin ∧ ¬ w.InProgress 0 := by
  obtain ⟨w, hs, hlua, hstep⟩ : ∃ w, Transition.exec step init
        [.sys (.connect false false .connected), .sys .cpp, .sys (.prepare 0 [1]),
          .sys (.io 0 .take), .ioBegin 0 .stmtPrepare, .ioEnd 0, .sys (.io 0 (.finish true)),
            .sys .cpp, .sys (.stmtGc 0)] = some w ∧
      w.lua = [(0, .stmtClose)] ∧ (w.step .luaBegin).isSome = true := by
    obtain ⟨w, hs, hw⟩ := Option.map_eq_some_iff.mp (show (Transition.exec step init
        [.sys (.connect false false .connected), .sys .cpp, .sys (.prepare 0 [1]),
          .sys (.io 0 .take), .ioBegin 0 .stmtPrepare, .ioEnd 0, .sys (.io 0 (.finish true)),
            .sys .cpp, .sys (.stmtGc 0)]).map
          (fun w => (w.lua, (w.step .luaBegin).isSome)) = some ([(0, .stmtClose)], true) by decide)
    exact ⟨w, hs, Prod.mk.inj hw⟩
  obtain ⟨w₂, hw₂⟩ := Option.isSome_iff_exists.mp hstep
  have hbegins : w.Begins 0 .luaBegin := ⟨.stmtClose, by rw [hlua]; rfl⟩
  exact ⟨w, hs, hbegins, one_command [] (by decide) hs hw₂ hbegins⟩

end Wire
end Tmysql4
