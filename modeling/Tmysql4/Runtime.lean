import Tmysql4.Operations
import Tmysql4.System

/-! # The module with its data

`State` says which thread makes which step, and a `Lifetime` what the operations
on one database do when each of them runs to its end.  A `Runtime` is both at
once: a step of the state machine together with what it does to the connections.
A posted handler waits with the data that was bound to it, and it works when it
ends; what the Lua thread does to a connection, it does in the step itself.  Where
a label of the state machine leaves an outcome open, the connection decides it.

`lua_SetOption` and `lua_SetCharacterSet` use the connection at once, also while a handler is
inside it.  Such a call is no step here: the two are called only when the database is
`Undisturbed`, and what is said of all runs is said of the runs that keep to this.

`posted` and `credentials` are ghost: the handlers of the accepted `Query` and `Run` calls, and
what each database was created with. -/

namespace Tmysql4

open Imperative (final)
open Handler (World Lib Credentials Bind cString)

structure Runtime where
  state : State
  world : DbId → World
  /-- The number that a statement has in the world of its database. -/
  object : StmtId → StmtId
  /-- What `CreateStatement` has left for the `lua_Prepare` that waits for it. -/
  waiter : Option Handler.Waiter
  /-- The handlers of the tasks, the running one first. -/
  handlers : DbId → List Handler.Task
  posted : DbId → List Handler.Task
  credentials : DbId → Credentials

/-- The steps with their data; `other` is a step of the state machine that needs none. -/
inductive Call where
  | create (c : Credentials) (callback junk : Bool)
  | connect (c : Credentials) (callback junk initFails : Bool)
  | dbConnect (d : DbId) (initFails : Bool)
  | setOption (d : DbId)
  | setCharacterSet (d : DbId) (charset : Bytes)
  | query (d : DbId) (query : Bytes) (callback : Bool)
  | prepare (d : DbId) (query : Bytes)
  | run (sid : StmtId) (binds : List Bind) (callback : Bool)
  | finish (d : DbId) (fuel : ℕ)
  | other (l : Label)

/-- The labels without data. -/
def Label.isPlain : Label → Bool
  | .create _ _ => false
  | .connect _ _ _ => false
  | .dbConnect _ _ => false
  | .query _ _ => false
  | .prepare _ _ => false
  | .run _ _ => false
  | .io _ (.finish _) => false
  | _ => true

/-- The handler of a `Query` or `Run` call. -/
def Handler.Task.isAction (t : Handler.Task) : Bool := t.action.isSome

/-- `m_preparedStatements.emplace`. -/
def Handler.World.register (w : World) (s : StmtId) : World :=
  { w with preparedStatements := Handler.mapInsert (w.stmt s).query s w.preparedStatements }

namespace Runtime

def init : Runtime where
  state := .init
  world _ := .opened ⟨[], [], [], [], 0, [], 0⟩
  object _ := 0
  waiter := none
  handlers _ := []
  posted _ := []
  credentials _ := ⟨[], [], [], [], 0, [], 0⟩

variable (lib : Lib) (x : Runtime) (d : DbId)

/-- A step of the state machine that leaves the data alone. -/
def control (l : Label) : Option Runtime := (x.state.step l).map fun s => { x with state := s }

/-- The database `d` has been constructed. -/
def construct (c : Credentials) (w : World) : Runtime :=
  { x with
    world := Function.update x.world d w
    handlers := Function.update x.handlers d []
    posted := Function.update x.posted d []
    credentials := Function.update x.credentials d c }

def modifyWorld (f : World → World) : Runtime :=
  { x with world := Function.update x.world d (f (x.world d)) }

/-- `asio::post`, with the bound arguments. -/
def post (t : Handler.Task) : Runtime :=
  { x with
    handlers := Function.update x.handlers d (x.handlers d ++ [t])
    posted := Function.update x.posted d (if t.isAction then x.posted d ++ [t] else x.posted d) }

/-- `Database::Initialize`: the outcome and what is left. -/
def databaseInitialize (initFails : Bool) (w : World) : Option (ConnectResult × World) :=
  if initFails then some (.outOfMemory, w)
  else
    match (Handler.connect lib false).run w with
    | .ok none w => some (.connected, w)
    | .ok (some _) w => some (.refused, w)
    | .error _ _ => none

/-- A method of `d` is called while its io thread is idle;
the source does not check the last part. -/
def Undisturbed : Prop :=
  x.state.fault = none ∧ x.state.luaTurn = true ∧ (x.state.db d).handle = .pointer ∧
    (x.state.db d).live = true ∧ (x.state.db d).running = none

instance : Decidable (x.Undisturbed d) := inferInstanceAs (Decidable (_ ∧ _))

/-- What the Lua thread does to the connections in the step `l`, which leads from `x` to `y`. -/
def touch (l : Label) (y : Runtime) : Runtime :=
  match l, x.state.stack with
  | .stmtGc sid, _ =>
      if (y.state.stmt sid).live = (x.state.stmt sid).live then y
      else y.modifyWorld (x.state.stmt sid).database fun w => w.release (x.object sid)
  | .cpp, .poll d :: _ => y.modifyWorld d fun w => { w with completedActions := [] }
  | .cpp, .wait d :: _ => y.modifyWorld d fun w => { w with completedActions := [] }
  | .cpp, .release d :: _ => y.modifyWorld d fun w => w.closeAll w.preparedStatements
  | .cpp, .destroy d :: _ => { y with handlers := Function.update y.handlers d [] }
  | .cpp, .prepare d _ :: _ =>
      match x.state.waiter with
      | some (some sid) => y.modifyWorld d fun w => w.register (x.object sid)
      | _ => y
  | _, _ => y

/-- The running handler `t` works, with `rest` behind it. -/
def work (fuel : ℕ) (rest : List Handler.Task) : Handler.Task → Option Runtime
  | .createStatement query =>
      match (Handler.createStatement lib query).run (x.world d).waiting with
      | .error _ _ => none
      | .ok () w =>
          let y := { x.modifyWorld d fun _ => { w with waiter := none } with
            handlers := Function.update x.handlers d rest
            waiter := w.waiter }
          match w.waiter.bind (·.stmt) with
          | none => y.control (.io d (.finish false))
          | some n =>
              ({ y with object := Function.update x.object x.state.nextStmt n }).control
                (.io d (.finish true))
  | t =>
      match (Handler.handle lib fuel t).run (x.world d) with
      | .error _ _ => none
      | .ok () w =>
          ({ x.modifyWorld d fun _ => w with
            handlers := Function.update x.handlers d rest }).control (.io d (.finish true))

/-- After a fault the data is left as it was. -/
def settle (y : Runtime) : Runtime :=
  if y.state.fault.isSome then { x with state := y.state } else y

def step : Call → Option Runtime
  | .create c callback junk =>
      (x.control (.create callback junk)).map fun y =>
        y.construct x.state.nextDb c (.opened c.stored)
  | .connect c callback junk initFails =>
      (databaseInitialize lib initFails (.opened c.stored)).bind fun (result, w) =>
        (x.control (.connect callback junk result)).map fun y => y.construct x.state.nextDb c w
  | .dbConnect d initFails =>
      if (x.state.db d).isConnected then x.control (.dbConnect d .connected)
      else (databaseInitialize lib initFails (x.world d)).bind fun (result, w) =>
        (x.control (.dbConnect d result)).map fun y =>
          if (y.state.db d).isConnected then y.modifyWorld d fun _ => w else y
  | .setOption d =>
      if x.Undisturbed d then
        some (x.modifyWorld d fun w => final ((Handler.mysqlOptions lib).run w))
      else none
  | .setCharacterSet d charset =>
      if x.Undisturbed d ∧ (x.state.db d).isConnected then
        some (x.modifyWorld d fun w => final ((Handler.setCharacterSet lib charset).run w))
      else none
  | .query d query callback =>
      (x.control (.query d callback)).map fun y =>
        if y.state.nextAction = x.state.nextAction then y
        else y.post d (.runQuery ⟨x.state.nextAction, callback⟩ (cString query))
  | .prepare d query =>
      (x.control (.prepare d (cString query))).map fun y =>
        if y.state.stack = x.state.stack then y else y.post d (.createStatement (cString query))
  | .run sid binds callback =>
      (x.control (.run sid callback)).map fun y =>
        if y.state.nextAction = x.state.nextAction then y
        else y.post (x.state.stmt sid).database
          (.runStatement (x.object sid) binds ⟨x.state.nextAction, callback⟩)
  | .finish d fuel =>
      match x.handlers d with
      | [] => none
      | t :: rest => (x.work lib d fuel rest t).map x.settle
  | .other l =>
      if l.isPlain then (x.control l).map fun y => x.settle (x.touch l y) else none

end Runtime
end Tmysql4
