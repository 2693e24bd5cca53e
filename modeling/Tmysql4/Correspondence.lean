import Tmysql4.Runtime
import Tmysql4.StatementHandles
import Tmysql4.Waits

/-! # One database of a run, and its operations

A step of the module is about one database at most, and leaves the others alone (`same_step`).
`Matches` says that a `Lifetime` is one database of a run: the same connection, the same
statements under their own numbers, and the cache with what `lua_Prepare` is about to insert.
`Sequence` adds the operations that lead there, and whose handlers are those of the accepted
calls.  A step `Advances` when the operations of every database go on; a step that is not about
`d` keeps the sequence of `d`, and each kind of step about `d` has its own lemma. -/

namespace Tmysql4

open Imperative (final)
open Handler (World Lib Credentials Bind cString Lifetime Phase)

/-- Where the database is in its life. -/
def Database.phase (db : Database) : Phase :=
  if db.isConnected then if db.stopped then .stopped else .connected
  else if db.live && db.handle ≠ .null then .created else .gone

theorem Database.fire_null (db : Database) : db.fire.handle = .null ↔ db.handle = .null := by
  unfold fire
  split
  · show (if 0 < db.callback ∧ db.handle = .absent then .pointer else db.handle) = Handle.null ↔ _
    split_ifs with habsent
    · simp [habsent.2]
    · rfl
  · rfl

theorem Database.fire_phase (db : Database) : db.fire.phase = db.phase := by
  unfold phase fire
  split
  · cases db.handle <;> split_ifs <;> simp_all
  · rfl

namespace State

variable {s s' : State} {l : Label} {d d' : DbId}

/-! ### What a step leaves alone -/

/-- The statement that `lua_Prepare` is about to insert into the cache of `d`. -/
def toInsert (s : State) (d : DbId) : Option StmtId :=
  match s.stack, s.waiter with
  | .prepare d' _ :: _, some (some sid) => if d' = d then some sid else none
  | _, _ => none

theorem toInsert_of_turn (turn : s.luaTurn = true) (d : DbId) : s.toInsert d = none := by
  unfold toInsert
  split
  · rename_i top _
    exact absurd top (Statements.not_prepare_of_turn turn)
  · rfl

theorem toInsert_of_stack (hstack : ∀ d query stack, s.stack ≠ .prepare d query :: stack)
    (d : DbId) : s.toInsert d = none := by
  unfold toInsert
  split
  · rename_i top _
    exact absurd top (hstack _ _ _)
  · rfl

/-- The statements of `d` are as they were, and none has come to life. -/
structure Untouched (s s' : State) (d : DbId) : Prop where
  preparedStatements : (s'.db d).preparedStatements = (s.db d).preparedStatements
  toInsert : s'.toInsert d = s.toInsert d
  stmts : ∀ sid < s'.nextStmt, (s'.stmt sid).database = d →
    sid < s.nextStmt ∧ (s.stmt sid).database = d ∧
    (s'.stmt sid).query = (s.stmt sid).query ∧
      ((s'.stmt sid).live = true → (s.stmt sid).live = true)

/-- The step may change the statements of `d`, or create it. -/
def Touches (s : State) (l : Label) (d : DbId) : Prop :=
  match l, s.stack with
  | .create _ _, _ => d = s.nextDb
  | .connect _ _ _, _ => d = s.nextDb
  | .stmtGc sid, _ => d = (s.stmt sid).database
  | .io d' (.finish _), _ => d = d'
  | .cpp, .prepare d' _ :: _ => d = d'
  | _, _ => False

/-- Above `lua_Prepare` an io thread makes a step, or the frame itself. -/
theorem label_of_prepare {query : Bytes} {stack : List Frame} (he : s.Effect l s')
    (top : s.stack = .prepare d query :: stack) :
    l.isIo = true ∨ l = .cpp := by
  have hturn : s.luaTurn ≠ true := fun turn => Statements.not_prepare_of_turn turn top
  cases he with
  | take | reconnected | finish | created | stop => exact .inl rfl
  | stay turn => exact absurd turn hturn
  | ret stack' top' =>
      rw [top] at top'
      cases top'
  | _ => first | exact .inr rfl | grind -linarith [Calls, CallsStmt]

theorem toInsert_effect (hw : s.Wf) (he : s.Effect l s') (hd : ¬ s.Touches l d) :
    s'.toInsert d = s.toInsert d := by
  by_cases hio : l.isIo = true
  · have hstack := stack_io he hio
    cases he with
    | take | reconnected | finish | stop => simp [toInsert]
    | created d' ok query live running =>
        obtain ⟨query', stack, top, undone⟩ := creating_top hw.statements running
        have hne : d' ≠ d := fun heq => hd heq.symm
        cases ok <;> simp [toInsert, top, undone, hne]
    | stay turn => rfl
    | _ => cases hio
  · have hbefore : s.toInsert d = none := by
      unfold toInsert
      split
      · rename_i d' query stack sid top done
        obtain hio' | rfl := label_of_prepare he top
        · exact absurd hio' hio
        · refine if_neg fun heq => hd ?_
          simp [Touches, top, heq]
      · rfl
    have hafter : s'.toInsert d = none := by
      unfold toInsert
      split
      · rename_i d' query stack sid top done
        obtain ⟨-, hio'⟩ | ⟨-, -, -, -, rfl⟩ := prepare_top hw.lifecycle he top
        · exact absurd hio' hio
        · cases done
      · rfl
    rw [hbefore, hafter]

theorem untouched_effect (hw : s.Wf) (he : s.Effect l s') (hd : ¬ s.Touches l d) :
    s.Untouched s' d := by
  refine ⟨?_, toInsert_effect hw he hd, ?_⟩
  · cases he with
    | stay turn => rfl
    | poll d' calls =>
        simp
        grind -linarith [Database.fire_preparedStatements]
    | _ =>
        simp [Touches] at hd ⊢
        try grind -linarith
  · cases he with
    | stay turn => exact fun sid hsid hdb => ⟨hsid, hdb, rfl, id⟩
    | dbConnectFailed d' r calls idle failed can =>
        exact absurd can (hw.lifecycle.not_canRelease idle failed)
    | _ =>
        simp [Touches] at hd ⊢
        try grind -linarith

theorem untouched_complete (d' : DbId) (action : DatabaseAction) (s : State) :
    s.Untouched (s.complete d' action) d := by
  refine ⟨?_, ?_, ?_⟩
  · simp
    split <;> simp_all
  · simp [toInsert]
  · simp +contextual

/-- What is still to be done for the database. -/
theorem tasks_effect (hl : s.Lifecycle) (he : s.Effect l s')
    (hpost : ∀ callback, l ≠ .query d callback) (hprepare : ∀ query, l ≠ .prepare d query)
    (hrun : ∀ sid callback, l = .run sid callback → (s.stmt sid).database ≠ d) (hfinish : ∀ ok,
      l ≠ .io d (.finish ok)) (hdestroy : ∀ stack, l = .cpp → s.stack ≠ .destroy d :: stack)
    (hlt : d < s.nextDb) : (s'.db d).tasks = (s.db d).tasks := by
  have hne : d ≠ s.nextDb := Nat.ne_of_lt hlt
  cases he with
  | stay turn => rfl
  | dbConnectFailed d' r calls idle failed can => exact absurd can (hl.not_canRelease idle failed)
  | _ =>
      simp [Database.tasks] at hpost hprepare hrun hfinish hdestroy ⊢
      try grind -linarith [Database.fire_running, Database.fire_queue]

theorem phase_effect (hl : s.Lifecycle) (he : s.Effect l s') (hconnect : ∀ r, l ≠ .dbConnect d r)
    (hstop : l ≠ .io d .stop) (hrelease : ∀ stack, l = .cpp → s.stack ≠ .release d :: stack)
    (hlt : d < s.nextDb) :
    (s'.db d).phase = (s.db d).phase := by
  have hne : d ≠ s.nextDb := Nat.ne_of_lt hlt
  cases he with
  | stay turn => rfl
  | dbConnectFailed d' r calls idle failed can => exact absurd can (hl.not_canRelease idle failed)
  | poll d' calls =>
      simp
      split
      · rename_i heq
        subst heq
        exact Database.fire_phase _
      · rfl
  | destroy d' stack top live =>
      have hdestroying := hl.destroying d' (by simp [top])
      simp [Database.phase]
      grind -linarith
  | _ =>
      simp [Database.phase] at hconnect hstop hrelease ⊢
      try grind -linarith

/-- A database dies when it is destroyed. -/
theorem dbLive_effect (hl : s.Lifecycle) (he : s.Effect l s')
    (hdestroy : ∀ stack, l = .cpp → s.stack ≠ .destroy d :: stack) (hlt : d < s.nextDb) :
    (s'.db d).live = (s.db d).live := by
  have hne : d ≠ s.nextDb := Nat.ne_of_lt hlt
  cases he with
  | stay turn => rfl
  | dbConnectFailed d' r calls idle failed can => exact absurd can (hl.not_canRelease idle failed)
  | _ =>
      simp at hdestroy ⊢
      try grind -linarith [Database.fire_live]

/-- The step is about `d`. -/
def Concerns (s : State) (l : Label) (d : DbId) : Prop :=
  match l, s.stack with
  | .create _ _, _ => d = s.nextDb
  | .connect _ _ _, _ => d = s.nextDb
  | .dbConnect d' _, _ => d = d'
  | .query d' _, _ => d = d'
  | .prepare d' _, _ => d = d'
  | .run sid _, _ => d = (s.stmt sid).database
  | .stmtGc sid, _ => d = (s.stmt sid).database
  | .io d' .stop, _ => d = d'
  | .io d' (.finish _), _ => d = d'
  | .cpp, .poll d' :: _ => d = d'
  | .cpp, .wait d' :: _ => d = d'
  | .cpp, .release d' :: _ => d = d'
  | .cpp, .destroy d' :: _ => d = d'
  | .cpp, .prepare d' _ :: _ => d = d'
  | _, _ => False

/-- The database is as it was, except for its actions and its handle. -/
structure Same (s s' : State) (d : DbId) : Prop extends s.Untouched s' d where
  tasks : (s'.db d).tasks = (s.db d).tasks
  phase : (s'.db d).phase = (s.db d).phase
  live : (s'.db d).live = (s.db d).live

theorem same_effect (hw : s.Wf) (he : s.Effect l s') (hd : ¬ s.Concerns l d) (hlt : d < s.nextDb) :
    s.Same s' d := by
  have hne : d ≠ s.nextDb := Nat.ne_of_lt hlt
  refine ⟨untouched_effect hw he ?_, tasks_effect hw.lifecycle he ?_ ?_ ?_ ?_ ?_ hlt,
    phase_effect hw.lifecycle he ?_ ?_ ?_ hlt,
    dbLive_effect hw.lifecycle he ?_ hlt⟩
  · intro ht
    apply hd
    unfold Touches at ht
    unfold Concerns
    split at ht <;> simp_all
  · rintro callback rfl
    exact hd rfl
  · rintro query rfl
    exact hd rfl
  · rintro sid callback rfl rfl
    exact hd rfl
  · rintro ok rfl
    exact hd rfl
  · rintro stack rfl top
    exact hd (by simp [Concerns, top])
  · rintro r rfl
    exact hd rfl
  · rintro rfl
    exact hd rfl
  · rintro stack rfl top
    exact hd (by simp [Concerns, top])
  · rintro stack rfl top
    exact hd (by simp [Concerns, top])

theorem same_faulted (f : Option Fault) : s.Same { s with fault := f } d :=
  ⟨⟨rfl, rfl, fun _ hsid hdb => ⟨hsid, hdb, rfl, id⟩⟩, rfl, rfl, rfl⟩

theorem same_step (hw : s.Wf) (hs : s.step l = some s') (hd : ¬ s.Concerns l d)
    (hlt : d < s.nextDb) : s.Same s' d := by
  obtain ⟨-, he | ⟨f, -, rfl⟩⟩ := step_effect hs
  · exact same_effect hw he hd hlt
  · exact same_faulted _

/-! ### What holds of the state machine -/

/-- What the correspondence needs to know about the state machine. -/
structure Settled (s : State) : Prop where
  wf : s.Wf
  barrier : s.Barrier
  drained : s.Drained
  databases : ∀ sid < s.nextStmt, (s.stmt sid).database < s.nextDb
  dying : ∀ d, (s.db d).live = true → (s.db d).handle = .null →
    ∃ stack, s.stack = .destroy d :: stack

theorem settled_init : init.Settled := ⟨wf_init, barrier_init, drained_init, nofun, nofun⟩

theorem databases_effect (h : s.Settled) (he : s.Effect l s') :
    ∀ sid < s'.nextStmt, (s'.stmt sid).database < s'.nextDb := by
  intro sid hsid
  obtain hlt | ⟨d, query, live, running, rfl, rfl⟩ := created_effect he hsid
  · rw [(stmt_effect h.wf.lifecycle he hlt).2.1]
    exact Nat.lt_of_lt_of_le (h.databases sid hlt) (nextDb_effect he)
  · simpa using h.wf.lifecycle.lt_of_live live

/-- A released database is destroyed next. -/
theorem dying_effect (h : s.Settled) (he : s.Effect l s') (d : DbId) (live : (s'.db d).live = true)
    (hnull : (s'.db d).handle = .null) : ∃ stack, s'.stack = .destroy d :: stack := by
  have hk := h.dying d
  have hturn : s.luaTurn = true → ∀ stack, s.stack ≠ .destroy d :: stack := by
    intro turn stack top
    simp [luaTurn, top] at turn
  cases he with
  | stay turn => exact hk live hnull
  | dbConnectFailed d r calls idle failed can =>
      exact absurd can (h.wf.lifecycle.not_canRelease idle failed)
  | release d' stack top can =>
      by_cases hd : d = d'
      · subst hd
        exact ⟨stack, by simp⟩
      · simp [hd] at live hnull
        obtain ⟨stack', top'⟩ := hk live hnull
        rw [top] at top'
        cases top'
  | connected callback junk turn =>
      by_cases hd : d = s.nextDb
      · subst hd
        simp [Database.fire_null, Database.construct] at hnull
      · simp [hd] at live hnull
        obtain ⟨stack, top⟩ := hk live hnull
        exact absurd top (hturn turn stack)
  | poll d' calls =>
      obtain ⟨stack, top⟩ : ∃ stack, s.stack = .destroy d :: stack := by
        by_cases hd : d = d'
        · subst hd
          simp [Database.fire_null, calls.handle] at hnull
        · simp [hd] at live hnull
          exact hk live hnull
      exact absurd top (hturn calls.turn stack)
  | _ =>
      simp at live hnull ⊢
      grind -linarith [Calls, CallsStmt, Database.construct]

theorem settled_step (h : s.Settled) (hs : s.step l = some s') : s'.Settled := by
  obtain ⟨-, he | ⟨f, -, rfl⟩⟩ := step_effect hs
  · exact ⟨h.wf.step hs, barrier_step h.barrier h.wf he, drained_step h.drained h.wf he,
      databases_effect h he, dying_effect h he⟩
  · exact ⟨h.wf.step hs, h.barrier.faulted _, h.drained.faulted _, h.databases, h.dying⟩

end State

/-! ### The correspondence -/

/-- The handler of a task, with its data. -/
inductive Task.Bound : Task → Handler.Task → Prop where
  | runQuery (action : DatabaseAction) {query : Bytes} (hquery : cString query = query) :
      Bound (.runQuery action) (.runQuery action query)
  | runStatement (sid : StmtId) (action : DatabaseAction) (s : StmtId) (binds : List Bind) :
      Bound (.runStatement sid action) (.runStatement s binds action)
  | createStatement {query : Bytes} (hquery : cString query = query) :
      Bound (.createStatement query) (.createStatement query)

/-- The handler that an operation runs for a call of `Query` or `Run`. -/
def Handler.Lifetime.Operation.task : Lifetime.Operation → Option Handler.Task
  | .query _ action text => some (.runQuery action (cString text))
  | .run _ s binds action => some (.runStatement s binds action)
  | _ => none

namespace Runtime

variable {lib : Lib} {x x' : Runtime} {d d' : DbId} {y y' : Lifetime}
  {ops more : List Lifetime.Operation}

/-- The world of `d` with the statement that `lua_Prepare` is about to insert. -/
def view (x : Runtime) (d : DbId) : World :=
  match x.state.toInsert d with
  | none => x.world d
  | some sid => (x.world d).register (x.object sid)

/-- `y` is the database `d` of `x`. -/
structure Matches (x : Runtime) (d : DbId) (y : Lifetime) : Prop where
  world : y.world = x.view d
  phase : y.phase = (x.state.db d).phase
  tasks : List.Forall₂ Task.Bound (x.state.db d).tasks (x.handlers d)
  runs : ∀ s binds action, .runStatement s binds action ∈ x.handlers d → s ∈ y.prepared.map Prod.snd
  cache : y.phase ≠ .gone → ∀ query, (x.world d).preparedStatements.lookup query =
    ((x.state.db d).preparedStatements.lookup query).map x.object
  known : ∀ sid < x.state.nextStmt, (x.state.stmt sid).database = d →
    x.object sid ∈ y.prepared.map Prod.snd ∧
    x.object sid < (x.world d).nextStmt ∧ ((x.world d).stmt (x.object sid)).query =
      (x.state.stmt sid).query
  live : y.phase ≠ .gone → ∀ sid < x.state.nextStmt, (x.state.stmt sid).database = d →
    (x.state.stmt sid).live = true → x.object sid ∈ y.live
  inj : ∀ sid < x.state.nextStmt, ∀ sid' < x.state.nextStmt, (x.state.stmt sid).database = d →
    (x.state.stmt sid').database = d → x.object sid = x.object sid' → sid = sid'

/-- The operations `ops` lead to `y`, which is the database `d` of `x`; their handlers are those
of the accepted calls, up to the ones that still wait or have been dropped with the database. -/
structure Sequence (lib : Lib) (x : Runtime) (d : DbId) (ops : List Lifetime.Operation)
    (y : Lifetime) : Prop extends x.Matches d y where
  run : Transition.exec (Lifetime.step lib) (Lifetime.create (x.credentials d)) ops = some y
  posted : ∃ dropped, ops.filterMap Lifetime.Operation.task ++
    (x.handlers d).filter Handler.Task.isAction ++ dropped =
    x.posted d ∧ ((x.state.db d).live = true → dropped = [])

theorem view_of_none (h : x.state.toInsert d = none) : x.view d = x.world d := by
  unfold view
  rw [h]

/-- The entries of a cache have been created. -/
theorem lt_of_cached (hw : x.state.Wf) (hphase : (x.state.db d).phase ≠ .gone) {query : Bytes}
    {sid : StmtId} (h : (x.state.db d).preparedStatements.lookup query = some sid) :
    sid < x.state.nextStmt := by
  have hm := State.mem_of_lookup h
  cases hc : (x.state.db d).isConnected with
  | true => exact hw.statements.lt_of_live ((hw.statements.cached d hc).live _ hm)
  | false =>
      have hnull : (x.state.db d).handle ≠ .null := by
        intro hnull
        simp [Database.phase, hc, hnull] at hphase
      rw [hw.statements.unconnected d hc hnull] at hm
      cases hm

theorem lt_of_toInsert (hw : x.state.Wf) {sid : StmtId} (h : x.state.toInsert d = some sid) :
    sid < x.state.nextStmt := by
  unfold State.toInsert at h
  split at h
  · rename_i d' query stack sid' top done
    obtain ⟨rfl, heq⟩ := Option.ite_none_right_eq_some.mp h
    cases heq
    have hcreated := (hw.statements.waiting _ query stack top).created sid done
    exact hw.statements.lt_of_live (by rw [hcreated])
  · cases h

/-- The statements of `w` and its cache are there. -/
structure Extends (w w' : World) : Prop where
  nextStmt : w.nextStmt ≤ w'.nextStmt
  preparedStatements : w'.preparedStatements = w.preparedStatements
  query : ∀ s < w.nextStmt, (w'.stmt s).query = (w.stmt s).query

theorem Extends.refl (w : World) : Extends w w := ⟨Nat.le_refl _, rfl, fun _ _ => rfl⟩

theorem Extends.of_kept {w w' : World} (h : Handler.Kept w w') : Extends w w' :=
  ⟨Nat.le_of_eq h.nextStmt.symm, h.preparedStatements, fun s _ => h.query s⟩

/-- A step that creates no statement of `d` and finalizes none. -/
theorem Matches.update (h : x.Matches d y) (hw : x.state.Wf) (hu : x.state.Untouched x'.state d)
    (hextends : Extends (x.world d) (x'.world d))
    (hobject : ∀ sid < x.state.nextStmt, x'.object sid = x.object sid) (hworld : y'.world = x'.view
      d) (hphase : y'.phase = (x'.state.db d).phase) (hgone : y.phase = .gone → y'.phase = .gone)
    (hprepared : y'.prepared = y.prepared) (hlive : y'.phase ≠ .gone → y'.live = y.live)
    (htasks : List.Forall₂ Task.Bound (x'.state.db d).tasks (x'.handlers d))
    (hruns : ∀ s binds action, .runStatement s binds action ∈ x'.handlers d →
      .runStatement s binds action ∈ x.handlers d ∨ s ∈ y.prepared.map Prod.snd) : x'.Matches d
        y' := by
  refine ⟨hworld, hphase, htasks, fun s binds action hmem => ?_, fun hphase' query => ?_,
    fun sid hsid hdb => ?_, fun hphase' sid hsid hdb hlive' => ?_,
      fun sid hsid sid' hsid' hdb hdb' heq => ?_⟩
  · rw [hprepared]
    exact (hruns s binds action hmem).elim (h.runs s binds action) id
  · have hphase₀ : y.phase ≠ .gone := fun heq => hphase' (hgone heq)
    rw [hextends.preparedStatements, hu.preparedStatements, h.cache hphase₀ query]
    exact Option.map_congr fun sid hsid =>
      (hobject sid (lt_of_cached hw (h.phase ▸ hphase₀) hsid)).symm
  · obtain ⟨hlt, hdb, hquery, -⟩ := hu.stmts sid hsid hdb
    obtain ⟨hmem, hnext, hsame⟩ := h.known sid hlt hdb
    rw [hobject sid hlt, hprepared]
    refine ⟨hmem, Nat.lt_of_lt_of_le hnext hextends.nextStmt, ?_⟩
    rw [hextends.query _ hnext, hsame, hquery]
  · obtain ⟨hlt, hdb, -, hwas⟩ := hu.stmts sid hsid hdb
    rw [hobject sid hlt, hlive hphase']
    exact h.live (fun heq => hphase' (hgone heq)) sid hlt hdb (hwas hlive')
  · obtain ⟨hlt, hdb, -, -⟩ := hu.stmts sid hsid hdb
    obtain ⟨hlt', hdb', -, -⟩ := hu.stmts sid' hsid' hdb'
    rw [hobject sid hlt, hobject sid' hlt'] at heq
    exact h.inj sid hlt sid' hlt' hdb hdb' heq

/-- The view of a world that is left alone. -/
theorem view_untouched (x' : Runtime) (hw : x.state.Wf) (hu : x.state.Untouched x'.state d)
    (hworld : x'.world d = x.world d) (hobject : ∀ sid < x.state.nextStmt,
      x'.object sid = x.object sid) : x'.view d = x.view d := by
  unfold view
  rw [hu.toInsert, hworld]
  cases hinsert : x.state.toInsert d with
  | none => rfl
  | some sid =>
      show (x.world d).register (x'.object sid) = (x.world d).register (x.object sid)
      rw [hobject sid (lt_of_toInsert hw hinsert)]

theorem Sequence.update (h : x.Sequence lib d ops y)
    (hrun : Transition.exec (Lifetime.step lib) y more = some y') (hmatches : x'.Matches d y')
    (hcredentials : x'.credentials d = x.credentials d)
    (hposted : ∃ new dropped, x'.posted d = x.posted d ++ new ∧
      more.filterMap Lifetime.Operation.task ++ (x'.handlers d).filter Handler.Task.isAction ++
        dropped =
        (x.handlers d).filter Handler.Task.isAction ++ new ∧
          ((x'.state.db d).live = true → dropped = []))
    (hlive : (x.state.db d).live = true) : x'.Sequence lib d (ops ++ more) y' := by
  refine ⟨hmatches, ?_, ?_⟩
  · rw [hcredentials]
    exact Transition.exec_append_iff.mpr ⟨y, h.run, hrun⟩
  · obtain ⟨new, dropped, hnew, heq, hdropped⟩ := hposted
    obtain ⟨dropped₀, hposted, hnil⟩ := h.posted
    refine ⟨dropped, ?_, hdropped⟩
    rw [hnil hlive, List.append_nil] at hposted
    rw [List.filterMap_append, hnew, ← hposted, List.append_assoc, List.append_assoc,
      List.append_assoc, ← heq, List.append_assoc]

/-- The data of `d` is as it was. -/
structure SameData (x x' : Runtime) (d : DbId) : Prop where
  world : x'.world d = x.world d
  handlers : x'.handlers d = x.handlers d
  posted : x'.posted d = x.posted d
  credentials : x'.credentials d = x.credentials d
  object : ∀ sid < x.state.nextStmt, x'.object sid = x.object sid

theorem Sequence.same (h : x.Sequence lib d ops y) (hw : x.state.Wf) (hs : x.state.Same x'.state d)
    (hdata : x.SameData x' d) :
    x'.Sequence lib d (ops ++ []) y := by
  rw [List.append_nil]
  have hview := view_untouched x' hw hs.toUntouched hdata.world hdata.object
  refine ⟨h.toMatches.update hw hs.toUntouched ?_ hdata.object (h.world.trans hview.symm)
    (h.phase.trans hs.phase.symm) id rfl (fun _ => rfl) ?_ ?_, ?_, ?_⟩
  · rw [hdata.world]
    exact .refl _
  · rw [hs.tasks, hdata.handlers]
    exact h.tasks
  · rw [hdata.handlers]
    exact fun _ _ _ hmem => .inl hmem
  · rw [hdata.credentials]
    exact h.run
  · rw [hdata.handlers, hdata.posted, hs.live]
    exact h.posted

/-- Every database of the run has a sequence of operations. -/
def Sequential (lib : Lib) (x : Runtime) : Prop :=
  ∀ d < x.state.nextDb, ∃ ops y, x.Sequence lib d ops y

/-- The step from `x` to `x'` is simulated by operations: the sequences of `x` go on, and new
databases have one. -/
structure Advances (lib : Lib) (x x' : Runtime) : Prop where
  nextDb : x.state.nextDb ≤ x'.state.nextDb
  simulated : ∀ d < x.state.nextDb, ∀ ops y, x.Sequence lib d ops y →
    ∃ more y', x'.Sequence lib d (ops ++ more) y'
  created : ∀ d < x'.state.nextDb, x.state.nextDb ≤ d → ∃ ops y, x'.Sequence lib d ops y

theorem Sequential.advances (h : x.Sequential lib) (ha : x.Advances lib x') :
    x'.Sequential lib := by
  intro d hd
  by_cases hlt : d < x.state.nextDb
  · obtain ⟨ops, y, hseq⟩ := h d hlt
    obtain ⟨more, y', hseq'⟩ := ha.simulated d hlt ops y hseq
    exact ⟨_, y', hseq'⟩
  · exact ha.created d hd (Nat.le_of_not_lt hlt)

theorem Advances.refl (lib : Lib) (x : Runtime) : x.Advances lib x := by
  refine ⟨Nat.le_refl _, fun d _ ops y hseq => ⟨[], y, ?_⟩,
    fun d hd hge => absurd hd (Nat.not_lt_of_le hge)⟩
  rw [List.append_nil]
  exact hseq

theorem Advances.trans {x'' : Runtime} (h : x.Advances lib x') (h' : x'.Advances lib x'') :
    x.Advances lib x'' := by
  refine ⟨Nat.le_trans h.nextDb h'.nextDb, fun d hd ops y hseq => ?_, fun d hd hge => ?_⟩
  · obtain ⟨more, y', hseq'⟩ := h.simulated d hd ops y hseq
    obtain ⟨more', y'', hseq''⟩ := h'.simulated d (Nat.lt_of_lt_of_le hd h.nextDb) _ y' hseq'
    rw [List.append_assoc] at hseq''
    exact ⟨more ++ more', y'', hseq''⟩
  · by_cases hlt : d < x'.state.nextDb
    · obtain ⟨ops, y, hseq⟩ := h.created d hlt hge
      obtain ⟨more, y', hseq'⟩ := h'.simulated d hlt ops y hseq
      exact ⟨_, y', hseq'⟩
    · exact h'.created d hd (Nat.le_of_not_lt hlt)

/-- A step without a new database. -/
theorem Advances.of_nextDb (hnext : x'.state.nextDb = x.state.nextDb)
    (h : ∀ d < x.state.nextDb, ∀ ops y, x.Sequence lib d ops y →
      ∃ more y', x'.Sequence lib d (ops ++ more) y') :
    x.Advances lib x' := by
  refine ⟨Nat.le_of_eq hnext.symm, h, fun d hd hge => ?_⟩
  rw [hnext] at hd
  exact absurd hd (Nat.not_lt_of_le hge)

theorem Advances.same (hw : x.state.Wf) (hnext : x'.state.nextDb = x.state.nextDb)
    (hs : ∀ d, x.state.Same x'.state d) (hdata : ∀ d, x.SameData x' d) : x.Advances lib x' :=
  .of_nextDb hnext fun d _ _ y hseq => ⟨[], y, hseq.same hw (hs d) (hdata d)⟩

/-- A step about the database `d` alone. -/
theorem Advances.step (hw : x.state.Wf) {l : Label} (hs : x.state.step l = some x'.state)
    (hnext : x'.state.nextDb = x.state.nextDb) (hconcerns : ∀ d', d' ≠ d → ¬ x.state.Concerns l d')
    (hdata : ∀ d', d' ≠ d → x.SameData x' d')
    (hd : ∀ ops y, x.Sequence lib d ops y → d < x.state.nextDb →
      ∃ more y', x'.Sequence lib d (ops ++ more) y') :
    x.Advances lib x' := by
  refine .of_nextDb hnext fun d' hlt ops y hseq => ?_
  by_cases heq : d' = d
  · subst heq
    exact hd ops y hseq hlt
  · exact ⟨[], y, hseq.same hw (State.same_step hw hs (hconcerns d' heq) hlt) (hdata d' heq)⟩

end Runtime
end Tmysql4
