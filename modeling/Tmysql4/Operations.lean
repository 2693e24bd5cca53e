import Tmysql4.CStrings
import Tmysql4.Options
import Tmysql4.Persistence
import Tmysql4.Transition

/-! # The operations on one database

A `Lifetime` is a database from its creation to `Disconnect`, with its statements.  Its handlers
run to their end one after the other, between the operations of the script; `stop` is `Disconnect`
up to the end of the io thread, and `close` is the rest of it, so that the callbacks that
`Disconnect` dispatches are operations between the two.

`prepared` is ghost: what the calls of `Prepare` have
returned, with the string that the script passed. -/

namespace Tmysql4.Handler

open Imperative

/-! ### The methods -/

/-- What the constructor of `Database` copies into its fields. -/
def Credentials.stored (c : Credentials) : Credentials :=
  { c with
    host := CStrings.copy 0 253 c.host
    user := CStrings.copy 0 32 c.user
    pass := CStrings.copy 0 32 c.pass
    db := CStrings.copy 0 64 c.db
    socket := CStrings.copy 0 107 c.socket }

inductive Phase where
  | created
  | connected
  | stopped
  | gone
deriving DecidableEq

structure Lifetime where
  phase : Phase
  world : World
  live : List StmtId
  prepared : List (Bytes × StmtId)

variable (lib : Lib)

/-- `statementCreateWaiter` before the task has run. -/
def World.waiting (w : World) : World := { w with waiter := some ⟨none, false, 0, []⟩ }

/-- `Database::lua_Prepare`: the cached statement, or one that the io thread creates; without the
io thread the wait for it does not end. -/
def luaPrepare (running : Bool) (query : Bytes) (w : World) : Option (Option StmtId × World) :=
  match w.preparedStatements.lookup (cString query) with
  | some s => some (some s, w)
  | none =>
      if running then
        match (createStatement lib (cString query)).run w.waiting with
        | .error _ _ => none
        | .ok () w =>
            match w.waiter.bind (·.stmt) with
            | none => some (none, { w with waiter := none })
            | some s => some (some s, { w with
                waiter := none
                preparedStatements := mapInsert (w.stmt s).query s w.preparedStatements })
      else none

/-- The destructors of these statements. -/
def World.closeAll (w : World) (entries : List (Bytes × StmtId)) : World :=
  entries.foldl (fun w entry => w.closing (w.stmt entry.2).stmt) w

/-- `Database::Initialize`: the error, and what is left; a
database that cannot be initialised is deleted. -/
def Lifetime.initialize (initFails : Bool) (x : Lifetime) : Option (Option Bytes × Lifetime) :=
  if initFails then some (some outOfMemory, { x with phase := .gone })
  else
    match (Handler.connect lib false).run x.world with
    | .ok none w => some (none, { x with phase := .connected, world := w })
    | .ok (some error) w => some (some error, { x with phase := .gone, world := w })
    | .error _ _ => none

namespace Lifetime

/-- `Database::Database`. -/
def create (c : Credentials) : Lifetime := ⟨.created, .opened c.stored, [], []⟩

/-- A handler runs. -/
def handler (fuel : ℕ) (t : Task) (x : Lifetime) : Option Lifetime :=
  (Handler.step lib x.world (.task fuel t)).map fun w => { x with world := w }

/-- What a call of `Prepare` returned. -/
def returned (query : Bytes) (x : Lifetime) : Option StmtId × World → Lifetime
  | (none, w) => { x with world := w }
  | (some s, w) =>
      { x with world := w, live := List.insert s x.live, prepared := (query, s) :: x.prepared }

inductive Operation where
  | setOption
  | connect (initFails : Bool)
  | setCharacterSet (charset : Bytes)
  | query (fuel : ℕ) (action : DatabaseAction) (query : Bytes)
  | prepare (query : Bytes)
  | run (fuel : ℕ) (s : StmtId) (binds : List Bind) (action : DatabaseAction)
  | poll
  | release (s : StmtId)
  | stop
  | close

/-- `IsConnected`. -/
def isConnected (x : Lifetime) : Prop := x.phase = .connected ∨ x.phase = .stopped

instance (x : Lifetime) : Decidable x.isConnected := inferInstanceAs (Decidable (_ ∨ _))

def step (x : Lifetime) : Operation → Option Lifetime
  | .setOption =>
      if x.phase = .gone then none
      else some { x with world := final ((mysqlOptions lib).run x.world) }
  | .connect initFails =>
      if x.phase = .created then ( Lifetime.initialize lib initFails x).map Prod.snd else none
  | .setCharacterSet charset =>
      if x.isConnected then
        some { x with world := final ((Handler.setCharacterSet lib charset).run x.world) }
      else none
  | .query fuel action query =>
      if x.phase = .connected then x.handler lib fuel (.runQuery action (cString query)) else none
  | .prepare query =>
      if x.isConnected then
        (luaPrepare lib (x.phase = .connected) query x.world).map (x.returned query)
      else none
  | .run fuel s binds action =>
      if x.phase = .connected ∧ s ∈ x.prepared.map Prod.snd then
        x.handler lib fuel (.runStatement s binds action)
      else none
  | .poll =>
      if x.phase = .gone then none
      else some { x with world := { x.world with completedActions := [] } }
  | .release s =>
      if s ∈ x.live then some { x with world := x.world.release s, live := x.live.filter (· ≠ s) }
      else none
  | .stop => if x.phase = .connected then some { x with phase := .stopped } else none
  | .close =>
      if x.phase = .stopped then some { x with
        phase := .gone
        world := x.world.closeAll x.world.preparedStatements
        live := x.live.filter fun s => s ∉ x.world.preparedStatements.map Prod.snd }
      else none

variable {lib} {x x' : Lifetime}

theorem handler_eq_some {fuel : ℕ} {t : Task} (h : x.handler lib fuel t = some x') :
    ∃ w', (handle lib fuel t).run x.world = .ok () w' ∧ x' = { x with world := w' } := by
  obtain ⟨w', hw', rfl⟩ := Option.map_eq_some_iff.mp h
  simp only [Handler.step] at hw'
  split at hw'
  · rename_i hrun
    cases hw'
    exact ⟨_, hrun, rfl⟩
  · cases hw'

end Lifetime

/-! ### What the methods do -/

variable {lib} {w w' : World} {s : StmtId}

theorem ne_of_lookup_eq_none {entries : List (Bytes × StmtId)} {query : Bytes}
    (h : entries.lookup query = none) : ∀ entry ∈ entries, entry.1 ≠ query := by
  intro entry hentry heq
  have hne := List.lookup_eq_none_iff.mp h entry hentry
  rw [heq, bne_self_eq_false] at hne
  cases hne

theorem mem_of_lookup_eq_some {entries : List (Bytes × StmtId)} {query : Bytes}
    (h : entries.lookup query = some s) : (query, s) ∈ entries := by
  obtain ⟨before, behind, rfl, -⟩ := List.lookup_eq_some_iff.mp h
  exact List.mem_append_right _ List.mem_cons_self

/-- A query that is not in the cache gets an entry. -/
theorem mapInsert_perm {entries : List (Bytes × StmtId)} {query : Bytes}
    (h : entries.lookup query = none) (s : StmtId) :
    (mapInsert query s entries).Perm ((query, s) :: entries) := by
  have hne := ne_of_lookup_eq_none h
  clear h
  induction entries with
  | nil => exact List.Perm.refl _
  | cons entry entries ih =>
      have ih := ih fun entry' h => hne entry' (List.mem_cons_of_mem _ h)
      unfold mapInsert
      split
      · exact List.Perm.refl _
      · split
        · rename_i heq
          exact absurd heq.symm (hne entry List.mem_cons_self)
        · exact (ih.cons entry).trans (List.Perm.swap _ _ _)

/-- Nothing but the connection is touched when a database is initialised. -/
theorem initialize_cases {initFails : Bool} {x x' : Lifetime} {error : Option Bytes}
    (h : Lifetime.initialize lib initFails x = some (error, x')) :
    x'.live = x.live ∧ x'.prepared = x.prepared ∧
      (x'.world = x.world ∨ x'.world = final ((connect lib false).run x.world)) := by
  unfold Lifetime.initialize at h
  split at h
  · cases h
    exact ⟨rfl, rfl, .inl rfl⟩
  · split at h
    · rename_i hrun
      cases h
      exact ⟨rfl, rfl, .inr (by rw [hrun]; rfl)⟩
    · rename_i hrun
      cases h
      exact ⟨rfl, rfl, .inr (by rw [hrun]; rfl)⟩
    · cases h

/-- What `Prepare` leaves when its query is not in the cache. -/
structure Constructed (lib : Lib) (query : Bytes) (w : World) (r : Option StmtId) (w' : World) :
    Prop where
  miss : w.preparedStatements.lookup (cString query) = none
  leaves : ∃ entries, w' =
    { final ((prepare lib w.nextStmt).run (w.waiting.allocating (cString query))) with
    waiter := none
    preparedStatements := entries }
  returns : Reprepares lib w 1 ∧ r = some w.nextStmt ∧
      w'.preparedStatements = mapInsert (cString query) w.nextStmt w.preparedStatements ∨
    ¬ Reprepares lib w 1 ∧ r = none ∧ w'.preparedStatements = w.preparedStatements

theorem luaPrepare_cases {running : Bool} {query : Bytes} {r : Option StmtId}
    (h : luaPrepare lib running query w = some (r, w')) :
    (∃ s, w.preparedStatements.lookup (cString query) = some s ∧ r = some s ∧ w' = w) ∨
      Constructed lib query w r w' := by
  unfold luaPrepare at h
  cases hlookup : w.preparedStatements.lookup (cString query) with
  | some s =>
      rw [hlookup] at h
      cases h
      exact .inl ⟨s, rfl, rfl, rfl⟩
  | none =>
      obtain ⟨t, hrun, hwaiter⟩ := createStatement_run lib (cString query) w.waiting
      have hrenewed := prepare_renewed lib w.nextStmt (w.waiting.allocating (cString query))
      have hstmt : t.bind (·.stmt) = if Reprepares lib w 1 then some w.nextStmt else none :=
        hwaiter _ rfl
      have hentries : (final ((prepare lib w.nextStmt).run
          (w.waiting.allocating (cString query)))).preparedStatements =
          w.preparedStatements := hrenewed.preparedStatements
      have hquery : ((final ((prepare lib w.nextStmt).run
          (w.waiting.allocating (cString query)))).stmt w.nextStmt).query = cString query := by
        rw [hrenewed.query]
        simp [World.allocating, World.waiting]
      have hnext : w.waiting.nextStmt = w.nextStmt := rfl
      rw [hnext] at hrun
      simp only [hlookup, hrun] at h
      split at h
      · split at h
        · rename_i hnone
          cases h
          rw [hnone] at hstmt
          have hfails : ¬ Reprepares lib w 1 := fun hok => by rw [if_pos hok] at hstmt; cases hstmt
          exact .inr ⟨hlookup, ⟨_, rfl⟩, .inr ⟨hfails, rfl, hentries⟩⟩
        · rename_i s hsome
          cases h
          rw [hsome] at hstmt
          have hok : Reprepares lib w 1 := by
            by_contra hfails
            rw [if_neg hfails] at hstmt
            cases hstmt
          rw [if_pos hok] at hstmt
          obtain rfl := Option.some.inj hstmt
          refine .inr ⟨hlookup, ⟨_, rfl⟩, .inl ⟨hok, rfl, ?_⟩⟩
          simp only [hquery, hentries]
      · cases h

/-- The other statements are left alone. -/
theorem Constructed.stmt {query : Bytes} {r : Option StmtId} (h : Constructed lib query w r w') :
    w'.nextStmt = w.nextStmt + 1 ∧ (∀ t, t ≠ w.nextStmt → w'.stmt t = w.stmt t) ∧
      (w'.stmt w.nextStmt).query = cString query := by
  obtain ⟨entries, rfl⟩ := h.leaves
  have hrenewed := prepare_renewed lib w.nextStmt (w.waiting.allocating (cString query))
  refine ⟨hrenewed.nextStmt, fun t ht => ?_, ?_⟩
  · exact (hrenewed.others t ht).trans (Function.update_of_ne ht _ _)
  · rw [hrenewed.query]
    simp [World.allocating, World.waiting]

/-! ### What the handlers keep -/

/-- The statements, their queries and the cache are what they were in `w₀`. -/
structure Kept (w₀ w : World) : Prop where
  nextStmt : w.nextStmt = w₀.nextStmt
  preparedStatements : w.preparedStatements = w₀.preparedStatements
  query : ∀ s, (w.stmt s).query = (w₀.stmt s).query

theorem Kept.refl (w : World) : Kept w w := ⟨rfl, rfl, fun _ => rfl⟩

theorem Kept.trans {w₀ : World} (h : Kept w₀ w) (h' : Kept w w') : Kept w₀ w' :=
  ⟨h'.nextStmt.trans h.nextStmt, h'.preparedStatements.trans h.preparedStatements,
    fun s => (h'.query s).trans (h.query s)⟩

theorem Renewed.kept (h : Renewed lib s w w') : Kept w w' := by
  refine ⟨h.nextStmt, h.preparedStatements, fun t => ?_⟩
  by_cases ht : t = s
  · rw [ht, h.query]
  · rw [h.others t ht]

theorem kept_closing (stmt : Option HandleId) (w : World) : Kept w (w.closing stmt) := by
  cases stmt with
  | none => exact .refl w
  | some h => exact ⟨rfl, rfl, fun _ => rfl⟩

theorem kept_closeAll (w : World) (entries : List (Bytes × StmtId)) :
    Kept w (w.closeAll entries) := by
  induction entries generalizing w with
  | nil => exact .refl w
  | cons entry entries ih => exact (kept_closing _ w).trans (ih _)

theorem closing_log (stmt : Option HandleId) (w : World) :
    ∃ closes, (w.closing stmt).log = w.log ++ closes ∧ ∀ r ∈ closes, ∃ h, r = .stmtClose h := by
  cases stmt with
  | none => exact ⟨[], (List.append_nil _).symm, nofun⟩
  | some h => exact ⟨[.stmtClose h], rfl, fun r hr => ⟨h, List.mem_singleton.mp hr⟩⟩

/-- The requests since `w₀` satisfy `A`. -/
structure SendsOnly (A : Request → Prop) (w₀ w : World) : Prop extends Kept w₀ w where
  sent : ∃ new, w.log = w₀.log ++ new ∧ ∀ r ∈ new, A r

theorem SendsOnly.refl (A : Request → Prop) (w : World) : SendsOnly A w w :=
  ⟨.refl w, [], (List.append_nil _).symm, nofun⟩

theorem SendsOnly.append {A : Request → Prop} {w₀ : World} (h : SendsOnly A w₀ w)
    (hkept : Kept w w') {more : List Request} (hlog : w'.log = w.log ++ more)
    (hmore : ∀ r ∈ more, A r) : SendsOnly A w₀ w' := by
  obtain ⟨new, hnew, hA⟩ := h.sent
  refine ⟨h.toKept.trans hkept, new ++ more, by rw [hlog, hnew, List.append_assoc], fun r hr => ?_⟩
  rcases List.mem_append.mp hr with hr | hr
  · exact hA r hr
  · exact hmore r hr

/-- The requests of a handler are its executions, the preparations of the statements `P` and what
belongs to neither. -/
theorem persistent_sends {A : Request → Prop} {P : StmtId → Prop} {w₀ : World}
    (hcached : ∀ entry ∈ w₀.preparedStatements, P entry.2)
    (hquiet : ∀ r, r.executes = false → r.prepares = false → A r) (hclose : ∀ h, A (.stmtClose h))
    (hprepare : ∀ s, P s → ∀ h, A (.stmtPrepare h (w₀.stmt s).query)) :
    Persistent lib P A (SendsOnly A w₀) := by
  have hrecord : ∀ r, A r → ∀ w, SendsOnly A w₀ w →
      SendsOnly A w₀ { w with log := w.log ++ [r] } := by
    intro r hr w h
    refine h.append ⟨rfl, rfl, fun _ => rfl⟩ rfl fun r' hr' => ?_
    rw [List.mem_singleton.mp hr']
    exact hr
  have hopenable : Openable soundFns (SendsOnly A w₀) := {
    call _ _ _ h := ⟨⟨h.nextStmt, h.preparedStatements, h.query⟩, h.sent⟩
    connError _ _ h := ⟨⟨h.nextStmt, h.preparedStatements, h.query⟩, h.sent⟩
    handle _ _ _ _ h := ⟨⟨h.nextStmt, h.preparedStatements, h.query⟩, h.sent⟩
    locals _ _ _ h := ⟨⟨h.nextStmt, h.preparedStatements, h.query⟩, h.sent⟩
    frees _ _ h := ⟨⟨h.nextStmt, h.preparedStatements, h.query⟩, h.sent⟩
    waiter _ _ h := ⟨⟨h.nextStmt, h.preparedStatements, h.query⟩, h.sent⟩
    isPendingCallback _ _ h := ⟨⟨h.nextStmt, h.preparedStatements, h.query⟩, h.sent⟩
    opens := by decide
    quiet r he hp w h := hrecord r (hquiet r he hp) w h
    charSet _ _ h := ⟨⟨h.nextStmt, h.preparedStatements, h.query⟩, h.sent⟩ }
  refine hopenable.persistent ?_ ?_ ?_ ?_
  · intro w h entry hentry
    exact hcached entry (h.preparedStatements ▸ hentry)
  · intro actions w h
    exact ⟨⟨h.nextStmt, h.preparedStatements, h.query⟩, h.sent⟩
  · intro r _ hr w h
    exact hrecord r hr w h
  · intro s hs w h
    have hrenewed := prepare_renewed lib s w
    obtain ⟨closes, hcloses, hclosed⟩ := closing_log (w.stmt s).stmt w
    have hA : ∀ r ∈ closes, A r := by
      intro r hr
      obtain ⟨handle, rfl⟩ := hclosed r hr
      exact hclose handle
    obtain ⟨-, -, -, hlog, -⟩ | ⟨-, -, -, hlog, -⟩ := hrenewed.outcome
    · exact h.append hrenewed.kept (hlog.trans hcloses) hA
    · rw [hcloses, List.append_assoc] at hlog
      refine h.append hrenewed.kept hlog fun r hr => ?_
      rcases List.mem_append.mp hr with hr | hr
      · exact hA r hr
      · rw [List.mem_singleton.mp hr, h.query s]
        exact hprepare s hs _

namespace Lifetime

variable (lib) (x : Lifetime)

/-- The operations with what they leave. -/
inductive Steps : Operation → Lifetime → Prop where
  | setOption : Steps .setOption { x with world := final ((mysqlOptions lib).run x.world) }
  | connect {initFails : Bool} {error : Option Bytes} {x' : Lifetime} (created : x.phase = .created)
      (hrun : Lifetime.initialize lib initFails x = some (error, x')) :
      Steps (.connect initFails) x'
  | setCharacterSet (charset : Bytes) : Steps (.setCharacterSet charset)
      { x with world := final ((Handler.setCharacterSet lib charset).run x.world) }
  | query {fuel : ℕ} {action : DatabaseAction} {query : Bytes} {w' : World}
      (hrun : (runQuery lib fuel action (cString query)).run x.world = .ok () w') :
      Steps (.query fuel action query) { x with world := w' }
  | hit {query : Bytes} {s : StmtId}
      (hlookup : x.world.preparedStatements.lookup (cString query) = some s) :
      Steps (.prepare query) (x.returned query (some s, x.world))
  | miss {query : Bytes} {r : Option StmtId} {w' : World}
      (hconstructed : Constructed lib query x.world r w') :
      Steps (.prepare query) (x.returned query (r, w'))
  | run {fuel : ℕ} {s : StmtId} {binds : List Bind} {action : DatabaseAction} {w' : World}
      (hs : s ∈ x.prepared.map Prod.snd)
      (hrun : (runStatement lib fuel s binds action).run x.world = .ok () w') :
      Steps (.run fuel s binds action) { x with world := w' }
  | poll : Steps .poll { x with world := { x.world with completedActions := [] } }
  | release {s : StmtId} (hs : s ∈ x.live) : Steps (.release s)
      { x with world := x.world.release s, live := x.live.filter (· ≠ s) }
  | stop : Steps .stop { x with phase := .stopped }
  | close : Steps .close { x with
      phase := .gone
      world := x.world.closeAll x.world.preparedStatements
      live := x.live.filter fun s => s ∉ x.world.preparedStatements.map Prod.snd }

variable {lib x} {x' : Lifetime} {op : Operation}

theorem steps_of_step (h : x.step lib op = some x') : Steps lib x op x' := by
  cases op with
  | setOption =>
      obtain ⟨-, heq⟩ := Option.ite_none_left_eq_some.mp h
      cases heq
      exact .setOption
  | connect initFails =>
      obtain ⟨hcreated, heq⟩ := Option.ite_none_right_eq_some.mp h
      obtain ⟨⟨error, y⟩, hrun, rfl⟩ := Option.map_eq_some_iff.mp heq
      exact .connect hcreated hrun
  | setCharacterSet charset =>
      obtain ⟨-, heq⟩ := Option.ite_none_right_eq_some.mp h
      cases heq
      exact .setCharacterSet charset
  | query fuel action query =>
      obtain ⟨-, heq⟩ := Option.ite_none_right_eq_some.mp h
      obtain ⟨w', hrun, rfl⟩ := handler_eq_some heq
      exact .query hrun
  | prepare query =>
      obtain ⟨-, heq⟩ := Option.ite_none_right_eq_some.mp h
      obtain ⟨⟨r, w'⟩, hrun, rfl⟩ := Option.map_eq_some_iff.mp heq
      obtain ⟨s, hlookup, rfl, rfl⟩ | hconstructed := luaPrepare_cases hrun
      · exact .hit hlookup
      · exact .miss hconstructed
  | run fuel s binds action =>
      obtain ⟨⟨-, hs⟩, heq⟩ := Option.ite_none_right_eq_some.mp h
      obtain ⟨w', hrun, rfl⟩ := handler_eq_some heq
      exact .run hs hrun
  | poll =>
      obtain ⟨-, heq⟩ := Option.ite_none_left_eq_some.mp h
      cases heq
      exact .poll
  | release s =>
      obtain ⟨hs, heq⟩ := Option.ite_none_right_eq_some.mp h
      cases heq
      exact .release hs
  | stop =>
      obtain ⟨-, heq⟩ := Option.ite_none_right_eq_some.mp h
      cases heq
      exact .stop
  | close =>
      obtain ⟨-, heq⟩ := Option.ite_none_right_eq_some.mp h
      cases heq
      exact .close

end Lifetime

end Tmysql4.Handler
