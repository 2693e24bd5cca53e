import Tmysql4.Operations

/-! # The SQL text that reaches the server

A string of the script becomes a C string, a `std::string`, a posted task, a key of the cache and
the text of several requests.  `Sent` follows the requests of one operation together with the
handles that the statements have: a query is sent with the string of its call, a statement is
prepared on a new handle, which becomes its own, with the string from which it was prepared first,
and it is executed on the handle that it has then.

`sql_unchanged` is the result for strings without null bytes.  Behind it are two invariants:
`Named`, the query of a statement and its key in the cache are the string that the script passed,
and `Written`, on the handle of a statement `mysql_stmt_prepare` has been called with the query of
that statement and with no other. -/

namespace Tmysql4.Handler

open Imperative

variable {lib : Lib} {w w' : World} {s : StmtId} {query : Bytes} {binds : List Bind}

/-! ### Statements and their handles -/

/-- The handle that a statement has. -/
def World.holds (w : World) (s : StmtId) : Option HandleId := (w.stmt s).stmt

/-- `mysql_stmt_prepare` has been called on `h` with this text, and with no other, whether it
succeeded or not. -/
def PreparedWith (log : List Request) (h : HandleId) (text : Bytes) : Prop :=
  ∀ t, .stmtPrepare h t ∈ log ↔ t = text

/-- `mysql_stmt_prepare` has not been called on `h`. -/
def Fresh (log : List Request) (h : HandleId) : Prop := ∀ t, .stmtPrepare h t ∉ log

/-- The handle of a statement has got the query of that statement, and no other. -/
structure Written (w : World) : Prop where
  lt : ∀ h t, .stmtPrepare h t ∈ w.log → h < w.nextHandle
  own : ∀ s h, w.holds s = some h → PreparedWith w.log h (w.stmt s).query

theorem Written.fresh (hw : Written w) : Fresh w.log w.nextHandle :=
  fun t ht => Nat.lt_irrefl _ (hw.lt _ t ht)

theorem Written.holds_lt (hw : Written w) {h : HandleId} (hs : w.holds s = some h) :
    h < w.nextHandle :=
  hw.lt h _ ((hw.own s h hs _).mpr rfl)

theorem PreparedWith.append {log more : List Request} {h : HandleId} {text : Bytes}
    (hp : PreparedWith log h text) (hmore : Fresh more h) : PreparedWith (log ++ more) h text :=
    fun t => by
  rw [List.mem_append, hp t, or_iff_left (hmore t)]

/-- A request that is no preparation. -/
theorem Written.record {r : Request} (hw : Written w) (hr : ∀ h t, r ≠ .stmtPrepare h t) :
    Written { w with log := w.log ++ [r] } := by
  have hnone : ∀ h, Fresh [r] h := fun h t ht => hr h t (List.mem_singleton.mp ht).symm
  refine ⟨fun h t ht => ?_, fun s h hs => (hw.own s h hs).append (hnone h)⟩
  obtain ht | ht := List.mem_append.mp ht
  · exact hw.lt h t ht
  · exact absurd ht (hnone h t)

theorem closing_requests (stmt : Option HandleId) (w : World) :
    (w.closing stmt).log = w.log ++ stmt.toList.map .stmtClose := by
  cases stmt with
  | none => exact (List.append_nil _).symm
  | some h => rfl

theorem fresh_closes (stmt : Option HandleId) (h : HandleId) :
    Fresh (stmt.toList.map .stmtClose) h := by
  intro t ht
  obtain ⟨_, -, heq⟩ := List.mem_map.mp ht
  cases heq

/-- What a preparation leaves. -/
theorem Renewed.sends (h : Renewed lib s w w') : ∃ handle :
    Option HandleId, (∀ new ∈ handle, new = w.nextHandle) ∧
    w'.nextHandle = w.nextHandle + handle.toList.length ∧
      w'.holds = Function.update w.holds s handle ∧
    w'.log = w.log ++ (w.holds s).toList.map .stmtClose ++
      handle.toList.map (.stmtPrepare · (w.stmt s).query) := by
  have hholds : ∀ handle, (w'.stmt s).stmt = handle →
      w'.holds = Function.update w.holds s handle := by
    rintro _ rfl
    funext t
    by_cases ht : t = s
    · rw [ht, Function.update_self]
      rfl
    · rw [Function.update_of_ne ht, World.holds, h.others t ht]
      rfl
  obtain ⟨-, hnone, hnext, hlog, -⟩ | ⟨-, hsome, hnext, hlog, -⟩ := h.outcome
  · refine ⟨none, nofun, hnext, hholds _ hnone, ?_⟩
    rw [hlog, closing_requests]
    exact (List.append_nil _).symm
  · refine ⟨some w.nextHandle, fun new hnew => (Option.mem_some.mp hnew).symm, hnext,
      hholds _ hsome, ?_⟩
    rw [hlog, closing_requests]
    rfl

theorem mem_stmtPrepare_iff {handle : Option HandleId}
    (hlog : w'.log = w.log ++ (w.holds s).toList.map .stmtClose ++
      handle.toList.map (.stmtPrepare · (w.stmt s).query))
    (h : HandleId) (t : Bytes) :
    .stmtPrepare h t ∈ w'.log ↔ .stmtPrepare h t ∈ w.log ∨ h ∈ handle ∧ t = (w.stmt s).query := by
  rw [hlog, List.mem_append, List.mem_append, or_iff_left (fresh_closes _ h t)]
  simp [eq_comm]

/-- A new handle belongs to the statement that is prepared. -/
theorem Renewed.written (hr : Renewed lib s w w') (hw : Written w) : Written w' := by
  obtain ⟨handle, hnew, hnext, hholds, hlog⟩ := hr.sends
  have hmem := mem_stmtPrepare_iff hlog
  refine ⟨fun h t ht => ?_, fun u h hu t => ?_⟩
  · obtain ht | ⟨hh, -⟩ := (hmem h t).mp ht
    · have hlt := hw.lt h t ht
      omega
    · rw [hnext, hnew h hh, Option.mem_def.mp hh]
      exact Nat.lt_succ_self _
  · rw [hholds] at hu
    by_cases hus : u = s
    · rw [hus, Function.update_self] at hu
      rw [hus, hmem, hr.query, or_iff_right, and_iff_right (Option.mem_def.mpr hu)]
      rw [hnew h hu]
      exact hw.fresh t
    · rw [Function.update_of_ne hus] at hu
      rw [hmem, hr.others u hus, or_iff_left, hw.own u h hu t]
      rintro ⟨hh, -⟩
      have hlt := hw.holds_lt hu
      rw [hnew h hh] at hlt
      exact Nat.lt_irrefl _ hlt

theorem Written.closing (hw : Written w) (stmt : Option HandleId) : Written (w.closing stmt) := by
  cases stmt with
  | none => exact hw
  | some h =>
      have hrecord := hw.record (r := .stmtClose h) fun _ _ => nofun
      exact ⟨hrecord.lt, hrecord.own⟩

/-- A statement that is constructed. -/
theorem Written.constructed {r : Option StmtId} (hw : Written w)
    (h : Constructed lib query w r w') : Written w' := by
  obtain ⟨entries, rfl⟩ := h.leaves
  have hstart : Written (w.waiting.allocating (cString query)) := by
    refine ⟨hw.lt, fun s handle hs => ?_⟩
    by_cases hnew : s = w.nextStmt
    · subst hnew
      simp [World.holds, World.allocating, World.waiting] at hs
    · have hsame : (w.waiting.allocating (cString query)).stmt s = w.stmt s :=
        Function.update_of_ne hnew _ _
      rw [World.holds, hsame] at hs
      rw [hsame]
      exact hw.own s handle hs
  have hwritten := (prepare_renewed lib w.nextStmt (w.waiting.allocating (cString query))).written
    hstart
  exact ⟨hwritten.lt, hwritten.own⟩

/-- One execution is on the handle of the statement. -/
theorem attempt_sent (lib : Lib) (binds : List Bind) {h : HandleId} (hs : w.holds s = some h) :
    ∃ w', (attempt lib s binds).run w = .ok (diagOf (executeOutcome lib w 0)) w' ∧
      w'.log = w.log ++ [.stmtExecute h binds] ∧ w'.stmt = w.stmt ∧ w'.nextStmt = w.nextStmt ∧
      w'.nextHandle = w.nextHandle ∧ w'.preparedStatements = w.preparedStatements := by
  rw [attempt, run_bind_ok (stmtHandle_run hs), run_bind_ok (mysqlStmtBindParam_run h binds w),
    run_bind_ok (mysqlStmtExecute_run lib h _)]
  cases ho : executeOutcome lib w 0 with
  | none =>
      rw [executeOutcome, Nat.add_zero] at ho
      simp only [ho]
      exact ⟨_, rfl, by simp, rfl, rfl, rfl, rfl⟩
  | some e =>
      rw [executeOutcome, Nat.add_zero] at ho
      simp only [ho, Option.isSome_some, if_true, mysqlStmtError_run, Function.update_self]
      exact ⟨_, rfl, by simp, rfl, rfl, rfl, rfl⟩

namespace Lifetime

variable {c : Credentials} {x x' : Lifetime} {op : Operation}

/-- The string of the call has no null byte. -/
def Operation.Exact : Operation → Prop
  | .query _ _ query => 0 ∉ query
  | .prepare query => 0 ∉ query
  | _ => True

instance (op : Operation) : Decidable op.Exact :=
  match op with
  | .query _ _ query => inferInstanceAs (Decidable (0 ∉ query))
  | .prepare query => inferInstanceAs (Decidable (0 ∉ query))
  | .setOption | .connect _ | .setCharacterSet _ | .run .. | .poll | .release _ | .stop | .close =>
      isTrue trivial

/-- The statement that is run. -/
def Operation.statement : Operation → Option StmtId
  | .run _ s _ _ => some s
  | _ => none

/-- What an operation may prepare again: the cached
statements, in `Connect`, and the statement that it runs. -/
def Reprepares (x : Lifetime) (op : Operation) (s : StmtId) : Prop :=
  s ∈ x.world.preparedStatements.map Prod.snd ∨ op.statement = some s

/-- The requests of an operation, behind those before it,
with the handles that the statements have. -/
inductive Sent (x : Lifetime) (op : Operation) :
    List Request → (StmtId → Option HandleId) → Prop where
  | start : Sent x op x.world.log x.world.holds
  | quiet {log : List Request} {held : StmtId → Option HandleId} {r : Request}
      (executes : r.executes = false)
      (prepares : ∀ h t, r ≠ .stmtPrepare h t) (before : Sent x op log held) :
      Sent x op (log ++ [r]) held
  | query {log : List Request} {held : StmtId → Option HandleId} {fuel : ℕ}
      {action : DatabaseAction} {text : Bytes}
      (call : op = .query fuel action text) (before : Sent x op log held) :
      Sent x op (log ++ [.realQuery text]) held
  | first {log : List Request} {held : StmtId → Option HandleId} {text : Bytes}
      (handle : Option HandleId)
      (call : op = .prepare text) (fresh : ∀ h ∈ handle, Fresh log h)
      (before : Sent x op log held) :
      Sent x op (log ++ handle.toList.map (.stmtPrepare · text))
        (Function.update held x.world.nextStmt handle)
  | again {log : List Request} {held : StmtId → Option HandleId} {s : StmtId} {text : Bytes}
      (handle : Option HandleId)
      (may : x.Reprepares op s) (prepared : (text, s) ∈ x.prepared)
      (fresh : ∀ h ∈ handle, Fresh log h) (before : Sent x op log held) :
      Sent x op (log ++ (held s).toList.map .stmtClose ++ handle.toList.map (.stmtPrepare · text))
        (Function.update held s handle)
  | execute {log : List Request} {held : StmtId → Option HandleId} {s : StmtId} {h : HandleId}
      {binds : List Bind} (call : op.statement = some s) (holds : held s = some h)
      (prepared : ∀ text, (text, s) ∈ x.prepared → PreparedWith log h text)
      (before : Sent x op log held) : Sent x op (log ++ [.stmtExecute h binds]) held

/-- A statement has the string of the script, and so has its entry in the cache. -/
structure Named (x : Lifetime) : Prop where
  lt : ∀ q s, (q, s) ∈ x.prepared → s < x.world.nextStmt
  query : ∀ q s, (q, s) ∈ x.prepared → (x.world.stmt s).query = q
  cached : ∀ entry ∈ x.world.preparedStatements, entry ∈ x.prepared

theorem Named.kept (h : Named x) (hkept : Kept x.world x'.world)
    (hprepared : x'.prepared = x.prepared) : Named x' := by
  refine ⟨fun q s hs => ?_, fun q s hs => ?_, fun entry hentry => ?_⟩
  · rw [hprepared] at hs
    rw [hkept.nextStmt]
    exact h.lt q s hs
  · rw [hprepared] at hs
    rw [hkept.query]
    exact h.query q s hs
  · rw [hkept.preparedStatements] at hentry
    rw [hprepared]
    exact h.cached entry hentry

/-! ### Handlers -/

/-- What a handler prepares again has its first string. -/
theorem Named.mem_prepared (h : Named x)
    (hstatement : ∀ s, op.statement = some s → s ∈ x.prepared.map Prod.snd)
    (hs : x.Reprepares op s) : ((x.world.stmt s).query, s) ∈ x.prepared := by
  have hprepared : ∃ q, (q, s) ∈ x.prepared := by
    obtain hcached | hop := hs
    · obtain ⟨⟨q, s⟩, hentry, rfl⟩ := List.mem_map.mp hcached
      exact ⟨q, h.cached _ hentry⟩
    · obtain ⟨⟨q, s⟩, hentry, rfl⟩ := List.mem_map.mp (hstatement s hop)
      exact ⟨q, hentry⟩
  obtain ⟨q, hq⟩ := hprepared
  rw [h.query q s hq]
  exact hq

/-- Where an operation is, with the requests so far. -/
structure Follows (x : Lifetime) (op : Operation) (w : World) : Prop extends Kept x.world w where
  written : Written w
  sent : x.Sent op w.log w.holds

theorem Follows.start (hw : Written x.world) : x.Follows op x.world := ⟨.refl _, hw, .start⟩

theorem Follows.quiet (h : x.Follows op w) {r : Request} (he : r.executes = false)
    (hp : ∀ handle t, r ≠ .stmtPrepare handle t) :
    x.Follows op { w with log := w.log ++ [r] } :=
  ⟨⟨h.nextStmt, h.preparedStatements, h.query⟩, h.written.record hp, h.sent.quiet he hp⟩

/-- A statement is prepared again. -/
theorem Follows.renewed (h : x.Follows op w) (hn : Named x)
    (hstatement : ∀ s, op.statement = some s → s ∈ x.prepared.map Prod.snd) (hs : x.Reprepares op s)
    (hr : Renewed lib s w w') : x.Follows op w' := by
  obtain ⟨handle, hnew, -, hholds, hlog⟩ := hr.sends
  refine ⟨h.toKept.trans hr.kept, hr.written h.written, ?_⟩
  rw [hlog, hholds, h.query s]
  refine h.sent.again handle hs (hn.mem_prepared hstatement hs) fun new hmem => ?_
  rw [hnew new hmem]
  exact h.written.fresh

theorem Named.persistent (h : Named x) (op : Operation)
    (hstatement : ∀ s, op.statement = some s → s ∈ x.prepared.map Prod.snd) :
    Persistent lib (x.Reprepares op)
      (fun r => ∃ fuel action text, r = .realQuery text ∧ op = .query fuel action text)
      (x.Follows op) := by
  have hopenable : Openable soundFns (x.Follows op) := {
    call _ _ _ h := ⟨⟨h.nextStmt, h.preparedStatements, h.query⟩,
      ⟨h.written.lt, h.written.own⟩, h.sent⟩
    connError _ _ h := ⟨⟨h.nextStmt, h.preparedStatements, h.query⟩,
      ⟨h.written.lt, h.written.own⟩, h.sent⟩
    handle _ _ _ _ h := ⟨⟨h.nextStmt, h.preparedStatements, h.query⟩,
      ⟨h.written.lt, h.written.own⟩, h.sent⟩
    locals _ _ _ h := ⟨⟨h.nextStmt, h.preparedStatements, h.query⟩,
      ⟨h.written.lt, h.written.own⟩, h.sent⟩
    frees _ _ h := ⟨⟨h.nextStmt, h.preparedStatements, h.query⟩,
      ⟨h.written.lt, h.written.own⟩, h.sent⟩
    waiter _ _ h := ⟨⟨h.nextStmt, h.preparedStatements, h.query⟩,
      ⟨h.written.lt, h.written.own⟩, h.sent⟩
    isPendingCallback _ _ h :=
      ⟨⟨h.nextStmt, h.preparedStatements, h.query⟩, ⟨h.written.lt, h.written.own⟩, h.sent⟩
    opens := by decide
    quiet r he hp w h := h.quiet he (by rintro handle t rfl; cases hp)
    charSet _ _ h := ⟨⟨h.nextStmt, h.preparedStatements, h.query⟩, ⟨h.written.lt, h.written.own⟩,
      h.sent⟩ }
  refine hopenable.persistent (fun w hw entry hentry => ?_) (fun actions w hw => ?_) ?_
    fun s hs w hw => ?_
  · rw [hw.preparedStatements] at hentry
    exact .inl (List.mem_map_of_mem hentry)
  · exact ⟨⟨hw.nextStmt, hw.preparedStatements, hw.query⟩, ⟨hw.written.lt, hw.written.own⟩, hw.sent⟩
  · rintro r - ⟨fuel, action, text, rfl, hop⟩ w hw
    exact ⟨⟨hw.nextStmt, hw.preparedStatements, hw.query⟩, hw.written.record fun _ _ => nofun,
      hw.sent.query hop⟩
  · exact hw.renewed h hstatement hs (prepare_renewed lib s w)

/-- A statement is executed on its own handle. -/
theorem Named.attempt (h : Named x) (hop : op.statement = some s) (binds : List Bind) :
    Preserves (x.Follows op) (attempt lib s binds) := by
  intro w hw
  cases hs : w.holds s with
  | none =>
      rw [Handler.attempt, run_bind_error (stmtHandle_null_run hs)]
      exact hw
  | some handle =>
      obtain ⟨w₁, hrun, hlog, hstmt, hnextStmt, hnextHandle, hentries⟩ := attempt_sent lib binds hs
      rw [hrun, final_ok]
      have hwritten := hw.written.record (r := .stmtExecute handle binds) fun _ _ =>
        Request.noConfusion
      have hholds : w₁.holds = w.holds := funext fun t => by rw [World.holds, hstmt]; rfl
      refine ⟨⟨hnextStmt.trans hw.nextStmt, hentries.trans hw.preparedStatements, fun t => ?_⟩,
        ⟨?_, ?_⟩, ?_⟩
      · rw [hstmt]
        exact hw.query t
      · rw [hlog, hnextHandle]
        exact hwritten.lt
      · rw [hlog, hholds, hstmt]
        exact hwritten.own
      · rw [hlog, hholds]
        refine hw.sent.execute hop hs fun text htext => ?_
        have hown := hw.written.own s handle hs
        rw [hw.query s, h.query text s htext] at hown
        exact hown

/-- The first preparation has the string of the call. -/
theorem constructed_sends {r : Option StmtId} (hw : Written x.world) (hq : 0 ∉ query)
    (h : Constructed lib query x.world r w') : x.Sent (.prepare query) w'.log w'.holds := by
  obtain ⟨entries, rfl⟩ := h.leaves
  have hrenewed := prepare_renewed lib x.world.nextStmt (x.world.waiting.allocating (cString query))
  have hstmt : (x.world.waiting.allocating (cString query)).stmt x.world.nextStmt =
      ⟨none, query, 0⟩ := by
    have hquery : cString query = query := CStrings.text_eq_self_iff.mpr hq
    simp [World.allocating, World.waiting, hquery]
  have hholds : ∀ handle,
      Function.update (x.world.waiting.allocating (cString query)).holds x.world.nextStmt handle =
      Function.update x.world.holds x.world.nextStmt handle := by
    intro handle
    funext t
    by_cases ht : t = x.world.nextStmt
    · rw [ht, Function.update_self, Function.update_self]
    · have hsame : (x.world.waiting.allocating (cString query)).stmt t = x.world.stmt t :=
        Function.update_of_ne ht _ _
      rw [Function.update_of_ne ht, Function.update_of_ne ht, World.holds, hsame]
      rfl
  obtain ⟨handle, hnew, -, hfinal, hlog⟩ := hrenewed.sends
  rw [hholds] at hfinal
  have hnone : (x.world.waiting.allocating (cString query)).holds x.world.nextStmt =
      none := by rw [World.holds, hstmt]
  rw [hnone, hstmt, Option.toList_none, List.map_nil, List.append_nil] at hlog
  show x.Sent (.prepare query) (final ((prepare lib x.world.nextStmt).run _)).log
    (final ((prepare lib x.world.nextStmt).run _)).holds
  rw [hlog, hfinal]
  refine Sent.first handle rfl (fun new hmem => ?_) .start
  rw [hnew new hmem]
  exact hw.fresh

/-- A destructor closes what its statement has. -/
theorem Follows.closing (h : x.Follows op w) (stmt : Option HandleId) :
    x.Follows op (w.closing stmt) := by
  cases stmt with
  | none => exact h
  | some handle =>
      have hquiet := h.quiet (r := .stmtClose handle) rfl fun _ _ => nofun
      exact ⟨⟨hquiet.nextStmt, hquiet.preparedStatements, hquiet.query⟩, h.written.closing _,
        hquiet.sent⟩

theorem Follows.closeAll (h : x.Follows op w) (entries : List (Bytes × StmtId)) :
    x.Follows op (w.closeAll entries) := by
  induction entries generalizing w with
  | nil => exact h
  | cons entry entries ih => exact ih (h.closing _)

/-! ### Runs -/

/-- Another call returns a statement that has its string. -/
theorem Named.returned (h : Named x) (hlt : s < x.world.nextStmt)
    (hquery : (x.world.stmt s).query = query) : Named (x.returned query (some s, x.world)) := by
  refine ⟨fun q t ht => ?_, fun q t ht => ?_,
    fun entry hentry => List.mem_cons_of_mem _ (h.cached entry hentry)⟩
  · obtain ⟨⟩ | ⟨_, ht⟩ := ht
    · exact hlt
    · exact h.lt q t ht
  · obtain ⟨⟩ | ⟨_, ht⟩ := ht
    · exact hquery
    · exact h.query q t ht

theorem Named.constructed {r : Option StmtId} (h : Named x) (hq : 0 ∉ query)
    (hconstructed : Constructed lib query x.world r w') : Named (x.returned query (r, w')) := by
  obtain ⟨hnext, hothers, hnew⟩ := hconstructed.stmt
  have hquery : cString query = query := CStrings.text_eq_self_iff.mpr hq
  rw [hquery] at hnew
  have hlt : ∀ q s, (q, s) ∈ x.prepared → s < w'.nextStmt := by
    intro q s hs
    rw [hnext]
    exact Nat.lt_succ_of_lt (h.lt q s hs)
  have hold : ∀ q s, (q, s) ∈ x.prepared → (w'.stmt s).query = q := by
    intro q s hs
    rw [hothers s (Nat.ne_of_lt (h.lt q s hs))]
    exact h.query q s hs
  obtain ⟨-, rfl, hentries⟩ | ⟨-, rfl, hentries⟩ := hconstructed.returns
  · refine ⟨fun q t ht => ?_, fun q t ht => ?_, fun entry hentry => ?_⟩
    · obtain ⟨⟩ | ⟨_, ht⟩ := ht
      · show x.world.nextStmt < w'.nextStmt
        omega
      · exact hlt q t ht
    · obtain ⟨⟩ | ⟨_, ht⟩ := ht
      · exact hnew
      · exact hold q t ht
    · have hentry : entry ∈ w'.preparedStatements := hentry
      rw [hentries, (mapInsert_perm hconstructed.miss _).mem_iff, hquery] at hentry
      obtain rfl | hentry := List.mem_cons.mp hentry
      · exact List.mem_cons_self
      · exact List.mem_cons_of_mem _ (h.cached entry hentry)
  · refine ⟨hlt, hold, fun entry hentry => h.cached entry ?_⟩
    rw [← hentries]
    exact hentry

theorem Named.released (h : Named x) (s : StmtId) :
    Named { x with world := x.world.release s, live := x.live.filter (· ≠ s) } := by
  have hkept := kept_closing (x.world.stmt s).stmt x.world
  refine ⟨fun q t ht => ?_, fun q t ht => ?_, fun entry hentry => ?_⟩
  · exact Nat.lt_of_lt_of_eq (h.lt q t ht) hkept.nextStmt.symm
  · exact (hkept.query t).trans (h.query q t ht)
  · exact h.cached entry (List.mem_of_mem_filter hentry)

/-- One operation. -/
theorem Named.step (h : Named x) (hw : Written x.world) (he : op.Exact) (hs : Steps lib x op x') :
    x.Sent op x'.world.log x'.world.holds ∧ Named x' ∧ Written x'.world := by
  have hstart : x.Follows op x.world := .start hw
  have hkept : x.Follows op x'.world → x'.prepared = x.prepared →
      x.Sent op x'.world.log x'.world.holds ∧ Named x' ∧ Written x'.world :=
    fun hfollows hprepared => ⟨hfollows.sent, h.kept hfollows.toKept hprepared, hfollows.written⟩
  cases hs with
  | setOption => exact hkept ⟨⟨rfl, rfl, fun _ => rfl⟩, ⟨hw.lt, hw.own⟩, .start⟩ rfl
  | @connect initFails error x' created hrun =>
      obtain ⟨-, hprepared, hworld | hworld⟩ := initialize_cases hrun
      · refine hkept ?_ hprepared
        rw [hworld]
        exact hstart
      · refine hkept ?_ hprepared
        rw [hworld]
        exact (h.persistent (.connect initFails) nofun).connect false _ hstart
  | setCharacterSet charset =>
      exact hkept ((h.persistent (.setCharacterSet charset) nofun).sets charset _ hstart) rfl
  | @query fuel action query w' hrun =>
      have hquery : cString query = query := CStrings.text_eq_self_iff.mpr he
      have hcall : ∃ f a text, Request.realQuery (cString query) = .realQuery text ∧
          Operation.query fuel action query = .query f a text :=
        ⟨fuel, action, query, congrArg Request.realQuery hquery, rfl⟩
      exact hkept ((h.persistent (.query fuel action query) nofun).runQuery hcall fuel action |>.ok
        hrun hstart) rfl
  | @hit query s hlookup =>
      have hentry : (query, s) ∈ x.prepared := by
        have hquery : cString query = query := CStrings.text_eq_self_iff.mpr he
        rw [← hquery]
        exact h.cached _ (mem_of_lookup_eq_some hlookup)
      exact ⟨.start, h.returned (h.lt query s hentry) (h.query query s hentry), hw⟩
  | @miss query r w' hconstructed =>
      have hworld : (x.returned query (r, w')).world = w' := by cases r <;> rfl
      rw [hworld]
      exact ⟨constructed_sends hw he hconstructed, h.constructed he hconstructed,
        hw.constructed hconstructed⟩
  | @run fuel s binds action w' hs hrun =>
      have hmem : ∀ s', (Operation.run fuel s binds action).statement = some s' →
          s' ∈ x.prepared.map Prod.snd := by
        rintro s' ⟨⟩
        exact hs
      have hp : Persistent lib (x.Reprepares (.run fuel s binds action)) _ _ :=
        h.persistent (.run fuel s binds action) hmem
      refine hkept ?_ rfl
      have hexecutions : x.Follows (.run fuel s binds action)
          (final ((executions lib s (retagBinds binds (x.world.stmt s).numArgs) fuel false
            false).run x.world)) :=
        preserves_executions (h.attempt rfl _) (hp.connect true) (hp.prepare s (.inr rfl)) fuel
          false false x.world hstart
      have hfinal := final_runStatement (hp.toStable.mono (by decide)).anywhere hp.frees
        (fun _ _ _ _ => trivial) (hp.pushCompleted action) hexecutions
      rw [hrun, final_ok] at hfinal
      exact hfinal
  | poll => exact hkept ⟨⟨rfl, rfl, fun _ => rfl⟩, ⟨hw.lt, hw.own⟩, .start⟩ rfl
  | @release s hs =>
      have hclosed := hstart.closing (x.world.stmt s).stmt
      exact ⟨hclosed.sent, h.released s, hclosed.written.lt, hclosed.written.own⟩
  | stop => exact hkept hstart rfl
  | close => exact hkept (hstart.closeAll _) rfl

end Lifetime

end Tmysql4.Handler
