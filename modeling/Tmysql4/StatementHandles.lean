import Mathlib.Data.List.Nodup
import Tmysql4.Operations
import Tmysql4.Ownership

/-! # Statement handles are owned

`World.holding` reads a state as handles with owners: a statement holds its `m_stmt`, and the log
says how often each handle was closed.  `Prepare` and the destructor of a statement are operations
of `Ownership` there, and `Accounted` says what a database owes its handles.

`handles_owned` is the result, for the runs in which no constructor throws
after `mysql_stmt_init` has succeeded and no statement is run that has been
finalized.  Its invariant is `Owns`: the live statements own the open handles,
and the cache has exactly the live statements, under their queries. -/

namespace Tmysql4.Handler

open Imperative Ownership

variable {lib : Lib} {w w' : World} {s : StmtId} {P : StmtId → Prop}

/-! ### Handles with owners -/

def World.holding (w : World) : Holding StmtId where
  held s := (w.stmt s).stmt
  closed h := (w.handle h).closed
  next := w.nextHandle
  closes h := w.log.count (.stmtClose h)

theorem holding_record {r : Request} (hr : ∀ h, r ≠ .stmtClose h) (w : World) :
    World.holding { w with log := w.log ++ [r] } = w.holding := by
  refine Holding.ext rfl rfl rfl (funext fun h => ?_)
  show (w.log ++ [r]).count (.stmtClose h) = w.log.count (.stmtClose h)
  rw [List.count_append, List.count_singleton, if_neg (by simpa using hr h), Nat.add_zero]

/-- The destructor of a statement closes what it holds. -/
theorem holding_closing (s : StmtId) (w : World) :
    (w.closing (w.stmt s).stmt).holding = w.holding.close s := by
  cases hs : (w.stmt s).stmt with
  | none => exact (Holding.close_of_not_held hs).symm
  | some h =>
      rw [Holding.close_of_held hs]
      refine Holding.ext rfl (funext fun i => ?_) rfl (funext fun i => ?_)
      · by_cases hi : i = h
        · subst hi
          simp [World.closing, World.holding]
        · simp [World.closing, World.holding, Function.update_of_ne hi]
      · by_cases hi : i = h
        · subst hi
          simp [World.closing, World.holding]
        · have hne : h ≠ i := fun he => hi he.symm
          simp [World.closing, World.holding, Function.update_of_ne hi, hne]

theorem holding_closeAll (w : World) (entries : List (Bytes × StmtId)) :
    (w.closeAll entries).holding = (entries.map Prod.snd).foldl Holding.close w.holding := by
  induction entries generalizing w with
  | nil => rfl
  | cons entry entries ih =>
      show ((w.closing (w.stmt entry.2).stmt).closeAll entries).holding = _
      rw [ih, holding_closing]
      rfl

/-- `Prepare` closes the old handle and may get a new one, whether it succeeds or not. -/
theorem Renewed.holding (h : Renewed lib s w w') :
    w'.holding = (w.holding.close s).clear s ∨ w'.holding = (w.holding.close s).renew s := by
  have hheld : ∀ stmt, (w'.stmt s).stmt = stmt →
      w'.holding.held = Function.update (w.closing (w.stmt s).stmt).holding.held s stmt := by
    intro stmt hstmt
    funext t
    by_cases ht : t = s
    · rw [ht, Function.update_self]
      exact hstmt
    · obtain ⟨-, hclosing, -⟩ := closing_eq (w.stmt s).stmt w
      rw [Function.update_of_ne ht]
      simp only [World.holding, hclosing, h.others t ht]
  obtain ⟨-, -, hnext, -⟩ := closing_eq (w.stmt s).stmt w
  rw [← holding_closing]
  obtain ⟨-, hstmt, hnextHandle, hlog, hclosed⟩ | ⟨-, hstmt, hnextHandle, hlog, hopen, hclosed⟩ :=
    h.outcome
  · left
    refine Holding.ext (hheld _ hstmt) (funext hclosed) (hnextHandle.trans hnext.symm)
      (funext fun i => ?_)
    show w'.log.count (.stmtClose i) = (w.closing (w.stmt s).stmt).log.count (.stmtClose i)
    rw [hlog]
  · right
    refine Holding.ext ?_ (funext fun i => ?_) ?_ (funext fun i => ?_)
    · rw [hheld _ hstmt, ← hnext]
      rfl
    · show (w'.handle i).closed =
          Function.update (fun i => ((w.closing (w.stmt s).stmt).handle i).closed)
        (w.closing (w.stmt s).stmt).nextHandle false i
      rw [hnext]
      by_cases hi : i = w.nextHandle
      · rw [hi, Function.update_self]
        exact hopen
      · rw [Function.update_of_ne hi]
        exact hclosed i hi
    · show w'.nextHandle = (w.closing (w.stmt s).stmt).nextHandle + 1
      rw [hnextHandle, hnext]
    · show w'.log.count (.stmtClose i) = (w.closing (w.stmt s).stmt).log.count (.stmtClose i)
      rw [hlog, List.count_append]
      simp

/-- A statement that is prepared again owns its new handle. -/
theorem Renewed.owned (h : Renewed lib s w w') (hw : Owned P w.holding) (hs : P s) :
    Owned P w'.holding := by
  have hclosed := hw.close hs
  obtain heq | heq := h.holding
  · rw [heq]
    exact hclosed.clear
  · rw [heq]
    exact hclosed.renew hs

theorem Renewed.valid (h : Renewed lib s w w') (hw : Valid P w.holding) : Valid P w'.holding := by
  have hclosed := hw.close s
  obtain heq | heq := h.holding
  · rw [heq]
    exact hclosed.clear
  · rw [heq]
    exact hclosed.renew

/-- The object of a new statement holds nothing. -/
theorem holding_allocating (w : World) (query : Bytes) :
    (w.allocating query).holding = w.holding.clear w.nextStmt := by
  refine Holding.ext (funext fun t => ?_) rfl rfl rfl
  by_cases ht : t = w.nextStmt
  · subst ht
    simp [World.allocating, World.holding, Holding.clear]
  · simp [World.allocating, World.holding, Holding.clear, Function.update_of_ne ht]

theorem owned_allocating (h : Owned P w.holding) (hlt : ∀ t, P t → t < w.nextStmt) (query : Bytes) :
    Owned (fun t => P t ∨ t = w.nextStmt) (w.allocating query).holding := by
  rw [holding_allocating]
  refine Owned.clear (h.congr fun t _ => ?_)
  constructor
  · intro ht
    exact ⟨.inl ht, Nat.ne_of_lt (hlt t ht)⟩
  · rintro ⟨ht | ht, hne⟩
    · exact ht
    · exact absurd ht hne

theorem Constructed.holding {query : Bytes} {r : Option StmtId} (h : Constructed lib query w r w') :
    w'.holding = (final ((prepare lib w.nextStmt).run
      (w.waiting.allocating (cString query)))).holding := by
  obtain ⟨entries, hw'⟩ := h.leaves
  rw [hw']
  rfl

theorem Constructed.valid {query : Bytes} {r : Option StmtId} (h : Constructed lib query w r w')
    (hw : Valid (fun _ => False) w.holding) : Valid (fun _ => False) w'.holding := by
  have hrenewed := prepare_renewed lib w.nextStmt (w.waiting.allocating (cString query))
  rw [h.holding]
  refine hrenewed.valid ?_
  rw [holding_allocating]
  exact Valid.clear (Valid.congr hw fun _ _ hfalse => hfalse.1)

/-- What `Prepare` returns owns its handle, and a constructor
that has thrown at `mysql_stmt_init` has left none. -/
theorem Constructed.owned {query : Bytes} {r : Option StmtId} (h : Constructed lib query w r w')
    (hw : Owned P w.holding) (hlt : ∀ t, P t → t < w.nextStmt)
    (hprepare : lib.stmtInit (w.calls .stmtInit) = none →
      lib.stmtPrepare (w.calls .stmtPrepare) = none) :
    Owned (fun t => P t ∨ r = some t) w'.holding := by
  have hrenewed := prepare_renewed lib w.nextStmt (w.waiting.allocating (cString query))
  have howned : Owned (fun t => P t ∨ t = w.nextStmt)
      (final ((prepare lib w.nextStmt).run (w.waiting.allocating (cString query)))).holding :=
    hrenewed.owned (owned_allocating (w := w.waiting) hw hlt _) (.inr rfl)
  rw [h.holding]
  obtain ⟨-, rfl, -⟩ | ⟨hfails, rfl, -⟩ := h.returns
  · refine howned.congr fun t _ => or_congr_right ?_
    rw [Option.some.injEq, eq_comm]
  · obtain ⟨-, hnone, -⟩ | ⟨hinit, -⟩ := hrenewed.outcome
    · refine howned.congr fun t ht => or_congr_right ⟨?_, nofun⟩
      rintro rfl
      exact absurd hnone ht
    · refine absurd (fun i hi => ?_) hfails
      obtain rfl : i = 0 := by omega
      exact ⟨hinit, hprepare hinit⟩

/-! ### Handlers -/

/-- Only the preparations of a handler matter to the handles and their owners. -/
theorem persistent_holding {w₀ : World} {V : Holding StmtId → Prop}
    (hcached : ∀ entry ∈ w₀.preparedStatements, P entry.2)
    (hV : ∀ s w w', P s → Renewed lib s w w' → V w.holding → V w'.holding) :
    Persistent lib P (fun _ => True) fun w => Kept w₀ w ∧ V w.holding := by
  have hrecord : ∀ r : Request, (∀ h, r ≠ .stmtClose h) → ∀ w, (Kept w₀ w ∧ V w.holding) →
      Kept w₀ { w with log := w.log ++ [r] } ∧
        V (World.holding { w with log := w.log ++ [r] }) := by
    rintro r hr w ⟨hkept, hw⟩
    refine ⟨⟨hkept.nextStmt, hkept.preparedStatements, hkept.query⟩, ?_⟩
    rw [holding_record hr]
    exact hw
  have hopenable : Openable soundFns fun w => Kept w₀ w ∧ V w.holding := {
    call _ _ _ h := ⟨⟨h.1.nextStmt, h.1.preparedStatements, h.1.query⟩, h.2⟩
    connError _ _ h := ⟨⟨h.1.nextStmt, h.1.preparedStatements, h.1.query⟩, h.2⟩
    handle handle d binds w h := by
      have hsame : World.holding
          { w with handle := Function.update w.handle handle { w.handle handle with
          error := d, binds := binds } } = w.holding := by
        refine Holding.ext rfl (funext fun i => ?_) rfl rfl
        by_cases hi : i = handle
        · subst hi
          simp [World.holding]
        · simp [World.holding, Function.update_of_ne hi]
      refine ⟨⟨h.1.nextStmt, h.1.preparedStatements, h.1.query⟩, ?_⟩
      rw [hsame]
      exact h.2
    locals _ _ _ h := ⟨⟨h.1.nextStmt, h.1.preparedStatements, h.1.query⟩, h.2⟩
    frees _ _ h := ⟨⟨h.1.nextStmt, h.1.preparedStatements, h.1.query⟩, h.2⟩
    waiter _ _ h := ⟨⟨h.1.nextStmt, h.1.preparedStatements, h.1.query⟩, h.2⟩
    isPendingCallback _ _ h := ⟨⟨h.1.nextStmt, h.1.preparedStatements, h.1.query⟩, h.2⟩
    opens := by decide
    quiet r _ hp w h := hrecord r (by rintro handle rfl; cases hp) w h
    charSet _ _ h := ⟨⟨h.1.nextStmt, h.1.preparedStatements, h.1.query⟩, h.2⟩ }
  refine hopenable.persistent ?_ ?_ ?_ ?_
  · intro w h entry hentry
    exact hcached entry (h.1.preparedStatements ▸ hentry)
  · intro actions w h
    exact ⟨⟨h.1.nextStmt, h.1.preparedStatements, h.1.query⟩, h.2⟩
  · intro r he _ w h
    exact hrecord r (by rintro handle rfl; cases he) w h
  · intro s hs w h
    have hrenewed := prepare_renewed lib s w
    exact ⟨h.1.trans hrenewed.kept, hV s w _ hs hrenewed h.2⟩

namespace Lifetime

variable {c : Credentials} {x x' : Lifetime} {op : Operation} {query : Bytes}

/-! ### The live statements -/

/-- The live statements own the open handles, and the cache
has exactly them, under their queries. -/
structure Owns (x : Lifetime) : Prop where
  owned : Owned (· ∈ x.live) x.world.holding
  lt : ∀ s ∈ x.live, s < x.world.nextStmt
  cached : x.phase ≠ .gone → ∀ q s, (q, s) ∈ x.world.preparedStatements ↔
    s ∈ x.live ∧ (x.world.stmt s).query = q
  keys : (x.world.preparedStatements.map Prod.fst).Nodup
  idle : ¬ x.isConnected → x.live = []

theorem owns_create (c : Credentials) : Owns (create c) := by
  refine ⟨⟨⟨nofun, nofun, nofun⟩, nofun, fun h => ?_⟩, nofun, fun _ q s => ?_, List.nodup_nil,
    fun _ => rfl⟩
  · simp [create, World.opened, World.holding]
  · simp [create, World.opened]

/-- After `Disconnect` there are no operations. -/
theorem Owns.ne_gone (h : Owns x) (hs : x.step lib op = some x') : x.phase ≠ .gone := by
  intro hgone
  have hidle : ¬ x.isConnected := by
    unfold isConnected
    rw [hgone]
    decide
  cases op <;> simp [Lifetime.step, hgone, hidle, h.idle hidle] at hs

theorem Owns.kept (h : Owns x) (hkept : Kept x.world x'.world)
    (howned : Owned (· ∈ x.live) x'.world.holding) (hlive : x'.live = x.live)
    (hphase : x.phase ≠ .gone) (hconnected : x.isConnected → x'.isConnected) : Owns x' := by
  refine ⟨hlive ▸ howned, fun s hs => ?_, fun _ q s => ?_, ?_, fun hidle => ?_⟩
  · rw [hlive] at hs
    rw [hkept.nextStmt]
    exact h.lt s hs
  · rw [hkept.preparedStatements, hlive, hkept.query]
    exact h.cached hphase q s
  · rw [hkept.preparedStatements]
    exact h.keys
  · rw [hlive]
    exact h.idle fun hconn => hidle (hconnected hconn)

theorem Owns.entry (h : Owns x) (hphase : x.phase ≠ .gone) :
    ∀ entry ∈ x.world.preparedStatements, entry.2 ∈ x.live :=
  fun entry hentry => ((h.cached hphase entry.1 entry.2).mp hentry).1

/-- Every statement is in the cache once. -/
theorem Owns.nodup (h : Owns x) (hphase : x.phase ≠ .gone) :
    (x.world.preparedStatements.map Prod.snd).Nodup := by
  refine (List.Nodup.of_map _ h.keys).map_on fun entry hentry entry' hentry' heq => ?_
  have hkey := ((h.cached hphase entry.1 entry.2).mp hentry).2
  have hkey' := ((h.cached hphase entry'.1 entry'.2).mp hentry').2
  rw [← heq] at hkey'
  exact Prod.ext (hkey.symm.trans hkey') heq

/-- The finalizer closes the statement's handle, and removes it from the cache. -/
theorem Owns.released (h : Owns x) (hphase : x.phase ≠ .gone) (hs : s ∈ x.live) :
    Owns { x with world := x.world.release s, live := x.live.filter (· ≠ s) } := by
  have hkept := kept_closing (x.world.stmt s).stmt x.world
  have hmem : ∀ t, t ∈ x.live.filter (· ≠ s) ↔ t ∈ x.live ∧ t ≠ s := by simp [List.mem_filter]
  refine ⟨?_, fun t ht => ?_, fun _ q t => ?_, ?_, fun hidle => ?_⟩
  · have hclosed : (x.world.release s).holding = x.world.holding.close s :=
      holding_closing s x.world
    show Owned (· ∈ x.live.filter (· ≠ s)) (x.world.release s).holding
    rw [hclosed]
    exact (h.owned.close hs).congr fun t _ => (hmem t).symm
  · exact Nat.lt_of_lt_of_eq (h.lt t ((hmem t).mp ht).1) hkept.nextStmt.symm
  · have hquery : ((x.world.release s).stmt t).query = (x.world.stmt t).query := hkept.query t
    show (q, t) ∈ x.world.preparedStatements.filter _ ↔
        t ∈ x.live.filter (· ≠ s) ∧ ((x.world.release s).stmt t).query = q
    rw [List.mem_filter, h.cached hphase, hmem, hquery, decide_eq_true_iff]
    constructor
    · rintro ⟨⟨ht, rfl⟩, hne⟩
      refine ⟨⟨ht, ?_⟩, rfl⟩
      rintro rfl
      exact hne rfl
    · rintro ⟨⟨ht, hne⟩, rfl⟩
      refine ⟨⟨ht, rfl⟩, fun heq => hne ?_⟩
      -- Two statements with one query would be two entries under one key.
      have hfirst := (h.cached hphase _ t).mpr ⟨ht, rfl⟩
      have hsecond := (h.cached hphase _ s).mpr ⟨hs, heq.symm⟩
      exact congrArg Prod.snd (List.inj_on_of_nodup_map h.keys hfirst hsecond rfl)
  · exact List.Nodup.sublist (List.Sublist.map _ List.filter_sublist) h.keys
  · have hnone : x.live = [] := h.idle hidle
    show x.live.filter _ = []
    rw [hnone]
    rfl

/-- A statement that `Prepare` constructs joins the live ones and the cache. -/
theorem Owns.constructed {r : Option StmtId} (h : Owns x) (hconn : x.isConnected)
    (hphase : x.phase ≠ .gone) (hconstructed : Constructed lib query x.world r w')
    (hprepare : lib.stmtInit (x.world.calls .stmtInit) = none →
      lib.stmtPrepare (x.world.calls .stmtPrepare) = none) :
    Owns (x.returned query (r, w')) := by
  have howned := hconstructed.owned h.owned h.lt hprepare
  obtain ⟨hnext, hothers, hnew⟩ := hconstructed.stmt
  have hquery : ∀ t ∈ x.live, w'.stmt t = x.world.stmt t :=
    fun t ht => hothers t (Nat.ne_of_lt (h.lt t ht))
  obtain ⟨-, rfl, hentries⟩ | ⟨-, rfl, hentries⟩ := hconstructed.returns
  · have hmem : ∀ t, t ∈ List.insert x.world.nextStmt x.live ↔ t = x.world.nextStmt ∨ t ∈ x.live :=
      fun t => List.mem_insert_iff
    have hperm := mapInsert_perm hconstructed.miss x.world.nextStmt
    rw [← hentries] at hperm
    refine ⟨howned.congr fun t _ => ?_, fun t ht => ?_, fun _ q t => ?_, ?_,
      fun hidle => absurd hconn hidle⟩
    · show t ∈ x.live ∨ some x.world.nextStmt = some t ↔ t ∈ List.insert x.world.nextStmt x.live
      rw [hmem, or_comm, Option.some.injEq, eq_comm]
    · show t < w'.nextStmt
      rw [hnext]
      obtain rfl | ht := (hmem t).mp ht
      · exact Nat.lt_succ_self _
      · exact Nat.lt_succ_of_lt (h.lt t ht)
    · show (q, t) ∈ w'.preparedStatements ↔ t ∈ List.insert x.world.nextStmt x.live ∧
          (w'.stmt t).query = q
      rw [hperm.mem_iff, List.mem_cons, h.cached hphase, hmem, Prod.mk.injEq]
      constructor
      · rintro (⟨rfl, rfl⟩ | ⟨ht, hq⟩)
        · exact ⟨.inl rfl, hnew⟩
        · refine ⟨.inr ht, ?_⟩
          rw [hquery t ht]
          exact hq
      · rintro ⟨rfl | ht, hq⟩
        · exact .inl ⟨hq.symm.trans hnew, rfl⟩
        · rw [hquery t ht] at hq
          exact .inr ⟨ht, hq⟩
    · show (w'.preparedStatements.map Prod.fst).Nodup
      rw [(hperm.map Prod.fst).nodup_iff, List.map_cons, List.nodup_cons]
      refine ⟨fun hkey => ?_, h.keys⟩
      obtain ⟨entry, hentry, heq⟩ := List.mem_map.mp hkey
      exact ne_of_lookup_eq_none hconstructed.miss entry hentry heq
  · refine ⟨howned.congr fun t _ => ?_, fun t ht => ?_, fun _ q t => ?_, ?_,
      fun hidle => absurd hconn hidle⟩
    · exact or_iff_left nofun
    · exact Nat.lt_of_lt_of_eq (Nat.lt_succ_of_lt (h.lt t ht)) hnext.symm
    · show (q, t) ∈ w'.preparedStatements ↔ t ∈ x.live ∧ (w'.stmt t).query = q
      rw [hentries, h.cached hphase]
      refine and_congr_right fun ht => ?_
      rw [hquery t ht]
    · show (w'.preparedStatements.map Prod.fst).Nodup
      rw [hentries]
      exact h.keys

/-- `Disconnect` finds every live statement in the cache. -/
theorem Owns.closed (h : Owns x) (hphase : x.phase ≠ .gone) : Owns { x with
    phase := .gone
    world := x.world.closeAll x.world.preparedStatements
    live := x.live.filter fun s => s ∉ x.world.preparedStatements.map Prod.snd } := by
  have hnone : x.live.filter (fun s => s ∉ x.world.preparedStatements.map Prod.snd) = [] := by
    rw [List.filter_eq_nil_iff]
    intro s hs hnot
    have hentry := (h.cached hphase _ s).mpr ⟨hs, rfl⟩
    exact of_decide_eq_true hnot (List.mem_map_of_mem (f := Prod.snd) hentry)
  have hclosed := h.owned.closeAll (l := x.world.preparedStatements.map Prod.snd)
    (fun s hs => by
      obtain ⟨entry, hentry, rfl⟩ := List.mem_map.mp hs
      exact h.entry hphase entry hentry) (h.nodup hphase)
  rw [← holding_closeAll] at hclosed
  rw [hnone]
  refine ⟨hclosed.congr fun s _ => ?_, nofun, fun hgone => absurd rfl hgone, ?_, fun _ => rfl⟩
  · simp only [List.not_mem_nil, iff_false]
    rintro ⟨hs, hnot⟩
    exact List.not_mem_nil (hnone ▸ List.mem_filter.mpr ⟨hs, decide_eq_true hnot⟩)
  · rw [(kept_closeAll _ _).preparedStatements]
    exact h.keys

/-! ### Runs -/

/-- The constructor of a statement does not throw after `mysql_stmt_init` has succeeded, and no
statement is run that has been finalized. -/
def Orderly (lib : Lib) (x : Lifetime) : Operation → Prop
  | .prepare query => x.world.preparedStatements.lookup (cString query) = none →
      lib.stmtInit (x.world.calls .stmtInit) = none →
        lib.stmtPrepare (x.world.calls .stmtPrepare) = none
  | .run _ s _ _ => s ∈ x.live
  | _ => True

instance (lib : Lib) (x : Lifetime) (op : Operation) : Decidable (Orderly lib x op) :=
  match op with
  | .prepare _ => inferInstanceAs (Decidable (_ → _ → _))
  | .run _ s _ _ => inferInstanceAs (Decidable (s ∈ x.live))
  | .setOption | .connect _ | .setCharacterSet _ | .query .. | .poll | .release _ | .stop
  | .close => isTrue trivial

/-- One operation. -/
theorem Owns.step (h : Owns x) (ho : Orderly lib x op) (hs : x.step lib op = some x') :
    Owns x' := by
  have hphase := h.ne_gone hs
  have hpersistent : Persistent lib (· ∈ x.live) (fun _ => True) fun w =>
    Kept x.world w ∧ Owned (· ∈ x.live) w.holding :=
    persistent_holding (h.entry hphase) fun _ _ _ hs hrenewed howned => hrenewed.owned howned hs
  have hstart : Kept x.world x.world ∧ Owned (· ∈ x.live) x.world.holding := ⟨.refl _, h.owned⟩
  cases steps_of_step hs with
  | setOption => exact h.kept ⟨rfl, rfl, fun _ => rfl⟩ h.owned rfl hphase id
  | connect created hrun =>
      have hconn : ¬ x.isConnected := by
        unfold isConnected
        rw [created]
        decide
      obtain ⟨hlive, -, hworld | hworld⟩ := initialize_cases hrun
      · exact h.kept (hworld ▸ .refl _) (hworld ▸ h.owned) hlive hphase fun h => absurd h hconn
      · obtain ⟨hkept, howned⟩ := hpersistent.connect false _ hstart
        rw [← hworld] at hkept howned
        exact h.kept hkept howned hlive hphase fun h => absurd h hconn
  | setCharacterSet charset =>
      obtain ⟨hkept, howned⟩ := hpersistent.sets charset _ hstart
      exact h.kept hkept howned rfl hphase id
  | query hrun =>
      obtain ⟨hkept, howned⟩ := (hpersistent.runQuery trivial _ _).ok hrun hstart
      exact h.kept hkept howned rfl hphase id
  | @hit query s hlookup =>
      have hs : s ∈ x.live := h.entry hphase _ (mem_of_lookup_eq_some hlookup)
      exact h.kept (.refl _) h.owned (List.insert_of_mem hs) hphase id
  | @miss query r w' hconstructed =>
      have hconn : x.isConnected := (Option.ite_none_right_eq_some.mp hs).1
      exact h.constructed hconn hphase hconstructed (ho hconstructed.miss)
  | run _ hrun =>
      obtain ⟨hkept, howned⟩ :=
        (hpersistent.runStatement (fun _ _ => trivial) ho _ _ _).ok hrun hstart
      exact h.kept hkept howned rfl hphase id
  | poll => exact h.kept ⟨rfl, rfl, fun _ => rfl⟩ h.owned rfl hphase id
  | @release s hlive => exact h.released hphase hlive
  | stop => exact h.kept (.refl _) h.owned rfl hphase fun _ => .inr rfl
  | close => exact h.closed hphase

/-- What a database owes the handles that `mysql_stmt_init` has returned: none is closed twice,
one that is open is the `m_stmt` of exactly one live statement, and none is open when `Disconnect`
has reached `mysql_close`. -/
structure Accounted (x : Lifetime) : Prop where
  once : ∀ h, x.world.log.count (.stmtClose h) ≤ 1
  owner : ∀ h < x.world.nextHandle, .stmtClose h ∉ x.world.log →
    ∃! s, s ∈ x.live ∧ (x.world.stmt s).stmt = some h
  gone : x.phase = .gone → ∀ h < x.world.nextHandle, x.world.log.count (.stmtClose h) = 1

theorem Owns.accounted (h : Owns x) : Accounted x := by
  refine ⟨h.owned.closes_le_one, fun handle hlt hnot => ?_, fun hgone handle hlt => ?_⟩
  · have hopen := h.owned.closed_of_closes_eq_zero hlt (List.count_eq_zero.mpr hnot)
    exact h.owned.existsUnique hopen
  · have hidle : ¬ x.isConnected := by
      unfold isConnected
      rw [hgone]
      decide
    refine h.owned.closes_eq_one (fun s hs => ?_) hlt
    rw [h.idle hidle] at hs
    cases hs

/-- **Statement handles are owned.** -/
theorem handles_owned {tr : List Operation}
    (ho : Transition.Along (Lifetime.step lib) (Orderly lib) (create c) tr)
    (h : Transition.exec (Lifetime.step lib) (create c) tr = some x) : Accounted x := by
  have howns : Owns x :=
    Transition.exec_inv (I := Owns) (fun _ _ _ hI ho hs => hI.step ho hs) (owns_create c) ho h
  exact howns.accounted

/-- The third `mysql_stmt_init` fails, the first query loses the connection, and the server does
not know the statement at the first execution. -/
def flaky : Lib :=
  { Lib.calm with
    stmtInit := fun k => if k = 2 then some .serverLost else none
    realQuery := fun k => if k = 0 then some .serverLost else none
    stmtExecute := fun k => if k = 0 then some .unknownStatement else none }

/-- Two statements are prepared three times and twice; each of the five handles is closed once. -/
theorem handles_owned_flaky : ∃ x,
    Transition.exec (Lifetime.step flaky) (create ⟨[], [], [], [], 3306, [], 0⟩)
      [.connect false, .prepare [97], .prepare [98], .prepare [99], .query 2 ⟨0, true⟩ [100],
        .run 2 0 [] ⟨1, true⟩, .release 1, .stop, .close] = some x ∧
    x.phase = .gone ∧ x.world.nextHandle = 5 ∧ Accounted x := by
  have hrun : (Transition.exec (Lifetime.step flaky) (create ⟨[], [], [], [], 3306, [], 0⟩)
      [.connect false, .prepare [97], .prepare [98], .prepare [99], .query 2 ⟨0, true⟩ [100],
        .run 2 0 [] ⟨1, true⟩, .release 1, .stop, .close]).map
          (fun x => (x.phase, x.world.nextHandle)) = some (.gone, 5) := by decide +kernel
  obtain ⟨x, hexec, hx⟩ := Option.map_eq_some_iff.mp hrun
  obtain ⟨hphase, hnext⟩ := Prod.mk.inj hx
  exact ⟨x, hexec, hphase, hnext, handles_owned (by decide +kernel) hexec⟩

/-- The server rejects the first query. -/
def rejecting : Lib :=
  { Lib.calm with
    stmtPrepare := fun k => if k = 0 then some .noSuchTable else none }

/-- The server does not know the statement at the first execution. -/
def forgetful : Lib :=
  { Lib.calm with
    stmtExecute := fun k => if k = 0 then some .unknownStatement else none }

/-- The handle of a query that the server rejects has no owner and is never closed, and that of a
statement that is finalized before it is run is closed twice. -/
theorem handles_owned_fails :
    (∃ x, Transition.exec (Lifetime.step rejecting) (create ⟨[], [], [], [], 3306, [], 0⟩)
        [.connect false, .prepare [97], .stop, .close] = some x ∧
      x.phase = .gone ∧ x.world.nextHandle = 1 ∧ .stmtClose 0 ∉ x.world.log ∧ ¬ Accounted x) ∧
    ∃ x, Transition.exec (Lifetime.step forgetful) (create ⟨[], [], [], [], 3306, [], 0⟩)
        [.connect false, .prepare [97], .release 0, .run 2 0 [] ⟨0, true⟩] = some x ∧
      x.world.log.count (.stmtClose 0) = 2 ∧ ¬ Accounted x := by
  constructor
  · have hrun : (Transition.exec (Lifetime.step rejecting) (create ⟨[], [], [], [], 3306, [], 0⟩)
        [.connect false, .prepare [97], .stop, .close]).map (fun x =>
          (x.phase, x.world.nextHandle, x.world.log.count (.stmtClose 0))) =
            some (.gone, 1, 0) := by decide +kernel
    obtain ⟨x, hexec, hx⟩ := Option.map_eq_some_iff.mp hrun
    simp only [Prod.mk.injEq] at hx
    obtain ⟨hphase, hnext, hcount⟩ := hx
    refine ⟨x, hexec, hphase, hnext, List.count_eq_zero.mp hcount, fun haccounted => ?_⟩
    have hone := haccounted.gone hphase 0 (by omega)
    omega
  · have hrun : (Transition.exec (Lifetime.step forgetful) (create ⟨[], [], [], [], 3306, [], 0⟩)
        [.connect false, .prepare [97], .release 0, .run 2 0 [] ⟨0, true⟩]).map (fun x =>
          x.world.log.count (.stmtClose 0)) = some 2 := by decide +kernel
    obtain ⟨x, hexec, hcount⟩ := Option.map_eq_some_iff.mp hrun
    refine ⟨x, hexec, hcount, fun haccounted => ?_⟩
    have hone := haccounted.once 0
    omega

end Lifetime

end Tmysql4.Handler
