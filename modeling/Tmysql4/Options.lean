import Tmysql4.Attempts

/-! # Options of a database that is not connected yet

`tmysql.Create` allocates the `MYSQL` structure, `Database:SetOption` works on it and
`Database:Connect` initialises it, which resets all its options.  The events are ghost: they
record the structure that each call of the library finds.

`options_take_effect_iff` is the result: the options that
were set take effect exactly when none was set. -/

namespace Tmysql4.Handler

/-- A `MYSQL` structure as far as its options go; what an
uninitialised one holds is indeterminate. -/
inductive Memory (O : Type) where
  | uninitialised
  | initialised (o : O)
deriving DecidableEq

/-- The library, over option states `O`.  On an uninitialised structure `mysql_options` is
undefined; `undefinedSet` is what it happens to report. -/
structure OptionLib (O : Type) where
  fresh : O
  initFails : Bool
  set : ℤ → Bytes → O → O × Option LibError
  undefinedSet : ℤ → Bytes → Option LibError
  realConnect : O → Option LibError

/-- A call with the structure that it finds. -/
inductive OptionEvent (O : Type) where
  | options (option : ℤ) (arg : Bytes) (found : Memory O)
  | realConnect (found : Memory O)
deriving DecidableEq

structure Unconnected (O : Type) where
  mysql : Memory O
  isConnected : Bool
  events : List (OptionEvent O)
deriving DecidableEq

variable {O : Type} (lib : OptionLib O)

/-! ### The calls -/

/-- `Database::Database`: the structure is allocated. -/
def Unconnected.create : Unconnected O := ⟨.uninitialised, false, []⟩

/-- `mysql_options`. -/
def setOption (option : ℤ) (arg : Bytes) (db : Unconnected O) : Option LibError × Unconnected O :=
  let events := db.events ++ [.options option arg db.mysql]
  match db.mysql with
  | .uninitialised => (lib.undefinedSet option arg, { db with events := events })
  | .initialised o => ((lib.set option arg o).2, { db with
      mysql := .initialised (lib.set option arg o).1
      events := events })

/-- `mysql_real_connect`. -/
def openServer (db : Unconnected O) : Option LibError × Unconnected O :=
  let db' := { db with events := db.events ++ [.realConnect db.mysql] }
  match db.mysql with
  | .uninitialised => (none, db')
  | .initialised o => (lib.realConnect o, db')

/-- `Database::Option`, and `Database:SetOption` with it: whether it succeeded, and the error. -/
def Unconnected.option (option : ℤ) (arg : Bytes) (db : Unconnected O) :
    (Bool × Bytes) × Unconnected O :=
  match setOption lib option arg db with
  | (some e, db) => ((false, e.text), db)
  | (none, db) => ((true, []), db)

/-- `MYSQL_OPT_RECONNECT`. -/
def optReconnect : ℤ := 20

/-- `MYSQL_PLUGIN_DIR`. -/
def pluginDir : ℤ := 22

/-- `Database::Connect` with the directory of the plugins; the result is the error.  There is no
character set and no statement yet that it would have to restore. -/
def Unconnected.connect (wkdir : Bytes) (db : Unconnected O) : Option Bytes × Unconnected O :=
  match setOption lib optReconnect [0] db with
  | (some e, db) => (some (connectError (diagOf (some e))), db)
  | (none, db) =>
      match setOption lib pluginDir wkdir db with
      | (some e, db) => (some (connectError (diagOf (some e))), db)
      | (none, db) =>
          match openServer lib db with
          | (some e, db) => (some (connectError (diagOf (some e))), db)
          | (none, db) => (none, db)

/-- "Out of memory!" -/
def outOfMemory : Bytes := [79, 117, 116, 32, 111, 102, 32, 109, 101, 109, 111, 114, 121, 33]

/-- `Database::Initialize`; the result is the error. -/
def Unconnected.initialize (wkdir : Bytes) (db : Unconnected O) : Option Bytes × Unconnected O :=
  if lib.initFails then (some outOfMemory, db)
  else
    match Unconnected.connect lib wkdir { db with mysql := .initialised lib.fresh } with
    | (some error, db) => (some error, db)
    | (none, db) => (none, { db with isConnected := true })

/-- "Tried to use an already connected tmysql database!" -/
def alreadyConnected : Bytes :=
  "Tried to use an already connected tmysql database!".toList.map fun c => c.toNat.toUInt8

/-- `Database:Connect`: an error is raised, or the database
is initialised; it is deleted when that fails. -/
def Unconnected.luaConnect (wkdir : Bytes) (db : Unconnected O) :
    Except Bytes (Option Bytes × Unconnected O) :=
  if db.isConnected then .error alreadyConnected else .ok ( Unconnected.initialize lib wkdir db)

/-- Calls of `Database:SetOption`, in their order. -/
def Unconnected.setOptions (settings : List (ℤ × Bytes)) (db : Unconnected O) : Unconnected O :=
  settings.foldl (fun db setting => (db.option lib setting.1 setting.2).2) db

/-! ### What is to take effect -/

/-- An option state with these options applied in their order. -/
def OptionLib.applied (settings : List (ℤ × Bytes)) (o : O) : O :=
  settings.foldl (fun o setting => (lib.set setting.1 setting.2 o).1) o

/-- The options that `Database::Connect` sets itself. -/
def ownSettings (wkdir : Bytes) : List (ℤ × Bytes) := [(optReconnect, [0]), (pluginDir, wkdir)]

/-- Every option was set on an initialised structure, and `mysql_real_connect` finds the options
of a fresh one with these options and those of `Connect`. -/
structure TakeEffect (wkdir : Bytes) (settings : List (ℤ × Bytes)) : Prop where
  set : ∀ option arg found,
    .options option arg found ∈ (Unconnected.create.setOptions lib settings).events →
      ∃ o, found = .initialised o
  found : ∀ result db found, (Unconnected.create.setOptions lib settings).luaConnect lib wkdir =
    .ok (result, db) → .realConnect found ∈ db.events →
    found = .initialised (lib.applied (ownSettings wkdir) (lib.applied settings lib.fresh))

variable {lib} {db db' : Unconnected O} {wkdir : Bytes}

/-! ### What the calls find -/

theorem option_uninitialised (lib : OptionLib O) (option : ℤ) (arg : Bytes)
    (h : db.mysql = .uninitialised) :
    (db.option lib option arg).2 =
      { db with events := db.events ++ [.options option arg .uninitialised] } := by
  unfold Unconnected.option setOption
  rw [h]
  cases lib.undefinedSet option arg with
  | none => rfl
  | some e => rfl

/-- No option finds an initialised structure. -/
theorem setOptions_uninitialised (settings : List (ℤ × Bytes)) (h : db.mysql = .uninitialised) :
    db.setOptions lib settings =
      { db with
        events := db.events ++
          settings.map fun setting => .options setting.1 setting.2 .uninitialised } := by
  induction settings generalizing db with
  | nil => simp [Unconnected.setOptions]
  | cons setting settings ih =>
      have hcons : db.setOptions lib (setting :: settings) =
          (db.option lib setting.1 setting.2).2.setOptions lib settings := rfl
      have hstep := option_uninitialised lib setting.1 setting.2 h
      have hmysql : (db.option lib setting.1 setting.2).2.mysql = .uninitialised := by
        rw [hstep]
        exact h
      rw [hcons, ih hmysql, hstep, List.map_cons, List.append_assoc]
      rfl

theorem setOption_initialised {o : O} (option : ℤ) (arg : Bytes) (h : db.mysql = .initialised o) :
    setOption lib option arg db = ((lib.set option arg o).2, { db with
      mysql := .initialised (lib.set option arg o).1
      events := db.events ++ [.options option arg (.initialised o)] }) := by
  unfold setOption
  rw [h]

/-- `mysql_real_connect` finds the options that `Connect` has set itself. -/
theorem connect_found {o : O} {result : Option Bytes} {found : Memory O}
    (h : db.mysql = .initialised o) (hevents : .realConnect found ∉ db.events)
    (hrun : db.connect lib wkdir = (result, db')) (hmem : .realConnect found ∈ db'.events) :
    found = .initialised (lib.applied (ownSettings wkdir) o) := by
  have happlied : lib.applied (ownSettings wkdir) o =
      (lib.set pluginDir wkdir (lib.set optReconnect [0] o).1).1 := rfl
  rw [happlied]
  unfold Unconnected.connect at hrun
  rw [setOption_initialised optReconnect [0] h] at hrun
  cases hfirst : (lib.set optReconnect [0] o).2 with
  | some e =>
      rw [hfirst] at hrun
      cases hrun
      simp [hevents] at hmem
  | none =>
      rw [hfirst] at hrun
      simp only at hrun
      rw [setOption_initialised pluginDir wkdir rfl] at hrun
      cases hsecond : (lib.set pluginDir wkdir (lib.set optReconnect [0] o).1).2 with
      | some e =>
          rw [hsecond] at hrun
          cases hrun
          simp [hevents] at hmem
      | none =>
          rw [hsecond] at hrun
          simp only [openServer] at hrun
          cases hreal : lib.realConnect
            (lib.set pluginDir wkdir (lib.set optReconnect [0] o).1).1 with
          | some e =>
              rw [hreal] at hrun
              cases hrun
              simpa [hevents] using hmem
          | none =>
              rw [hreal] at hrun
              cases hrun
              simpa [hevents] using hmem

/-- The calls of `Connect` succeed one after the other. -/
theorem connect_eq_none_iff {o : O} (h : db.mysql = .initialised o) :
    (db.connect lib wkdir).1 = none ↔ (lib.set optReconnect [0] o).2 = none ∧
      (lib.set pluginDir wkdir (lib.set optReconnect [0] o).1).2 = none ∧
      lib.realConnect (lib.applied (ownSettings wkdir) o) = none := by
  have happlied : lib.applied (ownSettings wkdir) o =
      (lib.set pluginDir wkdir (lib.set optReconnect [0] o).1).1 := rfl
  rw [happlied]
  unfold Unconnected.connect
  rw [setOption_initialised optReconnect [0] h]
  cases hfirst : (lib.set optReconnect [0] o).2 with
  | some e => simp
  | none =>
      simp only
      rw [setOption_initialised pluginDir wkdir rfl]
      cases hsecond : (lib.set pluginDir wkdir (lib.set optReconnect [0] o).1).2 with
      | some e => simp
      | none =>
          simp only [openServer]
          cases hreal : lib.realConnect
            (lib.set pluginDir wkdir (lib.set optReconnect [0] o).1).1 with
          | some e => simp
          | none => simp

/-- The model of `Connect` without options fails when this one does. -/
theorem openConnection_fails_iff {o : O} (h : db.mysql = .initialised o) {oracle : Lib} {w : World}
    (hfirst : oracle.options (w.calls .options) = (lib.set optReconnect [0] o).2)
    (hsecond : oracle.options (w.calls .options + 1) =
      (lib.set pluginDir wkdir (lib.set optReconnect [0] o).1).2)
    (hreal : oracle.realConnect (w.calls .realConnect) = lib.realConnect
      (lib.applied (ownSettings wkdir) o)) :
    ∃ failed w', (openConnection oracle w.credentials).run w = .ok failed w' ∧
      (failed = false ↔ (db.connect lib wkdir).1 = none) := by
  obtain ⟨failed, w', hrun, -, hfailed⟩ := openConnection_run oracle w
  refine ⟨failed, w', hrun, hfailed.trans ?_⟩
  rw [connect_eq_none_iff h, hfirst, hsecond, hreal]

/-- `Database:Connect` finds a fresh structure, whatever was set before. -/
theorem luaConnect_found {result : Option Bytes} {found : Memory O}
    (hevents : .realConnect found ∉ db.events) (hrun : db.luaConnect lib wkdir = .ok (result, db'))
    (hmem : .realConnect found ∈ db'.events) :
    found = .initialised (lib.applied (ownSettings wkdir) lib.fresh) := by
  unfold Unconnected.luaConnect at hrun
  split at hrun
  · cases hrun
  · have hfresh : .realConnect found ∉
        ({ db with mysql := .initialised lib.fresh } : Unconnected O).events := hevents
    unfold Unconnected.initialize at hrun
    split at hrun
    · cases hrun
      exact absurd hmem hevents
    · split at hrun
      · rename_i error db₁ hconnect
        cases hrun
        exact connect_found rfl hfresh hconnect hmem
      · rename_i db₁ hconnect
        cases hrun
        exact connect_found rfl hfresh hconnect hmem

/-- **The options take effect exactly when there are none.** -/
theorem options_take_effect_iff (lib : OptionLib O) (wkdir : Bytes) (settings : List (ℤ × Bytes)) :
    TakeEffect lib wkdir settings ↔ settings = [] := by
  constructor
  · intro h
    cases settings with
    | nil => rfl
    | cons setting settings =>
        have hmem : .options setting.1 setting.2 .uninitialised ∈
            (Unconnected.create.setOptions lib (setting :: settings)).events := by
          rw [setOptions_uninitialised _ rfl, List.map_cons]
          exact List.mem_append_right _ List.mem_cons_self
        obtain ⟨o, ho⟩ := h.set _ _ _ hmem
        cases ho
  · intro h
    subst h
    exact ⟨fun option arg found hmem => absurd hmem List.not_mem_nil,
      fun result db found hrun hmem => luaConnect_found List.not_mem_nil hrun hmem⟩

/-- The options are the settings so far. -/
def OptionLib.history : OptionLib (List (ℤ × Bytes)) where
  fresh := []
  initFails := false
  set option arg o := (o ++ [(option, arg)], none)
  undefinedSet _ _ := none
  realConnect _ := none

/-- `MYSQL_SET_CHARSET_NAME` is set to "utf8" and `Connect` succeeds, but not with it. -/
theorem options_take_effect_iff_fails :
    ¬TakeEffect .history [] [(7, [117, 116, 102, 56])] ∧
      (Unconnected.create.setOptions .history [(7, [117, 116, 102, 56])]).luaConnect .history [] =
        .ok (none, ⟨.initialised [(20, [0]), (22, [])], true,
          [.options 7 [117, 116, 102, 56] .uninitialised, .options 20 [0] (.initialised []),
            .options 22 [] (.initialised [(20, [0])]),
              .realConnect (.initialised [(20, [0]), (22, [])])]⟩) := by
  refine ⟨fun h => ?_, rfl⟩
  obtain ⟨o, ho⟩ := h.set 7 [117, 116, 102, 56] .uninitialised List.mem_cons_self
  cases ho

end Tmysql4.Handler
