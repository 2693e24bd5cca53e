import Tmysql4.Operations

/-! # The credentials that are presented

The constructor of `Database` copies the credentials into fields of fixed sizes, from which every
`mysql_real_connect` takes them.

`credentials_used_iff` is the result: they are presented as they were given, on every connection
of every run, exactly when they fit the fields, and the credentials of two databases are then kept
apart.  Behind it is the invariant `Presents`: a database presents what the constructor has stored
and nothing else. -/

namespace Tmysql4.Handler

open Imperative

variable {lib : Lib} {w w' : World} {c c' : Credentials}

/-! ### What is presented -/

/-- What `mysql_real_connect` hands to the server; a null socket is `none`. -/
structure Presented where
  host : Bytes
  user : Bytes
  pass : Bytes
  db : Bytes
  socket : Option Bytes
deriving DecidableEq

def Request.presented : Request → Option Presented
  | .realConnect host user pass db _ socket _ => some ⟨host, user, pass, db, socket⟩
  | _ => none

/-- What these credentials are to be presented as. -/
def Credentials.presented (c : Credentials) : Presented :=
  ⟨c.host, c.user, c.pass, c.db, if c.socket = [] then none else some c.socket⟩

/-- The database holds these credentials and has presented no others. -/
structure Presents (c : Credentials) (w : World) : Prop where
  credentials : w.credentials = c
  presented : ∀ r ∈ w.log, ∀ p, r.presented = some p → p = c.presented

theorem presents_opened (c : Credentials) : Presents c (.opened c) := ⟨rfl, nofun⟩

/-- More requests that present nothing else. -/
theorem Presents.append (h : Presents c w) {new : List Request}
    (hcredentials : w'.credentials = w.credentials) (hlog : w'.log = w.log ++ new)
    (hnew : ∀ r ∈ new, ∀ p, r.presented = some p → p = c.presented) : Presents c w' := by
  refine ⟨hcredentials.trans h.credentials, fun r hr p hp => ?_⟩
  rw [hlog] at hr
  rcases List.mem_append.mp hr with hr | hr
  · exact h.presented r hr p hp
  · exact hnew r hr p hp

theorem Presents.record (h : Presents c w) {r : Request}
    (hr : ∀ p, r.presented = some p → p = c.presented) :
    Presents c { w with log := w.log ++ [r] } := by
  refine h.append rfl rfl fun r' hr' => ?_
  rw [List.mem_singleton.mp hr']
  exact hr

theorem stable_presents : Stable soundFns (Presents c) where
  call _ _ _ h := ⟨h.credentials, h.presented⟩
  connError _ _ h := ⟨h.credentials, h.presented⟩
  handle _ _ _ _ h := ⟨h.credentials, h.presented⟩
  locals _ _ _ h := ⟨h.credentials, h.presented⟩
  frees _ _ h := ⟨h.credentials, h.presented⟩
  waiter _ _ h := ⟨h.credentials, h.presented⟩
  isPendingCallback _ _ h := ⟨h.credentials, h.presented⟩

theorem presents_mysqlOptions : Preserves (Presents c) (mysqlOptions lib) :=
  (stable_presents.tick (by decide)).bind fun _ => (stable_presents.reportConn _).bind fun _ =>
    Preserves.pure _

/-- `Connect` takes the credentials from the fields. -/
theorem presents_openConnection : Preserves (Presents c) (openConnection lib c) := by
  have hconnect : Preserves (Presents c)
      (mysqlRealConnect lib c (if c.socket = [] then none else some c.socket)
      (c.clientFlags ||| clientMultiResults)) := by
    refine Preserves.bind (Preserves.modify fun w h => h.record ?_) fun _ =>
      (stable_presents.tick (by decide)).bind fun _ =>
      (stable_presents.reportConn _).bind fun _ => Preserves.pure _
    rintro p ⟨⟩
    rfl
  exact presents_mysqlOptions.bind fun _ =>
    (Preserves.ite (Preserves.pure _) presents_mysqlOptions).bind fun _ =>
    Preserves.ite (Preserves.pure _) hconnect

theorem presents_setCharacterSet (charset : Bytes) :
    Preserves (Presents c) (setCharacterSet lib charset) := by
  have hset : Preserves (Presents c) (mysqlSetCharacterSet lib charset) :=
    Preserves.bind (Preserves.modify fun w h => h.record nofun) fun _ =>
      (stable_presents.tick (by decide)).bind fun _ =>
      (stable_presents.reportConn _).bind fun _ => Preserves.pure _
  exact hset.bind fun _ => Preserves.ite (preserves_mysqlError.bind fun _ => Preserves.pure _)
    (Preserves.bind (Preserves.modify fun _ h => ⟨h.credentials, h.presented⟩) fun _ =>
      Preserves.pure _)

theorem presents_closing (h : Presents c w) (stmt : Option HandleId) :
    Presents c (w.closing stmt) := by
  cases stmt with
  | none => exact h
  | some handle => exact h.append rfl rfl fun r hr => by rw [List.mem_singleton.mp hr]; exact nofun

theorem presents_prepare (s : StmtId) : Preserves (Presents c) (prepare lib s) := by
  intro w h
  have hrenewed := prepare_renewed lib s w
  have hclosing := presents_closing h (w.stmt s).stmt
  have hcredentials : (final ((prepare lib s).run w)).credentials =
      (w.closing (w.stmt s).stmt).credentials :=
    hrenewed.credentials.trans (closing_untouched _ _).credentials.symm
  obtain ⟨-, -, -, hlog, -⟩ | ⟨-, -, -, hlog, -⟩ := hrenewed.outcome
  · exact hclosing.append hcredentials (hlog.trans (List.append_nil _).symm) nofun
  · refine hclosing.append hcredentials hlog fun r hr => ?_
    rw [List.mem_singleton.mp hr]
    exact nofun

theorem persistent_presents : Persistent lib (fun _ => True) (fun _ => True) (Presents c) where
  toStable := stable_presents
  cached _ _ _ _ := trivial
  completed _ _ h := ⟨h.credentials, h.presented⟩
  executes r hr _ w h := h.record fun p hp => by
    cases r with
    | realConnect host user pass db port socket flags => cases hr
    | _ => cases hp
  opens w h := by
    rw [h.credentials]
    exact presents_openConnection w h
  sets := presents_setCharacterSet
  prepare s _ := presents_prepare s

/-! ### Runs -/

namespace Lifetime

variable {x x' : Lifetime} {op : Operation}

theorem presents_initialize {initFails : Bool} {error : Option Bytes} (h : Presents c x.world)
    (hrun : Lifetime.initialize lib initFails x = some (error, x')) : Presents c x'.world := by
  obtain ⟨-, -, hworld | hworld⟩ := initialize_cases hrun
  · rwa [hworld]
  · rw [hworld]
    exact persistent_presents.connect false _ h

theorem presents_constructed {query : Bytes} {r : Option StmtId} (h : Presents c w)
    (hconstructed : Constructed lib query w r w') : Presents c w' := by
  obtain ⟨entries, rfl⟩ := hconstructed.leaves
  have hprepared : Presents c
      (final ((prepare lib w.nextStmt).run (w.waiting.allocating (cString query)))) :=
    presents_prepare w.nextStmt _ ⟨h.credentials, h.presented⟩
  exact ⟨hprepared.credentials, hprepared.presented⟩

theorem presents_closeAll (h : Presents c w) (entries : List (Bytes × StmtId)) :
    Presents c (w.closeAll entries) := by
  induction entries generalizing w with
  | nil => exact h
  | cons entry entries ih => exact ih (presents_closing h _)

theorem presents_step (h : Presents c x.world) (hs : x.step lib op = some x') :
    Presents c x'.world := by
  cases steps_of_step hs with
  | setOption => exact presents_mysqlOptions _ h
  | connect created hrun => exact presents_initialize h hrun
  | setCharacterSet charset => exact presents_setCharacterSet charset _ h
  | query hrun => exact (persistent_presents.runQuery trivial _ _).ok hrun h
  | hit hlookup => exact h
  | @miss query r w' hconstructed =>
      have hw' := presents_constructed h hconstructed
      cases r with
      | none => exact hw'
      | some s => exact hw'
  | run hs hrun =>
      exact (persistent_presents.runStatement (fun _ _ => trivial) trivial _ _ _).ok hrun h
  | poll => exact ⟨h.credentials, h.presented⟩
  | @release s hs =>
      have hclosing := presents_closing h (x.world.stmt s).stmt
      exact ⟨hclosing.credentials, hclosing.presented⟩
  | stop => exact h
  | close => exact presents_closeAll h _

end Lifetime

/-! ### The creating calls -/

/-- `tmysql.Create` and `tmysql.Connect`. -/
inductive Creation where
  | create
  | connect (initFails : Bool)

/-- The error of the creating call, and the database. -/
def Credentials.made (lib : Lib) (c : Credentials) : Creation → Option (Option Bytes × Lifetime)
  | .create => some (none, .create c)
  | .connect initFails => Lifetime.initialize lib initFails (.create c)

/-- A creating call with these credentials ends with
`error`, and a run leads its database to `x`. -/
def Credentials.Reaches (c : Credentials) (error : Option Bytes) (x : Lifetime) : Prop :=
  ∃ lib creation x₀ tr, c.made lib creation = some (error, x₀) ∧
    Transition.exec (Lifetime.step lib) x₀ tr = some x

/-- The creating call reports an error, or every connection
is opened with exactly these credentials. -/
def Credentials.Used (c : Credentials) : Prop :=
  ∀ error x, c.Reaches error x →
    error ≠ none ∨ ∀ r ∈ x.world.log, ∀ p, r.presented = some p → p = c.presented

/-- Databases with these credentials never present the same. -/
def Credentials.Apart (c c' : Credentials) : Prop :=
  ∀ error x error' x', c.Reaches error x → c'.Reaches error' x' →
    ∀ r ∈ x.world.log, ∀ r' ∈ x'.world.log, ∀ p, r.presented = some p → r'.presented ≠ some p

structure Credentials.NulFree (c : Credentials) : Prop where
  host : 0 ∉ c.host
  user : 0 ∉ c.user
  pass : 0 ∉ c.pass
  db : 0 ∉ c.db
  socket : 0 ∉ c.socket

/-- The strings are as short as the fields demand. -/
structure Credentials.Fits (c : Credentials) : Prop where
  host : c.host.length ≤ 253
  user : c.user.length ≤ 32
  pass : c.pass.length ≤ 32
  db : c.db.length ≤ 64
  socket : c.socket.length ≤ 107

theorem socket_inj {a b : Bytes}
    (h : (if a = [] then none else some a) = if b = [] then none else some b) : a = b := by
  by_cases ha : a = []
  · by_cases hb : b = []
    · rw [ha, hb]
    · rw [if_pos ha, if_neg hb] at h
      cases h
  · by_cases hb : b = []
    · rw [if_neg ha, if_pos hb] at h
      cases h
    · rw [if_neg ha, if_neg hb] at h
      exact Option.some.inj h

/-- What is stored is presented as it was given when it fits. -/
theorem stored_presented_iff (hc : c.NulFree) : c.stored.presented = c.presented ↔ c.Fits := by
  constructor
  · intro h
    obtain ⟨hhost, huser, hpass, hdb, hsocket⟩ := Presented.mk.inj h
    exact ⟨(CStrings.copy_eq_self_iff.mp hhost).2, (CStrings.copy_eq_self_iff.mp huser).2,
      (CStrings.copy_eq_self_iff.mp hpass).2, (CStrings.copy_eq_self_iff.mp hdb).2,
      (CStrings.copy_eq_self_iff.mp (socket_inj hsocket)).2⟩
  · intro h
    have hhost := CStrings.copy_eq_self_iff.mpr ⟨hc.host, h.host⟩
    have huser := CStrings.copy_eq_self_iff.mpr ⟨hc.user, h.user⟩
    have hpass := CStrings.copy_eq_self_iff.mpr ⟨hc.pass, h.pass⟩
    have hdb := CStrings.copy_eq_self_iff.mpr ⟨hc.db, h.db⟩
    have hsocket := CStrings.copy_eq_self_iff.mpr ⟨hc.socket, h.socket⟩
    simp only [Credentials.stored, Credentials.presented, hhost, huser, hpass, hdb, hsocket]

theorem Credentials.Reaches.presents {error : Option Bytes} {x : Lifetime} (h : c.Reaches error x) :
    Presents c.stored x.world := by
  obtain ⟨lib, creation, x₀, tr, hmade, hexec⟩ := h
  have hstart : Presents c.stored (Lifetime.create c).world := presents_opened _
  have hx₀ : Presents c.stored x₀.world := by
    cases creation with
    | create =>
        cases hmade
        exact hstart
    | connect initFails => exact Lifetime.presents_initialize hstart hmade
  exact Transition.exec_inv' (I := fun x => Presents c.stored x.world)
    (fun _ _ _ hI hs => Lifetime.presents_step hI hs) hx₀ hexec

/-- A database that is connected has presented what is stored. -/
theorem exists_presented (c : Credentials) :
    ∃ x, c.Reaches none x ∧ ∃ r ∈ x.world.log, r.presented = some c.stored.presented := by
  obtain ⟨x, hexec, hlog⟩ :
      ∃ x, Transition.exec (Lifetime.step .calm) (.create c) [.connect false] = some x ∧
      x.world.log = [.realConnect c.stored.host c.stored.user c.stored.pass c.stored.db c.port
        (if c.stored.socket = [] then none else some c.stored.socket)
          (c.clientFlags ||| clientMultiResults)] :=
    ⟨_, rfl, rfl⟩
  refine ⟨x, ⟨.calm, .create, .create c, _, rfl, hexec⟩, ?_⟩
  rw [hlog]
  exact ⟨_, List.mem_singleton_self _, rfl⟩

/-- **The credentials are presented as given exactly when they fit.** -/
theorem credentials_used_iff (hc : c.NulFree) (hc' : c'.NulFree) :
    c.Used ∧ c'.Used ∧ (c.presented ≠ c'.presented → c.Apart c') ↔ c.Fits ∧ c'.Fits := by
  have hfits : ∀ {c : Credentials}, c.NulFree → c.Used → c.Fits := by
    intro c hc hused
    obtain ⟨x, hx, r, hr, hpresented⟩ := exists_presented c
    obtain herror | hlog := hused none x hx
    · exact absurd rfl herror
    · exact (stored_presented_iff hc).mp (hlog r hr _ hpresented)
  have hused : ∀ {c : Credentials}, c.NulFree → c.Fits → c.Used := by
    intro c hc hfits error x hx
    rw [← (stored_presented_iff hc).mpr hfits]
    exact .inr hx.presents.presented
  constructor
  · rintro ⟨h, h', -⟩
    exact ⟨hfits hc h, hfits hc' h'⟩
  · rintro ⟨h, h'⟩
    refine ⟨hused hc h, hused hc' h',
      fun hne error x error' x' hx hx' r hr r' hr' p hp hp' => hne ?_⟩
    rw [← (stored_presented_iff hc).mpr h, ← (stored_presented_iff hc').mpr h',
      ← hx.presents.presented r hr p hp, ← hx'.presents.presented r' hr' p hp']

/-- A user name of 33 bytes that ends with `b`. -/
def longUser (b : UInt8) : Credentials := ⟨[104], List.replicate 32 97 ++ [b], [], [], 3306, [], 0⟩

theorem credentials_used_iff_short :
    (⟨[104], [97], [112], [100], 3306, [], 0⟩ : Credentials).Used ∧
      (⟨[104], [98], [112], [100], 3306, [], 0⟩ : Credentials).Used ∧
      ((⟨[104], [97], [112], [100], 3306, [], 0⟩ : Credentials).presented ≠
          (⟨[104], [98], [112], [100], 3306, [], 0⟩ : Credentials).presented →
        (⟨[104], [97], [112], [100], 3306, [], 0⟩ : Credentials).Apart
          ⟨[104], [98], [112], [100], 3306, [], 0⟩) :=
  (credentials_used_iff ⟨by decide, by decide, by decide, by decide, by decide⟩
    ⟨by decide, by decide, by decide, by decide, by decide⟩).mpr
    ⟨⟨by decide, by decide, by decide, by decide, by decide⟩,
      ⟨by decide, by decide, by decide, by decide, by decide⟩⟩

/-- The last byte of the user name is cut off, and two
databases with different users present the same one. -/
theorem credentials_used_iff_fails : ¬ (longUser 97).Used ∧
    (longUser 97).presented ≠ (longUser 98).presented ∧ ¬ (longUser 97).Apart (longUser 98) := by
  have hstored : (longUser 97).stored.presented = (longUser 98).stored.presented := by decide
  have hne : (longUser 97).stored.presented ≠ (longUser 97).presented := by decide
  obtain ⟨x, hx, r, hr, hpresented⟩ := exists_presented (longUser 97)
  obtain ⟨x', hx', r', hr', hpresented'⟩ := exists_presented (longUser 98)
  refine ⟨fun hused => ?_, by decide, fun hapart => ?_⟩
  · obtain herror | hlog := hused none x hx
    · exact herror rfl
    · exact hne (hlog r hr _ hpresented)
  · exact hapart none x none x' hx hx' r hr r' hr' _ hpresented (hstored ▸ hpresented')

end Tmysql4.Handler
