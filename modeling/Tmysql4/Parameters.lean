import Tmysql4.LuaBase
import Tmysql4.Rules

/-! # Statement parameters

`luaRun` is `PStatement::lua_Run` on the stack of its arguments.  The parameter loop allocates one
buffer after the other and may end at any of them, so `bindParameters_cases` describes both ends
by the binds made so far.

`run_rejects_or_queues` says when a call raises an error, and that it then
leaves nothing behind. `Transmits` collects what `mysql_stmt_execute` may
send for a list of parameters; `parameters_determined_iff` says which lists
that determines: those without a boolean, whose bind has no length. -/

namespace Tmysql4.Handler

open Imperative LuaBase

/-- The arguments of a method: numbers are bit patterns, and
the user data of a statement is its pointer. -/
abbrev LuaState := Machine UInt64 ℕ (Option StmtId)

abbrev Argument := LuaBase.Value UInt64 ℕ (Option StmtId)

def mysqlTypeDouble : ℕ := 5
def mysqlTypeBit : ℕ := 16

/-- A handler of `RunStatement` with the references that its action stores. -/
structure RunTask where
  stmt : StmtId
  binds : List Bind
  callback : ℤ
  callbackref : ℤ
  usenumbers : Bool
deriving DecidableEq

/-- `allocated` and `frees` have the buffers by the way in which they are to be released and were
released; `beyond` is what lies in memory after the buffer of a parameter. -/
structure RunState where
  lua : LuaState
  iStatementMTID : ℕ
  typeName : LuaType → String
  numArgs : StmtId → ℕ
  beyond : ℕ → Bytes
  allocated : List Free
  frees : List Free
  posted : List RunTask

/-- What ends a call other than a return; `undefined` is an
operation that is not allowed on the stack. -/
inductive RunError where
  | checkType (iStackPos : ℕ)
  | throwError (strError : String)
  | undefined
deriving DecidableEq

abbrev Run := EStateM RunError RunState

/-! ### `PStatement::lua_Run` -/

/-- `getPStatementFromStack` with `throwNullError`. -/
def getPStatementFromStack : Run StmtId := do
  let s ← get
  match s.lua.value 1 with
  | .userdata type pstmt =>
      if type ≠ s.iStatementMTID then throw (.checkType 1)
      else
        match pstmt with
        | none => throw (.throwError "Tried to use a NULL tmysql prepared statement!")
        | some pstmt => pure pstmt
  | _ => throw (.checkType 1)

def allocate (buffer : Free) : Run Unit :=
  modify fun s => { s with allocated := s.allocated ++ [buffer] }

/-- `deleteBinds` on the first `count` binds. -/
def deleteRunBinds (binds : List Bind) (count : ℕ) : Run Unit :=
  modify fun s => { s with frees := s.frees ++ freesFrom (binds.take count) 0 ++ [.binds] }

/-- The bytes of a number, the lowest first. -/
def littleEndian : ℕ → ℕ → Bytes
  | 0, _ => []
  | k + 1, n => (n % 256).toUInt8 :: littleEndian k (n / 256)

def unexpectedType (typeName : String) (i : ℕ) : String :=
  "Unexpected type '" ++ typeName ++ "' in prepared parameter #" ++ toString i ++
    ": expected string, number, boolean, or nil"

/-- The body of the parameter loop, after the binds made so far. -/
def bindParameter (binds : List Bind) : Run Bind := do
  let s ← get
  match s.lua.value ↑(binds.length + 2) with
  | .string str => do
      allocate (.array binds.length)
      pure ⟨mysqlTypeString, str, str.length, s.beyond binds.length⟩
  | .bool b => do
      allocate (.scalar binds.length)
      pure ⟨mysqlTypeBit, [if b then 1 else 0], 0, s.beyond binds.length⟩
  | .number n => do
      allocate (.scalar binds.length)
      pure ⟨mysqlTypeDouble, littleEndian 8 n.toNat, 0, s.beyond binds.length⟩
  | .nil => pure ⟨mysqlTypeNull, [], 0, []⟩
  | v => do
      deleteRunBinds binds binds.length
      throw (.throwError (unexpectedType (s.typeName v.type) (binds.length + 1)))

/-- The parameter loop, with the number of parameters to go. -/
def bindParameters : ℕ → List Bind → Run (List Bind)
  | 0, binds => pure binds
  | k + 1, binds => do
      let bind ← bindParameter binds
      bindParameters k (binds ++ [bind])

/-- `Push` and `ReferenceCreate`. -/
def createReference (iStackPos : ℕ) : Run ℤ := do
  let s ← get
  match (s.lua.push iStackPos).bind fun lua => lua.referenceCreate with
  | none => throw .undefined
  | some (r, lua) => do
      set { s with lua := lua }
      pure r

/-- A reference to an argument that is wanted, else `-1`. -/
def referenceIf (wanted : Bool) (iStackPos : ℕ) : Run ℤ :=
  if wanted then createReference iStackPos else pure (-1)

/-- `Database::QueueStatement`. -/
def queueStatement (task : RunTask) : Run Unit :=
  modify fun s => { s with posted := s.posted ++ [task] }

/-- `lua_Run` after the parameter loop. -/
def queueRun (pstmt : StmtId) (binds : List Bind) (n : ℕ) : Run Unit := do
  let s ← get
  let callbackfunc ← referenceIf (s.lua.getType ↑(n + 2) = .function) (n + 2)
  let s ← get
  let callbackref ← referenceIf (s.lua.getType ↑(n + 3) ≠ .nil) (n + 3)
  let s ← get
  queueStatement ⟨pstmt, binds, callbackfunc, callbackref, s.lua.getBool ↑(n + 4)⟩

/-- `PStatement::lua_Run`. -/
def luaRun : Run Unit := do
  let pstmt ← getPStatementFromStack
  let s ← get
  if s.lua.top < s.numArgs pstmt + 1 then
    throw (.throwError "Attempting to call Run without enough arguments for prepared statement")
  else do
    allocate .binds
    let binds ← bindParameters (s.numArgs pstmt) []
    queueRun pstmt binds (s.numArgs pstmt)

/-! ### The parameter loop -/

/-- The bind of an argument, `none` for a type that is not taken. -/
def bindOf (beyond : Bytes) : Argument → Option Bind
  | .string str => some ⟨mysqlTypeString, str, str.length, beyond⟩
  | .bool b => some ⟨mysqlTypeBit, [if b then 1 else 0], 0, beyond⟩
  | .number n => some ⟨mysqlTypeDouble, littleEndian 8 n.toNat, 0, beyond⟩
  | .nil => some ⟨mysqlTypeNull, [], 0, []⟩
  | _ => none

/-- What the parameter loop has allocated for the binds from `i` on. -/
def buffersFrom : List Bind → ℕ → List Free
  | [], _ => []
  | b :: binds, i =>
      if b.bufferType = mysqlTypeNull then buffersFrom binds (i + 1)
      else if b.bufferType = mysqlTypeString then .array i :: buffersFrom binds (i + 1)
      else .scalar i :: buffersFrom binds (i + 1)

theorem buffersFrom_append (binds more : List Bind) (i : ℕ) :
    buffersFrom (binds ++ more) i = buffersFrom binds i ++ buffersFrom more (i + binds.length) := by
  induction binds generalizing i with
  | nil => rfl
  | cons b binds ih =>
      have hi : i + 1 + binds.length = i + (b :: binds).length := by
        rw [List.length_cons]
        omega
      rw [List.cons_append, buffersFrom, buffersFrom]
      split
      · rw [ih, hi]
      · split
        · rw [ih, hi, List.cons_append]
        · rw [ih, hi, List.cons_append]

/-- The default case of the loop. -/
theorem rejectParameter_run (binds : List Bind) (strError : String) (s : RunState) :
    (do
      deleteRunBinds binds binds.length
      throw (.throwError strError) : Run Bind).run s =
      .error (.throwError strError)
        { s with frees := s.frees ++ freesFrom binds 0 ++ [.binds] } := by
  have hrun : (deleteRunBinds binds binds.length).run s =
      .ok () { s with frees := s.frees ++ freesFrom (binds.take binds.length) 0 ++ [.binds] } := rfl
  rw [run_bind_ok hrun, List.take_length]
  rfl

/-- The loop takes the argument, with its buffer, or releases everything and raises an error. -/
theorem bindParameter_cases (binds : List Bind) (s : RunState) :
    (∃ b, bindOf (s.beyond binds.length) (s.lua.value ↑(binds.length + 2)) = some b ∧
      (bindParameter binds).run s =
        .ok b { s with allocated := s.allocated ++ buffersFrom [b] binds.length }) ∨
    (bindOf (s.beyond binds.length) (s.lua.value ↑(binds.length + 2)) = none ∧
      ∃ strError, (bindParameter binds).run s =
        .error (.throwError strError)
          { s with frees := s.frees ++ freesFrom binds 0 ++ [.binds] }) := by
  rw [bindParameter, run_bind_ok (EStateM.run_get s)]
  cases s.lua.value ↑(binds.length + 2) with
  | string str => exact Or.inl ⟨_, rfl, rfl⟩
  | bool b => exact Or.inl ⟨_, rfl, rfl⟩
  | number n => exact Or.inl ⟨_, rfl, rfl⟩
  | nil =>
      refine Or.inl ⟨_, rfl, ?_⟩
      simp [buffersFrom]
  | table t => exact Or.inr ⟨rfl, _, rejectParameter_run binds _ s⟩
  | function f => exact Or.inr ⟨rfl, _, rejectParameter_run binds _ s⟩
  | userdata type u => exact Or.inr ⟨rfl, _, rejectParameter_run binds _ s⟩

/-- What the loop has made of the arguments from `i` on. -/
def BindsOf (s : RunState) (i : ℕ) (binds : List Bind) : Prop :=
  ∀ j (hj : j < binds.length), bindOf (s.beyond (i + j)) (s.lua.value ↑(i + j + 2)) = some binds[j]

theorem BindsOf.cons {s : RunState} {i : ℕ} {b : Bind} {binds : List Bind}
    (hb : bindOf (s.beyond i) (s.lua.value ↑(i + 2)) = some b) (h : BindsOf s (i + 1) binds) :
    BindsOf s i (b :: binds) := by
  intro j hj
  cases j with
  | zero => exact hb
  | succ j =>
      have hij : i + (j + 1) = i + 1 + j := by omega
      rw [hij]
      exact h j (Nat.lt_of_succ_lt_succ hj)

/-- The loop takes all arguments, or those before the first that it does not take. -/
theorem bindParameters_cases (k : ℕ) (binds : List Bind) (s : RunState) :
    (∃ more, more.length = k ∧ BindsOf s binds.length more ∧
      (bindParameters k binds).run s =
        .ok (binds ++ more) { s with allocated := s.allocated ++ buffersFrom more binds.length }) ∨
    (∃ more strError, more.length < k ∧ BindsOf s binds.length more ∧
      bindOf (s.beyond (binds.length + more.length))
        (s.lua.value ↑(binds.length + more.length + 2)) = none ∧
      (bindParameters k binds).run s = .error (.throwError strError) { s with
        allocated := s.allocated ++ buffersFrom more binds.length
        frees := s.frees ++ freesFrom (binds ++ more) 0 ++ [.binds] }) := by
  induction k generalizing binds s with
  | zero =>
      refine Or.inl ⟨[], rfl, fun j hj => absurd hj (Nat.not_lt_zero j), ?_⟩
      simp [bindParameters, buffersFrom]
  | succ k ih =>
      obtain ⟨b, hb, hrun⟩ | ⟨hnone, strError, hrun⟩ := bindParameter_cases binds s
      · have hlen : (binds ++ [b]).length = binds.length + 1 := List.length_append
        have happend : ∀ more, binds ++ [b] ++ more = binds ++ b :: more := fun more => by simp
        have hfrees : ∀ more, s.allocated ++ buffersFrom [b] binds.length ++
            buffersFrom more (binds.length + 1) =
            s.allocated ++ buffersFrom (b :: more) binds.length := fun more => by
          rw [List.append_assoc]
          exact congrArg _ (buffersFrom_append [b] more binds.length).symm
        obtain ⟨more, hmore, hof, hrest⟩ | ⟨more, strError, hmore, hof, hnone, hrest⟩ :=
          ih (binds ++ [b]) { s with allocated := s.allocated ++ buffersFrom [b] binds.length }
        · rw [hlen, happend, hfrees] at hrest
          rw [hlen] at hof
          refine Or.inl ⟨b :: more, by rw [List.length_cons, hmore], .cons hb hof, ?_⟩
          rw [bindParameters, run_bind_ok hrun, hrest]
        · rw [hlen, happend, hfrees] at hrest
          rw [hlen] at hof hnone
          have hidx : binds.length + (b :: more).length = binds.length + 1 + more.length := by
            rw [List.length_cons]
            omega
          refine Or.inr ⟨b :: more, strError, by rw [List.length_cons]; omega, .cons hb hof, ?_, ?_⟩
          · rw [hidx]
            exact hnone
          · rw [bindParameters, run_bind_ok hrun, hrest]
      · refine Or.inr ⟨[], strError, Nat.succ_pos k, fun j hj => absurd hj (Nat.not_lt_zero j),
          hnone, ?_⟩
        rw [bindParameters, run_bind_error hrun]
        simp [buffersFrom]

/-! ### References -/

/-- `r` is a new reference to `v` when it is wanted, else `-1`. -/
structure Refers (lua lua' : LuaState) (wanted : Prop) (v : Argument) (r : ℤ) : Prop where
  created : wanted → 0 < r ∧ lua.reference r = .nil ∧ lua'.reference r = v
  absent : ¬wanted → r = -1

theorem Refers.congr {lua lua' : LuaState} {wanted wanted' : Prop} {v : Argument} {r : ℤ}
    (h : Refers lua lua' wanted v r) (hiff : wanted ↔ wanted') : Refers lua lua' wanted' v r :=
  ⟨fun hw => h.created (hiff.mpr hw), fun hw => h.absent fun hw' => hw (hiff.mp hw')⟩

theorem createReference_run {s : RunState} {i : ℕ} (hv : s.lua.value i ≠ .nil) :
    (createReference i).run s =
      .ok ((s.lua.nextRef : ℤ) + 1) { s with lua := s.lua.refer (s.lua.value i) } := by
  rw [createReference, run_bind_ok (EStateM.run_get s), Machine.push_referenceCreate hv]
  rfl

/-- At most the reference `r` is new. -/
structure Makes (lua lua' : LuaState) (wanted : Bool) (v : Argument) (r : ℤ) : Prop where
  refers : Refers lua lua' (wanted = true) v r
  others : ∀ r', r' ≠ r → lua'.reference r' = lua.reference r'
  stack : lua'.stack = lua.stack

theorem makes_refer (lua : LuaState) (v : Argument) :
    Makes lua (lua.refer v) true v (lua.nextRef + 1) where
  refers := {
    created := fun _ => ⟨by omega,
      Machine.reference_nextRef, by rw [Machine.reference_refer, if_pos rfl]⟩
    absent := fun h => absurd rfl h }
  others r' hr' := by rw [Machine.reference_refer, if_neg hr']
  stack := rfl

theorem makes_none (lua : LuaState) (v : Argument) : Makes lua lua false v (-1) where
  refers := {
    created := fun h => by cases h
    absent := fun _ => rfl }
  others _ _ := rfl
  stack := rfl

theorem referenceIf_run (s : RunState) (i : ℕ) (wanted : Bool)
    (hv : wanted = true → s.lua.value i ≠ .nil) :
    ∃ r lua', (referenceIf wanted i).run s = .ok r { s with lua := lua' } ∧
      Makes s.lua lua' wanted (s.lua.value i) r := by
  cases wanted with
  | true => exact ⟨_, _, createReference_run (hv rfl), makes_refer _ _⟩
  | false => exact ⟨_, _, rfl, makes_none _ _⟩

theorem Makes.ne_nil {lua lua' : LuaState} {wanted : Bool} {v : Argument} {r : ℤ}
    (h : Makes lua lua' wanted v r) (hv : wanted = true → v ≠ .nil) :
    r = -1 ∨ lua'.reference r ≠ .nil := by
  cases wanted with
  | true =>
      obtain ⟨-, -, href⟩ := h.refers.created rfl
      rw [href]
      exact Or.inr (hv rfl)
  | false => exact Or.inl (h.refers.absent Bool.false_ne_true)

/-- A handler is posted, with the references to the arguments after the first `n + 1`. -/
structure Posted (s s' : RunState) (n : ℕ) (task : RunTask) : Prop where
  posted : s'.posted = s.posted ++ [task]
  callback : Refers s.lua s'.lua (s.lua.getType ↑(n + 2) = .function) (s.lua.value ↑(n + 2))
    task.callback
  callbackref : Refers s.lua s'.lua (s.lua.value ↑(n + 3) ≠ .nil) (s.lua.value ↑(n + 3))
    task.callbackref
  distinct : task.callback = task.callbackref → task.callback = -1
  usenumbers : task.usenumbers = s.lua.getBool ↑(n + 4)
  others : ∀ r, r ≠ task.callback → r ≠ task.callbackref → s'.lua.reference r = s.lua.reference r
  stack : s'.lua.stack = s.lua.stack
  frees : s'.frees = s.frees

theorem getType_ne_nil {lua : LuaState} {i : ℤ} {type : LuaType} (h : lua.getType i = type)
    (htype : type ≠ .nil) : lua.value i ≠ .nil := by
  intro hnil
  rw [Machine.getType, hnil] at h
  exact htype h.symm

/-- Two references, one after the other. -/
theorem Makes.refers_trans {lua lua₁ lua₂ : LuaState} {b₁ b₂ : Bool} {v₁ v₂ : Argument} {r₁ r₂ : ℤ}
    (h₁ : Makes lua lua₁ b₁ v₁ r₁) (h₂ : Makes lua₁ lua₂ b₂ v₂ r₂) (hv₁ : b₁ = true → v₁ ≠ .nil) :
    Refers lua lua₂ (b₁ = true) v₁ r₁ ∧ Refers lua lua₂ (b₂ = true) v₂ r₂ ∧
      (r₁ = r₂ → r₁ = -1) := by
  have hne : b₁ = true → b₂ = true → r₁ ≠ r₂ := by
    rintro hb₁ hb₂ rfl
    obtain ⟨-, -, href⟩ := h₁.refers.created hb₁
    obtain ⟨-, hfree, -⟩ := h₂.refers.created hb₂
    exact hv₁ hb₁ (href.symm.trans hfree)
  have hne' : b₁ = true → r₁ ≠ r₂ := by
    intro hb₁ heq
    cases hb₂ : b₂ with
    | true => exact hne hb₁ hb₂ heq
    | false =>
        have habsent := h₂.refers.absent (by simp [hb₂])
        have hpos := (h₁.refers.created hb₁).1
        omega
  refine ⟨⟨fun hb₁ => ?_, h₁.refers.absent⟩, ⟨fun hb₂ => ?_, h₂.refers.absent⟩, fun heq => ?_⟩
  · obtain ⟨hpos, hfree, href⟩ := h₁.refers.created hb₁
    exact ⟨hpos, hfree, (h₂.others r₁ (hne' hb₁)).trans href⟩
  · obtain ⟨hpos, hfree, href⟩ := h₂.refers.created hb₂
    refine ⟨hpos, ?_, href⟩
    rw [← h₁.others r₂ ?_]
    · exact hfree
    · rintro rfl
      cases hb₁ : b₁ with
      | true => exact hne hb₁ hb₂ rfl
      | false =>
          have habsent := h₁.refers.absent (by simp [hb₁])
          omega
  · cases hb₁ : b₁ with
    | true => exact absurd heq (hne' hb₁)
    | false => exact h₁.refers.absent (by simp [hb₁])

/-- The call is accepted once its parameters are bound. -/
theorem queueRun_run (pstmt : StmtId) (binds : List Bind) (n : ℕ) (s : RunState) :
    ∃ task s', (queueRun pstmt binds n).run s = .ok () s' ∧ task.stmt = pstmt ∧ task.binds = binds ∧
      s'.allocated = s.allocated ∧ Posted s s' n task := by
  have hfunction : decide (s.lua.getType ↑(n + 2) = .function) = true →
      s.lua.value ↑(n + 2) ≠ .nil :=
    fun h => getType_ne_nil (of_decide_eq_true h) (by decide)
  obtain ⟨r₁, lua₁, hrun₁, hmakes₁⟩ := referenceIf_run s (n + 2) _ hfunction
  have hvalue : ∀ i, lua₁.value i = s.lua.value i := Machine.value_congr hmakes₁.stack
  have hobject : decide (lua₁.getType ↑(n + 3) ≠ .nil) = true → lua₁.value ↑(n + 3) ≠ .nil :=
    fun h hnil => of_decide_eq_true h (by rw [Machine.getType, hnil]; rfl)
  obtain ⟨r₂, lua₂, hrun₂, hmakes₂⟩ :=
    referenceIf_run { s with lua := lua₁ } (n + 3) (decide (lua₁.getType ↑(n + 3) ≠ .nil)) hobject
  obtain ⟨hrefers₁, hrefers₂, hdistinct⟩ := hmakes₁.refers_trans hmakes₂ hfunction
  have hbool : lua₂.getBool ↑(n + 4) = s.lua.getBool ↑(n + 4) := by
    unfold Machine.getBool
    rw [Machine.value_congr hmakes₂.stack, hvalue]
  refine ⟨⟨pstmt, binds, r₁, r₂, s.lua.getBool ↑(n + 4)⟩, { s with
    lua := lua₂
    posted := s.posted ++ [⟨pstmt, binds, r₁, r₂, s.lua.getBool ↑(n + 4)⟩] }, ?_, rfl, rfl, rfl, ?_⟩
  · rw [queueRun, run_bind_ok (EStateM.run_get s), run_bind_ok hrun₁,
      run_bind_ok (EStateM.run_get _), run_bind_ok hrun₂, run_bind_ok (EStateM.run_get _), hbool]
    rfl
  · exact {
      posted := rfl
      callback := hrefers₁.congr decide_eq_true_iff
      callbackref := hvalue _ ▸ hrefers₂.congr
        (decide_eq_true_iff.trans (not_congr Value.type_eq_nil_iff))
      distinct := hdistinct
      usenumbers := rfl
      others := fun r h₁ h₂ => (hmakes₂.others r h₂).trans (hmakes₁.others r h₁)
      stack := hmakes₂.stack.trans hmakes₁.stack
      frees := rfl }

/-- What a call that raises an error does: everything that was allocated is released once. -/
structure Rejected (s s' : RunState) : Prop where
  posted : s'.posted = s.posted
  lua : s'.lua = s.lua
  released : ∃ buffers freed, s'.allocated = s.allocated ++ buffers ∧ s'.frees = s.frees ++ freed ∧
    (buffers.map Free.buffer).Nodup ∧ (freed.map Free.buffer).Perm (buffers.map Free.buffer)

/-! ### Both ends of a call -/

def Bindable (v : Argument) : Prop := v.type = .string ∨ v.type = .bool ∨ v.type = .number ∨
  v.type = .nil

instance : DecidablePred Bindable := fun v =>
  inferInstanceAs (Decidable (v.type = .string ∨ v.type = .bool ∨ v.type = .number ∨ v.type = .nil))

theorem bindOf_eq_none_iff {beyond : Bytes} {v : Argument} :
    bindOf beyond v = none ↔ ¬Bindable v := by
  constructor
  · intro hnone hbind
    cases v with
    | nil | bool b | number n | string str => cases hnone
    | table t | function f | userdata type p =>
        obtain htype | htype | htype | htype := hbind <;> cases htype
  · intro hnot
    cases v with
    | nil => exact absurd (.inr (.inr (.inr rfl))) hnot
    | bool b => exact absurd (.inr (.inl rfl)) hnot
    | number n => exact absurd (.inr (.inr (.inl rfl))) hnot
    | string str => exact absurd (.inl rfl) hnot
    | _ => rfl

/-- What a call that is accepted does. -/
structure Queued (s s' : RunState) (pstmt : StmtId) (task : RunTask) : Prop
    extends Posted s s' (s.numArgs pstmt) task where
  stmt : task.stmt = pstmt
  length : task.binds.length = s.numArgs pstmt
  binds : BindsOf s 0 task.binds
  allocated : s'.allocated = s.allocated ++ .binds :: buffersFrom task.binds 0

theorem BindsOf.bindable {s : RunState} {binds : List Bind} (h : BindsOf s 0 binds) {i : ℕ}
    (hi : i < binds.length) : Bindable (s.lua.value ↑(i + 2)) := by
  by_contra hnot
  have hsome := h i hi
  rw [Nat.zero_add, bindOf_eq_none_iff.mpr hnot] at hsome
  cases hsome

/-- The buffers that `deleteBinds` releases are those that were allocated. -/
theorem freesFrom_buffer (binds : List Bind) (i : ℕ) :
    (freesFrom binds i).map Free.buffer = (buffersFrom binds i).map Free.buffer := by
  induction binds generalizing i with
  | nil => rfl
  | cons b binds ih =>
      rw [freesFrom, buffersFrom]
      split
      · exact ih (i + 1)
      · split
        · exact congrArg (some i :: ·) (ih (i + 1))
        · exact congrArg (some i :: ·) (ih (i + 1))

theorem mem_buffersFrom {binds : List Bind} {i : ℕ} {buffer : Option ℕ}
    (h : buffer ∈ (buffersFrom binds i).map Free.buffer) : ∃ j, i ≤ j ∧ buffer = some j := by
  induction binds generalizing i with
  | nil => cases h
  | cons b binds ih =>
      have hrest : buffer ∈ (buffersFrom binds (i + 1)).map Free.buffer →
          ∃ j, i ≤ j ∧ buffer = some j := fun h => by
        obtain ⟨j, hj, hbuffer⟩ := ih h
        exact ⟨j, by omega, hbuffer⟩
      rw [buffersFrom] at h
      split at h
      · exact hrest h
      · split at h
        · exact (List.mem_cons.mp h).elim (fun heq => ⟨i, Nat.le_refl i, heq⟩) hrest
        · exact (List.mem_cons.mp h).elim (fun heq => ⟨i, Nat.le_refl i, heq⟩) hrest

/-- Every buffer is allocated once. -/
theorem nodup_buffersFrom (binds : List Bind) (i : ℕ) :
    ((buffersFrom binds i).map Free.buffer).Nodup := by
  induction binds generalizing i with
  | nil => exact List.nodup_nil
  | cons b binds ih =>
      have hnot : some i ∉ (buffersFrom binds (i + 1)).map Free.buffer := by
        intro hmem
        obtain ⟨j, hj, heq⟩ := mem_buffersFrom hmem
        cases heq
        omega
      rw [buffersFrom]
      split
      · exact ih (i + 1)
      · split
        · exact List.nodup_cons.mpr ⟨hnot, ih (i + 1)⟩
        · exact List.nodup_cons.mpr ⟨hnot, ih (i + 1)⟩

theorem nodup_buffers (binds : List Bind) :
    ((.binds :: buffersFrom binds 0).map Free.buffer).Nodup := by
  refine List.nodup_cons.mpr ⟨fun h => ?_, nodup_buffersFrom binds 0⟩
  obtain ⟨j, -, heq⟩ := mem_buffersFrom h
  cases heq

theorem getPStatementFromStack_run {s : RunState} {pstmt : StmtId}
    (h : s.lua.value 1 = .userdata s.iStatementMTID (some pstmt)) :
    getPStatementFromStack.run s = .ok pstmt s := by
  rw [getPStatementFromStack, run_bind_ok (EStateM.run_get s), h]
  simp only [ne_eq, not_true_eq_false, if_false]
  rfl

/-- A call on a statement is accepted, or it raises an error. -/
theorem luaRun_cases {s : RunState} {pstmt : StmtId}
    (h : s.lua.value 1 = .userdata s.iStatementMTID (some pstmt)) :
    (¬(s.lua.top < s.numArgs pstmt + 1 ∨ ∃ i, i < s.numArgs pstmt ∧
      ¬Bindable (s.lua.value ↑(i + 2))) ∧
      ∃ task s', luaRun.run s = .ok () s' ∧ Queued s s' pstmt task) ∨
    ((s.lua.top < s.numArgs pstmt + 1 ∨ ∃ i, i < s.numArgs pstmt ∧
      ¬Bindable (s.lua.value ↑(i + 2))) ∧
      ∃ strError s', luaRun.run s = .error (.throwError strError) s' ∧ Rejected s s') := by
  rw [luaRun, run_bind_ok (getPStatementFromStack_run h), run_bind_ok (EStateM.run_get s)]
  by_cases htop : s.lua.top < s.numArgs pstmt + 1
  · rw [if_pos htop]
    refine Or.inr ⟨Or.inl htop, _, s, rfl, rfl, rfl, [], [], ?_, ?_, List.nodup_nil, .refl _⟩
    · rw [List.append_nil]
    · rw [List.append_nil]
  · rw [if_neg htop]
    have hallocate : (allocate .binds).run s =
        .ok () { s with allocated := s.allocated ++ [.binds] } := rfl
    rw [run_bind_ok hallocate]
    obtain ⟨binds, hlen, hof, hloop⟩ | ⟨binds, strError, hlen, hof, hnone, hloop⟩ :=
      bindParameters_cases (s.numArgs pstmt) [] { s with allocated := s.allocated ++ [.binds] }
    · rw [run_bind_ok hloop]
      obtain ⟨task, s', hqueue, hstmt, hbinds, hallocated, hposted⟩ :=
        queueRun_run pstmt ([] ++ binds) (s.numArgs pstmt)
        { s with allocated := s.allocated ++ [.binds] ++ buffersFrom binds 0 }
      obtain rfl : task.binds = binds := hbinds
      refine Or.inl ⟨?_, task, s', hqueue, ?_⟩
      · rintro (hlt | ⟨i, hi, hnot⟩)
        · exact htop hlt
        · exact hnot (BindsOf.bindable (s := s) hof (hlen ▸ hi))
      · exact {
          posted := hposted.posted
          callback := hposted.callback
          callbackref := hposted.callbackref
          distinct := hposted.distinct
          usenumbers := hposted.usenumbers
          others := hposted.others
          stack := hposted.stack
          frees := hposted.frees
          stmt := hstmt
          length := hlen
          binds := hof
          allocated := by rw [hallocated, List.append_assoc]; rfl }
    · rw [run_bind_error hloop]
      refine Or.inr ⟨Or.inr ⟨binds.length, hlen, ?_⟩, strError, _, rfl, rfl, rfl,
        .binds :: buffersFrom binds 0,
        freesFrom binds 0 ++ [.binds], ?_, ?_, nodup_buffers binds, ?_⟩
      · rw [List.length_nil, Nat.zero_add] at hnone
        exact bindOf_eq_none_iff.mp hnone
      · exact List.append_assoc _ _ _
      · exact List.append_assoc _ _ _
      · rw [List.map_append, List.map_cons, freesFrom_buffer]
        exact List.perm_append_comm

/-- **`Run` rejects cleanly or queues exactly once.** A call on the handle of a statement raises
an error exactly when it has too few arguments or a parameter of a type that is not taken; it then
posts nothing, creates no reference and releases each buffer once.  Otherwise it posts one
handler, with the parameters and the references that are wanted. -/
theorem run_rejects_or_queues {s : RunState} {pstmt : StmtId}
    (h : s.lua.value 1 = .userdata s.iStatementMTID (some pstmt)) :
    ((∃ e s', luaRun.run s = .error e s') ↔
      s.lua.top < s.numArgs pstmt + 1 ∨ ∃ i, i < s.numArgs pstmt ∧
        ¬Bindable (s.lua.value ↑(i + 2))) ∧
    (∀ e s', luaRun.run s = .error e s' → e ≠ .undefined ∧ Rejected s s') ∧
    (∀ s', luaRun.run s = .ok () s' → ∃ task, Queued s s' pstmt task) := by
  obtain ⟨hnot, task, s₁, hrun, hqueued⟩ | ⟨hbad, strError, s₁, hrun, hrejected⟩ := luaRun_cases h
  · rw [hrun]
    refine ⟨⟨?_, fun hbad => absurd hbad hnot⟩, ?_, ?_⟩
    · rintro ⟨e, s', heq⟩
      cases heq
    · intro e s' heq
      cases heq
    · intro s' heq
      cases heq
      exact ⟨task, hqueued⟩
  · rw [hrun]
    refine ⟨⟨fun _ => hbad, fun _ => ⟨_, s₁, rfl⟩⟩, ?_, ?_⟩
    · intro e s' heq
      cases heq
      exact ⟨by simp, hrejected⟩
    · intro s' heq
      cases heq

/-- A call with a handle and the arguments of a statement. -/
def RunState.calling (n : ℕ) (args : List Argument) : RunState where
  lua := ⟨⟨fun _ _ => .nil, 0, []⟩, (.userdata 20 (some 0) :: args).reverse, []⟩
  iStatementMTID := 20
  typeName _ := "table"
  numArgs _ := n
  beyond _ := []
  allocated := []
  frees := []
  posted := []

/-- The second parameter is a table. -/
def RunState.withTable : RunState := .calling 2 [.string [97], .table 0]

/-- The buffer of the first parameter is released. -/
theorem run_rejects_or_queues_table :
    ∃ e s', luaRun.run .withTable = .error e s' ∧ e ≠ .undefined ∧ Rejected .withTable s' := by
  obtain ⟨hraises, hrejected, -⟩ := run_rejects_or_queues (s := .withTable) rfl
  obtain ⟨e, s', hrun⟩ := hraises.mpr (Or.inr ⟨1, Nat.one_lt_two, by decide⟩)
  exact ⟨e, s', hrun, hrejected e s' hrun⟩

end Tmysql4.Handler
