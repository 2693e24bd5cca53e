import Mathlib.Algebra.Group.Int.Defs
import Mathlib.Algebra.Group.Nat.Defs
import Mathlib.Logic.Function.Basic

/-! # A scripting state as native code sees it

Native code works on a Lua state through a stack of values, addressed from the bottom (`1`, `2`,
…) or from the top (`-1`, `-2`, …), a heap of tables and a registry of references.

* **Operations.** Each has the stack effect that its documentation gives; `none` stands for one
  that is not allowed (no value at the index, or none that is a table).
* **Registry.** `registry` lists the values of the references `1`, `2`, …; a reference that is not
  in use has the value `nil`, and a new value gets the first of these.
* **Calls.** A function is an oracle (`Callee`) that may change the heap and either returns or
  raises an error. `Machine.calls` is ghost: the protected calls, with the message handler, the
  arguments and the heap they found. -/

namespace LuaBase

inductive LuaType where
  | nil
  | bool
  | number
  | string
  | table
  | function
  | userdata (type : ℕ)
deriving DecidableEq, Repr

/-- A value, over numbers `N`, functions `F` and user data `U`. -/
inductive Value (N F U : Type) where
  | nil
  | bool (b : Bool)
  | number (n : N)
  | string (s : List UInt8)
  | table (t : ℕ)
  | function (f : F)
  | userdata (type : ℕ) (u : U)
deriving DecidableEq

variable {N F U : Type}

def Value.type : Value N F U → LuaType
  | .nil => .nil
  | .bool _ => .bool
  | .number _ => .number
  | .string _ => .string
  | .table _ => .table
  | .function _ => .function
  | .userdata type _ => .userdata type

theorem Value.type_eq_nil_iff {v : Value N F U} : v.type = .nil ↔ v = .nil := by
  cases v <;> simp [Value.type]

/-- A table gives `nil` for the keys that it does not have. -/
abbrev Table (N F U : Type) := Value N F U → Value N F U

/-- The tables made so far are those below `nextTable`. -/
structure Heap (N F U : Type) where
  tables : ℕ → Table N F U
  nextTable : ℕ
  registry : List (Value N F U)

/-- The table `t` has these entries and no others. -/
def Heap.Holds (heap : Heap N F U) (t : ℕ) (table : Table N F U) : Prop :=
  t < heap.nextTable ∧ heap.tables t = table

/-- A protected call. -/
structure Call (N F U : Type) where
  function : Value N F U
  handler : Value N F U
  args : List (Value N F U)
  heap : Heap N F U

/-- The stack has its top at the head. -/
structure Machine (N F U : Type) extends Heap N F U where
  stack : List (Value N F U)
  calls : List (Call N F U)

/-- What a function does under a message handler, with its arguments and a heap: the heap it
leaves and, for an error, the message that the handler makes of it. -/
abbrev Callee (N F U : Type) :=
  Value N F U → Value N F U → List (Value N F U) → Heap N F U → Heap N F U × Option (Value N F U)

namespace Machine

variable (m : Machine N F U)

/-! ### The stack -/

def top : ℕ := m.stack.length

/-- The value at an index. -/
def index (i : ℤ) : Option (Value N F U) :=
  if 0 < i then m.stack.reverse[i.toNat - 1]?
  else if i < 0 then m.stack[(-i).toNat - 1]?
  else none

/-- The value at an index, `nil` when there is none. -/
def value (i : ℤ) : Value N F U := (m.index i).getD .nil

theorem index_of_value {m : Machine N F U} {i : ℤ} (hv : m.value i ≠ .nil) :
    m.index i = some (m.value i) := by
  unfold value at hv ⊢
  cases hindex : m.index i with
  | none =>
      rw [hindex] at hv
      exact absurd rfl hv
  | some v => rfl

theorem value_congr {m m' : Machine N F U} (h : m'.stack = m.stack) (i : ℤ) :
    m'.value i = m.value i := by
  unfold value index
  rw [h]

/-- The arguments of a call, from the bottom. -/
theorem value_reverse {m : Machine N F U} (args : List (Value N F U))
    (h : m.stack = args.reverse) {i : ℕ} (hi : i < args.length) : m.value ↑(i + 1) = args[i] := by
  have hpos : (0 : ℤ) < ↑(i + 1) := by omega
  have hidx : (↑(i + 1) : ℤ).toNat - 1 = i := by omega
  rw [value, index, if_pos hpos, h, List.reverse_reverse, hidx, List.getElem?_eq_getElem hi]
  rfl

theorem value_top {m : Machine N F U} {v : Value N F U} {rest : List (Value N F U)}
    (h : m.stack = v :: rest) : m.value (-1) = v := by
  simp [value, index, h]

/-- A value below others, from the top. -/
theorem value_below {m : Machine N F U} {vs rest : List (Value N F U)} {v : Value N F U}
    (h : m.stack = vs ++ v :: rest) : m.value (-↑vs.length - 1) = v := by
  have hneg : ¬(0 : ℤ) < -↑vs.length - 1 := by omega
  have hlt : (-↑vs.length - 1 : ℤ) < 0 := by omega
  have hidx : (-(-↑vs.length - 1 : ℤ)).toNat - 1 = vs.length := by omega
  rw [value, index, if_neg hneg, if_pos hlt, hidx, h, List.getElem?_append_right (Nat.le_refl _),
    Nat.sub_self]
  rfl

def getType (i : ℤ) : LuaType := (m.value i).type

def getBool (i : ℤ) : Bool :=
  match m.value i with
  | .bool b => b
  | _ => false

def isType (i : ℤ) (type : LuaType) : Bool := m.getType i = type

def pushValue (v : Value N F U) : Machine N F U := { m with stack := v :: m.stack }

/-- `Push`: a copy of the value at the index. -/
def push (i : ℤ) : Option (Machine N F U) := (m.index i).map m.pushValue

def pop (n : ℕ) : Option (Machine N F U) :=
  if n ≤ m.stack.length then some { m with stack := m.stack.drop n } else none

def pushNil : Machine N F U := m.pushValue .nil

def pushBool (b : Bool) : Machine N F U := m.pushValue (.bool b)

def pushNumber (n : N) : Machine N F U := m.pushValue (.number n)

/-- `PushString` of a text in memory, with an `unsigned int` for its length; `0` stands for the
length up to the first null byte. -/
def pushString (text : List UInt8) (iLen : ℕ) : Machine N F U :=
  m.pushValue (.string (if iLen % 2 ^ 32 = 0 then text.takeWhile (· ≠ 0)
    else text.take (iLen % 2 ^ 32)))

def pushUserType (type : ℕ) (u : U) : Machine N F U := m.pushValue (.userdata type u)

/-! ### The registry -/

/-- The registry with a value at a position. -/
def store (registry : List (Value N F U)) (i : ℕ) (v : Value N F U) : List (Value N F U) :=
  if i < registry.length then registry.set i v else registry ++ [v]

theorem getD_store (registry : List (Value N F U)) {i : ℕ} (hi : i ≤ registry.length)
    (v : Value N F U) (j : ℕ) :
    (store registry i v).getD j .nil = if j = i then v else registry.getD j .nil := by
  unfold store
  split
  · rename_i hlt
    by_cases hj : j = i
    · simp [hj, hlt]
    · rw [if_neg hj, List.getD_eq_getElem?_getD, List.getElem?_set_ne (Ne.symm hj),
        List.getD_eq_getElem?_getD]
  · rename_i hge
    obtain rfl : i = registry.length := by omega
    rw [List.getD_eq_getElem?_getD, List.getD_eq_getElem?_getD, List.getElem?_append]
    split
    · rename_i hlt
      rw [if_neg (by omega)]
    · rename_i hge'
      by_cases hj : j = registry.length
      · simp [hj]
      · rw [if_neg hj, List.getElem?_eq_none (by simp; omega), List.getElem?_eq_none (by omega)]

/-- The value of a reference. -/
def reference (r : ℤ) : Value N F U := if 0 < r then m.registry.getD (r.toNat - 1) .nil else .nil

def referencePush (r : ℤ) : Machine N F U := m.pushValue (m.reference r)

def referenceFree (r : ℤ) : Machine N F U :=
  if 0 < r then { m with registry := m.registry.set (r.toNat - 1) .nil } else m

@[simp] theorem referenceFree_stack (m : Machine N F U) (r : ℤ) :
    (m.referenceFree r).stack = m.stack := by
  unfold referenceFree
  split
  · rfl
  · rfl

@[simp] theorem referenceFree_calls (m : Machine N F U) (r : ℤ) :
    (m.referenceFree r).calls = m.calls := by
  unfold referenceFree
  split
  · rfl
  · rfl

@[simp] theorem referenceFree_tables (m : Machine N F U) (r : ℤ) :
    (m.referenceFree r).tables = m.tables := by
  unfold referenceFree
  split
  · rfl
  · rfl

@[simp] theorem referenceFree_nextTable (m : Machine N F U) (r : ℤ) :
    (m.referenceFree r).nextTable = m.nextTable := by
  unfold referenceFree
  split
  · rfl
  · rfl

theorem reference_referenceFree (m : Machine N F U) (r r' : ℤ) :
    (m.referenceFree r).reference r' = if r' = r then .nil else m.reference r' := by
  unfold referenceFree reference
  by_cases hr' : 0 < r'
  · by_cases hr : 0 < r
    · rw [if_pos hr, if_pos hr', if_pos hr', List.getD_eq_getElem?_getD, List.getD_eq_getElem?_getD,
        List.getElem?_set]
      by_cases heq : r' = r
      · rw [if_pos heq, if_pos (by omega)]
        split
        · rfl
        · rfl
      · rw [if_neg heq, if_neg (by omega)]
    · rw [if_neg hr, if_pos hr', if_neg (by omega)]
  · rw [if_neg hr', if_neg hr', ite_self]

/-! ### Tables -/

/-- A new table that is empty. -/
def newTable : Machine N F U :=
  { m with
    tables := Function.update m.tables m.nextTable fun _ => .nil
    nextTable := m.nextTable + 1 }

def createTable : Machine N F U := m.newTable.pushValue (.table m.nextTable)

/-! ### Calls -/

/-- The stack after a call: the message of an error is pushed. -/
def finish (rest : List (Value N F U)) (call : Call N F U) :
    Heap N F U × Option (Value N F U) → ℕ × Machine N F U
  | (heap, none) => (0, ⟨heap, rest, m.calls ++ [call]⟩)
  | (heap, some message) => (2, ⟨heap, message :: rest, m.calls ++ [call]⟩)

/-- `PCall` with no results: the function and its arguments are popped. -/
def pCall (callee : Callee N F U) (args : ℕ) (errorFunc : ℤ) : Option (ℕ × Machine N F U) :=
  match m.stack.drop args with
  | [] => none
  | f :: rest => some (m.finish rest ⟨f, m.value errorFunc, (m.stack.take args).reverse, m.toHeap⟩
      (callee f (m.value errorFunc) (m.stack.take args).reverse m.toHeap))

/-- `Call` with no results; an error leaves the native function. -/
def call (callee : Callee N F U) (args : ℕ) : Option (Machine N F U) :=
  match m.stack.drop args with
  | [] => none
  | f :: rest =>
      match callee f .nil (m.stack.take args).reverse m.toHeap with
      | (heap, none) => some ⟨heap, rest, m.calls⟩
      | (_, some _) => none

section

variable {callee : Callee N F U} {f : Value N F U} {args rest : List (Value N F U)} {m}

theorem pCall_eq (h : m.stack = args.reverse ++ f :: rest) (errorFunc : ℤ) :
    m.pCall callee args.length errorFunc =
      some (m.finish rest ⟨f, m.value errorFunc, args, m.toHeap⟩
      (callee f (m.value errorFunc) args m.toHeap)) := by
  have hdrop : m.stack.drop args.length = f :: rest := by
    rw [h, ← List.length_reverse, List.drop_left]
  have htake : (m.stack.take args.length).reverse = args := by
    have hlen : args.length = args.reverse.length := List.length_reverse.symm
    rw [h, hlen, List.take_left, List.reverse_reverse]
  unfold pCall
  rw [hdrop, htake]

/-- A call that returns has popped the function and its arguments. -/
theorem call_eq_some {m' : Machine N F U} (args : List (Value N F U))
    (h : m.stack = args.reverse ++ f :: rest) (hcall : m.call callee args.length = some m') :
    m'.stack = rest ∧ m'.calls = m.calls := by
  have hdrop : m.stack.drop args.length = f :: rest := by
    rw [h, ← List.length_reverse, List.drop_left]
  unfold call at hcall
  rw [hdrop] at hcall
  simp only at hcall
  split at hcall
  · cases hcall
    exact ⟨rfl, rfl⟩
  · cases hcall

end

/-! ### Frames -/

/-- Apart from the stack, only the tables `ts` and new ones have changed. -/
structure Keeps (ts : List ℕ) (m m' : Machine N F U) : Prop where
  reference : ∀ r, m'.reference r = m.reference r
  calls : m'.calls = m.calls
  nextTable : m.nextTable ≤ m'.nextTable
  tables : ∀ t, t < m.nextTable → t ∉ ts → m'.tables t = m.tables t

namespace Keeps

variable {ts ts' : List ℕ} {m₁ m₂ m₃ : Machine N F U}

theorem refl (ts : List ℕ) (m : Machine N F U) : Keeps ts m m :=
  ⟨fun _ => rfl, rfl, Nat.le_refl _, fun _ _ _ => rfl⟩

/-- Tables that the first part has made do not count. -/
theorem trans {ts'' : List ℕ} (h : Keeps ts m₁ m₂) (h' : Keeps ts' m₂ m₃)
    (hts : ∀ t, t < m₁.nextTable → t ∈ ts ∨ t ∈ ts' → t ∈ ts'') : Keeps ts'' m₁ m₃ where
  reference r := (h'.reference r).trans (h.reference r)
  calls := h'.calls.trans h.calls
  nextTable := Nat.le_trans h.nextTable h'.nextTable
  tables t ht hmem := by
    rw [h'.tables t (Nat.lt_of_lt_of_le ht h.nextTable) fun hmem' => hmem (hts t ht (Or.inr hmem')),
      h.tables t ht fun hmem' => hmem (hts t ht (Or.inl hmem'))]

/-- A table that the first part has made is changed. -/
theorem trans_new {t : ℕ} (h : Keeps [] m₁ m₂) (h' : Keeps [t] m₂ m₃) (ht : m₁.nextTable ≤ t) :
    Keeps [] m₁ m₃ :=
  h.trans h' fun u hu hmem => by
    simp only [List.not_mem_nil, List.mem_singleton, false_or] at hmem
    omega

theorem pushValue (m : Machine N F U) (v : Value N F U) : Keeps [] m (m.pushValue v) :=
  ⟨fun _ => rfl, rfl, Nat.le_refl _, fun _ _ _ => rfl⟩

theorem newTable (m : Machine N F U) : Keeps [] m m.newTable where
  reference _ := rfl
  calls := rfl
  nextTable := Nat.le_succ _
  tables _ ht _ := Function.update_of_ne (Nat.ne_of_lt ht) _ _

theorem createTable (m : Machine N F U) : Keeps [] m m.createTable :=
  ⟨(newTable m).reference, (newTable m).calls, (newTable m).nextTable, (newTable m).tables⟩

theorem withStack (h : Keeps ts m₁ m₂) (stack : List (Value N F U)) :
    Keeps ts m₁ { m₂ with stack := stack } :=
  ⟨h.reference, h.calls, h.nextTable, h.tables⟩

theorem holds {t : ℕ} {table : Table N F U} (h : Keeps ts m₁ m₂) (ht : m₁.Holds t table)
    (hmem : t ∉ ts) : m₂.Holds t table :=
  ⟨Nat.lt_of_lt_of_le ht.1 h.nextTable, (h.tables t ht.1 hmem).trans ht.2⟩

end Keeps

/-- Values are pushed, and nothing else has changed. -/
structure Pushes (vs : List (Value N F U)) (m m' : Machine N F U) : Prop where
  stack : m'.stack = vs ++ m.stack
  tables : m'.tables = m.tables
  nextTable : m'.nextTable = m.nextTable
  reference : ∀ r, m'.reference r = m.reference r
  calls : m'.calls = m.calls

theorem Pushes.keeps {vs : List (Value N F U)} {m m' : Machine N F U} (h : Pushes vs m m') :
    Keeps [] m m' :=
  ⟨h.reference, h.calls, Nat.le_of_eq h.nextTable.symm, fun t _ _ => congrFun h.tables t⟩

/-! ### Assignments and new references -/

variable [DecidableEq N] [DecidableEq F] [DecidableEq U]

/-- Assigns a value of the table `t`. -/
def assign (t : ℕ) (key v : Value N F U) : Machine N F U :=
  { m with tables := Function.update m.tables t (Function.update (m.tables t) key v) }

/-- `SetField`: assigns the value at the top to a text key of the table at the index. -/
def setField (i : ℤ) (name : List UInt8) : Option (Machine N F U) :=
  match m.stack, m.index i with
  | v :: rest, some (.table t) => some { m.assign t (.string name) v with stack := rest }
  | _, _ => none

/-- `SetTable`: the same with the key below the value. -/
def setTable (i : ℤ) : Option (Machine N F U) :=
  match m.stack, m.index i with
  | v :: key :: rest, some (.table t) =>
      if key = .nil then none else some { m.assign t key v with stack := rest }
  | _, _ => none

/-- The first position that is not in use. -/
def nextRef : ℕ := m.registry.findIdx (· = .nil)

/-- `ReferenceCreate`: takes the value from the top; `nil` has the reference `-1`. -/
def referenceCreate : Option (ℤ × Machine N F U) :=
  match m.stack with
  | [] => none
  | v :: rest =>
      if v = .nil then some (-1, { m with stack := rest })
      else some ((m.nextRef : ℤ) + 1, { m with
        registry := store m.registry m.nextRef v
        stack := rest })

/-! ### What the operations leave alone -/

variable {m}

theorem nextRef_le : m.nextRef ≤ m.registry.length := List.findIdx_le_length

/-- The reference given out next is not in use. -/
theorem reference_nextRef : m.reference (m.nextRef + 1) = .nil := by
  rw [reference, if_pos (by omega)]
  have hpos : ((m.nextRef : ℤ) + 1).toNat - 1 = m.nextRef := by omega
  rw [hpos, List.getD_eq_getElem?_getD]
  obtain hlt | heq := Nat.lt_or_eq_of_le (nextRef_le (m := m))
  · have hnil : decide (m.registry[m.nextRef] = .nil) = true := List.findIdx_getElem (w := hlt)
    rw [List.getElem?_eq_getElem hlt]
    exact of_decide_eq_true hnil
  · rw [List.getElem?_eq_none (by omega)]
    rfl

/-- The state with a new reference to a value. -/
def refer (m : Machine N F U) (v : Value N F U) : Machine N F U :=
  { m with registry := store m.registry m.nextRef v }

theorem reference_refer (v : Value N F U) (r : ℤ) :
    (m.refer v).reference r = if r = m.nextRef + 1 then v else m.reference r := by
  unfold reference refer
  by_cases hr : 0 < r
  · rw [if_pos hr, if_pos hr, getD_store _ nextRef_le]
    by_cases heq : r = m.nextRef + 1
    · rw [if_pos heq, if_pos (by omega)]
    · rw [if_neg heq, if_neg (by omega)]
  · rw [if_neg hr, if_neg hr, if_neg (by omega)]

/-- A reference to a value that is not `nil` is a new one. -/
theorem referenceCreate_pushValue {v : Value N F U} (hv : v ≠ .nil) :
    (m.pushValue v).referenceCreate = some ((m.nextRef : ℤ) + 1, m.refer v) := if_neg hv

theorem push_referenceCreate {i : ℤ} (hv : m.value i ≠ .nil) :
    ((m.push i).bind fun m => m.referenceCreate) =
      some ((m.nextRef : ℤ) + 1, m.refer (m.value i)) := by
  rw [push, index_of_value hv]
  exact referenceCreate_pushValue hv

/-- A value is pushed through a reference that is freed at once. -/
theorem pushes_refer (m : Machine N F U) (v key : Value N F U) :
    Pushes [v, key] m
      ((((m.refer v).pushValue key).referencePush (m.nextRef + 1)).referenceFree (m.nextRef + 1))
        where
  stack := by
    have hv : ((m.refer v).pushValue key).reference (m.nextRef + 1) = v := by
      have href : (m.refer v).reference (m.nextRef + 1) = v := by rw [reference_refer, if_pos rfl]
      exact href
    rw [referenceFree_stack, referencePush, hv]
    rfl
  tables := referenceFree_tables _ _
  nextTable := referenceFree_nextTable _ _
  reference r := by
    have hpush : (((m.refer v).pushValue key).referencePush (m.nextRef + 1)).reference r =
        (m.refer v).reference r := rfl
    rw [reference_referenceFree, hpush, reference_refer]
    split
    · rename_i heq
      rw [heq, reference_nextRef]
    · rfl
  calls := referenceFree_calls _ _

/-! ### Assignments to the table at the top -/

theorem setField_eq {v : Value N F U} {t : ℕ} {rest : List (Value N F U)}
    (h : m.stack = v :: .table t :: rest) (name : List UInt8) :
    m.setField (-2) name = some { m.assign t (.string name) v with stack := .table t :: rest } := by
  have hindex : m.index (-2) = some (.table t) := by
    simp [index, h]
  unfold setField
  rw [h, hindex]

theorem setTable_eq {v key : Value N F U} {t : ℕ} {rest : List (Value N F U)}
    (h : m.stack = v :: key :: .table t :: rest) (hkey : key ≠ .nil) :
    m.setTable (-3) = some { m.assign t key v with stack := .table t :: rest } := by
  have hindex : m.index (-3) = some (.table t) := by
    simp [index, h]
  unfold setTable
  rw [h, hindex]
  exact if_neg hkey

/-- A value is pushed and set as a field of the table below it. -/
theorem pushValue_setField {t : ℕ} {rest : List (Value N F U)} (h : m.stack = .table t :: rest)
    (v : Value N F U) (name : List UInt8) : (m.pushValue v).setField (-2) name =
    some (m.assign t (.string name) v) := by
  rw [setField_eq (congrArg (v :: ·) h), ← h]
  rfl

theorem pushValue_setTable {t : ℕ} {rest : List (Value N F U)} (h : m.stack = .table t :: rest)
    {key : Value N F U} (hkey : key ≠ .nil) (v : Value N F U) :
    ((m.pushValue key).pushValue v).setTable (-3) = some (m.assign t key v) := by
  rw [setTable_eq (congrArg (v :: key :: ·) h) hkey, ← h]
  rfl

/-- A table with these entries; of two with one key the later holds. -/
def entries (table : Table N F U) (es : List (Value N F U × Value N F U)) : Table N F U :=
  es.foldl (fun table e => Function.update table e.1 e.2) table

/-- Several assignments to one table. -/
def assignAll (m : Machine N F U) (t : ℕ) (es : List (Value N F U × Value N F U)) : Machine N F U :=
  es.foldl (fun m e => m.assign t e.1 e.2) m

theorem assignAll_eq (m : Machine N F U) (t : ℕ) (es : List (Value N F U × Value N F U)) :
    m.assignAll t es = { m with
      tables := Function.update m.tables t (entries (m.tables t) es) } := by
  induction es generalizing m with
  | nil =>
      have hself : Function.update m.tables t (m.tables t) = m.tables :=
        Function.update_eq_self t m.tables
      rw [entries, List.foldl_nil, hself]
      rfl
  | cons e es ih =>
      have hcons : m.assignAll t (e :: es) = (m.assign t e.1 e.2).assignAll t es := rfl
      rw [hcons, ih]
      simp [assign, entries]

theorem assignAll_stack (m : Machine N F U) (t : ℕ) (es : List (Value N F U × Value N F U)) :
    (m.assignAll t es).stack = m.stack := by
  rw [assignAll_eq]

theorem assignAll_nextTable (m : Machine N F U) (t : ℕ) (es : List (Value N F U × Value N F U)) :
    (m.assignAll t es).nextTable = m.nextTable := by
  rw [assignAll_eq]

theorem assignAll_tables (m : Machine N F U) (t : ℕ) (es : List (Value N F U × Value N F U)) :
    (m.assignAll t es).tables t = entries (m.tables t) es := by
  rw [assignAll_eq]
  exact Function.update_self _ _ _

/-- One more field. -/
theorem assignAll_setField {t : ℕ} {rest : List (Value N F U)} (h : m.stack = .table t :: rest)
    (es : List (Value N F U × Value N F U)) (v : Value N F U) (name : List UInt8) :
    ((m.assignAll t es).pushValue v).setField (-2) name =
      some (m.assignAll t (es ++ [(.string name, v)])) := by
  rw [pushValue_setField ((assignAll_stack m t es).trans h)]
  simp [assignAll, List.foldl_append]

theorem Keeps.assign (m : Machine N F U) (t : ℕ) (key v : Value N F U) :
    Keeps [t] m (m.assign t key v) where
  reference _ := rfl
  calls := rfl
  nextTable := Nat.le_refl _
  tables _ _ hmem := Function.update_of_ne (fun heq => hmem (List.mem_singleton.mpr heq)) _ _

theorem Keeps.assignAll (m : Machine N F U) (t : ℕ) (es : List (Value N F U × Value N F U)) :
    Keeps [t] m (m.assignAll t es) := by
  rw [assignAll_eq]
  exact ⟨fun _ => rfl, rfl, Nat.le_refl _,
    fun _ _ hmem => Function.update_of_ne (fun heq => hmem (List.mem_singleton.mpr heq)) _ _⟩

end Machine

end LuaBase
