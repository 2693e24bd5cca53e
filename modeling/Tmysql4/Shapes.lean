import Tmysql4.Fetching

/-! # Every result can be read

A `Result` is `Constructed` when one of the three constructors returned it.  Each of its cells is
then `Readable`, also when fetching broke off, so that `Result.populateLuaTable` never follows a
pointer that was not assigned. -/

namespace Tmysql4.Handler

open Imperative

/-! ### Cells -/

/-- The key of a column. -/
def Result.cellKey (r : Result) (useNumbers : Bool) (c : ℕ) : Option LuaKey :=
  if useNumbers then some (.index (c + 1))
  else do
    let name ← (← r.columnNames.get?)[c]?
    some (.field (cString name))

/-- The value of a column of a row. -/
def Result.cellValue (r : Result) (i c : ℕ) : Option LuaValue := do
  let isNull ← (← (← r.nullRowValues.get?)[i]?)[c]?
  if isNull then some .nil
  else do
    let type ← (← r.columnTypes.get?)[c]?
    let text ← (← (← r.rows.get?)[i]?)[c]?
    some (if pushesNumber type then .atof text else .string text)

theorem cell_eq (r : Result) (useNumbers : Bool) (i c : ℕ) :
    r.cell useNumbers i c =
      (r.cellValue i c).bind fun v => (r.cellKey useNumbers c).bind fun k => some (k, v) := by
  unfold Result.cell Result.cellKey Result.cellValue
  simp only [Option.bind_eq_bind, Option.bind_assoc]
  refine Option.bind_congr fun nulls _ => Option.bind_congr fun row _ =>
    Option.bind_congr fun isNull _ => ?_
  cases isNull <;> cases useNumbers <;> simp [Option.bind_assoc]

theorem cell_eq_some_iff {r : Result} {useNumbers : Bool} {i c : ℕ} {k : LuaKey} {v : LuaValue} :
    r.cell useNumbers i c = some (k, v) ↔ r.cellKey useNumbers c = some k ∧
      r.cellValue i c = some v := by
  rw [cell_eq]
  simp only [Option.bind_eq_some_iff, Option.some.injEq, Prod.mk.injEq]
  constructor
  · rintro ⟨v', hv, k', hk, rfl, rfl⟩
    exact ⟨hk, hv⟩
  · rintro ⟨hk, hv⟩
    exact ⟨v, hv, k, hk, rfl, rfl⟩

/-- What one of the constructors returns. -/
inductive Result.Constructed : Result → Prop where
  | ofError (mem : Storage) (errNo : ℕ) (errStr : Loc) (cause : Diag) :
      Constructed (.ofError mem errNo errStr cause)
  | ofMySQL {lib : Lib} {w w' : World} {r : Result} (h : (resultOfMySQL lib).run w = .ok r w') :
      Constructed r
  | ofStatement {lib : Lib} {handle : HandleId} {w w' : World} {r : Result}
      (h : (resultOfStatement lib handle).run w = .ok r w') : Constructed r

/-- The cells of a result have values, and its columns have names without null bytes. -/
structure Result.Readable (r : Result) : Prop where
  value : ∀ i c, i < r.rowCount → c < r.colCount → ∃ v, r.cellValue i c = some v
  name : ∀ c, 0 < r.rowCount → c < r.colCount →
    ∃ names name, r.columnNames = .set names ∧ names[c]? = some name ∧ cString name = name
  rows : 0 < r.rowCount → r.rows ≠ .raw 0

theorem readable_of_rowCount {r : Result} (h : r.rowCount = 0) : r.Readable where
  value i c hi := absurd hi (by omega)
  name c hpos := absurd hpos (by omega)
  rows hpos := absurd hpos (by omega)

theorem exists_cellValue {r : Result} {i c : ℕ} {nulls : List (List Bool)} {nullRow : List Bool}
    {isNull : Bool} {types : List ℕ} {type : ℕ} {rows : List (List Bytes)} {row : List Bytes}
    {text : Bytes} (hnulls : r.nullRowValues = .set nulls) (hnullRow : nulls[i]? = some nullRow)
    (hisNull : nullRow[c]? = some isNull) (htypes : r.columnTypes = .set types)
    (htype : types[c]? = some type) (hrows : r.rows = .set rows) (hrow : rows[i]? = some row)
    (htext : row[c]? = some text) : ∃ v, r.cellValue i c = some v := by
  unfold Result.cellValue
  rw [hnulls, htypes, hrows]
  cases isNull with
  | true => exact ⟨.nil, by simp [Member.get?, hnullRow, hisNull]⟩
  | false =>
      exact ⟨if pushesNumber type then .atof text else .string text, by
        simp [Member.get?, hnullRow, hisNull, htype, hrow, htext]⟩

/-- Lines of one length, followed by more of them, have all their entries. -/
theorem exists_getElem_padded {α : Type} {lines : List (List α)} {a : α} {n k i c : ℕ}
    (hlines : ∀ line ∈ lines, line.length = k) (hi : i < n) (hc : c < k) :
    ∃ cells b, (lines ++ (List.replicate n (List.replicate k a)).drop lines.length)[i]? =
      some cells ∧ cells[c]? = some b := by
  have hlen : i < (lines ++ (List.replicate n (List.replicate k a)).drop lines.length).length := by
    rw [List.length_append, List.length_drop, List.length_replicate]
    omega
  have hline : ((lines ++ (List.replicate n (List.replicate k a)).drop lines.length)[i]).length =
      k := by
    obtain hmem | hmem := List.mem_append.mp (List.getElem_mem hlen)
    · exact hlines _ hmem
    · rw [List.eq_of_mem_replicate (List.mem_of_mem_drop hmem), List.length_replicate]
  exact ⟨_, _, List.getElem?_eq_getElem hlen, List.getElem?_eq_getElem (by rwa [hline])⟩

/-- Rows that fit are filled in; the others keep what `Resize` has made. -/
theorem readable_fill {r r' : Result} {fields : List Field} {rowCount : ℤ} {rows : List Row}
    (hr : r.rowCount = 0) (h : r.resize fields.length rowCount = some r')
    (hwidth : ∀ row ∈ rows, row.length = fields.length) :
    (r'.fill fields rows).Readable := by
  rw [Result.resize, if_neg (by omega)] at h
  split at h
  · cases h
    exact readable_of_rowCount hr
  · split at h
    · cases h
    · cases h
      have hcolumn : ∀ {α : Type} (f : Field → α) (a : α) (c : ℕ) (hc : c < fields.length),
          (fields.map f ++ (List.replicate fields.length a).drop (fields.map f).length)[c]? =
            some (f fields[c]) := by
        intro α f a c hc
        rw [List.getElem?_append_left (by rwa [List.length_map]), List.getElem?_map,
          List.getElem?_eq_getElem hc]
        rfl
      refine ⟨fun i c hi hc => ?_, fun c _ hc => ?_, fun _ => by simp [Result.fill, Member.assign]⟩
      · have hlines : ∀ {α : Type} (f : Option Bytes → α), ∀ line ∈ rows.map fun row => row.map f,
            line.length = fields.length := by
          intro α f line hline
          obtain ⟨row, hrow, rfl⟩ := List.mem_map.mp hline
          rw [List.length_map, hwidth row hrow]
        obtain ⟨nulls, isNull, hnulls, hnull⟩ :=
          exists_getElem_padded (a := false) (hlines (·.isNone)) hi hc
        obtain ⟨texts, text, htexts, htext⟩ :=
          exists_getElem_padded (a := []) (hlines (·.getD [])) hi hc
        exact exists_cellValue rfl hnulls hnull rfl (hcolumn (·.type) 0 c hc) rfl htexts htext
      · exact ⟨_, _, rfl, hcolumn (fun field => cString field.name) [] c hc, List.takeWhile_idem⟩

theorem fetched_sublist (result : StoredResult) (rows : List Row) (i : ℕ) :
    (fetched result rows i).1 <+: rows := by
  induction rows generalizing i with
  | nil => exact List.nil_prefix
  | cons row rows ih =>
      rw [fetched]
      split
      · exact List.prefix_cons_inj row |>.mpr (ih (i + 1))
      · exact List.nil_prefix

theorem resize_colCount {r r' : Result} {n : ℕ} {rowCount : ℤ} (h : r.resize n rowCount = some r') :
    r'.colCount = n := by
  rw [Result.resize, if_neg (by omega)] at h
  split at h
  · cases h
    exact Int.toNat_natCast n
  · split at h
    · cases h
    · cases h
      exact Int.toNat_natCast n

theorem readable_ofResultSet {r r' : Result} {result : ResultSet} (hr : r.rowCount = 0)
    (h : r.ofResultSet result = some r') : r'.Readable := by
  have hpos := fields_pos result
  rw [Result.ofResultSet, if_neg (by omega), toInt_of_lt result.fields_lt] at h
  obtain ⟨r₁, hresize, rfl⟩ := Option.map_eq_some_iff.mp h
  rw [resize_colCount hresize, List.take_length]
  exact readable_fill hr hresize fun row hrow => result.width row (List.mem_of_mem_take hrow)

theorem readable_failAt {r : Result} (h : r.Readable) (handle : HandleId) (d : Option Diag) :
    (r.failAt handle d).Readable := by
  cases d with
  | none => exact h
  | some d => exact ⟨h.value, h.name, h.rows⟩

theorem readable_ofStored {r r' : Result} {handle : HandleId} {result : StoredResult}
    (hr : r.rowCount = 0) (h : r.ofStored handle result = some r') : r'.Readable := by
  have hpos := fields_pos result.toResultSet
  rw [Result.ofStored, if_neg (by omega), toInt_of_lt result.fields_lt] at h
  obtain ⟨r₁, hresize, rfl⟩ := Option.map_eq_some_iff.mp h
  rw [resize_colCount hresize, List.take_length]
  refine readable_failAt (readable_fill hr hresize fun row hrow => ?_) _ _
  exact result.width row (List.mem_of_mem_take ((fetched_sublist result _ 0).subset hrow))

/-- **Every constructed result can be read.** -/
theorem Result.Constructed.readable {r : Result} (h : r.Constructed) : r.Readable := by
  cases h with
  | ofError mem errNo errStr cause => exact readable_of_rowCount rfl
  | @ofMySQL lib w w' r h =>
      obtain ⟨mem, lastID, affected, v, -, hrun⟩ := resultOfMySQL_run lib w
      have hreply := orThrow_eq_ok (hrun.symm.trans h)
      cases hstore : lib.storeResult (w.calls .storeResult) with
      | stored result =>
          rw [hstore] at hreply
          exact readable_ofResultSet rfl hreply
      | _ =>
          rw [hstore] at hreply
          cases hreply
          exact readable_of_rowCount rfl
  | @ofStatement lib handle w w' r h =>
      obtain ⟨mem, lastID, affected, v, -, -, hrun⟩ := resultOfStatement_run lib handle w
      have hmetadata := orThrow_eq_ok (hrun.symm.trans h)
      cases hmeta : lib.stmtResultMetadata (w.calls .stmtResultMetadata) with
      | none =>
          rw [hmeta] at hmetadata
          cases hmetadata
          exact readable_of_rowCount rfl
      | some result =>
          rw [hmeta] at hmetadata
          exact readable_ofStored rfl hmetadata

/-! ### The table -/

theorem exists_mapM {α β : Type} {f : α → Option β} {l : List α} (h : ∀ a ∈ l, ∃ b, f a = some b) :
    ∃ bs, l.mapM f = some bs := by
  induction l with
  | nil => exact ⟨[], rfl⟩
  | cons a l ih =>
      obtain ⟨b, hb⟩ := h a List.mem_cons_self
      obtain ⟨bs, hbs⟩ := ih fun a' ha' => h a' (List.mem_cons_of_mem _ ha')
      exact ⟨b :: bs, by rw [List.mapM_cons, hb, hbs]; rfl⟩

theorem Result.Readable.cellKey {r : Result} (h : r.Readable) (useNumbers : Bool) {c : ℕ}
    (hpos : 0 < r.rowCount) (hc : c < r.colCount) : ∃ k, r.cellKey useNumbers c = some k := by
  unfold Result.cellKey
  cases useNumbers with
  | true => exact ⟨_, rfl⟩
  | false =>
      obtain ⟨names, name, hnames, hname, -⟩ := h.name c hpos hc
      exact ⟨.field (cString name), by simp [hnames, Member.get?, hname]⟩

theorem Result.Readable.pushRows {r : Result} (h : r.Readable) (useNumbers : Bool) :
    ∃ rows, r.pushRows useNumbers = some rows := by
  rw [Result.pushRows]
  split
  · exact ⟨[], rfl⟩
  · refine exists_mapM fun i hi => exists_mapM fun c hc => ?_
    rw [List.mem_range] at hi hc
    obtain ⟨v, hv⟩ := h.value i c hi hc
    obtain ⟨k, hk⟩ := h.cellKey useNumbers (Nat.lt_of_le_of_lt (Nat.zero_le i) hi) hc
    exact ⟨(k, v), cell_eq_some_iff.mpr ⟨hk, hv⟩⟩

theorem Result.Readable.populateLuaTable {r : Result} (h : r.Readable) (read : Loc → Bytes)
    (useNumbers : Bool) : ∃ rt, r.populateLuaTable read useNumbers = some rt := by
  unfold Result.populateLuaTable
  split
  · exact ⟨_, rfl⟩
  · obtain ⟨rows, hrows⟩ := h.pushRows useNumbers
    exact ⟨_, by rw [hrows]; rfl⟩

end Tmysql4.Handler
