import Mathlib.Data.List.TakeWhile
import Tmysql4.Returns

/-! # The results of a text query

A `Stream` is what the server answers to a query that was sent: results, and possibly an error of
`mysql_next_result` that ends them.  `Follows` says that the outcomes of the library are those of
a stream, and `Response.Describes` what the Lua table of a response is to be.

`responses_reported` is the result: the tables of the action's results are those of the responses,
one for each and in their order, exactly when a reconnect prepares the cached statements again, no
transfer fails and every row count fits an `int`. -/

namespace Tmysql4.Handler

open Imperative

variable {lib : Lib} {w w' : World} {action : DatabaseAction} {query : Bytes}

/-! ### The table of a result set -/

/-- The elements of a list, computed from their positions. -/
theorem mapM_range {β : Type} {f : ℕ → Option β} {bs : List β}
    (h : ∀ i (hi : i < bs.length), f i = some bs[i]) : (List.range bs.length).mapM f = some bs := by
  induction bs generalizing f with
  | nil => rfl
  | cons b bs ih =>
      have hrest : (List.range bs.length).mapM (fun i => f (i + 1)) = some bs :=
        ih fun i hi => h (i + 1) (Nat.succ_lt_succ hi)
      rw [List.length_cons, List.range_succ_eq_map, List.mapM_cons, h 0 (Nat.succ_pos _),
        List.mapM_map]
      simp only [Function.comp_def, Nat.succ_eq_add_one, hrest]
      rfl

theorem length_of_mapM {α β : Type} {f : α → Option β} {l : List α} {bs : List β}
    (h : l.mapM f = some bs) : bs.length = l.length := by
  induction l generalizing bs with
  | nil =>
      cases h
      rfl
  | cons a l ih =>
      rw [List.mapM_cons] at h
      simp only [Option.bind_eq_bind, Option.bind_eq_some_iff, Option.pure_def,
        Option.some.injEq] at h
      obtain ⟨b, -, cs, hcs, rfl⟩ := h
      rw [List.length_cons, List.length_cons, ih hcs]

theorem getElem_of_mapM {α β : Type} {f : α → Option β} {l : List α} {bs : List β}
    (h : l.mapM f = some bs) {i : ℕ} (hi : i < l.length) (hb : i < bs.length) :
    f l[i] = some bs[i] := by
  induction l generalizing bs i with
  | nil => exact absurd hi (Nat.not_lt_zero i)
  | cons a l ih =>
      rw [List.mapM_cons] at h
      simp only [Option.bind_eq_bind, Option.bind_eq_some_iff, Option.pure_def,
        Option.some.injEq] at h
      obtain ⟨b, hab, cs, hcs, rfl⟩ := h
      cases i with
      | zero => exact hab
      | succ i => exact ih hcs (Nat.lt_of_succ_lt_succ hi) (Nat.lt_of_succ_lt_succ hb)

/-- The members of the result of a result set with rows. -/
structure Filled (result : ResultSet) (r : Result) : Prop where
  rowCount : r.rowCount = result.rows.length
  colCount : r.colCount = result.fields.length
  columnNames : r.columnNames = .set (result.fields.map fun field => cString field.name)
  columnTypes : r.columnTypes = .set (result.fields.map (·.type))
  rows : r.rows = .set (result.rows.map fun row => row.map (·.getD []))
  nullRowValues : r.nullRowValues = .set (result.rows.map fun row => row.map (·.isNone))

theorem ofResultSet_filled {r r' : Result} {result : ResultSet} (hlt : result.rows.length < 2 ^ 31)
    (hne : result.rows ≠ []) (h : r.ofResultSet result = some r') : Filled result r' := by
  have hfields := toInt_of_lt result.fields_lt
  have hrows := toInt_of_lt hlt
  have hpos := fields_pos result
  have hlen : (0 : ℤ) < result.rows.length := by exact_mod_cast List.length_pos_iff.mpr hne
  rw [Result.ofResultSet, if_neg (by omega), Result.resize, if_neg (by omega), if_neg (by omega),
    if_neg (by omega), Option.map_some] at h
  cases h
  refine ⟨?_, ?_, ?_, ?_, ?_, ?_⟩
  · simp [Result.fill, hrows]
  · simp [Result.fill, hfields]
  · simp [Result.fill, hfields, Member.assign]
  · simp [Result.fill, hfields, Member.assign]
  · simp [Result.fill, hrows, Member.assign]
  · simp [Result.fill, hrows, Member.assign]

theorem Filled.cell {result : ResultSet} {r : Result} (h : Filled result r) (useNumbers : Bool)
    {i c : ℕ} (hi : i < result.rows.length) (hc : c < result.fields.length)
    (hrow : c < result.rows[i].length) :
    r.cell useNumbers i c = some (cellTable useNumbers c result.fields[c] result.rows[i][c]) := by
  have hidem : cString (cString result.fields[c].name) = cString result.fields[c].name :=
    List.takeWhile_idem
  cases hcell : result.rows[i][c] with
  | none =>
      cases useNumbers <;>
        simp [Result.cell, h.columnNames, h.columnTypes, h.rows, h.nullRowValues, Member.get?, hi,
          hc, hrow, hcell, cellTable, hidem]
  | some text =>
      cases useNumbers <;>
        simp [Result.cell, h.columnNames, h.columnTypes, h.rows, h.nullRowValues, Member.get?, hi,
          hc, hrow, hcell, cellTable, hidem]

theorem length_rowTable (useNumbers : Bool) {fields : List Field} {row : Row}
    (h : row.length = fields.length) : (rowTable useNumbers fields row).length = fields.length := by
  simp [rowTable, h]

theorem Filled.pushRows {result : ResultSet} {r : Result} (h : Filled result r)
    (useNumbers : Bool) :
    r.pushRows useNumbers = some (result.rows.map (rowTable useNumbers result.fields)) := by
  rw [Result.pushRows, if_neg (by rw [h.rows]; exact nofun), h.rowCount, h.colCount]
  have hlen : (result.rows.map (rowTable useNumbers result.fields)).length = result.rows.length :=
    List.length_map _
  rw [← hlen]
  refine mapM_range fun i hi => ?_
  rw [hlen] at hi
  have hwidth := result.width _ (List.getElem_mem hi)
  rw [List.getElem_map, ← length_rowTable useNumbers hwidth]
  refine mapM_range fun c hc => ?_
  rw [length_rowTable useNumbers hwidth] at hc
  rw [h.cell useNumbers hi hc (hwidth ▸ hc)]
  simp [rowTable]

theorem pushRows_nil {r : Result} (h : r.rowCount = 0) (useNumbers : Bool) :
    r.pushRows useNumbers = some [] := by
  rw [Result.pushRows]
  split
  · rfl
  · rw [h]
    rfl

theorem length_pushRows {r : Result} {useNumbers : Bool} {data : List RowTable}
    (h : r.pushRows useNumbers = some data) : data.length ≤ r.rowCount := by
  rw [Result.pushRows] at h
  split at h
  · cases h
    exact Nat.zero_le _
  · rw [length_of_mapM h, List.length_range]

theorem resize_counts {r r' : Result} {colCount rowCount : ℤ}
    (h : r.resize colCount rowCount = some r') :
    r'.iError = r.iError ∧ (r.rowCount = 0 → (r'.rowCount : ℤ) = rowCount) := by
  rw [Result.resize] at h
  split at h
  · cases h
  · split at h
    · rename_i hzero
      cases h
      exact ⟨rfl, fun hr => by simp [hr, hzero]⟩
    · split at h
      · cases h
      · cases h
        exact ⟨rfl, fun _ => Int.toNat_of_nonneg (by omega)⟩

/-- A result set keeps the error, and has the number of rows that the `int` has. -/
theorem ofResultSet_counts {r r' : Result} {result : ResultSet}
    (h : r.ofResultSet result = some r') :
    r'.iError = r.iError ∧ (r.rowCount = 0 → (r'.rowCount : ℤ) = toInt result.rows.length) := by
  have hpos := fields_pos result
  rw [Result.ofResultSet, if_neg (by omega)] at h
  obtain ⟨r₁, hresize, rfl⟩ := Option.map_eq_some_iff.mp h
  have hcounts := resize_counts hresize
  exact hcounts

/-- The rows are pushed as they were received. -/
theorem pushRows_ofResultSet {r r' : Result} {result : ResultSet} (hr : r.rowCount = 0)
    (hlt : result.rows.length < 2 ^ 31) (h : r.ofResultSet result = some r') (useNumbers : Bool) :
    r'.pushRows useNumbers = some (result.rows.map (rowTable useNumbers result.fields)) := by
  by_cases hne : result.rows = []
  · have hcount := (ofResultSet_counts h).2 hr
    rw [hne] at hcount ⊢
    exact pushRows_nil (Int.ofNat.inj hcount) useNumbers
  · exact (ofResultSet_filled hlt hne h).pushRows useNumbers

theorem populateLuaTable_of_ok {r : Result} (h : r.iError = 0) {read : Loc → Bytes}
    {useNumbers : Bool} {data : List RowTable} (hdata : r.pushRows useNumbers = some data) :
    ∃ table, r.populateLuaTable read useNumbers = some table ∧ table.status = true ∧
      table.data = some data := by
  rw [Result.populateLuaTable, if_neg (not_not.mpr h), hdata]
  exact ⟨_, rfl, rfl, rfl⟩

theorem populateLuaTable_ok {r : Result} (h : r.iError = 0) {read : Loc → Bytes} {useNumbers : Bool}
    {table : ResultTable} (htable : r.populateLuaTable read useNumbers = some table) :
    table.status = true ∧ table.data = r.pushRows useNumbers := by
  rw [Result.populateLuaTable, if_neg (not_not.mpr h)] at htable
  cases hdata : r.pushRows useNumbers with
  | none =>
      rw [hdata] at htable
      cases htable
  | some data =>
      rw [hdata] at htable
      cases htable
      exact ⟨rfl, rfl⟩

/-! ### Responses -/

/-- What `mysql_store_result` finds: no rows, a result set, or a transfer that fails. -/
inductive Answer where
  | ok
  | rows (result : ResultSet)
  | transferFailed (e : LibError)

def Answer.reply : Answer → StoreReply
  | .ok => .noResult
  | .rows result => .stored result
  | .transferFailed e => .failed e

/-- A response of the server; an error is reported by the send or by `mysql_next_result`. -/
inductive Response where
  | answer (a : Answer)
  | error (e : LibError)

/-- The table of the response: a success with all its rows, or a failure with its code. -/
def Response.Describes (useNumbers : Bool) : Response → ResultTable → Prop
  | .answer .ok, table => table.status = true ∧ table.data = some []
  | .answer (.rows result), table =>
      table.status = true ∧ table.data = some (result.rows.map (rowTable useNumbers result.fields))
  | .answer (.transferFailed e), table => table.status = false ∧ table.errorid = some e.errno
  | .error e, table => table.status = false ∧ table.errorid = some e.errno

/-- The table of the result is that of the response. -/
def Response.ReportedBy (response : Response) (r : Result) : Prop :=
  ∀ read useNumbers, ∃ table, r.populateLuaTable read useNumbers = some table ∧
    response.Describes useNumbers table

/-- The response is received, with a number of rows that fits an `int`. -/
def Response.Received : Response → Prop
  | .answer .ok => True
  | .answer (.rows result) => result.rows.length < 2 ^ 31
  | .answer (.transferFailed _) => False
  | .error _ => True

/-- The result that the code makes of the response: before the transfer no error is set. -/
def Response.BuiltAs : Response → Result → Prop
  | .answer a, r =>
      ∃ mem lastID affected,
        (Result.started mem .connection .clear lastID affected).ofReply a.reply = some r
  | .error e, r => r.iError = e.errno

theorem reportedBy_iff {response : Response} {r : Result} (h : response.BuiltAs r) :
    response.ReportedBy r ↔ response.Received := by
  cases response with
  | error e =>
      refine iff_of_true (fun read useNumbers => ?_) trivial
      have hne : r.iError ≠ 0 := by
        rw [h]
        exact Nat.ne_of_gt e.errno_pos
      rw [Result.populateLuaTable, if_pos hne]
      exact ⟨_, rfl, rfl, congrArg some h⟩
  | answer a =>
      obtain ⟨mem, lastID, affected, hr⟩ := h
      cases a with
      | ok =>
          cases hr
          exact iff_of_true (fun read useNumbers =>
            populateLuaTable_of_ok rfl (pushRows_nil rfl useNumbers)) trivial
      | rows result =>
          have hzero : r.iError = 0 := (ofResultSet_counts hr).1
          constructor
          · intro hreported
            obtain ⟨table, htable, -, hdata⟩ := hreported (fun _ => []) false
            rw [(populateLuaTable_ok hzero htable).2] at hdata
            have hle := length_pushRows hdata
            have hcount := (ofResultSet_counts hr).2 rfl
            have hlt := toInt_lt result.rows.length
            rw [List.length_map] at hle
            show result.rows.length < 2 ^ 31
            omega
          · intro hlt read useNumbers
            exact populateLuaTable_of_ok hzero (pushRows_ofResultSet rfl hlt hr useNumbers)
      | transferFailed e =>
          cases hr
          refine iff_of_false (fun hreported => ?_) not_false
          obtain ⟨table, htable, hstatus, -⟩ := hreported (fun _ => []) false
          rw [(populateLuaTable_ok rfl htable).1] at hstatus
          cases hstatus

theorem forall₂_reportedBy_iff {responses : List Response} {results : List Result}
    (h : List.Forall₂ Response.BuiltAs responses results) :
    List.Forall₂ Response.ReportedBy responses results ↔
      ∀ response ∈ responses, response.Received := by
  induction h with
  | nil => simp
  | cons hbuilt _ ih => simp [reportedBy_iff hbuilt, ih]

/-! ### Streams -/

/-- What follows a query that was sent: at least one answer,
and possibly an error that ends the stream. -/
structure Stream where
  first : Answer
  rest : List Answer
  error : Option LibError

def Stream.responses (stream : Stream) : List Response :=
  (stream.first :: stream.rest).map .answer ++ stream.error.toList.map .error

/-- What `mysql_next_result` says when the answers `rest` are left. -/
def announced (error : Option LibError) : List Answer → NextReply
  | [] =>
      match error with
      | none => .noMore
      | some e => .failed e
  | _ :: _ => .more

/-- The outcomes of the calls from store `i` and next `j` on are those of the answers and the
error after them; the turn of the loop after an error finds no result and ends the loop. -/
def Follows (lib : Lib) (error : Option LibError) : List Answer → ℕ → ℕ → Prop
  | [], i, j => error ≠ none → lib.storeResult i = .noResult ∧ lib.nextResult j = .noMore
  | a :: rest, i, j => lib.storeResult i = a.reply ∧ lib.nextResult j = announced error rest ∧
      Follows lib error rest (i + 1) (j + 1)

/-- The outcomes of the library from `w` on are those of the stream. -/
def Stream.Follows (stream : Stream) (lib : Lib) (w : World) : Prop :=
  Handler.Follows lib stream.error (stream.first :: stream.rest) (w.calls .storeResult)
    (w.calls .nextResult)

/-- A turn of the loop that returned. -/
theorem nextQueryResult_eq_ok {r : Result} {again : Bool}
    (h : (nextQueryResult lib).run w = .ok (r, again) w') :
    (∃ mem lastID affected, (Result.started mem .connection w.connError lastID affected).ofReply
      (lib.storeResult (w.calls .storeResult)) = some r) ∧
      again = !decide (lib.nextResult (w.calls .nextResult) = .noMore) ∧
      w'.calls .storeResult = w.calls .storeResult + 1 ∧
        w'.calls .nextResult = w.calls .nextResult + 1 ∧
      w'.connError = diagOf (lib.nextResult (w.calls .nextResult)).error := by
  by_cases hfits : (lib.storeResult (w.calls .storeResult)).FitsInt
  · obtain ⟨mem, lastID, affected, r', w'', hrun, hr, hrest⟩ := nextQueryResult_ok hfits
    rw [hrun] at h
    cases h
    exact ⟨⟨mem, lastID, affected, hr⟩, rfl, hrest⟩
  · obtain ⟨w'', hthrow⟩ := nextQueryResult_throws hfits
    rw [hthrow] at h
    cases h

/-- **The results of the loop are those of the responses**, one for each and in their order. -/
theorem iterates_builtAs {error : Option LibError} {a : Answer} {rest : List Answer}
    {results : List Result} (hf : Follows lib error (a :: rest) (w.calls .storeResult)
      (w.calls .nextResult)) (hclear : w.connError = .clear)
    (hit : Iterates (nextQueryResult lib) w results w') :
    List.Forall₂ Response.BuiltAs ((a :: rest).map .answer ++ error.toList.map .error) results := by
  induction rest generalizing a w results with
  | nil =>
      obtain ⟨hstore, hnext, hend⟩ := hf
      cases error with
      | none =>
          cases hit with
          | last hbody =>
              obtain ⟨hr, -⟩ := nextQueryResult_eq_ok hbody
              rw [hclear, hstore] at hr
              exact .cons hr .nil
          | again hbody hrest =>
              obtain ⟨-, hagain, -⟩ := nextQueryResult_eq_ok hbody
              rw [hnext] at hagain
              cases hagain
      | some e =>
          cases hit with
          | last hbody =>
              obtain ⟨-, hagain, -⟩ := nextQueryResult_eq_ok hbody
              rw [hnext] at hagain
              cases hagain
          | again hbody hrest =>
              obtain ⟨hr, -, hstore', hnext', herror⟩ := nextQueryResult_eq_ok hbody
              obtain ⟨hstoreEnd, hnextEnd⟩ := hend (Option.some_ne_none e)
              rw [hclear, hstore] at hr
              rw [hnext] at herror
              rw [← hstore'] at hstoreEnd
              rw [← hnext'] at hnextEnd
              refine .cons hr ?_
              -- the turn after the error builds the entry that reports it
              cases hrest with
              | last hbody' =>
                  obtain ⟨⟨mem, lastID, affected, hr'⟩, -⟩ := nextQueryResult_eq_ok hbody'
                  rw [herror, hstoreEnd] at hr'
                  cases hr'
                  exact .cons rfl .nil
              | again hbody' hrest' =>
                  obtain ⟨-, hagain, -⟩ := nextQueryResult_eq_ok hbody'
                  rw [hnextEnd] at hagain
                  cases hagain
  | cons b rest ih =>
      obtain ⟨hstore, hnext, hfollows⟩ := hf
      cases hit with
      | last hbody =>
          obtain ⟨-, hagain, -⟩ := nextQueryResult_eq_ok hbody
          rw [hnext] at hagain
          cases hagain
      | again hbody hrest =>
          obtain ⟨hr, -, hstore', hnext', herror⟩ := nextQueryResult_eq_ok hbody
          rw [hclear, hstore] at hr
          rw [hnext] at herror
          exact .cons hr (ih (by rw [hstore', hnext']; exact hfollows) herror hrest)

theorem fitsInt_of_received {a : Answer} (h : (Response.answer a).Received) : a.reply.FitsInt := by
  cases a with
  | ok => trivial
  | rows result =>
      show 0 ≤ toInt result.rows.length
      rw [toInt_of_lt h]
      exact Int.natCast_nonneg _
  | transferFailed e => exact h.elim

/-- A stream whose answers are received comes to an end. -/
theorem follows_end {error : Option LibError} {a : Answer} {rest : List Answer} {i j : ℕ}
    (hf : Follows lib error (a :: rest) i j) (h : ∀ b ∈ a :: rest, (Response.answer b).Received) :
    ∃ n, lib.nextResult (j + n) = .noMore ∧ ∀ k ≤ n, (lib.storeResult (i + k)).FitsInt := by
  induction rest generalizing a i j with
  | nil =>
      obtain ⟨hstore, hnext, hend⟩ := hf
      have hfirst : (lib.storeResult i).FitsInt := by
        rw [hstore]
        exact fitsInt_of_received (h a (List.mem_singleton_self a))
      cases error with
      | none =>
          refine ⟨0, hnext, fun k hk => ?_⟩
          rw [Nat.le_zero.mp hk]
          exact hfirst
      | some e =>
          obtain ⟨hstoreEnd, hnextEnd⟩ := hend (Option.some_ne_none e)
          refine ⟨1, hnextEnd, fun k hk => ?_⟩
          obtain rfl | rfl := Nat.le_one_iff_eq_zero_or_eq_one.mp hk
          · exact hfirst
          · rw [hstoreEnd]
            trivial
  | cons b rest ih =>
      obtain ⟨hstore, hnext, hfollows⟩ := hf
      obtain ⟨n, hlast, hfits⟩ := ih hfollows fun c hc => h c (List.mem_cons_of_mem _ hc)
      refine ⟨n + 1, by rw [Nat.add_comm n 1, ← Nat.add_assoc]; exact hlast, fun k hk => ?_⟩
      cases k with
      | zero =>
          rw [Nat.add_zero, hstore]
          exact fitsInt_of_received (h a (List.mem_cons_self ..))
      | succ k =>
          rw [Nat.add_comm k 1, ← Nat.add_assoc]
          exact hfits k (Nat.le_of_succ_le_succ hk)

/-! ### The action's results -/

/-- The responses to a query: the error of its last send, or those of the stream. -/
def queryResponses (lib : Lib) (w : World) (stream : Stream) : List Response :=
  match lastSend lib w with
  | some e => [.error e]
  | none => stream.responses

/-- The action is completed with one result for each
response, in order, whose table is that of the response. -/
def Faithful (lib : Lib) (w : World) (action : DatabaseAction) (query : Bytes)
    (stream : Stream) : Prop :=
  ∃ fuel w' results, (runQuery lib fuel action query).run w = .ok () w' ∧
    w'.completedActions = w.completedActions ++ [(action, results)] ∧
    List.Forall₂ Response.ReportedBy (queryResponses lib w stream) results

theorem runQuery_builtAs {fuel : ℕ} {stream : Stream}
    (hf : lastSend lib w = none → stream.Follows lib w)
    (h : (runQuery lib fuel action query).run w = .ok () w') :
    (Resends lib w → Reprepares lib w w.preparedStatements.length) ∧ ∃ results,
      w'.completedActions = w.completedActions ++ [(action, results)] ∧
        List.Forall₂ Response.BuiltAs (queryResponses lib w stream) results := by
  obtain ⟨hprep, results, -, hpushed, herror, hloop⟩ := runQuery_results h
  refine ⟨hprep, results, hpushed, ?_⟩
  rw [queryResponses]
  cases hlast : lastSend lib w with
  | some e =>
      obtain ⟨r, rfl, hr⟩ := herror e hlast
      exact .cons hr .nil
  | none =>
      obtain ⟨v, v', hclear, hframe, hit⟩ := hloop hlast
      have hfollows := hf hlast
      rw [Stream.Follows, ← hframe.calls .storeResult (by decide),
        ← hframe.calls .nextResult (by decide)] at hfollows
      exact iterates_builtAs hfollows hclear hit

/-- **The results of a query are those of the responses** exactly when a reconnect prepares the
cached statements, no transfer fails, and the row counts fit. -/
theorem responses_reported (action : DatabaseAction) (query : Bytes) {stream : Stream}
    (hf : lastSend lib w = none → stream.Follows lib w) :
    Faithful lib w action query stream ↔
      (Resends lib w → Reprepares lib w w.preparedStatements.length) ∧
      (lastSend lib w = none → ∀ a ∈ stream.first :: stream.rest,
        (Response.answer a).Received) := by
  have hreceived : (∀ response ∈ queryResponses lib w stream, response.Received) ↔
      (lastSend lib w = none → ∀ a ∈ stream.first :: stream.rest,
        (Response.answer a).Received) := by
    rw [queryResponses]
    cases hlast : lastSend lib w with
    | some e => simp [Response.Received]
    | none =>
        constructor
        · intro h _ a ha
          exact h _ (List.mem_append_left _ (List.mem_map_of_mem ha))
        · intro h response hmem
          rcases List.mem_append.mp hmem with ha | he
          · obtain ⟨a, ha', rfl⟩ := List.mem_map.mp ha
            exact h rfl a ha'
          · obtain ⟨e, -, rfl⟩ := List.mem_map.mp he
            trivial
  constructor
  · rintro ⟨fuel, w', results, hrun, hpushed, hreported⟩
    obtain ⟨hprep, results', hpushed', hbuilt⟩ := runQuery_builtAs hf hrun
    rw [hpushed] at hpushed'
    cases List.append_cancel_left hpushed'
    exact ⟨hprep, hreceived.mp ((forall₂_reportedBy_iff hbuilt).mp hreported)⟩
  · rintro ⟨hprep, hall⟩
    obtain ⟨fuel, w', hrun⟩ :=
      runQuery_returns action query ⟨hprep, fun hlast => follows_end (hf hlast) (hall hlast)⟩
    obtain ⟨-, results, hpushed, hbuilt⟩ := runQuery_builtAs hf hrun
    exact ⟨fuel, w', results, hrun, hpushed,
      (forall₂_reportedBy_iff hbuilt).mpr (hreceived.mpr hall)⟩

/-- The transfer of the result set of the first query fails. -/
def lostTransfer : Lib :=
  { Lib.calm with
    storeResult := fun k => if k = 0 then .failed .serverLost else .noResult }

/-- The failed transfer is reported as a success without rows. -/
theorem responses_reported_fails :
    (lastSend lostTransfer (.opened ⟨[], [], [], [], 3306, [], 0⟩) = none ∧
      (Stream.mk (.transferFailed .serverLost) [] none).Follows lostTransfer
        (.opened ⟨[], [], [], [], 3306, [], 0⟩)) ∧
      ¬ Faithful lostTransfer (.opened ⟨[], [], [], [], 3306, [], 0⟩) ⟨0, true⟩ [97]
        ⟨.transferFailed .serverLost, [], none⟩ := by
  have hsend : lastSend lostTransfer (.opened ⟨[], [], [], [], 3306, [], 0⟩) = none := by decide
  have hf : (Stream.mk (.transferFailed .serverLost) [] none).Follows
      lostTransfer (.opened ⟨[], [], [], [], 3306, [], 0⟩) := ⟨rfl, rfl, fun h => (h rfl).elim⟩
  refine ⟨⟨hsend, hf⟩, ?_⟩
  rintro ⟨fuel, w', results, hrun, hpushed, hreported⟩
  obtain ⟨-, results', hpushed', hbuilt⟩ := runQuery_builtAs (fun _ => hf) hrun
  rw [hpushed] at hpushed'
  cases List.append_cancel_left hpushed'
  rw [queryResponses, hsend] at hbuilt hreported
  exact (forall₂_reportedBy_iff hbuilt).mp hreported _ (List.mem_cons_self ..)

/-- Two columns of one name, the second with numbers and a null. -/
def twoRows : ResultSet where
  fields := [⟨[110], 253, 2⟩, ⟨[110], 3, 1⟩]
  rows := [[some [97, 98], some [49]], [some [99], none]]
  fields_ne := List.cons_ne_nil _ _
  fields_lt := (by decide : 2 < 2 ^ 31)
  width := by decide

/-- The first send loses the connection; the second one is
answered with a success, rows and an error. -/
def severalResponses : Lib :=
  { Lib.calm with
    realQuery := fun k => if k = 0 then some .serverLost else none
    storeResult := fun k => if k = 1 then .stored twoRows else .noResult
    nextResult := fun k => if k = 0 then .more else if k = 1 then .failed .noSuchTable
      else .noMore }

/-- The query is sent again, and the action gets the results of three responses. -/
theorem responses_reported_resent :
    Resends severalResponses (.opened ⟨[], [], [], [], 3306, [], 0⟩) ∧
      queryResponses severalResponses (.opened ⟨[], [], [], [], 3306, [], 0⟩)
        ⟨.ok, [.rows twoRows], some .noSuchTable⟩ =
        [.answer .ok, .answer (.rows twoRows), .error .noSuchTable] ∧
      Faithful severalResponses (.opened ⟨[], [], [], [], 3306, [], 0⟩) ⟨0, true⟩ [97]
        ⟨.ok, [.rows twoRows], some .noSuchTable⟩ := by
  have hsend : lastSend severalResponses (.opened ⟨[], [], [], [], 3306, [], 0⟩) = none := by decide
  have hf : (Stream.mk .ok [.rows twoRows] (some .noSuchTable)).Follows severalResponses
      (.opened ⟨[], [], [], [], 3306, [], 0⟩) := ⟨rfl, rfl, rfl, rfl, fun _ => ⟨rfl, rfl⟩⟩
  refine ⟨by decide, by rw [queryResponses, hsend]; rfl,
    (responses_reported ⟨0, true⟩ [97] fun _ => hf).mpr
      ⟨fun _ => reprepares_zero, fun _ a ha => ?_⟩⟩
  obtain rfl | ha := List.mem_cons.mp ha
  · exact trivial
  · obtain rfl := List.mem_singleton.mp ha
    exact (by decide : 2 < 2 ^ 31)

end Tmysql4.Handler
