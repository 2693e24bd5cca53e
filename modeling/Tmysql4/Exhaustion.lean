import Tmysql4.Fetching

/-! # Whether the result loops end

The loops go on until the library says that there is no further result.  `endsWithin_iff` says
when a loop ends in time, from what its turns do, and `result_loops_end_iff` is the result for
both loops: after an error the loop ends only when the library then says that there is no further
result, or when a turn throws. -/

namespace Tmysql4.Handler

open Imperative

variable {lib : Lib} {w w' : World} {h : HandleId}

/-- The loop ends, with one result for each of `n + 1`
result sets and at most one failing result more. -/
def EndsWithin (body : Io (Result × Bool)) (n : ℕ) (w : World) : Prop :=
  match (collect .outOfFuel body (n + 2)).run w with
  | .ok results _ => results.length ≤ n + 2 ∧ ∀ r ∈ results.drop (n + 1), r.iError ≠ 0
  | .error e _ => e ≠ .outOfFuel

/-- Whether a loop ends in time: turn `i` throws unless `F i`, is the last one if `L i`, and gives
a result with the error `E i`. -/
theorem endsWithin_iff (body : Io (Result × Bool)) {I : ℕ → World → Prop} {F L : ℕ → Prop}
    {E : ℕ → ℕ} [DecidablePred L]
    (hok : ∀ i v, I i v → F i → ∃ r v', body.run v = .ok (r, !decide (L i)) v' ∧ I (i + 1) v' ∧
      r.iError = E i)
    (hbad : ∀ i v, I i v → ¬ F i → ∃ e v', e ≠ .outOfFuel ∧ body.run v = .error e v')
    (hw : I 0 w) {n : ℕ} (hmore : ∀ i < n, ¬ L i) :
    EndsWithin body n w ↔ L n ∨ (∃ i < n + 2, ¬ F i) ∨ (L (n + 1) ∧ E (n + 1) ≠ 0) := by
  have hcases := collect_cases hok hbad (n + 2) hw
  simp only [Nat.zero_add] at hcases
  unfold EndsWithin
  obtain ⟨k, hk, hbefore, hfits, hlast, results, w', hrun, hlen, herror⟩ |
      ⟨k, hk, hfail, e, w', he, hrun⟩ | ⟨hgo, w', hrun⟩ := hcases
  · have hnk : n ≤ k := by
      by_contra hlt
      exact hmore k (Nat.lt_of_not_le hlt) hlast
    simp only [hrun]
    obtain rfl | hlt := Nat.eq_or_lt_of_le hnk
    · refine iff_of_true ⟨by omega, fun r hr => ?_⟩ (Or.inl hlast)
      rw [List.drop_eq_nil_of_le (Nat.le_of_eq hlen)] at hr
      cases hr
    · obtain rfl : k = n + 1 := by omega
      have hdrop : ∃ r, results.drop (n + 1) = [r] ∧ r.iError = E (n + 1) := by
        have hlt : n + 1 < results.length := by omega
        refine ⟨results[n + 1], ?_, herror (n + 1) _ (List.getElem?_eq_getElem hlt)⟩
        rw [List.drop_eq_getElem_cons hlt, List.drop_eq_nil_of_le (by omega)]
      obtain ⟨r, hdrop, hr⟩ := hdrop
      have hall : ¬ ∃ i < n + 2, ¬ F i := by
        rintro ⟨i, hi, hfail⟩
        obtain hi | rfl := Nat.lt_succ_iff_lt_or_eq.mp hi
        · exact hfail (hbefore i hi).1
        · exact hfail hfits
      rw [hdrop]
      constructor
      · rintro ⟨-, hfailing⟩
        exact Or.inr (Or.inr ⟨hlast, by rw [← hr]; exact hfailing r (List.mem_singleton_self r)⟩)
      · rintro (hl | hfail | ⟨-, hne⟩)
        · exact absurd hl (hbefore n (Nat.lt_succ_self n)).2
        · exact absurd hfail hall
        · refine ⟨by omega, fun r' hr' => ?_⟩
          rw [List.mem_singleton.mp hr', hr]
          exact hne
  · simp only [hrun]
    exact iff_of_true he (Or.inr (Or.inl ⟨k, hk, hfail⟩))
  · simp only [hrun]
    refine iff_of_false (fun hne => hne rfl) ?_
    rintro (hl | ⟨i, hi, hfail⟩ | ⟨hl, -⟩)
    · exact (hgo n (by omega)).2 hl
    · exact hfail (hgo i hi).1
    · exact (hgo (n + 1) (by omega)).2 hl

/-! ### The loop of a text query -/

/-- What `mysql_error` says at turn `i`. -/
def queryDiag (lib : Lib) (w : World) : ℕ → Diag
  | 0 => w.connError
  | i + 1 => diagOf (lib.nextResult (w.calls .nextResult + i)).error

theorem ofReply_iError {r r' : Result} {reply : StoreReply} (h : r.ofReply reply = some r') :
    r'.iError = r.iError := by
  cases reply with
  | stored result => exact (ofResultSet_counts h).1
  | noResult =>
      cases h
      rfl
  | failed e =>
      cases h
      rfl

/-- The turn after an error of `mysql_next_result` gives a
failing result, so the next answer decides. -/
theorem queryLoop_endsWithin_iff {n : ℕ}
    (hmore : ∀ i < n, lib.nextResult (w.calls .nextResult + i) = .more)
    (hn : lib.nextResult (w.calls .nextResult + n) ≠ .more) :
    EndsWithin (nextQueryResult lib) n w ↔ lib.nextResult (w.calls .nextResult + n) = .noMore ∨
      (∃ i < n + 2, ¬ (lib.storeResult (w.calls .storeResult + i)).FitsInt) ∨
      lib.nextResult (w.calls .nextResult + (n + 1)) = .noMore := by
  have hends := endsWithin_iff (nextQueryResult lib) (w := w) (n := n)
    (I := fun i v => v.calls .storeResult = w.calls .storeResult + i ∧
      v.calls .nextResult = w.calls .nextResult + i ∧ v.connError = queryDiag lib w i)
    (F := fun i => (lib.storeResult (w.calls .storeResult + i)).FitsInt)
    (L := fun i => lib.nextResult (w.calls .nextResult + i) = .noMore)
    (E := fun i => (queryDiag lib w i).errno) ?_ ?_ ⟨rfl, rfl, rfl⟩ ?_
  · rw [hends]
    cases hreply : lib.nextResult (w.calls .nextResult + n) with
    | more => exact absurd hreply hn
    | noMore => simp
    | failed e => simp [queryDiag, hreply, NextReply.error]
  · rintro i v ⟨hstore, hnext, herror⟩ hfits
    rw [← hstore] at hfits
    obtain ⟨mem, lastID, affected, r, v', hrun, hr, hstore', hnext', herror'⟩ :=
      nextQueryResult_ok hfits
    rw [hnext] at hrun herror'
    refine ⟨r, v', hrun, ⟨by rw [hstore', hstore,
      Nat.add_assoc], by rw [hnext', hnext, Nat.add_assoc], herror'⟩, ?_⟩
    rw [ofReply_iError hr, ← herror]
    rfl
  · rintro i v ⟨hstore, -, -⟩ hfits
    rw [← hstore] at hfits
    obtain ⟨v', hrun⟩ := nextQueryResult_throws hfits
    exact ⟨_, v', by simp, hrun⟩
  · intro i hi
    rw [hmore i hi]
    simp

/-! ### The loop of a statement -/

/-- What a fetch of the first `n` rows leaves when it breaks off. -/
def fetchDiag (result : StoredResult) (n : ℕ) : Option Diag :=
  (fetched result (result.rows.take n) 0).2

/-- The error of the result of a statement response: that of
the store, or of the fetch that broke off. -/
def entryDiag (d : Diag) : Option StoredResult → Diag
  | none => d
  | some result => (fetchDiag result result.rowCount).getD d

theorem ofMetadata_iError {r r' : Result} (hr : r.rowCount = 0) {d : Diag} (hd : r.iError = d.errno)
    {metadata : Option StoredResult} (h' : r.ofMetadata h metadata = some r') :
    r'.iError = (entryDiag d metadata).errno := by
  cases metadata with
  | none =>
      cases h'
      exact hd
  | some result =>
      have hpos := fields_pos result.toResultSet
      rw [Result.ofMetadata, Result.ofStored, if_neg (by omega)] at h'
      obtain ⟨r₁, hresize, rfl⟩ := Option.map_eq_some_iff.mp h'
      have hcounts := resize_counts hresize
      have hrows : r₁.rowCount = result.rowCount := by
        rw [ResultSet.rowCount, ← hcounts.2 hr, Int.toNat_natCast]
      rw [entryDiag, ← hrows, ← fetchDiag]
      cases fetchDiag result r₁.rowCount with
      | none => exact hcounts.1.trans hd
      | some d' => rfl

/-- The outcome of the store that the constructor finds in turn `i`: every turn stores twice. -/
def storedDiag (lib : Lib) (w : World) (i : ℕ) : Diag :=
  diagOf (lib.stmtStoreResult (w.calls .stmtStoreResult + 2 * i))

/-- The result of turn `i` of the loop reports an error. -/
def EntryFails (lib : Lib) (w : World) (i : ℕ) : Prop :=
  (entryDiag (storedDiag lib w i)
    (lib.stmtResultMetadata (w.calls .stmtResultMetadata + i))).errno ≠ 0

theorem statementLoop_endsWithin_iff (h : HandleId) {n : ℕ}
    (hmore : ∀ i < n, lib.stmtNextResult (w.calls .stmtNextResult + i) = .more) :
    EndsWithin (nextStatementResult lib h) n w ↔
      lib.stmtNextResult (w.calls .stmtNextResult + n) = .noMore ∨
      (∃ i < n + 2, ¬ MetadataFitsInt (lib.stmtResultMetadata (w.calls .stmtResultMetadata + i))) ∨
      (lib.stmtNextResult (w.calls .stmtNextResult + (n + 1)) = .noMore ∧
        EntryFails lib w (n + 1)) := by
  refine endsWithin_iff (nextStatementResult lib h)
    (I := fun i v => v.calls .stmtStoreResult = w.calls .stmtStoreResult + 2 * i ∧
      v.calls .stmtResultMetadata = w.calls .stmtResultMetadata + i ∧
      v.calls .stmtNextResult = w.calls .stmtNextResult + i)
    (F := fun i => MetadataFitsInt (lib.stmtResultMetadata (w.calls .stmtResultMetadata + i)))
    (L := fun i => lib.stmtNextResult (w.calls .stmtNextResult + i) = .noMore)
    (E := fun i => (entryDiag (storedDiag lib w i)
      (lib.stmtResultMetadata (w.calls .stmtResultMetadata + i))).errno)
    ?_ ?_ ⟨rfl, rfl, rfl⟩ ?_
  · rintro i v ⟨hstore, hmeta, hnext⟩ hfits
    rw [← hmeta] at hfits
    obtain ⟨mem, lastID, affected, r, v', hrun, hr, hstore', hmeta', hnext'⟩ :=
      nextStatementResult_ok h hfits
    rw [hnext] at hrun
    rw [hmeta, hstore] at hr
    refine ⟨r, v', hrun, ⟨?_, ?_, ?_⟩, ofMetadata_iError rfl rfl hr⟩
    · rw [hstore', hstore]
      omega
    · rw [hmeta', hmeta, Nat.add_assoc]
    · rw [hnext', hnext, Nat.add_assoc]
  · rintro i v ⟨-, hmeta, -⟩ hfits
    rw [← hmeta] at hfits
    obtain ⟨v', hrun⟩ := nextStatementResult_throws h hfits
    exact ⟨_, v', by simp, hrun⟩
  · intro i hi
    rw [hmore i hi]
    simp

/-! ### Both loops -/

/-- **When the result loops end in time.** The first answer that is not "another result" comes
after `n` of these: it says that there is none, or the next answer does (and the entry in between
is a failing one), or a row count does not fit. -/
theorem result_loops_end_iff (lib : Lib) (h : HandleId) (w : World) (n : ℕ) :
    ((∀ i < n, lib.nextResult (w.calls .nextResult + i) = .more) →
      lib.nextResult (w.calls .nextResult + n) ≠ .more →
      (EndsWithin (nextQueryResult lib) n w ↔ lib.nextResult (w.calls .nextResult + n) = .noMore ∨
        (∃ i < n + 2, ¬ (lib.storeResult (w.calls .storeResult + i)).FitsInt) ∨
        lib.nextResult (w.calls .nextResult + (n + 1)) = .noMore)) ∧
    ((∀ i < n, lib.stmtNextResult (w.calls .stmtNextResult + i) = .more) →
      lib.stmtNextResult (w.calls .stmtNextResult + n) ≠ .more →
      (EndsWithin (nextStatementResult lib h) n w ↔
        lib.stmtNextResult (w.calls .stmtNextResult + n) = .noMore ∨
        (∃ i < n + 2, ¬ MetadataFitsInt
          (lib.stmtResultMetadata (w.calls .stmtResultMetadata + i))) ∨
        (lib.stmtNextResult (w.calls .stmtNextResult + (n + 1)) = .noMore ∧
          EntryFails lib w (n + 1)))) :=
  ⟨fun hmore hn => queryLoop_endsWithin_iff hmore hn,
    fun hmore _ => statementLoop_endsWithin_iff h hmore⟩

/-- The library that answers every question for a further result with an error. -/
def Lib.refusing : Lib :=
  { Lib.calm with
    nextResult := fun _ => .failed .serverLost
    stmtNextResult := fun _ => .failed .serverLost }

/-- A loop whose turns never throw and never end it does not end. -/
theorem collect_goes_on {body : Io (Result × Bool)}
    (hbody : ∀ v, ∃ r v', body.run v = .ok (r, true) v') (fuel : ℕ) (w : World) :
    ∃ w', (collect .outOfFuel body fuel).run w = .error .outOfFuel w' := by
  have hok : ∀ (i : ℕ) v, True → True → ∃ r v', body.run v = .ok (r, !decide False) v' ∧ True ∧
      True := by
    intro i v _ _
    obtain ⟨r, v', hrun⟩ := hbody v
    exact ⟨r, v', by simpa using hrun, trivial, trivial⟩
  have hbad : ∀ (i : ℕ) v, True → ¬ True → ∃ e v', e ≠ Exn.outOfFuel ∧ body.run v = .error e v' :=
    fun i v _ hfail => absurd trivial hfail
  obtain ⟨_, -, -, -, hlast, -⟩ | ⟨_, -, hfail, -⟩ | ⟨-, hrun⟩ :=
    collect_cases (I := fun _ _ => True)
    (F := fun _ => True) (L := fun _ => False) (P := fun _ _ => True) hok hbad fuel (i := 0)
      (s := w) trivial
  · exact hlast.elim
  · exact absurd trivial hfail
  · exact hrun

/-- When the library keeps answering with an error, neither loop ends. -/
theorem result_loops_end_iff_fails :
    (∀ fuel, ∃ w', (collect .outOfFuel (nextQueryResult .refusing) fuel).run
      (.opened ⟨[], [], [], [], 3306, [], 0⟩) = .error .outOfFuel w') ∧
    ∀ fuel, ∃ w', (collect .outOfFuel (nextStatementResult .refusing 0) fuel).run
      (.opened ⟨[], [], [], [], 3306, [], 0⟩) = .error .outOfFuel w' := by
  refine ⟨fun fuel => collect_goes_on (fun v => ?_) fuel _,
    fun fuel => collect_goes_on (fun v => ?_) fuel _⟩
  · have hfits : (Lib.refusing.storeResult (v.calls .storeResult)).FitsInt := trivial
    obtain ⟨-, -, -, r, v', hrun, -⟩ := nextQueryResult_ok hfits
    exact ⟨r, v', hrun⟩
  · have hfits : MetadataFitsInt (Lib.refusing.stmtResultMetadata (v.calls .stmtResultMetadata)) :=
      trivial
    obtain ⟨-, -, -, r, v', hrun, -⟩ := nextStatementResult_ok 0 hfits
    exact ⟨r, v', hrun⟩

/-- A further result, an error, and then the end: the rows of a query, and a statement whose last
result fails too. -/
theorem result_loops_end_iff_several :
    EndsWithin (nextQueryResult severalResponses) 1 (.opened ⟨[], [], [], [], 3306, [], 0⟩) ∧
      EndsWithin (nextStatementResult { Lib.answering (twoStored .fetched) with
        stmtNextResult := severalResponses.nextResult
        stmtStoreResult := fun k => if k < 4 then none else some .serverLost } 0) 1
        (.opened ⟨[], [], [], [], 3306, [], 0⟩) := by
  have hmore : ∀ i < 1, severalResponses.nextResult (0 + i) = .more := by decide
  exact ⟨((result_loops_end_iff severalResponses 0 (.opened ⟨[], [], [], [], 3306, [], 0⟩) 1).1
    hmore (by decide)).mpr (.inr (.inr rfl)),
    ((result_loops_end_iff _ 0 (.opened ⟨[], [], [], [], 3306, [], 0⟩) 1).2 hmore (by decide)).mpr
      (.inr (.inr ⟨rfl, LibError.diag_errno_ne .serverLost⟩))⟩

end Tmysql4.Handler
