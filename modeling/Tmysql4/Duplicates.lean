import Tmysql4.Returns

/-! # How often the server executes a request

`Network` decides what becomes of each query and each statement execution: `Delivers` relates the
outcome that the client sees to whether the server has executed the request, and a lost connection
leaves both open. `server` replays the log of requests on the other side of such a network.

`executed_at_most_twice` is the result: a handler's request is executed at most twice, twice only
when its first execution's reply was lost before the reconnect of the handler (`Repeated`), and at
least once when the table of one of its results has `status = true`. -/

namespace Tmysql4.Handler

open Imperative

variable {lib : Lib} {w w' w'' : World} {s : StmtId} {binds : List Bind} {query : Bytes}
  {fns : List Fn}

/-! ### The network and the server -/

/-- The outcome that the client sees, and whether the server has executed the request. -/
inductive Delivers : Option LibError → Bool → Prop where
  | replied : Delivers none true
  /-- A statement that the server does not know is not executed. -/
  | refused {e : LibError} {executed : Bool} (hlost : lostConnection e.errno = false)
      (hunknown : e.errno = 1243 → executed = false) : Delivers (some e) executed
  | requestLost {e : LibError} (hlost : lostConnection e.errno = true) : Delivers (some e) false
  | replyLost {e : LibError} (hlost : lostConnection e.errno = true) : Delivers (some e) true

theorem Delivers.of_none {executed : Bool} (h : Delivers none executed) : executed = true := by
  cases h
  rfl

theorem Delivers.of_unknown {e : LibError} {executed : Bool} (h : Delivers (some e) executed)
    (he : e.errno = 1243) : executed = false := by
  cases h with
  | refused _ hunknown => exact hunknown he
  | requestLost _ => rfl
  | replyLost hlost =>
      rw [he] at hlost
      cases hlost

/-- Which of the queries and of the statement executions are executed. -/
structure Network (lib : Lib) where
  query : ℕ → Bool
  statement : ℕ → Bool
  query_delivers : ∀ k, Delivers (lib.realQuery k) (query k)
  statement_delivers : ∀ k, Delivers (lib.stmtExecute k) (statement k)

/-- The queries and the statement executions sent, and what has been executed. -/
structure Server where
  queries : ℕ
  statements : ℕ
  executed : List Request
deriving DecidableEq

/-- The request, when it is executed. -/
def delivered (executed : Bool) (r : Request) : List Request := if executed then [r] else []

theorem length_delivered (executed : Bool) (r : Request) :
    (delivered executed r).length = executed.toNat := by
  cases executed <;> rfl

theorem eq_of_mem_delivered {executed : Bool} {r x : Request} (h : x ∈ delivered executed r) :
    x = r := by
  cases executed with
  | false => cases h
  | true => exact List.mem_singleton.mp h

variable (net : Network lib)

def Server.after (σ : Server) : Request → Server
  | .realQuery query =>
      { σ with
        queries := σ.queries + 1
        executed := σ.executed ++ delivered (net.query σ.queries) (.realQuery query) }
  | .stmtExecute h binds =>
      { σ with
        statements := σ.statements + 1
        executed := σ.executed ++ delivered (net.statement σ.statements) (.stmtExecute h binds) }
  | _ => σ

def server (log : List Request) : Server := log.foldl (Server.after net) ⟨0, 0, []⟩

variable {net}

theorem server_snoc (log : List Request) (r : Request) :
    server net (log ++ [r]) = (server net log).after net r := by
  rw [server, List.foldl_append]
  rfl

theorem Server.after_quiet {r : Request} (hr : r.executes = false) (σ : Server) :
    σ.after net r = σ := by
  cases r with
  | realQuery query => cases hr
  | stmtExecute h binds => cases hr
  | _ => rfl

/-- The counts are those of the server, which has executed `executed` since `w`. -/
structure Ran (net : Network lib) (executed : List Request) (w w' : World) : Prop where
  queries : (server net w'.log).queries = w'.calls .realQuery
  statements : (server net w'.log).statements = w'.calls .stmtExecute
  history : (server net w'.log).executed = (server net w.log).executed ++ executed

variable {executed executed' : List Request}

theorem Ran.trans (h : Ran net executed w w') (h' : Ran net executed' w' w'') :
    Ran net (executed ++ executed') w w'' where
  queries := h'.queries
  statements := h'.statements
  history := by rw [h'.history, h.history, List.append_assoc]

theorem Ran.self (h : Ran net executed w w') : Ran net [] w' w' :=
  ⟨h.queries, h.statements, (List.append_nil _).symm⟩

/-- The functions that do not execute anything. -/
def quietFns : List Fn := connectFns ++ queryFns ++ statementFns

theorem connectable_ran : Connectable quietFns (Ran net executed w) where
  call f hf w' h := by
    have hne : ∀ {g : Fn}, g ∉ quietFns → g ≠ f := fun hg he => hg (he ▸ hf)
    exact ⟨by rw [counted_calls_ne w' (hne (by decide))]; exact h.queries,
      by rw [counted_calls_ne w' (hne (by decide))]; exact h.statements, h.history⟩
  connError _ _ h := ⟨h.queries, h.statements, h.history⟩
  handle _ _ _ _ h := ⟨h.queries, h.statements, h.history⟩
  locals _ _ _ h := ⟨h.queries, h.statements, h.history⟩
  frees _ _ h := ⟨h.queries, h.statements, h.history⟩
  waiter _ _ h := ⟨h.queries, h.statements, h.history⟩
  isPendingCallback _ _ h := ⟨h.queries, h.statements, h.history⟩
  prepares := by decide
  request r hr w' h := by
    have hquiet : r.executes = false := by
      cases r with
      | realQuery query => cases hr
      | stmtExecute h binds => cases hr
      | _ => rfl
    have hlog : server net (w'.log ++ [r]) = server net w'.log := by
      rw [server_snoc, Server.after_quiet hquiet]
    exact ⟨hlog ▸ h.queries, hlog ▸ h.statements, hlog ▸ h.history⟩
  handles _ _ _ h := ⟨h.queries, h.statements, h.history⟩
  stmts _ _ _ h := ⟨h.queries, h.statements, h.history⟩
  opens := by decide
  quiet r hquiet _ w' h := by
    have hlog : server net (w'.log ++ [r]) = server net w'.log := by
      rw [server_snoc, Server.after_quiet hquiet]
    exact ⟨hlog ▸ h.queries, hlog ▸ h.statements, hlog ▸ h.history⟩
  charSet _ _ h := ⟨h.queries, h.statements, h.history⟩

theorem ran_pushCompleted (action : DatabaseAction) (results : List Result) :
    Preserves (Ran net executed w) (pushCompleted action results) :=
  Preserves.modify fun _ h => ⟨h.queries, h.statements, h.history⟩

/-! ### One send and one execution -/

theorem mysqlRealQuery_ran (h : Ran net [] w w) {failed : Bool}
    (hrun : (mysqlRealQuery lib query).run w = .ok failed w') :
    Ran net (delivered (net.query (w.calls .realQuery)) (.realQuery query)) w w' := by
  rw [mysqlRealQuery_run] at hrun
  cases hrun
  refine ⟨?_, ?_, ?_⟩
  · rw [server_snoc]
    simp [Server.after, h.queries]
  · rw [server_snoc]
    simp [Server.after, h.statements]
  · rw [server_snoc]
    simp [Server.after, h.queries]

theorem attempt_ran (h : Ran net [] w w) {handle : HandleId} (hs : (w.stmt s).stmt = some handle)
    {d : Diag} (hrun : (attempt lib s binds).run w = .ok d w') :
    Ran net (delivered (net.statement (w.calls .stmtExecute)) (.stmtExecute handle binds)) w w' ∧
      w'.calls .stmtExecute = w.calls .stmtExecute + 1 := by
  have hran : Ran net (delivered (net.statement (w.calls .stmtExecute)) (.stmtExecute handle binds))
      w (final ((attempt lib s binds).run w)) ∧
      (final ((attempt lib s binds).run w)).calls .stmtExecute = w.calls .stmtExecute + 1 := by
    rw [attempt, run_bind_ok (stmtHandle_run hs),
      run_bind_ok (mysqlStmtBindParam_run handle binds w),
        run_bind_ok (mysqlStmtExecute_run lib handle _)]
    refine (Preserves.ite (preserves_mysqlStmtError handle) (Preserves.pure _) :
      Preserves (fun w' => Ran net _ w w' ∧ w'.calls .stmtExecute = _) _) _ ⟨⟨?_, ?_, ?_⟩, by simp⟩
    · rw [server_snoc]
      simp [Server.after, h.queries]
    · rw [server_snoc]
      simp [Server.after, h.statements]
    · rw [server_snoc]
      simp [Server.after, h.statements]
  rwa [hrun] at hran

/-! ### All sends and all executions -/

/-- At most `n` requests of the kind `Mine` were executed,
and at least one when the outcome is a success. -/
def Answered (net : Network lib) (Mine : Request → Prop) (n : ℕ) (w : World)
    (r : EStateM.Result Exn World Diag) : Prop :=
  ∃ executed, Ran net executed w (final r) ∧ (∀ x ∈ executed, Mine x) ∧ executed.length ≤ n ∧
    ∀ d w', r = .ok d w' → d.errno = 0 → executed ≠ []

variable {Mine : Request → Prop} {n m : ℕ} {r : EStateM.Result Exn World Diag}

theorem Answered.mono (h : Answered net Mine m w r) (hle : m ≤ n) : Answered net Mine n w r := by
  obtain ⟨executed, hran, hmine, hlen, hok⟩ := h
  exact ⟨executed, hran, hmine, Nat.le_trans hlen hle, hok⟩

theorem Answered.after (hran : Ran net executed w w') (hmine : ∀ x ∈ executed, Mine x)
    (h : Answered net Mine m w' r) : Answered net Mine (executed.length + m) w r := by
  obtain ⟨executed', hran', hmine', hlen, hok⟩ := h
  refine ⟨executed ++ executed', hran.trans hran', fun x hx => ?_, by simpa using hlen,
    fun d w'' hr hd => ?_⟩
  · obtain hx | hx := List.mem_append.mp hx
    · exact hmine x hx
    · exact hmine' x hx
  · exact List.append_ne_nil_of_right_ne_nil _ (hok d w'' hr hd)

/-- No success, and nothing was executed since. -/
theorem Answered.of_error {e : Exn} (h : Ran net [] w w') : Answered net Mine 0 w (.error e w') :=
  ⟨[], h, by simp, Nat.le_refl 0, nofun⟩

/-- One request, after which the loop ends in some way. -/
theorem Answered.once {b : Bool} {x : Request} (hran : Ran net (delivered b x) w (final r))
    (hmine : Mine x) (hok : ∀ d w', r = .ok d w' → d.errno = 0 → b = true) :
    Answered net Mine b.toNat w r := by
  refine ⟨delivered b x, hran, fun y hy => eq_of_mem_delivered hy ▸ hmine,
    Nat.le_of_eq (length_delivered b x), ?_⟩
  intro d w' hr hd
  rw [hok d w' hr hd]
  exact List.cons_ne_nil _ _

/-- One request, after which an exception ends the loop. -/
theorem Answered.once_error {b : Bool} {x : Request} {e : Exn} (hran : Ran net (delivered b x) w w')
    (hmine : Mine x) (hn : b.toNat ≤ n) : Answered net Mine n w (.error e w') :=
  Answered.mono (r := .error e w') (Answered.once hran hmine nofun) hn

theorem connects_of_connect {isReconnect : Bool}
    (h : (connect lib isReconnect).run w = .ok none w') : Connects lib w := by
  by_contra hc
  obtain ⟨error, w'', hrefused, -⟩ := connect_refused isReconnect hc
  rw [h] at hrefused
  cases hrefused

/-- The first send is executed and repeated. -/
def QueryRepeated (net : Network lib) (w : World) : Prop :=
  Resends lib w ∧ net.query (w.calls .realQuery) = true

theorem send_answered (h : Ran net [] w w) (query : Bytes) (fuel : ℕ) (hasRetried : Bool)
    (hn : (net.query (w.calls .realQuery)).toNat ≤ n)
    (hrepeat : hasRetried = false → Resends lib w →
      (net.query (w.calls .realQuery)).toNat + 1 ≤ n) :
    Answered net (· = .realQuery query) n w ((send lib query fuel hasRetried).run w) := by
  induction fuel generalizing w n hasRetried with
  | zero => exact (Answered.of_error h).mono (Nat.zero_le n)
  | succ fuel ih =>
      obtain ⟨w₁, hrun, herror, hframe, -⟩ := mysqlRealQuery_sent lib query w
      have hran := mysqlRealQuery_ran h hrun
      have hdelivers := net.query_delivers (w.calls .realQuery)
      rw [send, run_bind_ok hrun]
      cases ho : sendOutcome lib w 0 with
      | none =>
          have hexecuted : net.query (w.calls .realQuery) = true := by
            rw [sendOutcome, Nat.add_zero] at ho
            rw [ho] at hdelivers
            exact hdelivers.of_none
          refine Answered.mono ?_ hn
          exact Answered.once hran rfl fun _ _ _ _ => hexecuted
      | some e =>
          rw [Option.isSome_some, if_pos rfl, run_bind_ok (mysqlError_run _), herror, ho]
          split
          · rename_i hlost
            obtain ⟨hfresh, hlost⟩ := Bool.and_eq_true_iff.mp hlost
            have hconnect : Ran net _ w (final ((connect lib true).run w₁)) :=
              connectable_ran.connect true w₁ hran
            cases hc : (connect lib true).run w₁ with
            | error e' w₂ =>
                rw [hc] at hconnect
                rw [run_bind_error hc]
                exact Answered.once_error hconnect rfl hn
            | ok err w₂ =>
                rw [hc] at hconnect
                rw [run_bind_ok hc]
                cases err with
                | none =>
                    have hresends : Resends lib w := by
                      refine ⟨by rw [ho]; exact hlost, ?_⟩
                      rw [← connects_congr hframe (by decide) (by decide) (by decide)]
                      exact connects_of_connect hc
                    refine (Answered.after hconnect (fun x hx => eq_of_mem_delivered hx)
                      (ih hconnect.self true (Bool.toNat_le _) fun h => by cases h)).mono ?_
                    rw [length_delivered]
                    exact hrepeat (by simpa using hfresh) hresends
                | some _ =>
                    refine Answered.mono ?_ hn
                    exact Answered.once hconnect rfl fun d w' hr hd => absurd hd (by cases hr; simp)
          · refine Answered.mono ?_ hn
            exact Answered.once hran rfl fun d w' hr hd => absurd hd (by cases hr; simp)

/-- How many of the next `n` statement executions the server executes. -/
def executedOf (net : Network lib) (w : World) (n : ℕ) : ℕ :=
  (List.range n).countP fun i => net.statement (w.calls .stmtExecute + i)

theorem executedOf_succ (net : Network lib) (h : w'.calls .stmtExecute = w.calls .stmtExecute + 1)
    (n : ℕ) :
    executedOf net w (n + 1) = (net.statement (w.calls .stmtExecute)).toNat +
      executedOf net w' n := by
  rw [executedOf, executedOf, List.range_succ_eq_map, List.countP_cons, List.countP_map, h,
    Nat.add_comm]
  congr 1
  · cases net.statement (w.calls .stmtExecute) <;> simp
  · refine List.countP_congr fun i _ => ?_
    simp [Nat.add_assoc, Nat.add_comm 1 i]

theorem executions_answered (h : Ran net [] w w) (fuel k : ℕ)
    {hasRetried hasRetriedStatement : Bool}
    (hk : (!hasRetried).toNat + (!hasRetriedStatement).toNat ≤ k) {c : Bool}
    (hc : hasRetried = false → (c = true ↔ Connects lib w)) :
    Answered net (fun x => ∃ handle, x = .stmtExecute handle binds)
      (executedOf net w ((recoveries c k (executeErrno lib w) hasRetried
        hasRetriedStatement).length + 1)) w
      ((executions lib s binds fuel hasRetried hasRetriedStatement).run w) := by
  induction fuel generalizing w k hasRetried hasRetriedStatement with
  | zero => exact (Answered.of_error h).mono (Nat.zero_le _)
  | succ fuel ih =>
      cases hs : (w.stmt s).stmt with
      | none =>
          obtain ⟨e, hnull, -⟩ :=
            executions_null lib binds hs (fuel + 1) hasRetried hasRetriedStatement
          rw [hnull]
          exact (Answered.of_error h).mono (Nat.zero_le _)
      | some handle =>
          obtain ⟨w₁, hrun, hatt⟩ := attempt_run lib binds hs
          obtain ⟨hran, hcalls⟩ := attempt_ran h hs hrun
          have hmine : ∃ handle', Request.stmtExecute handle binds = .stmtExecute handle' binds :=
            ⟨handle, rfl⟩
          have hfirst : (net.statement (w.calls .stmtExecute)).toNat ≤ executedOf net w
              ((recoveries c k (executeErrno lib w) hasRetried hasRetriedStatement).length +
                1) := by
            rw [executedOf_succ net hcalls]
            exact Nat.le_add_right _ _
          have hexecuted : (diagOf (executeOutcome lib w 0)).errno = 0 →
              net.statement (w.calls .stmtExecute) = true := by
            intro hd
            have hdelivers := net.statement_delivers (w.calls .stmtExecute)
            have houtcome := diagOf_errno_eq_zero_iff.mp hd
            rw [executeOutcome, Nat.add_zero] at houtcome
            rw [houtcome] at hdelivers
            exact hdelivers.of_none
          rw [executions, run_bind_ok hrun]
          by_cases hlost : (!hasRetried && lostConnection (diagOf (executeOutcome lib w 0)).errno) =
            true
          · obtain ⟨hfresh, hlost'⟩ := Bool.and_eq_true_iff.mp hlost
            obtain rfl : hasRetried = false := by simpa using hfresh
            have hconnect : Ran net _ w (final ((connect lib true).run w₁)) :=
              connectable_ran.connect true w₁ hran
            rw [reconnectIf, if_pos hlost]
            cases hconn : (connect lib true).run w₁ with
            | error e w₂ =>
                rw [hconn] at hconnect
                rw [run_bind_error hconn]
                exact Answered.once_error hconnect hmine hfirst
            | ok err w₂ =>
                rw [hconn] at hconnect
                rw [run_bind_ok hconn]
                cases err with
                | none =>
                    have hframe : Frame connectFns w₁ w₂ :=
                      ((connectable_frame (List.Subset.refl _)).connect true).ok hconn (.refl _ _)
                    have hconnects : c = true := by
                      rw [hc rfl, ← connects_congr hatt.frame (by decide) (by decide) (by decide)]
                      exact connects_of_connect hconn
                    obtain ⟨k, rfl⟩ : ∃ k', k = k' + 1 := ⟨k - 1, by simp at hk; omega⟩
                    rw [recoveries, if_pos (by rw [hconnects, executeErrno, hlost]; rfl),
                      List.length_cons, executedOf_succ net
                        ((hframe.calls .stmtExecute (by decide)).trans hcalls),
                      ← length_delivered, ← executeErrno_shift (hatt.shift hframe (by decide))]
                    exact Answered.after hconnect (fun x hx => eq_of_mem_delivered hx ▸ hmine)
                      (ih hconnect.self k (by simp at hk ⊢; omega) fun h => by cases h)
                | some _ =>
                    simp only
                    split
                    · rename_i hunknown
                      rw [of_decide_eq_true (Bool.and_eq_true_iff.mp hunknown).2] at hlost'
                      cases hlost'
                    · refine Answered.mono ?_ hfirst
                      exact Answered.once hconnect hmine fun d w' hr hd =>
                        hexecuted (by cases hr; exact hd)
          · rw [reconnectIf, if_neg hlost, run_bind_ok (EStateM.run_pure _ _)]
            simp only
            split
            · rename_i hunknown
              obtain ⟨hfresh, hunknown⟩ := Bool.and_eq_true_iff.mp hunknown
              obtain rfl : hasRetriedStatement = false := by simpa using hfresh
              have hprepare : Ran net _ w (final ((prepare lib s).run w₁)) :=
                connectable_ran.toPreparable.prepare s w₁ hran
              cases hprep : (prepare lib s).run w₁ with
              | error e w₂ =>
                  rw [hprep] at hprepare
                  rw [run_bind_error hprep]
                  exact Answered.once_error hprepare hmine hfirst
              | ok _ w₂ =>
                  rw [hprep, final_ok] at hprepare
                  rw [run_bind_ok hprep]
                  have hframe : Frame prepareFns w₁ w₂ :=
                    ((preparable_frame (List.Subset.refl _)).prepare s).ok hprep (.refl _ _)
                  obtain ⟨k, rfl⟩ : ∃ k', k = k' + 1 := ⟨k - 1, by simp at hk; omega⟩
                  have hno : lostConnection (diagOf (executeOutcome lib w 0)).errno = false := by
                    rw [of_decide_eq_true hunknown]
                    rfl
                  rw [recoveries, if_neg (by rw [executeErrno, hno]; simp),
                    if_pos (by rw [executeErrno]; exact hunknown), List.length_cons,
                    executedOf_succ net ((hframe.calls .stmtExecute (by decide)).trans hcalls),
                    ← length_delivered, ← executeErrno_shift (hatt.shift hframe (by decide)), hno,
                    Bool.or_false]
                  refine Answered.after hprepare (fun x hx => eq_of_mem_delivered hx ▸ hmine)
                    (ih hprepare.self k (by simp at hk ⊢; omega) fun hfresh => ?_)
                  rw [hc hfresh, connects_congr hframe (by decide) (by decide) (by decide),
                    connects_congr hatt.frame (by decide) (by decide) (by decide)]
            · refine Answered.mono ?_ hfirst
              exact Answered.once hran hmine fun d w' hr hd => hexecuted (by cases hr; exact hd)

/-- Before the last execution, only one that is followed by a reconnect can have been executed. -/
theorem recoveries_executed {c : Bool} {k : ℕ} {errno : ℕ → ℕ}
    {hasRetried hasRetriedStatement : Bool} {p : ℕ → Bool}
    (hp : ∀ i, errno i = 1243 → p i = false) :
    (List.range (recoveries c k errno hasRetried hasRetriedStatement).length).countP p ≤
      (!hasRetried).toNat ∧
      ((List.range (recoveries c k errno hasRetried hasRetriedStatement).length).countP p ≠ 0 →
        ∃ i, (recoveries c k errno hasRetried hasRetriedStatement)[i]? = some .reconnect ∧
          p i = true) := by
  induction k generalizing errno hasRetried hasRetriedStatement p with
  | zero => exact ⟨Nat.zero_le _, fun h => absurd rfl h⟩
  | succ k ih =>
      have hcount : ∀ n, (List.range (n + 1)).countP p =
          (p 0).toNat + (List.range n).countP fun i => p (i + 1) := by
        intro n
        rw [List.range_succ_eq_map, List.countP_cons, List.countP_map, Nat.add_comm]
        cases p 0 <;> simp [Function.comp_def]
      rw [recoveries]
      split
      · rename_i hrec
        obtain rfl : hasRetried = false := by
          rw [Bool.and_eq_true, Bool.and_eq_true] at hrec
          simpa using hrec.1.1
        obtain ⟨hle, -⟩ : (List.range
            (recoveries c k (fun i => errno (i + 1)) true hasRetriedStatement).length).countP
            (fun i => p (i + 1)) ≤ 0 ∧ _ := ih fun i => hp (i + 1)
        rw [List.length_cons, hcount, Nat.le_zero.mp hle]
        refine ⟨Bool.toNat_le _, fun hpos => ⟨0, rfl, ?_⟩⟩
        cases hp0 : p 0 with
        | false =>
            rw [hp0] at hpos
            exact absurd rfl hpos
        | true => rfl
      · split
        · rename_i hrec
          rw [Bool.and_eq_true] at hrec
          obtain ⟨hle, hex⟩ : (List.range
              (recoveries c k (fun i => errno (i + 1)) hasRetried true).length).countP
              (fun i => p (i + 1)) ≤ _ ∧ _ := ih fun i => hp (i + 1)
          rw [List.length_cons, hcount, hp 0 (of_decide_eq_true hrec.2), Bool.toNat_false,
            Nat.zero_add]
          refine ⟨hle, fun hpos => ?_⟩
          obtain ⟨i, hi, hpi⟩ := hex hpos
          exact ⟨i + 1, hi, hpi⟩
        · exact ⟨Nat.zero_le _, fun h => absurd rfl h⟩

/-! ### The handlers -/

/-- The request that the handler is to have executed. -/
def Task.Issues (w : World) : Task → Request → Prop
  | .runQuery _ query, r => r = .realQuery query
  | .runStatement s binds _, r =>
      ∃ handle, r = .stmtExecute handle (retagBinds binds (w.stmt s).numArgs)
  | .createStatement _, _ => False

/-- The handler reconnects after a request that was executed although its reply was lost. -/
def Repeated (net : Network lib) (w : World) : Task → Prop
  | .runQuery _ _ => QueryRepeated net w
  | .runStatement _ _ _ =>
      ∃ i, (statementPlan lib w)[i]? = some .reconnect ∧
        net.statement (w.calls .stmtExecute + i) = true
  | .createStatement _ => False

/-- An action was completed, and the table of one of its results has `status = true`. -/
def Succeeds (w w' : World) : Prop :=
  ∃ action results, w'.completedActions = w.completedActions ++ [(action, results)] ∧
    ∃ r ∈ results, ∃ read useNumbers table, r.populateLuaTable read useNumbers = some table ∧
      table.status = true

theorem send_executed (h : Ran net [] w w) (query : Bytes) (fuel : ℕ) :
    ∃ n ≤ 2, (n = 2 → QueryRepeated net w) ∧
      Answered net (· = .realQuery query) n w ((send lib query fuel false).run w) := by
  by_cases hr : QueryRepeated net w
  · exact ⟨2, Nat.le_refl 2, fun _ => hr, send_answered h query fuel false
      (Nat.le_succ_of_le (Bool.toNat_le _)) fun _ _ => Nat.succ_le_succ (Bool.toNat_le _)⟩
  · refine ⟨1, by decide, nofun,
      send_answered h query fuel false (Bool.toNat_le _) fun _ hresends => ?_⟩
    rw [Bool.eq_false_iff.mpr fun hq => hr ⟨hresends, hq⟩]
    exact Nat.le_refl 1

theorem executions_executed (h : Ran net [] w w) (s : StmtId) (binds : List Bind) (fuel : ℕ) :
    ∃ n ≤ 2, (n = 2 → ∃ i, (statementPlan lib w)[i]? = some .reconnect ∧
      net.statement (w.calls .stmtExecute + i) = true) ∧
      Answered net (fun x => ∃ handle, x = .stmtExecute handle binds) n w
        ((executions lib s binds fuel false false).run w) := by
  have hunknown : ∀ i, executeErrno lib w i = 1243 →
      net.statement (w.calls .stmtExecute + i) = false := by
    intro i hi
    have hdelivers := net.statement_delivers (w.calls .stmtExecute + i)
    rw [executeErrno, executeOutcome] at hi
    cases ho : lib.stmtExecute (w.calls .stmtExecute + i) with
    | none =>
        rw [ho] at hi
        cases hi
    | some e =>
        rw [ho] at hi hdelivers
        exact hdelivers.of_unknown hi
  obtain ⟨hle, hex⟩ : (List.range (statementPlan lib w).length).countP
      (fun i => net.statement (w.calls .stmtExecute + i)) ≤ 1 ∧ _ := recoveries_executed hunknown
  have hsum : executedOf net w ((statementPlan lib w).length + 1) =
      (List.range (statementPlan lib w).length).countP
        (fun i => net.statement (w.calls .stmtExecute + i)) +
        (net.statement (w.calls .stmtExecute + (statementPlan lib w).length)).toNat := by
    rw [executedOf, List.range_succ, List.countP_append]
    cases hlast : net.statement (w.calls .stmtExecute + (statementPlan lib w).length) <;>
      simp [hlast]
  have hlast := Bool.toNat_le (net.statement (w.calls .stmtExecute + (statementPlan lib w).length))
  have hanswered : Answered net (fun x => ∃ handle, x = .stmtExecute handle binds)
      (executedOf net w ((statementPlan lib w).length + 1)) w
        ((executions lib s binds fuel false false).run w) :=
    executions_answered h fuel 2 (by decide) fun _ => decide_eq_true_iff
  refine ⟨executedOf net w ((statementPlan lib w).length + 1), by omega,
    fun htwo => hex fun hzero => ?_, hanswered⟩
  have hcount : (List.range (statementPlan lib w).length).countP
      (fun i => net.statement (w.calls .stmtExecute + i)) = 0 := hzero
  omega

/-- The results of a failure have its code. -/
theorem resultsOr_failed {d : Diag} {errStr : Loc} {loop : Io (List Result)} {results : List Result}
    (hd : d.errno ≠ 0) (h : (resultsOr lib d errStr loop).run w = .ok results w') :
    ∀ r ∈ results, r.iError = d.errno := by
  rw [resultsOr, if_pos hd, run_map_ok _ (newError_run lib _ _ _ w)] at h
  cases h
  intro r hr
  rw [List.mem_singleton.mp hr]
  rfl

theorem succeeds_iError {action : DatabaseAction} {results : List Result}
    {completed : List (DatabaseAction × List Result)} (h : Succeeds w w')
    (hpushed : w'.completedActions = completed ++ [(action, results)]) :
    ∃ r ∈ results, r.iError = 0 := by
  obtain ⟨action', results', hpushed', r, hr, read, useNumbers, table, htable, hstatus⟩ := h
  rw [hpushed] at hpushed'
  cases List.append_inj_right' hpushed' rfl
  refine ⟨r, hr, ?_⟩
  by_contra hne
  rw [Result.populateLuaTable, if_pos hne] at htable
  cases htable
  cases hstatus

/-- A query with a successful result was answered by the server. -/
theorem runQuery_succeeds {fuel : ℕ} {action : DatabaseAction}
    (h : (runQuery lib fuel action query).run w = .ok () w') (hs : Succeeds w w') :
    ∃ d w₁, (send lib query fuel false).run w = .ok d w₁ ∧ d.errno = 0 := by
  rw [runQuery, run_bind_eq_ok_iff] at h
  obtain ⟨d, w₁, hsend, hrest⟩ := h
  obtain ⟨w₂, hbody, rfl⟩ := withObject_eq_ok_iff.mp hrest
  obtain ⟨results, w₃, hresults, hpush⟩ := run_bind_eq_ok_iff.mp hbody
  cases hpush
  obtain ⟨r, hr, hzero⟩ := succeeds_iError hs rfl
  refine ⟨d, w₁, hsend, ?_⟩
  by_contra hd
  exact hd ((resultsOr_failed hd hresults r hr).symm.trans hzero)

/-- So was a statement run, and no preparation has failed. -/
theorem runStatement_succeeds {fuel : ℕ} {action : DatabaseAction}
    (h : (runStatement lib fuel s binds action).run w = .ok () w') (hs : Succeeds w w') :
    ∃ d w₁, (executions lib s (retagBinds binds (w.stmt s).numArgs) fuel false false).run w =
      .ok d w₁ ∧ d.errno = 0 := by
  obtain ⟨results, w₂, rfl, ⟨-, w₁, hexecutions, -, hresults⟩ | ⟨e, w₁, -, -, hcaught⟩⟩ :=
    runStatement_cases h
  · obtain ⟨r, hr, hzero⟩ := succeeds_iError hs rfl
    refine ⟨_, w₁, hexecutions, ?_⟩
    obtain ⟨handle, v, -, hread, -⟩ := executeResults_eq_ok hresults
    by_contra hd
    exact hd ((resultsOr_failed hd hread r hr).symm.trans hzero)
  · obtain ⟨r, hr, hzero⟩ := succeeds_iError hs rfl
    obtain ⟨r', w₃, hrun, -, herror, -⟩ := caught_run lib e.diag w₁
    rw [hcaught] at hrun
    cases hrun
    rw [List.mem_singleton.mp hr, herror] at hzero
    exact absurd hzero e.diag_errno_ne

theorem handle_executed (h : Ran net [] w w) (fuel : ℕ) (t : Task) :
    ∃ executed, Ran net executed w (final ((handle lib fuel t).run w)) ∧
      (∀ x ∈ executed, t.Issues w x) ∧
      executed.length ≤ 2 ∧ (executed.length = 2 → Repeated net w t) ∧
      ∀ w', (handle lib fuel t).run w = .ok () w' → Succeeds w w' → executed ≠ [] := by
  cases t with
  | runQuery action query =>
      obtain ⟨n, hn, htwo, executed, hran, hmine, hlen, hok⟩ := send_executed h query fuel
      refine ⟨executed, ?_, hmine, Nat.le_trans hlen hn, fun hlen2 => htwo (by omega),
        fun w' hrun hs => ?_⟩
      · exact final_runQuery (connectable_ran.toStable.mono (by decide)).anywhere
          (ran_pushCompleted action) hran
      · obtain ⟨d, w₁, hsend, hd⟩ := runQuery_succeeds hrun hs
        exact hok d w₁ hsend hd
  | runStatement s binds action =>
      obtain ⟨n, hn, htwo, executed, hran, hmine, hlen, hok⟩ :=
        executions_executed h s (retagBinds binds (w.stmt s).numArgs) fuel
      refine ⟨executed, ?_, hmine, Nat.le_trans hlen hn, fun hlen2 => htwo (by omega),
        fun w' hrun hs => ?_⟩
      · exact final_runStatement (connectable_ran.toStable.mono (by decide)).anywhere
          connectable_ran.toStable.frees (fun _ _ _ _ => trivial) (ran_pushCompleted action) hran
      · obtain ⟨d, w₁, hexecutions, hd⟩ := runStatement_succeeds hrun hs
        exact hok d w₁ hexecutions hd
  | createStatement query =>
      refine ⟨[], ?_, by simp, Nat.zero_le 2, nofun, fun w' hrun hs => ?_⟩
      · exact preserves_createStatement connectable_ran.toPreparable query w h
      · obtain ⟨w'', hcreate, hcompleted⟩ := createStatement_returns lib query w
        rw [handle, hcreate] at hrun
        cases hrun
        obtain ⟨action, results, hpushed, -⟩ := hs
        rw [hcompleted] at hpushed
        simp at hpushed

theorem ran_step {l : Label} (h : Ran net [] w w) (hs : step lib w l = some w') :
    Ran net [] w' w' := by
  cases l with
  | task fuel t =>
      obtain ⟨executed, hran, -⟩ := handle_executed h fuel t
      simp only [step] at hs
      split at hs
      · rename_i w₁ hrun
        cases hs
        rw [hrun] at hran
        exact hran.self
      · cases hs
  | register query s =>
      cases hs
      exact ⟨h.queries, h.statements, h.history⟩
  | poll =>
      cases hs
      exact ⟨h.queries, h.statements, h.history⟩

/-- **How often a request is executed.** On every network and in every reachable state, a query or
a statement run is executed at most twice, and twice only when the handler repeats it after its
reply was lost; when a result says that it succeeded, it was executed. -/
theorem executed_at_most_twice {c : Credentials} {tr : List Label} (net : Network lib)
    (h : Transition.exec (step lib) (.opened c) tr = some w) (fuel : ℕ) (t : Task) :
    ∃ executed, (server net (final ((handle lib fuel t).run w)).log).executed =
      (server net w.log).executed ++ executed ∧
      (∀ x ∈ executed, t.Issues w x) ∧ executed.length ≤ 2 ∧
        (executed.length = 2 → Repeated net w t) ∧
      ∀ w', (handle lib fuel t).run w = .ok () w' → Succeeds w w' → executed ≠ [] := by
  have hran : Ran net [] w w := Transition.exec_inv' (I := fun w => Ran net [] w w)
    (fun _ _ _ hI hs => ran_step hI hs) ⟨rfl, rfl, rfl⟩ h
  obtain ⟨executed, hexecuted, hrest⟩ := handle_executed hran fuel t
  exact ⟨executed, hexecuted.history, hrest⟩

/-- The reply of the first query is lost. -/
def replyLost : Network lostTable where
  query _ := true
  statement _ := true
  query_delivers k := by
    show Delivers (if k = 0 then _ else _) true
    split
    · exact .replyLost rfl
    · exact .replied
  statement_delivers _ := .replied

/-- A query whose first reply is lost is executed twice, and its result says that it succeeded. -/
theorem executed_twice :
    ∃ w, Transition.exec (step lostTable) (.opened ⟨[], [], [], [], 3306, [], 0⟩)
        [.task 2 (.runQuery ⟨0, true⟩ [97])] = some w ∧
      Succeeds (.opened ⟨[], [], [], [], 3306, [], 0⟩) w ∧
      (server replyLost w.log).executed = [.realQuery [97], .realQuery [97]] := by
  have hrun : (Transition.exec (step lostTable) (.opened ⟨[], [], [], [], 3306, [], 0⟩)
      [.task 2 (.runQuery ⟨0, true⟩ [97])]).map (fun w => (w.completedActions,
        decide ((server replyLost w.log).executed = [.realQuery [97], .realQuery [97]]))) =
      some ([(⟨0, true⟩, [.started ⟨0, 0, 0, 0, 0, 0⟩ .connection .clear 0 0])],
        true) := by decide +kernel
  obtain ⟨w, hexec, hw⟩ := Option.map_eq_some_iff.mp hrun
  obtain ⟨hcompleted, hserver⟩ := Prod.mk.inj hw
  refine ⟨w, hexec, ⟨_, _, hcompleted, _, List.mem_singleton_self _, fun _ => [], false, _,
    rfl, rfl⟩, of_decide_eq_true hserver⟩

theorem executed_at_most_twice_replyLost :
    ∃ w, Transition.exec (step lostTable) (.opened ⟨[], [], [], [], 3306, [], 0⟩)
        [.task 2 (.runQuery ⟨0, true⟩ [97])] = some w ∧
      ∃ executed, (server replyLost
        (final ((handle lostTable 1 (.runQuery ⟨1, true⟩ [98])).run w)).log).executed =
          (server replyLost w.log).executed ++ executed ∧
        (∀ x ∈ executed, Task.Issues w (.runQuery ⟨1, true⟩ [98]) x) ∧ executed.length ≤ 2 ∧
        (executed.length = 2 → Repeated replyLost w (.runQuery ⟨1, true⟩ [98])) ∧
        ∀ w', (handle lostTable 1 (.runQuery ⟨1, true⟩ [98])).run w = .ok () w' → Succeeds w w' →
          executed ≠ [] := by
  obtain ⟨w, hexec⟩ := Option.isSome_iff_exists.mp (show (Transition.exec (step lostTable)
      (.opened ⟨[], [], [], [], 3306, [], 0⟩)
        [.task 2 (.runQuery ⟨0, true⟩ [97])]).isSome by decide +kernel)
  exact ⟨w, hexec, executed_at_most_twice replyLost hexec 1 (.runQuery ⟨1, true⟩ [98])⟩

end Tmysql4.Handler
