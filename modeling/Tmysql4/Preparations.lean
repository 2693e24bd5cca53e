import Tmysql4.Cache
import Tmysql4.Sequential

/-! # What `Prepare` returns

A statement that is in the cache is returned at once.  Otherwise `lua_Prepare` waits for the io
thread and reads from the waiter what `CreateStatement` has left in it: the statement, or the
error of its preparation, which becomes a text.

`cache_correct` adds this to what `CacheCorrect` says of the cache: a call that finds its query
changes nothing of the whole module, and one whose preparation has failed returns nil and the
error with which the library has failed it. -/

namespace Tmysql4

open Handler (Lib LibError FailsWith cString decimal)

/-- The text that `lua_Prepare` puts together: the number in brackets, a space and the message. -/
def Handler.Waiter.error (t : Waiter) : Bytes :=
  cString (91 :: decimal t.errorNumber ++ [93, 32] ++ t.errorMsg)

/-- A value that is pushed onto the Lua stack. -/
inductive Pushed where
  | nil
  | string (text : Bytes)
  | statement (sid : StmtId)
deriving DecidableEq

/-- The steps of the io threads. -/
def Call.isIo : Call → Bool
  | .finish _ _ => true
  | .other l => l.isIo
  | _ => false

namespace Runtime

/-- What `lua_Prepare` returns in a step, `none` where it does not return in it. -/
def prepareReturns (x : Runtime) : Call → Option (List Pushed)
  | .prepare d query =>
      ((x.state.db d).preparedStatements.lookup (cString query)).map fun sid => [.statement sid]
  | .other .cpp =>
      match x.state.stack, x.state.waiter with
      | .prepare _ _ :: _, some (some sid) => some [.statement sid]
      | .prepare _ _ :: _, some none => x.waiter.map fun t => [.nil, .string t.error]
      | _, _ => none
  | _ => none

variable {lib : Lib} {x x' x₁ x₂ x₃ : Runtime} {c : Call} {d : DbId} {query : Bytes}
  {tr : List Call}

/-! ### The wait -/

theorem step_other {l : Label} (h : x.step lib (.other l) = some x') :
    x.state.step l = some x'.state := by
  obtain ⟨-, s, hs, rfl⟩ := other_step h
  rw [settle_state, touch_state]
  exact hs

/-- A step of an io thread is one of the state machine. -/
theorem step_io (hc : c.isIo = true) (h : x.step lib c = some x') :
    ∃ l : Label, l.isIo = true ∧ x.state.step l = some x'.state := by
  cases c with
  | finish d fuel =>
      obtain ⟨t, rest, z, -, hz, rfl⟩ := finished_step h
      obtain ⟨ok, hs⟩ := work_step hz
      refine ⟨.io d (.finish ok), rfl, ?_⟩
      rw [settle_state]
      exact hs
  | other l => exact ⟨l, hc, step_other h⟩
  | _ => cases hc

theorem exec_io (hc : ∀ c ∈ tr, c.isIo = true)
    (h : Transition.exec (Runtime.step lib) x tr = some x') :
    ∃ ls : List Label, (∀ l ∈ ls, l.isIo = true) ∧
      Transition.exec State.step x.state ls = some x'.state := by
  induction tr generalizing x with
  | nil =>
      cases h
      exact ⟨[], nofun, rfl⟩
  | cons c tr ih =>
      obtain ⟨x₁, hstep, hrest⟩ := Transition.exec_cons_iff.mp h
      obtain ⟨l, hl, hs⟩ := step_io (hc c List.mem_cons_self) hstep
      obtain ⟨ls, hls, hexec⟩ := ih (fun c hmem => hc c (List.mem_cons_of_mem _ hmem)) hrest
      refine ⟨l :: ls, fun l' hl' => ?_, Transition.exec_cons_iff.mpr ⟨_, hs, hexec⟩⟩
      obtain rfl | hl' := List.mem_cons.mp hl'
      · exact hl
      · exact hls l' hl'

/-- The creation on `d` ends in a step: the waiter gets a
statement, or the error of its preparation. -/
inductive Creates (lib : Lib) (x : Runtime) (d : DbId) : Call → Runtime → Prop
  | created {x' : Runtime} (fuel : ℕ) (sid : StmtId) (waiter : x'.state.waiter = some (some sid)) :
      Creates lib x d (.finish d fuel) x'
  | failed {x' : Runtime} (fuel : ℕ) (e : LibError) (fails : FailsWith lib (x.world d) 1 e)
      (waiter : x'.state.waiter = some none)
      (error : x'.waiter = some ⟨none, true, e.errno, e.text⟩) :
      Creates lib x d (.finish d fuel) x'

/-- The handler of `Prepare` ends. -/
theorem creates_of_finish {fuel : ℕ} {rest : List Handler.Task} {z : Runtime}
    (hrunning : (x.state.db d).running = some (.createStatement query))
    (hz : x.work lib d fuel rest (.createStatement query) = some z)
    (hfault : z.state.fault = none) :
    x.Creates lib d (.finish d fuel) (x.settle z) := by
  obtain ⟨t, hrun, hwaiter⟩ := Handler.createStatement_cases lib query (x.world d).waiting
  have hstate : ∀ ok s, x.state.step (.io d (.finish ok)) = some s → s.fault = none →
      s = x.state.statementCreated d query ok := by
    intro ok s hstep hnone
    obtain ⟨-, task, htask, heq | ⟨f, rfl⟩⟩ := finish_step hstep
    · rw [hrunning] at htask
      cases htask
      exact heq
    · cases hnone
  rw [settle_of_none hfault]
  obtain ⟨-, rfl⟩ | ⟨e, hfails, rfl⟩ := hwaiter _ rfl
  · simp only [work, hrun] at hz
    obtain ⟨s, hstep, rfl⟩ := control_eq_some hz
    refine .created fuel x.state.nextStmt ?_
    show s.waiter = _
    rw [hstate true s hstep hfault]
    simp [State.statementCreated]
  · simp only [work, hrun] at hz
    obtain ⟨s, hstep, rfl⟩ := control_eq_some hz
    refine .failed fuel e hfails ?_ rfl
    show s.waiter = _
    rw [hstate false s hstep hfault]
    simp [State.statementCreated]

/-- The other handlers do not touch the waiter. -/
theorem work_waiter {fuel : ℕ} {rest : List Handler.Task} {t : Handler.Task} {z : Runtime}
    (haction : t.isAction = true) (hz : x.work lib d fuel rest t = some z) :
    z.waiter = x.waiter := by
  unfold work at hz
  split at hz
  · cases haction
  · split at hz
    · cases hz
    · obtain ⟨s, -, rfl⟩ := control_eq_some hz
      rfl

/-- A step of an io thread leaves the waiter alone, unless
it is the end of the creation that is waited for. -/
theorem waiter_step (hs : x.state.Settled) (hseq : x.Sequential lib) (hc : c.isIo = true)
    (h : x.step lib c = some x') : (x'.state.waiter = x.state.waiter ∧ x'.waiter = x.waiter) ∨
      ∃ d query stack, x.state.stack = .prepare d query :: stack ∧ x.state.waiter = none ∧
        x.Creates lib d c x' := by
  cases c with
  | finish d fuel =>
      obtain ⟨t, rest, z, hhandlers, hz, rfl⟩ := finished_step h
      obtain ⟨ok, hstep⟩ := work_step hz
      obtain ⟨hnone, task, hrunning, heq | ⟨f, heq⟩⟩ := finish_step hstep
      · obtain ⟨ops, y, hy⟩ :=
          hseq d (hs.wf.lifecycle.lt_of_live (phase_of_running hs hrunning).2.2)
        obtain ⟨hbound, -⟩ := hy.toMatches.head hhandlers hrunning
        have hfault : z.state.fault = none := by
          rw [heq]
          cases task <;> simp [State.finish, hnone]
        cases hbound with
        | runQuery action hquery =>
            rw [settle_of_none hfault, heq]
            exact .inl ⟨by simp [State.finish], work_waiter rfl hz⟩
        | runStatement sid action s binds =>
            rw [settle_of_none hfault, heq]
            exact .inl ⟨by simp [State.finish], work_waiter rfl hz⟩
        | createStatement hquery =>
            obtain ⟨query, stack, top, undone⟩ := State.creating_top hs.wf.statements hrunning
            exact .inr ⟨d, query, stack, top, undone, creates_of_finish hrunning hz hfault⟩
      · rw [settle_of_some (congrArg State.fault heq), heq]
        exact .inl ⟨rfl, rfl⟩
  | other l =>
      obtain ⟨hplain, s, hstep, rfl⟩ := other_step h
      have hdata : (x.settle (x.touch l { x with state := s })).waiter = x.waiter := by
        cases l with
        | io d step =>
            show (x.settle { x with state := s }).waiter = x.waiter
            unfold settle
            split <;> rfl
        | _ => cases hc
      refine .inl ⟨?_, hdata⟩
      rw [settle_state, touch_state]
      obtain ⟨-, he | ⟨f, -, rfl⟩⟩ := State.step_effect hstep
      · cases he with
        | stay turn => rfl
        | take | reconnected | stop => simp
        | finish | created => cases hplain
        | _ => cases hc
      · rfl
  | _ => cases hc

/-- The waiter of a preparation that has failed has its error. -/
theorem waiter_run (hs : x.state.Settled) (hseq : x.Sequential lib) {stack : List Frame}
    (top : x.state.stack = .prepare d query :: stack) (hc : ∀ c ∈ tr, c.isIo = true)
    (h : Transition.exec (Runtime.step lib) x tr = some x') (failed : x'.state.waiter = some none) :
    (x.state.waiter = some none ∧ x'.waiter = x.waiter) ∨
      ∃ tr₁ fuel tr₂ y e, tr = tr₁ ++ .finish d fuel :: tr₂ ∧
        Transition.exec (Runtime.step lib) x tr₁ = some y ∧
        FailsWith lib (y.world d) 1 e ∧ x'.waiter = some ⟨none, true, e.errno, e.text⟩ := by
  induction tr generalizing x with
  | nil =>
      cases h
      exact .inl ⟨failed, rfl⟩
  | cons c tr ih =>
      obtain ⟨x₁, hstep, hrest⟩ := Transition.exec_cons_iff.mp h
      have hio := hc c List.mem_cons_self
      obtain ⟨l, hl, hlabel⟩ := step_io hio hstep
      have hstack : x₁.state.stack = x.state.stack :=
        State.stack_exec (by simpa using hl) (Transition.exec_singleton hlabel)
      have hrec := ih (settled_step hs hstep) (hseq.advances (step_advances hs hstep))
        (hstack.trans top) (fun c hmem => hc c (List.mem_cons_of_mem _ hmem)) hrest
      obtain ⟨hwaiter, herror⟩ | ⟨tr₁, fuel, tr₂, y, e, rfl, hexec, hfails, herror⟩ := hrec
      · obtain ⟨hsame, hsame'⟩ | ⟨d', query', stack', top', -, hcreates⟩ :=
          waiter_step hs hseq hio hstep
        · exact .inl ⟨hsame ▸ hwaiter, herror.trans hsame'⟩
        · rw [top] at top'
          cases top'
          cases hcreates with
          | created fuel sid hcreated =>
              rw [hcreated] at hwaiter
              cases hwaiter
          | failed fuel e hfails _ herror' =>
              exact .inr ⟨[], fuel, tr, x, e, rfl, rfl, hfails, herror.trans herror'⟩
      · exact .inr ⟨c :: tr₁, fuel, tr₂, y, e, rfl, Transition.exec_cons_iff.mpr ⟨x₁, hstep, hexec⟩,
          hfails, herror⟩

/-! ### The calls -/

/-- A call that finds its query returns the statement, and nothing changes. -/
theorem prepare_cached (hs : x.state.Settled) (hr : x.state.Returned) {sid : StmtId}
    (handle : (x.state.db d).handle = .pointer)
    (connected : (x.state.db d).isConnected = true)
    (cached : (x.state.db d).preparedStatements.lookup (cString query) = some sid)
    (h : x.step lib (.prepare d query) = some x') :
    x' = x ∧ x.prepareReturns (.prepare d query) = some [.statement sid] := by
  obtain ⟨z, hz, rfl⟩ := Option.map_eq_some_iff.mp h
  obtain ⟨s, hstep, rfl⟩ := control_eq_some hz
  obtain rfl := State.prepare_cached hr hs.wf handle connected cached hstep
  refine ⟨if_pos rfl, ?_⟩
  rw [prepareReturns, cached]
  rfl

/-- What a call whose preparation has failed returns, and what it leaves. -/
structure PrepareFails (lib : Lib) (x : Runtime) (d : DbId) (x₁ : Runtime) (tr : List Call)
    (x₂ x₃ : Runtime) : Prop where
  returns : ∃ tr₁ fuel tr₂ y e, tr = tr₁ ++ .finish d fuel :: tr₂ ∧
    Transition.exec (Runtime.step lib) x₁ tr₁ = some y ∧ FailsWith lib (y.world d) 1 e ∧
    x₂.prepareReturns (.other .cpp) =
      some [.nil, .string (cString (91 :: decimal e.errno ++ [93, 32] ++ e.text))]
  stack : x₃.state.stack = x.state.stack
  caches : ∀ d', (x₃.state.db d').preparedStatements = (x.state.db d').preparedStatements
  handles : ∀ d', (x₃.state.db d').handle = (x.state.db d').handle
  stmt : x₃.state.stmt = x.state.stmt
  databases : x₃.state.databases = x.state.databases

theorem prepare_failed (hs : x.state.Settled) (hseq : x.Sequential lib)
    (hcall : x.step lib (.prepare d query) = some x₁) (hc : ∀ c ∈ tr, c.isIo = true)
    (hexec : Transition.exec (Runtime.step lib) x₁ tr = some x₂) (top : x₂.state.stack = .prepare d
      (cString query) :: x.state.stack) (failed : x₂.state.waiter = some none)
    (hreturn : x₂.step lib (.other .cpp) = some x₃) : x.PrepareFails lib d x₁ tr x₂ x₃ := by
  obtain ⟨ls, hls, hlabels⟩ := exec_io hc hexec
  have hcall' : x.state.step (.prepare d (cString query)) = some x₁.state := by
    obtain ⟨z, hz, rfl⟩ := Option.map_eq_some_iff.mp hcall
    obtain ⟨s, hstep, rfl⟩ := control_eq_some hz
    split
    · exact hstep
    · exact hstep
  have htop : x₁.state.stack = .prepare d (cString query) :: x.state.stack := by
    rw [← State.stack_exec hls hlabels, top]
  obtain ⟨hstack, hcaches, hhandles, hstmt, hdatabases⟩ :=
    State.prepare_failed hs.wf hcall' hls hlabels top failed (step_other hreturn)
  refine ⟨?_, hstack, hcaches, hhandles, hstmt, hdatabases⟩
  obtain ⟨hwaiter, -⟩ | ⟨tr₁, fuel, tr₂, y, e, htr, hy, hfails, herror⟩ :=
    waiter_run (settled_step hs hcall) (hseq.advances (step_advances hs hcall)) htop hc hexec failed
  · rw [State.waiter_call hs.wf hcall' htop] at hwaiter
    cases hwaiter
  · refine ⟨tr₁, fuel, tr₂, y, e, htr, hy, hfails, ?_⟩
    rw [prepareReturns, top, failed, herror]
    rfl

/-- The state machine under a run. -/
theorem exec_state (h : Transition.exec (Runtime.step lib) init tr = some x) :
    ∃ ls, Transition.exec State.step .init ls = some x.state := by
  refine Transition.exec_inv'
    (I := fun x : Runtime => ∃ ls, Transition.exec State.step .init ls = some x.state)
    (fun x c x' hI hstep => ?_) ⟨[], rfl⟩ h
  obtain ⟨ls, hls⟩ := hI
  obtain heq | ⟨l, hl⟩ := step_state hstep
  · exact ⟨ls, heq ▸ hls⟩
  · exact ⟨ls ++ [l], Transition.exec_append_iff.mpr ⟨_, hls, Transition.exec_singleton hl⟩⟩

/-- The library on which the second preparation fails. -/
def secondGone : Lib :=
  { Lib.calm with
    stmtPrepare := fun k => if k = 1 then some .noSuchTable else none }

/-- **The cache is correct.** After every run of the state machine the cache
is what `CacheCorrect` says; and in every run with the data, a call of
`Prepare` that finds its query returns the statement and changes nothing, and
one whose preparation fails returns nil and the error of the library, and
leaves the caches, the handles and the table of databases as they were. -/
theorem cache_correct :
    (∀ {tr : List Label} {s : State}, Transition.exec State.step .init tr = some s →
      s.CacheCorrect tr) ∧
    ∀ {lib : Lib} {tr : List Call} {x : Runtime},
      Transition.exec (Runtime.step lib) init tr = some x →
      (∀ d query sid x', (x.state.db d).handle = .pointer → (x.state.db d).isConnected = true →
        (x.state.db d).preparedStatements.lookup (cString query) = some sid →
          x.step lib (.prepare d query) = some x' →
          x' = x ∧ x.prepareReturns (.prepare d query) = some [.statement sid]) ∧
      ∀ d query x₁ tr' x₂ x₃, x.step lib (.prepare d query) = some x₁ → (∀ c ∈ tr', c.isIo = true) →
        Transition.exec (Runtime.step lib) x₁ tr' = some x₂ →
        x₂.state.stack = .prepare d (cString query) :: x.state.stack → x₂.state.waiter = some none →
        x₂.step lib (.other .cpp) = some x₃ → x.PrepareFails lib d x₁ tr' x₂ x₃ := by
  refine ⟨State.cacheCorrect_exec, fun {lib tr x} h => ?_⟩
  obtain ⟨hs, ha⟩ := run_advances State.settled_init h
  have hseq := sequential_init.advances ha
  obtain ⟨ls, hls⟩ := exec_state h
  have hr : x.state.Returned := (State.correct_exec State.correct_init hls).returned
  exact ⟨fun d query sid x' handle connected cached hstep =>
    prepare_cached hs hr handle connected cached hstep,
    fun d query x₁ tr' x₂ x₃ hcall hc hexec top failed hreturn =>
      prepare_failed hs hseq hcall hc hexec top failed hreturn⟩

/-- The second preparation fails, behind a query: the script gets nil and "[1146] gone", and the
first statement is still returned at once. -/
theorem cache_correct_gone : ∃ x x₁ x₂ x₃ x₄,
    Transition.exec (Runtime.step secondGone) init
      [.connect ⟨[], [], [], [], 3306, [], 0⟩ false false false, .other .cpp, .prepare 0 [97],
        .other (.io 0 .take), .finish 0 1, .other .cpp, .query 0 [99] false] = some x ∧
    x.step secondGone (.prepare 0 [98]) = some x₁ ∧
    Transition.exec (Runtime.step secondGone) x₁
      [.other (.io 0 .take), .finish 0 2, .other (.io 0 .take), .finish 0 1] = some x₂ ∧
    x₂.step secondGone (.other .cpp) = some x₃ ∧
    x₂.prepareReturns (.other .cpp) =
      some [.nil, .string [91, 49, 49, 52, 54, 93, 32, 103, 111, 110, 101]] ∧
    x.PrepareFails secondGone 0 x₁
      [.other (.io 0 .take), .finish 0 2, .other (.io 0 .take), .finish 0 1] x₂ x₃ ∧
    x₃.step secondGone (.prepare 0 [97]) = some x₄ ∧ x₄ = x₃ ∧
      x₃.prepareReturns (.prepare 0 [97]) = some [.statement 0] ∧ x₃.state.Caches 0 := by
  have hrun : ((Transition.exec (Runtime.step secondGone) init
      [.connect ⟨[], [], [], [], 3306, [], 0⟩ false false false, .other .cpp, .prepare 0 [97],
        .other (.io 0 .take), .finish 0 1, .other .cpp, .query 0 [99] false]).bind fun x =>
          (x.step secondGone (.prepare 0 [98])).bind fun x₁ =>
      (Transition.exec (Runtime.step secondGone) x₁
        [.other (.io 0 .take), .finish 0 2, .other (.io 0 .take), .finish 0 1]).bind fun x₂ =>
      (x₂.step secondGone (.other .cpp)).bind fun x₃ =>
        (x₃.step secondGone (.prepare 0 [97])).map fun _ =>
        decide (x.state.stack = [] ∧ x₂.state.stack = [.prepare 0 [98]] ∧
          x₂.state.waiter = some none ∧
          x₂.prepareReturns (.other .cpp) =
            some [.nil, .string [91, 49, 49, 52, 54, 93, 32, 103, 111, 110, 101]] ∧
          x₃.state.luaTurn = true ∧ (x₃.state.db 0).handle = .pointer ∧
            (x₃.state.db 0).isConnected = true ∧
          (x₃.state.db 0).preparedStatements = [([97], 0)])) = some true := by
    decide +kernel
  obtain ⟨x, hx, hrun⟩ := Option.bind_eq_some_iff.mp hrun
  obtain ⟨x₁, hcall, hrun⟩ := Option.bind_eq_some_iff.mp hrun
  obtain ⟨x₂, hio, hrun⟩ := Option.bind_eq_some_iff.mp hrun
  obtain ⟨x₃, hreturn, hrun⟩ := Option.bind_eq_some_iff.mp hrun
  obtain ⟨x₄, hagain, hrun⟩ := Option.map_eq_some_iff.mp hrun
  obtain ⟨hstack, htop, hfailed, hreturns, hturn, hhandle, hconnected, hcache⟩ :=
    of_decide_eq_true hrun
  have hwhole := Transition.exec_append_iff.mpr ⟨x, hx, Transition.exec_cons_iff.mpr ⟨x₁, hcall,
    Transition.exec_append_iff.mpr ⟨x₂, hio, Transition.exec_singleton hreturn⟩⟩⟩
  obtain ⟨ls, hls⟩ := exec_state hwhole
  obtain ⟨rfl, hstatement⟩ :=
    (cache_correct.2 hwhole).1 0 [97] 0 x₄ hhandle hconnected (by rw [hcache]; rfl) hagain
  exact ⟨x, x₁, x₂, x₄, x₄, hx, hcall, hio, hreturn, hreturns,
    (cache_correct.2 hx).2 0 [98] x₁ _ x₂ x₄ hcall
    (by decide) hio (by rw [htop, hstack]; rfl) hfailed hreturn, hagain, rfl, hstatement,
    (cache_correct.1 hls).caches hturn 0 hconnected⟩

end Runtime
end Tmysql4
