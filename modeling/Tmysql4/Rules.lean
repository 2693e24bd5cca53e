import Tmysql4.Handlers

/-! # Rules for the calls of the library

A predicate is `Stable` for some library functions when their calls, the error buffers, the
parameters bound and the storage of local objects do not matter to it.  It is `StableAt` some
handles when this is so as long as the other handles are left alone.

Such a predicate is preserved by everything that reads results (`StableAt.nextQueryResult`,
`StableAt.nextStatementResult`, `StableAt.executeResults`). -/

namespace Tmysql4.Handler

open Imperative

variable {lib : Lib} {fns fns' : List Fn} {A : HandleId → Prop} {I : World → Prop} {s : StmtId}
  {binds : List Bind}

structure StableAt (fns : List Fn) (A : HandleId → Prop) (I : World → Prop) : Prop where
  call : ∀ f ∈ fns, ∀ w, I w → I (w.counted f)
  connError : ∀ d w, I w → I { w with connError := d }
  handle : ∀ h, A h → ∀ d binds w, I w →
    I { w with handle := Function.update w.handle h { w.handle h with error := d, binds := binds } }
  locals : ∀ l n w, I w → I { w with locals := l, nextLocal := n }

structure Stable (fns : List Fn) (I : World → Prop) : Prop where
  call : ∀ f ∈ fns, ∀ w, I w → I (w.counted f)
  connError : ∀ d w, I w → I { w with connError := d }
  handle : ∀ h d binds w, I w →
    I { w with handle := Function.update w.handle h { w.handle h with error := d, binds := binds } }
  locals : ∀ l n w, I w → I { w with locals := l, nextLocal := n }
  frees : ∀ f w, I w → I { w with frees := f }
  waiter : ∀ t w, I w → I { w with waiter := t }
  isPendingCallback : ∀ b w, I w → I { w with isPendingCallback := b }

namespace Stable

theorem mono (h : Stable fns I) (hsub : fns' ⊆ fns) : Stable fns' I :=
  ⟨fun f hf => h.call f (hsub hf), h.connError, h.handle, h.locals, h.frees, h.waiter,
    h.isPendingCallback⟩

theorem and {J : World → Prop} (h : Stable fns I) (h' : Stable fns J) :
    Stable fns fun w => I w ∧ J w where
  call f hf w hw := ⟨h.call f hf w hw.1, h'.call f hf w hw.2⟩
  connError d w hw := ⟨h.connError d w hw.1, h'.connError d w hw.2⟩
  handle handle d binds w hw := ⟨h.handle handle d binds w hw.1, h'.handle handle d binds w hw.2⟩
  locals l n w hw := ⟨h.locals l n w hw.1, h'.locals l n w hw.2⟩
  frees f w hw := ⟨h.frees f w hw.1, h'.frees f w hw.2⟩
  waiter t w hw := ⟨h.waiter t w hw.1, h'.waiter t w hw.2⟩
  isPendingCallback b w hw := ⟨h.isPendingCallback b w hw.1, h'.isPendingCallback b w hw.2⟩

theorem anywhere (h : Stable fns I) : StableAt fns (fun _ => True) I :=
  ⟨h.call, h.connError, fun handle _ => h.handle handle, h.locals⟩

end Stable

/-! ### Calls and reports -/

namespace StableAt

theorem mono (h : StableAt fns A I) (hsub : fns' ⊆ fns) : StableAt fns' A I :=
  ⟨fun f hf => h.call f (hsub hf), h.connError, h.handle, h.locals⟩

theorem tick (h : StableAt fns A I) {f : Fn} (hf : f ∈ fns) : Preserves I (tick f) :=
  Preserves.modifyGet (h.call f hf)

theorem tick_map (h : StableAt fns A I) {α : Type} {f : Fn} (hf : f ∈ fns) (g : ℕ → α) :
    Preserves I (g <$> Handler.tick f) := Preserves.map g (h.tick hf)

theorem reportConn (h : StableAt fns A I) (d : Diag) :
    Preserves I (reportConn d) := Preserves.modify (h.connError d)

theorem reportStmt (h : StableAt fns A I) {handle : HandleId} (hA : A handle) (d : Diag) :
    Preserves I (reportStmt handle d) :=
  Preserves.modify fun w hw => h.handle handle hA d (w.handle handle).binds _ (h.connError d w hw)

theorem mysqlStmtBindParam (h : StableAt fns A I) {handle : HandleId} (hA : A handle)
    (binds : List Bind) : Preserves I (mysqlStmtBindParam handle binds) :=
  Preserves.modify fun w hw => h.handle handle hA (w.handle handle).error binds w hw

end StableAt

namespace Stable

theorem tick (h : Stable fns I) {f : Fn} (hf : f ∈ fns) : Preserves I (tick f) := h.anywhere.tick hf

theorem tick_map (h : Stable fns I) {α : Type} {f : Fn} (hf : f ∈ fns) (g : ℕ → α) :
    Preserves I (g <$> Handler.tick f) := h.anywhere.tick_map hf g

theorem reportConn (h : Stable fns I) (d : Diag) :
    Preserves I (reportConn d) := h.anywhere.reportConn d

theorem reportStmt (h : Stable fns I) (handle : HandleId) (d : Diag) :
    Preserves I (reportStmt handle d) :=
  h.anywhere.reportStmt trivial d

end Stable

theorem preserves_mysqlError : Preserves I mysqlError :=
  Preserves.get.bind fun _ => Preserves.pure _

theorem preserves_mysqlStmtError (h : HandleId) : Preserves I (mysqlStmtError h) :=
  Preserves.get.bind fun _ => Preserves.pure _

theorem preserves_throwException {α : Type} : Preserves I (throwException : Io α) :=
  preserves_mysqlError.bind fun _ => Preserves.throw _

theorem preserves_stmtHandle (s : StmtId) : Preserves I (stmtHandle s) := by
  refine Preserves.get.bind fun w => ?_
  split
  · exact Preserves.throw _
  · exact Preserves.pure _

theorem preserves_orThrow (r : Option Result) : Preserves I (orThrow r) := by
  cases r with
  | none => exact Preserves.throw _
  | some r => exact Preserves.pure r

/-! ### Reading results -/

def textFns : List Fn := [.newResult, .storeResult, .insertId, .affectedRows]

def queryFns : List Fn := .nextResult :: textFns

def storedFns : List Fn :=
  [.newResult, .stmtInsertId, .stmtAffectedRows, .stmtStoreResult, .stmtResultMetadata]

def statementFns : List Fn := .stmtNextResult :: storedFns

namespace StableAt

variable {handle : HandleId}

theorem newError (h : StableAt fns A I) (hf : .newResult ∈ fns) (errNo : ℕ) (errStr : Loc)
    (cause : Diag) :
    Preserves I (newError lib errNo errStr cause) :=
      (h.tick_map hf _).bind fun _ => Preserves.pure _

theorem mysqlStoreResult (h : StableAt fns A I) (hf : .storeResult ∈ fns) :
    Preserves I (mysqlStoreResult lib) := by
  refine (h.tick hf).bind fun k => ?_
  split
  · exact Preserves.pure _
  · exact (h.reportConn _).bind fun _ => Preserves.pure _
  · exact (h.reportConn _).bind fun _ => Preserves.pure _

theorem resultOfMySQL (h : StableAt textFns A I) : Preserves I (resultOfMySQL lib) := by
  rw [Handler.resultOfMySQL]
  refine (h.tick_map (by decide) _).bind fun mem => preserves_mysqlError.bind fun cause =>
    (h.mysqlStoreResult (by decide)).bind fun pResult =>
      (h.tick_map (by decide) _).bind fun lastID =>
    (h.tick_map (by decide) _).bind fun affected => ?_
  cases pResult with
  | none => exact Preserves.pure _
  | some result => exact preserves_orThrow _

theorem mysqlNextResult (h : StableAt fns A I) (hf : .nextResult ∈ fns) :
    Preserves I (mysqlNextResult lib) :=
  (h.tick hf).bind fun _ => (h.reportConn _).bind fun _ => Preserves.pure _

theorem nextQueryResult (h : StableAt queryFns A I) : Preserves I (nextQueryResult lib) :=
  (h.mono (by decide)).resultOfMySQL.bind fun _ => (h.mysqlNextResult (by decide)).bind fun _ =>
    Preserves.pure _

theorem fetchRows (h : StableAt fns A I) (hA : A handle) (result : StoredResult)
    (rows : List Row) (i : ℕ) (binds : List OutBind) :
    Preserves I (fetchRows handle result rows i binds) := by
  induction rows generalizing i binds with
  | nil => exact Preserves.pure _
  | cons row rows ih =>
      refine Preserves.bind ((h.reportStmt hA _).bind fun _ => Preserves.pure _) fun res => ?_
      refine Preserves.ite ?_ ((preserves_mysqlStmtError handle).bind fun _ => Preserves.pure _)
      split
      · exact Preserves.throw _
      · exact (ih _ _).bind fun _ => Preserves.pure _

theorem resultOfStored (h : StableAt fns A I) (hA : A handle) (r : Result) (result : StoredResult) :
    Preserves I (resultOfStored handle r result) :=
  Preserves.ite (Preserves.pure _) <| (preserves_orThrow _).bind fun _ =>
    (h.fetchRows hA result _ _ _).bind fun _ => Preserves.pure _

theorem resultOfMetadata (h : StableAt fns A I) (hA : A handle) (r : Result)
    (metadata : Option StoredResult) : Preserves I (resultOfMetadata handle r metadata) := by
  cases metadata with
  | none => exact Preserves.pure _
  | some result => exact h.resultOfStored hA r result

theorem mysqlStmtStoreResult (h : StableAt fns A I) (hf : .stmtStoreResult ∈ fns) (hA : A handle) :
    Preserves I (mysqlStmtStoreResult lib handle) := (h.tick hf).bind fun _ => h.reportStmt hA _

theorem resultOfStatement (h : StableAt storedFns A I) (hA : A handle) :
    Preserves I (resultOfStatement lib handle) := by
  rw [Handler.resultOfStatement]
  exact (h.tick_map (by decide) _).bind fun mem =>
    (preserves_mysqlStmtError handle).bind fun cause =>
    (h.tick_map (by decide) _).bind fun lastID => (h.tick_map (by decide) _).bind fun affected =>
    (h.mysqlStmtStoreResult (by decide) hA).bind fun _ =>
    (h.tick_map (by decide) _).bind fun pResult => h.resultOfMetadata hA _ pResult

theorem mysqlStmtNextResult (h : StableAt fns A I) (hf : .stmtNextResult ∈ fns) (hA : A handle) :
    Preserves I (mysqlStmtNextResult lib handle) :=
  (h.tick hf).bind fun _ => (h.reportStmt hA _).bind fun _ => Preserves.pure _

theorem nextStatementResult (h : StableAt statementFns A I) (hA : A handle) :
    Preserves I (nextStatementResult lib handle) :=
  (h.mysqlStmtStoreResult (by decide) hA).bind fun _ =>
    ((h.mono (by decide)).resultOfStatement hA).bind fun _ =>
    (h.mysqlStmtNextResult (by decide) hA).bind fun _ => Preserves.pure _

theorem resultsOr (h : StableAt fns A I) (hf : .newResult ∈ fns) (d : Diag) (errStr : Loc)
    {loop : Io (List Result)} (hloop : Preserves I loop) :
    Preserves I (resultsOr lib d errStr loop) :=
  Preserves.ite (Preserves.map _ (h.newError hf _ _ _)) hloop

theorem withObject (h : StableAt fns A I) {α : Type} (text : Bytes) {body : Loc → Io α}
    (hbody : ∀ loc, Preserves I (body loc)) : Preserves I (withObject text body) :=
  Preserves.bind (Preserves.modifyGet fun w hw => h.locals _ _ w hw) fun k =>
    (hbody (.object k)).bind fun _ =>
    Preserves.bind (Preserves.modify fun w hw => h.locals _ w.nextLocal w hw) fun _ =>
      Preserves.pure _

end StableAt

/-! ### The handle of a statement -/

theorem stmtHandle_run {w : World} {h : HandleId} (hs : (w.stmt s).stmt = some h) :
    (stmtHandle s).run w = .ok h w := by
  rw [stmtHandle, run_bind_ok (EStateM.run_get _)]
  simp only [hs]
  rfl

theorem stmtHandle_null_run {w : World} (hs : (w.stmt s).stmt = none) :
    (stmtHandle s).run w = .error .nullHandle w := by
  rw [stmtHandle, run_bind_ok (EStateM.run_get _)]
  simp only [hs]
  rfl

/-- What follows on the handle of the statement is one of the handles `A`. -/
theorem preserves_onHandle {α : Type} {body : HandleId → Io α}
    (hA : ∀ w, I w → ∀ handle ∈ (w.stmt s).stmt, A handle) (hbody : ∀ handle, A handle →
      Preserves I (body handle)) : Preserves I (stmtHandle s >>= body) := by
  intro w hw
  cases hs : (w.stmt s).stmt with
  | none =>
      rw [run_bind_error (stmtHandle_null_run hs)]
      exact hw
  | some handle =>
      rw [run_bind_ok (stmtHandle_run hs)]
      exact hbody handle (hA w hw handle hs) w hw

namespace StableAt

variable {query : Bytes}

theorem mysqlRealQuery (h : StableAt fns A I) (hf : .realQuery ∈ fns)
    (hrecord : Preserves I (record (.realQuery query))) : Preserves I (mysqlRealQuery lib query) :=
  hrecord.bind fun _ => (h.tick hf).bind fun _ => (h.reportConn _).bind fun _ => Preserves.pure _

theorem attempt (h : StableAt fns A I) (hf : .stmtExecute ∈ fns)
    (hrecord : ∀ handle binds, Preserves I (record (.stmtExecute handle binds)))
    (hA : ∀ w, I w → ∀ handle ∈ (w.stmt s).stmt, A handle) (binds : List Bind) :
    Preserves I (attempt lib s binds) := by
  refine preserves_onHandle hA fun handle hA => (h.mysqlStmtBindParam hA binds).bind fun _ => ?_
  have hexecute : Preserves I (mysqlStmtExecute lib handle) :=
    Preserves.get.bind fun _ => (hrecord _ _).bind fun _ => (h.tick hf).bind fun _ =>
      (h.reportStmt hA _).bind fun _ =>
      Preserves.pure _
  exact hexecute.bind fun _ => Preserves.ite (preserves_mysqlStmtError handle) (Preserves.pure _)

theorem executeResults (h : StableAt statementFns A I)
    (hfrees : ∀ f w, I w → I { w with frees := f }) (hA : ∀ w, I w →
      ∀ handle ∈ (w.stmt s).stmt, A handle) (fuel : ℕ) (binds : List Bind) (d : Diag) :
    Preserves I (executeResults lib fuel s binds d) :=
  preserves_onHandle hA fun _ hA =>
    (h.resultsOr (by decide) d _ (Preserves.collect (h.nextStatementResult hA) fuel)).bind fun _ =>
      Preserves.get.bind fun _ => Preserves.bind (Preserves.modify fun w hw => hfrees _ w hw)
        fun _ => Preserves.pure _

end StableAt

theorem Stable.attempt (h : Stable fns I) (hf : .stmtExecute ∈ fns)
    (hrecord : ∀ handle binds, Preserves I (record (.stmtExecute handle binds))) (s : StmtId)
    (binds : List Bind) :
    Preserves I (attempt lib s binds) :=
      h.anywhere.attempt hf hrecord (fun _ _ _ _ => trivial) binds

/-! ### Preparations -/

def Request.prepares : Request → Bool
  | .stmtClose _ => true
  | .stmtPrepare _ _ => true
  | _ => false

def prepareFns : List Fn := [.stmtInit, .stmtPrepare, .stmtParamCount]

/-- What preparations do does not matter either. -/
structure Preparable (fns : List Fn) (I : World → Prop) : Prop extends Stable fns I where
  prepares : prepareFns ⊆ fns
  request : ∀ r, r.prepares = true → ∀ w, I w → I { w with log := w.log ++ [r] }
  handles : ∀ g n w, I w → I { w with handle := g, nextHandle := n }
  stmts : ∀ g n w, I w → I { w with stmt := g, nextStmt := n }

namespace Preparable

theorem mono (h : Preparable fns I) (hp : prepareFns ⊆ fns') (hsub : fns' ⊆ fns) :
    Preparable fns' I :=
  ⟨h.toStable.mono hsub, hp, h.request, h.handles, h.stmts⟩

theorem and {J : World → Prop} (h : Preparable fns I) (h' : Preparable fns J) :
    Preparable fns fun w => I w ∧ J w where
  toStable := h.toStable.and h'.toStable
  prepares := h.prepares
  request r hr w hw := ⟨h.request r hr w hw.1, h'.request r hr w hw.2⟩
  handles g n w hw := ⟨h.handles g n w hw.1, h'.handles g n w hw.2⟩
  stmts g n w hw := ⟨h.stmts g n w hw.1, h'.stmts g n w hw.2⟩

theorem record (h : Preparable fns I) {r : Request} (hr : r.prepares = true) :
    Preserves I (record r) :=
  Preserves.modify (h.request r hr)

theorem mysqlStmtClose (h : Preparable fns I) (handle : HandleId) :
    Preserves I (mysqlStmtClose handle) :=
  (h.record rfl).bind fun _ => Preserves.modify fun w hw => h.handles _ w.nextHandle w hw

theorem closeHandle (h : Preparable fns I) (stmt : Option HandleId) :
    Preserves I (closeHandle stmt) := by
  cases stmt with
  | none => exact Preserves.pure _
  | some handle => exact h.mysqlStmtClose handle

theorem mysqlStmtInit (h : Preparable fns I) : Preserves I (mysqlStmtInit lib) := by
  refine (h.tick (h.prepares (by decide))).bind fun k => ?_
  split
  · exact (h.reportConn _).bind fun _ => Preserves.pure _
  · exact Preserves.modifyGet fun w hw => h.handles _ _ w hw

theorem mysqlStmtPrepare (h : Preparable fns I) (handle : HandleId) (query : Bytes) :
    Preserves I (mysqlStmtPrepare lib handle query) := by
  refine (h.record rfl).bind fun _ => (h.tick (h.prepares (by decide))).bind fun k =>
    (h.reportStmt handle _).bind fun _ => ?_
  split
  · exact Preserves.pure _
  · exact Preserves.bind (Preserves.modify fun w hw => h.handles _ w.nextHandle w hw) fun _ =>
      Preserves.pure _

theorem setStmt (h : Preparable fns I) (s : StmtId) (p : PStatement) : Preserves I (setStmt s p) :=
  Preserves.modify fun w hw => h.stmts _ w.nextStmt w hw

theorem prepareOn (h : Preparable fns I) (s : StmtId) (p : PStatement) (stmt : Option HandleId) :
    Preserves I (prepareOn lib s p stmt) := by
  cases stmt with
  | none => exact preserves_throwException
  | some handle =>
      refine (h.mysqlStmtPrepare handle _).bind fun failed =>
        Preserves.ite preserves_throwException ?_
      exact (h.tick_map (h.prepares (by decide)) _).bind fun _ => h.setStmt s _

theorem prepare (h : Preparable fns I) (s : StmtId) : Preserves I (prepare lib s) :=
  Preserves.get.bind fun _ => (h.closeHandle _).bind fun _ => h.mysqlStmtInit.bind fun _ =>
    (h.setStmt s _).bind fun _ => h.prepareOn s _ _

theorem prepareAll (h : Preparable fns I) (entries : List (Bytes × StmtId)) :
    Preserves I (prepareAll lib entries) := by
  induction entries with
  | nil => exact Preserves.pure _
  | cons entry entries ih => exact (h.prepare entry.2).bind fun _ => ih

theorem newStatement (h : Preparable fns I) (query : Bytes) :
    Preserves I (newStatement lib query) :=
  Preserves.bind (Preserves.modifyGet fun w hw => h.stmts _ _ w hw) fun s =>
    (h.prepare s).bind fun _ =>
    Preserves.pure _

end Preparable

/-! ### Reconnects -/

/-- The request executes a query or a statement. -/
def Request.executes : Request → Bool
  | .realQuery _ => true
  | .stmtExecute _ _ => true
  | _ => false

def sessionOpenFns : List Fn := [.options, .realConnect, .setCharacterSet]

def connectFns : List Fn := sessionOpenFns ++ prepareFns

/-- What a reconnect does before the preparations does not matter. -/
structure Openable (fns : List Fn) (I : World → Prop) : Prop extends Stable fns I where
  opens : sessionOpenFns ⊆ fns
  quiet : ∀ r, r.executes = false → r.prepares = false → ∀ w, I w → I { w with log := w.log ++ [r] }
  charSet : ∀ c w, I w → I { w with charSet := c }

namespace Openable

theorem openConnection (h : Openable fns I) (c : Credentials) :
    Preserves I (openConnection lib c) := by
  have hoptions : Preserves I (mysqlOptions lib) :=
    (h.tick (h.opens (by decide))).bind fun _ => (h.reportConn _).bind fun _ => Preserves.pure _
  have hconnect : ∀ socket flags, Preserves I (mysqlRealConnect lib c socket flags) := fun _ _ =>
    Preserves.bind (Preserves.modify (h.quiet _ rfl rfl)) fun _ =>
      (h.tick (h.opens (by decide))).bind fun _ =>
      (h.reportConn _).bind fun _ => Preserves.pure _
  exact hoptions.bind fun _ => (Preserves.ite (Preserves.pure _) hoptions).bind fun _ =>
    Preserves.ite (Preserves.pure _) (hconnect _ _)

theorem setCharacterSet (h : Openable fns I) (charset : Bytes) :
    Preserves I (setCharacterSet lib charset) := by
  have hset : Preserves I (mysqlSetCharacterSet lib charset) :=
    Preserves.bind (Preserves.modify (h.quiet _ rfl rfl)) fun _ =>
      (h.tick (h.opens (by decide))).bind fun _ =>
      (h.reportConn _).bind fun _ => Preserves.pure _
  exact hset.bind fun _ => Preserves.ite (preserves_mysqlError.bind fun _ => Preserves.pure _)
    (Preserves.bind (Preserves.modify (h.charSet _)) fun _ => Preserves.pure _)

theorem restoreCharacterSet (h : Openable fns I) (charset : Bytes) :
    Preserves I (restoreCharacterSet lib charset) :=
  Preserves.ite (Preserves.pure _) (h.setCharacterSet charset)

end Openable

/-- What reconnects do does not matter either. -/
structure Connectable (fns : List Fn) (I : World → Prop) :
    Prop extends Preparable fns I, Openable fns I

namespace Connectable

theorem connect (h : Connectable fns I) (isReconnect : Bool) :
    Preserves I (connect lib isReconnect) := by
  refine Preserves.get.bind fun w => (h.openConnection w.credentials).bind fun failed => ?_
  refine Preserves.ite (preserves_mysqlError.bind fun _ => Preserves.pure _) ?_
  refine (h.restoreCharacterSet w.charSet).bind fun error => ?_
  cases error with
  | some error => exact Preserves.pure _
  | none =>
      exact (h.prepareAll _).bind fun _ =>
        Preserves.bind (Preserves.modify (h.isPendingCallback _)) fun _ => Preserves.pure _

end Connectable

/-! ### The handlers around their attempts -/

variable {action : DatabaseAction} {query : Bytes}

/-- What holds after the sends of a query holds after `RunQuery`. -/
theorem final_runQuery (h : StableAt queryFns A I) {fuel : ℕ} {w : World}
    (hpush : ∀ results, Preserves I (pushCompleted action results))
    (hsend : I (final ((send lib query fuel false).run w))) :
    I (final ((runQuery lib fuel action query).run w)) := by
  rw [runQuery]
  exact Preserves.final_bind (fun d => h.withObject d.text fun loc =>
    (h.resultsOr (by decide) d loc (Preserves.collect h.nextQueryResult fuel)).bind fun results =>
      hpush results) hsend

theorem preserves_executions (hattempt : Preserves I (attempt lib s binds))
    (hconnect : Preserves I (connect lib true)) (hprepare : Preserves I (prepare lib s)) (fuel : ℕ)
    (hasRetried hasRetriedStatement : Bool) :
    Preserves I (executions lib s binds fuel hasRetried hasRetriedStatement) := by
  induction fuel generalizing hasRetried hasRetriedStatement with
  | zero => exact Preserves.throw _
  | succ fuel ih =>
      refine hattempt.bind fun d => (Preserves.ite hconnect (Preserves.pure _)).bind fun err => ?_
      cases err with
      | none => exact ih true hasRetriedStatement
      | some _ => exact Preserves.ite (hprepare.bind fun _ => ih _ true) (Preserves.pure _)

/-- Once the connection has been tried again, it is not any more. -/
theorem preserves_executions_retried (hattempt : Preserves I (attempt lib s binds))
    (hprepare : Preserves I (prepare lib s)) (fuel : ℕ) (hasRetriedStatement : Bool) :
    Preserves I (executions lib s binds fuel true hasRetriedStatement) := by
  induction fuel generalizing hasRetriedStatement with
  | zero => exact Preserves.throw _
  | succ fuel ih =>
      refine hattempt.bind fun d => (Preserves.pure _).bind fun err => ?_
      cases err with
      | none => exact ih hasRetriedStatement
      | some _ => exact Preserves.ite (hprepare.bind fun _ => ih true) (Preserves.pure _)

theorem preserves_send_retried (hquery : Preserves I (mysqlRealQuery lib query)) (fuel : ℕ) :
    Preserves I (send lib query fuel true) := by
  cases fuel with
  | zero => exact Preserves.throw _
  | succ fuel =>
      exact hquery.bind fun failed =>
        Preserves.ite (preserves_mysqlError.bind fun _ => Preserves.pure _) (Preserves.pure _)

theorem final_catchMyException {α : Type} {x : Io α} {handler : Diag → Io α} {w : World}
    (hh : ∀ d, Preserves I (handler d)) (hx : I (final (x.run w))) :
    I (final ((catchMyException x handler).run w)) := by
  refine Preserves.final_tryCatch (fun e => ?_) hx
  cases e with
  | myException errorNumber what => exact hh _
  | _ => exact Preserves.throw _

/-- What holds after the executions of a statement holds after `RunStatement`. -/
theorem final_runStatement (h : StableAt statementFns A I)
    (hfrees : ∀ f w, I w → I { w with frees := f })
    (hA : ∀ w, I w → ∀ handle ∈ (w.stmt s).stmt, A handle) {fuel : ℕ} {w : World}
    (hpush : ∀ results, Preserves I (pushCompleted action results)) (hexecutions : I
      (final ((executions lib s (retagBinds binds (w.stmt s).numArgs) fuel false false).run w))) :
    I (final ((runStatement lib fuel s binds action).run w)) := by
  rw [runStatement]
  refine Preserves.final_bind (fun results => hpush results)
    (final_catchMyException (fun d => ?_) ?_)
  · exact h.withObject d.text fun loc => Preserves.map _ (h.newError (by decide) _ _ _)
  · rw [execute, run_bind_ok (EStateM.run_get _)]
    exact Preserves.final_bind (fun d => h.executeResults hfrees hA fuel _ d) hexecutions

theorem preserves_createStatement (h : Preparable fns I) (query : Bytes) :
    Preserves I (createStatement lib query) := by
  have hwaiter : ∀ f, Preserves I (setWaiter f) :=
    fun f => Preserves.modify fun w hw => h.waiter _ w hw
  have hnew : Preserves I (do
      let s ← Handler.newStatement lib query
      setWaiter fun t => { t with stmt := some s }) := (h.newStatement query).bind fun s =>
        hwaiter _
  rw [createStatement]
  exact Preserves.bind (fun w hw => final_catchMyException (fun d => hwaiter _) (hnew w hw))
    fun _ => hwaiter _

end Tmysql4.Handler
