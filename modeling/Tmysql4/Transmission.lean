import Tmysql4.Parameters

/-! # What is sent for the parameters of a statement

`packet` is what `mysql_stmt_execute` reads of a bind: its type and, by the type, so many bytes of
its buffer. `Transmits` collects the packets that a list of parameters may become, from the call
of `lua_Run` to the last execution on the io thread.

A decoding exists for every type but the boolean: a `MYSQL_TYPE_BIT` is sent with the length of
the zeroed bind. -/

namespace Tmysql4.Handler

open Imperative LuaBase

variable {lib : Lib} {w w₀ : World}

/-! ### Parameters -/

/-- A parameter that is taken; a number is its bit pattern. -/
inductive Parameter where
  | null
  | bool (b : Bool)
  | number (bits : UInt64)
  | string (text : Bytes)
deriving DecidableEq

def Parameter.value : Parameter → Argument
  | .null => .nil
  | .bool b => .bool b
  | .number bits => .number bits
  | .string text => .string text

def Parameter.bind (beyond : Bytes) : Parameter → Bind
  | .null => ⟨mysqlTypeNull, [], 0, []⟩
  | .bool b => ⟨mysqlTypeBit, [if b then 1 else 0], 0, beyond⟩
  | .number bits => ⟨mysqlTypeDouble, littleEndian 8 bits.toNat, 0, beyond⟩
  | .string text => ⟨mysqlTypeString, text, text.length, beyond⟩

theorem bindOf_value (beyond : Bytes) (p : Parameter) :
    bindOf beyond p.value = some (p.bind beyond) := by
  cases p <;> rfl

theorem bindable_value (p : Parameter) : Bindable p.value := by
  cases p with
  | null => exact Or.inr (Or.inr (Or.inr rfl))
  | bool b => exact Or.inr (Or.inl rfl)
  | number bits => exact Or.inr (Or.inr (Or.inl rfl))
  | string text => exact Or.inl rfl

/-- A call with the parameters `ps` posts the handler `task`. -/
def Takes (s : RunState) (ps : List Parameter) (task : RunTask) : Prop :=
  ∃ pstmt s', s.lua.value 1 = .userdata s.iStatementMTID (some pstmt) ∧
    s.numArgs pstmt = ps.length ∧ (∀ i (hi : i < ps.length), s.lua.value ↑(i + 2) = ps[i].value) ∧
    luaRun.run s = .ok () s' ∧ s'.posted = s.posted ++ [task]

/-- The binds of parameters, each before some memory. -/
def bindsFor (beyond : ℕ → Bytes) (ps : List Parameter) : List Bind :=
  ps.mapIdx fun i p => p.bind (beyond i)

/-- What a call that has posted a handler has done. -/
theorem queued_of_posted {s s' : RunState} {pstmt : StmtId} {task : RunTask}
    (hhandle : s.lua.value 1 = .userdata s.iStatementMTID (some pstmt))
    (hrun : luaRun.run s = .ok () s') (hposted : s'.posted = s.posted ++ [task]) :
    Queued s s' pstmt task := by
  obtain ⟨-, task', s₁, hrun', hqueued⟩ | ⟨-, strError, s₁, hrun', -⟩ := luaRun_cases hhandle
  · cases hrun.symm.trans hrun'
    obtain rfl : task' = task := by
      have heq := hqueued.posted.symm.trans hposted
      simpa using heq
    exact hqueued
  · rw [hrun] at hrun'
    cases hrun'

theorem Takes.queued {s s' : RunState} {ps : List Parameter} {task : RunTask} (h : Takes s ps task)
    (hcall : luaRun.run s = .ok () s') : Queued s s' task.stmt task := by
  obtain ⟨pstmt, s₁, hhandle, -, -, hrun, hposted⟩ := h
  cases hcall.symm.trans hrun
  have hqueued := queued_of_posted hhandle hrun hposted
  rw [hqueued.stmt]
  exact hqueued

theorem Takes.binds_eq {s : RunState} {ps : List Parameter} {task : RunTask} (h : Takes s ps task) :
    task.binds = bindsFor s.beyond ps := by
  obtain ⟨pstmt, s', hhandle, hargs, hvalues, hrun, hposted⟩ := h
  have hqueued := queued_of_posted hhandle hrun hposted
  have hlen : task.binds.length = ps.length := hqueued.length.trans hargs
  refine List.ext_getElem (by simp [bindsFor, hlen]) fun i hi hi' => ?_
  have hbind := hqueued.binds i hi
  rw [Nat.zero_add, hvalues i (hlen ▸ hi), bindOf_value] at hbind
  simpa [bindsFor] using (Option.some.inj hbind).symm

/-! ### Packets -/

/-- The bytes that are read of a bind. -/
def transmitted (b : Bind) : Bytes :=
  if b.bufferType = mysqlTypeNull then []
  else if b.bufferType = mysqlTypeDouble then b.buffer.take 8
  else (b.buffer ++ b.beyond).take b.bufferLength

def packet (b : Bind) : ℕ × Bytes := (b.bufferType, transmitted b)

/-- What may be sent for the parameters: their binds as they are posted, or those of a
`mysql_stmt_execute` that `RunStatement` makes with them. -/
inductive Transmits (ps : List Parameter) : List (ℕ × Bytes) → Prop where
  | bound {s : RunState} {task : RunTask} (h : Takes s ps task) :
      Transmits ps (task.binds.map packet)
  | executed {s : RunState} {task : RunTask} {lib : Lib} {w : World} {fuel : ℕ}
      {action : DatabaseAction}
      {new : List Request} {handle : HandleId} {binds : List Bind} (h : Takes s ps task)
      (hlog : (final ((runStatement lib fuel task.stmt task.binds action).run w)).log = w.log ++
        new)
      (hsent : .stmtExecute handle binds ∈ new) : Transmits ps (binds.map packet)

/-- The parameters can be told from what is sent for them. -/
def Determined (ps : List Parameter) : Prop :=
  ∀ ps' packets, Transmits ps packets → Transmits ps' packets → ps' = ps

/-! ### Decoding -/

def ofLittleEndian : Bytes → ℕ
  | [] => 0
  | b :: bytes => b.toNat + 256 * ofLittleEndian bytes

theorem length_littleEndian (k n : ℕ) : (littleEndian k n).length = k := by
  induction k generalizing n with
  | zero => rfl
  | succ k ih => rw [littleEndian, List.length_cons, ih]

theorem ofLittleEndian_littleEndian {k n : ℕ} (h : n < 256 ^ k) :
    ofLittleEndian (littleEndian k n) = n := by
  induction k generalizing n with
  | zero =>
      rw [Nat.pow_zero, Nat.lt_one_iff] at h
      rw [h]
      rfl
  | succ k ih =>
      have hdiv : n / 256 < 256 ^ k := by
        rw [Nat.pow_succ] at h
        exact Nat.div_lt_of_lt_mul (Nat.mul_comm _ _ ▸ h)
      have hbyte : ((n % 256).toUInt8).toNat = n % 256 := by
        rw [Nat.toUInt8_eq, UInt8.toNat_ofNat']
        omega
      rw [littleEndian, ofLittleEndian, ih hdiv, hbyte]
      omega

/-- The parameter of a packet; for a boolean it is a guess. -/
def decodePacket (p : ℕ × Bytes) : Parameter :=
  if p.1 = mysqlTypeNull then .null
  else if p.1 = mysqlTypeDouble then .number (ofLittleEndian p.2).toUInt64
  else if p.1 = mysqlTypeBit then .bool false
  else .string p.2

/-- What is sent of a parameter: everything but the value of a boolean. -/
def Parameter.sent : Parameter → Parameter
  | .bool _ => .bool false
  | p => p

theorem decodePacket_bind (beyond : Bytes) (p : Parameter) :
    decodePacket (packet (p.bind beyond)) = p.sent := by
  cases p with
  | null => rfl
  | bool b => rfl
  | number bits =>
      have hbits : ofLittleEndian (littleEndian 8 bits.toNat) = bits.toNat :=
        ofLittleEndian_littleEndian bits.toNat_lt
      have htake : (littleEndian 8 bits.toNat).take 8 = littleEndian 8 bits.toNat :=
        List.take_of_length_le (Nat.le_of_eq (length_littleEndian 8 _))
      have hpacket : packet (Parameter.bind beyond (.number bits)) =
          (mysqlTypeDouble, littleEndian 8 bits.toNat) := by
        rw [← htake]
        rfl
      have hdecode : decodePacket (mysqlTypeDouble, littleEndian 8 bits.toNat) =
          .number (ofLittleEndian (littleEndian 8 bits.toNat)).toUInt64 := rfl
      rw [hpacket, hdecode, hbits]
      simp [Parameter.sent]
  | string text =>
      have hpacket : packet (Parameter.bind beyond (.string text)) = (mysqlTypeString, text) := by
        have htake : (text ++ beyond).take text.length = text := List.take_left
        rw [Prod.mk.injEq]
        exact ⟨rfl, htake⟩
      rw [hpacket]
      rfl

theorem decodePacket_retag (b : Bind) :
    decodePacket (packet b.retag) = decodePacket (packet b) := by
  unfold Bind.retag
  split
  · rename_i h
    have hstring : decodePacket (packet b) =
        .string ((b.buffer ++ b.beyond).take b.bufferLength) := by
      simp [decodePacket, packet, transmitted, h.1, mysqlTypeString, mysqlTypeNull, mysqlTypeDouble,
        mysqlTypeBit]
    rw [hstring]
    rfl
  · rfl

theorem decode_bindsFor (beyond : ℕ → Bytes) (ps : List Parameter) :
    ((bindsFor beyond ps).map packet).map decodePacket = ps.map Parameter.sent := by
  refine List.ext_getElem (by simp [bindsFor]) fun i hi hi' => ?_
  simp [bindsFor, decodePacket_bind]

theorem decode_retagBinds (binds : List Bind) (n : ℕ) :
    ((retagBinds binds n).map packet).map decodePacket = (binds.map packet).map decodePacket := by
  rw [List.map_map, List.map_map, retagBinds, List.map_append, List.map_map]
  have hretag : (decodePacket ∘ packet) ∘ Bind.retag = decodePacket ∘ packet :=
    funext decodePacket_retag
  rw [hretag, ← List.map_append, List.take_append_drop]

/-! ### Executions -/

/-- Since `w₀`, every execution has sent `binds`. -/
def Sends (binds : List Bind) (w₀ w : World) : Prop :=
  ∃ new, w.log = w₀.log ++ new ∧ ∀ handle b, .stmtExecute handle b ∈ new → b = binds

theorem Sends.record {binds : List Bind} {r : Request} (h : Sends binds w₀ w)
    (hr : ∀ handle b, r = .stmtExecute handle b → b = binds) :
    Sends binds w₀ { w with log := w.log ++ [r] } := by
  obtain ⟨new, hlog, hnew⟩ := h
  refine ⟨new ++ [r], by rw [hlog, List.append_assoc], fun handle b hmem => ?_⟩
  obtain hmem | hmem := List.mem_append.mp hmem
  · exact hnew handle b hmem
  · exact hr handle b (List.mem_singleton.mp hmem).symm

theorem connectable_sends (binds : List Bind) (w₀ : World) :
    Connectable (statementFns ++ connectFns) (Sends binds w₀) where
  call _ _ _ h := h
  connError _ _ h := h
  handle _ _ _ _ h := h
  locals _ _ _ h := h
  frees _ _ h := h
  waiter _ _ h := h
  isPendingCallback _ _ h := h
  prepares := by decide
  request r hr w h := h.record fun handle b heq => by
    rw [heq] at hr
    cases hr
  handles _ _ _ h := h
  stmts _ _ _ h := h
  opens := by decide
  quiet r hr _ w h := h.record fun handle b heq => by
    rw [heq] at hr
    cases hr
  charSet _ _ h := h

theorem sends_attempt (s : StmtId) (binds : List Bind) (w₀ : World) :
    Preserves (Sends binds w₀) (attempt lib s binds) := by
  refine (preserves_stmtHandle s).bind fun handle w h => ?_
  have hsend : Sends binds w₀ { w with log := w.log ++ [.stmtExecute handle binds] } :=
    h.record fun _ _ heq => by
      cases heq
      rfl
  rw [run_bind_ok (mysqlStmtBindParam_run handle binds w),
    run_bind_ok (mysqlStmtExecute_run lib handle _)]
  refine Preserves.ite (preserves_mysqlStmtError handle) (Preserves.pure _) _ ?_
  simpa [Sends] using hsend

/-- Every execution of a statement run sends the binds as
they are once strings have been retagged. -/
theorem sends_runStatement (lib : Lib) (fuel : ℕ) (s : StmtId) (binds : List Bind)
    (action : DatabaseAction) (w : World) :
    Sends (retagBinds binds (w.stmt s).numArgs) w
      (final ((runStatement lib fuel s binds action).run w)) := by
  have hc := connectable_sends (retagBinds binds (w.stmt s).numArgs) w
  have hstart : Sends (retagBinds binds (w.stmt s).numArgs) w w := ⟨[], by simp, by simp⟩
  refine final_runStatement (hc.toStable.mono (by decide)).anywhere hc.toStable.frees
    (fun _ _ _ _ => trivial) (fun results => Preserves.modify fun _ h => h) ?_
  exact preserves_executions (sends_attempt s _ w) (hc.connect true) (hc.toPreparable.prepare s)
    fuel false false w hstart

/-! ### What a transmission determines -/

/-- Whatever is sent decodes to the parameters without the values of the booleans. -/
theorem Transmits.decode {ps : List Parameter} {packets : List (ℕ × Bytes)}
    (h : Transmits ps packets) : packets.map decodePacket = ps.map Parameter.sent := by
  cases h with
  | bound h => rw [h.binds_eq, decode_bindsFor]
  | @executed s task lib w fuel action new handle binds h hlog hsent =>
      obtain ⟨new', hlog', hnew⟩ := sends_runStatement lib fuel task.stmt task.binds action w
      obtain rfl : new = new' := List.append_cancel_left (hlog.symm.trans hlog')
      rw [hnew handle binds hsent, decode_retagBinds, h.binds_eq, decode_bindsFor]

theorem sent_eq_self {ps : List Parameter} (h : ∀ b, .bool b ∉ ps) :
    ps.map Parameter.sent = ps := by
  induction ps with
  | nil => rfl
  | cons p ps ih =>
      rw [List.map_cons, ih fun b hb => h b (List.mem_cons_of_mem _ hb)]
      cases p with
      | bool b => exact absurd List.mem_cons_self (h b)
      | _ => rfl

theorem calling_value (args : List Argument) {n i : ℕ} (hi : i < args.length) :
    (RunState.calling n args).lua.value ↑(i + 2) = args[i] :=
  Machine.value_reverse (.userdata 20 (some 0) :: args) rfl (Nat.succ_lt_succ hi)

/-- Every list of parameters is taken. -/
theorem exists_takes (ps : List Parameter) :
    ∃ task, Takes (.calling ps.length (ps.map Parameter.value)) ps task := by
  have hhandle : (RunState.calling ps.length (ps.map Parameter.value)).lua.value 1 =
      .userdata 20 (some 0) :=
    Machine.value_reverse (.userdata 20 (some 0) :: ps.map Parameter.value) (i := 0) rfl
      (Nat.succ_pos _)
  have hvalue : ∀ i (hi : i < ps.length),
      (RunState.calling ps.length (ps.map Parameter.value)).lua.value ↑(i + 2) = ps[i].value :=
        fun i hi => by
    rw [calling_value _ (by rwa [List.length_map]), List.getElem_map]
  obtain ⟨-, task, s', hrun, hqueued⟩ | ⟨hbad, -⟩ := luaRun_cases hhandle
  · exact ⟨task, 0, s', hhandle, rfl, hvalue, hrun, hqueued.posted⟩
  · obtain hlt | ⟨i, hi, hnot⟩ := hbad
    · simp [RunState.calling, Machine.top] at hlt
    · exact absurd (hvalue i hi ▸ bindable_value _) hnot

def Parameter.negate : Parameter → Parameter
  | .bool b => .bool !b
  | p => p

theorem map_negate_ne {ps : List Parameter} {b : Bool} (h : .bool b ∈ ps) :
    ps.map Parameter.negate ≠ ps := by
  intro heq
  have hself : ∀ p ∈ ps, p.negate = id p := List.map_inj_left.mp (heq.trans (List.map_id ps).symm)
  have hb := hself _ h
  cases b <;> cases hb

/-- What is sent does not depend on the values of the booleans. -/
theorem transmits_negate (ps : List Parameter) :
    ∃ packets, Transmits ps packets ∧ Transmits (ps.map Parameter.negate) packets := by
  obtain ⟨task, htask⟩ := exists_takes ps
  obtain ⟨task', htask'⟩ := exists_takes (ps.map Parameter.negate)
  have hpacket : ∀ p : Parameter, packet (p.negate.bind []) = packet (p.bind []) := fun p => by
    cases p with
    | bool b => cases b <;> rfl
    | _ => rfl
  have hpackets : task'.binds.map packet = task.binds.map packet := by
    rw [htask.binds_eq, htask'.binds_eq]
    refine List.ext_getElem (by simp [bindsFor]) fun i hi hi' => ?_
    simpa [bindsFor, RunState.calling] using hpacket _
  exact ⟨_, .bound htask, hpackets ▸ .bound htask'⟩

theorem determined_of_no_bool {ps : List Parameter} (h : ∀ b, .bool b ∉ ps) : Determined ps := by
  intro ps' packets hps hps'
  have hsent : ps'.map Parameter.sent = ps :=
    hps'.decode.symm.trans (hps.decode.trans (sent_eq_self h))
  have h' : ∀ b, .bool b ∉ ps' := fun b hb => by
    have hmem := List.mem_map_of_mem (f := Parameter.sent) hb
    rw [hsent] at hmem
    exact h false hmem
  exact (sent_eq_self h').symm.trans hsent

/-- **Statement parameters survive binding, except booleans.**
`decodePacket` gives back every list without a boolean, and a list
is determined by what is sent for it exactly when it has none. -/
theorem parameters_determined_iff (ps : List Parameter) :
    ((∀ b, .bool b ∉ ps) → ∀ packets, Transmits ps packets → packets.map decodePacket = ps) ∧
      (Determined ps ↔ ∀ b, .bool b ∉ ps) := by
  refine ⟨fun h packets hps => hps.decode.trans (sent_eq_self h), ?_, determined_of_no_bool⟩
  intro h b hb
  obtain ⟨packets, hps, hnegate⟩ := transmits_negate ps
  exact map_negate_ne hb (h _ packets hps hnegate)

/-- A string with a null byte, a number and a null. -/
theorem parameters_determined_iff_mixed : Determined [.string [97, 0], .number 1, .null] :=
  (parameters_determined_iff _).2.mpr (by decide)

/-- Both booleans are sent as no bytes. -/
theorem parameters_determined_iff_fails :
    ¬∃ decode : List (ℕ × Bytes) → List Parameter, ∀ ps packets, Transmits ps packets →
      decode packets = ps := by
  rintro ⟨decode, hdecode⟩
  obtain ⟨packets, htrue, hfalse⟩ := transmits_negate [.bool true]
  have heq := (hdecode _ _ htrue).symm.trans (hdecode _ _ hfalse)
  cases heq

end Tmysql4.Handler
