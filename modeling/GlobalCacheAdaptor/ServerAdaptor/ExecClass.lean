import GlobalCacheAdaptor.ServerAdaptor.MsgModule
import GlobalCacheAdaptor.ServerAdaptor.ObjectName

/-!
# Class calls and the copy-up gate

A worker sets `copyupFlag` when the conversion returns 1 on a `CALL`, and waits for it to be
cleared before its next dispatch; `OSA_ExecClass` clears it. Both parse the same bytes, the
conversion with a short buffer tolerated (`callNames`), the execution with a short buffer refused
(`decodeCall`). `copyup_gate_released_iff` says on which ops the two agree.
-/

namespace GlobalCacheAdaptor.ServerAdaptor

open Lib

/-! ## `OSA_ExecClass` -/

/-- The results of the back-end callbacks and of Ceph's class handler during one call. -/
structure ClassEnv where
  /-- The prefetch callback on the new offset and length of the op. -/
  prefetch : BitVec 32 → BitVec 32 → Int
  /-- What `cbFunc` returns for a `STAT`, and the output buffer it leaves. -/
  stat : Int × Bytes
  /-- What `cbFunc` returns for a `WRITE` of these bytes. -/
  write : Bytes → Int
  /-- `open_class`: 0, or an error code. -/
  openClass : Bytes → Int
  /-- `get_method` finds the method. -/
  hasMethod : Bytes → Bytes → Bool
  /-- `method->exec` on the class, method and input: its result and its output. -/
  exec : Bytes → Bytes → Bytes → Int × Bytes

/-- What a call of `OSA_ExecClass` leaves: its result, the values it stored through `copyupFlag`
in order, and the op and request op it worked on. -/
structure Executed where
  ret : Int
  flagWrites : List Int := []
  clientop : OSDOp
  osdop : OpRequestOps

/-- The copy-up flag after the call, from its value before. -/
def Executed.copyupFlag (executed : Executed) (before : Int) : Int :=
  executed.flagWrites.getLastD before

/-- `CheckClassList`. -/
def checkClassList (cname : Bytes) : Bool := cname ∈ [ascii "rgw", ascii "lock"]

/-- `cls_cxx_stat2` with null result pointers. -/
def clsCxxStat2 (env : ClassEnv) : Int :=
  let (r, outdata) := env.stat
  if r < 0 then r
  else
    match (do
      let _ ← Format.u64.decode
      let _ ← Format.u32.decode
      let _ ← Format.u32.decode
      pure () : Decoder Unit) outdata with
    | .error _ => eio
    | .ok _ => 0

/-- The class name, the method name and the input of a `CALL`. -/
def decodeCall (clientop : OSDOp) : Decoder (Bytes × Bytes × Bytes) := do
  let cname ← Decoder.copy clientop.op.classLen.toNat
  let mname ← Decoder.copy clientop.op.methodLen.toNat
  let indata ← Decoder.copy clientop.op.indataLen.toNat
  pure (cname, mname, indata)

/-- Run a method of an open class; on success its output is appended to the op's. -/
def execMethod (env : ClassEnv) (clientop : OSDOp) (osdop : OpRequestOps)
    (cname mname indata : Bytes) : Executed :=
  match env.exec cname mname indata with
  | (result, outdata) =>
      if result = 0 then
        { ret := result
          clientop :=
            { clientop with
              op := { clientop.op with extentLength := BitVec.ofNat 64 outdata.length }
              outdata := clientop.outdata ++ outdata }
          osdop := osdop }
      else { ret := result, clientop := clientop, osdop := osdop }

/-- The class call proper, once its names and input are known. The arguments of a prefetch are
decoded outside the `try` block. -/
def execNamedClass (env : ClassEnv) (clientop : OSDOp) (osdop : OpRequestOps)
    (cname mname indata : Bytes) : Except BufferError Executed :=
  if cname = ascii "rpc" ∧ mname = ascii "das_prefetch" then
    match (Format.u64.pair Format.u64).decode indata with
    | .error e => .error e
    | .ok ((offset, len), _) =>
        let objOffset := BitVec.ofNat 32 offset
        let objLength := BitVec.ofNat 32 len
        .ok { ret := env.prefetch objOffset objLength
              clientop := clientop
              osdop := { osdop with objOffset := objOffset, objLength := objLength } }
  else if cname = ascii "rbd" ∧ mname = ascii "copyup" then
    if clsCxxStat2 env = 0 then
      .ok { ret := 0, flagWrites := [0], clientop := clientop, osdop := osdop }
    else
      .ok { ret := env.write indata, flagWrites := [0], clientop := clientop, osdop := osdop }
  else if ¬ checkClassList cname then
    .ok { ret := eopnotsupp, clientop := clientop, osdop := osdop }
  else if env.openClass cname ≠ 0 then
    .ok { ret := eopnotsupp, clientop := clientop, osdop := osdop }
  else if ¬ env.hasMethod cname (cStr mname) then
    .ok { ret := eopnotsupp, clientop := clientop, osdop := osdop }
  else .ok (execMethod env clientop osdop cname (cStr mname) indata)

/-- `OSA_ExecClass` on the op its context selects; context and message are not null. -/
def osaExecClass (env : ClassEnv) (clientop : OSDOp) (osdop : OpRequestOps) :
    Except BufferError Executed :=
  match decodeCall clientop clientop.indata.bytes with
  -- the names and the input are decoded inside a `try` block
  | .error _ => .ok { ret := einval, clientop := clientop, osdop := osdop }
  | .ok ((cname, mname, indata), _) => execNamedClass env clientop osdop cname mname indata

/-! ## The two parsers -/

/-- The buffer starts with `rbd` and `copyup`, as far as the lengths in the header reach. -/
def OSDOp.NamesCopyup (clientop : OSDOp) : Prop :=
  clientop.indata.bytes.take clientop.op.classLen.toNat = ascii "rbd" ∧
    (clientop.indata.bytes.drop clientop.op.classLen.toNat).take clientop.op.methodLen.toNat =
      ascii "copyup"

/-- The buffer is as long as the three lengths in the header say. -/
def OSDOp.CallFits (clientop : OSDOp) : Prop :=
  clientop.op.classLen.toNat + clientop.op.methodLen.toNat + clientop.op.indataLen.toNat ≤
    clientop.indata.bytes.length

/-- The tolerant parser finds `rbd` and `copyup` exactly when the bytes are there. -/
theorem callNames_eq_copyup_iff (clientop : OSDOp) :
    ((callNames clientop).1 = ascii "rbd" ∧ (callNames clientop).2 = ascii "copyup") ↔
      clientop.NamesCopyup := by
  unfold callNames OSDOp.NamesCopyup Decoder.copyAvailable
  by_cases hlen : clientop.op.classLen.toNat ≤ clientop.indata.bytes.length
  · simp only [hlen, if_true]
  · -- a short class name leaves no bytes for the method, on either side
    have hdrop : clientop.indata.bytes.drop clientop.op.classLen.toNat = [] :=
      List.drop_eq_nil_of_le (by omega)
    simp only [hlen, if_false, hdrop, List.take_nil]

/-- On a class call the conversion returns 1 exactly when the bytes name the copy-up. -/
theorem convert_call_ret_iff {clientop : OSDOp} (hcall : clientop.op.op = .call)
    (oneOp : OpRequestOps) (optionType : OptionsType) (optionLength : OptionsLength) :
    (∃ converted, convertClientopToOpreq clientop oneOp optionType optionLength = .ok converted ∧
      converted.ret = 1) ↔ clientop.NamesCopyup := by
  rw [← callNames_eq_copyup_iff]
  unfold convertClientopToOpreq
  simp only [hcall]
  split_ifs with hnames
  · exact iff_of_true ⟨_, rfl, rfl⟩ hnames
  · refine iff_of_false ?_ hnames
    intro h
    obtain ⟨converted, hok, hret⟩ := h
    cases hok
    cases hret

/-- The strict parser cuts the buffer at the three lengths of the header. -/
theorem decodeCall_ok_iff {clientop : OSDOp} {cname mname indata bs rest : Bytes} :
    decodeCall clientop bs = .ok ((cname, mname, indata), rest) ↔
      cname.length = clientop.op.classLen.toNat ∧ mname.length = clientop.op.methodLen.toNat ∧
        indata.length = clientop.op.indataLen.toNat ∧
        bs = cname ++ (mname ++ (indata ++ rest)) := by
  simp only [decodeCall, Decoder.bind_ok_iff, Decoder.copy_ok_iff, Decoder.pure_ok_iff,
    Prod.mk.injEq]
  constructor
  · intro h
    obtain ⟨_, _, ⟨hc, rfl⟩, _, _, ⟨hm, rfl⟩, _, _, ⟨hi, rfl⟩, ⟨rfl, rfl, rfl⟩, rfl⟩ := h
    exact ⟨hc, hm, hi, rfl⟩
  · intro h
    obtain ⟨hc, hm, hi, rfl⟩ := h
    exact ⟨_, _, ⟨hc, rfl⟩, _, _, ⟨hm, rfl⟩, _, _, ⟨hi, rfl⟩, ⟨rfl, rfl, rfl⟩, rfl⟩

/-- A buffer of the length the header says is accepted, with the names the tolerant parser sees. -/
theorem decodeCall_of_fits {clientop : OSDOp} (h : clientop.CallFits) :
    ∃ cname mname indata rest,
      decodeCall clientop clientop.indata.bytes = .ok ((cname, mname, indata), rest) ∧
        ((cname = ascii "rbd" ∧ mname = ascii "copyup") ↔ clientop.NamesCopyup) := by
  unfold OSDOp.CallFits at h
  unfold OSDOp.NamesCopyup
  generalize clientop.indata.bytes = bs at h ⊢
  refine ⟨bs.take clientop.op.classLen.toNat,
    (bs.drop clientop.op.classLen.toNat).take clientop.op.methodLen.toNat,
    ((bs.drop clientop.op.classLen.toNat).drop clientop.op.methodLen.toNat).take
      clientop.op.indataLen.toNat,
    ((bs.drop clientop.op.classLen.toNat).drop clientop.op.methodLen.toNat).drop
      clientop.op.indataLen.toNat,
    decodeCall_ok_iff.mpr ⟨?_, ?_, ?_, ?_⟩, Iff.rfl⟩
  · rw [List.length_take]
    omega
  · rw [List.length_take, List.length_drop]
    omega
  · rw [List.length_take, List.length_drop, List.length_drop]
    omega
  · rw [List.take_append_drop, List.take_append_drop, List.take_append_drop]

/-- Whatever the strict parser accepts has the length the header says. -/
theorem fits_of_decodeCall {clientop : OSDOp} {names : Bytes × Bytes × Bytes} {rest : Bytes}
    (h : decodeCall clientop clientop.indata.bytes = .ok (names, rest)) : clientop.CallFits := by
  obtain ⟨cname, mname, indata⟩ := names
  obtain ⟨hc, hm, hi, hbs⟩ := decodeCall_ok_iff.mp h
  unfold OSDOp.CallFits
  rw [hbs]
  simp only [List.length_append]
  omega

/-! ## The gate -/

/-- A copy-up clears the flag on both of its returns, whatever the callbacks return. -/
theorem execNamedClass_copyup (env : ClassEnv) (clientop : OSDOp) (osdop : OpRequestOps)
    (indata : Bytes) :
    ∃ executed, execNamedClass env clientop osdop (ascii "rbd") (ascii "copyup") indata =
      .ok executed ∧ executed.flagWrites = [0] := by
  unfold execNamedClass
  rw [if_neg (by decide), if_pos (by decide)]
  split_ifs <;> exact ⟨_, rfl, rfl⟩

/-- A method of a class stores nothing through the flag. -/
theorem execMethod_flagWrites (env : ClassEnv) (clientop : OSDOp) (osdop : OpRequestOps)
    (cname mname indata : Bytes) :
    (execMethod env clientop osdop cname mname indata).flagWrites = [] := by
  unfold execMethod
  split
  split_ifs <;> rfl

/-- Any other class call stores nothing through the flag. -/
theorem execNamedClass_other {env : ClassEnv} {clientop : OSDOp} {osdop : OpRequestOps}
    {cname mname indata : Bytes} {executed : Executed}
    (hother : ¬ (cname = ascii "rbd" ∧ mname = ascii "copyup"))
    (h : execNamedClass env clientop osdop cname mname indata = .ok executed) :
    executed.flagWrites = [] := by
  unfold execNamedClass at h
  rw [if_neg hother] at h
  by_cases hprefetch : cname = ascii "rpc" ∧ mname = ascii "das_prefetch"
  · rw [if_pos hprefetch] at h
    cases hargs : (Format.u64.pair Format.u64).decode indata with
    | error e => simp [hargs] at h
    | ok args =>
        simp only [hargs, Except.ok.injEq] at h
        rw [← h]
  · rw [if_neg hprefetch] at h
    split_ifs at h <;> cases h <;> first | rfl | exact execMethod_flagWrites _ _ _ _ _ _

/-- A refused buffer ends the call without a store through the flag. -/
theorem osaExecClass_of_not_fits {clientop : OSDOp} (h : ¬ clientop.CallFits) (env : ClassEnv)
    (osdop : OpRequestOps) :
    osaExecClass env clientop osdop =
      .ok { ret := einval, clientop := clientop, osdop := osdop } := by
  unfold osaExecClass
  cases hdec : decodeCall clientop clientop.indata.bytes with
  | error e => rfl
  | ok r => exact absurd (fits_of_decodeCall hdec) h

/-- A copy-up whose buffer fits leaves the flag cleared. -/
theorem osaExecClass_of_copyup {clientop : OSDOp} (hfits : clientop.CallFits)
    (hnames : clientop.NamesCopyup) (env : ClassEnv) (osdop : OpRequestOps) :
    ∃ executed, osaExecClass env clientop osdop = .ok executed ∧ executed.flagWrites = [0] := by
  obtain ⟨cname, mname, indata, rest, hdec, hiff⟩ := decodeCall_of_fits hfits
  obtain ⟨rfl, rfl⟩ := hiff.mpr hnames
  unfold osaExecClass
  rw [hdec]
  exact execNamedClass_copyup env clientop osdop indata

/-- Only a copy-up stores through the flag. -/
theorem namesCopyup_of_flagWrites {env : ClassEnv} {clientop : OSDOp} {osdop : OpRequestOps}
    {executed : Executed} (h : osaExecClass env clientop osdop = .ok executed)
    (hwrites : executed.flagWrites ≠ []) : clientop.NamesCopyup := by
  by_cases hfits : clientop.CallFits
  · obtain ⟨cname, mname, indata, rest, hdec, hiff⟩ := decodeCall_of_fits hfits
    unfold osaExecClass at h
    rw [hdec] at h
    by_contra hnames
    exact hwrites (execNamedClass_other (hiff.not.mpr hnames) h)
  · rw [osaExecClass_of_not_fits hfits] at h
    cases h
    exact absurd rfl hwrites

/-- The gate of a `CALL` is kept: where the conversion returns 1, so that the worker sets the flag
to 1, every call of `OSA_ExecClass` returns with the flag at 0; and a call stores through the flag
only where the conversion returned 1. -/
def GateReleased (clientop : OSDOp) : Prop :=
  ∀ oneOp optionType optionLength,
    ((∃ converted, convertClientopToOpreq clientop oneOp optionType optionLength = .ok converted ∧
        converted.ret = 1) →
      ∀ env osdop, ∃ executed,
        osaExecClass env clientop osdop = .ok executed ∧ executed.copyupFlag 1 = 0) ∧
    (∀ env osdop executed, osaExecClass env clientop osdop = .ok executed →
      executed.flagWrites ≠ [] →
      ∃ converted, convertClientopToOpreq clientop oneOp optionType optionLength = .ok converted ∧
        converted.ret = 1)

/-- The gate is kept exactly on the calls that do not name the copy-up, or whose buffer holds
everything the header announces. -/
theorem copyup_gate_released_iff {clientop : OSDOp} (hcall : clientop.op.op = .call) :
    GateReleased clientop ↔ (clientop.NamesCopyup → clientop.CallFits) := by
  unfold GateReleased
  simp only [convert_call_ret_iff hcall]
  constructor
  · intro h hnames
    by_contra hfits
    let env : ClassEnv := ⟨fun _ _ => 0, (0, []), fun _ => 0, fun _ => 0, fun _ _ => false,
      fun _ _ _ => (0, [])⟩
    let osdop : OpRequestOps := { opSubType := .call }
    obtain ⟨executed, hexec, hflag⟩ := (h osdop {} {}).1 hnames env osdop
    rw [osaExecClass_of_not_fits hfits] at hexec
    cases hexec
    cases hflag
  · intro h _ _ _
    refine ⟨?_, fun env osdop executed hexec => namesCopyup_of_flagWrites hexec⟩
    intro hnames env osdop
    obtain ⟨executed, hexec, hwrites⟩ := osaExecClass_of_copyup (h hnames) hnames env osdop
    exact ⟨executed, hexec, by simp [Executed.copyupFlag, hwrites]⟩

/-- A copy-up call whose header announces one input byte that the buffer does not hold. -/
def shortCopyup : OSDOp :=
  { op := { op := .call, classLen := 3, methodLen := 6, indataLen := 1 }
    indata := { bytes := ascii "rbdcopyup" } }

/-- The same call with no input announced. -/
def emptyCopyup : OSDOp :=
  { op := { op := .call, classLen := 3, methodLen := 6 }
    indata := { bytes := ascii "rbdcopyup" } }

/-- The gate is kept on a copy-up that announces what it carries. -/
theorem gateReleased_emptyCopyup : emptyCopyup.op.op = .call ∧ GateReleased emptyCopyup :=
  ⟨rfl, (copyup_gate_released_iff rfl).mpr fun _ => by unfold OSDOp.CallFits; decide⟩

/-- On the short copy-up the conversion returns 1 and `OSA_ExecClass` leaves the flag at 1. -/
theorem shortCopyup_keeps_gate_shut :
    (∃ converted, convertClientopToOpreq shortCopyup { opSubType := .call } {} {} = .ok converted ∧
      converted.ret = 1) ∧
    ¬ GateReleased shortCopyup := by
  have hnames : shortCopyup.NamesCopyup := by unfold OSDOp.NamesCopyup; decide
  have hfits : ¬ shortCopyup.CallFits := by unfold OSDOp.CallFits; decide
  refine ⟨(convert_call_ret_iff rfl _ _ _).mpr hnames, fun h => ?_⟩
  obtain ⟨executed, hexec, hflag⟩ := (h { opSubType := .call } {} {}).1
    ((convert_call_ret_iff rfl _ _ _).mpr hnames)
    ⟨fun _ _ => 0, (0, []), fun _ => 0, fun _ => 0, fun _ _ => false, fun _ _ _ => (0, [])⟩
    { opSubType := .call }
  rw [osaExecClass_of_not_fits hfits] at hexec
  cases hexec
  cases hflag

end GlobalCacheAdaptor.ServerAdaptor
