import GlobalCacheAdaptor.ServerAdaptor.MsgModule
import GlobalCacheAdaptor.ServerAdaptor.ObjectName

/-!
# Taking one message off a queue

`processOpReq` converts the message at the head of a worker's batch, after `network_module.cpp`,
and `drain` is the inner loop of `OpHandlerThread` over a whole batch. What a worker does to the
outside is recorded as a list of `Effect`s, so that who answers a message can be counted.
-/

namespace GlobalCacheAdaptor.ServerAdaptor

open Lib

/-! ## Effects of a worker -/

/-- The calls that move the QoS counters. -/
inductive CounterCall where
  | getlwtCas (c : BitVec 32) | putlwtCas
  | getWritelwtCas (c : BitVec 32) | putWritelwtCas
  | getReadlwtCas (c : BitVec 32) | putReadlwtCas
  | getWriteBWCas (c : BitVec 64) | putWriteBWCas (c : BitVec 64)
  | getReadBWCas (c : BitVec 64) | putReadBWCas (c : BitVec 64)
  deriving DecidableEq, Repr

/-- What handling a message does to the outside. -/
inductive Effect where
  /-- `con->send_message(reply)` with this result code. -/
  | sendMessage (r : Int)
  /-- `ptr->put()`: the message's reference is dropped. -/
  | putMessage
  | counter (call : CounterCall)
  /-- Wait until `copyupFlag` is not 1. -/
  | waitCopyup
  /-- `copyupFlag = 1`, and the request points at the flag. -/
  | setCopyup
  | doOneOps (opreq : SaOpReq)

/-- The counter calls at the end of `FinishCacheOps`. -/
def releaseCalls (optionType : OptionType) (optionLength : BitVec 64) : List CounterCall :=
  (match optionType with
    | .gcacheWrite => [.putWriteBWCas optionLength, .putWritelwtCas]
    | .gcacheRead => [.putReadBWCas optionLength, .putReadlwtCas]
    | .gcacheDefault => []) ++ [.putlwtCas]

/-- `FinishCacheOps` on a message that is not null. -/
def finishCacheOps (optionType : OptionType) (optionLength : BitVec 64) (r : Int) : List Effect :=
  [.sendMessage r, .putMessage] ++ (releaseCalls optionType optionLength).map .counter

/-- The counter calls of the drain loop before a request is dispatched. -/
def admitCalls (optionType : OptionType) (optionLength : BitVec 64) : List CounterCall :=
  [.getlwtCas 1] ++
    (match optionType with
      | .gcacheWrite => [.getWritelwtCas 1, .getWriteBWCas optionLength]
      | .gcacheRead => [.getReadlwtCas 1, .getReadBWCas optionLength]
      | .gcacheDefault => [])

/-! ## `ProcessOpReq` -/

/-- The fields of the request that are copied from the message. -/
def requestHeader (op : MOSDOp) : SaOpReq :=
  { tid := op.tid
    snapId := op.snapid
    poolId := op.pool &&& 0xFFFFFFFF
    ptVersion := op.pool.sshiftRight 32
    opsSequence := op.seq
    ptId := op.seed
    snapSeq := op.snapSeq
    snaps := op.snaps }

/-- The locals of the conversion loop that outlive one round. -/
structure LoopState where
  vecOps : List OpRequestOps := []
  exitsCopyUp : Bool := false
  optionType : OptionsType := {}
  optionLength : OptionsLength := {}

/-- The request op a round starts from, or `none` for the `poolId overflow` exit. -/
def newOneOp (name : Bytes) (sections : List Bytes) (isRbd : Bool) : Option OpRequestOps :=
  let oneOp : OpRequestOps := { opSubType := .other 0, objName := cStr name }
  if isRbd then
    match rbdObjId sections with
    | none => none
    | some objId => some { oneOp with isRbd := isRbd, rbdObjId := objId }
  else some oneOp

/-- The loop of `ProcessOpReq` over the ops of a message; `none` is its `return -1`. -/
def convertOps (name : Bytes) (sections : List Bytes) (isRbd : Bool) :
    List OSDOp → LoopState → Except BufferError (Option LoopState)
  | [], st => .ok (some st)
  | i :: rest, st =>
      match newOneOp name sections isRbd with
      | none => .ok none
      | some oneOp =>
          match convertClientopToOpreq i oneOp st.optionType st.optionLength with
          | .error e => .error e
          | .ok converted =>
              convertOps name sections isRbd rest
                { vecOps := st.vecOps ++ [converted.oneOp]
                  exitsCopyUp := st.exitsCopyUp || converted.ret = 1
                  optionType := converted.optionType
                  optionLength := converted.optionLength }

/-- What `ProcessOpReq` leaves: its return code, the request and its own effects. -/
structure Processed where
  ret : Int
  opreq : SaOpReq
  effects : List Effect

/-- The request after the conversion loop: a message with a write op counts as a write. -/
def completeRequest (op : MOSDOp) (st : LoopState) : SaOpReq :=
  { requestHeader op with
    vecOps := st.vecOps
    exitsCopyUp := st.exitsCopyUp
    optionType := if st.optionType.write = 0 then .gcacheRead else .gcacheWrite
    optionLength :=
      if st.optionType.write = 0 then st.optionLength.read else st.optionLength.write }

/-- `NetworkModule::ProcessOpReq` on the message it popped. -/
def processOpReq (op : MOSDOp) : Except BufferError Processed :=
  let opreq := requestHeader op
  let vecObj := strtok op.oid
  if hasRbdMark vecObj ∧ vecObj.length < 3 then
    -- the message is answered here, before any counter was taken for it
    .ok ⟨1, opreq, finishCacheOps opreq.optionType opreq.optionLength einval⟩
  else
    match convertOps op.oid vecObj (hasRbdMark vecObj) op.ops {} with
    | .error e => .error e
    -- the `poolId overflow` exit neither answers nor releases the message
    | .ok none => .ok ⟨-1, opreq, []⟩
    | .ok (some st) => .ok ⟨0, completeRequest op st, []⟩

/-! ## The drain loop -/

/-- The effects of a request that passed `ProcessOpReq`. -/
def dispatch (opreq : SaOpReq) : List Effect :=
  (admitCalls opreq.optionType opreq.optionLength).map .counter ++
    .waitCopyup :: (if opreq.exitsCopyUp then [.setCopyup] else []) ++ [.doOneOps opreq]

/-- One round of the drain loop of `OpHandlerThread`. -/
def drainOne (op : MOSDOp) : Except BufferError (List Effect) :=
  match processOpReq op with
  | .error e => .error e
  | .ok processed =>
      if processed.ret ≠ 0 then .ok processed.effects
      else .ok (processed.effects ++ dispatch processed.opreq)

/-- The drain loop over a batch: the outcome of each message it pops. An exception leaves the
worker thread, so nothing is popped after it. -/
def drain : List MOSDOp → List (Except BufferError (List Effect))
  | [] => []
  | op :: batch =>
      match drainOne op with
      | .error e => [.error e]
      | .ok effects => .ok effects :: drain batch

/-! ## The exits of `ProcessOpReq` -/

/-- The message is dropped by the `poolId overflow` exit: it has an op to convert, and its name
carries a pool number of more than 32 bits. -/
def MOSDOp.PoolOverflow (op : MOSDOp) : Prop := op.ops ≠ [] ∧ poolOverflow op.oid = true

/-- A round starts from a request op unless the pool number of an RBD name overflows. -/
theorem newOneOp_eq_none_iff {name : Bytes} :
    newOneOp name (strtok name) (hasRbdMark (strtok name)) = none ↔ poolOverflow name = true := by
  unfold newOneOp
  by_cases hrbd : hasRbdMark (strtok name) = true
  · rw [if_pos hrbd, ← rbdObjId_eq_none_iff hrbd]
    cases rbdObjId (strtok name) <;> simp
  · simp [poolOverflow, hrbd]

/-- An overflowing pool number ends the loop in its first round, before any conversion. -/
theorem convertOps_of_poolOverflow {op : MOSDOp} (h : op.PoolOverflow) (st : LoopState) :
    convertOps op.oid (strtok op.oid) (hasRbdMark (strtok op.oid)) op.ops st = .ok none := by
  obtain ⟨hops, hpool⟩ := h
  obtain ⟨i, rest, hcons⟩ := List.exists_cons_of_ne_nil hops
  rw [hcons, convertOps, newOneOp_eq_none_iff.mpr hpool]

/-- Without an overflow the loop never takes the `return -1` exit. -/
theorem convertOps_ne_none {name : Bytes} (hpool : poolOverflow name = false) (ops : List OSDOp)
    (st : LoopState) :
    convertOps name (strtok name) (hasRbdMark (strtok name)) ops st ≠ .ok none := by
  induction ops generalizing st with
  | nil => simp [convertOps]
  | cons i rest ih =>
      rw [convertOps]
      cases hnew : newOneOp name (strtok name) (hasRbdMark (strtok name)) with
      | none =>
          rw [newOneOp_eq_none_iff.mp hnew] at hpool
          cases hpool
      | some oneOp =>
          cases hi : convertClientopToOpreq i oneOp st.optionType st.optionLength with
          | error e => simp only [hi, ne_eq, reduceCtorEq, not_false_eq_true]
          | ok converted =>
              simp only [hi]
              exact ih _

/-- Without an overflow the loop raises nothing exactly when every op is well formed. -/
theorem convertOps_ok_iff {name : Bytes} (hpool : poolOverflow name = false) (ops : List OSDOp)
    (st : LoopState) :
    (∃ r, convertOps name (strtok name) (hasRbdMark (strtok name)) ops st = .ok r) ↔
      ∀ i ∈ ops, i.WellFormed := by
  induction ops generalizing st with
  | nil => simp [convertOps]
  | cons i rest ih =>
      rw [convertOps, List.forall_mem_cons]
      cases hnew : newOneOp name (strtok name) (hasRbdMark (strtok name)) with
      | none =>
          rw [newOneOp_eq_none_iff.mp hnew] at hpool
          cases hpool
      | some oneOp =>
          have hconv := convert_ok_iff i oneOp st.optionType st.optionLength
          cases hi : convertClientopToOpreq i oneOp st.optionType st.optionLength with
          | error e =>
              have hwf : ¬ i.WellFormed := by simpa [hi] using hconv
              simp only [hi, reduceCtorEq, exists_false, hwf, false_and]
          | ok converted =>
              have hwf : i.WellFormed := hconv.mp ⟨_, hi⟩
              simp only [hi, hwf, true_and]
              exact ih _

/-- The short-name test of `ProcessOpReq`. -/
theorem shortRbdName_iff {name : Bytes} :
    (hasRbdMark (strtok name) = true ∧ (strtok name).length < 3) ↔ shortRbdName name = true := by
  simp [shortRbdName]

/-- A short RBD name is answered with `-EINVAL` at once. -/
theorem processOpReq_of_short {op : MOSDOp} (h : shortRbdName op.oid = true) :
    processOpReq op = .ok ⟨1, requestHeader op, finishCacheOps .gcacheDefault 0 einval⟩ := by
  unfold processOpReq
  rw [if_pos (shortRbdName_iff.mpr h)]
  rfl

/-- Any other name goes to the conversion loop. -/
theorem processOpReq_of_not_short {op : MOSDOp} (h : shortRbdName op.oid = false) :
    processOpReq op =
      match convertOps op.oid (strtok op.oid) (hasRbdMark (strtok op.oid)) op.ops {} with
      | .error e => .error e
      | .ok none => .ok ⟨-1, requestHeader op, []⟩
      | .ok (some st) => .ok ⟨0, completeRequest op st, []⟩ := by
  unfold processOpReq
  rw [if_neg]
  rw [shortRbdName_iff, h]
  simp

/-- An overflowing pool number makes `ProcessOpReq` return -1 without an effect. -/
theorem processOpReq_of_poolOverflow {op : MOSDOp} (h : op.PoolOverflow) :
    processOpReq op = .ok ⟨-1, requestHeader op, []⟩ := by
  rw [processOpReq_of_not_short (not_short_of_poolOverflow h.2), convertOps_of_poolOverflow h]

/-- A message that is neither short-named nor oversized, and that raises nothing, becomes a
request of its own, classified as a write or a read. -/
theorem processOpReq_of_converted {op : MOSDOp} {processed : Processed}
    (hshort : shortRbdName op.oid = false) (hpool : ¬ op.PoolOverflow)
    (h : processOpReq op = .ok processed) :
    ∃ st, processed = ⟨0, completeRequest op st, []⟩ := by
  rw [processOpReq_of_not_short hshort] at h
  cases hconv : convertOps op.oid (strtok op.oid) (hasRbdMark (strtok op.oid)) op.ops {} with
  | error e =>
      rw [hconv] at h
      cases h
  | ok result =>
      rw [hconv] at h
      cases result with
      | some st =>
          simp only [Except.ok.injEq] at h
          exact ⟨st, h.symm⟩
      | none =>
          have hnil : op.ops ≠ [] := by
            intro hops
            simp [hops, convertOps] at hconv
          have hover : poolOverflow op.oid = true := by
            by_contra hne
            exact convertOps_ne_none (by simpa using hne) _ _ hconv
          exact absurd ⟨hnil, hover⟩ hpool

/-! ## Buffer errors -/

/-- `ProcessOpReq` lets no buffer error escape exactly on the messages whose name is rejected
before the conversion and on those whose every op is well formed. -/
theorem processOpReq_returns_iff (op : MOSDOp) :
    (∃ processed, processOpReq op = .ok processed) ↔
      shortRbdName op.oid = true ∨ op.PoolOverflow ∨ ∀ i ∈ op.ops, i.WellFormed := by
  by_cases hshort : shortRbdName op.oid = true
  · exact iff_of_true ⟨_, processOpReq_of_short hshort⟩ (.inl hshort)
  by_cases hpool : op.PoolOverflow
  · exact iff_of_true ⟨_, processOpReq_of_poolOverflow hpool⟩ (.inr (.inl hpool))
  simp only [hshort, hpool, false_or]
  rw [processOpReq_of_not_short (by simpa using hshort)]
  by_cases hops : op.ops = []
  · simp [hops, convertOps]
  have hname : poolOverflow op.oid = false := by
    by_contra hne
    exact hpool ⟨hops, by simpa using hne⟩
  rw [← convertOps_ok_iff hname op.ops {}]
  cases convertOps op.oid (strtok op.oid) (hasRbdMark (strtok op.oid)) op.ops {} with
  | error e => simp
  | ok result => cases result <;> simp

/-- A `GETXATTR` of a one-byte name with an empty buffer. -/
def truncatedGetXattr : MOSDOp :=
  { oid := ascii "rbd_header.1", ops := [{ op := { op := .getXattr, nameLen := 1 } }] }

/-- A buffer error escapes `ProcessOpReq` on a truncated attribute name. -/
theorem processOpReq_truncatedGetXattr :
    processOpReq truncatedGetXattr = .error .endOfBuffer := by
  rfl

/-! ## Who answers a message -/

/-- The number of replies sent. -/
def replies (effects : List Effect) : Nat :=
  effects.countP fun | .sendMessage _ => true | _ => false

/-- The number of references dropped. -/
def puts (effects : List Effect) : Nat :=
  effects.countP fun | .putMessage => true | _ => false

/-- The number of requests handed to the back end. -/
def dispatches (effects : List Effect) : Nat :=
  effects.countP fun | .doOneOps _ => true | _ => false

/-- The message went to the back end once, or was answered once and released once. -/
def HandledOnce (effects : List Effect) : Prop :=
  (dispatches effects = 1 ∧ replies effects = 0 ∧ puts effects = 0) ∨
    (dispatches effects = 0 ∧ replies effects = 1 ∧ puts effects = 1)

/-- `FinishCacheOps` sends one reply and drops one reference. -/
theorem handledOnce_finishCacheOps (optionType : OptionType) (optionLength : BitVec 64) (r : Int) :
    HandledOnce (finishCacheOps optionType optionLength r) := by
  right
  cases optionType <;> exact ⟨rfl, rfl, rfl⟩

/-- A converted request is handed over once and not answered. -/
theorem handledOnce_dispatch (opreq : SaOpReq) : HandledOnce (dispatch opreq) := by
  left
  unfold dispatch
  cases opreq.optionType <;> cases opreq.exitsCopyUp <;> exact ⟨rfl, rfl, rfl⟩

/-- A message whose conversion returns is handled once exactly when its pool number fits. -/
theorem drainOne_handledOnce_iff {op : MOSDOp} {effects : List Effect}
    (h : drainOne op = .ok effects) : HandledOnce effects ↔ ¬ op.PoolOverflow := by
  unfold drainOne at h
  by_cases hpool : op.PoolOverflow
  · rw [processOpReq_of_poolOverflow hpool] at h
    cases h
    simp [HandledOnce, dispatches, replies, hpool]
  by_cases hshort : shortRbdName op.oid = true
  · rw [processOpReq_of_short hshort] at h
    cases h
    exact iff_of_true (handledOnce_finishCacheOps _ _ _) hpool
  cases hprocess : processOpReq op with
  | error e =>
      rw [hprocess] at h
      cases h
  | ok processed =>
      rw [hprocess] at h
      obtain ⟨st, rfl⟩ := processOpReq_of_converted (by simpa using hshort) hpool hprocess
      cases h
      exact iff_of_true (handledOnce_dispatch _) hpool

/-- The outcome of a popped message is that of its own round. -/
theorem drain_getElem? {batch : List MOSDOp} {i : Nat} {op : MOSDOp}
    {outcome : Except BufferError (List Effect)} (hop : batch[i]? = some op)
    (h : (drain batch)[i]? = some outcome) : outcome = drainOne op := by
  induction batch generalizing i with
  | nil => simp at hop
  | cons first rest ih =>
      rw [drain] at h
      cases i with
      | zero =>
          simp only [List.getElem?_cons_zero, Option.some.injEq] at hop
          subst hop
          cases hfirst : drainOne first <;> simpa [hfirst] using h.symm
      | succ i =>
          cases hfirst : drainOne first with
          | error e => simp [hfirst] at h
          | ok effects => exact ih (by simpa using hop) (by simpa [hfirst] using h)

/-- In every batch, a popped message for which `ProcessOpReq` returns is handed to the back end
once or answered once, and not both, exactly when its pool number fits 32 bits. -/
theorem drain_handles_each_once_iff {batch : List MOSDOp} {i : Nat} {op : MOSDOp}
    {effects : List Effect} (hop : batch[i]? = some op)
    (h : (drain batch)[i]? = some (.ok effects)) :
    HandledOnce effects ↔ ¬ op.PoolOverflow :=
  drainOne_handledOnce_iff (drain_getElem? hop h).symm

/-- A read of an RBD data object whose pool number is 2^32. -/
def oversizedPool : MOSDOp :=
  { oid := ascii "rbd_data.4294967296.10226b8b4567.0000000000000001",
    ops := [{ op := { op := .read } }] }

/-- The same object in a pool whose number fits. -/
def fittingPool : MOSDOp :=
  { oid := ascii "rbd_data.4294967295.10226b8b4567.0000000000000001",
    ops := [{ op := { op := .read } }] }

/-- Two messages of one batch: the second is dropped, the first is not. -/
theorem drain_fitting_oversized :
    (∃ effects, (drain [fittingPool, oversizedPool])[0]? = some (.ok effects) ∧
      (HandledOnce effects ↔ ¬ fittingPool.PoolOverflow)) ∧
    (∃ effects, (drain [fittingPool, oversizedPool])[1]? = some (.ok effects) ∧
      (HandledOnce effects ↔ ¬ oversizedPool.PoolOverflow)) :=
  ⟨⟨_, rfl, @drain_handles_each_once_iff [fittingPool, oversizedPool] 0 _ _ rfl rfl⟩,
    ⟨_, rfl, @drain_handles_each_once_iff [fittingPool, oversizedPool] 1 _ _ rfl rfl⟩⟩

/-- A message with an oversized pool number is popped and neither handed over nor answered. -/
theorem drain_oversizedPool :
    (drain [oversizedPool])[0]? = some (.ok []) ∧ ¬ HandledOnce [] := by
  refine ⟨rfl, ?_⟩
  simp [HandledOnce, dispatches, replies]

end GlobalCacheAdaptor.ServerAdaptor
