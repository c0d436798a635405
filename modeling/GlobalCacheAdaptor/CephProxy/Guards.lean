import GlobalCacheAdaptor.CephProxy.RadosWrapper
import GlobalCacheAdaptor.Lib.OrdMap

/-!
# Guards

A guard makes an operation fail unless the object is as the caller expects. Five guards can be put
into a write op and into a read op, and each of them is written twice, once for either kind.
`guardsAgree_iff` says when the two leave the same guards in librados and these carry the arguments
of their calls: the write side of `omap_cmp` gives librados a map that it never fills.
-/

namespace GlobalCacheAdaptor.CephProxy

open Lib

/-! ## The calls -/

/-- A guard as librados records it; `prval` is the address of the caller's result. -/
inductive Guard where
  | assertExists
  | assertVersion (ver : BitVec 64)
  | cmpext (off : BitVec 64) (cmpBl : Bytes) (prval : Nat)
  | cmpxattr (name : CString) (op : BitVec 8) (value : Bytes)
  | omapCmp (assertions : OrdMap Bytes (Bytes × BitVec 32)) (prval : Nat)

/-- `RadosWriteOpAssertExists`. -/
def radosWriteOpAssertExists (op : List Guard) : List Guard := op ++ [.assertExists]

/-- `RadosWriteOpAssertVersion`. -/
def radosWriteOpAssertVersion (op : List Guard) (ver : BitVec 64) : List Guard :=
  op ++ [.assertVersion ver]

/-- `RadosWriteOpCmpext`. -/
def radosWriteOpCmpext (op : List Guard) (cmpBuf : Bytes) (cmpLen : Nat) (off : BitVec 64)
    (prval : Nat) : List Guard :=
  op ++ [.cmpext off (cutBuffer cmpBuf cmpLen) prval]

/-- `RadosWriteOpCmpXattr`. -/
def radosWriteOpCmpXattr (op : List Guard) (name : CString) (compOperator : BitVec 8)
    (value : Bytes) (valLen : Nat) : List Guard :=
  op ++ [.cmpxattr name compOperator (cutBuffer value valLen)]

/-- `RadosWriteOpOmapCmp`. -/
def radosWriteOpOmapCmp (op : List Guard) (_key : CString) (_compOperator : BitVec 8)
    (_value : Bytes) (_valLen prval : Nat) : List Guard :=
  -- the key and the value are copied, and neither they nor the operator get into the map
  op ++ [.omapCmp OrdMap.empty prval]

/-- `RadosReadOpAssertExists`. -/
def radosReadOpAssertExists (op : List Guard) : List Guard := op ++ [.assertExists]

/-- `RadosReadOpAssertVersion`. -/
def radosReadOpAssertVersion (op : List Guard) (ver : BitVec 64) : List Guard :=
  op ++ [.assertVersion ver]

/-- `RadosReadOpCmpext`. -/
def radosReadOpCmpext (op : List Guard) (cmpBuf : Bytes) (cmpLen : Nat) (off : BitVec 64)
    (prval : Nat) : List Guard :=
  op ++ [.cmpext off (cutBuffer cmpBuf cmpLen) prval]

/-- `RadosReadOpCmpXattr`. -/
def radosReadOpCmpXattr (op : List Guard) (name : CString) (compOperator : BitVec 8)
    (value : Bytes) (valueLen : Nat) : List Guard :=
  op ++ [.cmpxattr name compOperator (cutBuffer value valueLen)]

/-- `RadosReadOpOmapCmp`. -/
def radosReadOpOmapCmp (op : List Guard) (key : CString) (compOperator : BitVec 8)
    (val : Bytes) (valLen prval : Nat) : List Guard :=
  let bl := cutBuffer val valLen
  op ++ [.omapCmp (OrdMap.empty.insert key.val (bl, compOperator.setWidth 32)) prval]

/-- A guard call: a value is the bytes its pointer points at, as many as its length says. -/
inductive GuardCall where
  | assertExists
  | assertVersion (ver : BitVec 64)
  | cmpext (cmpBuf : Bytes) (off : BitVec 64) (prval : Nat)
  | cmpXattr (name : CString) (compOperator : BitVec 8) (value : Bytes)
  | omapCmp (key : CString) (compOperator : BitVec 8) (value : Bytes) (prval : Nat)

/-- The call made through the `RadosWriteOp` functions. -/
def GuardCall.onWriteOp (op : List Guard) : GuardCall → List Guard
  | .assertExists => radosWriteOpAssertExists op
  | .assertVersion ver => radosWriteOpAssertVersion op ver
  | .cmpext cmpBuf off prval => radosWriteOpCmpext op cmpBuf cmpBuf.length off prval
  | .cmpXattr name compOperator value =>
      radosWriteOpCmpXattr op name compOperator value value.length
  | .omapCmp key compOperator value prval =>
      radosWriteOpOmapCmp op key compOperator value value.length prval

/-- The call made through the `RadosReadOp` functions. -/
def GuardCall.onReadOp (op : List Guard) : GuardCall → List Guard
  | .assertExists => radosReadOpAssertExists op
  | .assertVersion ver => radosReadOpAssertVersion op ver
  | .cmpext cmpBuf off prval => radosReadOpCmpext op cmpBuf cmpBuf.length off prval
  | .cmpXattr name compOperator value =>
      radosReadOpCmpXattr op name compOperator value value.length
  | .omapCmp key compOperator value prval =>
      radosReadOpOmapCmp op key compOperator value value.length prval

/-- The guards that a sequence of calls leaves in a new write op. -/
def writeGuards (calls : List GuardCall) : List Guard := calls.foldl GuardCall.onWriteOp []

/-- The guards that a sequence of calls leaves in a new read op. -/
def readGuards (calls : List GuardCall) : List Guard := calls.foldl GuardCall.onReadOp []

/-! ## Agreement -/

/-- The guard that carries the arguments of a call. -/
def GuardCall.guard : GuardCall → Guard
  | .assertExists => .assertExists
  | .assertVersion ver => .assertVersion ver
  | .cmpext cmpBuf off prval => .cmpext off cmpBuf prval
  | .cmpXattr name compOperator value => .cmpxattr name compOperator value
  | .omapCmp key compOperator value prval =>
      .omapCmp (OrdMap.empty.insert key.val (value, compOperator.setWidth 32)) prval

/-- Both kinds of op record the same guards, one for each call, and the guard of a call carries its
arguments. -/
def GuardsAgree (calls : List GuardCall) : Prop :=
  writeGuards calls = readGuards calls ∧ (writeGuards calls).length = calls.length ∧
    ∀ (k : Nat) (call : GuardCall), calls[k]? = some call →
      (writeGuards calls)[k]? = some call.guard

/-- The call compares no omap value, and its value has less than 2^32 bytes. -/
def GuardCall.Recorded : GuardCall → Prop
  | .assertExists | .assertVersion _ => True
  | .cmpext value _ _ | .cmpXattr _ _ value => value.length < 2 ^ 32
  | .omapCmp .. => False

/-- What a call leaves in a write op. -/
def GuardCall.writeGuard : GuardCall → Guard
  | .assertExists => .assertExists
  | .assertVersion ver => .assertVersion ver
  | .cmpext cmpBuf off prval => .cmpext off (cutBuffer cmpBuf cmpBuf.length) prval
  | .cmpXattr name compOperator value =>
      .cmpxattr name compOperator (cutBuffer value value.length)
  | .omapCmp _ _ _ prval => .omapCmp OrdMap.empty prval

/-- What a call leaves in a read op. -/
def GuardCall.readGuard : GuardCall → Guard
  | .assertExists => .assertExists
  | .assertVersion ver => .assertVersion ver
  | .cmpext cmpBuf off prval => .cmpext off (cutBuffer cmpBuf cmpBuf.length) prval
  | .cmpXattr name compOperator value =>
      .cmpxattr name compOperator (cutBuffer value value.length)
  | .omapCmp key compOperator value prval =>
      .omapCmp (OrdMap.empty.insert key.val
        (cutBuffer value value.length, compOperator.setWidth 32)) prval

/-- A call adds its guard at the end of a write op. -/
theorem onWriteOp_eq (op : List Guard) (call : GuardCall) :
    call.onWriteOp op = op ++ [call.writeGuard] := by
  cases call <;> rfl

/-- A call adds its guard at the end of a read op. -/
theorem onReadOp_eq (op : List Guard) (call : GuardCall) :
    call.onReadOp op = op ++ [call.readGuard] := by
  cases call <;> rfl

/-- Steps that add one guard each add the guards of a sequence of calls in order. -/
theorem foldl_guards {step : List Guard → GuardCall → List Guard} {guard : GuardCall → Guard}
    (hstep : ∀ op call, step op call = op ++ [guard call]) (calls : List GuardCall)
    (op : List Guard) : calls.foldl step op = op ++ calls.map guard := by
  induction calls generalizing op with
  | nil => rw [List.foldl_nil, List.map_nil, List.append_nil]
  | cons call rest ih =>
      rw [List.foldl_cons, hstep, ih, List.append_assoc]
      rfl

/-- The guards of a write op. -/
theorem writeGuards_eq (calls : List GuardCall) :
    writeGuards calls = calls.map GuardCall.writeGuard :=
  foldl_guards onWriteOp_eq calls []

/-- The guards of a read op. -/
theorem readGuards_eq (calls : List GuardCall) :
    readGuards calls = calls.map GuardCall.readGuard :=
  foldl_guards onReadOp_eq calls []

/-- A bufferlist holds a whole buffer exactly when its length fits 32 bits. -/
theorem cutBuffer_eq_self_iff (value : Bytes) :
    cutBuffer value value.length = value ↔ value.length < 2 ^ 32 := by
  rw [cutBuffer, List.take_eq_self_iff]
  have hmod := Nat.mod_lt value.length (show 0 < 2 ^ 32 from by decide)
  constructor
  · intro h
    exact h.trans_lt hmod
  · intro h
    rw [Nat.mod_eq_of_lt h]

/-- A map with one entry is not the empty one. -/
theorem empty_ne_insert (key : Bytes) (assertion : Bytes × BitVec 32) :
    (OrdMap.empty : OrdMap Bytes (Bytes × BitVec 32)) ≠ OrdMap.empty.insert key assertion := by
  intro h
  have hfind := congrArg (fun assertions => assertions.find? key) h
  rw [OrdMap.find?_insert, if_pos rfl] at hfind
  exact absurd hfind (by simp [OrdMap.find?, OrdMap.empty])

/-- What a call leaves in the two kinds of op is the guard of the call exactly when it compares no
omap value and its value fits a bufferlist. -/
theorem recorded_iff (call : GuardCall) :
    call.writeGuard = call.readGuard ∧ call.writeGuard = call.guard ↔ call.Recorded := by
  cases call with
  | assertExists | assertVersion ver =>
      simp [GuardCall.writeGuard, GuardCall.readGuard, GuardCall.guard, GuardCall.Recorded]
  | cmpext cmpBuf off prval =>
      simp [GuardCall.writeGuard, GuardCall.readGuard, GuardCall.guard, GuardCall.Recorded,
        cutBuffer_eq_self_iff]
  | cmpXattr name compOperator value =>
      simp [GuardCall.writeGuard, GuardCall.readGuard, GuardCall.guard, GuardCall.Recorded,
        cutBuffer_eq_self_iff]
  | omapCmp key compOperator value prval =>
      simp [GuardCall.writeGuard, GuardCall.guard, GuardCall.Recorded, empty_ne_insert]

/-- The guards of every sequence of calls agree exactly when no call compares an omap value and
every compared value has less than 2^32 bytes. -/
theorem guardsAgree_iff (calls : List GuardCall) :
    GuardsAgree calls ↔ ∀ call ∈ calls, call.Recorded := by
  rw [GuardsAgree, writeGuards_eq, readGuards_eq, List.map_inj_left]
  constructor
  · intro h call hcall
    obtain ⟨hsame, -, hguard⟩ := h
    obtain ⟨k, hk⟩ := List.getElem?_of_mem hcall
    have hcarries := hguard k call hk
    rw [List.getElem?_map, hk, Option.map_some, Option.some.injEq] at hcarries
    exact (recorded_iff call).mp ⟨hsame call hcall, hcarries⟩
  · intro h
    refine ⟨fun call hcall => ((recorded_iff call).mpr (h call hcall)).1, List.length_map _, ?_⟩
    intro k call hk
    have hcall := List.mem_of_getElem? hk
    rw [List.getElem?_map, hk, Option.map_some,
      ((recorded_iff call).mpr (h call hcall)).2]

/-- A guard that a key has a value: `CMPXATTR_OP_EQ` is 1. -/
def lockedByMe : GuardCall :=
  .omapCmp ⟨ascii "lock", by decide⟩ 1 (ascii "me") 0

/-- A write op records no key for an omap comparison, and a read op does. -/
theorem not_guardsAgree_omapCmp :
    writeGuards [lockedByMe] = [.omapCmp OrdMap.empty 0] ∧
    readGuards [lockedByMe] =
      [.omapCmp (OrdMap.empty.insert (ascii "lock") (ascii "me", 1)) 0] ∧
    ¬GuardsAgree [lockedByMe] := by
  refine ⟨rfl, rfl, fun h => ?_⟩
  obtain ⟨hsame, -⟩ := h
  injection hsame with hguard
  injection hguard with hassertions
  exact empty_ne_insert _ _ hassertions

end GlobalCacheAdaptor.CephProxy
