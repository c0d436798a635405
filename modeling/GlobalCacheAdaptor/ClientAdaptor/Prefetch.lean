import GlobalCacheAdaptor.ClientAdaptor.NodeId
import GlobalCacheAdaptor.Lib.Extents
import GlobalCacheAdaptor.ServerAdaptor.ExecClass
import Mathlib.Data.List.TakeWhile

/-!
# Prefetch requests

The access-pattern module hands a range of an image to `das_req_prefetch`, which cuts it at the
object boundaries and pushes one class call for each object. The server reads the object number
from the object name, and offset and length from the input of the call, into 32-bit fields
(`PrefetchOf`). `prefetch_tiles_range` says that the calls received tile the range asked for.
-/

namespace GlobalCacheAdaptor.ClientAdaptor

open Lib ServerAdaptor

/-! ## `das_req_prefetch` -/

/-- `SEGMENT_SIZE`: the bytes of one object. -/
def segmentSize : Nat := 4194304

/-- `SEGMENT_MASK`. -/
def segmentMask : BitVec 64 := 0x3FFFFF

/-- `OBJECT_ID_LEN`. -/
def objectIdLen : Nat := 16

/-- `DasKvParam`: the range to prefetch. `imageIdBuf` is the memory from the start of the image id
on, and `ctx` the objecter, 0 for a null pointer. -/
structure DasKvParam where
  offset : BitVec 64
  len : BitVec 64
  cephPoolId : BitVec 64
  objId : BitVec 64
  imageIdLen : BitVec 32
  clusterId : Nat
  ctx : Nat
  imageIdBuf : Bytes

/-- The buffer starts with an image id of the announced length. -/
def DasKvParam.HoldsImageId (params : DasKvParam) : Prop :=
  params.imageIdLen.toNat ≤ (cStr params.imageIdBuf).length

/-- A digit as `%x` prints it. -/
def hexDigit (d : Nat) : Byte := if d < 10 then Fin.ofNat 256 (48 + d) else Fin.ofNat 256 (87 + d)

/-- The last `w` digits of a number in base 16. -/
def hexDigits : Nat → Nat → List Nat
  | 0, _ => []
  | w + 1, n => hexDigits w (n / 16) ++ [n % 16]

/-- What `%016x` prints for an `int`. -/
def printObjectId (id : BitVec 32) : Bytes := (hexDigits objectIdLen id.toNat).map hexDigit

/-- The name `das_req_prefetch` prints into its buffer and reads back as a C string: a short image
id leaves a zero byte in front of the number. -/
def oidName (params : DasKvParam) (id : BitVec 32) : Bytes :=
  let image := (cStr params.imageIdBuf).take params.imageIdLen.toNat
  if image.length < params.imageIdLen.toNat then image else image ++ printObjectId id

/-- The `Objecter::Op` that `push_strategy` submits. -/
structure PrefetchOp where
  oidName : Bytes
  pool : BitVec 64
  osd : Int
  ops : List OSDOp

/-- `encode(offset)` and `encode(max)`. -/
def encodeRange (offset max : BitVec 64) : Bytes :=
  (Format.u64.pair Format.u64).encode (offset.toNat, max.toNat)

/-- The input of a prefetch is two 64-bit integers. -/
theorem length_encodeRange (offset max : BitVec 64) : (encodeRange offset max).length = 16 := by
  simp [encodeRange, Format.pair, Format.u64, Format.le]

/-- The class call that carries a prefetch. -/
def prefetchCall (offset max : BitVec 64) : OSDOp where
  op :=
    { op := .call
      classLen := BitVec.ofNat 8 (ascii "rpc").length
      methodLen := BitVec.ofNat 8 (ascii "das_prefetch").length
      indataLen := BitVec.ofNat 32 (encodeRange offset max).length }
  indata :=
    { bytes := ascii "rpc" ++ (ascii "das_prefetch" ++ encodeRange offset max)
      length_lt := by
        rw [List.length_append, List.length_append, length_encodeRange]
        decide }

/-- `ClientAdaptorMsg::push_strategy`: the op it submits, if any. -/
def pushStrategy (ctx : Nat) (poolId : BitVec 64) (nodeId : Int) (oidName : Bytes)
    (call : OSDOp) : Option PrefetchOp :=
  if ctx = 0 then none
  else if oidName.length = 0 then none
  else if nodeId < 0 then none
  else some { oidName := oidName, pool := poolId, osd := nodeId, ops := [call] }

/-- The node of an object as the `int32_t` that `get_node_id` returns; `none` if it is negative. -/
def prefetchNode (view : CcmView) (params : DasKvParam) (id : BitVec 32) : Option Int :=
  match getNodeId view params.clusterId (oidName params id) params.cephPoolId.toInt with
  | .error _ => none
  | .ok (nodeId, _) => if nodeId.toInt < 0 then none else some nodeId.toInt

/-- What a call leaves: the ops submitted in order, and whether it ended in `ceph_abort`. -/
structure Prefetched where
  pushed : List PrefetchOp := []
  aborted : Bool := false

/-- The `while` loop of `das_req_prefetch`. The offset is inside an object in every round, so a
round takes at least one byte. -/
def prefetchLoop (view : CcmView) (params : DasKvParam) (offset : Fin segmentSize)
    (id : BitVec 32) (left : Nat) : Prefetched :=
  if left = 0 then {}
  else
    let max := min (segmentSize - offset) left
    match prefetchNode view params id with
    -- `get_node_id` failed, and `ceph_abort` ends the process
    | none => { aborted := true }
    | some nodeId =>
        let push := pushStrategy params.ctx params.cephPoolId nodeId (oidName params id)
          (prefetchCall (BitVec.ofNat 64 offset) (BitVec.ofNat 64 max))
        let rest := prefetchLoop view params ⟨0, offset.pos⟩ (id + 1) (left - max)
        { rest with pushed := push.toList ++ rest.pushed }
termination_by left
decreasing_by
  have := offset.isLt
  omega

/-- The masked offset is inside an object. -/
theorem and_segmentMask (offset : BitVec 64) :
    (offset &&& segmentMask).toNat = offset.toNat % segmentSize := by
  have hmask : segmentMask.toNat = 2 ^ 22 - 1 := by decide
  rw [BitVec.toNat_and, hmask, Nat.and_two_pow_sub_one_eq_mod]
  rfl

/-- `params->offset & SEGMENT_MASK`. -/
def firstOffset (params : DasKvParam) : Fin segmentSize :=
  ⟨(params.offset &&& segmentMask).toNat, by
    rw [and_segmentMask]
    exact Nat.mod_lt _ (by decide)⟩

/-- `das_req_prefetch`; `dasObjs` are the registered objecters. -/
def dasReqPrefetch (view : CcmView) (dasObjs : List Nat) (params : Option DasKvParam) :
    Prefetched :=
  match params with
  | none => {}
  | some params =>
      if params.ctx ∉ dasObjs then {}
      else prefetchLoop view params (firstOffset params) (params.objId.setWidth 32)
        params.len.toNat

/-! ## The object number in a name -/

/-- A printed digit reads back as the digit. -/
theorem digitValue_hexDigit {d : Nat} (h : d < 16) : digitValue (hexDigit d) = some d := by
  have hall : ∀ d < 16, digitValue (hexDigit d) = some d := by decide
  exact hall d h

/-- A printed digit is no blank, no sign and no hexadecimal mark. -/
theorem hexDigit_plain {d : Nat} (h : d < 16) :
    isSpace (hexDigit d) = false ∧ hexDigit d ≠ byteOf '-' ∧ hexDigit d ≠ byteOf '+' ∧
      hexDigit d ≠ byteOf 'x' ∧ hexDigit d ≠ byteOf 'X' := by
  have hall : ∀ d < 16, isSpace (hexDigit d) = false ∧ hexDigit d ≠ byteOf '-' ∧
      hexDigit d ≠ byteOf '+' ∧ hexDigit d ≠ byteOf 'x' ∧ hexDigit d ≠ byteOf 'X' := by
    decide
  exact hall d h

/-- A number has its digits below 16. -/
theorem lt_of_mem_hexDigits {w n d : Nat} (h : d ∈ hexDigits w n) : d < 16 := by
  induction w generalizing n with
  | zero => simp [hexDigits] at h
  | succ w ih =>
      rw [hexDigits, List.mem_append, List.mem_singleton] at h
      obtain h | rfl := h
      · exact ih h
      · exact Nat.mod_lt n (by decide)

/-- As many digits as asked for. -/
theorem length_hexDigits (w n : Nat) : (hexDigits w n).length = w := by
  induction w generalizing n with
  | zero => rfl
  | succ w ih => rw [hexDigits, List.length_append, ih, List.length_singleton]

/-- The digits of a number below `16 ^ w` have it as their value. -/
theorem value_hexDigits {w n : Nat} (h : n < 16 ^ w) :
    (hexDigits w n).foldl (fun acc d => acc * 16 + d) 0 = n := by
  induction w generalizing n with
  | zero =>
      rw [pow_zero, Nat.lt_one_iff] at h
      rw [h]
      rfl
  | succ w ih =>
      have hdiv : n / 16 < 16 ^ w := by
        rw [pow_succ] at h
        omega
      rw [hexDigits, List.foldl_append, ih hdiv]
      show n / 16 * 16 + n % 16 = n
      omega

/-- Printed digits are read up to the last one. -/
theorem digits_map_hexDigit {base : Nat} (hbase : base ≤ 16) {ds : List Nat}
    (h : ∀ d ∈ ds, d < base) : digits base (ds.map hexDigit) = ds := by
  induction ds with
  | nil => rfl
  | cons d ds ih =>
      rw [List.forall_mem_cons] at h
      rw [List.map_cons, digits, digitValue_hexDigit (by omega)]
      show (if d < base then d :: digits base (ds.map hexDigit) else []) = d :: ds
      rw [if_pos h.1, ih h.2]

/-- Nothing is skipped in front of printed digits. -/
theorem skip_map_hexDigit {ds : List Nat} (h : ∀ d ∈ ds, d < 16) :
    readSign ((ds.map hexDigit).dropWhile isSpace) = (false, ds.map hexDigit) ∧
      skipHexMark (ds.map hexDigit) = ds.map hexDigit := by
  cases ds with
  | nil => exact ⟨rfl, rfl⟩
  | cons d ds =>
      rw [List.forall_mem_cons] at h
      obtain ⟨hspace, hminus, hplus, -, -⟩ := hexDigit_plain h.1
      constructor
      · rw [List.map_cons, List.dropWhile_cons, hspace, if_neg Bool.false_ne_true, readSign,
          if_neg hminus, if_neg hplus]
      · cases ds with
        | nil => rfl
        | cons d' ds =>
            obtain ⟨-, -, -, hx, hX⟩ := hexDigit_plain (h.2 d' List.mem_cons_self)
            rw [List.map_cons, List.map_cons, skipHexMark, if_neg]
            intro hmark
            obtain hlower | hupper := hmark.2
            · exact hx hlower
            · exact hX hupper

/-- Printed digits read back as their value. -/
theorem strtoul_map_hexDigit {base : Nat} (hbase : base ≤ 16) {ds : List Nat}
    (h : ∀ d ∈ ds, d < base) (hlt : ds.foldl (fun acc d => acc * base + d) 0 < 2 ^ 64) :
    (strtoul base (ds.map hexDigit)).toNat = ds.foldl (fun acc d => acc * base + d) 0 := by
  have hdigits : ∀ d ∈ ds, d < 16 := fun d hd => Nat.lt_of_lt_of_le (h d hd) hbase
  obtain ⟨hsign, hmark⟩ := skip_map_hexDigit hdigits
  rw [strtoul, hsign]
  simp only [hmark, ite_self, digits_map_hexDigit hbase h, if_neg (Nat.not_le.mpr hlt),
    Bool.false_eq_true, if_false, BitVec.toNat_ofNat]
  exact Nat.mod_eq_of_lt hlt

/-- Sixteen digits read back as their number. -/
theorem strtoul_hexDigits {n : Nat} (h : n < 2 ^ 64) :
    (strtoul 16 ((hexDigits 16 n).map hexDigit)).toNat = n := by
  have hvalue : (hexDigits 16 n).foldl (fun acc d => acc * 16 + d) 0 = n :=
    value_hexDigits (show n < 16 ^ 16 by omega)
  rw [strtoul_map_hexDigit (Nat.le_refl 16) (fun _ => lt_of_mem_hexDigits)
    (by rw [hvalue]; exact h), hvalue]

/-- The printed object number reads back as the number. -/
theorem strtoul_printObjectId (id : BitVec 32) :
    (strtoul 16 (printObjectId id)).toNat = id.toNat :=
  strtoul_hexDigits (show id.toNat < 2 ^ 64 by omega)

/-- With an image id of the announced length, a name is the image id and the number. -/
theorem oidName_of_holds {params : DasKvParam} (h : params.HoldsImageId) (id : BitVec 32) :
    oidName params id =
      (cStr params.imageIdBuf).take params.imageIdLen.toNat ++ printObjectId id := by
  have hlen : ((cStr params.imageIdBuf).take params.imageIdLen.toNat).length =
      params.imageIdLen.toNat := List.length_take_of_le h
  unfold oidName
  rw [if_neg (by omega)]

/-! ## The call on the server -/

/-- The server runs the op as one prefetch of the extent, whatever its callbacks return: the name
carries the image id and the object number, and the prefetch callback is called with the offset
and the length. -/
structure PrefetchOf (params : DasKvParam) (op : PrefetchOp) (extent : Extent) : Prop where
  image : op.oidName.take params.imageIdLen.toNat =
    (cStr params.imageIdBuf).take params.imageIdLen.toNat
  object : (strtoul 16 (op.oidName.drop params.imageIdLen.toNat)).toNat = extent.object
  exec : ∃ call, op.ops = [call] ∧ ∀ env osdop, ∃ executed,
    osaExecClass env call osdop = .ok executed ∧
      executed.ret = env.prefetch executed.osdop.objOffset executed.osdop.objLength ∧
      executed.osdop.objOffset.toNat = extent.offset ∧
      executed.osdop.objLength.toNat = extent.length

/-- The strict parser finds the names and the input in a prefetch call. -/
theorem decodeCall_prefetchCall (offset max : BitVec 64) :
    decodeCall (prefetchCall offset max) (prefetchCall offset max).indata.bytes =
      .ok ((ascii "rpc", ascii "das_prefetch", encodeRange offset max), []) := by
  refine decodeCall_ok_iff.mpr ⟨rfl, rfl, ?_, ?_⟩
  · show _ = (BitVec.ofNat 32 (encodeRange offset max).length).toNat
    rw [length_encodeRange]
    rfl
  · rw [List.append_nil]
    rfl

/-- `OSA_ExecClass` calls the prefetch callback with the two encoded values, cut to 32 bits. -/
theorem osaExecClass_prefetchCall (env : ClassEnv) (osdop : OpRequestOps)
    (offset max : BitVec 64) :
    osaExecClass env (prefetchCall offset max) osdop =
      .ok { ret := env.prefetch (offset.setWidth 32) (max.setWidth 32)
            clientop := prefetchCall offset max
            osdop := { osdop with
              objOffset := offset.setWidth 32
              objLength := max.setWidth 32 } } := by
  have hdec : (Format.u64.pair Format.u64).decode (encodeRange offset max) =
      .ok ((offset.toNat, max.toNat), []) := by
    refine ((Format.u64.pair Format.u64).decode_iff _ _ _).mpr ⟨⟨?_, ?_⟩, ?_⟩
    · exact offset.isLt
    · exact max.isLt
    · rw [List.append_nil]
      rfl
  unfold osaExecClass
  rw [decodeCall_prefetchCall]
  show execNamedClass env (prefetchCall offset max) osdop (ascii "rpc") (ascii "das_prefetch")
    (encodeRange offset max) = _
  unfold execNamedClass
  rw [if_pos ⟨rfl, rfl⟩, hdec]
  simp only [BitVec.ofNat_toNat]

/-! ## The whole loop -/

/-- The object has a node in the cluster view. -/
def HasNode (view : CcmView) (params : DasKvParam) (object : Nat) : Bool :=
  (prefetchNode view params (BitVec.ofNat 32 object)).isSome

/-- An empty rest ends the loop. -/
theorem prefetchLoop_zero (view : CcmView) (params : DasKvParam) (offset : Fin segmentSize)
    (id : BitVec 32) : prefetchLoop view params offset id 0 = {} := by
  rw [prefetchLoop.eq_def, if_pos rfl]

/-- A round without a node aborts. -/
theorem prefetchLoop_abort {view : CcmView} {params : DasKvParam} {id : BitVec 32}
    (offset : Fin segmentSize) {left : Nat} (hleft : 0 < left)
    (hnode : prefetchNode view params id = none) :
    prefetchLoop view params offset id left = { aborted := true } := by
  rw [prefetchLoop.eq_def, if_neg (by omega), hnode]

/-- The op a round pushes for an object. -/
def roundOp (params : DasKvParam) (nodeId : Int) (id : BitVec 32) (offset max : Nat) :
    PrefetchOp where
  oidName := oidName params id
  pool := params.cephPoolId
  osd := nodeId
  ops := [prefetchCall (BitVec.ofNat 64 offset) (BitVec.ofNat 64 max)]

/-- A node is found only under a name that is not empty, and it is not negative. -/
theorem prefetchNode_some {view : CcmView} {params : DasKvParam} {id : BitVec 32} {nodeId : Int}
    (h : prefetchNode view params id = some nodeId) :
    0 ≤ nodeId ∧ (oidName params id).length ≠ 0 := by
  unfold prefetchNode at h
  by_cases hname : (oidName params id).length = 0
  · rw [getNodeId, if_pos hname] at h
    cases h
  · refine ⟨?_, hname⟩
    split at h
    · cases h
    · split_ifs at h with hneg
      cases h
      omega

/-- A round with a node pushes one op and goes on with the next object. -/
theorem prefetchLoop_push {view : CcmView} {params : DasKvParam} {id : BitVec 32} {nodeId : Int}
    (hctx : params.ctx ≠ 0) (offset : Fin segmentSize) {left : Nat} (hleft : 0 < left)
    (hnode : prefetchNode view params id = some nodeId) :
    prefetchLoop view params offset id left =
      { prefetchLoop view params ⟨0, offset.pos⟩ (id + 1)
          (left - min (segmentSize - offset) left) with
        pushed := roundOp params nodeId id offset (min (segmentSize - offset) left) ::
          (prefetchLoop view params ⟨0, offset.pos⟩ (id + 1)
            (left - min (segmentSize - offset) left)).pushed } := by
  obtain ⟨hpos, hname⟩ := prefetchNode_some hnode
  rw [prefetchLoop.eq_def, if_neg (by omega), hnode]
  simp only [pushStrategy, if_neg hctx, if_neg hname, if_neg (show ¬ nodeId < 0 by omega)]
  rfl

/-- The op of a round is a prefetch of its extent. -/
theorem prefetchOf_roundOp {params : DasKvParam} (himage : params.HoldsImageId) (nodeId : Int)
    {object offset max : Nat} (hobject : object < 2 ^ 31) (hfits : offset + max ≤ segmentSize) :
    PrefetchOf params (roundOp params nodeId (BitVec.ofNat 32 object) offset max)
      ⟨object, offset, max⟩ := by
  have hsize : segmentSize < 2 ^ 32 := by decide
  have hname := oidName_of_holds himage (BitVec.ofNat 32 object)
  have hlen : ((cStr params.imageIdBuf).take params.imageIdLen.toNat).length =
      params.imageIdLen.toNat := List.length_take_of_le himage
  refine ⟨?_, ?_, _, rfl, ?_⟩
  · show (oidName params (BitVec.ofNat 32 object)).take params.imageIdLen.toNat = _
    rw [hname, List.take_left' hlen]
  · show (strtoul 16 ((oidName params (BitVec.ofNat 32 object)).drop
      params.imageIdLen.toNat)).toNat = object
    rw [hname, List.drop_left' hlen, strtoul_printObjectId, BitVec.toNat_ofNat]
    omega
  · intro env osdop
    refine ⟨_, osaExecClass_prefetchCall env osdop _ _, rfl, ?_, ?_⟩
    · show ((BitVec.ofNat 64 offset).setWidth 32).toNat = offset
      rw [BitVec.toNat_setWidth, BitVec.toNat_ofNat]
      omega
    · show ((BitVec.ofNat 64 max).setWidth 32).toNat = max
      rw [BitVec.toNat_setWidth, BitVec.toNat_ofNat]
      omega

/-- The loop pushes prefetches of the pieces of what is left, up to the first object without a
node, where it aborts. -/
theorem prefetchLoop_pieces (view : CcmView) {params : DasKvParam} (hctx : params.ctx ≠ 0)
    (himage : params.HoldsImageId) (object : Nat) (offset : Fin segmentSize) (left : Nat)
    (hobjects : ∀ piece ∈ splitObjects segmentSize object offset left, piece.object < 2 ^ 31) :
    let pieces := splitObjects segmentSize object offset left
    let result := prefetchLoop view params offset (BitVec.ofNat 32 object) left
    List.Forall₂ (PrefetchOf params) result.pushed
        (pieces.takeWhile fun piece => HasNode view params piece.object) ∧
      result.aborted = !pieces.all fun piece => HasNode view params piece.object := by
  induction left using Nat.strongRecOn generalizing object offset with
  | ind left ih =>
      obtain rfl | hleft := Nat.eq_zero_or_pos left
      · rw [splitObjects_zero, prefetchLoop_zero]
        exact ⟨.nil, rfl⟩
      · have hlt := offset.isLt
        rw [splitObjects_pos object offset hleft] at hobjects ⊢
        rw [List.forall_mem_cons] at hobjects
        obtain ⟨hobject, hobjects⟩ := hobjects
        cases hnode : prefetchNode view params (BitVec.ofNat 32 object) with
        | none =>
            have hno : HasNode view params object = false := by rw [HasNode, hnode]; rfl
            rw [prefetchLoop_abort offset hleft hnode]
            simp only [List.takeWhile_cons, List.all_cons, hno, Bool.false_eq_true, if_false,
              Bool.false_and]
            exact ⟨.nil, rfl⟩
        | some nodeId =>
            have hyes : HasNode view params object = true := by rw [HasNode, hnode]; rfl
            have hnext : BitVec.ofNat 32 object + 1 = BitVec.ofNat 32 (object + 1) :=
              (BitVec.ofNat_add object 1).symm
            obtain ⟨hpushed, haborted⟩ :=
              ih (left - min (segmentSize - offset) left) (by omega) (object + 1)
                ⟨0, offset.pos⟩ hobjects
            rw [prefetchLoop_push hctx offset hleft hnode, hnext]
            simp only [List.takeWhile_cons, List.all_cons, hyes, if_true, Bool.true_and]
            exact ⟨.cons (prefetchOf_roundOp himage nodeId hobject (by omega)) hpushed, haborted⟩

/-- If some element fails, a proper part of the list is taken. -/
theorem takeWhile_eq_take {α : Type} (p : α → Bool) (xs : List α) (h : xs.all p = false) :
    ∃ k < xs.length, xs.takeWhile p = xs.take k := by
  have hpre := List.takeWhile_prefix p (l := xs)
  refine ⟨(xs.takeWhile p).length, ?_, List.prefix_iff_eq_take.mp hpre⟩
  refine Nat.lt_of_le_of_ne hpre.length_le ?_
  intro hlen
  have hall := List.takeWhile_eq_self_iff.mp (hpre.eq_of_length hlen)
  rw [List.all_eq_true.mpr hall] at h
  cases h

/-- Prefetch calls tile the range asked for. If no object number from 2 ^ 31 on is touched, the
range is tiled by extents such that the calls pushed are received as prefetches of these extents,
one call for each in order; the call aborts at the first object without a node, and then the
calls pushed are those of the extents before it. -/
theorem prefetch_tiles_range (view : CcmView) (dasObjs : List Nat) {params : DasKvParam}
    (hvalid : params.ctx ∈ dasObjs) (hctx : params.ctx ≠ 0) (himage : params.HoldsImageId)
    (htouched : 0 < params.len.toNat →
      (params.objId.toNat * segmentSize + params.offset.toNat % segmentSize +
        params.len.toNat - 1) / segmentSize < 2 ^ 31) :
    ∃ extents, Tiles segmentSize params.objId.toNat (params.offset.toNat % segmentSize)
        params.len.toNat extents ∧
      ((∀ extent ∈ extents, HasNode view params extent.object = true) →
        (dasReqPrefetch view dasObjs (some params)).aborted = false ∧
        List.Forall₂ (PrefetchOf params) (dasReqPrefetch view dasObjs (some params)).pushed
          extents) ∧
      ((∃ extent ∈ extents, HasNode view params extent.object = false) →
        (dasReqPrefetch view dasObjs (some params)).aborted = true ∧
        ∃ k < extents.length,
          List.Forall₂ (PrefetchOf params) (dasReqPrefetch view dasObjs (some params)).pushed
            (extents.take k)) := by
  have htiles := splitObjects_tiles params.objId.toNat (firstOffset params) params.len.toNat
  have hoffset : (firstOffset params : Nat) = params.offset.toNat % segmentSize :=
    and_segmentMask params.offset
  have hobjects : ∀ piece ∈ splitObjects segmentSize params.objId.toNat (firstOffset params)
      params.len.toNat, piece.object < 2 ^ 31 := by
    intro piece hmem
    have hlen : 0 < params.len.toNat := by
      by_contra hzero
      rw [show params.len.toNat = 0 by omega, splitObjects_zero] at hmem
      cases hmem
    refine Nat.lt_of_le_of_lt (htiles.object_le hmem) ?_
    rw [hoffset]
    exact htouched hlen
  have hrun : dasReqPrefetch view dasObjs (some params) =
      prefetchLoop view params (firstOffset params) (BitVec.ofNat 32 params.objId.toNat)
        params.len.toNat := by
    show (if params.ctx ∉ dasObjs then _ else _) = _
    rw [if_neg (not_not.mpr hvalid)]
    rfl
  obtain ⟨hpushed, haborted⟩ := prefetchLoop_pieces view hctx himage params.objId.toNat
    (firstOffset params) params.len.toNat hobjects
  rw [hrun]
  rw [hoffset] at htiles
  refine ⟨_, htiles, ?_, ?_⟩
  · intro hall
    rw [List.takeWhile_eq_self_iff.mpr hall] at hpushed
    rw [List.all_eq_true.mpr hall] at haborted
    exact ⟨haborted, hpushed⟩
  · intro hsome
    have hnot : (splitObjects segmentSize params.objId.toNat (firstOffset params)
        params.len.toNat).all (fun piece => HasNode view params piece.object) = false :=
      List.all_eq_false.mpr (by simpa using hsome)
    obtain ⟨k, hk, htake⟩ := takeWhile_eq_take _ _ hnot
    rw [hnot] at haborted
    rw [htake] at hpushed
    exact ⟨haborted, k, hk, hpushed⟩

/-- A view with one partition on one node. -/
def oneNodeView : CcmView where
  ptNum _ := some 1
  ptEntry _ _ := some { nodeId := 3, indexInNode := 0 }
  nodeInfo _ _ := some { publicAddrStr := ascii "10.0.0.3", portNum := 1, ports := fun _ => 7880 }
  hash _ := 0

/-- The range of the prefetch test: 208 bytes more than an object, from inside object 3. -/
def dasPushTest : DasKvParam where
  offset := 2048
  len := 4194512
  cephPoolId := 2
  objId := 3
  imageIdLen := 22
  clusterId := 1
  ctx := 1
  imageIdBuf := ascii "rbd_data.135421846e0f.0000000000000056"

/-- Every object of the test has its node. -/
theorem hasNode_dasPushTest (object : Nat) : HasNode oneNodeView dasPushTest object = true := by
  have himage : dasPushTest.HoldsImageId := by unfold DasKvParam.HoldsImageId; decide
  have hname : (oidName dasPushTest (BitVec.ofNat 32 object)).length ≠ 0 := by
    rw [oidName_of_holds himage, List.length_append, printObjectId, List.length_map,
      length_hexDigits, objectIdLen]
    omega
  have hnode : getNodeId oneNodeView dasPushTest.clusterId
      (oidName dasPushTest (BitVec.ofNat 32 object)) dasPushTest.cephPoolId.toInt =
      .ok (packNodeId 1 3 0, 0) := by
    refine getNodeId_ok_iff.mpr ⟨_, _, ⟨?_, ⟨1, rfl, by decide, ?_⟩, rfl, rfl⟩, ?_, ?_⟩
    · exact fun hnil => hname (List.length_eq_zero_iff.mpr hnil)
    · exact (Nat.mod_one _).symm
    · exact ⟨by decide, by decide⟩
    · decide
  rw [HasNode, prefetchNode, hnode]
  decide

/-- The prefetch test runs to its end, and its calls tile the 4194512 bytes. -/
theorem prefetch_tiles_dasPushTest :
    ∃ extents, Tiles segmentSize 3 2048 4194512 extents ∧
      (dasReqPrefetch oneNodeView [1] (some dasPushTest)).aborted = false ∧
      List.Forall₂ (PrefetchOf dasPushTest)
        (dasReqPrefetch oneNodeView [1] (some dasPushTest)).pushed extents := by
  have himage : dasPushTest.HoldsImageId := by unfold DasKvParam.HoldsImageId; decide
  obtain ⟨extents, htiles, hserved, -⟩ := prefetch_tiles_range oneNodeView [1]
    (show dasPushTest.ctx ∈ [1] by decide) (by decide) himage (by decide)
  obtain ⟨haborted, hpushed⟩ := hserved fun extent _ => hasNode_dasPushTest extent.object
  exact ⟨extents, htiles, haborted, hpushed⟩

end GlobalCacheAdaptor.ClientAdaptor
