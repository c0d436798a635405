import GlobalCacheAdaptor.Lib.Wire
import Mathlib.Data.BitVec
import Mathlib.Data.Nat.Bitwise

/-!
# Packed node ids

A cache node is addressed through the `osd` field of an op: bit 20 marks it, bits 16 to 19 hold
the cluster, bits 4 to 15 the node and bits 0 to 3 the port. `getNodeId` packs such an id and
`nodeOf` is the unpacking of `get_node_ip`. The node-view handler unpacks by hand
(`viewNode`), and keeps the cluster bits.
-/

namespace GlobalCacheAdaptor.ClientAdaptor

open Lib

/-! ## Packing -/

/-- `FLAG_OFFSET_BIT`. -/
def flagOffsetBit : Nat := 20

/-- `CLUSTER_ID_OFFSET`. -/
def clusterIdOffset : Nat := 16

/-- `NODE_ID_OFFSET_BIT`. -/
def nodeIdOffsetBit : Nat := 4

/-- `NODE_ID_MASK`. -/
def nodeIdMask : BitVec 32 := 0xfff0

/-- `PORT_SUPPORT_MAX`. -/
def portSupportMax : Nat := 16

/-- The id `get_node_id` adds up from its parts. -/
def packNodeId (cluster node port : BitVec 32) : BitVec 32 :=
  (node <<< nodeIdOffsetBit) + ((1 : BitVec 32) <<< flagOffsetBit) +
    (cluster <<< clusterIdOffset) + port

/-- The error codes of `get_node_id` and `get_node_ip`. -/
inductive CcmError where
  | paramError | ptNumError | ptEntryError | nodeInfoError | portNumError | ipError
  deriving DecidableEq, Repr

/-- `PTViewPtEntry`, as far as it is read: the current node of a partition and its index there. -/
structure PtEntry where
  nodeId : BitVec 32
  indexInNode : BitVec 32

/-- `MAX_PORT_NUM`: the entries of `NodeInfo.ports`. -/
def maxPortNum : Nat := 8

/-- `NodeInfo`, as far as it is read. `publicAddrStr` is its C string, and `ports` the words from
the start of the array on, of which the first `maxPortNum` are the array. -/
structure NodeInfo where
  publicAddrStr : Bytes
  portNum : BitVec 32
  ports : Nat → BitVec 32

/-- The cluster view that the plugin reads; `none` is a failed query. -/
structure CcmView where
  ptNum : Nat → Option Nat
  ptEntry : Nat → Nat → Option PtEntry
  nodeInfo : Nat → BitVec 32 → Option NodeInfo
  hash : Bytes → Nat

/-- The partition of an object: the 32-bit hash of `pool_name`, modulo the number of partitions. -/
def ptOf (view : CcmView) (objName : Bytes) (poolId : Int) (ptNum : Nat) : Nat :=
  (view.hash (ascii (toString poolId) ++ ascii "_" ++ objName)) % 2 ^ 32 % ptNum

/-- `ClientAdaptorMsg::get_node_id`: the packed id of the node that serves an object, and its
partition. -/
def getNodeId (view : CcmView) (clusterId : Nat) (objName : Bytes) (poolId : Int) :
    Except CcmError (BitVec 32 × Nat) :=
  if objName.length = 0 then .error .paramError
  else
    match view.ptNum clusterId with
    | none => .error .ptNumError
    | some ptNum =>
        if ptNum = 0 then .error .ptNumError
        else
          let ptId := ptOf view objName poolId ptNum
          match view.ptEntry clusterId ptId with
          | none => .error .ptEntryError
          | some entry =>
              match view.nodeInfo clusterId entry.nodeId with
              | none => .error .nodeInfoError
              | some info =>
                  if info.portNum.toInt > portSupportMax ∨ info.portNum = 0 then
                    .error .portNumError
                  else
                    -- the remainder is unsigned: a negative number of ports counts from 2 ^ 31 on
                    .ok (packNodeId (BitVec.ofNat 32 clusterId) entry.nodeId
                      (entry.indexInNode % info.portNum), ptId)

/-! ## Unpacking -/

/-- The node id `get_node_ip` extracts. -/
def nodeOf (nodeIndex : BitVec 32) : BitVec 32 := (nodeIndex &&& nodeIdMask) >>> nodeIdOffsetBit

/-- `osd >> 20` is not zero: the test of the node-view handler for a cache node. -/
def isGcOsd (osd : Int) : Bool := (BitVec.ofInt 32 osd).sshiftRight 20 ≠ 0

/-- `Objecter::check_osd_value`. -/
def checkOsdValue (osd : Int) : Bool := osd ≠ -1 && isGcOsd osd

/-- `(osd & ~(0x1 << 20)) >> 4`: what the node-view handler looks up among the available nodes. -/
def viewNode (osd : Int) : BitVec 32 :=
  (BitVec.ofInt 32 osd &&& ~~~((1 : BitVec 32) <<< 20)).sshiftRight 4

/-- The id is one that `get_node_id` packs for a cluster from 1 to 4, a node below 4096 and a port
below 16. -/
def IsNodeId (osd : Int) : Prop :=
  ∃ cluster node port : BitVec 32, 1 ≤ cluster.toNat ∧ cluster.toNat ≤ 4 ∧ node.toNat < 4096 ∧
    port.toNat < 16 ∧ osd = (packNodeId cluster node port).toInt

/-- The id is that of an ordinary OSD. -/
def IsOsdId (osd : Int) : Prop := 0 ≤ osd ∧ osd < 2 ^ 20

/-- What `get_node_id` reads on its way to an id: the partition of the object, the entry of the
partition and the node of the entry. -/
structure Reads (view : CcmView) (clusterId : Nat) (objName : Bytes) (poolId : Int) (ptId : Nat)
    (entry : PtEntry) (info : NodeInfo) : Prop where
  name_ne : objName ≠ []
  partition : ∃ ptNum, view.ptNum clusterId = some ptNum ∧ ptNum ≠ 0 ∧
    ptId = ptOf view objName poolId ptNum
  entry_eq : view.ptEntry clusterId ptId = some entry
  info_eq : view.nodeInfo clusterId entry.nodeId = some info

/-- The number of ports passes the check of `get_node_id`. -/
def NodeInfo.Accepted (info : NodeInfo) : Prop :=
  info.portNum.toInt ≤ portSupportMax ∧ info.portNum ≠ 0

/-- `get_node_id` returns an id exactly when all its queries succeed and the number of ports is
accepted, and the id is then packed from the cluster, the node and the index among the ports. -/
theorem getNodeId_ok_iff {view : CcmView} {clusterId : Nat} {objName : Bytes} {poolId : Int}
    {id : BitVec 32} {ptId : Nat} :
    getNodeId view clusterId objName poolId = .ok (id, ptId) ↔
      ∃ entry info, Reads view clusterId objName poolId ptId entry info ∧ info.Accepted ∧
        id = packNodeId (BitVec.ofNat 32 clusterId) entry.nodeId
          (entry.indexInNode % info.portNum) := by
  constructor
  · intro h
    unfold getNodeId at h
    split_ifs at h with hname
    cases hnum : view.ptNum clusterId with
    | none => simp [hnum] at h
    | some ptNum =>
        simp only [hnum] at h
        split_ifs at h with hzero
        cases hentry : view.ptEntry clusterId (ptOf view objName poolId ptNum) with
        | none => simp [hentry] at h
        | some entry =>
            simp only [hentry] at h
            cases hinfo : view.nodeInfo clusterId entry.nodeId with
            | none => simp [hinfo] at h
            | some info =>
                simp only [hinfo] at h
                split_ifs at h with hbad
                simp only [Except.ok.injEq, Prod.mk.injEq] at h
                obtain ⟨rfl, rfl⟩ := h
                rw [not_or, Int.not_lt] at hbad
                refine ⟨entry, info, ⟨?_, ⟨ptNum, hnum, hzero, rfl⟩, hentry, hinfo⟩, hbad, rfl⟩
                intro hnil
                exact hname (List.length_eq_zero_iff.mpr hnil)
  · intro h
    obtain ⟨entry, info, ⟨hname, ⟨ptNum, hnum, hzero, rfl⟩, hentry, hinfo⟩, hgood, rfl⟩ := h
    have hlen : objName.length ≠ 0 := fun h => hname (List.length_eq_zero_iff.mp h)
    unfold getNodeId
    rw [if_neg hlen, hnum]
    simp only [if_neg hzero, hentry, hinfo]
    rw [if_neg (not_or.mpr ⟨Int.not_lt.mpr hgood.1, hgood.2⟩)]

/-- With 1 to 16 ports, the packed port is the index modulo their number. -/
theorem toNat_umod_portNum {info : NodeInfo} (hports : 0 < info.portNum.toInt)
    (index : BitVec 32) :
    (index % info.portNum).toNat = index.toNat % info.portNum.toInt.toNat := by
  have hval : info.portNum.toInt.toNat = info.portNum.toNat := by
    rw [BitVec.toInt_eq_toNat_cond] at hports ⊢
    split_ifs at hports ⊢ <;> omega
  rw [BitVec.toNat_umod, hval]

/-- With 1 to 16 ports, the packed port is below 16. -/
theorem toNat_umod_lt {info : NodeInfo} (hports : 0 < info.portNum.toInt)
    (hmax : info.portNum.toInt ≤ portSupportMax) (index : BitVec 32) :
    (index % info.portNum).toNat < 16 := by
  have hlt := Nat.mod_lt index.toNat (show 0 < info.portNum.toInt.toNat by omega)
  rw [toNat_umod_portNum hports]
  unfold portSupportMax at hmax
  omega

/-- What `get_node_id` returns for a cluster from 1 to 4 is a node id, if the node ids of the view
are below 4096 and its numbers of ports are not negative. -/
theorem isNodeId_of_getNodeId {view : CcmView} {clusterId : Nat} {objName : Bytes} {poolId : Int}
    {id : BitVec 32} {ptId : Nat} (h : getNodeId view clusterId objName poolId = .ok (id, ptId))
    (hcluster : 1 ≤ clusterId ∧ clusterId ≤ 4)
    (hnodes : ∀ ptId entry, view.ptEntry clusterId ptId = some entry →
      entry.nodeId.toNat < 4096)
    (hports : ∀ nodeId info, view.nodeInfo clusterId nodeId = some info →
      0 ≤ info.portNum.toInt) : IsNodeId id.toInt := by
  obtain ⟨entry, info, hreads, haccepted, rfl⟩ := getNodeId_ok_iff.mp h
  have hpos : 0 < info.portNum.toInt := by
    refine lt_of_le_of_ne (hports _ info hreads.info_eq) ?_
    intro hzero
    exact haccepted.2 (BitVec.toInt_inj.mp hzero.symm)
  refine ⟨BitVec.ofNat 32 clusterId, entry.nodeId, entry.indexInNode % info.portNum, ?_, ?_,
    hnodes ptId entry hreads.entry_eq, ?_, rfl⟩
  · rw [BitVec.toNat_ofNat]
    omega
  · rw [BitVec.toNat_ofNat]
    omega
  · exact toNat_umod_lt hpos haccepted.1 entry.indexInNode

/-- The value of a packed id, whatever its parts. -/
theorem packNodeId_toNat_mod (cluster node port : BitVec 32) :
    (packNodeId cluster node port).toNat =
      (2 ^ 20 + cluster.toNat * 2 ^ 16 + node.toNat * 16 + port.toNat) % 2 ^ 32 := by
  have hshift : ∀ (x : BitVec 32) (k : Nat), (x <<< k).toNat = x.toNat * 2 ^ k % 2 ^ 32 := by
    intro x k
    rw [BitVec.toNat_shiftLeft, Nat.shiftLeft_eq]
  have hflag : ((1 : BitVec 32) <<< flagOffsetBit).toNat = 2 ^ 20 := by decide
  rw [packNodeId, BitVec.toNat_add, BitVec.toNat_add, BitVec.toNat_add, hflag, hshift node,
    hshift cluster, nodeIdOffsetBit, clusterIdOffset]
  omega

/-- The value of a packed id whose parts keep to their bits. -/
theorem packNodeId_toNat {cluster node port : BitVec 32} (hc : cluster.toNat ≤ 4)
    (hn : node.toNat < 4096) (hp : port.toNat < 16) :
    (packNodeId cluster node port).toNat =
      2 ^ 20 + cluster.toNat * 2 ^ 16 + node.toNat * 16 + port.toNat := by
  rw [packNodeId_toNat_mod]
  omega

/-- The unpacking of `get_node_ip` returns the packed node. -/
theorem nodeOf_packNodeId {cluster node port : BitVec 32} (hc : cluster.toNat ≤ 4)
    (hn : node.toNat < 4096) (hp : port.toNat < 16) :
    nodeOf (packNodeId cluster node port) = node := by
  apply BitVec.eq_of_toNat_eq
  have hmask : nodeIdMask.toNat >>> 4 = 2 ^ 12 - 1 := by decide
  rw [nodeOf, nodeIdOffsetBit, BitVec.toNat_ushiftRight, BitVec.toNat_and,
    Nat.shiftRight_and_distrib, hmask, Nat.and_two_pow_sub_one_eq_mod, Nat.shiftRight_eq_div_pow,
    packNodeId_toNat hc hn hp]
  omega

/-- A packed id is a positive 32-bit integer. -/
theorem packNodeId_msb {cluster node port : BitVec 32} (hc : cluster.toNat ≤ 4)
    (hn : node.toNat < 4096) (hp : port.toNat < 16) :
    (packNodeId cluster node port).msb = false := by
  rw [BitVec.msb_eq_decide, decide_eq_false_iff_not, packNodeId_toNat hc hn hp]
  omega

/-- A packed id passes the test for a cache node. -/
theorem isGcOsd_packNodeId {cluster node port : BitVec 32} (hc : cluster.toNat ≤ 4)
    (hn : node.toNat < 4096) (hp : port.toNat < 16) :
    isGcOsd (packNodeId cluster node port).toInt = true := by
  rw [isGcOsd, BitVec.ofInt_toInt,
    BitVec.sshiftRight_eq_of_msb_false (packNodeId_msb hc hn hp), decide_eq_true_eq]
  intro hzero
  have hnat := congrArg BitVec.toNat hzero
  rw [BitVec.toNat_ushiftRight, Nat.shiftRight_eq_div_pow, packNodeId_toNat hc hn hp] at hnat
  have h0 : (0 : BitVec 32).toNat = 0 := rfl
  rw [h0] at hnat
  omega

/-- The handler's unpacking returns the node with the cluster above it. -/
theorem viewNode_packNodeId {cluster node port : BitVec 32} (hc : cluster.toNat ≤ 4)
    (hn : node.toNat < 4096) (hp : port.toNat < 16) :
    (viewNode (packNodeId cluster node port).toInt).toNat =
      cluster.toNat * 4096 + node.toNat := by
  have hmask : (~~~((1 : BitVec 32) <<< 20)).toNat >>> 4 = 0xffeffff := by decide
  have hmsb : (packNodeId cluster node port &&& ~~~((1 : BitVec 32) <<< 20)).msb = false := by
    rw [BitVec.msb_and, packNodeId_msb hc hn hp, Bool.false_and]
  rw [viewNode, BitVec.ofInt_toInt, BitVec.sshiftRight_eq_of_msb_false hmsb,
    BitVec.toNat_ushiftRight, BitVec.toNat_and, Nat.shiftRight_and_distrib, hmask,
    Nat.shiftRight_eq_div_pow, packNodeId_toNat hc hn hp]
  -- the value is below 2^17, so clearing bit 16 leaves its low sixteen bits
  generalize hx : (2 ^ 20 + cluster.toNat * 2 ^ 16 + node.toNat * 16 + port.toNat) / 2 ^ 4 = x
  have hlow : x % 2 ^ 17 = x := Nat.mod_eq_of_lt (by omega)
  have hmasks : (2 ^ 17 - 1) &&& 0xffeffff = 2 ^ 16 - 1 := by decide
  calc x &&& 0xffeffff
      = (x % 2 ^ 17) &&& 0xffeffff := by rw [hlow]
    _ = x &&& ((2 ^ 17 - 1) &&& 0xffeffff) := by
        rw [← Nat.and_two_pow_sub_one_eq_mod, Nat.and_assoc]
    _ = x &&& (2 ^ 16 - 1) := by rw [hmasks]
    _ = x % 2 ^ 16 := Nat.and_two_pow_sub_one_eq_mod x 16
    _ = cluster.toNat * 4096 + node.toNat := by omega

/-- An ordinary OSD fails the test for a cache node. -/
theorem isGcOsd_of_isOsdId {osd : Int} (h : IsOsdId osd) : isGcOsd osd = false := by
  obtain ⟨n, rfl⟩ := Int.eq_ofNat_of_zero_le h.1
  have hn : n < 2 ^ 20 := by have := h.2; omega
  have hval : (BitVec.ofInt 32 (n : Int)).toNat = n := by
    rw [BitVec.ofInt_natCast, BitVec.toNat_ofNat]
    omega
  have hmsb : (BitVec.ofInt 32 (n : Int)).msb = false := by
    rw [BitVec.msb_eq_decide, decide_eq_false_iff_not, hval]
    omega
  rw [isGcOsd, BitVec.sshiftRight_eq_of_msb_false hmsb, decide_eq_false_iff_not, not_not]
  apply BitVec.eq_of_toNat_eq
  rw [BitVec.toNat_ushiftRight, hval, Nat.shiftRight_eq_div_pow]
  exact Nat.div_eq_of_lt hn

end GlobalCacheAdaptor.ClientAdaptor
