import GlobalCacheAdaptor.ClientAdaptor.NodeId
import GlobalCacheAdaptor.ServerAdaptor.ObjectName

/-!
# The address behind a node id

`get_node_ip` and `get_node_raw_ip` take a packed id apart again and look up the address of its
node and port. `getNodeId_roundTrip` says that the four places that read an id agree with the one
that packs it. The port index goes into an array of eight, and `portSlotValid_iff` says when it
stays inside.
-/

namespace GlobalCacheAdaptor.ClientAdaptor

open Lib ServerAdaptor

/-! ## Addresses -/

/-- `GC_PORT_MIN`. -/
def gcPortMin : Nat := 7880

/-- `GC_PORT_MAX`. -/
def gcPortMax : Nat := 7889

/-- `PORT_INDEX_MASK`. -/
def portIndexMask : BitVec 32 := 0xf

/-- The port index `get_node_ip` extracts. -/
def portIndexOf (nodeIndex : BitVec 32) : BitVec 32 := nodeIndex &&& portIndexMask

/-- A character class `[lo-hi]`. -/
def inClass (lo hi : Char) (b : Byte) : Bool := byteOf lo ≤ b && b ≤ byteOf hi

/-- `25[0-5]|2[0-4]\d|1\d\d|[1-9]\d|\d`: a number up to 255 without leading zeros. -/
def isOctet : Bytes → Bool
  | [a] => inClass '0' '9' a
  | [a, b] => inClass '1' '9' a && inClass '0' '9' b
  | [a, b, c] =>
      (inClass '2' '2' a && inClass '5' '5' b && inClass '0' '5' c) ||
        (inClass '2' '2' a && inClass '0' '4' b && inClass '0' '9' c) ||
        (inClass '1' '1' a && inClass '0' '9' b && inClass '0' '9' c)
  | _ => false

/-- `0.0.0.0`, where the dots are not escaped and stand for any byte but a line end. -/
def isZeroAddr : Bytes → Bool
  | [a, x, b, y, c, z, d] =>
      [a, b, c, d].all (inClass '0' '0') &&
        [x, y, z].all fun sep => sep ≠ byteOf '\n' && sep ≠ byteOf '\r'
  | _ => false

/-- `ClientAdaptorMsg::valid_ip`. -/
def validIp (ipAddr : Bytes) : Bool :=
  (match ipAddr.splitOn (byteOf '.') with
    | [a, b, c, d] => isOctet a && a ≠ [byteOf '0'] && isOctet b && isOctet c && isOctet d
    | _ => false) || isZeroAddr ipAddr

/-- The node and the port that `get_node_ip` and `get_node_raw_ip` look up, with their checks. -/
def nodePort (view : CcmView) (clusterId : Nat) (nodeIndex : BitVec 32) :
    Except CcmError (NodeInfo × BitVec 32) :=
  match view.nodeInfo clusterId (nodeOf nodeIndex) with
  | none => .error .nodeInfoError
  | some info =>
      let port := info.ports (portIndexOf nodeIndex).toNat
      if port.toNat < gcPortMin ∨ port.toNat > gcPortMax then .error .portNumError
      else if validIp info.publicAddrStr then .ok (info, port)
      else .error .ipError

/-- `ClientAdaptorMsg::get_node_ip`. -/
def getNodeIp (view : CcmView) (clusterId : Nat) (nodeIndex : BitVec 32) :
    Except CcmError Bytes :=
  (nodePort view clusterId nodeIndex).map fun found =>
    ascii "tcp://" ++ found.1.publicAddrStr ++ ascii ":" ++ ascii (toString found.2.toNat)

/-- `ClientAdaptorMsg::get_node_raw_ip`. -/
def getNodeRawIp (view : CcmView) (clusterId : Nat) (nodeIndex : BitVec 32) :
    Except CcmError Bytes :=
  (nodePort view clusterId nodeIndex).map fun found => found.1.publicAddrStr

/-- `Objecter::get_clusterId_from_osd`. -/
def getClusterIdFromOsd (osd : Int) : Int :=
  ((BitVec.ofInt 32 osd &&& 0xF0000).sshiftRight 16).toInt

/-! ## Round trip -/

/-- The extracted port index is the low four bits. -/
theorem portIndexOf_toNat (id : BitVec 32) : (portIndexOf id).toNat = id.toNat % 16 := by
  have hmask : portIndexMask.toNat = 2 ^ 4 - 1 := by decide
  rw [portIndexOf, BitVec.toNat_and, hmask, Nat.and_two_pow_sub_one_eq_mod]

/-- The port index of a packed id is the low four bits of its port. -/
theorem portIndexOf_packNodeId (cluster node port : BitVec 32) :
    (portIndexOf (packNodeId cluster node port)).toNat = port.toNat % 16 := by
  rw [portIndexOf_toNat, packNodeId_toNat_mod]
  omega

/-- The cluster of a packed id. -/
theorem getClusterIdFromOsd_packNodeId {cluster node port : BitVec 32} (hc : cluster.toNat ≤ 4)
    (hn : node.toNat < 4096) (hp : port.toNat < 16) :
    getClusterIdFromOsd (packNodeId cluster node port).toInt = cluster.toNat := by
  have hmask : (0xF0000 : BitVec 32).toNat >>> 16 = 2 ^ 4 - 1 := by decide
  have hmsb : (packNodeId cluster node port &&& 0xF0000).msb = false := by
    rw [BitVec.msb_and, packNodeId_msb hc hn hp, Bool.false_and]
  have hval : ((packNodeId cluster node port &&& 0xF0000) >>> 16).toNat = cluster.toNat := by
    rw [BitVec.toNat_ushiftRight, BitVec.toNat_and, Nat.shiftRight_and_distrib, hmask,
      Nat.and_two_pow_sub_one_eq_mod, Nat.shiftRight_eq_div_pow, packNodeId_toNat hc hn hp]
    omega
  rw [getClusterIdFromOsd, BitVec.ofInt_toInt, BitVec.sshiftRight_eq_of_msb_false hmsb,
    BitVec.toInt_eq_toNat_of_lt (by omega), hval]

/-- `get_node_id` is called for a cluster from 1 to 4, and reads a node below 4096 with 1 to 16
ports. -/
structure Routed (view : CcmView) (clusterId : Nat) (objName : Bytes) (poolId : Int) (ptId : Nat)
    (entry : PtEntry) (info : NodeInfo) : Prop
    extends Reads view clusterId objName poolId ptId entry info where
  cluster : 1 ≤ clusterId ∧ clusterId ≤ 4
  node : entry.nodeId.toNat < 4096
  ports : 1 ≤ info.portNum.toInt ∧ info.portNum.toInt ≤ 16

/-- The port index of a routed object. -/
def slotOf (entry : PtEntry) (info : NodeInfo) : Nat :=
  entry.indexInNode.toNat % info.portNum.toInt.toNat

variable {view view' : CcmView} {clusterId clusterId' : Nat} {objName objName' : Bytes}
variable {poolId poolId' : Int} {ptId ptId' : Nat} {entry entry' : PtEntry}
variable {info info' : NodeInfo}

/-- A routed object has a packed id whose parts keep to their bits. -/
theorem Routed.getNodeId (h : Routed view clusterId objName poolId ptId entry info) :
    ∃ port : BitVec 32, port.toNat = slotOf entry info ∧ port.toNat < 16 ∧
      getNodeId view clusterId objName poolId =
        .ok (packNodeId (BitVec.ofNat 32 clusterId) entry.nodeId port, ptId) := by
  have hpos : 0 < info.portNum.toInt := by have := h.ports.1; omega
  have hzero : info.portNum ≠ 0 := by
    intro hzero
    rw [hzero] at hpos
    exact absurd hpos (by decide)
  refine ⟨entry.indexInNode % info.portNum, toNat_umod_portNum hpos _,
    toNat_umod_lt hpos h.ports.2 _, ?_⟩
  exact getNodeId_ok_iff.mpr ⟨entry, info, h.toReads, ⟨h.ports.2, hzero⟩, rfl⟩

/-- The cluster of a routed object fits its bits. -/
theorem Routed.toNat_cluster (h : Routed view clusterId objName poolId ptId entry info) :
    (BitVec.ofNat 32 clusterId).toNat = clusterId ∧ (BitVec.ofNat 32 clusterId).toNat ≤ 4 := by
  have := h.cluster
  rw [BitVec.toNat_ofNat]
  omega

/-- Packed ids whose parts keep to their bits are equal only if the parts are. -/
theorem packNodeId_inj {cluster node port cluster' node' port' : BitVec 32}
    (hc : cluster.toNat ≤ 4) (hn : node.toNat < 4096) (hp : port.toNat < 16)
    (hc' : cluster'.toNat ≤ 4) (hn' : node'.toNat < 4096) (hp' : port'.toNat < 16)
    (h : packNodeId cluster node port = packNodeId cluster' node' port') :
    cluster = cluster' ∧ node = node' ∧ port = port' := by
  have hnat := congrArg BitVec.toNat h
  rw [packNodeId_toNat hc hn hp, packNodeId_toNat hc' hn' hp'] at hnat
  refine ⟨BitVec.eq_of_toNat_eq ?_, BitVec.eq_of_toNat_eq ?_, BitVec.eq_of_toNat_eq ?_⟩ <;> omega

/-- What `get_node_ip` and `get_node_raw_ip` answer for the id in a view: what the view has of this
node and of this slot of its ports, and nothing else. -/
structure LooksUp (view : CcmView) (clusterId : Nat) (id nodeId : BitVec 32) (slot : Nat) :
    Prop where
  unknown : view.nodeInfo clusterId nodeId = none →
    getNodeIp view clusterId id = .error .nodeInfoError ∧
      getNodeRawIp view clusterId id = .error .nodeInfoError
  badPort : ∀ info, view.nodeInfo clusterId nodeId = some info →
    ¬(7880 ≤ (info.ports slot).toNat ∧ (info.ports slot).toNat ≤ 7889) →
      getNodeIp view clusterId id = .error .portNumError ∧
        getNodeRawIp view clusterId id = .error .portNumError
  badAddress : ∀ info, view.nodeInfo clusterId nodeId = some info →
    7880 ≤ (info.ports slot).toNat → (info.ports slot).toNat ≤ 7889 →
    validIp info.publicAddrStr = false →
      getNodeIp view clusterId id = .error .ipError ∧
        getNodeRawIp view clusterId id = .error .ipError
  found : ∀ info, view.nodeInfo clusterId nodeId = some info →
    7880 ≤ (info.ports slot).toNat → (info.ports slot).toNat ≤ 7889 →
    validIp info.publicAddrStr = true →
      getNodeIp view clusterId id = .ok (ascii "tcp://" ++ info.publicAddrStr ++ ascii ":" ++
          ascii (toString (info.ports slot).toNat)) ∧
        getNodeRawIp view clusterId id = .ok info.publicAddrStr

/-- The two functions look up the node and the port index of the id. -/
theorem looksUp_of_parts {id nodeId : BitVec 32} {slot : Nat} (hnode : nodeOf id = nodeId)
    (hslot : (portIndexOf id).toNat = slot) (view : CcmView) (clusterId : Nat) :
    LooksUp view clusterId id nodeId slot := by
  subst hnode hslot
  have hpass : ∀ port : Nat, 7880 ≤ port → port ≤ 7889 →
      ¬(port < gcPortMin ∨ port > gcPortMax) := by
    intro port hmin hmax
    unfold gcPortMin gcPortMax
    omega
  refine ⟨fun hinfo => ?_, fun info hinfo hbad => ?_, fun info hinfo hmin hmax hip => ?_,
    fun info hinfo hmin hmax hip => ?_⟩
  · simp only [getNodeIp, getNodeRawIp, nodePort, hinfo]
    exact ⟨rfl, rfl⟩
  · have hfail : (info.ports (portIndexOf id).toNat).toNat < gcPortMin ∨
        (info.ports (portIndexOf id).toNat).toNat > gcPortMax := by
      unfold gcPortMin gcPortMax
      omega
    simp only [getNodeIp, getNodeRawIp, nodePort, hinfo, if_pos hfail]
    exact ⟨rfl, rfl⟩
  · simp only [getNodeIp, getNodeRawIp, nodePort, hinfo, if_neg (hpass _ hmin hmax), hip]
    exact ⟨rfl, rfl⟩
  · simp only [getNodeIp, getNodeRawIp, nodePort, hinfo, if_neg (hpass _ hmin hmax), hip]
    exact ⟨rfl, rfl⟩

/-- Routing ids round trip. Every routed object has an id; the id is a cache node's, the cluster
read from it is the routed one, and `get_node_ip` and `get_node_raw_ip` look up the routed node and
port index in whatever view they meet. Two routed objects have one id only if cluster, node and
port index agree, and no ordinary OSD passes for a cache node. -/
theorem getNodeId_roundTrip (h : Routed view clusterId objName poolId ptId entry info) :
    ∃ id, getNodeId view clusterId objName poolId = .ok (id, ptId) ∧
      0 ≤ id.toInt ∧ id.toInt ≠ -1 ∧ checkOsdValue id.toInt = true ∧
      getClusterIdFromOsd id.toInt = clusterId ∧
      nodeOf id = entry.nodeId ∧ (portIndexOf id).toNat = slotOf entry info ∧
      (∀ seen cluster, LooksUp seen cluster id entry.nodeId (slotOf entry info)) ∧
      (∀ view' clusterId' objName' poolId' ptId' entry' info',
        Routed view' clusterId' objName' poolId' ptId' entry' info' →
        getNodeId view' clusterId' objName' poolId' = .ok (id, ptId') →
          clusterId = clusterId' ∧ entry.nodeId = entry'.nodeId ∧
            slotOf entry info = slotOf entry' info') ∧
      ∀ osd, IsOsdId osd → checkOsdValue osd = false := by
  obtain ⟨port, hslot, hp, hid⟩ := h.getNodeId
  obtain ⟨hcluster, hc⟩ := h.toNat_cluster
  have hpos : 0 ≤ (packNodeId (BitVec.ofNat 32 clusterId) entry.nodeId port).toInt :=
    BitVec.toInt_nonneg_of_msb_false (packNodeId_msb hc h.node hp)
  have hne : (packNodeId (BitVec.ofNat 32 clusterId) entry.nodeId port).toInt ≠ -1 := by omega
  have hnode := nodeOf_packNodeId hc h.node hp
  have hindex : (portIndexOf (packNodeId (BitVec.ofNat 32 clusterId) entry.nodeId port)).toNat =
      slotOf entry info := by
    rw [portIndexOf_packNodeId, ← hslot]
    omega
  refine ⟨_, hid, hpos, hne, ?_, ?_, hnode, hindex,
    fun seen cluster => looksUp_of_parts hnode hindex seen cluster, ?_, ?_⟩
  · rw [checkOsdValue, isGcOsd_packNodeId hc h.node hp, Bool.and_true, decide_eq_true_eq]
    exact hne
  · rw [getClusterIdFromOsd_packNodeId hc h.node hp, hcluster]
  · intro view' clusterId' objName' poolId' ptId' entry' info' h' hsame
    obtain ⟨port', hslot', hp', hid'⟩ := h'.getNodeId
    obtain ⟨hcluster', hc'⟩ := h'.toNat_cluster
    rw [hid', Except.ok.injEq, Prod.mk.injEq] at hsame
    obtain ⟨hcc, hnode, hport⟩ := packNodeId_inj hc h.node hp hc' h'.node hp' hsame.1.symm
    refine ⟨?_, hnode, ?_⟩
    · rw [← hcluster, hcc, hcluster']
    · rw [← hslot, hport, hslot']
  · intro osd hosd
    rw [checkOsdValue, isGcOsd_of_isOsdId hosd, Bool.and_false]

/-- A view with one partition, on node 3 with nine ports. -/
def ninePortView (indexInNode : BitVec 32) : CcmView where
  ptNum _ := some 1
  ptEntry _ _ := some { nodeId := 3, indexInNode := indexInNode }
  nodeInfo _ _ := some { publicAddrStr := ascii "10.0.0.3", portNum := 9, ports := fun _ => 7880 }
  hash _ := 0

/-- The view answers every query for an object with a name. -/
theorem reads_ninePortView (indexInNode : BitVec 32) (clusterId : Nat) {objName : Bytes}
    (hname : objName ≠ []) (poolId : Int) :
    Reads (ninePortView indexInNode) clusterId objName poolId 0
      { nodeId := 3, indexInNode := indexInNode }
      { publicAddrStr := ascii "10.0.0.3", portNum := 9, ports := fun _ => 7880 } :=
  ⟨hname, ⟨1, rfl, by decide, (Nat.mod_one _).symm⟩, rfl, rfl⟩

/-- Index 25 of node 3 in cluster 2 goes to port 7, and its address is found. -/
theorem getNodeId_roundTrip_ninePortView :
    ∃ id, getNodeId (ninePortView 25) 2 (ascii "rbd_data.1.0") 5 = .ok (id, 0) ∧
      checkOsdValue id.toInt = true ∧ getClusterIdFromOsd id.toInt = 2 ∧ nodeOf id = 3 ∧
      (portIndexOf id).toNat = 7 ∧
      getNodeIp (ninePortView 25) 2 id = .ok (ascii "tcp://10.0.0.3:7880") ∧
      getNodeRawIp (ninePortView 25) 2 id = .ok (ascii "10.0.0.3") := by
  have hrouted : Routed (ninePortView 25) 2 (ascii "rbd_data.1.0") 5 0 _ _ :=
    { reads_ninePortView 25 2 (by decide) 5 with
      cluster := by decide
      node := by decide
      ports := by decide }
  obtain ⟨id, hid, -, -, hosd, hcluster, hnode, hport, hlookup, -⟩ := getNodeId_roundTrip hrouted
  exact ⟨id, hid, hosd, hcluster, hnode, hport,
    (hlookup (ninePortView 25) 2).found _ rfl (by decide) (by decide) (by decide)⟩

/-! ## The port array -/

/-- Whenever `get_node_id` accepts, the port index taken from the id is below the number of ports
of the node and inside the array. -/
def PortSlotValid (view : CcmView) (clusterId : Nat) (objName : Bytes) (poolId : Int) : Prop :=
  ∀ id ptId entry info, getNodeId view clusterId objName poolId = .ok (id, ptId) →
    0 ≤ id.toInt → Reads view clusterId objName poolId ptId entry info →
      ((portIndexOf id).toNat : Int) < info.portNum.toInt ∧
        (portIndexOf id).toNat < maxPortNum

/-- The number of ports is refused, or it is positive and the index among the ports is one of the
array, or the parts add up to a negative id. -/
def SafePorts (clusterId : Nat) (entry : PtEntry) (info : NodeInfo) : Prop :=
  info.portNum.toInt = 0 ∨ portSupportMax < info.portNum.toInt ∨
    (0 < info.portNum.toInt ∧ slotOf entry info < maxPortNum) ∨
    2 ^ 31 ≤ (2 ^ 20 + clusterId * 2 ^ 16 + entry.nodeId.toNat * 16 +
      entry.indexInNode.toNat % info.portNum.toNat) % 2 ^ 32

/-- A packed id is negative when its parts add up to `2 ^ 31`. -/
theorem packNodeId_neg_iff (clusterId : Nat) (node port : BitVec 32) :
    (packNodeId (BitVec.ofNat 32 clusterId) node port).toInt < 0 ↔
      2 ^ 31 ≤ (2 ^ 20 + clusterId * 2 ^ 16 + node.toNat * 16 + port.toNat) % 2 ^ 32 := by
  rw [BitVec.toInt_neg_iff, packNodeId_toNat_mod, BitVec.toNat_ofNat]
  omega

/-- The slot of an accepted id is valid exactly if the number of ports is positive and the index
among the ports is below eight. -/
theorem slot_valid_iff (cluster : BitVec 32) (haccepted : info.Accepted) :
    (((portIndexOf (packNodeId cluster entry.nodeId
          (entry.indexInNode % info.portNum))).toNat : Int) < info.portNum.toInt ∧
        (portIndexOf (packNodeId cluster entry.nodeId
          (entry.indexInNode % info.portNum))).toNat < maxPortNum) ↔
      0 < info.portNum.toInt ∧ slotOf entry info < maxPortNum := by
  rw [portIndexOf_packNodeId]
  constructor
  · intro h
    have hpos : 0 < info.portNum.toInt := by omega
    have hlt := toNat_umod_lt hpos haccepted.1 entry.indexInNode
    rw [Nat.mod_eq_of_lt hlt, toNat_umod_portNum hpos] at h
    exact ⟨hpos, h.2⟩
  · intro h
    obtain ⟨hpos, hslot⟩ := h
    have hlt := toNat_umod_lt hpos haccepted.1 entry.indexInNode
    rw [Nat.mod_eq_of_lt hlt, toNat_umod_portNum hpos]
    have hmod := Nat.mod_lt entry.indexInNode.toNat (show 0 < info.portNum.toInt.toNat by omega)
    exact ⟨by omega, hslot⟩

/-- The port slot is valid exactly if the view is safe for what `get_node_id` reads. -/
theorem portSlotValid_iff (view : CcmView) (clusterId : Nat) (objName : Bytes) (poolId : Int) :
    PortSlotValid view clusterId objName poolId ↔
      ∀ ptId entry info, Reads view clusterId objName poolId ptId entry info →
        SafePorts clusterId entry info := by
  constructor
  · intro h ptId entry info hreads
    by_cases haccepted : info.Accepted
    · have hid := getNodeId_ok_iff.mpr ⟨entry, info, hreads, haccepted, rfl⟩
      by_cases hneg : (packNodeId (BitVec.ofNat 32 clusterId) entry.nodeId
          (entry.indexInNode % info.portNum)).toInt < 0
      · rw [packNodeId_neg_iff, BitVec.toNat_umod] at hneg
        exact .inr (.inr (.inr hneg))
      · have hvalid := h _ ptId entry info hid (Int.not_lt.mp hneg) hreads
        exact .inr (.inr (.inl ((slot_valid_iff _ haccepted).mp hvalid)))
    · rw [NodeInfo.Accepted, not_and_or, Int.not_le, not_not] at haccepted
      obtain hmax | hzero := haccepted
      · exact .inr (.inl hmax)
      · refine .inl ?_
        rw [hzero]
        rfl
  · intro h id ptId entry info hid hpos hreads
    obtain ⟨entry', info', hreads', haccepted, rfl⟩ := getNodeId_ok_iff.mp hid
    obtain rfl : entry' = entry := by
      have := hreads'.entry_eq.symm.trans hreads.entry_eq
      exact Option.some.inj this
    obtain rfl : info' = info := by
      have := hreads'.info_eq.symm.trans hreads.info_eq
      exact Option.some.inj this
    refine (slot_valid_iff _ haccepted).mpr ?_
    obtain hzero | hmax | hslot | hneg := h ptId entry' info' hreads
    · exact absurd (BitVec.toInt_inj.mp hzero) haccepted.2
    · exact absurd haccepted.1 (Int.not_le.mpr hmax)
    · exact hslot
    · rw [← BitVec.toNat_umod, ← packNodeId_neg_iff] at hneg
      omega

/-- Nine ports are accepted, and index 8 takes the port behind the array. -/
theorem not_portSlotValid_ninePortView :
    ¬ PortSlotValid (ninePortView 8) 1 (ascii "rbd_data.1.0") 5 := by
  intro h
  have hreads := reads_ninePortView 8 1 (show ascii "rbd_data.1.0" ≠ [] by decide) 5
  have hid : getNodeId (ninePortView 8) 1 (ascii "rbd_data.1.0") 5 =
      .ok (packNodeId 1 3 8, 0) := by
    exact getNodeId_ok_iff.mpr ⟨_, _, hreads, ⟨by decide, by decide⟩, by decide⟩
  have hslot := (h _ _ _ _ hid (by decide) hreads).2
  exact absurd hslot (by decide)

end GlobalCacheAdaptor.ClientAdaptor
