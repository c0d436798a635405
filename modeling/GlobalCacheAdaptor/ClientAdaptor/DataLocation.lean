import GlobalCacheAdaptor.ClientAdaptor.NodeAddr
import GlobalCacheAdaptor.ClientAdaptor.Objecter

/-!
# The data-location query

`internal_get_data_dst_addr` tells an application which node serves a byte of an image. It finds
the object of the byte and its node, but for the metadata pool of the image, and it returns
`-ELIBACC` also after it has written an address: the result of the last lookup is stored in an
inner `mgr_ret`. `locationAgrees_iff` says when the query agrees with the routing of the data.
-/

namespace GlobalCacheAdaptor.ClientAdaptor

open Lib

/-! ## The query -/

/-- The value of an error code. -/
def CcmError.code : CcmError → Int
  | ptNumError => 2
  | ptEntryError => 3
  | nodeInfoError => 4
  | portNumError => 7
  | ipError => 8
  | paramError => 11

/-- `ELIBACC`. -/
def elibacc : Int := 79

/-- `ImageCtx`, as far as the query reads it. `fileToExtents` is the object and the offset in it
that the striper maps a byte to, and `sscanf` the number of conversions and the object number that
the format string of the image scans from a name. -/
structure ImageCtx where
  /-- `md_ctx.get_id()`. -/
  mdPool : Int
  /-- `data_ctx.get_id()`. -/
  dataPool : Int
  fileToExtents : BitVec 64 → Bytes × BitVec 64
  sscanf : Bytes → Int × BitVec 32

/-- The object that holds a byte of the image. -/
def ImageCtx.object (image : ImageCtx) (off : BitVec 64) : Bytes := (image.fileToExtents off).1

/-- The conversions scanned from the name of the object. -/
def ImageCtx.scanned (image : ImageCtx) (off : BitVec 64) : Int :=
  (image.sscanf (image.object off)).1

/-- What the query leaves: its result and its three outputs, the address only if it is written. -/
structure DstAddr where
  ret : Int
  objOffset : BitVec 64
  objId : BitVec 32
  objAddr : Option Bytes
  deriving DecidableEq, Repr

/-- `internal_get_data_dst_addr`; `plugin` is the view behind `plugin->msg_ref`, and `none` is the
`ceph_abort` of `get_cluster_id`. -/
def internalGetDataDstAddr (cfg : Config) (plugin : Option CcmView) (image : ImageCtx)
    (off : BitVec 64) : Option DstAddr :=
  let (objName, objOffset) := image.fileToExtents off
  let (ret, objId) := image.sscanf objName
  if ret ≠ 1 then some ⟨ret, objOffset, objId, none⟩
  else
    match plugin with
    | none => some ⟨-elibacc, objOffset, objId, none⟩
    | some view =>
        match cfg.accPoolSet image.mdPool with
        | none => none
        | some clusterId =>
            match getNodeId view clusterId objName image.mdPool with
            | .error _ => some ⟨-elibacc, objOffset, objId, none⟩
            | .ok (nodeId, _) =>
                if nodeId.toInt < 0 then some ⟨-elibacc, objOffset, objId, none⟩
                else
                  match getNodeRawIp view clusterId nodeId with
                  | .error code => some ⟨code.code, objOffset, objId, none⟩
                  -- the zero is in the inner `mgr_ret`, the outer one is returned
                  | .ok nodeIp => some ⟨-elibacc, objOffset, objId, some nodeIp⟩

/-! ## Agreement with the routing -/

/-- The target that `_calc_pt_target` reads for an op to the cache; `none` for any other op, and
when `get_node_id` fails and the process aborts. -/
def ptTarget (cfg : Config) (view : CcmView) (op : Op) : Option TargetView :=
  if (cfg.accPoolSet op.pool).isSome && filterMsg op.name then
    match getNodeId view (cfg.clusterId op.pool) op.name op.pool with
    | .error _ => none
    | .ok (nodeId, ptId) =>
        if nodeId.toInt < 0 then none
        else some { osd := nodeId.toInt, targetPool := op.pool, ptId := ptId }
  else none

/-- `_calc_pt_target` sends the op to a cache node, and the session with this node is opened at
the address. -/
def ServedAt (cfg : Config) (view : CcmView) (op : Op) (addr : Bytes) : Prop :=
  ∃ target port, ptTarget cfg view op = some target ∧ ∀ ptOk,
    getNodeIp view (cfg.clusterId op.pool)
        (BitVec.ofInt 32 (calcPtTarget cfg ptOk op target).1.osd) =
      .ok (ascii "tcp://" ++ addr ++ ascii ":" ++ port)

/-- An I/O to a byte of the image. -/
def dataIo (image : ImageCtx) (off : BitVec 64) : Op where
  pool := image.dataPool
  name := image.object off
  onfinish := true

/-- The query agrees with the routing: if it writes an address it returns 0 and the data is served
at this address, and otherwise it returns an error. -/
def LocationAgrees (cfg : Config) (plugin : Option CcmView) (image : ImageCtx)
    (off : BitVec 64) : Prop :=
  ∃ result, internalGetDataDstAddr cfg plugin image off = some result ∧
    match result.objAddr with
    | none => result.ret ≠ 0
    | some addr =>
        result.ret = 0 ∧ ∃ view, plugin = some view ∧ ServedAt cfg view (dataIo image off) addr

/-- The node lookups of the query succeed, for the metadata pool. -/
def Located (view : CcmView) (clusterId : Nat) (image : ImageCtx) (off : BitVec 64)
    (addr : Bytes) : Prop :=
  ∃ id ptId, getNodeId view clusterId (image.object off) image.mdPool = .ok (id, ptId) ∧
    0 ≤ id.toInt ∧ getNodeRawIp view clusterId id = .ok addr

variable {cfg : Config} {plugin : Option CcmView} {image : ImageCtx} {off : BitVec 64}
variable {clusterId : Nat} {result : DstAddr} {addr : Bytes}

/-- Every error has a code. -/
theorem CcmError.code_ne_zero (e : CcmError) : e.code ≠ 0 := by
  cases e <;> decide

/-- What the query can do: it returns without an address, with an error unless the name was
scanned in vain, or it writes the address it located and returns `-ELIBACC`. -/
theorem internalGetDataDstAddr_cases (plugin : Option CcmView) (off : BitVec 64)
    (hmd : cfg.accPoolSet image.mdPool = some clusterId) :
    ∃ result, internalGetDataDstAddr cfg plugin image off = some result ∧
      ((image.scanned off ≠ 1 ∧ result.ret = image.scanned off ∧ result.objAddr = none) ∨
        (image.scanned off = 1 ∧ result.ret ≠ 0 ∧ result.objAddr = none ∧
          ∀ view addr, plugin = some view → ¬ Located view clusterId image off addr) ∨
        (image.scanned off = 1 ∧ result.ret = -elibacc ∧
          ∃ view addr, plugin = some view ∧ Located view clusterId image off addr ∧
            result.objAddr = some addr)) := by
  have herr : -elibacc ≠ 0 := by decide
  unfold internalGetDataDstAddr
  simp only
  by_cases hscan : (image.sscanf (image.fileToExtents off).1).1 ≠ 1
  · rw [if_pos hscan]
    exact ⟨_, rfl, .inl ⟨hscan, rfl, rfl⟩⟩
  · rw [if_neg hscan]
    rw [not_not] at hscan
    cases plugin with
    | none => exact ⟨_, rfl, .inr (.inl ⟨hscan, herr, rfl, fun _ _ h => by cases h⟩)⟩
    | some view =>
        simp only [hmd]
        cases hnode : getNodeId view clusterId (image.fileToExtents off).1 image.mdPool with
        | error e =>
            refine ⟨_, rfl, .inr (.inl ⟨hscan, herr, rfl, ?_⟩)⟩
            intro view' addr hview hlocated
            cases hview
            obtain ⟨id, ptId, hid, -⟩ := hlocated
            cases hnode.symm.trans hid
        | ok found =>
            obtain ⟨id, ptId⟩ := found
            simp only
            by_cases hneg : id.toInt < 0
            · rw [if_pos hneg]
              refine ⟨_, rfl, .inr (.inl ⟨hscan, herr, rfl, ?_⟩)⟩
              intro view' addr hview hlocated
              cases hview
              obtain ⟨id', ptId', hid, hpos, -⟩ := hlocated
              cases hnode.symm.trans hid
              omega
            · rw [if_neg hneg]
              cases hip : getNodeRawIp view clusterId id with
              | error e =>
                  refine ⟨_, rfl, .inr (.inl ⟨hscan, e.code_ne_zero, rfl, ?_⟩)⟩
                  intro view' addr hview hlocated
                  cases hview
                  obtain ⟨id', ptId', hid, -, haddr⟩ := hlocated
                  cases hnode.symm.trans hid
                  cases hip.symm.trans haddr
              | ok addr =>
                  exact ⟨_, rfl, .inr (.inr ⟨hscan, rfl, view, addr, rfl,
                    ⟨id, ptId, hnode, Int.not_lt.mp hneg, hip⟩, rfl⟩)⟩

/-- What the lookups of the query locate is where an op to the object in the pool they are made
for is served. -/
theorem Located.servedAt {view : CcmView} (h : Located view clusterId image off addr)
    (hmd : cfg.accPoolSet image.mdPool = some clusterId)
    (hfilter : filterMsg (image.object off) = true) :
    ServedAt cfg view { pool := image.mdPool, name := image.object off, onfinish := true }
      addr := by
  obtain ⟨id, ptId, hid, hpos, haddr⟩ := h
  have hcluster : cfg.clusterId image.mdPool = clusterId := by rw [Config.clusterId, hmd]; rfl
  have hsent : ((cfg.accPoolSet image.mdPool).isSome && filterMsg (image.object off)) = true := by
    rw [hmd, hfilter]
    rfl
  have htarget : ptTarget cfg view
      { pool := image.mdPool, name := image.object off, onfinish := true } =
      some { osd := id.toInt, targetPool := image.mdPool, ptId := ptId } := by
    rw [ptTarget, if_pos hsent, hcluster, hid]
    exact if_neg (Int.not_lt.mpr hpos)
  rw [getNodeRawIp] at haddr
  cases hport : nodePort view clusterId id with
  | error e => rw [hport] at haddr; cases haddr
  | ok found =>
      rw [hport] at haddr
      cases haddr
      refine ⟨_, ascii (toString found.2.toNat), htarget, ?_⟩
      intro ptOk
      rw [calcPtTarget, if_pos hsent, hcluster, getNodeIp]
      show (nodePort view clusterId (BitVec.ofInt 32 id.toInt)).map _ = _
      rw [BitVec.ofInt_toInt, hport]
      rfl

/-- The query agrees with the routing exactly if it cannot write an address and does not take an
unscanned name for a success: the name of the object is scanned with a result that is not 0, and
if it is 1 then no plugin is loaded or one of the node lookups fails. -/
theorem locationAgrees_iff (hmd : cfg.accPoolSet image.mdPool = some clusterId) :
    LocationAgrees cfg plugin image off ↔
      image.scanned off ≠ 0 ∧ (image.scanned off = 1 →
        ∀ view addr, plugin = some view → ¬ Located view clusterId image off addr) := by
  obtain ⟨result, hresult, hcases⟩ := internalGetDataDstAddr_cases plugin off hmd
  constructor
  · intro h
    obtain ⟨result', hresult', hagrees⟩ := h
    obtain rfl : result = result' := Option.some.inj (hresult.symm.trans hresult')
    obtain ⟨hscan, hret, hnone⟩ | ⟨hscan, -, -, hfails⟩ |
      ⟨hscan, hret, view, addr, -, -, hsome⟩ := hcases
    · rw [hnone, hret] at hagrees
      exact ⟨hagrees, fun hone => absurd hone hscan⟩
    · exact ⟨by omega, fun _ => hfails⟩
    · rw [hsome, hret] at hagrees
      exact absurd hagrees.1 (by decide)
  · intro h
    obtain ⟨hzero, hfails⟩ := h
    refine ⟨result, hresult, ?_⟩
    obtain ⟨hscan, hret, hnone⟩ | ⟨-, hret, hnone, -⟩ |
      ⟨hscan, -, view, addr, hview, hlocated, -⟩ := hcases
    · rw [hnone, hret]
      exact hzero
    · rw [hnone]
      exact hret
    · exact absurd hlocated (hfails hscan view addr hview)

/-- Two accelerated pools in cluster 1. -/
def twoPools : Config where
  accPoolSet pool := if pool = 2 ∨ pool = 7 then some 1 else none

/-- An image with its metadata in pool 2 and its data in pool 7. -/
def twoPoolImage : ImageCtx where
  mdPool := 2
  dataPool := 7
  fileToExtents off := (ascii "rbd_data.135421846e0f.0000000000000000", off)
  sscanf _ := (1, 0)

/-- Two partitions on the nodes 3 and 4; the pool decides between them. -/
def twoNodeView : CcmView where
  ptNum _ := some 2
  ptEntry _ ptId := some { nodeId := if ptId = 0 then 3 else 4, indexInNode := 0 }
  nodeInfo _ nodeId :=
    some { publicAddrStr := if nodeId = 3 then ascii "10.0.0.3" else ascii "10.0.0.4"
           portNum := 1
           ports := fun _ => 7880 }
  hash obj := (obj.headD 0).val

/-- Without the plugin, the query reports an error. -/
theorem locationAgrees_twoPoolImage : LocationAgrees twoPools none twoPoolImage 512 := by
  have hmd : twoPools.accPoolSet twoPoolImage.mdPool = some 1 := rfl
  refine (locationAgrees_iff hmd).mpr ⟨by decide, ?_⟩
  intro _ view addr hview
  cases hview

/-- The address of node 3 is written with the result `-ELIBACC`, and node 4 serves the data. -/
theorem not_locationAgrees_twoPoolImage :
    ¬ LocationAgrees twoPools (some twoNodeView) twoPoolImage 512 ∧
    internalGetDataDstAddr twoPools (some twoNodeView) twoPoolImage 512 =
      some ⟨-79, 512, 0, some (ascii "10.0.0.3")⟩ ∧
    ServedAt twoPools twoNodeView (dataIo twoPoolImage 512) (ascii "10.0.0.4") := by
  have hquery : internalGetDataDstAddr twoPools (some twoNodeView) twoPoolImage 512 =
      some ⟨-79, 512, 0, some (ascii "10.0.0.3")⟩ := by decide
  have hdata : Located twoNodeView 1 { twoPoolImage with mdPool := 7 } 512 (ascii "10.0.0.4") :=
    ⟨_, 1, rfl, by decide, by decide⟩
  refine ⟨?_, hquery, hdata.servedAt rfl (by decide)⟩
  intro h
  obtain ⟨result, hresult, hagrees⟩ := h
  obtain rfl : result = _ := Option.some.inj (hresult.symm.trans hquery)
  exact absurd hagrees.1 (by decide)

end GlobalCacheAdaptor.ClientAdaptor
