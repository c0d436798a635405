import GlobalCacheAdaptor.Lib.Handles
import GlobalCacheAdaptor.CephProxy.StripeUnit

/-!
# The librbd calls

The five calls of `RbdWrapper.cc` that open a cluster, pools and images and close them again over a
ladder of labels. What the config, librados and librbd return is the input of a call; every open
that does not fail takes a new handle, and the log says when it is opened and closed. A label is
the end of a block (`closing`, `untilShutdown`), so that a `goto` leaves the block.

`allBalanced_iff` says which calls, made one after another, are balanced. `RadosInit` returns the
codes of its first steps if they are not 0, and its callers go on unless the code is negative: with
a positive code they use a client that was not started and give back a reference they do not have,
or stop at the assertion.
-/

namespace GlobalCacheAdaptor.CephProxy.Rbd

open Lib Regex ServerAdaptor

/-! ## The client and the handles -/

/-- `gProxyCtx`, with how often a reference was taken and `RadosShutdown` called, and the handles of
contexts and images. -/
structure World where
  initFlag : Bool
  ref : Int
  taken : Nat
  shutdowns : Nat
  next : Nat
  log : List HandleEvent

/-- The process at its start. -/
def World.init : World := ⟨false, 0, 0, 0, 0, []⟩

/-- A program that may abort. -/
abbrev Exec (α : Type) := StateT World Option α

/-- A context or an image, if it is open. -/
abbrev Handle := Option Nat

/-- `assert`, which a build with `NDEBUG` leaves out. -/
def assertion (ndebug : Bool) (condition : Prop) [Decidable condition] : Exec Unit := fun w =>
  if ndebug = true ∨ condition then some ((), w) else none

/-- `assert(gProxyCtx.init_flag)`. -/
def assertInit (ndebug : Bool) : Exec Unit := fun w => assertion ndebug (w.initFlag = true) w

/-- The world in which the next handle is open. -/
def World.opened (w : World) : World :=
  { w with next := w.next + 1, log := w.log ++ [.opened w.next] }

/-- A step that opens a context or an image unless it returns an error. -/
def openHandle (ret : Int) : Exec (Int × Handle) := fun w =>
  if ret < 0 then some ((ret, none), w) else some ((ret, some w.next), w.opened)

/-- `close()`, or a destructor: nothing happens to what is not open. -/
def closeHandle : Handle → Exec Handle
  | none => pure none
  | some handle => fun w => some (none, { w with log := w.log ++ [.closed handle] })

/-- A block up to the label that closes the handle. The destructor comes later. -/
def closing {α : Type} (handle : Handle) (body : Exec α) : Exec α := do
  let result ← body
  let handle ← closeHandle handle
  let _ ← closeHandle handle
  return result

/-- The world with one reference less, and without the client if it was the last. -/
def World.released (w : World) : World :=
  { w with
    ref := w.ref - 1
    initFlag := if w.ref - 1 = 0 then false else w.initFlag
    shutdowns := w.shutdowns + 1 }

/-- `RadosShutdown`. -/
def radosShutdown : Exec Unit := fun w => some ((), w.released)

/-- A block up to the label `shutdown`. -/
def untilShutdown {α : Type} (body : Exec α) : Exec α := do
  let result ← body
  radosShutdown
  return result

/-! ## `RadosInit` -/

/-- What the steps of `RadosInit` return. -/
structure RadosReplies where
  /-- `client.init` -/
  init : Int
  /-- `GetCfgItemCstr` of `ceph_conf_path` -/
  confPath : Int
  /-- `GetCfgItemCstr` of `ceph_keyring_path` -/
  keyringPath : Int
  confReadFile : Int
  /-- `conf_get` of `auth_cluster_required` -/
  confGet : Int
  /-- The authentication is `cephx`. -/
  cephx : Bool
  /-- `conf_set` of `keyring` -/
  setKeyring : Int
  confSet : Bytes → Int
  /-- The attempts of `connect`. -/
  connect : Nat → Int

/-- `RADOS_CONNECT_RETRY`. -/
def radosConnectRetry : Nat := 5

/-- The loop over `conf_map`: the code of the first entry that is refused. -/
def confSetAll (confSet : Bytes → Int) : List Bytes → Option Int
  | [] => none
  | key :: rest => if confSet key < 0 then some (confSet key) else confSetAll confSet rest

/-- The loop over `connect`, with the attempts that are left. -/
def connectLoop (connect : Nat → Int) : Nat → Nat → Int → Int
  | 0, _, ret => ret
  | left + 1, retryCount, _ =>
      let ret := connect retryCount
      if ret < 0 then connectLoop connect left (retryCount + 1) ret else ret

/-- `RadosInit` from the keyring on: the code it fails with, if it fails. -/
def lateInit (r : RadosReplies) (confMap : List Bytes) : Option Int :=
  if r.cephx = true ∧ r.setKeyring < 0 then some r.setKeyring
  else
    match confSetAll r.confSet confMap with
    | some ret => some ret
    | none =>
        let ret := connectLoop r.connect radosConnectRetry 0 0
        if ret < 0 then some ret else none

/-- `RadosInit` without a client, with `GetCephPath`: the code it fails with, if it fails. -/
def slowInit (r : RadosReplies) (confMap : List Bytes) : Option Int :=
  if r.init ≠ 0 then some r.init
  else if r.confPath ≠ 0 then some r.confPath
  else if r.keyringPath ≠ 0 then some r.keyringPath
  else if r.confReadFile ≠ 0 then some r.confReadFile
  else if r.confGet ≠ 0 then some r.confGet
  else lateInit r confMap

/-- The world in which `RadosInit` has taken the first reference. -/
def World.started (w : World) : World :=
  { w with ref := 1, initFlag := true, taken := w.taken + 1 }

/-- `RadosInit`, with `FastInitRados` for a client that is there. -/
def radosInit (r : RadosReplies) (confMap : List Bytes) : Exec Int := fun w =>
  if w.initFlag then some (0, { w with ref := w.ref + 1, taken := w.taken + 1 })
  else
    match slowInit r confMap with
    | some ret => some (ret, w)
    | none => some (0, w.started)

/-- A call from `RadosInit` to its end. -/
def withRados {α : Type} (r : RadosReplies) (confMap : List Bytes) (failed : Int → α)
    (body : Exec α) : Exec α := do
  let ret ← radosInit r confMap
  if ret < 0 then return failed ret
  untilShutdown body

/-! ## Contexts and images -/

/-- What the steps of `IoctxInit` return. -/
structure IoctxReplies where
  create : Int
  create2 : Int
  namespaceExists : Int
  found : Bool

/-- `IoctxSetNamespace`; -2 is `-ENOENT`. -/
def ioctxSetNamespace (r : IoctxReplies) (namespaceName : Bytes) : Int :=
  if namespaceName ≠ [] then
    if r.namespaceExists < 0 then r.namespaceExists
    else if r.found then 0
    else -2
  else 0

/-- `IoctxInit`. -/
def ioctxInit (ndebug : Bool) (r : IoctxReplies) (poolName namespaceName : Bytes) :
    Exec (Int × Handle) := do
  assertInit ndebug
  let (ret, ioctx) ← openHandle (if poolName ≠ [] then r.create else r.create2)
  if ret < 0 then return (ret, ioctx)
  let ret := ioctxSetNamespace r namespaceName
  if ret < 0 then
    let ioctx ← closeHandle ioctx
    return (ret, ioctx)
  return (ret, ioctx)

/-- What opening an image returns. -/
structure ImageReplies where
  openById : Int
  openByName : Int

/-- `IoctxOpenImage`. -/
def ioctxOpenImage (r : ImageReplies) (imageId : Bytes) : Exec (Int × Handle) :=
  openHandle (if imageId ≠ [] then r.openById else r.openByName)

/-! ## The calls -/

/-- The arguments of `CephLibrbdSnapRemove` and what its steps return. -/
structure SnapRemove where
  poolId : Int
  namespaceName : Option Bytes
  imageId : Option Bytes
  snapId : Nat
  rados : RadosReplies
  ioctx : IoctxReplies
  image : ImageReplies
  /-- `snap_remove_by_id`; the name of the snapshot is always empty. -/
  snapRemoveById : Int

/-- The key that two of the calls set. -/
def writethroughKey : Bytes := ascii "rbd_cache_writethrough_until_flush"

/-- What is not there counts as removed. -/
def ignoreNoEnt (ret : Int) : Int := if ret = -2 then 0 else ret

/-- `CephLibrbdSnapRemove` behind `RadosInit`. -/
def snapRemoveBody (ndebug : Bool) (x : SnapRemove) (namespaceName imageId : Bytes) :
    Exec Int := do
  let (ret, ioctx) ← ioctxInit ndebug x.ioctx [] namespaceName
  if ret < 0 then return ignoreNoEnt ret
  closing ioctx do
    let (ret, image) ← ioctxOpenImage x.image imageId
    if ret < 0 then return ignoreNoEnt ret
    closing image do
      return ignoreNoEnt x.snapRemoveById

/-- `CephLibrbdSnapRemove`; -22 is `-EINVAL`. The names of the pool, the image and the snapshot are
always empty. -/
def cephLibrbdSnapRemove (ndebug : Bool) (x : SnapRemove) : Exec Int :=
  match x.namespaceName, x.imageId with
  | some namespaceName, some imageId =>
      if x.poolId = 0 then pure (-22)
      else if imageId = [] then pure (-22)
      else if x.snapId = 0 then pure (-22)
      else withRados x.rados [writethroughKey] id (snapRemoveBody ndebug x namespaceName imageId)
  | _, _ => pure (-22)

/-- The arguments of `CephLibrbdGetPoolName` and what its steps return. -/
structure GetPoolName where
  poolId : Int
  namespaceName : Bytes
  rados : RadosReplies
  ioctx : IoctxReplies
  /-- `get_pool_name` -/
  poolName : Bytes
  /-- `get_id` -/
  pid : Int

/-- `CephLibrbdGetPoolName` behind `RadosInit`: the code, and the name if it is stored. -/
def getPoolNameBody (ndebug : Bool) (x : GetPoolName) : Exec (Int × Option Bytes) := do
  let (ret, ioctx) ← ioctxInit ndebug x.ioctx [] x.namespaceName
  if ret < 0 then return (ret, none)
  closing ioctx do
    assertion ndebug (x.pid = x.poolId)
    return (ret, some x.poolName)

/-- `CephLibrbdGetPoolName`. -/
def cephLibrbdGetPoolName (ndebug : Bool) (x : GetPoolName) : Exec (Int × Option Bytes) :=
  withRados x.rados [] (fun ret => (ret, none)) (getPoolNameBody ndebug x)

/-- The arguments of `CephLibrbdGetImageName` and what its steps return. -/
structure GetImageName where
  imageId : Bytes
  namespaceName : Bytes
  rados : RadosReplies
  ioctx : IoctxReplies
  image : ImageReplies
  /-- What `get_name` leaves in its argument. -/
  imageName : Bytes
  /-- What `get_id` leaves in its argument. -/
  iid : Bytes

/-- `CephLibrbdGetImageName` behind `RadosInit`: the code, and the name if it is stored. -/
def getImageNameBody (ndebug : Bool) (x : GetImageName) : Exec (Int × Option Bytes) := do
  let (ret, ioctx) ← ioctxInit ndebug x.ioctx [] x.namespaceName
  if ret < 0 then return (ret, none)
  closing ioctx do
    let (ret, image) ← ioctxOpenImage x.image x.imageId
    if ret < 0 then return (ret, none)
    closing image do
      assertion ndebug (x.iid = x.imageId)
      return (ret, some x.imageName)

/-- `CephLibrbdGetImageName`. -/
def cephLibrbdGetImageName (ndebug : Bool) (x : GetImageName) : Exec (Int × Option Bytes) :=
  withRados x.rados [] (fun ret => (ret, none)) (getImageNameBody ndebug x)

/-- The arguments of `CephLibrbdGetImageInfo` and what its steps return. -/
structure GetImageInfo where
  imageId : Option Bytes
  /-- The pointer for the result is not null. -/
  wantsResult : Bool
  rados : RadosReplies
  ioctx : IoctxReplies
  image : ImageReplies
  stat : Int
  numObjs : BitVec 32

/-- `CephLibrbdGetImageInfo` behind `RadosInit`: the code, and the number if it is stored. -/
def getImageInfoBody (ndebug : Bool) (x : GetImageInfo) (imageId : Bytes) :
    Exec (Int × Option (BitVec 32)) := do
  let (ret, ioctx) ← ioctxInit ndebug x.ioctx [] []
  if ret < 0 then return (ret, none)
  closing ioctx do
    let (ret, image) ← ioctxOpenImage x.image imageId
    if ret < 0 then return (ret, none)
    closing image do
      if x.stat < 0 then return (x.stat, none)
      return (x.stat, some x.numObjs)

/-- `CephLibrbdGetImageInfo`. -/
def cephLibrbdGetImageInfo (ndebug : Bool) (x : GetImageInfo) : Exec (Int × Option (BitVec 32)) :=
  match x.imageId with
  | some imageId =>
      if x.wantsResult = false then pure (-22, none)
      else withRados x.rados [] (fun ret => (ret, none)) (getImageInfoBody ndebug x imageId)
  | none => pure (-22, none)

/-! ## `CephLibrbdDiskUsage` -/

/-- `SigPoolInfo`. -/
structure SigPoolInfo where
  poolId : Int
  poolName : Bytes
  isEC : Bool
  k : BitVec 32
  m : BitVec 32
  usage : BitVec 64
  ecProfileName : Bytes

/-- `\s*(\d+)\s+(\S+)` -/
def poolPattern : Regex Byte :=
  .seq rxSpace.star (.seq (.group 1 rxDigit.plus) (.seq rxSpace.plus (.group 2 rxNonSpace.plus)))

/-- `ParsePoolMap`: a later line replaces an earlier one of the same id. -/
def parsePoolMap (outs : Bytes) : OrdMap Int SigPoolInfo :=
  ((tokens (byteOf '\n') outs).filterMap poolPattern.regexMatch).foldl (fun poolMap result =>
    let poolId := (atoi (str result 1)).toInt
    poolMap.insert poolId ⟨poolId, cStr (str result 2), false, 0, 0, 0, []⟩) .empty

/-- What the lines of a profile set, as `GetECPoolScale` reads them. -/
def readScale (outs : Bytes) (info : SigPoolInfo) : SigPoolInfo :=
  (tokens (byteOf '\n') outs).foldl (fun info line =>
    match parseSetting line with
    | .k value => { info with k := value }
    | .m value => { info with m := value }
    | _ => info) info

/-- What the steps of `CalImageUsage` return for a snapshot. -/
structure SnapUsage where
  openReadOnly : Int
  diff : Int
  used : BitVec 64

/-- What the steps of `CalImageUsage` return. -/
structure ImageUsage where
  openReadOnly : Int
  stat : Int
  snapList : Int
  snaps : List SnapUsage
  diff : Int
  used : BitVec 64

/-- What listing the images of a pool returns. -/
structure PoolImages where
  list2 : Int
  images : List ImageUsage

/-- The argument of `CephLibrbdDiskUsage` and what its steps return. -/
structure DiskReplies where
  /-- The pointer for the result is not null. -/
  wantsResult : Bool
  rados : RadosReplies
  lspools : MonReply
  /-- The reply about the profile of a pool, by the pool's name. -/
  ecReply : Bytes → MonReply
  /-- The reply about a profile, by its name. -/
  profileReply : Bytes → MonReply
  ioctx : Bytes → IoctxReplies
  images : Bytes → PoolImages

/-- A call of `CephLibrbdDiskUsage` where the monitor gives a scale that is not zero with every
profile. -/
structure DiskUsage extends DiskReplies where
  scale_ne : ∀ name info, 0 ≤ (profileReply name).ret.toInt →
    (readScale (cStr (profileReply name).outbl) info).k ≠ 0 ∧
      (readScale (cStr (profileReply name).outbl) info).m ≠ 0

/-- `MonCommand`. -/
def monCommand (ndebug : Bool) (reply : MonReply) : Exec (Int × Bytes) := do
  assertInit ndebug
  if reply.ret.toInt < 0 then return (reply.ret.toInt, [])
  return (0, cStr reply.outbl)

/-- `GetECPoolScale`. -/
def getECPoolScale (ndebug : Bool) (x : DiskReplies) (info : SigPoolInfo) :
    Exec (Int × SigPoolInfo) := do
  let (ret, outs) ← monCommand ndebug (x.profileReply info.ecProfileName)
  if ret ≠ 0 then return (ret, info)
  return (0, readScale outs info)

/-- One round of `CalPoolProperty`; -13 is `-EACCES`. -/
def poolProperty (ndebug : Bool) (x : DiskReplies) (info : SigPoolInfo) :
    Exec (Int × SigPoolInfo) := do
  let (ret, outs) ← monCommand ndebug (x.ecReply info.poolName)
  if ret < 0 then
    if ret = -13 then return (0, { info with isEC := false, k := 1, m := 2 })
    return (ret, info)
  let info := { info with isEC := true, k := 0, m := 0 }
  match ecProfilePattern.regexMatch outs with
  | none => return (-1, info)
  | some result =>
      let (ret, info) ← getECPoolScale ndebug x { info with ecProfileName := cStr (str result 1) }
      if ret < 0 then return (ret, info)
      assertion ndebug (info.k ≠ 0 ∧ info.m ≠ 0)
      return (0, info)

/-- `CalPoolProperty`. -/
def calPoolProperty (ndebug : Bool) (x : DiskReplies) :
    List SigPoolInfo → Exec (Int × List SigPoolInfo)
  | [] => pure (0, [])
  | info :: rest => do
      let (ret, info) ← poolProperty ndebug x info
      if ret < 0 then return (ret, info :: rest)
      let (ret, rest) ← calPoolProperty ndebug x rest
      return (ret, info :: rest)

/-- The loop over the snapshots in `CalImageUsage`, with the usage so far. -/
def snapsUsage : List SnapUsage → BitVec 64 → Exec (Int × BitVec 64)
  | [], usage => pure (0, usage)
  | snap :: rest, usage => do
      let (ret, snapImage) ← openHandle snap.openReadOnly
      if ret < 0 then return (ret, usage)
      if snap.diff < 0 then
        let snapImage ← closeHandle snapImage
        let _ ← closeHandle snapImage
        return (snap.diff, usage)
      -- only the destructor closes the image of the snapshot here
      let _ ← closeHandle snapImage
      snapsUsage rest (usage + snap.used)

/-- `CalImageUsage`. -/
def calImageUsage (x : ImageUsage) (usage : BitVec 64) : Exec (Int × BitVec 64) := do
  let (ret, image) ← openHandle x.openReadOnly
  if ret < 0 then return (ret, usage)
  closing image do
    if x.stat < 0 then return (x.stat, usage)
    if x.snapList < 0 then return (x.snapList, usage)
    let (ret, usage) ← snapsUsage x.snaps usage
    if ret < 0 then return (ret, usage)
    if x.diff < 0 then return (x.diff, usage)
    return (x.diff, usage + x.used)

/-- The loop over the images in `CalPoolUsage`, with the code so far. -/
def imagesUsage : List ImageUsage → Int → BitVec 64 → Exec (Int × BitVec 64)
  | [], ret, usage => pure (ret, usage)
  | image :: rest, _, usage => do
      let (ret, usage) ← calImageUsage image usage
      if ret < 0 then return (ret, usage)
      imagesUsage rest ret usage

/-- One round of `CalPoolUsage`. -/
def poolUsage (ndebug : Bool) (x : DiskReplies) (info : SigPoolInfo) :
    Exec (Int × SigPoolInfo) := do
  let (ret, ioctx) ← ioctxInit ndebug (x.ioctx info.poolName) info.poolName []
  if ret < 0 then return (ret, info)
  closing ioctx do
    let replies := x.images info.poolName
    if replies.list2 < 0 then return (replies.list2, info)
    let (ret, usage) ← imagesUsage replies.images replies.list2 info.usage
    return (ret, { info with usage := usage })

/-- `CalPoolUsage`, with the code so far. -/
def calPoolUsage (ndebug : Bool) (x : DiskReplies) :
    List SigPoolInfo → Int → Exec (Int × List SigPoolInfo)
  | [], ret => pure (ret, [])
  | info :: rest, _ => do
      let (ret, info) ← poolUsage ndebug x info
      if ret < 0 then return (ret, info :: rest)
      let (ret, rest) ← calPoolUsage ndebug x rest ret
      return (ret, info :: rest)

/-- The sum over the pools, in MB. -/
def totalUsage (infos : List SigPoolInfo) : BitVec 64 :=
  (infos.foldl (fun total info =>
    total + info.usage * (info.k + info.m).signExtend 64 / info.k.signExtend 64) 0) / (1024 * 1024)

/-- `CephLibrbdDiskUsage` behind `RadosInit`: the code, and the usage if it is stored. -/
def diskUsageBody (ndebug : Bool) (x : DiskReplies) : Exec (Int × Option (BitVec 64)) := do
  let (ret, outs) ← monCommand ndebug x.lspools
  if ret < 0 then return (ret, none)
  let (ret, infos) ← calPoolProperty ndebug x (parsePoolMap outs).values
  if ret < 0 then return (ret, none)
  let (ret, infos) ← calPoolUsage ndebug x infos 0
  if ret < 0 then return (ret, none)
  return (ret, some (totalUsage infos))

/-- `CephLibrbdDiskUsage`. -/
def cephLibrbdDiskUsage (ndebug : Bool) (x : DiskReplies) : Exec (Int × Option (BitVec 64)) :=
  if x.wantsResult = false then pure (-22, none)
  else withRados x.rados [writethroughKey] (fun ret => (ret, none)) (diskUsageBody ndebug x)

/-! ## Calls one after another -/

/-- A call of the interface. -/
inductive Call where
  | snapRemove (x : SnapRemove)
  | getPoolName (x : GetPoolName)
  | getImageName (x : GetImageName)
  | getImageInfo (x : GetImageInfo)
  | diskUsage (x : DiskUsage)

/-- What a call leaves, if it returns. -/
def Call.exec (ndebug : Bool) (w : World) : Call → Option World
  | .snapRemove x => (cephLibrbdSnapRemove ndebug x w).map Prod.snd
  | .getPoolName x => (cephLibrbdGetPoolName ndebug x w).map Prod.snd
  | .getImageName x => (cephLibrbdGetImageName ndebug x w).map Prod.snd
  | .getImageInfo x => (cephLibrbdGetImageInfo ndebug x w).map Prod.snd
  | .diskUsage x => (cephLibrbdDiskUsage ndebug x.toDiskReplies w).map Prod.snd

/-- What a balanced call leaves: the references it found, one `RadosShutdown` if and only if it took
a reference, and for every handle nothing, or one open and then one close. -/
structure Balanced (w w' : World) : Prop where
  ref : w'.ref = w.ref
  shutdown : (w'.taken = w.taken ∧ w'.shutdowns = w.shutdowns) ∨
    (w'.taken = w.taken + 1 ∧ w'.shutdowns = w.shutdowns + 1)
  closed : ∃ log, w'.log = w.log ++ log ∧ ∀ handle, onHandle handle log = [] ∨
    onHandle handle log = [.opened handle, .closed handle]

/-- Each of these calls, made one after another, returns and is balanced. -/
def AllBalanced (ndebug : Bool) : World → List Call → Prop
  | _, [] => True
  | w, call :: rest =>
      ∃ w', call.exec ndebug w = some w' ∧ Balanced w w' ∧ AllBalanced ndebug w' rest

/-- The steps of `RadosInit` whose code it passes on whatever its sign. -/
def RadosReplies.early (r : RadosReplies) : List Int :=
  [r.init, r.confPath, r.keyringPath, r.confReadFile, r.confGet]

/-- The first of these steps that does not return 0 returns a positive code. -/
def RadosReplies.positive (r : RadosReplies) : Bool :=
  match r.early.find? (· ≠ 0) with
  | some ret => decide (0 < ret)
  | none => false

/-- What `IoctxInit` returns. -/
def IoctxReplies.ret (r : IoctxReplies) (poolName namespaceName : Bytes) : Int :=
  let ret := if poolName ≠ [] then r.create else r.create2
  if ret < 0 then ret else ioctxSetNamespace r namespaceName

/-- The code opens the context of the pool. -/
def GetPoolName.opens (x : GetPoolName) : Prop :=
  slowInit x.rados [] = none ∧ 0 ≤ x.ioctx.ret [] x.namespaceName

/-- The code opens the image. -/
def GetImageName.opens (x : GetImageName) : Prop :=
  slowInit x.rados [] = none ∧ 0 ≤ x.ioctx.ret [] x.namespaceName ∧
    0 ≤ (if x.imageId ≠ [] then x.image.openById else x.image.openByName)

/-- The arguments pass the checks. -/
def SnapRemove.accepted (x : SnapRemove) : Bool :=
  x.namespaceName.isSome && decide (x.poolId ≠ 0) && decide (x.snapId ≠ 0) &&
    match x.imageId with
    | some imageId => decide (imageId ≠ [])
    | none => false

/-- The steps of `RadosInit` return no positive code, and with assertions the ids are those asked
for. -/
def Call.Clean (ndebug : Bool) : Call → Prop
  | .snapRemove x => x.accepted = true → x.rados.positive = false
  | .getPoolName x =>
      x.rados.positive = false ∧ (ndebug = false → x.opens → x.pid = x.poolId)
  | .getImageName x =>
      x.rados.positive = false ∧ (ndebug = false → x.opens → x.iid = x.imageId)
  | .getImageInfo x =>
      x.imageId.isSome = true ∧ x.wantsResult = true → x.rados.positive = false
  | .diskUsage x => x.wantsResult = true → x.rados.positive = false

/-! ## Blocks that close what they open -/

/-- No assertion about the client fails. -/
def Enabled (ndebug : Bool) (w : World) : Prop := ndebug = true ∨ w.initFlag = true

/-- The references are as they were, and every handle that was opened is closed. -/
structure Keeps (w w' : World) : Prop where
  initFlag : w'.initFlag = w.initFlag
  ref : w'.ref = w.ref
  taken : w'.taken = w.taken
  shutdowns : w'.shutdowns = w.shutdowns
  paired : ∃ log, w'.log = w.log ++ log ∧ Paired w.next w'.next log

theorem Keeps.refl (w : World) : Keeps w w :=
  ⟨rfl, rfl, rfl, rfl, [], (List.append_nil _).symm, .nil _⟩

theorem Keeps.trans (w t u : World) (h : Keeps w t) (h' : Keeps t u) : Keeps w u := by
  obtain ⟨log, hlog, hpaired⟩ := h.paired
  obtain ⟨log', hlog', hpaired'⟩ := h'.paired
  refine ⟨h'.initFlag.trans h.initFlag, h'.ref.trans h.ref, h'.taken.trans h.taken,
    h'.shutdowns.trans h.shutdowns, log ++ log', ?_, hpaired.append hpaired'⟩
  rw [hlog', hlog, List.append_assoc]

theorem Enabled.keep {ndebug : Bool} (w t : World) (h : Enabled ndebug w) (hkeeps : Keeps w t) :
    Enabled ndebug t := h.imp_right fun hflag => hkeeps.initFlag.trans hflag

/-- A block around which a handle is open. -/
theorem Keeps.wrap {w w' : World} (h : Keeps w.opened w') :
    Keeps w { w' with log := w'.log ++ [.closed w.next] } := by
  obtain ⟨log, hlog, hpaired⟩ := h.paired
  refine ⟨h.initFlag, h.ref, h.taken, h.shutdowns, _, ?_, hpaired.wrap⟩
  rw [hlog]
  simp only [World.opened, List.append_assoc]

/-- A part of a call that returns and closes what it opens. -/
def Settles {α : Type} (ndebug : Bool) (body : Exec α) : Prop :=
  Returns (Enabled ndebug) Keeps body

section Blocks

variable {ndebug : Bool} {α β γ : Type}

theorem Settles.pure (result : α) : Settles ndebug (pure result : Exec α) :=
  Returns.pure Keeps.refl result

theorem Settles.bind {program : Exec α} {next : α → Exec β} (h : Settles ndebug program)
    (hnext : ∀ result, Settles ndebug (next result)) : Settles ndebug (program >>= next) :=
  Returns.bind Keeps.trans Enabled.keep h hnext

theorem Settles.ite {c : Prop} [Decidable c] {yes no : Exec α} (hyes : Settles ndebug yes)
    (hno : Settles ndebug no) : Settles ndebug (if c then yes else no) := Returns.ite hyes hno

theorem settles_assertion {condition : Prop} [Decidable condition]
    (h : ndebug = true ∨ condition) : Settles ndebug (assertion ndebug condition) :=
  fun w _ => ⟨(), w, if_pos h, Keeps.refl w⟩

/-- A step with this code, which opens the next handle if the code is no error. -/
def Opens (ndebug : Bool) (program : Exec (Int × Handle)) (ret : Int) : Prop :=
  ∀ w, Enabled ndebug w →
    (ret < 0 ∧ ∃ w', program w = some ((ret, none), w') ∧ Keeps w w') ∨
      (0 ≤ ret ∧ program w = some ((ret, some w.next), w.opened))

theorem opens_openHandle (ret : Int) : Opens ndebug (openHandle ret) ret := by
  intro w _
  by_cases hret : ret < 0
  · exact .inl ⟨hret, w, if_pos hret, Keeps.refl w⟩
  · exact .inr ⟨by omega, if_neg hret⟩

/-- A block closes its handle where it returns. -/
theorem closing_of_run {body : Exec α} {w w' : World} {result : α} (handle : Nat)
    (h : body w = some (result, w')) :
    closing (some handle) body w =
      some (result, { w' with log := w'.log ++ [.closed handle] }) := bind_of_run h

/-- A step that opens a handle, a block around which it is open, and what comes after it. -/
theorem Opens.settles {program : Exec (Int × Handle)} {ret : Int} (h : Opens ndebug program ret)
    {next : Int × Handle → Exec α} (hfailed : ret < 0 → Settles ndebug (next (ret, none)))
    {body : Exec β} {after : β → Exec α}
    (hnext : ∀ handle, 0 ≤ ret → next (ret, some handle) = closing (some handle) body >>= after)
    (hbody : 0 ≤ ret → Settles ndebug body)
    (hafter : ∀ result, Settles ndebug (after result)) : Settles ndebug (program >>= next) := by
  intro w hw
  rcases h w hw with ⟨hret, w', hrun, hkeeps⟩ | ⟨hret, hrun⟩
  · obtain ⟨result, t, hrun', hkeeps'⟩ := hfailed hret w' (hw.keep w w' hkeeps)
    exact ⟨result, t, (bind_of_run hrun).trans hrun', hkeeps.trans w w' t hkeeps'⟩
  · obtain ⟨result, w', hrun', hkeeps⟩ := hbody hret w.opened hw
    have hwrap := hkeeps.wrap
    obtain ⟨result', t, hrun'', hkeeps'⟩ := hafter result _ (hw.keep _ _ hwrap)
    refine ⟨result', t, ?_, hwrap.trans _ _ _ hkeeps'⟩
    rw [bind_of_run hrun, hnext w.next hret, bind_of_run (closing_of_run w.next hrun')]
    exact hrun''

/-- One step of a ladder: leave it on an error, else close the handle at the end of the block. -/
theorem Opens.settles_ladder {program : Exec (Int × Handle)} {ret : Int}
    (h : Opens ndebug program ret) {next : Int × Handle → Exec α} {failed : α} {body : Exec α}
    (hfailed : ret < 0 → next (ret, none) = pure failed)
    (hnext : ∀ handle, ¬ ret < 0 → next (ret, some handle) = closing (some handle) body)
    (hbody : 0 ≤ ret → Settles ndebug body) : Settles ndebug (program >>= next) := by
  refine h.settles (fun hret => ?_) (fun handle hret => ?_) hbody Settles.pure
  · rw [hfailed hret]
    exact Settles.pure _
  · rw [bind_pure]
    exact hnext handle (by omega)

/-- `IoctxInit` opens a context unless it returns an error. -/
theorem opens_ioctxInit (r : IoctxReplies) (poolName namespaceName : Bytes) :
    Opens ndebug (ioctxInit ndebug r poolName namespaceName) (r.ret poolName namespaceName) := by
  intro w hw
  have hassert : assertInit ndebug w = some ((), w) := if_pos hw
  rw [ioctxInit, bind_of_run hassert, IoctxReplies.ret]
  generalize hcreate : (if poolName ≠ [] then r.create else r.create2) = created
  by_cases hneg : created < 0
  · have hrun : openHandle created w = some ((created, none), w) := if_pos hneg
    rw [bind_of_run hrun]
    simp only [if_pos hneg]
    exact .inl ⟨hneg, w, rfl, Keeps.refl w⟩
  · have hrun : openHandle created w = some ((created, some w.next), w.opened) := if_neg hneg
    rw [bind_of_run hrun]
    simp only [if_neg hneg]
    by_cases hns : ioctxSetNamespace r namespaceName < 0
    · rw [if_pos hns]
      exact .inl ⟨hns, _, rfl, (Keeps.refl w.opened).wrap⟩
    · rw [if_neg hns]
      exact .inr ⟨by omega, rfl⟩

/-! ## The parts of the calls -/

theorem settles_snapRemoveBody (x : SnapRemove) (namespaceName imageId : Bytes) :
    Settles ndebug (snapRemoveBody ndebug x namespaceName imageId) := by
  refine (opens_ioctxInit _ _ _).settles_ladder (fun h => if_pos h) (fun _ h => if_neg h)
    fun _ => ?_
  exact (opens_openHandle _).settles_ladder (fun h => if_pos h) (fun _ h => if_neg h)
    fun _ => .pure _

theorem settles_getPoolNameBody {x : GetPoolName}
    (h : 0 ≤ x.ioctx.ret [] x.namespaceName → ndebug = true ∨ x.pid = x.poolId) :
    Settles ndebug (getPoolNameBody ndebug x) := by
  refine (opens_ioctxInit _ _ _).settles_ladder (fun h => if_pos h) (fun _ h => if_neg h)
    fun hret => ?_
  exact (settles_assertion (h hret)).bind fun _ => .pure _

theorem settles_getImageNameBody {x : GetImageName}
    (h : 0 ≤ x.ioctx.ret [] x.namespaceName →
      0 ≤ (if x.imageId ≠ [] then x.image.openById else x.image.openByName) →
      ndebug = true ∨ x.iid = x.imageId) :
    Settles ndebug (getImageNameBody ndebug x) := by
  refine (opens_ioctxInit _ _ _).settles_ladder (fun h => if_pos h) (fun _ h => if_neg h)
    fun hioctx => ?_
  refine (opens_openHandle _).settles_ladder (fun h => if_pos h) (fun _ h => if_neg h)
    fun himage => ?_
  exact (settles_assertion (h hioctx himage)).bind fun _ => .pure _

theorem settles_getImageInfoBody (x : GetImageInfo) (imageId : Bytes) :
    Settles ndebug (getImageInfoBody ndebug x imageId) := by
  refine (opens_ioctxInit _ _ _).settles_ladder (fun h => if_pos h) (fun _ h => if_neg h)
    fun _ => ?_
  refine (opens_openHandle _).settles_ladder (fun h => if_pos h) (fun _ h => if_neg h)
    fun _ => ?_
  exact .ite (.pure _) (.pure _)

/-- A command that is sent fails with the code of its reply, or gives its text. -/
theorem monCommand_run (reply : MonReply) {w : World} (hw : Enabled ndebug w) :
    monCommand ndebug reply w =
      some (if reply.ret.toInt < 0 then (reply.ret.toInt, []) else (0, cStr reply.outbl), w) := by
  have hassert : assertInit ndebug w = some ((), w) := if_pos hw
  rw [monCommand, bind_of_run hassert]
  split_ifs
  · rfl
  · rfl

theorem settles_monCommand (reply : MonReply) : Settles ndebug (monCommand ndebug reply) :=
  fun w hw => ⟨_, w, monCommand_run reply hw, Keeps.refl w⟩

/-- What the monitor answers about a pool in a round of `CalPoolProperty`. -/
inductive PoolAnswer where
  /-- A command fails, or the reply names no profile. -/
  | failed
  | replicated
  | profile (text : Bytes)

/-- The answer about a pool, read off the replies. -/
def DiskReplies.answer (x : DiskReplies) (poolName : Bytes) : PoolAnswer :=
  let reply := x.ecReply poolName
  if reply.ret.toInt < 0 then
    if reply.ret.toInt = -13 then .replicated else .failed
  else
    match ecProfilePattern.regexMatch (cStr reply.outbl) with
    | none => .failed
    | some result =>
        let profile := x.profileReply (cStr (str result 1))
        if profile.ret.toInt < 0 then .failed else .profile (cStr profile.outbl)

theorem getECPoolScale_run (x : DiskReplies) (info : SigPoolInfo) {w : World}
    (hw : Enabled ndebug w) :
    getECPoolScale ndebug x info w =
      some (if (x.profileReply info.ecProfileName).ret.toInt < 0 then
          ((x.profileReply info.ecProfileName).ret.toInt, info)
        else (0, readScale (cStr (x.profileReply info.ecProfileName).outbl) info), w) := by
  rw [getECPoolScale, bind_of_run (monCommand_run _ hw)]
  by_cases hneg : (x.profileReply info.ecProfileName).ret.toInt < 0
  · simp only [if_pos hneg]
    exact congrFun (if_pos (by omega)) w
  · simp only [if_neg hneg]
    rfl

/-- A round of `CalPoolProperty` fails, finds a replicated pool, or reads a profile and asserts that
its scale is not zero. -/
theorem poolProperty_cases (x : DiskReplies) (info : SigPoolInfo) {w : World}
    (hw : Enabled ndebug w) :
    (x.answer info.poolName = .failed ∧
        ∃ ret info', ret < 0 ∧ poolProperty ndebug x info w = some ((ret, info'), w)) ∨
      (x.answer info.poolName = .replicated ∧
        ∃ info', info'.k = 1 ∧ info'.m = 2 ∧
          poolProperty ndebug x info w = some ((0, info'), w)) ∨
      ∃ name start, 0 ≤ (x.profileReply name).ret.toInt ∧ start.k = 0 ∧ start.m = 0 ∧
        x.answer info.poolName = .profile (cStr (x.profileReply name).outbl) ∧
        poolProperty ndebug x info w =
          (do
            let info := readScale (cStr (x.profileReply name).outbl) start
            assertion ndebug (info.k ≠ 0 ∧ info.m ≠ 0)
            return (0, info)) w := by
  rw [poolProperty, bind_of_run (monCommand_run _ hw), DiskReplies.answer]
  by_cases hneg : (x.ecReply info.poolName).ret.toInt < 0
  · simp only [if_pos hneg]
    by_cases hacces : (x.ecReply info.poolName).ret.toInt = -13
    · rw [if_pos hacces, if_pos hacces]
      exact .inr (.inl ⟨rfl, _, rfl, rfl, rfl⟩)
    · rw [if_neg hacces, if_neg hacces]
      exact .inl ⟨rfl, _, _, hneg, rfl⟩
  · simp only [if_neg hneg, if_neg (Int.lt_irrefl 0)]
    cases hmatch : ecProfilePattern.regexMatch (cStr (x.ecReply info.poolName).outbl) with
    | none => exact .inl ⟨rfl, -1, _, by decide, rfl⟩
    | some result =>
        dsimp only
        have hrun := getECPoolScale_run x
          { info with isEC := true, k := 0, m := 0, ecProfileName := cStr (str result 1) } hw
        dsimp only at hrun
        by_cases hprofile : (x.profileReply (cStr (str result 1))).ret.toInt < 0
        · rw [if_pos hprofile] at hrun ⊢
          rw [bind_of_run hrun]
          exact .inl ⟨rfl, _, _, hprofile, congrFun (if_pos hprofile) w⟩
        · rw [if_neg hprofile] at hrun ⊢
          rw [bind_of_run hrun]
          exact .inr (.inr ⟨_, _, Int.not_lt.mp hprofile, rfl, rfl, rfl, rfl⟩)

/-- The assertion about the scale holds, since the monitor gives none that is zero. -/
theorem settles_poolProperty (x : DiskUsage) (info : SigPoolInfo) :
    Settles ndebug (poolProperty ndebug x.toDiskReplies info) := by
  intro w hw
  rcases poolProperty_cases x.toDiskReplies info hw with
    ⟨-, ret, info', -, hrun⟩ | ⟨-, info', -, -, hrun⟩ | ⟨name, start, hret, -, -, -, hrun⟩
  · exact ⟨_, w, hrun, Keeps.refl w⟩
  · exact ⟨_, w, hrun, Keeps.refl w⟩
  · rw [hrun]
    exact ((settles_assertion (.inr (x.scale_ne name start hret))).bind fun _ => .pure _) w hw

theorem settles_calPoolProperty (x : DiskUsage) (infos : List SigPoolInfo) :
    Settles ndebug (calPoolProperty ndebug x.toDiskReplies infos) := by
  induction infos with
  | nil => exact .pure _
  | cons info rest ih =>
      refine (settles_poolProperty x info).bind fun ⟨ret, info⟩ => ?_
      exact .ite (.pure _) (ih.bind fun _ => .pure _)

theorem settles_snapsUsage (snaps : List SnapUsage) (usage : BitVec 64) :
    Settles ndebug (snapsUsage snaps usage) := by
  induction snaps generalizing usage with
  | nil => exact .pure _
  | cons snap rest ih =>
      have hopens : Opens ndebug (openHandle snap.openReadOnly) snap.openReadOnly :=
        opens_openHandle _
      by_cases hdiff : snap.diff < 0
      · refine hopens.settles_ladder (fun h => if_pos h) (fun handle h => ?_)
          fun _ => Settles.pure (snap.diff, usage)
        simp only [if_neg h, if_pos hdiff]
        rfl
      · -- the image of the snapshot is closed before the next one is opened
        refine hopens.settles (fun h => ?_) (fun handle h => ?_) (fun _ => Settles.pure ())
          fun _ => ih (usage + snap.used)
        · simp only [if_pos h]
          exact .pure _
        · simp only [if_neg (show ¬ snap.openReadOnly < 0 by omega), if_neg hdiff]
          rfl

theorem settles_calImageUsage (x : ImageUsage) (usage : BitVec 64) :
    Settles ndebug (calImageUsage x usage) := by
  refine (opens_openHandle _).settles_ladder (fun h => if_pos h) (fun _ h => if_neg h)
    fun _ => ?_
  refine .ite (.pure _) (.ite (.pure _) ?_)
  refine (settles_snapsUsage x.snaps usage).bind fun ⟨ret, usage⟩ => ?_
  exact .ite (.pure _) (.ite (.pure _) (.pure _))

theorem settles_imagesUsage (images : List ImageUsage) (ret : Int) (usage : BitVec 64) :
    Settles ndebug (imagesUsage images ret usage) := by
  induction images generalizing ret usage with
  | nil => exact .pure _
  | cons image rest ih =>
      refine (settles_calImageUsage image usage).bind fun ⟨ret, usage⟩ => ?_
      exact .ite (.pure _) (ih ret usage)

theorem settles_poolUsage (x : DiskReplies) (info : SigPoolInfo) :
    Settles ndebug (poolUsage ndebug x info) := by
  refine (opens_ioctxInit _ _ _).settles_ladder (fun h => if_pos h) (fun _ h => if_neg h)
    fun _ => ?_
  refine .ite (.pure _) ?_
  exact (settles_imagesUsage _ _ _).bind fun _ => .pure _

theorem settles_calPoolUsage (x : DiskReplies) (infos : List SigPoolInfo) (ret : Int) :
    Settles ndebug (calPoolUsage ndebug x infos ret) := by
  induction infos generalizing ret with
  | nil => exact .pure _
  | cons info rest ih =>
      refine (settles_poolUsage x info).bind fun ⟨ret, info⟩ => ?_
      exact .ite (.pure _) ((ih ret).bind fun _ => .pure _)

theorem settles_diskUsageBody (x : DiskUsage) :
    Settles ndebug (diskUsageBody ndebug x.toDiskReplies) := by
  refine (settles_monCommand _).bind fun ⟨ret, outs⟩ => .ite (.pure _) ?_
  refine (settles_calPoolProperty x _).bind fun ⟨ret, infos⟩ => .ite (.pure _) ?_
  refine (settles_calPoolUsage x.toDiskReplies infos 0).bind fun ⟨ret, infos⟩ => ?_
  exact .ite (.pure _) (.pure _)

/-! ## From `RadosInit` to `RadosShutdown` -/

/-- Between two calls. -/
def Idle (w : World) : Prop := w.initFlag = false ∧ w.ref = 0

/-- A loop over `conf_map` stops with an error only. -/
theorem confSetAll_neg {confSet : Bytes → Int} {confMap : List Bytes} {ret : Int}
    (h : confSetAll confSet confMap = some ret) : ret < 0 := by
  induction confMap with
  | nil => cases h
  | cons key rest ih =>
      rw [confSetAll] at h
      split_ifs at h with hneg
      · cases h
        exact hneg
      · exact ih h

theorem lateInit_neg {r : RadosReplies} {confMap : List Bytes} {ret : Int}
    (h : lateInit r confMap = some ret) : ret < 0 := by
  rw [lateInit] at h
  by_cases hkeyring : r.cephx = true ∧ r.setKeyring < 0
  · rw [if_pos hkeyring] at h
    cases h
    exact hkeyring.2
  · rw [if_neg hkeyring] at h
    cases hset : confSetAll r.confSet confMap with
    | some ret' =>
        rw [hset] at h
        cases h
        exact confSetAll_neg hset
    | none =>
        rw [hset] at h
        dsimp only at h
        split_ifs at h with hconnect
        cases h
        exact hconnect

/-- `RadosInit` fails with the first code among its early steps, or else with a later one. -/
theorem slowInit_eq (r : RadosReplies) (confMap : List Bytes) :
    slowInit r confMap = (r.early.find? (· ≠ 0)).or (lateInit r confMap) := by
  rw [slowInit, RadosReplies.early]
  by_cases h1 : r.init = 0
  · by_cases h2 : r.confPath = 0
    · by_cases h3 : r.keyringPath = 0
      · by_cases h4 : r.confReadFile = 0
        · by_cases h5 : r.confGet = 0
          · simp [h1, h2, h3, h4, h5]
          · simp [h1, h2, h3, h4, h5]
        · simp [h1, h2, h3, h4]
      · simp [h1, h2, h3]
    · simp [h1, h2]
  · simp [h1]

/-- A positive code is passed on; any other failure is negative. -/
theorem slowInit_cases (r : RadosReplies) (confMap : List Bytes) :
    (r.positive = true ∧ ∃ ret, slowInit r confMap = some ret ∧ 0 < ret) ∨
      (r.positive = false ∧ ∀ ret, slowInit r confMap = some ret → ret < 0) := by
  rw [slowInit_eq, RadosReplies.positive]
  cases hfind : r.early.find? (· ≠ 0) with
  | none => exact .inr ⟨rfl, fun ret h => lateInit_neg h⟩
  | some ret =>
      have hne : ret ≠ 0 := by simpa using List.find?_some hfind
      by_cases hpos : 0 < ret
      · exact .inl ⟨decide_eq_true hpos, ret, rfl, hpos⟩
      · refine .inr ⟨decide_eq_false hpos, ?_⟩
        intro ret' h
        cases h
        omega

/-- A call that `RadosInit` lets go on, with a reference or not, ends with `RadosShutdown`. -/
theorem withRados_of_run {r : RadosReplies} {confMap : List Bytes} {failed : Int → α}
    {body : Exec α} {w t w' : World} {ret : Int} {result : α}
    (hinit : radosInit r confMap w = some (ret, t)) (hret : 0 ≤ ret)
    (hbody : body t = some (result, w')) :
    withRados r confMap failed body w = some (result, w'.released) := by
  rw [withRados, bind_of_run hinit, if_neg (by omega), untilShutdown, bind_of_run hbody]
  rfl

/-- A call whose body stops stops. -/
theorem withRados_of_stop {r : RadosReplies} {confMap : List Bytes} {failed : Int → α}
    {body : Exec α} {w t : World} {ret : Int} (hinit : radosInit r confMap w = some (ret, t))
    (hret : 0 ≤ ret) (hbody : body t = none) : withRados r confMap failed body w = none := by
  rw [withRados, bind_of_run hinit, if_neg (by omega), untilShutdown, bind_of_stop hbody]

/-- A call that does nothing. -/
theorem Balanced.refl (w : World) : Balanced w w :=
  ⟨rfl, .inl ⟨rfl, rfl⟩, [], (List.append_nil _).symm, fun _ => .inl rfl⟩

/-- A call whose `RadosInit` gives no positive code, and which closes what it opens. -/
theorem withRados_balanced {r : RadosReplies} {confMap : List Bytes} {failed : Int → α}
    {body : Exec α} {w : World} (hidle : Idle w) (hpos : r.positive = false)
    (hbody : slowInit r confMap = none → Settles ndebug body) :
    ∃ result w', withRados r confMap failed body w = some (result, w') ∧ Balanced w w' ∧
      Idle w' := by
  obtain ⟨hflag, href⟩ := hidle
  rcases slowInit_cases r confMap with ⟨hpos', -⟩ | ⟨-, hneg⟩
  · rw [hpos] at hpos'
    cases hpos'
  cases hslow : slowInit r confMap with
  | some ret =>
      have hrun : radosInit r confMap w = some (ret, w) := by simp [radosInit, hflag, hslow]
      refine ⟨failed ret, w, ?_, Balanced.refl w, hflag, href⟩
      rw [withRados, bind_of_run hrun, if_pos (hneg ret hslow)]
      rfl
  | none =>
      have hrun : radosInit r confMap w = some (0, w.started) := by
        simp [radosInit, hflag, hslow]
      obtain ⟨result, w', hrun', hkeeps⟩ := hbody hslow w.started (.inr rfl)
      obtain ⟨log, hlog, hpaired⟩ := hkeeps.paired
      have href' : w'.ref - 1 = 0 := by
        rw [hkeeps.ref]
        rfl
      refine ⟨result, w'.released, withRados_of_run hrun (Int.le_refl 0) hrun', ⟨?_, ?_, ?_⟩,
        if_pos href', href'⟩
      · exact href'.trans href.symm
      · exact .inr ⟨hkeeps.taken, congrArg (· + 1) hkeeps.shutdowns⟩
      · exact ⟨log, hlog, hpaired.once⟩

/-- A call that goes on after a positive code stops, or gives back a reference it did not take. -/
theorem withRados_unbalanced {r : RadosReplies} {confMap : List Bytes} {failed : Int → α}
    {body : Exec α} {w : World} (hidle : Idle w) (hpos : r.positive = true)
    (hstop : ndebug = false → ∀ w, w.initFlag = false → body w = none)
    (hbody : ndebug = true → Settles ndebug body) {result : α} {w' : World}
    (hrun : withRados r confMap failed body w = some (result, w')) : ¬ Balanced w w' := by
  rcases slowInit_cases r confMap with ⟨-, ret, hslow, hret⟩ | ⟨hpos', -⟩
  · have hinit : radosInit r confMap w = some (ret, w) := by
      simp [radosInit, hidle.1, hslow]
    cases ndebug with
    | false =>
        rw [withRados_of_stop hinit (by omega) (hstop rfl w hidle.1)] at hrun
        cases hrun
    | true =>
        obtain ⟨result', t, hbodyRun, hkeeps⟩ := hbody rfl w (.inl rfl)
        rw [withRados_of_run hinit (by omega) hbodyRun] at hrun
        cases hrun
        intro hbalanced
        have href : t.ref - 1 = w.ref := hbalanced.ref
        rw [hkeeps.ref] at href
        omega
  · rw [hpos] at hpos'
    cases hpos'

/-! ## Calls -/

/-- With assertions, nothing is sent to a client that is not there. -/
theorem assertInit_stop {w : World} (h : w.initFlag = false) : assertInit false w = none := by
  simp [assertInit, assertion, h]

theorem ioctxInit_stop {w : World} (h : w.initFlag = false) (r : IoctxReplies)
    (poolName namespaceName : Bytes) : ioctxInit false r poolName namespaceName w = none :=
  bind_of_stop (assertInit_stop h)

/-- What a call leaves, read off its program. -/
theorem map_snd_eq_some {program : Exec α} {w w' : World} :
    (program w).map Prod.snd = some w' ↔ ∃ result, program w = some (result, w') := by
  rw [Option.map_eq_some_iff]
  constructor
  · rintro ⟨⟨result, t⟩, hrun, rfl⟩
    exact ⟨result, hrun⟩
  · rintro ⟨result, hrun⟩
    exact ⟨(result, w'), hrun, rfl⟩

/-- A program that returns at once is balanced. -/
theorem pure_balanced (result : α) {w : World} (hidle : Idle w) :
    ∃ result' w', (pure result : Exec α) w = some (result', w') ∧ Balanced w w' ∧ Idle w' :=
  ⟨result, w, rfl, Balanced.refl w, hidle⟩

/-- `CephLibrbdSnapRemove` refuses its arguments or goes on to `RadosInit`. -/
theorem snapRemove_cases (ndebug : Bool) (x : SnapRemove) :
    (x.accepted = false ∧ cephLibrbdSnapRemove ndebug x = pure (-22)) ∨
      (x.accepted = true ∧ ∃ namespaceName imageId,
        cephLibrbdSnapRemove ndebug x = withRados x.rados [writethroughKey] id
          (snapRemoveBody ndebug x namespaceName imageId)) := by
  rw [SnapRemove.accepted, cephLibrbdSnapRemove]
  cases x.namespaceName with
  | none => exact .inl ⟨rfl, rfl⟩
  | some namespaceName =>
      cases x.imageId with
      | none => exact .inl ⟨by simp, rfl⟩
      | some imageId =>
          by_cases hpool : x.poolId = 0
          · exact .inl ⟨by simp [hpool], if_pos hpool⟩
          · by_cases himage : imageId = []
            · exact .inl ⟨by simp [himage], by simp [himage]⟩
            · by_cases hsnap : x.snapId = 0
              · exact .inl ⟨by simp [hsnap], by simp [hsnap]⟩
              · refine .inr ⟨by simp [hpool, himage, hsnap], namespaceName, imageId, ?_⟩
                dsimp only
                rw [if_neg hpool, if_neg himage, if_neg hsnap]

/-- `CephLibrbdGetImageInfo` refuses its arguments or goes on to `RadosInit`. -/
theorem getImageInfo_cases (ndebug : Bool) (x : GetImageInfo) :
    (¬ (x.imageId.isSome = true ∧ x.wantsResult = true) ∧
        cephLibrbdGetImageInfo ndebug x = pure (-22, none)) ∨
      ((x.imageId.isSome = true ∧ x.wantsResult = true) ∧ ∃ imageId,
        cephLibrbdGetImageInfo ndebug x = withRados x.rados [] (fun ret => (ret, none))
          (getImageInfoBody ndebug x imageId)) := by
  rw [cephLibrbdGetImageInfo]
  cases x.imageId with
  | none => exact .inl ⟨by simp, rfl⟩
  | some imageId =>
      by_cases hresult : x.wantsResult = false
      · exact .inl ⟨by simp [hresult], if_pos hresult⟩
      · exact .inr ⟨⟨rfl, Bool.eq_true_of_not_eq_false hresult⟩, imageId, if_neg hresult⟩

/-- A clean call returns, is balanced and leaves the client as it found it. -/
theorem Call.exec_of_clean {call : Call} (h : call.Clean ndebug) {w : World} (hidle : Idle w) :
    ∃ w', call.exec ndebug w = some w' ∧ Balanced w w' ∧ Idle w' := by
  have hlift : ∀ {α : Type} {program : Exec α},
      (∃ result w', program w = some (result, w') ∧ Balanced w w' ∧ Idle w') →
      ∃ w', (program w).map Prod.snd = some w' ∧ Balanced w w' ∧ Idle w' := by
    rintro α program ⟨result, w', hrun, hrest⟩
    exact ⟨w', map_snd_eq_some.mpr ⟨result, hrun⟩, hrest⟩
  cases call with
  | snapRemove x =>
      rcases snapRemove_cases ndebug x with ⟨-, heq⟩ | ⟨haccepted, namespaceName, imageId, heq⟩
      · rw [Call.exec, heq]
        exact hlift (pure_balanced _ hidle)
      · rw [Call.exec, heq]
        exact hlift (withRados_balanced hidle (h haccepted) fun _ => settles_snapRemoveBody _ _ _)
  | getPoolName x =>
      refine hlift (withRados_balanced hidle h.1 fun hslow =>
        settles_getPoolNameBody fun hret => ?_)
      cases ndebug with
      | true => exact .inl rfl
      | false => exact .inr (h.2 rfl ⟨hslow, hret⟩)
  | getImageName x =>
      refine hlift (withRados_balanced hidle h.1 fun hslow =>
        settles_getImageNameBody fun hioctx himage => ?_)
      cases ndebug with
      | true => exact .inl rfl
      | false => exact .inr (h.2 rfl ⟨hslow, hioctx, himage⟩)
  | getImageInfo x =>
      rcases getImageInfo_cases ndebug x with ⟨-, heq⟩ | ⟨haccepted, imageId, heq⟩
      · rw [Call.exec, heq]
        exact hlift (pure_balanced _ hidle)
      · rw [Call.exec, heq]
        exact hlift (withRados_balanced hidle (h haccepted) fun _ => settles_getImageInfoBody _ _)
  | diskUsage x =>
      rw [Call.exec, cephLibrbdDiskUsage]
      by_cases hresult : x.wantsResult = false
      · rw [if_pos hresult]
        exact hlift (pure_balanced _ hidle)
      · rw [if_neg hresult]
        exact hlift (withRados_balanced hidle (h (Bool.eq_true_of_not_eq_false hresult))
          fun _ => settles_diskUsageBody x)

/-- A ladder stops where a block in it stops. -/
theorem Opens.stop_ladder {program : Exec (Int × Handle)} {ret : Int}
    (h : Opens ndebug program ret) (hret : 0 ≤ ret) {next : Int × Handle → Exec α} {body : Exec α}
    (hnext : ∀ handle, ¬ ret < 0 → next (ret, some handle) = closing (some handle) body)
    {w : World} (hw : Enabled ndebug w) (hbody : body w.opened = none) :
    (program >>= next) w = none := by
  rcases h w hw with ⟨hneg, -⟩ | ⟨-, hrun⟩
  · omega
  · rw [bind_of_run hrun, hnext w.next (by omega)]
    exact bind_of_stop hbody

/-- With assertions, an id that is not the one asked for stops the call. -/
theorem assertion_stop {condition : Prop} [Decidable condition] (h : ¬ condition)
    {next : Unit → Exec α} (w : World) : (assertion false condition >>= next) w = none :=
  bind_of_stop (if_neg (by simpa using h))

theorem getPoolNameBody_stop {x : GetPoolName} (hret : 0 ≤ x.ioctx.ret [] x.namespaceName)
    (hpid : x.pid ≠ x.poolId) {w : World} (hflag : w.initFlag = true) :
    getPoolNameBody false x w = none :=
  (opens_ioctxInit _ _ _).stop_ladder hret (fun _ h => if_neg h) (.inr hflag)
    (assertion_stop hpid _)

theorem getImageNameBody_stop {x : GetImageName} (hret : 0 ≤ x.ioctx.ret [] x.namespaceName)
    (himage : 0 ≤ (if x.imageId ≠ [] then x.image.openById else x.image.openByName))
    (hiid : x.iid ≠ x.imageId) {w : World} (hflag : w.initFlag = true) :
    getImageNameBody false x w = none := by
  have hopens : Opens false (ioctxOpenImage x.image x.imageId)
      (if x.imageId ≠ [] then x.image.openById else x.image.openByName) := opens_openHandle _
  refine (opens_ioctxInit _ _ _).stop_ladder hret (fun _ h => if_neg h) (.inr hflag) ?_
  exact hopens.stop_ladder himage (fun _ h => if_neg h) (.inr hflag) (assertion_stop hiid _)

/-- A call with a reference whose body stops does not return. -/
theorem withRados_stop {r : RadosReplies} {confMap : List Bytes} {failed : Int → α}
    {body : Exec α} {w : World} (hidle : Idle w) (hslow : slowInit r confMap = none)
    (hbody : ∀ w, w.initFlag = true → body w = none) :
    withRados r confMap failed body w = none := by
  have hinit : radosInit r confMap w = some (0, w.started) := by
    simp [radosInit, hidle.1, hslow]
  exact withRados_of_stop hinit (Int.le_refl 0) (hbody w.started rfl)

/-- A balanced call is clean. -/
theorem Call.clean_of_balanced {call : Call} {w w' : World} (hidle : Idle w)
    (hexec : call.exec ndebug w = some w') (hbalanced : Balanced w w') : call.Clean ndebug := by
  -- a positive code would leave the call unbalanced, whatever comes behind `RadosInit`
  have hpositive : ∀ {α : Type} {r : RadosReplies} {confMap : List Bytes} {failed : Int → α}
      {body : Exec α}, (ndebug = false → ∀ w, w.initFlag = false → body w = none) →
      (ndebug = true → Settles ndebug body) →
      (withRados r confMap failed body w).map Prod.snd = some w' → r.positive = false := by
    intro α r confMap failed body hstop hbody hmap
    obtain ⟨result, hrun⟩ := map_snd_eq_some.mp hmap
    by_contra hpos
    exact withRados_unbalanced hidle (Bool.eq_true_of_not_eq_false hpos) hstop hbody hrun hbalanced
  have hioctx : ∀ {α : Type} {r : IoctxReplies} {poolName namespaceName : Bytes}
      {next : Int × Handle → Exec α}, ndebug = false → ∀ w : World, w.initFlag = false →
      (ioctxInit ndebug r poolName namespaceName >>= next) w = none := by
    rintro α r poolName namespaceName next rfl w hflag
    exact bind_of_stop (ioctxInit_stop hflag r poolName namespaceName)
  cases call with
  | snapRemove x =>
      intro haccepted
      rcases snapRemove_cases ndebug x with ⟨hnot, -⟩ | ⟨-, namespaceName, imageId, heq⟩
      · rw [haccepted] at hnot
        cases hnot
      · rw [Call.exec, heq] at hexec
        exact hpositive hioctx (fun _ => settles_snapRemoveBody _ _ _) hexec
  | getPoolName x =>
      refine ⟨hpositive hioctx (fun hnd => settles_getPoolNameBody fun _ => .inl hnd) hexec, ?_⟩
      rintro rfl ⟨hslow, hret⟩
      by_contra hpid
      rw [Call.exec, cephLibrbdGetPoolName, withRados_stop hidle hslow
        fun w hflag => getPoolNameBody_stop hret hpid hflag] at hexec
      cases hexec
  | getImageName x =>
      refine ⟨hpositive hioctx (fun hnd => settles_getImageNameBody fun _ _ => .inl hnd) hexec, ?_⟩
      rintro rfl ⟨hslow, hret, himage⟩
      by_contra hiid
      rw [Call.exec, cephLibrbdGetImageName, withRados_stop hidle hslow
        fun w hflag => getImageNameBody_stop hret himage hiid hflag] at hexec
      cases hexec
  | getImageInfo x =>
      intro haccepted
      rcases getImageInfo_cases ndebug x with ⟨hnot, -⟩ | ⟨-, imageId, heq⟩
      · exact absurd haccepted hnot
      · rw [Call.exec, heq] at hexec
        exact hpositive hioctx (fun _ => settles_getImageInfoBody _ _) hexec
  | diskUsage x =>
      intro hresult
      rw [Call.exec, cephLibrbdDiskUsage, if_neg (by rw [hresult]; decide)] at hexec
      refine hpositive ?_ (fun _ => settles_diskUsageBody x) hexec
      rintro rfl w hflag
      exact bind_of_stop (bind_of_stop (assertInit_stop hflag))

end Blocks

/-- Calls made one after another are all balanced exactly if each of them is clean. -/
theorem allBalanced_iff (ndebug : Bool) (calls : List Call) :
    AllBalanced ndebug .init calls ↔ ∀ call ∈ calls, call.Clean ndebug := by
  suffices h : ∀ w, Idle w → (AllBalanced ndebug w calls ↔ ∀ call ∈ calls, call.Clean ndebug) from
    h .init ⟨rfl, rfl⟩
  induction calls with
  | nil => exact fun w _ => iff_of_true trivial (by simp)
  | cons call rest ih =>
      intro w hidle
      rw [List.forall_mem_cons]
      constructor
      · rintro ⟨w', hexec, hbalanced, hrest⟩
        have hclean := Call.clean_of_balanced hidle hexec hbalanced
        obtain ⟨t, hexec', -, hidle'⟩ := Call.exec_of_clean hclean hidle
        rw [hexec] at hexec'
        cases hexec'
        exact ⟨hclean, (ih w' hidle').mp hrest⟩
      · rintro ⟨hclean, hrest⟩
        obtain ⟨w', hexec, hbalanced, hidle'⟩ := Call.exec_of_clean hclean hidle
        exact ⟨w', hexec, hbalanced, (ih w' hidle').mpr hrest⟩

/-- The config has no path for the keyring, and says so with a positive code. -/
def positiveCode : RadosReplies := ⟨0, 0, 1, 0, 0, false, 0, fun _ => 0, fun _ => 0⟩

/-- A call for the name of pool 1 that comes to the end of its ladder. -/
def poolNameCall : Call :=
  .getPoolName ⟨1, [], positiveCode, ⟨-2, -2, 0, false⟩, [], 1⟩

/-- Without assertions the call gives back a reference it did not take. -/
theorem not_allBalanced_positiveCode : ¬ AllBalanced true .init [poolNameCall] := by
  rintro ⟨w', hexec, hbalanced, -⟩
  cases hexec
  exact absurd hbalanced.ref (by decide)

end GlobalCacheAdaptor.CephProxy.Rbd
