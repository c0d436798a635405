import GlobalCacheAdaptor.Lib.Wire

/-!
# Messages and requests of the server adaptor

The data model of `sa_def.h` together with the parts of Ceph's `MOSDOp`, `OSDOp` and
`ceph_osd_op` that the adaptor reads. `ceph_osd_op` is a union in Ceph; each variant read by the
adaptor is a field here, and every function below reads the variant its op code selects.
-/

namespace GlobalCacheAdaptor.ServerAdaptor

open Lib

/-- The Ceph op codes the adaptor names; `other` is any further code. -/
inductive OpCode where
  | sparseRead | syncRead | read | writeFull | write
  | getXattr | rmXattr | cmpXattr | setXattr | getXattrs
  | omapGetVals | omapSetVals | omapGetKeys | omapRmKeys | omapClear
  | omapGetValsByKeys | omapCmp | omapSetHeader | omapGetHeader
  | stat | call | listSnaps | create | delete | rollback
  | other (code : BitVec 16)
  deriving DecidableEq, Repr

/-- The comparison mode of `CMPXATTR`. -/
inductive CmpMode where
  | string | u64
  | other (code : BitVec 8)
  deriving DecidableEq, Repr

/-- `ceph_osd_op`: the fixed-size header of one client op. -/
structure CephOsdOp where
  op : OpCode
  flags : BitVec 32 := 0
  extentOffset : BitVec 64 := 0
  extentLength : BitVec 64 := 0
  nameLen : BitVec 32 := 0
  valueLen : BitVec 32 := 0
  cmpOp : BitVec 8 := 0
  cmpMode : CmpMode := .other 0
  classLen : BitVec 8 := 0
  methodLen : BitVec 8 := 0
  indataLen : BitVec 32 := 0
  snapid : BitVec 64 := 0

/-- Ceph's `bufferlist`: a byte string whose length fits its 32-bit length field. -/
structure BufferList where
  bytes : Bytes := []
  length_lt : bytes.length < 2 ^ 32 := by decide

/-- The buffer of an op without input. -/
def BufferList.empty : BufferList := {}

/-- One client op with its input and output buffers. -/
structure OSDOp where
  op : CephOsdOp
  indata : BufferList := .empty
  outdata : Bytes := []
  rval : Int := 0

/-- The client message: the object it names and the ops on that object. -/
structure MOSDOp where
  tid : Int := 0
  oid : Bytes
  snapid : BitVec 64 := 0
  pool : BitVec 64 := 0
  seed : BitVec 32 := 0
  seq : BitVec 64 := 0
  snapSeq : BitVec 64 := 0
  snaps : List (BitVec 64) := []
  ops : List OSDOp := []

/-- `RbdObjid`: the cache key of an RBD data object. -/
structure RbdObjid where
  poolId : BitVec 32 := 0
  head : BitVec 64 := 0
  seq : BitVec 40 := 0
  format : BitVec 8 := 0
  version : BitVec 8 := 0
  reserve : BitVec 8 := 0
  deriving DecidableEq, Repr

/-- `FORMAT_UNSPECIFY_MD_DATE_POOL`. -/
def formatUnspecifyMdDatePool : BitVec 8 := 0

/-- `FORMAT_SPECIFY_MD_DATE_POOL`. -/
def formatSpecifyMdDatePool : BitVec 8 := 1

/-- `SA_VERSION`. -/
def saVersion : BitVec 8 := 1

/-- `OpRequestOps`: one op in the form the back end takes. `inData` is `none` for a null pointer
and otherwise the bytes it points at; `rbdObjId` is only set when `isRbd` is. -/
structure OpRequestOps where
  opSubType : OpCode
  objName : Bytes := []
  isRbd : Bool := false
  rbdObjId : RbdObjid := {}
  inData : Option Bytes := none
  inDataLen : BitVec 32 := 0
  outDataLen : BitVec 32 := 0
  objOffset : BitVec 32 := 0
  objLength : BitVec 32 := 0
  opFlags : BitVec 32 := 0
  keys : List Bytes := []
  values : List Bytes := []
  subops : List Int := []
  u64vals : List Nat := []
  cmpModes : List CmpMode := []

/-- `optionType`: `GCACHE_DEFAULT`, `GCACHE_WRITE` or `GCACHE_READ`. -/
inductive OptionType where
  | gcacheDefault | gcacheWrite | gcacheRead
  deriving DecidableEq, Repr

/-- `OptionsType`: the numbers of write and read ops in a message. -/
structure OptionsType where
  write : BitVec 32 := 0
  read : BitVec 32 := 0

/-- `OptionsLength`: the kibibytes written and read by a message. -/
structure OptionsLength where
  write : BitVec 64 := 0
  read : BitVec 64 := 0

/-- `SaOpReq`: a converted message. -/
structure SaOpReq where
  vecOps : List OpRequestOps := []
  optionType : OptionType := .gcacheDefault
  optionLength : BitVec 64 := 0
  snapId : BitVec 64 := 0
  tid : Int := 0
  opsSequence : BitVec 64 := 0
  ptId : BitVec 32 := 0
  poolId : BitVec 64 := 0
  snapSeq : BitVec 64 := 0
  snaps : List (BitVec 64) := []
  exitsCopyUp : Bool := false
  ptVersion : BitVec 64 := 0

/-- `-EINVAL`. -/
def einval : Int := -22

/-- `-EIO`. -/
def eio : Int := -5

/-- `-EOPNOTSUPP`. -/
def eopnotsupp : Int := -95

end GlobalCacheAdaptor.ServerAdaptor
