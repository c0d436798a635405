import GlobalCacheAdaptor.CephProxy.RadosWrapper
import GlobalCacheAdaptor.Lib.OrdMap
import GlobalCacheAdaptor.Lib.Slots

/-!
# Read operations

Eight calls add a sub-op to a `RadosObjectReadOp`. A call keeps the pointers of its caller in the
one request context of the op and tells librados where to store the result of the sub-op: in a
bufferlist of the op, which calls of one kind share, or in an iterator of its own. When librados is
done, `ReadCallback` copies from the bufferlists to the pointers that the context holds then.

A slot of the context and a bufferlist hold what the last call that uses them left
(`reqCtx_readSgl`, `stored_results` and their siblings).
-/

namespace GlobalCacheAdaptor.CephProxy.ReadOp

open Lib

/-! ## The op -/

/-- What a pointer points at. -/
abbrev Address := Nat

/-- `proxy_checksum_type_t`. -/
inductive ChecksumType where
  | xxhash32
  | xxhash64
  | crc32c

/-- Where librados stores the result of a sub-op. -/
inductive Dest where
  | results
  | checksums
  | execOut
  | xattr (name : Bytes)
  | attrset (iter : Address)
  | values (iter : Address)
  | keys (iter : Address)

/-- A sub-op as librados records it. -/
inductive ReadSubOp where
  | read (offset : BitVec 64) (len : Nat)
  | getxattr (name : CString)
  | getxattrs
  | omapGetVals2 (start : Bytes) (maxReturn : BitVec 64)
  | omapGetKeys2 (start : Bytes) (maxReturn : BitVec 64)
  | checksum (type : ChecksumType) (initValue : Bytes) (offset : BitVec 64) (len chunkSize : Nat)
  | exec (cls method : CString) (inbl : Bytes)

/-- A recorded sub-op with its destination, and the number of the call that added it. -/
structure Recorded where
  call : Nat
  subOp : ReadSubOp
  dest : Dest

/-- `reqContext::_readSgl`. -/
structure ReadSglCtx where
  len : Nat := 0
  buildType : Bool := false
  sgl : Option Address := none

/-- `reqContext::_checksum`. -/
structure ChecksumCtx where
  pCheckSum : Option Address := none
  chunkSumLen : Nat := 0

/-- `reqContext`: one slot for each kind of output. The fields of a slot that are set together are
one option. -/
structure ReqContext where
  read : Option (Address × Address) := none
  readSgl : ReadSglCtx := {}
  xattr : Option (CString × Address) := none
  omap : Option Address := none
  xattrs : Option Address := none
  checksum : ChecksumCtx := {}
  exec : Option Address × Option Address := (none, none)

/-- The bufferlists of a `RadosObjectReadOp` that librados stores results in. -/
structure Buffers where
  results : Bytes := []
  checksums : Bytes := []
  execOut : Bytes := []
  xattrs : OrdMap Bytes Bytes := OrdMap.empty

/-- `RadosObjectReadOp`. -/
structure RadosObjectReadOp where
  op : List Recorded := []
  reqCtx : ReqContext := {}
  buffers : Buffers := {}

/-- Record a sub-op. -/
def RadosObjectReadOp.record (readOp : RadosObjectReadOp) (call : Nat) (subOp : ReadSubOp)
    (dest : Dest) : RadosObjectReadOp :=
  { readOp with op := readOp.op ++ [⟨call, subOp, dest⟩] }

/-- `xattrs[name]` as a place to store something: an absent name gets an empty value. -/
def touchKey (xattrs : OrdMap Bytes Bytes) (name : Bytes) : OrdMap Bytes Bytes :=
  if (xattrs.find? name).isSome then xattrs else xattrs.insert name []

/-! ## The calls -/

section Calls

variable (readOp : RadosObjectReadOp) (call : Nat)

/-- `RadosReadOpRead`: without a buffer or a counter it adds no sub-op. -/
def radosReadOpRead (offset : BitVec 64) (len : Nat) (buffer bytesRead : Option Address) :
    RadosObjectReadOp :=
  match buffer, bytesRead with
  | some buffer, some bytesRead =>
      { readOp with reqCtx := { readOp.reqCtx with read := some (buffer, bytesRead) } }.record
        call (.read offset len) .results
  | _, _ => readOp

/-- `RadosReadOpReadSGL`. -/
def radosReadOpReadSGL (offset : BitVec 64) (len : Nat) (sgl : Option Address)
    (isRelease : Bool) : RadosObjectReadOp :=
  { readOp with reqCtx := { readOp.reqCtx with readSgl := ⟨len, isRelease, sgl⟩ } }.record
    call (.read offset len) .results

/-- `RadosReadOpGetXattr`. -/
def radosReadOpGetXattr (name : CString) (val : Address) : RadosObjectReadOp :=
  { readOp with
    reqCtx := { readOp.reqCtx with xattr := some (name, val) }
    buffers := { readOp.buffers with xattrs := touchKey readOp.buffers.xattrs name.val } }.record
      call (.getxattr name) (.xattr name.val)

/-- `RadosReadOpGetXattrs`, with the iterator it allocates. -/
def radosReadOpGetXattrs (xIter : Address) : RadosObjectReadOp :=
  { readOp with reqCtx := { readOp.reqCtx with xattrs := some xIter } }.record
    call .getxattrs (.attrset xIter)

/-- `RadosReadOpOmapGetVals`, with the iterator it allocates. -/
def radosReadOpOmapGetVals (startAfter : Option CString) (maxReturn : BitVec 64)
    (oIter : Address) : RadosObjectReadOp :=
  { readOp with reqCtx := { readOp.reqCtx with omap := some oIter } }.record
    call (.omapGetVals2 (startAfter.elim [] Subtype.val) maxReturn) (.values oIter)

/-- `RadosReadOpOmapGetKeys`, with the iterator it allocates. -/
def radosReadOpOmapGetKeys (startAfter : Option CString) (maxReturn : BitVec 64)
    (oIter : Address) : RadosObjectReadOp :=
  { readOp with reqCtx := { readOp.reqCtx with omap := some oIter } }.record
    call (.omapGetKeys2 (startAfter.elim [] Subtype.val) maxReturn) (.keys oIter)

/-- `RadosReadOpCheckSum`. -/
def radosReadOpCheckSum (type : ChecksumType) (initValue : Bytes) (initValueLen : Nat)
    (offset : BitVec 64) (len chunkSize : Nat) (pCheckSum : Option Address) (checkSumLen : Nat) :
    RadosObjectReadOp :=
  { readOp with reqCtx := { readOp.reqCtx with checksum := ⟨pCheckSum, checkSumLen⟩ } }.record
    call (.checksum type (cutBuffer initValue initValueLen) offset len chunkSize) .checksums

/-- `RadosReadOpExec`. -/
def radosReadOpExec (cls method : CString) (inBuf : Bytes) (inLen : Nat)
    (outBuf outLen : Option Address) : RadosObjectReadOp :=
  { readOp with reqCtx := { readOp.reqCtx with exec := (outBuf, outLen) } }.record
    call (.exec cls method (cutBuffer inBuf inLen)) .execOut

end Calls

/-- A call. Its pointers are there or null; what they point at is the object with the number of the
call in memory, so no two calls share an output. -/
inductive ReadCall where
  | read (offset : BitVec 64) (len : Nat) (buffer bytesRead : Bool)
  | readSGL (offset : BitVec 64) (len : Nat) (sgl : Option (List SGL)) (isRelease : Bool)
  | getXattr (name : CString)
  | getXattrs
  | omapGetVals (startAfter : Option CString) (maxReturn : BitVec 64)
  | omapGetKeys (startAfter : Option CString) (maxReturn : BitVec 64)
  | checkSum (type : ChecksumType) (initValue : Bytes) (offset : BitVec 64) (len chunkSize : Nat)
      (pCheckSum : Bool) (checkSumLen : Nat)
  | exec (cls method : CString) (inBuf : Bytes) (outBuf outLen : Bool)

/-- A pointer to the object with this number, or null. -/
def pointer (address : Address) (there : Bool) : Option Address :=
  if there then some address else none

/-- Make call number `call`. -/
def RadosObjectReadOp.call (readOp : RadosObjectReadOp) (call : Nat) :
    ReadCall → RadosObjectReadOp
  | .read offset len buffer bytesRead =>
      radosReadOpRead readOp call offset len (pointer call buffer) (pointer call bytesRead)
  | .readSGL offset len sgl isRelease =>
      radosReadOpReadSGL readOp call offset len (pointer call sgl.isSome) isRelease
  | .getXattr name => radosReadOpGetXattr readOp call name call
  | .getXattrs => radosReadOpGetXattrs readOp call call
  | .omapGetVals startAfter maxReturn =>
      radosReadOpOmapGetVals readOp call startAfter maxReturn call
  | .omapGetKeys startAfter maxReturn =>
      radosReadOpOmapGetKeys readOp call startAfter maxReturn call
  | .checkSum type initValue offset len chunkSize pCheckSum checkSumLen =>
      radosReadOpCheckSum readOp call type initValue initValue.length offset len chunkSize
        (pointer call pCheckSum) checkSumLen
  | .exec cls method inBuf outBuf outLen =>
      radosReadOpExec readOp call cls method inBuf inBuf.length (pointer call outBuf)
        (pointer call outLen)

/-- The op that a sequence of calls builds. -/
def build (calls : List ReadCall) : RadosObjectReadOp :=
  calls.zipIdx.foldl (fun readOp x => readOp.call x.2 x.1) {}

/-! ## Storing the results -/

/-- `RadosXattrsIter`; `i` is the name it stands at, none at the end. -/
structure RadosXattrsIter where
  attrset : OrdMap Bytes Bytes := OrdMap.empty
  i : Option Bytes := none

/-- `RadosOmapIter`; `i` is the key of `values` it stands at, none at the end. -/
structure RadosOmapIter where
  values : OrdMap Bytes Bytes := OrdMap.empty
  keys : OrdMap Bytes Unit := OrdMap.empty
  i : Option Bytes := none

/-- The memory that the calls of an op point at, by address. -/
structure Memory where
  /-- What the buffer of a read or a checksum and the `*val` of an attribute hold. -/
  buffer : Address → Bytes
  bytesRead : Address → Nat
  outBuf : Address → Bytes
  outLen : Address → Nat
  sgl : Address → List SGL
  xattrsIter : Address → RadosXattrsIter
  omapIter : Address → RadosOmapIter
  /-- What lies behind the bytes of `checksums`. -/
  behind : Bytes

/-- The result of the sub-op of each call. -/
structure Outcome where
  bytes : Nat → Bytes
  pairs : Nat → OrdMap Bytes Bytes
  keys : Nat → OrdMap Bytes Unit

/-- Assign an attribute iterator. -/
def Memory.setXattrsIter (mem : Memory) (iter : Address) (xIter : RadosXattrsIter) : Memory :=
  { mem with xattrsIter := Function.update mem.xattrsIter iter xIter }

/-- Assign an omap iterator. -/
def Memory.setOmapIter (mem : Memory) (iter : Address) (oIter : RadosOmapIter) : Memory :=
  { mem with omapIter := Function.update mem.omapIter iter oIter }

/-- librados stores the result of a sub-op in its destination. -/
def store (outcome : Outcome) (s : Buffers × Memory) (recorded : Recorded) : Buffers × Memory :=
  let bytes := outcome.bytes recorded.call
  match recorded.dest with
  | .results => ({ s.1 with results := bytes }, s.2)
  | .checksums => ({ s.1 with checksums := bytes }, s.2)
  | .execOut => ({ s.1 with execOut := bytes }, s.2)
  | .xattr name => ({ s.1 with xattrs := s.1.xattrs.insert name bytes }, s.2)
  | .attrset iter =>
      (s.1, s.2.setXattrsIter iter
        { s.2.xattrsIter iter with attrset := outcome.pairs recorded.call })
  | .values iter =>
      (s.1, s.2.setOmapIter iter
        { s.2.omapIter iter with values := outcome.pairs recorded.call })
  | .keys iter =>
      (s.1, s.2.setOmapIter iter
        { s.2.omapIter iter with keys := outcome.keys recorded.call })

/-- Every sub-op succeeds, and librados stores their results in order. -/
def operate (outcome : Outcome) (readOp : RadosObjectReadOp) (mem : Memory) : Buffers × Memory :=
  readOp.op.foldl (store outcome) (readOp.buffers, mem)

/-! ## `ReadCallback` -/

/-- `memcpy` to a buffer. -/
def Memory.copy (mem : Memory) (address : Address) (data : Bytes) : Memory :=
  let bytes := data ++ (mem.buffer address).drop data.length
  { mem with buffer := Function.update mem.buffer address bytes }

/-- The results of reads: a buffer goes before a chain. -/
def copyResults (reqCtx : ReqContext) (buffers : Buffers) (mem : Memory) : Option Memory :=
  match reqCtx.read with
  | some (buffer, _) => some (mem.copy buffer buffers.results)
  | none =>
      match reqCtx.readSgl.sgl with
      | some sgl =>
          (CephProxy.readCallback reqCtx.readSgl.buildType (mem.sgl sgl) reqCtx.readSgl.len
            buffers.results).map fun r => { mem with sgl := Function.update mem.sgl sgl r.1 }
      | none => some mem

/-- The attribute whose name was registered. -/
def copyXattr (reqCtx : ReqContext) (buffers : Buffers) (mem : Memory) : Memory :=
  match reqCtx.xattr with
  | some (name, vals) => mem.copy vals ((buffers.xattrs.find? name.val).getD [])
  | none => mem

/-- The attribute iterator moves to its first entry. -/
def beginXattrs (reqCtx : ReqContext) (mem : Memory) : Memory :=
  match reqCtx.xattrs with
  | some iter =>
      let xIter := mem.xattrsIter iter
      mem.setXattrsIter iter { xIter with i := xIter.attrset.entries.head?.map Prod.fst }
  | none => mem

/-- The omap iterator moves to its first entry, and then its keys are put among its values. -/
def beginOmap (reqCtx : ReqContext) (mem : Memory) : Memory :=
  match reqCtx.omap with
  | some iter =>
      let oIter := mem.omapIter iter
      let values := oIter.keys.entries.foldl (fun values key => touchKey values key.1) oIter.values
      mem.setOmapIter iter
        { oIter with i := oIter.values.entries.head?.map Prod.fst, values := values }
  | none => mem

/-- The checksum: as many bytes as the caller has room for, also when there are fewer. -/
def copyCheckSum (reqCtx : ReqContext) (buffers : Buffers) (mem : Memory) : Memory :=
  match reqCtx.checksum.pCheckSum with
  | some pCheckSum =>
      mem.copy pCheckSum ((buffers.checksums ++ mem.behind).take reqCtx.checksum.chunkSumLen)
  | none => mem

/-- `ReadCallback`; none if it leaves a chain at its end. -/
def readCallback (ret : Int) (reqCtx : ReqContext) (buffers : Buffers) (mem : Memory) :
    Option Memory :=
  if ret = 0 then
    -- the outputs of exec and the numbers of bytes read are in the context, and nobody reads them
    (copyResults reqCtx buffers mem).map fun mem =>
      copyCheckSum reqCtx buffers (beginOmap reqCtx
        (beginXattrs reqCtx (copyXattr reqCtx buffers mem)))
  else some mem

/-! ## What the context and the bufferlists hold -/

/-- A read into a buffer that adds a sub-op. -/
def ReadCall.isRead : ReadCall → Bool
  | .read _ _ buffer bytesRead => buffer && bytesRead
  | _ => false

/-- A read into a chain. -/
def ReadCall.isReadSGL : ReadCall → Bool
  | .readSGL .. => true
  | _ => false

/-- A call for one attribute. -/
def ReadCall.isGetXattr : ReadCall → Bool
  | .getXattr _ => true
  | _ => false

/-- A call for a checksum. -/
def ReadCall.isCheckSum : ReadCall → Bool
  | .checkSum .. => true
  | _ => false

/-- A call for the attribute with this name. -/
def ReadCall.getsXattr (name : Bytes) : ReadCall → Bool
  | .getXattr name' => decide (name'.val = name)
  | _ => false

/-- A call for all attributes. -/
def ReadCall.isGetXattrs : ReadCall → Bool
  | .getXattrs => true
  | _ => false

/-- A call for the values of the omap. -/
def ReadCall.isOmapGetVals : ReadCall → Bool
  | .omapGetVals .. => true
  | _ => false

/-- A call for the keys of the omap. -/
def ReadCall.isOmapGetKeys : ReadCall → Bool
  | .omapGetKeys .. => true
  | _ => false

/-- The op that one call makes of a new one. -/
def alone (i : Nat) (call : ReadCall) : RadosObjectReadOp := RadosObjectReadOp.call {} i call

theorem build_concat (calls : List ReadCall) (call : ReadCall) :
    build (calls ++ [call]) = (build calls).call calls.length call := by
  simp [build, List.zipIdx_append]

/-- What a call does to the slots of the context that `ReadCallback` copies to. -/
theorem call_reqCtx (readOp : RadosObjectReadOp) (i : Nat) (call : ReadCall) :
    (readOp.call i call).reqCtx.read =
      (if call.isRead then some (i, i) else readOp.reqCtx.read) ∧
    (readOp.call i call).reqCtx.readSgl =
      (if call.isReadSGL then (alone i call).reqCtx.readSgl else readOp.reqCtx.readSgl) ∧
    (readOp.call i call).reqCtx.xattr =
      (if call.isGetXattr then (alone i call).reqCtx.xattr else readOp.reqCtx.xattr) ∧
    (readOp.call i call).reqCtx.checksum =
      (if call.isCheckSum then (alone i call).reqCtx.checksum else readOp.reqCtx.checksum) := by
  cases call with
  | read offset len buffer bytesRead =>
      cases buffer <;> cases bytesRead <;> exact ⟨rfl, rfl, rfl, rfl⟩
  | _ => exact ⟨rfl, rfl, rfl, rfl⟩

/-- The pointers that a call leaves in the context are its own. -/
theorem alone_own {i : Nat} {call : ReadCall} {a : Address} :
    ((alone i call).reqCtx.readSgl.sgl = some a → a = i) ∧
    (∀ name, (alone i call).reqCtx.xattr = some (name, a) → a = i) ∧
    ((alone i call).reqCtx.checksum.pCheckSum = some a → a = i) := by
  have hpointer : ∀ there, pointer i there = some a → a = i := by
    intro there h
    rw [pointer] at h
    split_ifs at h
    exact (Option.some.inj h).symm
  cases call with
  | read offset len buffer bytesRead =>
      cases buffer <;> cases bytesRead <;> exact ⟨nofun, nofun, nofun⟩
  | readSGL offset len sgl isRelease => exact ⟨hpointer sgl.isSome, nofun, nofun⟩
  | getXattr name' =>
      refine ⟨nofun, fun name h => ?_, nofun⟩
      cases h
      rfl
  | checkSum type initValue offset len chunkSize pCheckSum checkSumLen =>
      exact ⟨nofun, nofun, hpointer pCheckSum⟩
  | _ => exact ⟨nofun, nofun, nofun⟩

/-- The context holds the buffer of the last read. -/
theorem reqCtx_read (calls : List ReadCall) :
    (build calls).reqCtx.read =
      (last? (fun _ call => call.isRead) calls).elim none fun x => some (x.1, x.1) := by
  refine eq_last _ (fun calls => (build calls).reqCtx.read) (fun i _ => some (i, i)) ?_ calls
  intro calls call
  rw [build_concat]
  exact (call_reqCtx (build calls) calls.length call).1

/-- The context holds the chain of the last read into a chain. -/
theorem reqCtx_readSgl (calls : List ReadCall) :
    (build calls).reqCtx.readSgl = (last? (fun _ call => call.isReadSGL) calls).elim {}
      fun x => (alone x.1 x.2).reqCtx.readSgl := by
  refine eq_last _ (fun calls => (build calls).reqCtx.readSgl)
    (fun i call => (alone i call).reqCtx.readSgl) ?_ calls
  intro calls call
  rw [build_concat]
  exact (call_reqCtx (build calls) calls.length call).2.1

/-- The context holds the name and the `val` of the last call for an attribute. -/
theorem reqCtx_xattr (calls : List ReadCall) :
    (build calls).reqCtx.xattr = (last? (fun _ call => call.isGetXattr) calls).elim none
      fun x => (alone x.1 x.2).reqCtx.xattr := by
  refine eq_last _ (fun calls => (build calls).reqCtx.xattr)
    (fun i call => (alone i call).reqCtx.xattr) ?_ calls
  intro calls call
  rw [build_concat]
  exact (call_reqCtx (build calls) calls.length call).2.2.1

/-- The context holds the buffer of the last call for a checksum. -/
theorem reqCtx_checksum (calls : List ReadCall) :
    (build calls).reqCtx.checksum = (last? (fun _ call => call.isCheckSum) calls).elim {}
      fun x => (alone x.1 x.2).reqCtx.checksum := by
  refine eq_last _ (fun calls => (build calls).reqCtx.checksum)
    (fun i call => (alone i call).reqCtx.checksum) ?_ calls
  intro calls call
  rw [build_concat]
  exact (call_reqCtx (build calls) calls.length call).2.2.2

/-- A chain in the context is that of the last read into a chain. -/
theorem sgl_eq_some {calls : List ReadCall} {a : Address}
    (h : (build calls).reqCtx.readSgl.sgl = some a) :
    ∃ call, last? (fun _ call => call.isReadSGL) calls = some (a, call) := by
  rw [reqCtx_readSgl] at h
  cases hlast : last? (fun _ call => call.isReadSGL) calls with
  | none =>
      rw [hlast] at h
      cases h
  | some x =>
      rw [hlast] at h
      obtain rfl := alone_own.1 h
      exact ⟨x.2, rfl⟩

/-- A `val` in the context is that of the last call for an attribute. -/
theorem xattr_eq_some {calls : List ReadCall} {name : CString} {a : Address}
    (h : (build calls).reqCtx.xattr = some (name, a)) :
    ∃ call, last? (fun _ call => call.isGetXattr) calls = some (a, call) := by
  rw [reqCtx_xattr] at h
  cases hlast : last? (fun _ call => call.isGetXattr) calls with
  | none =>
      rw [hlast] at h
      cases h
  | some x =>
      rw [hlast] at h
      obtain rfl := alone_own.2.1 name h
      exact ⟨x.2, rfl⟩

/-- A checksum buffer in the context is that of the last call for a checksum. -/
theorem pCheckSum_eq_some {calls : List ReadCall} {a : Address}
    (h : (build calls).reqCtx.checksum.pCheckSum = some a) :
    ∃ call, last? (fun _ call => call.isCheckSum) calls = some (a, call) := by
  rw [reqCtx_checksum] at h
  cases hlast : last? (fun _ call => call.isCheckSum) calls with
  | none =>
      rw [hlast] at h
      cases h
  | some x =>
      rw [hlast] at h
      obtain rfl := alone_own.2.2 h
      exact ⟨x.2, rfl⟩

/-- The `val` in the context is not that of a call for something else. -/
theorem xattr_ne {calls : List ReadCall} {i : Nat} {call : ReadCall} (hget : calls[i]? = some call)
    (hkind : call.isGetXattr = false) (name : CString) :
    (build calls).reqCtx.xattr ≠ some (name, i) := by
  intro h
  obtain ⟨other, hlast⟩ := xattr_eq_some h
  obtain ⟨hother, hxattr, -⟩ := last?_eq_some hlast
  rw [← Option.some.inj (hget.symm.trans hother), hkind] at hxattr
  cases hxattr

/-- The checksum buffer in the context is not that of a call for something else. -/
theorem pCheckSum_ne {calls : List ReadCall} {i : Nat} {call : ReadCall}
    (hget : calls[i]? = some call) (hkind : call.isCheckSum = false) :
    (build calls).reqCtx.checksum.pCheckSum ≠ some i := by
  intro h
  obtain ⟨other, hlast⟩ := pCheckSum_eq_some h
  obtain ⟨hother, hsum, -⟩ := last?_eq_some hlast
  rw [← Option.some.inj (hget.symm.trans hother), hkind] at hsum
  cases hsum

/-- What the sub-ops of a sequence of calls leave. -/
def stored (outcome : Outcome) (s : Buffers × Memory) (calls : List ReadCall) :
    Buffers × Memory :=
  (build calls).op.foldl (store outcome) s

/-- A call records the same sub-op whatever the op holds. -/
theorem call_op (readOp : RadosObjectReadOp) (i : Nat) (call : ReadCall) :
    (readOp.call i call).op = readOp.op ++ (alone i call).op := by
  cases call with
  | read offset len buffer bytesRead =>
      cases buffer <;> cases bytesRead <;>
        simp [alone, RadosObjectReadOp.call, radosReadOpRead, pointer, RadosObjectReadOp.record]
  | _ => rfl

/-- The sub-op of one more call is stored last. -/
theorem stored_concat (outcome : Outcome) (s : Buffers × Memory) (calls : List ReadCall)
    (call : ReadCall) : stored outcome s (calls ++ [call]) =
      (alone calls.length call).op.foldl (store outcome) (stored outcome s calls) := by
  rw [stored, build_concat, call_op, List.foldl_append]
  rfl

section Stored

variable (outcome : Outcome) (s : Buffers × Memory)

/-- What storing the result of a call does to the bufferlists that `ReadCallback` copies from. -/
theorem store_buffers (i : Nat) (call : ReadCall) (name : Bytes) :
    ((alone i call).op.foldl (store outcome) s).1.results =
      (if call.isRead || call.isReadSGL then outcome.bytes i else s.1.results) ∧
    ((alone i call).op.foldl (store outcome) s).1.checksums =
      (if call.isCheckSum then outcome.bytes i else s.1.checksums) ∧
    ((alone i call).op.foldl (store outcome) s).1.xattrs.find? name =
      (if call.getsXattr name then some (outcome.bytes i) else s.1.xattrs.find? name) := by
  cases call with
  | read offset len buffer bytesRead =>
      cases buffer <;> cases bytesRead <;> exact ⟨rfl, rfl, rfl⟩
  | getXattr name' =>
      refine ⟨rfl, rfl, ?_⟩
      show (s.1.xattrs.insert name'.val (outcome.bytes i)).find? name = _
      rw [OrdMap.find?_insert]
      simp [ReadCall.getsXattr, eq_comm]
  | _ => exact ⟨rfl, rfl, rfl⟩

/-- What storing the result of a call does to the iterators. -/
theorem store_iters (i : Nat) (call : ReadCall) (iter : Address) :
    (((alone i call).op.foldl (store outcome) s).2.xattrsIter iter).attrset =
      (if decide (i = iter) && call.isGetXattrs then outcome.pairs i
        else (s.2.xattrsIter iter).attrset) ∧
    (((alone i call).op.foldl (store outcome) s).2.omapIter iter).values =
      (if decide (i = iter) && call.isOmapGetVals then outcome.pairs i
        else (s.2.omapIter iter).values) ∧
    (((alone i call).op.foldl (store outcome) s).2.omapIter iter).keys =
      (if decide (i = iter) && call.isOmapGetKeys then outcome.keys i
        else (s.2.omapIter iter).keys) := by
  by_cases h : i = iter
  · subst h
    simp only [decide_true, Bool.true_and]
    cases call with
    | read offset len buffer bytesRead =>
        cases buffer <;> cases bytesRead <;> exact ⟨rfl, rfl, rfl⟩
    | getXattrs =>
        refine ⟨?_, rfl, rfl⟩
        show (Function.update s.2.xattrsIter i _ i).attrset = _
        rw [Function.update_self]
        rfl
    | omapGetVals | omapGetKeys =>
        refine ⟨rfl, ?_⟩
        show (Function.update s.2.omapIter i _ i).values = _ ∧
          (Function.update s.2.omapIter i _ i).keys = _
        rw [Function.update_self]
        exact ⟨rfl, rfl⟩
    | _ => exact ⟨rfl, rfl, rfl⟩
  · simp only [h, decide_false, Bool.false_and]
    cases call with
    | read offset len buffer bytesRead =>
        cases buffer <;> cases bytesRead <;> exact ⟨rfl, rfl, rfl⟩
    | getXattrs =>
        refine ⟨?_, rfl, rfl⟩
        show (Function.update s.2.xattrsIter i _ iter).attrset = _
        rw [Function.update_of_ne (Ne.symm h)]
        rfl
    | omapGetVals | omapGetKeys =>
        refine ⟨rfl, ?_⟩
        show (Function.update s.2.omapIter i _ iter).values = _ ∧
          (Function.update s.2.omapIter i _ iter).keys = _
        rw [Function.update_of_ne (Ne.symm h)]
        exact ⟨rfl, rfl⟩
    | _ => exact ⟨rfl, rfl, rfl⟩

/-- Storing the result of a call changes nothing else in memory. -/
theorem store_frame (i : Nat) (call : ReadCall) :
    ∃ xattrsIter omapIter, ((alone i call).op.foldl (store outcome) s).2 =
      { s.2 with xattrsIter := xattrsIter, omapIter := omapIter } := by
  cases call with
  | read offset len buffer bytesRead =>
      cases buffer <;> cases bytesRead <;> exact ⟨s.2.xattrsIter, s.2.omapIter, rfl⟩
  | getXattrs => exact ⟨_, s.2.omapIter, rfl⟩
  | omapGetVals | omapGetKeys => exact ⟨s.2.xattrsIter, _, rfl⟩
  | _ => exact ⟨s.2.xattrsIter, s.2.omapIter, rfl⟩

/-- `results` holds the result of the last read. -/
theorem stored_results (calls : List ReadCall) :
    (stored outcome s calls).1.results =
      (last? (fun _ call => call.isRead || call.isReadSGL) calls).elim s.1.results
        fun x => outcome.bytes x.1 := by
  refine eq_last _ (fun calls => (stored outcome s calls).1.results)
    (fun i _ => outcome.bytes i) ?_ calls
  intro calls call
  rw [stored_concat]
  exact (store_buffers outcome _ calls.length call []).1

/-- `checksums` holds the result of the last call for a checksum. -/
theorem stored_checksums (calls : List ReadCall) :
    (stored outcome s calls).1.checksums =
      (last? (fun _ call => call.isCheckSum) calls).elim s.1.checksums
        fun x => outcome.bytes x.1 := by
  refine eq_last _ (fun calls => (stored outcome s calls).1.checksums)
    (fun i _ => outcome.bytes i) ?_ calls
  intro calls call
  rw [stored_concat]
  exact (store_buffers outcome _ calls.length call []).2.1

/-- `xattrs` holds the result of the last call for each attribute. -/
theorem stored_xattrs (calls : List ReadCall) (name : Bytes) :
    (stored outcome s calls).1.xattrs.find? name =
      (last? (fun _ call => call.getsXattr name) calls).elim (s.1.xattrs.find? name)
        fun x => some (outcome.bytes x.1) := by
  refine eq_last _ (fun calls => (stored outcome s calls).1.xattrs.find? name)
    (fun i _ => some (outcome.bytes i)) ?_ calls
  intro calls call
  rw [stored_concat]
  exact (store_buffers outcome _ calls.length call name).2.2

/-- The attribute iterator of a call holds the result of that call. -/
theorem stored_attrset {calls : List ReadCall} {i : Nat} {call : ReadCall}
    (h : calls[i]? = some call) :
    ((stored outcome s calls).2.xattrsIter i).attrset =
      if call.isGetXattrs then outcome.pairs i else (s.2.xattrsIter i).attrset := by
  refine eq_at ReadCall.isGetXattrs (fun calls => ((stored outcome s calls).2.xattrsIter i).attrset)
    (fun i _ => outcome.pairs i) ?_ h
  intro calls call
  rw [stored_concat]
  exact (store_iters outcome _ calls.length call i).1

/-- The values of the omap iterator of a call are the result of that call. -/
theorem stored_values {calls : List ReadCall} {i : Nat} {call : ReadCall}
    (h : calls[i]? = some call) :
    ((stored outcome s calls).2.omapIter i).values =
      if call.isOmapGetVals then outcome.pairs i else (s.2.omapIter i).values := by
  refine eq_at ReadCall.isOmapGetVals (fun calls => ((stored outcome s calls).2.omapIter i).values)
    (fun i _ => outcome.pairs i) ?_ h
  intro calls call
  rw [stored_concat]
  exact (store_iters outcome _ calls.length call i).2.1

/-- The keys of the omap iterator of a call are the result of that call. -/
theorem stored_keys {calls : List ReadCall} {i : Nat} {call : ReadCall}
    (h : calls[i]? = some call) :
    ((stored outcome s calls).2.omapIter i).keys =
      if call.isOmapGetKeys then outcome.keys i else (s.2.omapIter i).keys := by
  refine eq_at ReadCall.isOmapGetKeys (fun calls => ((stored outcome s calls).2.omapIter i).keys)
    (fun i _ => outcome.keys i) ?_ h
  intro calls call
  rw [stored_concat]
  exact (store_iters outcome _ calls.length call i).2.2

/-- Storing the results changes nothing in memory but the iterators. -/
theorem stored_frame (calls : List ReadCall) :
    ∃ xattrsIter omapIter, (stored outcome s calls).2 =
      { s.2 with xattrsIter := xattrsIter, omapIter := omapIter } := by
  induction calls using List.reverseRecOn with
  | nil => exact ⟨s.2.xattrsIter, s.2.omapIter, rfl⟩
  | append_singleton calls call ih =>
      obtain ⟨x, o, ih⟩ := ih
      obtain ⟨x', o', hstep⟩ := store_frame outcome (stored outcome s calls) calls.length call
      refine ⟨x', o', ?_⟩
      rw [stored_concat, hstep, ih]

end Stored

/-! ## What the callback writes -/

section Callback

variable (reqCtx : ReqContext) (buffers : Buffers) (mem : Memory)

/-- The part of `ReadCallback` after the results of reads. -/
def finish : Memory :=
  copyCheckSum reqCtx buffers (beginOmap reqCtx (beginXattrs reqCtx (copyXattr reqCtx buffers mem)))

/-- Only buffers and iterators are written after the results of reads. -/
theorem finish_frame :
    (finish reqCtx buffers mem).bytesRead = mem.bytesRead ∧
    (finish reqCtx buffers mem).outBuf = mem.outBuf ∧
    (finish reqCtx buffers mem).outLen = mem.outLen ∧
    (finish reqCtx buffers mem).sgl = mem.sgl := by
  simp only [finish, copyCheckSum, beginOmap, beginXattrs, copyXattr]
  cases reqCtx.checksum.pCheckSum <;> cases reqCtx.omap <;> cases reqCtx.xattrs <;>
    cases reqCtx.xattr <;> exact ⟨rfl, rfl, rfl, rfl⟩

/-- The buffers after the callback: the attribute is copied before the checksum. -/
theorem finish_buffer :
    (finish reqCtx buffers mem).buffer =
      (copyCheckSum reqCtx buffers (copyXattr reqCtx buffers mem)).buffer := by
  simp only [finish, copyCheckSum, beginOmap, beginXattrs]
  cases reqCtx.checksum.pCheckSum <;> cases reqCtx.omap <;> cases reqCtx.xattrs <;> rfl

/-- The omap iterators after the callback. -/
theorem finish_omapIter :
    (finish reqCtx buffers mem).omapIter = (beginOmap reqCtx mem).omapIter := by
  simp only [finish, copyCheckSum, beginOmap, beginXattrs, copyXattr]
  cases reqCtx.checksum.pCheckSum <;> cases reqCtx.omap <;> cases reqCtx.xattrs <;>
    cases reqCtx.xattr <;> rfl

/-- The iterators keep what librados stored in them, but keys come among the values. -/
theorem finish_iters (iter : Address) :
    ((finish reqCtx buffers mem).xattrsIter iter).attrset = (mem.xattrsIter iter).attrset ∧
    ((finish reqCtx buffers mem).omapIter iter).keys = (mem.omapIter iter).keys ∧
    ((mem.omapIter iter).keys = OrdMap.empty →
      ((finish reqCtx buffers mem).omapIter iter).values = (mem.omapIter iter).values) := by
  have hxattrs : (finish reqCtx buffers mem).xattrsIter = (beginXattrs reqCtx mem).xattrsIter := by
    simp only [finish, copyCheckSum, beginOmap, beginXattrs, copyXattr]
    cases reqCtx.checksum.pCheckSum <;> cases reqCtx.omap <;> cases reqCtx.xattrs <;>
      cases reqCtx.xattr <;> rfl
  rw [hxattrs, finish_omapIter]
  refine ⟨?_, ?_, fun hkeys => ?_⟩
  · rw [beginXattrs]
    split
    next own _ =>
      by_cases h : iter = own
      · simp [Memory.setXattrsIter, h]
      · simp [Memory.setXattrsIter, h]
    · rfl
  · rw [beginOmap]
    split
    next own _ =>
      by_cases h : iter = own
      · simp [Memory.setOmapIter, h]
      · simp [Memory.setOmapIter, h]
    · rfl
  · rw [beginOmap]
    split
    next own _ =>
      by_cases h : iter = own
      · subst h
        simp [Memory.setOmapIter, hkeys, OrdMap.empty]
      · simp [Memory.setOmapIter, h]
    · rfl

/-- The results of reads go to buffers and chains. -/
theorem copyResults_frame {mem' : Memory} (h : copyResults reqCtx buffers mem = some mem') :
    mem'.bytesRead = mem.bytesRead ∧ mem'.outBuf = mem.outBuf ∧ mem'.outLen = mem.outLen ∧
      mem'.xattrsIter = mem.xattrsIter ∧ mem'.omapIter = mem.omapIter := by
  rw [copyResults] at h
  split at h
  · cases h
    exact ⟨rfl, rfl, rfl, rfl, rfl⟩
  · split at h
    · obtain ⟨r, -, rfl⟩ := Option.map_eq_some_iff.mp h
      exact ⟨rfl, rfl, rfl, rfl, rfl⟩
    · cases h
      exact ⟨rfl, rfl, rfl, rfl, rfl⟩

end Callback

end GlobalCacheAdaptor.CephProxy.ReadOp
