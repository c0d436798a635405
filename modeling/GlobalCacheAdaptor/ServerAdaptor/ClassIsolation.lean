import GlobalCacheAdaptor.ServerAdaptor.ClassApi

/-!
# Class calls and the client message

While a class method runs, the message of the client waits with its ops. A function of
`class_api.cc` that reads output puts a private op vector into the message for its sub-request
and takes it out again; the others let the back end write its result into the first op of the
client. `opsAfter_eq_iff` says when the ops of the client are the same after a call.
-/

namespace GlobalCacheAdaptor.ServerAdaptor.OnMessage

open Lib

/-! ## Sub-requests -/

/-- `SaOpContext` with the message it belongs to. `cbFunc` is the back end on a request and the ops
of the message: its result, and what it writes to `ops[0].rval` and `ops[0].outdata`. -/
structure MsgContext where
  opReq : SaOpReq
  opId : Nat
  oid : Bytes
  cbFunc : SaOpReq → List OSDOp → Int × Int × Bytes

/-- What a call of the class API does: the request it hands to the back end, if it gets that far,
its result, the output it leaves if it succeeds, and the ops of the message when it returns. -/
structure MsgCall (β : Type) where
  opreq : Option SaOpReq
  ret : Int
  out : Option β := none
  ops : List OSDOp

/-- Write the result and the output of the first op. -/
def setFirst (rval : Int) (outdata : Bytes) : List OSDOp → List OSDOp
  | [] => []
  | first :: rest => { first with rval := rval, outdata := outdata } :: rest

/-- `pctx->cbFunc(opreq)`: the result, and the ops of the message after it. -/
def MsgContext.call (ctx : MsgContext) (opreq : SaOpReq) (ops : List OSDOp) : Int × List OSDOp :=
  let (r, rval, outdata) := ctx.cbFunc opreq ops
  (r, setFirst rval outdata ops)

/-- The request of the context, with one op of its own. -/
def MsgContext.request (ctx : MsgContext) (op : OpRequestOps) : SaOpReq :=
  { ctx.opReq with vecOps := [op] }

/-- Hand an op to the back end and return its result. -/
def MsgContext.send (ctx : MsgContext) (op : OpRequestOps) (ptrOps : List OSDOp) : MsgCall Unit :=
  let (r, ptrOps) := ctx.call (ctx.request op) ptrOps
  { opreq := some (ctx.request op), ret := r, ops := ptrOps }

/-- `OSDOp()`. -/
def newOp : OSDOp := { op := { op := .other 0 } }

/-- Hand an op to the back end with a private op vector in the message, and read its output, unless
it fails. -/
def MsgContext.fetch {β : Type} (ctx : MsgContext) (op : OpRequestOps)
    (finish : Int → Bytes → Int × Option β) (ptrOps : List OSDOp) : MsgCall β :=
  -- `ops.swap(ptr->ops)` before and after the call
  let (ops, ptrOps) := (ptrOps, [newOp])
  let (r, ptrOps) := ctx.call (ctx.request op) ptrOps
  let (ops, ptrOps) := (ptrOps, ops)
  if r < 0 then { opreq := some (ctx.request op), ret := r, ops := ptrOps }
  else
    let (ret, out) := finish r (ops.headD newOp).outdata
    { opreq := some (ctx.request op), ret := ret, out := out, ops := ptrOps }

/-! ## `class_api.cc` -/

/-- `cls_getxattr`. -/
def clsGetxattr (ctx : MsgContext) (name : CString) : List OSDOp → MsgCall Bytes :=
  ctx.fetch { opSubType := .getXattr, objName := ctx.oid, keys := [name.val] }
    fun r outdata => (r, some outdata)

/-- `cls_setxattr`. -/
def clsSetxattr (ctx : MsgContext) (name : CString) (value : Bytes) : List OSDOp → MsgCall Unit :=
  ctx.send { opSubType := .setXattr, objName := ctx.oid, keys := [name.val], values := [value] }

/-- `cls_cxx_create`. -/
def clsCxxCreate (ctx : MsgContext) : List OSDOp → MsgCall Unit :=
  ctx.send { opSubType := .create, objName := ctx.oid }

/-- `cls_cxx_remove`. -/
def clsCxxRemove (ctx : MsgContext) : List OSDOp → MsgCall Unit :=
  ctx.send { opSubType := .delete, objName := ctx.oid }

/-- Decode a size and a time of seconds and nanoseconds. -/
def finishStat (_ : Int) (outdata : Bytes) : Int × Option (Nat × Nat × Nat) :=
  match (Format.u64.pair (Format.u32.pair Format.u32)).decode outdata with
  | .error _ => (eio, none)
  | .ok (stat, _) => (0, some stat)

/-- `cls_cxx_stat`: the size, and the seconds of the time. -/
def clsCxxStat (ctx : MsgContext) : List OSDOp → MsgCall (Nat × Nat) :=
  ctx.fetch { opSubType := .stat, objName := ctx.oid } fun r outdata =>
    let (ret, stat) := finishStat r outdata
    (ret, stat.map fun s => (s.1, s.2.1))

/-- The object of the request op that the class call stands in. -/
def MsgContext.ownObject (ctx : MsgContext) (opSubType : OpCode) : OpRequestOps :=
  let own := ctx.opReq.vecOps.getD ctx.opId { opSubType := .other 0 }
  { opSubType := opSubType
    isRbd := own.isRbd
    rbdObjId := { own.rbdObjId with reserve := 0 }
    objName := own.objName }

/-- `cls_cxx_stat2`. -/
def clsCxxStat2 (ctx : MsgContext) : List OSDOp → MsgCall (Nat × Nat × Nat) :=
  ctx.fetch (ctx.ownObject .stat) finishStat

/-- `cls_cxx_read2`. -/
def clsCxxRead2 (ctx : MsgContext) (ofs len : BitVec 32) (ptrOps : List OSDOp) : MsgCall Bytes :=
  if len.toInt ≤ 0 ∨ len.toInt ≥ 2 ^ 31 - 1 - 2 then { opreq := none, ret := einval, ops := ptrOps }
  else
    ctx.fetch
      { opSubType := .syncRead
        objName := ctx.oid
        objOffset := ofs
        objLength := len
        outDataLen := len }
      (fun _ outdata => (outdata.length, some outdata)) ptrOps

/-- `cls_cxx_write2`. -/
def clsCxxWrite2 (ctx : MsgContext) (ofs len : BitVec 32) (inbl : Bytes) :
    List OSDOp → MsgCall Unit :=
  ctx.send { ctx.ownObject .write with
    objOffset := ofs
    objLength := len
    inData := some inbl
    inDataLen := BitVec.ofNat 32 inbl.length }

/-- `cls_cxx_write_full`. -/
def clsCxxWriteFull (ctx : MsgContext) (inbl : Bytes) : List OSDOp → MsgCall Unit :=
  ctx.send
    { opSubType := .writeFull
      objName := ctx.oid
      objLength := BitVec.ofNat 32 inbl.length
      inData := some inbl
      inDataLen := BitVec.ofNat 32 inbl.length }

/-- `cls_cxx_getxattr`. -/
def clsCxxGetxattr (ctx : MsgContext) (name : CString) : List OSDOp → MsgCall Bytes :=
  ctx.fetch { opSubType := .getXattr, objName := ctx.oid, keys := [name.val] }
    fun _ outdata => (outdata.length, some outdata)

/-- `cls_cxx_getxattrs`. -/
def clsCxxGetxattrs (ctx : MsgContext) : List OSDOp → MsgCall (OrdMap Bytes Bytes) :=
  ctx.fetch { opSubType := .getXattrs, objName := ctx.oid } fun _ outdata =>
    match strBlMap.decode outdata with
    | .error _ => (eio, none)
    | .ok (entries, _) => (0, some (toMap entries))

/-- `cls_cxx_setxattr`. -/
def clsCxxSetxattr (ctx : MsgContext) (name : CString) (inbl : Bytes) :
    List OSDOp → MsgCall Unit :=
  ctx.send { opSubType := .setXattr, objName := ctx.oid, keys := [name.val], values := [inbl] }

/-- Decode a map and the `more` flag after it. -/
def finishVals (_ : Int) (outdata : Bytes) : Int × Option (OrdMap Bytes Bytes × Bool) :=
  finishListing (do let entries ← strBlMap.decode; pure (toMap entries))
    (fun vals => vals.entries.length) outdata

/-- The request op of a value listing. -/
def getValsOp (ctx : MsgContext) (startObj filterPrefix : Bytes) (maxToGet : BitVec 64) :
    OpRequestOps where
  opSubType := .omapGetVals
  objName := ctx.oid
  keys := [ascii "start_after", ascii "max_return", ascii "filter_prefix"]
  values := [startObj, toDecimal maxToGet.toNat, filterPrefix]

/-- `cls_cxx_map_get_all_vals`. -/
def clsCxxMapGetAllVals (ctx : MsgContext) : List OSDOp → MsgCall (OrdMap Bytes Bytes × Bool) :=
  ctx.fetch (getValsOp ctx [] [] (-1)) finishVals

/-- `cls_cxx_map_get_keys`. -/
def clsCxxMapGetKeys (ctx : MsgContext) (startObj : Bytes) (maxToGet : BitVec 64) :
    List OSDOp → MsgCall (List Bytes × Bool) :=
  ctx.fetch
    { opSubType := .omapGetKeys
      objName := ctx.oid
      keys := [ascii "start_after", ascii "max_return"]
      values := [startObj, toDecimal maxToGet.toNat] }
    fun _ => finishListing (do let keys ← strSet.decode; pure (toSet keys)) List.length

/-- `cls_cxx_map_get_vals`. -/
def clsCxxMapGetVals (ctx : MsgContext) (startObj filterPrefix : Bytes) (maxToGet : BitVec 64) :
    List OSDOp → MsgCall (OrdMap Bytes Bytes × Bool) :=
  ctx.fetch (getValsOp ctx startObj filterPrefix maxToGet) finishVals

/-- `cls_cxx_map_read_header`. -/
def clsCxxMapReadHeader (ctx : MsgContext) : List OSDOp → MsgCall Bytes :=
  ctx.fetch { opSubType := .omapGetHeader, objName := ctx.oid } fun _ outdata => (0, some outdata)

/-- `cls_cxx_map_get_val`: the value of the first key returned. -/
def clsCxxMapGetVal (ctx : MsgContext) (key : Bytes) : List OSDOp → MsgCall Bytes :=
  ctx.fetch { opSubType := .omapGetValsByKeys, objName := ctx.oid, keys := [key] }
    fun _ outdata =>
      match strBlMap.decode outdata with
      | .error _ => (eio, none)
      | .ok (entries, _) =>
          match (toMap entries).entries with
          | [] => (enoent, none)
          | entry :: _ => (0, some entry.2)

/-- `cls_cxx_map_set_val`. -/
def clsCxxMapSetVal (ctx : MsgContext) (key inbl : Bytes) : List OSDOp → MsgCall Unit :=
  ctx.send { opSubType := .omapSetVals, objName := ctx.oid, keys := [key], values := [inbl] }

/-- `cls_cxx_map_set_vals`. -/
def clsCxxMapSetVals (ctx : MsgContext) (map : OrdMap Bytes Bytes) : List OSDOp → MsgCall Unit :=
  ctx.send
    { opSubType := .omapSetVals
      objName := ctx.oid
      keys := map.entries.map Prod.fst
      values := map.entries.map Prod.snd }

/-- `cls_cxx_map_clear`. -/
def clsCxxMapClear (ctx : MsgContext) : List OSDOp → MsgCall Unit :=
  ctx.send { opSubType := .omapClear, objName := ctx.oid }

/-- `cls_cxx_map_write_header`. -/
def clsCxxMapWriteHeader (ctx : MsgContext) (inbl : Bytes) : List OSDOp → MsgCall Unit :=
  ctx.send
    { opSubType := .omapSetHeader
      objName := ctx.oid
      inDataLen := BitVec.ofNat 32 inbl.length
      inData := some inbl }

/-- `cls_cxx_map_remove_key`. -/
def clsCxxMapRemoveKey (ctx : MsgContext) (key : Bytes) : List OSDOp → MsgCall Unit :=
  ctx.send { opSubType := .omapRmKeys, objName := ctx.oid, keys := [key] }

/-! ## Isolation -/

/-- The functions that issue a sub-request, with their arguments. -/
inductive Wrapper where
  | cGetxattr (name : CString)
  | cSetxattr (name : CString) (value : Bytes)
  | create
  | remove
  | stat
  | stat2
  | read2 (ofs len : BitVec 32)
  | write2 (ofs len : BitVec 32) (inbl : Bytes)
  | writeFull (inbl : Bytes)
  | getxattr (name : CString)
  | getxattrs
  | setxattr (name : CString) (inbl : Bytes)
  | mapGetAllVals
  | mapGetKeys (startObj : Bytes) (maxToGet : BitVec 64)
  | mapGetVals (startObj filterPrefix : Bytes) (maxToGet : BitVec 64)
  | mapReadHeader
  | mapGetVal (key : Bytes)
  | mapSetVal (key inbl : Bytes)
  | mapSetVals (map : OrdMap Bytes Bytes)
  | mapClear
  | mapWriteHeader (inbl : Bytes)
  | mapRemoveKey (key : Bytes)

/-- The ops of the message when the function returns. -/
def Wrapper.opsAfter (ctx : MsgContext) (ops : List OSDOp) : Wrapper → List OSDOp
  | .cGetxattr name => (clsGetxattr ctx name ops).ops
  | .cSetxattr name value => (clsSetxattr ctx name value ops).ops
  | .create => (clsCxxCreate ctx ops).ops
  | .remove => (clsCxxRemove ctx ops).ops
  | .stat => (clsCxxStat ctx ops).ops
  | .stat2 => (clsCxxStat2 ctx ops).ops
  | .read2 ofs len => (clsCxxRead2 ctx ofs len ops).ops
  | .write2 ofs len inbl => (clsCxxWrite2 ctx ofs len inbl ops).ops
  | .writeFull inbl => (clsCxxWriteFull ctx inbl ops).ops
  | .getxattr name => (clsCxxGetxattr ctx name ops).ops
  | .getxattrs => (clsCxxGetxattrs ctx ops).ops
  | .setxattr name inbl => (clsCxxSetxattr ctx name inbl ops).ops
  | .mapGetAllVals => (clsCxxMapGetAllVals ctx ops).ops
  | .mapGetKeys startObj maxToGet => (clsCxxMapGetKeys ctx startObj maxToGet ops).ops
  | .mapGetVals startObj filterPrefix maxToGet =>
      (clsCxxMapGetVals ctx startObj filterPrefix maxToGet ops).ops
  | .mapReadHeader => (clsCxxMapReadHeader ctx ops).ops
  | .mapGetVal key => (clsCxxMapGetVal ctx key ops).ops
  | .mapSetVal key inbl => (clsCxxMapSetVal ctx key inbl ops).ops
  | .mapSetVals map => (clsCxxMapSetVals ctx map ops).ops
  | .mapClear => (clsCxxMapClear ctx ops).ops
  | .mapWriteHeader inbl => (clsCxxMapWriteHeader ctx inbl ops).ops
  | .mapRemoveKey key => (clsCxxMapRemoveKey ctx key ops).ops

/-- The request that the function hands to the back end, if it gets that far. -/
def Wrapper.sent (ctx : MsgContext) (ops : List OSDOp) : Wrapper → Option SaOpReq
  | .cGetxattr name => (clsGetxattr ctx name ops).opreq
  | .cSetxattr name value => (clsSetxattr ctx name value ops).opreq
  | .create => (clsCxxCreate ctx ops).opreq
  | .remove => (clsCxxRemove ctx ops).opreq
  | .stat => (clsCxxStat ctx ops).opreq
  | .stat2 => (clsCxxStat2 ctx ops).opreq
  | .read2 ofs len => (clsCxxRead2 ctx ofs len ops).opreq
  | .write2 ofs len inbl => (clsCxxWrite2 ctx ofs len inbl ops).opreq
  | .writeFull inbl => (clsCxxWriteFull ctx inbl ops).opreq
  | .getxattr name => (clsCxxGetxattr ctx name ops).opreq
  | .getxattrs => (clsCxxGetxattrs ctx ops).opreq
  | .setxattr name inbl => (clsCxxSetxattr ctx name inbl ops).opreq
  | .mapGetAllVals => (clsCxxMapGetAllVals ctx ops).opreq
  | .mapGetKeys startObj maxToGet => (clsCxxMapGetKeys ctx startObj maxToGet ops).opreq
  | .mapGetVals startObj filterPrefix maxToGet =>
      (clsCxxMapGetVals ctx startObj filterPrefix maxToGet ops).opreq
  | .mapReadHeader => (clsCxxMapReadHeader ctx ops).opreq
  | .mapGetVal key => (clsCxxMapGetVal ctx key ops).opreq
  | .mapSetVal key inbl => (clsCxxMapSetVal ctx key inbl ops).opreq
  | .mapSetVals map => (clsCxxMapSetVals ctx map ops).opreq
  | .mapClear => (clsCxxMapClear ctx ops).opreq
  | .mapWriteHeader inbl => (clsCxxMapWriteHeader ctx inbl ops).opreq
  | .mapRemoveKey key => (clsCxxMapRemoveKey ctx key ops).opreq

/-- The functions that read the output of their sub-request. -/
def Wrapper.readsOutput : Wrapper → Bool
  | .cGetxattr _ | .stat | .stat2 | .read2 _ _ | .getxattr _ | .getxattrs | .mapGetAllVals |
  .mapGetKeys _ _ | .mapGetVals _ _ _ | .mapReadHeader | .mapGetVal _ => true
  | _ => false

/-- The context as a function of `class_api.cc` sees it when the message holds these ops. -/
def MsgContext.seen (ctx : MsgContext) (ops : List OSDOp) : SaOpContext where
  opReq := ctx.opReq
  oid := ctx.oid
  cbFunc opreq := ((ctx.cbFunc opreq ops).1, (ctx.cbFunc opreq ops).2.2)

/-- A sub-request on a private vector is that of the class API on a message with one new op. -/
theorem fetch_eq_classApi {β : Type} (ctx : MsgContext) (op : OpRequestOps)
    (finish : Bytes → Int × Option β) (ops : List OSDOp) :
    let call := (ctx.seen [newOp]).fetch op finish
    (ctx.fetch op (fun _ => finish) ops).opreq = some call.opreq ∧
      (ctx.fetch op (fun _ => finish) ops).ret = call.ret ∧
      (ctx.fetch op (fun _ => finish) ops).out = call.out := by
  intro call
  have hcall : call =
      if (ctx.cbFunc (ctx.request op) [newOp]).1 < 0 then
        { opreq := ctx.request op, ret := (ctx.cbFunc (ctx.request op) [newOp]).1 }
      else
        { opreq := ctx.request op
          ret := (finish (ctx.cbFunc (ctx.request op) [newOp]).2.2).1
          out := (finish (ctx.cbFunc (ctx.request op) [newOp]).2.2).2 } := rfl
  rw [hcall]
  unfold MsgContext.fetch MsgContext.call
  simp only
  split_ifs <;> exact ⟨rfl, rfl, rfl⟩

/-- The functions that have a wire op. -/
def Wrapper.ofRequest : ClassRequest → Wrapper
  | .mapSetVals map => .mapSetVals map
  | .mapGetVals startObj filterPrefix maxToGet => .mapGetVals startObj filterPrefix maxToGet
  | .mapGetKeys startObj maxToGet => .mapGetKeys startObj maxToGet
  | .mapRemoveKey key => .mapRemoveKey key
  | .mapGetVal key => .mapGetVal key
  | .setxattr name inbl => .setxattr name inbl
  | .getxattr name => .getxattr name

/-- With the message in view, these functions hand over the requests compared with the wire. -/
theorem sent_ofRequest (ctx : MsgContext) (ops : List OSDOp) (request : ClassRequest) :
    (Wrapper.ofRequest request).sent ctx ops = some (request.opreq (ctx.seen [newOp])) := by
  cases request with
  | mapSetVals map => rfl
  | mapRemoveKey key => rfl
  | setxattr name inbl => rfl
  | mapGetVals startObj filterPrefix maxToGet => exact (fetch_eq_classApi ctx _ _ ops).1
  | mapGetKeys startObj maxToGet => exact (fetch_eq_classApi ctx _ _ ops).1
  | mapGetVal key => exact (fetch_eq_classApi ctx _ _ ops).1
  | getxattr name => exact (fetch_eq_classApi ctx _ _ ops).1

/-- On this request the back end writes to the first op of the message what is there already. -/
def MsgContext.Leaves (ctx : MsgContext) (ops : List OSDOp) (opreq : SaOpReq) : Prop :=
  ∀ first ∈ ops.head?,
    first.rval = (ctx.cbFunc opreq ops).2.1 ∧ first.outdata = (ctx.cbFunc opreq ops).2.2

/-- Writing the first op changes nothing exactly if the values are there already. -/
theorem setFirst_eq_iff (rval : Int) (outdata : Bytes) (ops : List OSDOp) :
    setFirst rval outdata ops = ops ↔
      ∀ first ∈ ops.head?, first.rval = rval ∧ first.outdata = outdata := by
  cases ops with
  | nil => simp [setFirst]
  | cons first rest =>
      obtain ⟨op, indata, out, r⟩ := first
      simp only [setFirst, List.cons.injEq, and_true, OSDOp.mk.injEq, true_and, List.head?_cons,
        Option.mem_some_iff, forall_eq']
      exact ⟨fun h => ⟨h.2.symm, h.1.symm⟩, fun h => ⟨h.2.symm, h.1.symm⟩⟩

/-- A sub-request on the message of the client keeps its ops exactly if the back end leaves
them. -/
theorem send_ops_eq_iff (ctx : MsgContext) (op : OpRequestOps) (ops : List OSDOp) :
    (ctx.send op ops).ops = ops ↔ ctx.Leaves ops (ctx.request op) :=
  setFirst_eq_iff _ _ ops

/-- A sub-request on a private vector keeps the ops of the client, whatever the back end does. -/
theorem fetch_ops {β : Type} (ctx : MsgContext) (op : OpRequestOps)
    (finish : Int → Bytes → Int × Option β) (ops : List OSDOp) :
    (ctx.fetch op finish ops).ops = ops := by
  unfold MsgContext.fetch
  simp only
  split_ifs <;> rfl

/-- Class calls keep the ops of the client exactly if the function reads output, and so swaps in a
private op vector, or the back end leaves the first op as it is. -/
theorem opsAfter_eq_iff (w : Wrapper) (ctx : MsgContext) (ops : List OSDOp) :
    w.opsAfter ctx ops = ops ↔
      w.readsOutput = true ∨ ∃ opreq, w.sent ctx ops = some opreq ∧ ctx.Leaves ops opreq := by
  have hsend : ∀ op, (ctx.send op ops).ops = ops ↔
      false = true ∨ ∃ opreq, (ctx.send op ops).opreq = some opreq ∧ ctx.Leaves ops opreq := by
    intro op
    rw [send_ops_eq_iff]
    constructor
    · intro h
      exact .inr ⟨_, rfl, h⟩
    · intro h
      obtain habsurd | ⟨opreq, hopreq, hleaves⟩ := h
      · cases habsurd
      · cases hopreq
        exact hleaves
  cases w
  case read2 ofs len =>
    refine iff_of_true ?_ (.inl rfl)
    show (clsCxxRead2 ctx ofs len ops).ops = ops
    unfold clsCxxRead2
    split_ifs
    · rfl
    · exact fetch_ops _ _ _ _
  all_goals first
    | exact hsend _
    | exact iff_of_true (fetch_ops _ _ _ _) (.inl rfl)

/-- A message with a read whose output is there and a class call. -/
def readAndCall : List OSDOp :=
  [{ op := { op := .read }, outdata := ascii "data" }, { op := { op := .call } }]

/-- A back end that reports `-EIO` in the first op and leaves its output. -/
def failingContext : MsgContext where
  opReq := {}
  opId := 1
  oid := ascii "rbd_header.1"
  cbFunc _ ops := (eio, eio, (ops.headD newOp).outdata)

/-- A `cls_cxx_map_clear` that fails makes the client's read fail. -/
theorem opsAfter_mapClear_ne :
    Wrapper.mapClear.opsAfter failingContext readAndCall ≠ readAndCall := by
  intro h
  have hrval := congrArg (fun ops => (ops.headD newOp).rval) h
  exact absurd hrval (by decide)

end GlobalCacheAdaptor.ServerAdaptor.OnMessage
