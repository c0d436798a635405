import GlobalCacheAdaptor.ServerAdaptor.MsgModule

/-!
# The class API

A method of a Ceph class that runs inside the adaptor reads and writes its object through the
functions of `class_api.cc`. Each of them builds a request of one op and hands it to the back end.
A client reaches the back end through the wire instead, and `ConvertClientopToOpreq` builds the
request. `wire_matches_class_api` says that the two requests agree.
-/

namespace GlobalCacheAdaptor.ServerAdaptor

open Lib

/-! ## `class_api.cc` -/

/-- `-ENOENT`. -/
def enoent : Int := -2

/-- `SaOpContext` as a class method sees it: the request it runs for, the object name of that
request's message, and the back end. Next to its result the back end leaves output in the op that
the caller put in place of the message's ops. -/
structure SaOpContext where
  opReq : SaOpReq
  oid : Bytes
  cbFunc : SaOpReq → Int × Bytes

/-- What a call of the class API does: the request it hands to the back end, its result, and the
output it leaves if it succeeds. -/
structure ClassCall (β : Type) where
  opreq : SaOpReq
  ret : Int
  out : Option β := none

/-- The request of the context, with one op of its own. -/
def SaOpContext.request (ctx : SaOpContext) (op : OpRequestOps) : SaOpReq :=
  { ctx.opReq with vecOps := [op] }

/-- Hand an op to the back end and return its result. -/
def SaOpContext.send (ctx : SaOpContext) (op : OpRequestOps) : ClassCall Unit where
  opreq := ctx.request op
  ret := (ctx.cbFunc (ctx.request op)).1

/-- Hand an op to the back end and read its output, unless it fails. -/
def SaOpContext.fetch {β : Type} (ctx : SaOpContext) (op : OpRequestOps)
    (finish : Bytes → Int × Option β) : ClassCall β :=
  match ctx.cbFunc (ctx.request op) with
  | (r, outdata) =>
      -- the output of a call that failed is not read
      if r < 0 then { opreq := ctx.request op, ret := r }
      else
        { opreq := ctx.request op
          ret := (finish outdata).1
          out := (finish outdata).2 }

/-- `cls_cxx_getxattr`. -/
def clsCxxGetxattr (ctx : SaOpContext) (name : CString) : ClassCall Bytes :=
  ctx.fetch { opSubType := .getXattr, objName := ctx.oid, keys := [name.val] }
    fun outdata => (outdata.length, some outdata)

/-- `cls_cxx_setxattr`. -/
def clsCxxSetxattr (ctx : SaOpContext) (name : CString) (inbl : Bytes) : ClassCall Unit :=
  ctx.send { opSubType := .setXattr, objName := ctx.oid, keys := [name.val], values := [inbl] }

/-- Decode a container and the `more` flag after it; the result is the container's size. -/
def finishListing {β : Type} (container : Decoder β) (size : β → Nat) (outdata : Bytes) :
    Int × Option (β × Bool) :=
  match (do
    let listed ← container
    let more ← (Format.le 1).decode
    pure (listed, decide (more ≠ 0)) : Decoder (β × Bool)) outdata with
  | .error _ => (eio, none)
  | .ok (result, _) => (size result.1, some result)

/-- `cls_cxx_map_get_keys`. -/
def clsCxxMapGetKeys (ctx : SaOpContext) (startObj : Bytes) (maxToGet : BitVec 64) :
    ClassCall (List Bytes × Bool) :=
  ctx.fetch
    { opSubType := .omapGetKeys
      objName := ctx.oid
      keys := [ascii "start_after", ascii "max_return"]
      values := [startObj, toDecimal maxToGet.toNat] }
    (finishListing (do let keys ← strSet.decode; pure (toSet keys)) List.length)

/-- `cls_cxx_map_get_vals`. -/
def clsCxxMapGetVals (ctx : SaOpContext) (startObj filterPrefix : Bytes)
    (maxToGet : BitVec 64) : ClassCall (OrdMap Bytes Bytes × Bool) :=
  ctx.fetch
    { opSubType := .omapGetVals
      objName := ctx.oid
      keys := [ascii "start_after", ascii "max_return", ascii "filter_prefix"]
      values := [startObj, toDecimal maxToGet.toNat, filterPrefix] }
    (finishListing (do let entries ← strBlMap.decode; pure (toMap entries))
      fun vals => vals.entries.length)

/-- `cls_cxx_map_get_val`: the value of the first key returned. -/
def clsCxxMapGetVal (ctx : SaOpContext) (key : Bytes) : ClassCall Bytes :=
  ctx.fetch { opSubType := .omapGetValsByKeys, objName := ctx.oid, keys := [key] }
    fun outdata =>
      match strBlMap.decode outdata with
      | .error _ => (eio, none)
      | .ok (entries, _) =>
          match (toMap entries).entries with
          | [] => (enoent, none)
          | entry :: _ => (0, some entry.2)

/-- `cls_cxx_map_set_vals`. -/
def clsCxxMapSetVals (ctx : SaOpContext) (map : OrdMap Bytes Bytes) : ClassCall Unit :=
  ctx.send
    { opSubType := .omapSetVals
      objName := ctx.oid
      keys := map.entries.map Prod.fst
      values := map.entries.map Prod.snd }

/-- `cls_cxx_map_remove_key`. -/
def clsCxxMapRemoveKey (ctx : SaOpContext) (key : Bytes) : ClassCall Unit :=
  ctx.send { opSubType := .omapRmKeys, objName := ctx.oid, keys := [key] }

/-! ## Both ways to the back end -/

/-- The calls of the class API that have a wire op, with their arguments. -/
inductive ClassRequest where
  | mapSetVals (map : OrdMap Bytes Bytes)
  | mapGetVals (startObj filterPrefix : Bytes) (maxToGet : BitVec 64)
  | mapGetKeys (startObj : Bytes) (maxToGet : BitVec 64)
  | mapRemoveKey (key : Bytes)
  | mapGetVal (key : Bytes)
  | setxattr (name : CString) (inbl : Bytes)
  | getxattr (name : CString)

/-- The request that the class API hands to the back end. -/
def ClassRequest.opreq (ctx : SaOpContext) : ClassRequest → SaOpReq
  | .mapSetVals map => (clsCxxMapSetVals ctx map).opreq
  | .mapGetVals startObj filterPrefix maxToGet =>
      (clsCxxMapGetVals ctx startObj filterPrefix maxToGet).opreq
  | .mapGetKeys startObj maxToGet => (clsCxxMapGetKeys ctx startObj maxToGet).opreq
  | .mapRemoveKey key => (clsCxxMapRemoveKey ctx key).opreq
  | .mapGetVal key => (clsCxxMapGetVal ctx key).opreq
  | .setxattr name inbl => (clsCxxSetxattr ctx name inbl).opreq
  | .getxattr name => (clsCxxGetxattr ctx name).opreq

/-- The op is the one by which a client asks for the same: its code, the lengths in its header and
its input are those of the standard Ceph encoding. -/
def ClassRequest.Encoded (clientop : OSDOp) : ClassRequest → Prop
  | .mapSetVals map =>
      clientop.op.op = .omapSetVals ∧ clientop.indata.bytes = strBlMap.encode map.entries
  | .mapGetVals startObj filterPrefix maxToGet =>
      clientop.op.op = .omapGetVals ∧
        clientop.indata.bytes = Format.string.encode startObj ++
          (Format.u64.encode maxToGet.toNat ++ Format.string.encode filterPrefix)
  | .mapGetKeys startObj maxToGet =>
      clientop.op.op = .omapGetKeys ∧
        clientop.indata.bytes = Format.string.encode startObj ++
          Format.u64.encode maxToGet.toNat
  | .mapRemoveKey key =>
      clientop.op.op = .omapRmKeys ∧ clientop.indata.bytes = strSet.encode [key]
  | .mapGetVal key =>
      clientop.op.op = .omapGetValsByKeys ∧ clientop.indata.bytes = strSet.encode [key]
  | .setxattr name inbl =>
      clientop.op.op = .setXattr ∧ clientop.op.nameLen = BitVec.ofNat 32 name.val.length ∧
        clientop.op.valueLen = BitVec.ofNat 32 inbl.length ∧
        clientop.indata.bytes = name.val ++ inbl
  | .getxattr name =>
      clientop.op.op = .getXattr ∧ clientop.op.nameLen = BitVec.ofNat 32 name.val.length ∧
        clientop.indata.bytes = name.val

/-! ## The two-pass decoder -/

/-- The two passes of the `OMAPSETVALS` branch: copy the encoded map out of the input, then decode
the copy. -/
def decodeToSet : Decoder (List (Bytes × Bytes)) := do
  let toSetBl ← decodeStrStrMapToBl
  match strBlMap.decode toSetBl with
  | .error e => fun _ => .error e
  | .ok (entries, _) => pure entries

/-- On input shorter than 4 GiB the two passes return what decoding the map directly returns, and
fail where it fails. -/
theorem decodeToSet_eq {bs : Bytes} (hbs : bs.length < 2 ^ 32) :
    decodeToSet bs = strBlMap.decode bs := by
  cases hdirect : strBlMap.decode bs with
  | ok result =>
      obtain ⟨entries, rest⟩ := result
      obtain ⟨hvalid, happ⟩ := (strBlMap.decode_iff _ _ _).mp hdirect
      have hcopy : decodeStrStrMapToBl bs = .ok (strBlMap.encode entries, rest) :=
        (decodeStrStrMapToBl_ok_iff hbs).mpr ⟨entries, hvalid, rfl, happ⟩
      have hagain : strBlMap.decode (strBlMap.encode entries) = .ok (entries, []) :=
        (strBlMap.decode_iff _ _ _).mpr ⟨hvalid, (List.append_nil _).symm⟩
      refine Decoder.bind_ok_iff.mpr ⟨_, _, hcopy, ?_⟩
      rw [hagain]
      rfl
  | error e =>
      cases hcopy : decodeStrStrMapToBl bs with
      | error e' =>
          show Decoder.bind decodeStrStrMapToBl _ bs = _
          rw [Decoder.bind, hcopy]
      | ok result =>
          obtain ⟨out, rest⟩ := result
          obtain ⟨entries, hvalid, rfl, happ⟩ := (decodeStrStrMapToBl_ok_iff hbs).mp hcopy
          rw [(strBlMap.decode_iff _ _ _).mpr ⟨hvalid, happ⟩] at hdirect
          cases hdirect

/-- The `OMAPSETVALS` branch stores what the two passes return. -/
theorem convertOmapOp_setVals {clientop : OSDOp} (hop : clientop.op.op = .omapSetVals)
    {oneOp : OpRequestOps} {entries : List (Bytes × Bytes)} {bs rest : Bytes}
    (h : decodeToSet bs = .ok (entries, rest)) :
    convertOmapOp clientop oneOp bs =
      .ok ({ oneOp with
        keys := oneOp.keys ++ (toMap entries).entries.map Prod.fst
        values := oneOp.values ++ (toMap entries).entries.map Prod.snd }, rest) := by
  obtain ⟨toSetBl, middle, hcopy, hdecode⟩ := Decoder.bind_ok_iff.mp h
  simp only [convertOmapOp, hop]
  refine Decoder.bind_ok_iff.mpr ⟨toSetBl, middle, hcopy, ?_⟩
  cases hbl : strBlMap.decode toSetBl with
  | error e =>
      rw [hbl] at hdecode
      cases hdecode
  | ok result =>
      obtain ⟨decoded, left⟩ := result
      rw [hbl] at hdecode
      obtain ⟨rfl, rfl⟩ := Decoder.pure_ok_iff.mp hdecode
      rfl

/-! ## The requests agree -/

section

variable {clientop : OSDOp}

/-- A string inside the input of an op is valid, because it is shorter than 4 GiB. -/
theorem string_valid {s : Bytes} (h : Format.string.encode s <:+: clientop.indata.bytes) :
    Format.string.Valid s :=
  Format.sized_string s (Nat.lt_of_le_of_lt h.length_le clientop.indata.length_lt)

/-- The encoded map of an op is valid, because it is shorter than 4 GiB. -/
theorem strBlMap_valid {entries : List (Bytes × Bytes)}
    (h : clientop.indata.bytes = strBlMap.encode entries) : strBlMap.Valid entries := by
  refine (Format.sized_string.pair Format.sized_string).counted ?_ entries ?_
  · intro entry
    simp [Format.pair, Format.string]
  · show (strBlMap.encode entries).length < 256 ^ 4
    rw [← h]
    exact clientop.indata.length_lt

/-- The encoded key set of an op is valid, because it is shorter than 4 GiB. -/
theorem strSet_valid {keys : List Bytes} (h : clientop.indata.bytes = strSet.encode keys) :
    strSet.Valid keys := by
  refine Format.sized_string.counted ?_ keys ?_
  · intro key
    simp [Format.string]
  · show (strSet.encode keys).length < 256 ^ 4
    rw [← h]
    exact clientop.indata.length_lt

/-- The map branch on the encoding of a map. -/
theorem convertOmapOp_encodedMap {map : OrdMap Bytes Bytes} (oneOp : OpRequestOps)
    (hop : clientop.op.op = .omapSetVals)
    (hbytes : clientop.indata.bytes = strBlMap.encode map.entries) :
    convertOmapOp clientop oneOp clientop.indata.bytes =
      .ok ({ oneOp with
        keys := oneOp.keys ++ map.entries.map Prod.fst
        values := oneOp.values ++ map.entries.map Prod.snd }, []) := by
  have hdecode : decodeToSet clientop.indata.bytes = .ok (map.entries, []) := by
    rw [decodeToSet_eq clientop.indata.length_lt]
    refine (strBlMap.decode_iff _ _ _).mpr ⟨strBlMap_valid hbytes, ?_⟩
    rw [hbytes, List.append_nil]
  rw [convertOmapOp_setVals hop hdecode, toMap_entries]

/-- The value listing branch on its encoded arguments. -/
theorem convertOmapOp_encodedVals {startObj filterPrefix : Bytes} {maxToGet : BitVec 64}
    (oneOp : OpRequestOps) (hop : clientop.op.op = .omapGetVals)
    (hbytes : clientop.indata.bytes = Format.string.encode startObj ++
      (Format.u64.encode maxToGet.toNat ++ Format.string.encode filterPrefix)) :
    convertOmapOp clientop oneOp clientop.indata.bytes =
      .ok ({ oneOp with
        keys := oneOp.keys ++ [ascii "start_after", ascii "max_return", ascii "filter_prefix"]
        values := oneOp.values ++ [startObj, toDecimal maxToGet.toNat, filterPrefix] }, []) := by
  have hstart : Format.string.Valid startObj := by
    apply string_valid
    rw [hbytes]
    exact (List.prefix_append _ _).isInfix
  have hfilter : Format.string.Valid filterPrefix := by
    apply string_valid
    rw [hbytes]
    exact ((List.suffix_append _ _).trans (List.suffix_append _ _)).isInfix
  simp only [convertOmapOp, hop, Decoder.bind_ok_iff, Format.decode_iff, Decoder.pure_ok_iff]
  refine ⟨startObj, _, ⟨hstart, hbytes⟩, maxToGet.toNat, _, ⟨maxToGet.isLt, rfl⟩,
    filterPrefix, [], ⟨hfilter, ?_⟩, rfl, rfl⟩
  rw [List.append_nil]

/-- The key listing branch on its encoded arguments. -/
theorem convertOmapOp_encodedKeys {startObj : Bytes} {maxToGet : BitVec 64}
    (oneOp : OpRequestOps) (hop : clientop.op.op = .omapGetKeys)
    (hbytes : clientop.indata.bytes = Format.string.encode startObj ++
      Format.u64.encode maxToGet.toNat) :
    convertOmapOp clientop oneOp clientop.indata.bytes =
      .ok ({ oneOp with
        keys := oneOp.keys ++ [ascii "start_after", ascii "max_return"]
        values := oneOp.values ++ [startObj, toDecimal maxToGet.toNat] }, []) := by
  have hstart : Format.string.Valid startObj := by
    apply string_valid
    rw [hbytes]
    exact (List.prefix_append _ _).isInfix
  simp only [convertOmapOp, hop, Decoder.bind_ok_iff, Format.decode_iff, Decoder.pure_ok_iff]
  refine ⟨startObj, _, ⟨hstart, hbytes⟩, maxToGet.toNat, [], ⟨maxToGet.isLt, ?_⟩, rfl, rfl⟩
  rw [List.append_nil]

/-- The two key set branches on the encoding of one key. -/
theorem convertOmapOp_encodedKey {key : Bytes} (oneOp : OpRequestOps)
    (hop : clientop.op.op = .omapRmKeys ∨ clientop.op.op = .omapGetValsByKeys)
    (hbytes : clientop.indata.bytes = strSet.encode [key]) :
    convertOmapOp clientop oneOp clientop.indata.bytes =
      .ok ({ oneOp with keys := oneOp.keys ++ [key] }, []) := by
  have hdecode : strSet.decode clientop.indata.bytes = .ok ([key], []) := by
    refine (strSet.decode_iff _ _ _).mpr ⟨strSet_valid hbytes, ?_⟩
    rw [hbytes, List.append_nil]
  obtain hop | hop := hop
  · simp only [convertOmapOp, hop]
    exact Decoder.bind_ok_iff.mpr ⟨_, _, hdecode, rfl⟩
  · simp only [convertOmapOp, hop]
    exact Decoder.bind_ok_iff.mpr ⟨_, _, hdecode, rfl⟩

/-- The length of a part of an op's input fits a header field. -/
theorem toNat_length {part : Bytes} (h : part <:+: clientop.indata.bytes) :
    (BitVec.ofNat 32 part.length).toNat = part.length := by
  rw [BitVec.toNat_ofNat]
  exact Nat.mod_eq_of_lt (Nat.lt_of_le_of_lt h.length_le clientop.indata.length_lt)

/-- The attribute branch on a name and a value. -/
theorem convertAttrOp_encodedSet {name inbl : Bytes} (oneOp : OpRequestOps)
    (hop : clientop.op.op = .setXattr)
    (hname : clientop.op.nameLen = BitVec.ofNat 32 name.length)
    (hvalue : clientop.op.valueLen = BitVec.ofNat 32 inbl.length)
    (hbytes : clientop.indata.bytes = name ++ inbl) :
    convertAttrOp clientop oneOp clientop.indata.bytes =
      .ok ({ oneOp with keys := oneOp.keys ++ [name], values := oneOp.values ++ [inbl] }, []) := by
  have hnameLen : (BitVec.ofNat 32 name.length).toNat = name.length := by
    apply toNat_length
    rw [hbytes]
    exact (List.prefix_append _ _).isInfix
  have hvalueLen : (BitVec.ofNat 32 inbl.length).toNat = inbl.length := by
    apply toNat_length
    rw [hbytes]
    exact (List.suffix_append _ _).isInfix
  simp only [convertAttrOp, hop, hname, hvalue, hnameLen, hvalueLen, Decoder.bind_ok_iff,
    Decoder.copy_ok_iff, Decoder.pure_ok_iff]
  exact ⟨name, inbl, ⟨rfl, hbytes⟩, inbl, [], ⟨rfl, (List.append_nil inbl).symm⟩, rfl, rfl⟩

/-- The attribute branch on a name. -/
theorem convertAttrOp_encodedGet {name : Bytes} (oneOp : OpRequestOps)
    (hop : clientop.op.op = .getXattr)
    (hname : clientop.op.nameLen = BitVec.ofNat 32 name.length)
    (hbytes : clientop.indata.bytes = name) :
    convertAttrOp clientop oneOp clientop.indata.bytes =
      .ok ({ oneOp with keys := oneOp.keys ++ [name] }, []) := by
  have hbytes' : clientop.indata.bytes = name ++ [] := by rw [hbytes, List.append_nil]
  have hnameLen : (BitVec.ofNat 32 name.length).toNat = name.length := by
    apply toNat_length
    rw [hbytes]
  simp only [convertAttrOp, hop, hname, hnameLen, Decoder.bind_ok_iff, Decoder.copy_ok_iff,
    Decoder.pure_ok_iff]
  exact ⟨name, [], ⟨rfl, hbytes'⟩, rfl, rfl⟩

end

/-! ## The requests agree -/

/-- A call that reads output hands over its request, whatever the back end returns. -/
theorem fetch_opreq {β : Type} (ctx : SaOpContext) (op : OpRequestOps)
    (finish : Bytes → Int × Option β) : (ctx.fetch op finish).opreq = ctx.request op := by
  unfold SaOpContext.fetch
  cases ctx.cbFunc (ctx.request op) with
  | mk r outdata =>
      show (if r < 0 then _ else _ : ClassCall β).opreq = _
      split_ifs <;> rfl

/-- The conversion of an op yields the code, keys and values of the one op of a request. -/
def ConvertsLike (clientop : OSDOp) (oneOp : OpRequestOps) (optionType : OptionsType)
    (optionLength : OptionsLength) (opreq : SaOpReq) : Prop :=
  ∃ converted op,
    convertClientopToOpreq clientop oneOp optionType optionLength = .ok converted ∧
      converted.ret = 0 ∧ opreq.vecOps = [op] ∧ converted.oneOp.opSubType = op.opSubType ∧
      converted.oneOp.keys = op.keys ∧ converted.oneOp.values = op.values

section

variable {clientop : OSDOp} {oneOp : OpRequestOps} {optionType : OptionsType}
  {optionLength : OptionsLength} {ctx : SaOpContext} {op result : OpRequestOps} {rest : Bytes}

/-- The omap ops are converted by `ConvertOmapOp`. -/
theorem convert_omap
    (hop : clientop.op.op ∈ [OpCode.omapGetVals, .omapSetVals, .omapGetKeys, .omapRmKeys,
      .omapGetValsByKeys]) :
    convertClientopToOpreq clientop oneOp optionType optionLength =
      Converted.ofDecoder clientop optionType optionLength
        (convertOmapOp clientop { oneOp with opSubType := clientop.op.op }) := by
  simp only [List.mem_cons, List.not_mem_nil, or_false] at hop
  obtain hop | hop | hop | hop | hop := hop <;> simp only [convertClientopToOpreq, hop]

/-- The attribute ops are converted by `ConvertAttrOp`. -/
theorem convert_attr (hop : clientop.op.op ∈ [OpCode.getXattr, .setXattr]) :
    convertClientopToOpreq clientop oneOp optionType optionLength =
      Converted.ofDecoder clientop optionType optionLength
        (convertAttrOp clientop { oneOp with opSubType := clientop.op.op }) := by
  simp only [List.mem_cons, List.not_mem_nil, or_false] at hop
  obtain hop | hop := hop <;> simp only [convertClientopToOpreq, hop]

/-- What a branch of the conversion decodes is the converted op. -/
theorem convertsLike_of_decoder {d : Decoder OpRequestOps}
    (hbranch : convertClientopToOpreq clientop oneOp optionType optionLength =
      Converted.ofDecoder clientop optionType optionLength d)
    (h : d clientop.indata.bytes = .ok (result, rest))
    (hcode : result.opSubType = op.opSubType) (hkeys : result.keys = op.keys)
    (hvalues : result.values = op.values) :
    ConvertsLike clientop oneOp optionType optionLength (ctx.request op) := by
  refine ⟨⟨0, result, optionType, optionLength⟩, op, ?_, rfl, rfl, hcode, hkeys, hvalues⟩
  rw [hbranch, Converted.ofDecoder, h]

end

/-- The wire and the class API build the same request: for each request, the conversion of its
standard encoding succeeds and yields the code, keys and values of the one op that the class API
hands to the back end for the same arguments. The two-pass decoding of a map is its direct
decoding, on any input shorter than 4 GiB. -/
theorem wire_matches_class_api (ctx : SaOpContext) (request : ClassRequest) {clientop : OSDOp}
    (hwire : request.Encoded clientop) {oneOp : OpRequestOps} (hkeys : oneOp.keys = [])
    (hvalues : oneOp.values = []) (optionType : OptionsType) (optionLength : OptionsLength) :
    ConvertsLike clientop oneOp optionType optionLength (request.opreq ctx) ∧
      ∀ bs : Bytes, bs.length < 2 ^ 32 → decodeToSet bs = strBlMap.decode bs := by
  refine ⟨?_, fun bs => decodeToSet_eq⟩
  cases request with
  | mapSetVals map =>
      obtain ⟨hop, hbytes⟩ := hwire
      refine convertsLike_of_decoder (convert_omap (by simp [hop]))
        (convertOmapOp_encodedMap _ hop hbytes) hop ?_ ?_
      · exact congrArg (· ++ _) hkeys
      · exact congrArg (· ++ _) hvalues
  | mapGetVals startObj filterPrefix maxToGet =>
      obtain ⟨hop, hbytes⟩ := hwire
      rw [ClassRequest.opreq, clsCxxMapGetVals, fetch_opreq]
      refine convertsLike_of_decoder (convert_omap (by simp [hop]))
        (convertOmapOp_encodedVals _ hop hbytes) hop ?_ ?_
      · exact congrArg (· ++ _) hkeys
      · exact congrArg (· ++ _) hvalues
  | mapGetKeys startObj maxToGet =>
      obtain ⟨hop, hbytes⟩ := hwire
      rw [ClassRequest.opreq, clsCxxMapGetKeys, fetch_opreq]
      refine convertsLike_of_decoder (convert_omap (by simp [hop]))
        (convertOmapOp_encodedKeys _ hop hbytes) hop ?_ ?_
      · exact congrArg (· ++ _) hkeys
      · exact congrArg (· ++ _) hvalues
  | mapRemoveKey key =>
      obtain ⟨hop, hbytes⟩ := hwire
      refine convertsLike_of_decoder (convert_omap (by simp [hop]))
        (convertOmapOp_encodedKey _ (.inl hop) hbytes) hop
        ?_ hvalues
      exact congrArg (· ++ _) hkeys
  | mapGetVal key =>
      obtain ⟨hop, hbytes⟩ := hwire
      rw [ClassRequest.opreq, clsCxxMapGetVal, fetch_opreq]
      refine convertsLike_of_decoder (convert_omap (by simp [hop]))
        (convertOmapOp_encodedKey _ (.inr hop) hbytes) hop
        ?_ hvalues
      exact congrArg (· ++ _) hkeys
  | setxattr name inbl =>
      obtain ⟨hop, hname, hvalue, hbytes⟩ := hwire
      refine convertsLike_of_decoder (convert_attr (by simp [hop]))
        (convertAttrOp_encodedSet _ hop hname hvalue hbytes) hop ?_ ?_
      · exact congrArg (· ++ _) hkeys
      · exact congrArg (· ++ _) hvalues
  | getxattr name =>
      obtain ⟨hop, hname, hbytes⟩ := hwire
      rw [ClassRequest.opreq, clsCxxGetxattr, fetch_opreq]
      refine convertsLike_of_decoder (convert_attr (by simp [hop]))
        (convertAttrOp_encodedGet _ hop hname hbytes) hop
        ?_ hvalues
      exact congrArg (· ++ _) hkeys

/-- A map with the empty key and a key with a zero byte, the second with an empty value. -/
def binaryMap : OrdMap Bytes Bytes := (OrdMap.empty.insert [0, 255] []).insert [] [7]

/-- The client op that sets this map. -/
def setBinaryMap : OSDOp where
  op := { op := .omapSetVals }
  indata := { bytes := strBlMap.encode binaryMap.entries, length_lt := by decide }

/-- A context whose back end returns 0. -/
def idleContext : SaOpContext where
  opReq := {}
  oid := ascii "obj"
  cbFunc _ := (0, [])

/-- The two ways agree on the binary map. -/
theorem wire_matches_binaryMap :
    ConvertsLike setBinaryMap { opSubType := .create } {} {}
        ((clsCxxMapSetVals idleContext binaryMap).opreq) ∧
      ∀ bs : Bytes, bs.length < 2 ^ 32 → decodeToSet bs = strBlMap.decode bs :=
  wire_matches_class_api idleContext (.mapSetVals binaryMap) ⟨rfl, rfl⟩ rfl rfl {} {}

end GlobalCacheAdaptor.ServerAdaptor
