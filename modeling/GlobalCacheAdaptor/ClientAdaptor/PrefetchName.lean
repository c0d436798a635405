import GlobalCacheAdaptor.ClientAdaptor.DataObject

/-!
# Names for the prefetch

`das_update_info` takes the name of an object that is read apart, the image id up to the last dot
and the object number behind it, and hands both to the access-pattern module. `das_req_prefetch`
makes names of them again. The module is assumed to return what it was given.

`nameRoundTrips_iff` says for which names the first one made is the name taken apart. The number
is read as a signed 64-bit value, which throws from 2^63 on, and printed as an `int`, which loses
the digits from 2^32 on.
-/

namespace GlobalCacheAdaptor.ClientAdaptor

open Lib ServerAdaptor

/-! ## `das_update_info` -/

/-- What `std::stol` throws. -/
inductive StolError where
  | invalidArgument
  | outOfRange
  deriving DecidableEq

/-- `std::stol(text, nullptr, 16)`. A `0x` without a digit behind it is a zero. -/
def stolHex (text : Bytes) : Except StolError (BitVec 64) :=
  let (negative, text) := readSign ((cStr text).dropWhile isSpace)
  let marked := digits 16 (skipHexMark text)
  let ds := if marked = [] then digits 16 text else marked
  let value := digitsValue 16 ds
  if ds = [] then .error .invalidArgument
  else if negative then
    if 2 ^ 63 < value then .error .outOfRange else .ok (-BitVec.ofNat 64 value)
  else if 2 ^ 63 ≤ value then .error .outOfRange
  else .ok (BitVec.ofNat 64 value)

/-- `find_last_of`. -/
def findLastOf (c : Byte) (text : Bytes) : Option Nat :=
  (text.reverse.findIdx? (· = c)).map fun i => text.length - 1 - i

/-- What `das_update_info` reads of an `Objecter::Op`: the name and the pool of its target, whether
the flag `CEPH_OSD_FLAG_WRITE` is set, and its ops. -/
structure TargetOp where
  name : Bytes
  pool : BitVec 64
  writes : Bool
  ops : List OSDOp

/-- The op is a `READ`, a `SPARSE_READ` or a `SYNC_READ`. -/
def isReadOp (p : OSDOp) : Bool :=
  p.op.op = .read || p.op.op = .sparseRead || p.op.op = .syncRead

/-- The call of `das_update_info`: whether the adaptor is initialized, the cluster and the
objecter, what lies in memory behind the parameters of each read, and what the access-pattern
module answers. -/
structure DasCall where
  initialized : Bool
  clusterId : Nat
  obj : Nat
  behind : Nat → Bytes
  putRet : Int

/-- The parameters of one read. The length of the image id is cut to 32 bits before the id is
copied. -/
def dasKvParam (call : DasCall) (op : TargetOp) (found : Nat) (objId : BitVec 64) (i : Nat)
    (p : OSDOp) : DasKvParam :=
  let imageIdLen := BitVec.ofNat 32 (found + 1)
  { offset := p.op.extentOffset
    len := p.op.extentLength
    cephPoolId := op.pool
    objId := objId
    imageIdLen := imageIdLen
    clusterId := call.clusterId
    ctx := call.obj
    imageIdBuf := op.name.take imageIdLen.toNat ++ call.behind i }

/-- The loop over the ops and `OpenRcachePutDasInfo`: one entry for each read. -/
def dasStore (call : DasCall) (op : TargetOp) (found : Nat) (objId : BitVec 64) :
    Int × List DasKvParam :=
  let params := (op.ops.filter isReadOp).mapIdx (dasKvParam call op found objId)
  if params = [] then (0, [])
  else (if call.putRet ≠ 0 then -1 else 0, params)

/-- `ClientAdaptorMsg::das_update_info`: the code, and the parameters that are stored; -22 is
`-EINVAL`. -/
def dasUpdateInfo (call : DasCall) (op : TargetOp) : Except StolError (Int × List DasKvParam) :=
  if call.initialized = false then .ok (0, [])
  else if op.writes then .ok (0, [])
  else if op.name.take 8 ≠ ascii "rbd_data" then .ok (0, [])
  else
    match findLastOf (byteOf '.') op.name with
    | none => .ok (-22, [])
    | some found =>
        (stolHex ((op.name.drop (found + 1)).take objectIdLen)).map (dasStore call op found)

/-- The first name that `das_req_prefetch` makes, if it makes one. -/
def firstName (dasObjs : List Nat) (params : DasKvParam) : Option Bytes :=
  if params.ctx ∉ dasObjs then none
  else if params.len = 0 then none
  else some (oidName params (params.objId.setWidth 32))

/-- Nothing is thrown, and what is stored gives the name back: the first name made, and the first
op pushed, are those of the object that is read. -/
structure NameRoundTrips (call : DasCall) (op : TargetOp) : Prop where
  returns : ∃ ret params, dasUpdateInfo call op = .ok (ret, params)
  made : ∀ ret params, dasUpdateInfo call op = .ok (ret, params) → ∀ param ∈ params,
    ∀ dasObjs, ∀ name ∈ firstName dasObjs param, name = op.name
  pushed : ∀ ret params, dasUpdateInfo call op = .ok (ret, params) → ∀ param ∈ params,
    ∀ view dasObjs, ∀ push ∈ (dasReqPrefetch view dasObjs (some param)).pushed.head?,
      push.oidName = op.name

/-! ## The number -/

/-- The object number as it stands in a name. -/
def printNumber (number : BitVec 64) : Bytes := (hexDigits objectIdLen number.toNat).map hexDigit

theorem length_printNumber (number : BitVec 64) : (printNumber number).length = 16 := by
  rw [printNumber, List.length_map, length_hexDigits, objectIdLen]

/-- The number is read up to 2^63. -/
theorem stolHex_printNumber (number : BitVec 64) :
    stolHex (printNumber number) =
      if 2 ^ 63 ≤ number.toNat then .error .outOfRange else .ok number := by
  have hdigits : ∀ d ∈ hexDigits objectIdLen number.toNat, d < 16 := fun _ => lt_of_mem_hexDigits
  have hvalue : digitsValue 16 (hexDigits objectIdLen number.toNat) = number.toNat :=
    value_hexDigits (show number.toNat < 16 ^ 16 by omega)
  have hne : hexDigits objectIdLen number.toNat ≠ [] := by
    intro hnil
    have hlen := congrArg List.length hnil
    rw [length_hexDigits] at hlen
    cases hlen
  obtain ⟨hsign, hmark⟩ := skip_map_hexDigit hdigits
  rw [stolHex, printNumber, cStr_eq_self (plain_map_hexDigit hdigits).1, hsign]
  simp only [hmark, digits_map_hexDigit (Nat.le_refl 16) hdigits, if_neg hne, hvalue,
    Bool.false_eq_true, if_false, BitVec.ofNat_toNat, BitVec.setWidth_eq]

/-- The number is printed back as it was exactly if it is below 2^32. -/
theorem printObjectId_eq_iff (number : BitVec 64) :
    printObjectId (number.setWidth 32) = printNumber number ↔ number.toNat < 2 ^ 32 := by
  constructor
  · intro heq
    have hlow := strtoul_printObjectId (number.setWidth 32)
    rw [heq, printNumber, objectIdLen, strtoul_hexDigits number.isLt] at hlow
    omega
  · intro hlt
    rw [printObjectId, printNumber, BitVec.toNat_setWidth, Nat.mod_eq_of_lt hlt]

/-! ## The name -/

/-- A text with something other behind a character has it last there. -/
theorem findLastOf_append {c : Byte} {tail : Bytes} (h : c ∉ tail) (text : Bytes) :
    findLastOf c (text ++ c :: tail) = some text.length := by
  have hnone : tail.reverse.findIdx? (· = c) = none := by
    rw [List.findIdx?_eq_none_iff]
    intro x hx
    refine decide_eq_false ?_
    rintro rfl
    exact h (List.mem_reverse.mp hx)
  have hindex : (text ++ c :: tail).reverse.findIdx? (· = c) = some tail.length := by
    rw [List.reverse_append, List.reverse_cons, List.append_assoc, List.findIdx?_append, hnone,
      List.singleton_append, List.findIdx?_cons, if_pos (decide_eq_true rfl)]
    simp
  rw [findLastOf, hindex, Option.map_some, List.length_append, List.length_cons]
  congr 1
  omega

/-- A text in front of which no zero byte stands is read through. -/
theorem cStr_append {text : Bytes} (h : 0 ∉ text) (rest : Bytes) :
    cStr (text ++ rest) = text ++ cStr rest := by
  refine List.takeWhile_append_of_pos ?_
  intro b hb
  exact decide_eq_true fun hzero => h (hzero ▸ hb)

/-- A C string has no zero byte. -/
theorem zero_notMem_cStr (text : Bytes) : 0 ∉ cStr text := by
  intro hzero
  exact absurd (List.mem_takeWhile_imp hzero) (by decide)

/-- A name is made of the image id and the number if both are there in full. -/
theorem oidName_eq_append_iff {params : DasKvParam} {id : BitVec 32} {image number : Bytes}
    (hnumber : number.length = objectIdLen) (hle : params.imageIdLen.toNat ≤ image.length) :
    oidName params id = image ++ number ↔
      (cStr params.imageIdBuf).take params.imageIdLen.toNat = image ∧
        printObjectId id = number := by
  have hprint : (printObjectId id).length = objectIdLen := by
    rw [printObjectId, List.length_map, length_hexDigits]
  have htake : ((cStr params.imageIdBuf).take params.imageIdLen.toNat).length ≤
      params.imageIdLen.toNat := List.length_take_le _ _
  unfold oidName
  dsimp only
  generalize (cStr params.imageIdBuf).take params.imageIdLen.toNat = taken at htake
  constructor
  · intro heq
    have hlen := congrArg List.length heq
    split_ifs at heq hlen with hshort
    · -- without the number the name is too short
      rw [List.length_append, hnumber] at hlen
      omega
    · rw [List.length_append, List.length_append, hnumber, hprint] at hlen
      exact List.append_inj heq (by omega)
  · rintro ⟨rfl, rfl⟩
    rw [if_neg (by omega)]

/-- The image id is copied in full if its length fits 32 bits, and read in full if it has no zero
byte. -/
theorem take_cStr_eq_iff (image rest behind : Bytes) :
    (cStr ((image ++ rest).take (BitVec.ofNat 32 image.length).toNat ++ behind)).take
        (BitVec.ofNat 32 image.length).toNat = image ↔
      image.length < 2 ^ 32 ∧ 0 ∉ image := by
  rw [BitVec.toNat_ofNat]
  constructor
  · intro heq
    have hlen := congrArg List.length heq
    rw [List.length_take] at hlen
    refine ⟨by omega, ?_⟩
    intro hzero
    rw [← heq] at hzero
    exact zero_notMem_cStr _ (List.mem_of_mem_take hzero)
  · rintro ⟨hfits, hzero⟩
    rw [Nat.mod_eq_of_lt hfits, List.take_left, cStr_append hzero, List.take_left]

theorem dasKvParam_imageIdLen (call : DasCall) (op : TargetOp) (found : Nat) (objId : BitVec 64)
    (i : Nat) (p : OSDOp) :
    (dasKvParam call op found objId i p).imageIdLen = BitVec.ofNat 32 (found + 1) := rfl

theorem dasKvParam_imageIdBuf (call : DasCall) (op : TargetOp) (found : Nat) (objId : BitVec 64)
    (i : Nat) (p : OSDOp) :
    (dasKvParam call op found objId i p).imageIdBuf =
      op.name.take (BitVec.ofNat 32 (found + 1)).toNat ++ call.behind i := rfl

/-- One entry is stored for each read. -/
theorem mem_dasStore {call : DasCall} {op : TargetOp} {found : Nat} {objId : BitVec 64}
    {param : DasKvParam} :
    param ∈ (dasStore call op found objId).2 ↔
      ∃ i p, (op.ops.filter isReadOp)[i]? = some p ∧
        dasKvParam call op found objId i p = param := by
  have hparams : (dasStore call op found objId).2 =
      (op.ops.filter isReadOp).mapIdx (dasKvParam call op found objId) := by
    unfold dasStore
    dsimp only
    by_cases hnone : (op.ops.filter isReadOp).mapIdx (dasKvParam call op found objId) = []
    · rw [if_pos hnone, hnone]
    · rw [if_neg hnone]
  rw [hparams, List.mem_iff_getElem?]
  simp only [List.getElem?_mapIdx, Option.map_eq_some_iff]

/-- The first name made of an entry is the name of its object, if its range is not empty. -/
theorem mem_firstName {call : DasCall} {op : TargetOp} {found i : Nat} {objId : BitVec 64}
    {p : OSDOp} {dasObjs : List Nat} {name : Bytes} :
    name ∈ firstName dasObjs (dasKvParam call op found objId i p) ↔
      call.obj ∈ dasObjs ∧ p.op.extentLength ≠ 0 ∧
        oidName (dasKvParam call op found objId i p) (objId.setWidth 32) = name := by
  show firstName dasObjs (dasKvParam call op found objId i p) = some name ↔ _
  have hctx : (dasKvParam call op found objId i p).ctx = call.obj := rfl
  have hlen : (dasKvParam call op found objId i p).len = p.op.extentLength := rfl
  have hobj : (dasKvParam call op found objId i p).objId = objId := rfl
  rw [firstName, hctx, hlen, hobj]
  by_cases hmem : call.obj ∈ dasObjs
  · rw [if_neg (not_not_intro hmem)]
    by_cases hzero : p.op.extentLength = 0
    · rw [if_pos hzero]
      exact iff_of_false (fun h => nomatch h) fun h => h.2.1 hzero
    · rw [if_neg hzero, Option.some_inj]
      exact ⟨fun h => ⟨hmem, hzero, h⟩, fun h => h.2.2⟩
  · rw [if_pos hmem]
    exact iff_of_false (fun h => nomatch h) fun h => hmem h.1

/-- Without the prefetch module, or for an op that writes, nothing is stored. -/
theorem dasUpdateInfo_idle {call : DasCall} {op : TargetOp}
    (h : ¬ (call.initialized = true ∧ op.writes = false)) :
    dasUpdateInfo call op = .ok (0, []) := by
  unfold dasUpdateInfo
  by_cases hinit : call.initialized = false
  · rw [if_pos hinit]
  · rw [if_neg hinit, if_pos]
    rw [Bool.not_eq_false] at hinit
    by_contra hwrites
    exact h ⟨hinit, Bool.eq_false_of_not_eq_true hwrites⟩

/-- Something is stored only by an initialized adaptor, for an op that does not write. -/
theorem reads_of_stored {call : DasCall} {op : TargetOp} {ret : Int} {params : List DasKvParam}
    {param : DasKvParam} (hok : dasUpdateInfo call op = .ok (ret, params))
    (hparam : param ∈ params) : call.initialized = true ∧ op.writes = false := by
  by_contra hidle
  rw [dasUpdateInfo_idle hidle] at hok
  cases hok
  cases hparam

section Name

variable {call : DasCall} {op : TargetOp} {image : Bytes} {number : BitVec 64}

/-- The name is made again exactly if the length of the image id fits 32 bits, the id has no zero
byte, and the number is printed as it stands in the name. -/
theorem oidName_eq_iff (hname : op.name = image ++ byteOf '.' :: printNumber number)
    (objId : BitVec 64) (i : Nat) (p : OSDOp) (id : BitVec 32) :
    oidName (dasKvParam call op image.length objId i p) id = op.name ↔
      (image.length + 1 < 2 ^ 32 ∧ 0 ∉ image) ∧ printObjectId id = printNumber number := by
  have hdot : op.name = (image ++ [byteOf '.']) ++ printNumber number := by
    rw [hname, List.append_assoc, List.singleton_append]
  have hlength : (image ++ [byteOf '.']).length = image.length + 1 := by simp
  have hzero : (0 ∉ image ++ [byteOf '.']) ↔ 0 ∉ image := by
    rw [List.mem_append, List.mem_singleton]
    exact not_congr (or_iff_left (by decide))
  have hle : (dasKvParam call op image.length objId i p).imageIdLen.toNat ≤
      (image ++ [byteOf '.']).length := by
    rw [dasKvParam_imageIdLen, hlength, BitVec.toNat_ofNat]
    exact Nat.mod_le _ _
  have htake := take_cStr_eq_iff (image ++ [byteOf '.']) (printNumber number)
    (call.behind i)
  rw [hlength, ← hdot, hzero, ← dasKvParam_imageIdBuf call op image.length objId i p,
    ← dasKvParam_imageIdLen call op image.length objId i p] at htake
  rw [← htake, ← oidName_eq_append_iff (length_printNumber number) hle, ← hdot]

/-- The name passes the test for data objects and is cut at the dot in front of the number. -/
theorem dasUpdateInfo_eq (hname : op.name = image ++ byteOf '.' :: printNumber number)
    (hfilter : filterMsg op.name = true) (hinit : call.initialized = true)
    (hread : op.writes = false) :
    dasUpdateInfo call op =
      (stolHex (printNumber number)).map (dasStore call op image.length) := by
  have hmark : op.name.take 8 = ascii "rbd_data" := by
    rw [filterMsg, Bool.and_eq_true, decide_eq_true_eq, decide_eq_true_eq] at hfilter
    exact hfilter.2
  have hdot : findLastOf (byteOf '.') op.name = some image.length := by
    rw [hname]
    exact findLastOf_append (plain_map_hexDigit fun _ => lt_of_mem_hexDigits).2 image
  have htext : (op.name.drop (image.length + 1)).take objectIdLen = printNumber number := by
    rw [hname, ← List.drop_drop, List.drop_left, List.drop_one, List.tail_cons]
    exact List.take_of_length_le (length_printNumber number).le
  unfold dasUpdateInfo
  rw [if_neg (by rw [hinit]; decide), if_neg (by rw [hread]; decide),
    if_neg (not_not_intro hmark), hdot]
  dsimp only
  rw [htext]

/-- Below 2^63 what belongs to the number is stored. -/
theorem dasUpdateInfo_ok (hname : op.name = image ++ byteOf '.' :: printNumber number)
    (hfilter : filterMsg op.name = true) (hinit : call.initialized = true)
    (hread : op.writes = false) (hsmall : number.toNat < 2 ^ 63) :
    dasUpdateInfo call op = .ok (dasStore call op image.length number) := by
  rw [dasUpdateInfo_eq hname hfilter hinit hread, stolHex_printNumber, if_neg (by omega)]
  rfl

/-- What is read did not throw. -/
theorem lt_of_dasUpdateInfo (hname : op.name = image ++ byteOf '.' :: printNumber number)
    (hfilter : filterMsg op.name = true) (hinit : call.initialized = true)
    (hread : op.writes = false) {result : Int × List DasKvParam}
    (hok : dasUpdateInfo call op = .ok result) : number.toNat < 2 ^ 63 := by
  refine Nat.lt_of_not_le ?_
  intro hbig
  rw [dasUpdateInfo_eq hname hfilter hinit hread, stolHex_printNumber, if_pos hbig] at hok
  cases hok

end Name

/-! ## The first op pushed -/

/-- Nothing is pushed to a null objecter. -/
theorem prefetchLoop_null (view : CcmView) {params : DasKvParam} (hctx : params.ctx = 0)
    (offset : Fin segmentSize) (id : BitVec 32) (left : Nat) :
    (prefetchLoop view params offset id left).pushed = [] := by
  induction left using Nat.strongRecOn generalizing offset id with
  | ind left ih =>
      obtain rfl | hleft := Nat.eq_zero_or_pos left
      · rw [prefetchLoop_zero]
      · cases hnode : prefetchNode view params id with
        | none => rw [prefetchLoop_abort offset hleft hnode]
        | some nodeId =>
            have hlt := offset.isLt
            rw [prefetchLoop.eq_def, if_neg (by omega), hnode]
            simp only [pushStrategy, if_pos hctx]
            exact ih _ (by omega) _ _

/-- The first op is pushed under the first name, if there is an objecter and a node for it. -/
theorem head?_pushed (view : CcmView) (dasObjs : List Nat) (params : DasKvParam) :
    (dasReqPrefetch view dasObjs (some params)).pushed.head?.map PrefetchOp.oidName =
      if params.ctx ≠ 0 ∧ (prefetchNode view params (params.objId.setWidth 32)).isSome = true then
        firstName dasObjs params
      else none := by
  unfold dasReqPrefetch
  dsimp only
  rw [firstName]
  by_cases hctx : params.ctx ∉ dasObjs
  · rw [if_pos hctx, if_pos hctx, ite_self]
    rfl
  rw [if_neg hctx, if_neg hctx]
  by_cases hlen : params.len = 0
  · have hleft : params.len.toNat = 0 := by
      rw [hlen]
      rfl
    rw [hleft, prefetchLoop_zero, if_pos hlen, ite_self]
    rfl
  have hleft : 0 < params.len.toNat := by
    refine Nat.pos_of_ne_zero ?_
    intro hzero
    exact hlen (BitVec.eq_of_toNat_eq hzero)
  rw [if_neg hlen]
  cases hnode : prefetchNode view params (params.objId.setWidth 32) with
  | none =>
      rw [prefetchLoop_abort _ hleft hnode, if_neg fun h => nomatch h.2]
      rfl
  | some nodeId =>
      by_cases hnull : params.ctx = 0
      · rw [prefetchLoop_null view hnull, if_neg fun h => h.1 hnull]
        rfl
      · rw [prefetchLoop_push hnull _ hleft hnode, if_pos ⟨hnull, rfl⟩]
        rfl

/-- An op that is pushed first has the first name. -/
theorem firstName_of_pushed {view : CcmView} {dasObjs : List Nat} {params : DasKvParam}
    {push : PrefetchOp}
    (h : push ∈ (dasReqPrefetch view dasObjs (some params)).pushed.head?) :
    push.oidName ∈ firstName dasObjs params := by
  have hhead := head?_pushed view dasObjs params
  rw [Option.mem_def.mp h, Option.map_some] at hhead
  split_ifs at hhead
  exact hhead.symm

/-! ## The round trip -/

/-- A name that passes `filter_msg` and ends in a dot and sixteen digits comes back from the
prefetch of a read exactly if its number is below 2^32, the image id has no zero byte and its length
fits 32 bits. The adaptor throws from 2^63 on. -/
theorem nameRoundTrips_iff (call : DasCall) (op : TargetOp) {image : Bytes} {number : BitVec 64}
    (hname : op.name = image ++ byteOf '.' :: printNumber number)
    (hfilter : filterMsg op.name = true) :
    NameRoundTrips call op ↔
      (call.initialized = true → op.writes = false →
        number.toNat < 2 ^ 63 ∧
          ((∃ p ∈ op.ops, isReadOp p = true ∧ p.op.extentLength ≠ 0) →
            number.toNat < 2 ^ 32 ∧ 0 ∉ image ∧ image.length + 1 < 2 ^ 32)) := by
  constructor
  · intro htrip hinit hread
    obtain ⟨ret, params, hok⟩ := htrip.returns
    have hsmall := lt_of_dasUpdateInfo hname hfilter hinit hread hok
    refine ⟨hsmall, ?_⟩
    rintro ⟨p, hp, hisRead, hlen⟩
    obtain ⟨i, hi⟩ := List.mem_iff_getElem?.mp (List.mem_filter.mpr ⟨hp, hisRead⟩)
    have hmade := htrip.made _ _ (dasUpdateInfo_ok hname hfilter hinit hread hsmall) _
      (mem_dasStore.mpr ⟨i, p, hi, rfl⟩) [call.obj] _
      (mem_firstName.mpr ⟨List.mem_singleton_self _, hlen, rfl⟩)
    obtain ⟨⟨hfits, hzero⟩, hprint⟩ := (oidName_eq_iff hname number i p _).mp hmade
    exact ⟨(printObjectId_eq_iff number).mp hprint, hzero, hfits⟩
  · intro hcond
    have hmade : ∀ ret params, dasUpdateInfo call op = .ok (ret, params) → ∀ param ∈ params,
        ∀ dasObjs, ∀ name ∈ firstName dasObjs param, name = op.name := by
      intro ret params hok param hparam dasObjs name hfirst
      obtain ⟨hinit, hread⟩ := reads_of_stored hok hparam
      obtain ⟨hsmall, hreads⟩ := hcond hinit hread
      rw [dasUpdateInfo_ok hname hfilter hinit hread hsmall, Except.ok.injEq] at hok
      have hstored : (dasStore call op image.length number).2 = params := congrArg Prod.snd hok
      rw [← hstored] at hparam
      obtain ⟨i, p, hi, rfl⟩ := mem_dasStore.mp hparam
      obtain ⟨-, hlen, rfl⟩ := mem_firstName.mp hfirst
      obtain ⟨hp, hisRead⟩ := List.mem_filter.mp (List.mem_of_getElem? hi)
      obtain ⟨hlow, hzero, hfits⟩ := hreads ⟨p, hp, hisRead, hlen⟩
      exact (oidName_eq_iff hname number i p _).mpr
        ⟨⟨hfits, hzero⟩, (printObjectId_eq_iff number).mpr hlow⟩
    refine ⟨?_, hmade, ?_⟩
    · by_cases hstores : call.initialized = true ∧ op.writes = false
      · obtain ⟨hinit, hread⟩ := hstores
        exact ⟨_, _, dasUpdateInfo_ok hname hfilter hinit hread (hcond hinit hread).1⟩
      · exact ⟨0, [], dasUpdateInfo_idle hstores⟩
    · intro ret params hok param hparam view dasObjs push hpush
      exact hmade ret params hok param hparam dasObjs _ (firstName_of_pushed hpush)

/-- An adaptor with one objecter. -/
def oneObjecter : DasCall where
  initialized := true
  clusterId := 1
  obj := 7
  behind := fun _ => []
  putRet := 0

/-- The read of a page. -/
def pageRead : OSDOp where
  op := { op := .read, extentOffset := 0, extentLength := 4096 }

/-- A read of the first page of an object of image `135421846e0f`. -/
def readPage (number : BitVec 64) : TargetOp where
  name := ascii "rbd_data.135421846e0f" ++ byteOf '.' :: printNumber number
  pool := 3
  writes := false
  ops := [pageRead]

theorem nameRoundTrips_object_86 :
    (readPage 86).name = ascii "rbd_data.135421846e0f.0000000000000056" ∧
      NameRoundTrips oneObjecter (readPage 86) := by
  refine ⟨by decide, (nameRoundTrips_iff oneObjecter (readPage 86) rfl (by decide)).mpr ?_⟩
  intro _ _
  exact ⟨by decide, fun _ => by decide⟩

/-- Object 2^32 is read, and the prefetch names object 0. -/
theorem not_nameRoundTrips_object_two_pow_32 :
    (readPage (2 ^ 32)).name = ascii "rbd_data.135421846e0f.0000000100000000" ∧
      filterMsg (readPage (2 ^ 32)).name = true ∧
      (∃ param, dasUpdateInfo oneObjecter (readPage (2 ^ 32)) = .ok (0, [param]) ∧
        firstName [7] param = some (ascii "rbd_data.135421846e0f.0000000000000000")) ∧
      ¬ NameRoundTrips oneObjecter (readPage (2 ^ 32)) := by
  have hread : (readPage (2 ^ 32)).name = ascii "rbd_data.135421846e0f.0000000100000000" := by
    decide
  have hfilter : filterMsg (readPage (2 ^ 32)).name = true := by decide
  have hok : dasUpdateInfo oneObjecter (readPage (2 ^ 32)) =
      .ok (0, [dasKvParam oneObjecter (readPage (2 ^ 32)) 21 (2 ^ 32) 0 pageRead]) :=
    dasUpdateInfo_ok rfl hfilter rfl rfl (by decide)
  have hfirst : firstName [7] (dasKvParam oneObjecter (readPage (2 ^ 32)) 21 (2 ^ 32) 0 pageRead) =
      some (ascii "rbd_data.135421846e0f.0000000000000000") := by decide
  refine ⟨hread, hfilter, ⟨_, hok, hfirst⟩, ?_⟩
  intro htrip
  have hname := htrip.made _ _ hok _ List.mem_cons_self _ _ hfirst
  rw [hread] at hname
  exact absurd hname (by decide)

end GlobalCacheAdaptor.ClientAdaptor
