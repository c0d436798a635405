import GlobalCacheAdaptor.Lib.OrdMap
import GlobalCacheAdaptor.ServerAdaptor.SaDef

/-!
# Conversion of client ops

`convertClientopToOpreq` translates one client op into the form the back end takes, after
`msg_module.cpp`. A Ceph buffer read past the end raises `BufferError`, and only the class-call
branch catches it. `convert_ok_iff` is the main result: the conversion raises nothing exactly on
the ops whose input has the layout its op code calls for (`OSDOp.WellFormed`).
`convert_preserved_iff` says when a converted op has the extent and the payload of the client's.
-/

namespace GlobalCacheAdaptor.ServerAdaptor

open Lib

/-! ## Ceph containers on the wire -/

/-- The wire format of `map<string, bufferlist>`. -/
def strBlMap : Format (List (Bytes × Bytes)) := (Format.string.pair Format.string).counted

/-- The wire format of `set<string>`. -/
def strSet : Format (List Bytes) := Format.string.counted

/-- The wire format of `map<string, pair<bufferlist, int>>`. -/
def strAssertMap : Format (List (Bytes × Bytes × Nat)) :=
  (Format.string.pair (Format.string.pair Format.u32)).counted

/-- The map a sequence of decoded entries leaves: they are emplaced, so a repeated key keeps its
first value. -/
def toMap {β : Type} (entries : List (Bytes × β)) : OrdMap Bytes β :=
  entries.foldl (fun m e => m.insertNew e.1 e.2) .empty

/-- The element list of a decoded `set<string>`, in key order. -/
def toSet (keys : List Bytes) : List Bytes :=
  (toMap (keys.map fun k => (k, ()))).entries.map Prod.fst

/-- Under distinct keys the entries may as well be assigned. -/
theorem toMap_eq_foldl {β : Type} {entries : List (Bytes × β)}
    (h : (entries.map Prod.fst).Nodup) :
    toMap entries = entries.foldl (fun m e => m.insert e.1 e.2) .empty :=
  OrdMap.foldl_insertNew_eq .empty (fun _ _ => rfl) h

/-- A map of entries under distinct keys has exactly these. -/
theorem find?_toMap {β : Type} {entries : List (Bytes × β)} (h : (entries.map Prod.fst).Nodup)
    (k : Bytes) (v : β) : (toMap entries).find? k = some v ↔ (k, v) ∈ entries := by
  rw [toMap_eq_foldl h, OrdMap.find?_foldl_insert_entries h]
  simp

/-- The entries of a map make this map. -/
theorem toMap_entries {β : Type} (map : OrdMap Bytes β) : toMap map.entries = map :=
  (toMap_eq_foldl map.nodup_keys).trans map.foldl_insert_entries

/-- `std::to_string` on an unsigned integer. -/
def toDecimal (n : Nat) : Bytes := ascii (Nat.repr n)

/-! ## The two-pass omap decoder -/

/-- The loop of `decode_str_str_map_to_bl`: walk `n` key/value pairs, adding their encoded sizes
to the 32-bit counter `len`. -/
def strStrMapLoop : Nat → BitVec 32 → Decoder (BitVec 32)
  | 0, len => pure len
  | n + 1, len => do
      let l ← Format.u32.decode
      Decoder.advance l
      let len := len + (4 + BitVec.ofNat 32 l)
      let l ← Format.u32.decode
      Decoder.advance l
      let len := len + (4 + BitVec.ofNat 32 l)
      strStrMapLoop n len

/-- `decode_str_str_map_to_bl`: measure the encoded map at the cursor, then copy that many bytes
from the start of it. -/
def decodeStrStrMapToBl : Decoder Bytes := fun start =>
  match (do let n ← Format.u32.decode; strStrMapLoop n 4) start with
  | .error e => .error e
  | .ok (len, p) =>
      match Decoder.copy len.toNat start with
      | .error e => .error e
      | .ok (out, _) => .ok (out, p)

/-! ## The conversion -/

/-- `MsgModule::ConvertObjRw`. -/
def convertObjRw (clientop : OSDOp) (oneOp : OpRequestOps) : OpRequestOps :=
  match clientop.op.op with
  | .read | .sparseRead | .syncRead =>
      { oneOp with outDataLen := clientop.op.extentLength.setWidth 32 }
  | .write | .writeFull =>
      { oneOp with
        inData := some clientop.indata.bytes
        inDataLen := BitVec.ofNat 32 clientop.indata.bytes.length }
  | _ => oneOp

/-- `MsgModule::ConvertOmapOp`. -/
def convertOmapOp (clientop : OSDOp) (oneOp : OpRequestOps) : Decoder OpRequestOps :=
  match clientop.op.op with
  | .omapGetVals => do
      let startAfter ← Format.string.decode
      let maxReturn ← Format.u64.decode
      let filterPrefix ← Format.string.decode
      pure { oneOp with
        keys := oneOp.keys ++ [ascii "start_after", ascii "max_return", ascii "filter_prefix"]
        values := oneOp.values ++ [startAfter, toDecimal maxReturn, filterPrefix] }
  | .omapSetVals => do
      let toSetBl ← decodeStrStrMapToBl
      match strBlMap.decode toSetBl with
      | .error e => fun _ => .error e
      | .ok (entries, _) =>
          let kvs := (toMap entries).entries
          pure { oneOp with
            keys := oneOp.keys ++ kvs.map Prod.fst
            values := oneOp.values ++ kvs.map Prod.snd }
  | .omapGetKeys => do
      let startAfter ← Format.string.decode
      let maxReturn ← Format.u64.decode
      pure { oneOp with
        keys := oneOp.keys ++ [ascii "start_after", ascii "max_return"]
        values := oneOp.values ++ [startAfter, toDecimal maxReturn] }
  | .omapRmKeys | .omapGetValsByKeys => do
      let keys ← strSet.decode
      pure { oneOp with keys := oneOp.keys ++ toSet keys }
  | .omapSetHeader =>
      -- the length comes from the extent header, not from the buffer
      pure { oneOp with
        inDataLen := clientop.op.extentLength.setWidth 32
        inData := some clientop.indata.bytes }
  | .omapCmp => do
      let assertions ← strAssertMap.decode
      let kvs := (toMap assertions).entries
      pure { oneOp with
        keys := oneOp.keys ++ kvs.map Prod.fst
        values := oneOp.values ++ kvs.map fun e => e.2.1
        subops := oneOp.subops ++ kvs.map fun e => (BitVec.ofNat 32 e.2.2).toInt }
  | _ => pure oneOp

/-- `MsgModule::ConvertAttrOp`. -/
def convertAttrOp (clientop : OSDOp) (oneOp : OpRequestOps) : Decoder OpRequestOps := do
  let xattrName ← Decoder.copy clientop.op.nameLen.toNat
  let oneOp := { oneOp with keys := oneOp.keys ++ [xattrName] }
  match clientop.op.op with
  | .setXattr => do
      let val ← Decoder.copy clientop.op.valueLen.toNat
      pure { oneOp with values := oneOp.values ++ [val] }
  | .cmpXattr => do
      let oneOp := { oneOp with
        subops := oneOp.subops ++ [(clientop.op.cmpOp.toNat : Int)]
        cmpModes := oneOp.cmpModes ++ [clientop.op.cmpMode] }
      match clientop.op.cmpMode with
      | .string => do
          -- `val[value_len] = 0` writes the terminator of a string of that length: no change
          let val ← Decoder.copy clientop.op.valueLen.toNat
          pure { oneOp with values := oneOp.values ++ [val] }
      | .u64 => do
          let u64val ← Format.u64.decode
          pure { oneOp with u64vals := oneOp.u64vals ++ [u64val] }
      | .other _ => pure oneOp
  | _ => pure oneOp

/-- `MsgModule::ConvertRollBackOp`. -/
def convertRollBackOp (clientop : OSDOp) (oneOp : OpRequestOps) : OpRequestOps :=
  { oneOp with
    keys := oneOp.keys ++ [ascii "snapid"]
    values := oneOp.values ++ [toDecimal clientop.op.snapid.toNat] }

/-- The class and method names of a `CALL` as the `try` block of the conversion leaves them: a
short buffer ends the reads early, and what was read before the error stays. -/
def callNames (clientop : OSDOp) : Bytes × Bytes :=
  match Decoder.copyAvailable clientop.op.classLen.toNat clientop.indata.bytes with
  | (cname, none) => (cname, [])
  | (cname, some rest) =>
      (cname, (Decoder.copyAvailable clientop.op.methodLen.toNat rest).1)

/-- What a conversion leaves behind: the return code and the updated arguments. -/
structure Converted where
  ret : Int
  oneOp : OpRequestOps
  optionType : OptionsType
  optionLength : OptionsLength

/-- Run a sub-conversion on the op's input and return code 0. -/
def Converted.ofDecoder (clientop : OSDOp) (optionType : OptionsType)
    (optionLength : OptionsLength) (d : Decoder OpRequestOps) : Except BufferError Converted :=
  match d clientop.indata.bytes with
  | .ok (oneOp, _) => .ok ⟨0, oneOp, optionType, optionLength⟩
  | .error e => .error e

/-- `MsgModule::ConvertClientopToOpreq`. Log output is left out. -/
def convertClientopToOpreq (clientop : OSDOp) (oneOp : OpRequestOps) (optionType : OptionsType)
    (optionLength : OptionsLength) : Except BufferError Converted :=
  let oneOp := { oneOp with opSubType := clientop.op.op }
  match clientop.op.op with
  | .sparseRead | .syncRead | .read =>
      .ok ⟨0,
        convertObjRw clientop { oneOp with
          objOffset := clientop.op.extentOffset.setWidth 32
          objLength := clientop.op.extentLength.setWidth 32 },
        { optionType with read := optionType.read + 1 },
        { optionLength with read := optionLength.read + clientop.op.extentLength / 1024 }⟩
  | .writeFull | .write =>
      .ok ⟨0,
        convertObjRw clientop { oneOp with
          objOffset := clientop.op.extentOffset.setWidth 32
          objLength := clientop.op.extentLength.setWidth 32 },
        { optionType with write := optionType.write + 1 },
        { optionLength with write := optionLength.write + clientop.op.extentLength / 1024 }⟩
  | .getXattr | .rmXattr | .cmpXattr | .setXattr =>
      Converted.ofDecoder clientop optionType optionLength (convertAttrOp clientop oneOp)
  | .omapGetVals | .omapSetVals | .omapGetKeys | .omapRmKeys | .omapClear | .omapGetValsByKeys
  | .omapCmp | .omapSetHeader | .omapGetHeader =>
      Converted.ofDecoder clientop optionType optionLength (convertOmapOp clientop oneOp)
  | .call =>
      let (cname, mname) := callNames clientop
      if cname = ascii "rbd" ∧ mname = ascii "copyup" then
        .ok ⟨1, oneOp, optionType, optionLength⟩
      else
        .ok ⟨0, oneOp, optionType, optionLength⟩
  | .create => .ok ⟨0, { oneOp with opFlags := clientop.op.flags }, optionType, optionLength⟩
  | .rollback => .ok ⟨0, convertRollBackOp clientop oneOp, optionType, optionLength⟩
  | .getXattrs | .stat | .listSnaps | .delete | .other _ =>
      .ok ⟨0, oneOp, optionType, optionLength⟩

/-! ## Which inputs are converted -/

/-- The buffer of an attribute op holds the name and whatever its op code reads after it. -/
def OSDOp.AttrWellFormed (clientop : OSDOp) : Prop :=
  clientop.op.nameLen.toNat +
    (match clientop.op.op with
      | .setXattr => clientop.op.valueLen.toNat
      | .cmpXattr =>
          match clientop.op.cmpMode with
          | .string => clientop.op.valueLen.toNat
          | .u64 => 8
          | .other _ => 0
      | _ => 0) ≤ clientop.indata.bytes.length

/-- The buffer of an omap op starts with the encoding its op code reads. -/
def OSDOp.OmapWellFormed (clientop : OSDOp) : Prop :=
  let bs := clientop.indata.bytes
  match clientop.op.op with
  | .omapGetVals => (Format.string.pair (Format.u64.pair Format.string)).Starts bs
  | .omapSetVals => strBlMap.Starts bs
  | .omapGetKeys => (Format.string.pair Format.u64).Starts bs
  | .omapRmKeys | .omapGetValsByKeys => strSet.Starts bs
  | .omapCmp => strAssertMap.Starts bs
  | _ => True

/-- The input buffer has the layout the op code calls for. The other op codes read nothing from
it, or read it through a branch that tolerates a short buffer. -/
def OSDOp.WellFormed (clientop : OSDOp) : Prop :=
  match clientop.op.op with
  | .getXattr | .rmXattr | .cmpXattr | .setXattr => clientop.AttrWellFormed
  | .omapGetVals | .omapSetVals | .omapGetKeys | .omapRmKeys | .omapClear | .omapGetValsByKeys
  | .omapCmp | .omapSetHeader | .omapGetHeader => clientop.OmapWellFormed
  | _ => True

/-- A sub-conversion succeeds exactly when its decoder accepts the op's input. -/
theorem ofDecoder_ok_iff {clientop : OSDOp} {optionType : OptionsType}
    {optionLength : OptionsLength} {d : Decoder OpRequestOps} :
    (∃ r, Converted.ofDecoder clientop optionType optionLength d = .ok r) ↔
      d.Accepts clientop.indata.bytes := by
  unfold Converted.ofDecoder Decoder.Accepts
  cases d clientop.indata.bytes <;> simp

/-- Reading a length and skipping that many bytes accepts exactly an encoded string. -/
theorem skipString_ok_iff {β : Type} {k : Nat → Decoder β} {bs rest : Bytes} {b : β} :
    (do let l ← Format.u32.decode; Decoder.advance l; k l : Decoder β) bs = .ok (b, rest) ↔
      ∃ s middle, Format.string.Valid s ∧ bs = Format.string.encode s ++ middle ∧
        k s.length middle = .ok (b, rest) := by
  simp only [Decoder.bind_ok_iff, Format.u32.decode_iff, Decoder.advance_ok_iff]
  constructor
  · intro h
    obtain ⟨_, _, ⟨hlt, rfl⟩, _, middle, ⟨s, rfl, rfl⟩, hk⟩ := h
    exact ⟨s, middle, hlt, by simp [Format.string, Format.u32, Format.le], hk⟩
  · intro h
    obtain ⟨s, middle, hs, rfl, hk⟩ := h
    exact ⟨s.length, s ++ middle, ⟨hs, by simp [Format.string, Format.u32, Format.le]⟩, (),
      middle, ⟨s, rfl, rfl⟩, hk⟩

/-- The two counter updates of one round add the encoded size of the pair. -/
theorem measured_pair (len : BitVec 32) (key value tail : Bytes) :
    len + (4 + BitVec.ofNat 32 key.length) + (4 + BitVec.ofNat 32 value.length) +
        BitVec.ofNat 32 tail.length =
      len + BitVec.ofNat 32
        ((Format.string.pair Format.string).encode (key, value) ++ tail).length := by
  simp [Format.pair, Format.string, BitVec.ofNat_add, BitVec.add_assoc]

/-- The measuring loop accepts exactly `n` encoded pairs, and adds up their encoded sizes. -/
theorem strStrMapLoop_ok_iff {n : Nat} {len len' : BitVec 32} {bs rest : Bytes} :
    strStrMapLoop n len bs = .ok (len', rest) ↔
      ∃ kvs : List (Bytes × Bytes), kvs.length = n ∧
        (∀ kv ∈ kvs, (Format.string.pair Format.string).Valid kv) ∧
        bs = kvs.flatMap (Format.string.pair Format.string).encode ++ rest ∧
        len' = len + BitVec.ofNat 32
          (kvs.flatMap (Format.string.pair Format.string).encode).length := by
  induction n generalizing len bs with
  | zero =>
      rw [strStrMapLoop, Decoder.pure_ok_iff]
      constructor
      · intro h
        obtain ⟨rfl, rfl⟩ := h
        exact ⟨[], rfl, by simp, by simp, by simp⟩
      · intro h
        obtain ⟨kvs, hlen, _, rfl, rfl⟩ := h
        simp [List.length_eq_zero_iff.mp hlen]
  | succ n ih =>
      rw [strStrMapLoop]
      simp only [skipString_ok_iff, ih]
      constructor
      · intro h
        obtain ⟨key, _, hk, rfl, value, _, hv, rfl, kvs, rfl, hvalid, rfl, rfl⟩ := h
        refine ⟨(key, value) :: kvs, rfl, ?_, by simp [Format.pair], measured_pair _ _ _ _⟩
        intro kv h
        rcases List.mem_cons.mp h with rfl | h
        · exact ⟨hk, hv⟩
        · exact hvalid kv h
      · intro h
        obtain ⟨kvs, hlen, hvalid, rfl, rfl⟩ := h
        obtain ⟨⟨key, value⟩, kvs, rfl⟩ := List.exists_cons_of_length_eq_add_one hlen
        have hkv := hvalid (key, value) (by simp)
        exact ⟨key, _, hkv.1, by simp [Format.pair], value, _, hkv.2, rfl, kvs,
          by simpa using hlen, fun kv h => hvalid kv (by simp [h]), rfl,
          (measured_pair _ _ _ _).symm⟩

/-- The measuring pass accepts exactly an encoded map, and returns its size. -/
theorem measure_ok_iff {bs rest : Bytes} {len : BitVec 32} :
    (do let n ← Format.u32.decode; strStrMapLoop n 4 : Decoder (BitVec 32)) bs = .ok (len, rest) ↔
      ∃ kvs, strBlMap.Valid kvs ∧ bs = strBlMap.encode kvs ++ rest ∧
        len = BitVec.ofNat 32 (strBlMap.encode kvs).length := by
  simp only [Decoder.bind_ok_iff, Format.u32.decode_iff, strStrMapLoop_ok_iff]
  constructor
  · intro h
    obtain ⟨_, _, ⟨hlt, rfl⟩, kvs, rfl, hvalid, rfl, rfl⟩ := h
    refine ⟨kvs, ⟨hlt, hvalid⟩, ?_, ?_⟩
    · simp [strBlMap, Format.counted, Format.u32, Format.le]
    · simp [strBlMap, Format.counted, BitVec.ofNat_add]
  · intro h
    obtain ⟨kvs, ⟨hlt, hvalid⟩, rfl, rfl⟩ := h
    refine ⟨kvs.length, _, ⟨hlt, ?_⟩, kvs, rfl, hvalid, rfl, ?_⟩
    · simp [strBlMap, Format.counted, Format.u32, Format.le]
    · simp [strBlMap, Format.counted, BitVec.ofNat_add]

/-- On a buffer shorter than 4 GiB the first pass succeeds exactly when the buffer starts with an
encoded map, and copies out exactly that encoding. -/
theorem decodeStrStrMapToBl_ok_iff {bs out rest : Bytes} (hbs : bs.length < 2 ^ 32) :
    decodeStrStrMapToBl bs = .ok (out, rest) ↔
      ∃ kvs, strBlMap.Valid kvs ∧ out = strBlMap.encode kvs ∧ bs = out ++ rest := by
  unfold decodeStrStrMapToBl
  split
  · rename_i e herr
    simp only [reduceCtorEq, false_iff]
    intro h
    obtain ⟨kvs, hvalid, rfl, rfl⟩ := h
    rw [measure_ok_iff.mpr ⟨kvs, hvalid, rfl, rfl⟩] at herr
    cases herr
  · rename_i len p hok
    obtain ⟨kvs, hvalid, rfl, rfl⟩ := measure_ok_iff.mp hok
    -- the 32-bit counter did not wrap, because the encoding is part of the buffer
    have hlen : (BitVec.ofNat 32 (strBlMap.encode kvs).length).toNat =
        (strBlMap.encode kvs).length := by
      rw [BitVec.toNat_ofNat, Nat.mod_eq_of_lt]
      simp only [List.length_append] at hbs
      omega
    rw [hlen, Decoder.copy_ok_iff.mpr ⟨rfl, rfl⟩]
    simp only [Except.ok.injEq, Prod.mk.injEq]
    constructor
    · intro h
      obtain ⟨rfl, rfl⟩ := h
      exact ⟨kvs, hvalid, rfl, rfl⟩
    · intro h
      obtain ⟨kvs', hvalid', rfl, happ⟩ := h
      obtain ⟨rfl, rfl⟩ := strBlMap.encode_unique hvalid hvalid' happ
      exact ⟨rfl, rfl⟩

/-- The second pass over the copied map never fails, so the branch raises nothing exactly when the
first pass does. -/
theorem omapSetVals_accepts_iff {bs : Bytes} (hbs : bs.length < 2 ^ 32)
    (result : List (Bytes × Bytes) → OpRequestOps) :
    (do
      let toSetBl ← decodeStrStrMapToBl
      match strBlMap.decode toSetBl with
      | .error e => fun _ => .error e
      | .ok (entries, _) => pure (result entries) : Decoder OpRequestOps).Accepts bs ↔
      strBlMap.Starts bs := by
  rw [Decoder.accepts_bind_iff]
  constructor
  · intro h
    obtain ⟨out, rest, hout, -⟩ := h
    obtain ⟨kvs, hvalid, rfl, rfl⟩ := (decodeStrStrMapToBl_ok_iff hbs).mp hout
    exact ⟨kvs, rest, hvalid, rfl⟩
  · intro h
    obtain ⟨kvs, rest, hvalid, rfl⟩ := h
    refine ⟨strBlMap.encode kvs, rest,
      (decodeStrStrMapToBl_ok_iff hbs).mpr ⟨kvs, hvalid, rfl, rfl⟩, ?_⟩
    have hdec : strBlMap.decode (strBlMap.encode kvs) = .ok (kvs, []) :=
      (strBlMap.decode_iff _ _ _).mpr ⟨hvalid, by simp⟩
    rw [hdec]
    exact Decoder.accepts_pure _ _

/-- The omap branch raises nothing exactly on well-formed input. -/
theorem convertOmapOp_accepts_iff (clientop : OSDOp) (oneOp : OpRequestOps) :
    (convertOmapOp clientop oneOp).Accepts clientop.indata.bytes ↔ clientop.OmapWellFormed := by
  unfold convertOmapOp OSDOp.OmapWellFormed
  cases clientop.op.op
  case omapGetVals =>
    simp only [Format.accepts_bind_iff, Format.starts_pair_iff, Decoder.accepts_pure, and_true]
    rfl
  case omapSetVals => exact omapSetVals_accepts_iff clientop.indata.length_lt _
  case omapGetKeys =>
    simp only [Format.accepts_bind_iff, Format.starts_pair_iff, Decoder.accepts_pure, and_true]
    rfl
  case omapRmKeys =>
    simp only [Format.accepts_bind_iff, Decoder.accepts_pure, and_true]
    rfl
  case omapGetValsByKeys =>
    simp only [Format.accepts_bind_iff, Decoder.accepts_pure, and_true]
    rfl
  case omapCmp =>
    simp only [Format.accepts_bind_iff, Decoder.accepts_pure, and_true]
    rfl
  all_goals exact iff_of_true (Decoder.accepts_pure _ _) trivial

/-- The attribute branch raises nothing exactly on well-formed input. -/
theorem convertAttrOp_accepts_iff (clientop : OSDOp) (oneOp : OpRequestOps) :
    (convertAttrOp clientop oneOp).Accepts clientop.indata.bytes ↔ clientop.AttrWellFormed := by
  unfold convertAttrOp OSDOp.AttrWellFormed
  rw [Decoder.accepts_copy_bind_iff]
  cases clientop.op.op
  case setXattr =>
    simp only [Decoder.accepts_copy_bind_iff, Decoder.accepts_pure, and_true, List.length_drop]
    omega
  case cmpXattr =>
    cases clientop.op.cmpMode
    case string =>
      simp only [Decoder.accepts_copy_bind_iff, Decoder.accepts_pure, and_true, List.length_drop]
      omega
    case u64 =>
      have hu64 : ∀ bs : Bytes, (∃ a rest, Format.u64.Valid a ∧ bs = Format.u64.encode a ++ rest) ↔
          8 ≤ bs.length := Format.starts_le_iff 8
      simp only [Format.accepts_bind_iff, Decoder.accepts_pure, and_true, hu64, List.length_drop]
      omega
    case other => simp only [Decoder.accepts_pure, and_true, Nat.add_zero]
  all_goals simp only [Decoder.accepts_pure, and_true, Nat.add_zero]

/-- The conversion of an op raises no buffer error exactly when the op is well formed. -/
theorem convert_ok_iff (clientop : OSDOp) (oneOp : OpRequestOps) (optionType : OptionsType)
    (optionLength : OptionsLength) :
    (∃ r, convertClientopToOpreq clientop oneOp optionType optionLength = .ok r) ↔
      clientop.WellFormed := by
  unfold convertClientopToOpreq OSDOp.WellFormed
  cases clientop.op.op
  case getXattr => exact ofDecoder_ok_iff.trans (convertAttrOp_accepts_iff _ _)
  case rmXattr => exact ofDecoder_ok_iff.trans (convertAttrOp_accepts_iff _ _)
  case cmpXattr => exact ofDecoder_ok_iff.trans (convertAttrOp_accepts_iff _ _)
  case setXattr => exact ofDecoder_ok_iff.trans (convertAttrOp_accepts_iff _ _)
  case call =>
    simp only [iff_true]
    split_ifs <;> exact ⟨_, rfl⟩
  case omapGetVals => exact ofDecoder_ok_iff.trans (convertOmapOp_accepts_iff _ _)
  all_goals first
    | exact ofDecoder_ok_iff.trans (convertOmapOp_accepts_iff _ _)
    | exact iff_of_true ⟨_, rfl⟩ trivial

/-! ## What the conversion leaves alone -/

/-- The two ops are on the same object. -/
def OpRequestOps.SameObject (a b : OpRequestOps) : Prop :=
  a.objName = b.objName ∧ a.isRbd = b.isRbd ∧ a.rbdObjId = b.rbdObjId

/-- The attribute branch stays on its object. -/
theorem convertAttrOp_sameObject {clientop : OSDOp} {oneOp result : OpRequestOps}
    {bs rest : Bytes} (h : convertAttrOp clientop oneOp bs = .ok (result, rest)) :
    result.SameObject oneOp := by
  unfold convertAttrOp at h
  obtain ⟨name, middle, -, h⟩ := Decoder.bind_ok_iff.mp h
  cases hop : clientop.op.op
  case setXattr =>
    rw [hop] at h
    obtain ⟨val, _, -, h⟩ := Decoder.bind_ok_iff.mp h
    obtain ⟨rfl, -⟩ := Decoder.pure_ok_iff.mp h
    exact ⟨rfl, rfl, rfl⟩
  case cmpXattr =>
    rw [hop] at h
    cases hmode : clientop.op.cmpMode <;> simp only [hmode] at h
    case other =>
      obtain ⟨rfl, -⟩ := Decoder.pure_ok_iff.mp h
      exact ⟨rfl, rfl, rfl⟩
    all_goals
      obtain ⟨val, _, -, h⟩ := Decoder.bind_ok_iff.mp h
      obtain ⟨rfl, -⟩ := Decoder.pure_ok_iff.mp h
      exact ⟨rfl, rfl, rfl⟩
  all_goals
    rw [hop] at h
    obtain ⟨rfl, -⟩ := Decoder.pure_ok_iff.mp h
    exact ⟨rfl, rfl, rfl⟩

/-- The omap branch stays on its object. -/
theorem convertOmapOp_sameObject {clientop : OSDOp} {oneOp result : OpRequestOps}
    {bs rest : Bytes} (h : convertOmapOp clientop oneOp bs = .ok (result, rest)) :
    result.SameObject oneOp := by
  unfold convertOmapOp at h
  cases hop : clientop.op.op
  case omapGetVals =>
    rw [hop] at h
    obtain ⟨_, _, -, h⟩ := Decoder.bind_ok_iff.mp h
    obtain ⟨_, _, -, h⟩ := Decoder.bind_ok_iff.mp h
    obtain ⟨_, _, -, h⟩ := Decoder.bind_ok_iff.mp h
    obtain ⟨rfl, -⟩ := Decoder.pure_ok_iff.mp h
    exact ⟨rfl, rfl, rfl⟩
  case omapGetKeys =>
    rw [hop] at h
    obtain ⟨_, _, -, h⟩ := Decoder.bind_ok_iff.mp h
    obtain ⟨_, _, -, h⟩ := Decoder.bind_ok_iff.mp h
    obtain ⟨rfl, -⟩ := Decoder.pure_ok_iff.mp h
    exact ⟨rfl, rfl, rfl⟩
  case omapSetVals =>
    rw [hop] at h
    obtain ⟨toSetBl, _, -, h⟩ := Decoder.bind_ok_iff.mp h
    cases hdec : strBlMap.decode toSetBl with
    | error e => rw [hdec] at h; cases h
    | ok decoded =>
        rw [hdec] at h
        obtain ⟨rfl, -⟩ := Decoder.pure_ok_iff.mp h
        exact ⟨rfl, rfl, rfl⟩
  case omapRmKeys | omapGetValsByKeys | omapCmp =>
    rw [hop] at h
    obtain ⟨_, _, -, h⟩ := Decoder.bind_ok_iff.mp h
    obtain ⟨rfl, -⟩ := Decoder.pure_ok_iff.mp h
    exact ⟨rfl, rfl, rfl⟩
  all_goals
    rw [hop] at h
    obtain ⟨rfl, -⟩ := Decoder.pure_ok_iff.mp h
    exact ⟨rfl, rfl, rfl⟩

/-- A sub-conversion that succeeds returns what its decoder read. -/
theorem ofDecoder_ok {clientop : OSDOp} {optionType : OptionsType} {optionLength : OptionsLength}
    {d : Decoder OpRequestOps} {r : Converted}
    (h : Converted.ofDecoder clientop optionType optionLength d = .ok r) :
    ∃ rest, d clientop.indata.bytes = .ok (r.oneOp, rest) := by
  unfold Converted.ofDecoder at h
  cases hd : d clientop.indata.bytes with
  | error e => rw [hd] at h; cases h
  | ok result =>
      rw [hd] at h
      cases h
      exact ⟨result.2, rfl⟩

/-- The conversion of an op stays on its object. -/
theorem convert_sameObject {clientop : OSDOp} {oneOp : OpRequestOps} {optionType : OptionsType}
    {optionLength : OptionsLength} {r : Converted}
    (h : convertClientopToOpreq clientop oneOp optionType optionLength = .ok r) :
    r.oneOp.SameObject oneOp := by
  have hattr : ∀ op, Converted.ofDecoder clientop optionType optionLength
      (convertAttrOp clientop { oneOp with opSubType := op }) = .ok r →
      r.oneOp.SameObject oneOp := by
    intro op h
    obtain ⟨rest, hd⟩ := ofDecoder_ok h
    have hsame := convertAttrOp_sameObject hd
    exact hsame
  have homap : ∀ op, Converted.ofDecoder clientop optionType optionLength
      (convertOmapOp clientop { oneOp with opSubType := op }) = .ok r →
      r.oneOp.SameObject oneOp := by
    intro op h
    obtain ⟨rest, hd⟩ := ofDecoder_ok h
    have hsame := convertOmapOp_sameObject hd
    exact hsame
  unfold convertClientopToOpreq at h
  cases hop : clientop.op.op <;> simp only [hop] at h
  case call =>
    split_ifs at h <;> cases h <;> exact ⟨rfl, rfl, rfl⟩
  case getXattr => exact hattr _ h
  case rmXattr => exact hattr _ h
  case cmpXattr => exact hattr _ h
  case setXattr => exact hattr _ h
  all_goals first
    | exact homap _ h
    | cases h; simp only [OpRequestOps.SameObject, convertObjRw, convertRollBackOp, hop, and_self]

/-! ## Extents and payloads -/

/-- The bytes that `inData` and `inDataLen` denote; `none` if the length reaches behind the
buffer. -/
def OpRequestOps.inBytes (o : OpRequestOps) : Option Bytes :=
  match o.inData with
  | none => if o.inDataLen = 0 then some [] else none
  | some data =>
      if o.inDataLen.toNat ≤ data.length then some (data.take o.inDataLen.toNat) else none

/-- The request op has the extent of the client op. -/
def SameExtent (clientop : OSDOp) (o : OpRequestOps) : Prop :=
  o.objOffset.toNat = clientop.op.extentOffset.toNat ∧
    o.objLength.toNat = clientop.op.extentLength.toNat

/-- The request op has the extent and the payload of the client op. -/
def Preserved (clientop : OSDOp) (o : OpRequestOps) : Prop :=
  match clientop.op.op with
  | .read | .sparseRead | .syncRead =>
      SameExtent clientop o ∧ o.outDataLen.toNat = clientop.op.extentLength.toNat
  | .write | .writeFull => SameExtent clientop o ∧ o.inBytes = some clientop.indata.bytes
  | .omapSetHeader => o.inBytes = some clientop.indata.bytes
  | _ => True

/-- The extent of a read or write fits the 32-bit fields, and the extent of a new omap header has
the length of its buffer, modulo `2 ^ 32`. -/
def Representable (clientop : OSDOp) : Prop :=
  match clientop.op.op with
  | .read | .sparseRead | .syncRead | .write | .writeFull =>
      clientop.op.extentOffset.toNat < 2 ^ 32 ∧ clientop.op.extentLength.toNat < 2 ^ 32
  | .omapSetHeader => clientop.op.extentLength.toNat % 2 ^ 32 = clientop.indata.bytes.length
  | _ => True

/-- Cutting a 64-bit value to 32 bits keeps it exactly if it fits. -/
theorem toNat_setWidth_eq_iff (x : BitVec 64) :
    (x.setWidth 32).toNat = x.toNat ↔ x.toNat < 2 ^ 32 := by
  rw [BitVec.toNat_setWidth]
  omega

/-- A pointer to a buffer denotes the whole buffer exactly if the length is that of the buffer. -/
theorem inBytes_eq_iff {o : OpRequestOps} {data : Bytes} (h : o.inData = some data) :
    o.inBytes = some data ↔ o.inDataLen.toNat = data.length := by
  rw [OpRequestOps.inBytes, h]
  show (if o.inDataLen.toNat ≤ data.length then _ else none) = some data ↔ _
  constructor
  · intro heq
    split_ifs at heq with hle
    have hlen := congrArg List.length (Option.some.inj heq)
    rw [List.length_take] at hlen
    omega
  · intro hlen
    rw [if_pos (Nat.le_of_eq hlen), hlen, List.take_length]

/-- The payload of a write is the whole buffer. -/
theorem inBytes_write {o : OpRequestOps} {data : BufferList} (h : o.inData = some data.bytes)
    (hlen : o.inDataLen = BitVec.ofNat 32 data.bytes.length) : o.inBytes = some data.bytes := by
  rw [inBytes_eq_iff h, hlen, BitVec.toNat_ofNat]
  exact Nat.mod_eq_of_lt data.length_lt

/-- The conversion preserves extent and payload exactly if they are representable: an offset or a
length from `2 ^ 32` on is cut to another extent, and an omap header is given the length of its
extent instead of that of its buffer. -/
theorem convert_preserved_iff (clientop : OSDOp) (oneOp : OpRequestOps) (optionType : OptionsType)
    (optionLength : OptionsLength) :
    (∀ r, convertClientopToOpreq clientop oneOp optionType optionLength = .ok r →
      Preserved clientop r.oneOp) ↔ Representable clientop := by
  cases hop : clientop.op.op
  case read | sparseRead | syncRead =>
    obtain ⟨r, hr, hoffset, hlength, hout⟩ : ∃ r,
        convertClientopToOpreq clientop oneOp optionType optionLength = .ok r ∧
          r.oneOp.objOffset = clientop.op.extentOffset.setWidth 32 ∧
          r.oneOp.objLength = clientop.op.extentLength.setWidth 32 ∧
          r.oneOp.outDataLen = clientop.op.extentLength.setWidth 32 := by
      simp only [convertClientopToOpreq, convertObjRw, hop]
      exact ⟨_, rfl, rfl, rfl, rfl⟩
    simp only [hr, Except.ok.injEq, forall_eq', Preserved, Representable, SameExtent, hop, hoffset,
      hlength, hout, toNat_setWidth_eq_iff]
    exact ⟨fun h => h.1, fun h => ⟨h, h.2⟩⟩
  case write | writeFull =>
    obtain ⟨r, hr, hoffset, hlength, hin⟩ : ∃ r,
        convertClientopToOpreq clientop oneOp optionType optionLength = .ok r ∧
          r.oneOp.objOffset = clientop.op.extentOffset.setWidth 32 ∧
          r.oneOp.objLength = clientop.op.extentLength.setWidth 32 ∧
          r.oneOp.inBytes = some clientop.indata.bytes := by
      simp only [convertClientopToOpreq, convertObjRw, hop]
      exact ⟨_, rfl, rfl, rfl, inBytes_write rfl rfl⟩
    simp only [hr, Except.ok.injEq, forall_eq', Preserved, Representable, SameExtent, hop, hoffset,
      hlength, hin, toNat_setWidth_eq_iff, and_true]
  case omapSetHeader =>
    obtain ⟨r, hr, hdata, hlen⟩ : ∃ r,
        convertClientopToOpreq clientop oneOp optionType optionLength = .ok r ∧
          r.oneOp.inData = some clientop.indata.bytes ∧
          r.oneOp.inDataLen = clientop.op.extentLength.setWidth 32 := by
      simp only [convertClientopToOpreq, convertOmapOp, Converted.ofDecoder, hop]
      exact ⟨_, rfl, rfl, rfl⟩
    simp only [hr, Except.ok.injEq, forall_eq', Preserved, Representable, hop,
      inBytes_eq_iff hdata, hlen, BitVec.toNat_setWidth]
  all_goals
    refine iff_of_true ?_ ?_
    · intro r _
      simp only [Preserved, hop]
    · simp only [Representable, hop]

/-- A write of eight bytes at an offset of 4 GiB. -/
def farWrite : OSDOp where
  op := { op := .write, extentOffset := 0x100000000, extentLength := 8 }
  indata := { bytes := ascii "datadata" }

/-- The far write is converted to a write at the start of the object. -/
theorem not_preserved_farWrite :
    ¬ ∀ r, convertClientopToOpreq farWrite { opSubType := .other 0 } {} {} = .ok r →
      Preserved farWrite r.oneOp := by
  intro h
  have hextent := (h _ rfl).1.1
  exact absurd hextent (by decide)

end GlobalCacheAdaptor.ServerAdaptor
