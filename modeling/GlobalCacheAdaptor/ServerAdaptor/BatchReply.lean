import GlobalCacheAdaptor.ServerAdaptor.OmapReply

/-!
# Replies of keys, values by key, attributes and times

`EncodeOmapGetkeys` writes the keys one after another, and the class API decodes a set.
`EncodeOmapGetvalsbykeys` and `EncodeXattrGetXattrs` collect their pairs in a map and write the map.
`EncodeGetOpstat` writes a time as one field of eight bytes, and the class API reads seconds and
nanoseconds of four bytes each. `replies_round_trip` says that each reply comes back.
-/

namespace GlobalCacheAdaptor.ServerAdaptor

open Lib

/-! ## The encoders -/

/-- `SaBatchKeys`: the keys, as many as `nums` says. -/
structure SaBatchKeys where
  keys : List SaStr
  length_lt : keys.length < 2 ^ 32

/-- The keys as strings. -/
def SaBatchKeys.texts (batchKeys : SaBatchKeys) : List Bytes := batchKeys.keys.map SaStr.text

/-- `EncodeOmapGetkeys`: what it leaves in the output of the op. -/
def encodeOmapGetkeys (batchKeys : SaBatchKeys) (outdata : Bytes) : Bytes :=
  let bl := batchKeys.keys.flatMap fun key => Format.string.encode key.text
  outdata ++ Format.u32.encode batchKeys.keys.length ++ bl ++ (Format.le 1).encode 0

/-- The map that both encoders of pairs build with `out.insert(make_pair(keys, value))`. -/
def SaBatchKv.out (keyValue : SaBatchKv) : OrdMap Bytes Bytes :=
  keyValue.texts.foldl (fun out kv => out.insertNew kv.1 kv.2) .empty

/-- `EncodeOmapGetvalsbykeys`. -/
def encodeOmapGetvalsbykeys (keyValue : SaBatchKv) (outdata : Bytes) : Bytes :=
  outdata ++ strBlMap.encode keyValue.out.entries

/-- `EncodeXattrGetXattrs`. -/
def encodeXattrGetXattrs (keyValue : SaBatchKv) (outdata : Bytes) : Bytes :=
  let bl := strBlMap.encode keyValue.out.entries
  outdata ++ bl

/-- `EncodeGetOpstat`: a `time_t` has 64 bits. -/
def encodeGetOpstat (psize ptime : BitVec 64) (outdata : Bytes) : Bytes :=
  outdata ++ Format.u64.encode psize.toNat ++ Format.u64.encode ptime.toNat

/-! ## Coming back -/

/-- The back end answers a sub-request with this output. -/
def Answers (ctx : OnMessage.MsgContext) (encode : Bytes → Bytes) : Prop :=
  ∀ opreq, 0 ≤ (ctx.cbFunc opreq [OnMessage.newOp]).1 ∧
    (ctx.cbFunc opreq [OnMessage.newOp]).2.2 = encode OnMessage.newOp.outdata

/-- The decoding of a key listing. -/
def decodeKeys : Decoder (List Bytes × Bool) := do
  let keys ← (do let keys ← strSet.decode; pure (toSet keys))
  let more ← (Format.le 1).decode
  pure (keys, decide (more ≠ 0))

/-- The encoded keys decode to their set with `more` false and nothing left, and the class API
returns this set. -/
structure KeysRoundTrip (batchKeys : SaBatchKeys) : Prop where
  same : ∀ key, key ∈ toSet batchKeys.texts ↔ key ∈ batchKeys.texts
  decodes : decodeKeys (encodeOmapGetkeys batchKeys []) = .ok ((toSet batchKeys.texts, false), [])
  mapGetKeys : ∀ (ctx : OnMessage.MsgContext) (ops : List OSDOp) (startObj : Bytes)
    (maxToGet : BitVec 64), Answers ctx (encodeOmapGetkeys batchKeys) →
      (OnMessage.clsCxxMapGetKeys ctx startObj maxToGet ops).out =
        some (toSet batchKeys.texts, false)

/-- Both encodings of the pairs decode to their map with nothing left, and the class API returns
this map, or the value of its only pair. -/
structure PairsRoundTrip (keyValue : SaBatchKv) : Prop where
  decodesVals : ∃ entries, toMap entries = toMap keyValue.texts ∧
    strBlMap.decode (encodeOmapGetvalsbykeys keyValue []) = .ok (entries, [])
  decodesXattrs : ∃ entries, toMap entries = toMap keyValue.texts ∧
    strBlMap.decode (encodeXattrGetXattrs keyValue []) = .ok (entries, [])
  getxattrs : ∀ (ctx : OnMessage.MsgContext) (ops : List OSDOp),
    Answers ctx (encodeXattrGetXattrs keyValue) →
      (OnMessage.clsCxxGetxattrs ctx ops).out = some (toMap keyValue.texts)
  mapGetVal : ∀ (ctx : OnMessage.MsgContext) (ops : List OSDOp) (key : Bytes),
    Answers ctx (encodeOmapGetvalsbykeys keyValue) →
      (∀ found value, keyValue.texts = [(found, value)] →
        (OnMessage.clsCxxMapGetVal ctx key ops).ret = 0 ∧
          (OnMessage.clsCxxMapGetVal ctx key ops).out = some value) ∧
      (keyValue.texts = [] →
        (OnMessage.clsCxxMapGetVal ctx key ops).ret = enoent ∧
          (OnMessage.clsCxxMapGetVal ctx key ops).out = none)

/-- The encoded size and time decode to the size, the seconds and no nanoseconds with nothing left,
and both functions of the class API return them. -/
structure StatRoundTrip (psize ptime : BitVec 64) : Prop where
  decodes : (Format.u64.pair (Format.u32.pair Format.u32)).decode (encodeGetOpstat psize ptime []) =
    .ok ((psize.toNat, ptime.toNat, 0), [])
  stat : ∀ (ctx : OnMessage.MsgContext) (ops : List OSDOp),
    Answers ctx (encodeGetOpstat psize ptime) →
      (OnMessage.clsCxxStat ctx ops).out = some (psize.toNat, ptime.toNat)
  stat2 : ∀ (ctx : OnMessage.MsgContext) (ops : List OSDOp),
    Answers ctx (encodeGetOpstat psize ptime) →
      (OnMessage.clsCxxStat2 ctx ops).out = some (psize.toNat, ptime.toNat, 0)

/-- A sub-request that the back end answers is finished with this output. -/
theorem fetch_answered {β : Type} {ctx : OnMessage.MsgContext} {encode : Bytes → Bytes}
    (h : Answers ctx encode) {call : OnMessage.MsgCall β} {op : OpRequestOps}
    {finish : Int → Bytes → Int × Option β} {ops : List OSDOp}
    (hcall : call = ctx.fetch op finish ops) :
    ∃ r, call.ret = (finish r (encode [])).1 ∧ call.out = (finish r (encode [])).2 := by
  obtain ⟨hret, hout⟩ := h (ctx.request op)
  rw [hcall]
  exact fetch_of_answer hret hout finish ops

/-! ## Keys -/

/-- The keys are written as a set. -/
theorem encodeOmapGetkeys_eq (batchKeys : SaBatchKeys) :
    encodeOmapGetkeys batchKeys [] =
      strSet.encode batchKeys.texts ++ (Format.le 1).encode 0 := by
  rw [encodeOmapGetkeys, List.nil_append, SaBatchKeys.texts]
  show _ = (leBytes 4 (batchKeys.keys.map SaStr.text).length ++
    (batchKeys.keys.map SaStr.text).flatMap Format.string.encode) ++ _
  rw [List.length_map, List.flatMap_map]
  rfl

/-- The keys of a batch can be encoded as a set. -/
theorem keys_valid (batchKeys : SaBatchKeys) : strSet.Valid batchKeys.texts := by
  refine ⟨?_, ?_⟩
  · rw [SaBatchKeys.texts, List.length_map]
    exact batchKeys.length_lt
  · intro text htext
    obtain ⟨key, -, rfl⟩ := List.mem_map.mp htext
    exact key.length_lt

/-- The set of distinct keys has these keys and no others. -/
theorem mem_toSet {keys : List Bytes} (h : keys.Nodup) (key : Bytes) :
    key ∈ toSet keys ↔ key ∈ keys := by
  have hkeys : ((keys.map fun k => (k, ())).map Prod.fst).Nodup := by
    rw [List.map_map]
    exact (List.map_id keys).symm ▸ h
  have hentry : ∀ entry : Bytes × Unit, entry ∈ (toMap (keys.map fun k => (k, ()))).entries ↔
      entry ∈ keys.map fun k => (k, ()) := by
    intro entry
    rw [OrdMap.mem_entries_iff, find?_toMap hkeys]
  simp only [toSet, List.mem_map, hentry]
  simp

/-- Every reply of distinct keys comes back. -/
theorem keysRoundTrip {batchKeys : SaBatchKeys} (h : batchKeys.texts.Nodup) :
    KeysRoundTrip batchKeys := by
  have hdecode : decodeKeys (encodeOmapGetkeys batchKeys []) =
      .ok ((toSet batchKeys.texts, false), []) := by
    simp only [decodeKeys, Decoder.bind_ok_iff, Format.decode_iff, Decoder.pure_ok_iff]
    refine ⟨_, _, ⟨batchKeys.texts, _, ⟨keys_valid batchKeys, encodeOmapGetkeys_eq batchKeys⟩,
      rfl, rfl⟩, 0, [], ⟨Nat.zero_lt_succ _, (List.append_nil _).symm⟩, rfl, rfl⟩
  refine ⟨mem_toSet h, hdecode, ?_⟩
  intro ctx ops startObj maxToGet hback
  have hcall : OnMessage.clsCxxMapGetKeys ctx startObj maxToGet ops = ctx.fetch _ _ ops := rfl
  obtain ⟨r, -, hout⟩ := fetch_answered hback hcall
  rw [hout]
  unfold decodeKeys at hdecode
  simp only [finishListing, hdecode]

/-! ## Pairs -/

/-- The map of the encoder is the one that its pairs decode to. -/
theorem out_eq (keyValue : SaBatchKv) : keyValue.out = toMap keyValue.texts := rfl

/-- The entries of the map of a batch are its pairs. -/
theorem mem_out_iff {keyValue : SaBatchKv} (h : (keyValue.texts.map Prod.fst).Nodup)
    (kv : Bytes × Bytes) : kv ∈ keyValue.out.entries ↔ kv ∈ keyValue.texts := by
  rw [out_eq, OrdMap.mem_entries_iff, find?_toMap h]

/-- The map of a batch can be encoded. -/
theorem out_valid {keyValue : SaBatchKv} (h : (keyValue.texts.map Prod.fst).Nodup) :
    strBlMap.Valid keyValue.out.entries := by
  have hperm : keyValue.out.entries.Perm keyValue.texts :=
    (List.perm_ext_iff_of_nodup keyValue.out.nodup_entries h.of_map).mpr (mem_out_iff h)
  obtain ⟨hlength, htexts⟩ := texts_valid keyValue
  refine ⟨?_, ?_⟩
  · rw [hperm.length_eq]
    exact hlength
  · intro kv hkv
    exact htexts kv ((mem_out_iff h kv).mp hkv)

/-- Every reply of pairs with distinct keys comes back. -/
theorem pairsRoundTrip {keyValue : SaBatchKv} (h : (keyValue.texts.map Prod.fst).Nodup) :
    PairsRoundTrip keyValue := by
  have hmap : toMap keyValue.out.entries = toMap keyValue.texts := by
    rw [toMap_entries, out_eq]
  have hdecode : strBlMap.decode (strBlMap.encode keyValue.out.entries) =
      .ok (keyValue.out.entries, []) :=
    (strBlMap.decode_iff _ _ _).mpr ⟨out_valid h, (List.append_nil _).symm⟩
  refine ⟨⟨_, hmap, hdecode⟩, ⟨_, hmap, hdecode⟩, ?_, ?_⟩
  · intro ctx ops hback
    have hcall : OnMessage.clsCxxGetxattrs ctx ops = ctx.fetch _ _ ops := rfl
    obtain ⟨r, -, hout⟩ := fetch_answered hback hcall
    rw [encodeXattrGetXattrs, List.nil_append, hdecode] at hout
    exact hout.trans (congrArg some hmap)
  · intro ctx ops key hback
    have hcall : OnMessage.clsCxxMapGetVal ctx key ops = ctx.fetch _ _ ops := rfl
    obtain ⟨r, hret, hout⟩ := fetch_answered hback hcall
    rw [encodeOmapGetvalsbykeys, List.nil_append, hdecode] at hret hout
    simp only [hmap] at hret hout
    refine ⟨?_, ?_⟩
    · intro found value hone
      rw [hone] at hret hout
      exact ⟨hret, hout⟩
    · intro hempty
      rw [hempty] at hret hout
      exact ⟨hret, hout⟩

/-! ## Times -/

/-- The eight bytes of a small number are its four bytes and four zero bytes. -/
theorem leBytes_eight {n : Nat} (h : n < 2 ^ 32) : leBytes 8 n = leBytes 4 n ++ leBytes 4 0 := by
  have hzero : n / 256 / 256 / 256 / 256 = 0 := by omega
  simp only [leBytes, hzero, List.cons_append, List.nil_append]

/-- Every reply of a size and a time below 2^32 comes back. -/
theorem statRoundTrip (psize : BitVec 64) {ptime : BitVec 64} (h : ptime.toNat < 2 ^ 32) :
    StatRoundTrip psize ptime := by
  have hdecode : (Format.u64.pair (Format.u32.pair Format.u32)).decode
      (encodeGetOpstat psize ptime []) = .ok ((psize.toNat, ptime.toNat, 0), []) := by
    refine (Format.decode_iff _ _ _ _).mpr ⟨⟨psize.isLt, h, Nat.zero_lt_succ _⟩, ?_⟩
    have htime : Format.u64.encode ptime.toNat =
        Format.u32.encode ptime.toNat ++ Format.u32.encode 0 := leBytes_eight h
    rw [encodeGetOpstat, htime, List.nil_append, List.append_nil]
    rfl
  refine ⟨hdecode, ?_, ?_⟩
  · intro ctx ops hback
    have hcall : OnMessage.clsCxxStat ctx ops = ctx.fetch _ _ ops := rfl
    obtain ⟨r, -, hout⟩ := fetch_answered hback hcall
    rw [hout]
    simp only [OnMessage.finishStat, hdecode, Option.map_some]
  · intro ctx ops hback
    have hcall : OnMessage.clsCxxStat2 ctx ops = ctx.fetch _ _ ops := rfl
    obtain ⟨r, -, hout⟩ := fetch_answered hback hcall
    rw [hout]
    simp only [OnMessage.finishStat, hdecode]

/-- The replies of keys, of pairs under distinct keys, and of a size and a time come back. -/
theorem replies_round_trip :
    (∀ batchKeys : SaBatchKeys, batchKeys.texts.Nodup → KeysRoundTrip batchKeys) ∧
    (∀ keyValue : SaBatchKv, (keyValue.texts.map Prod.fst).Nodup → PairsRoundTrip keyValue) ∧
    (∀ psize ptime : BitVec 64, ptime.toNat < 2 ^ 32 → StatRoundTrip psize ptime) :=
  ⟨fun _ h => keysRoundTrip h, fun _ h => pairsRoundTrip h, fun psize _ h => statRoundTrip psize h⟩

/-- Two keys and an empty one, not in order. -/
def threeKeys : SaBatchKeys where
  keys := [saStr (ascii "parent") (by decide), saStr [] length_nil_lt,
    saStr (ascii "children") (by decide)]
  length_lt := by decide

/-- Keys and pairs out of order, a pair with an empty value, and a size with a time come back. -/
theorem replies_round_trip_unordered :
    toSet threeKeys.texts = [[], ascii "children", ascii "parent"] ∧ KeysRoundTrip threeKeys ∧
      PairsRoundTrip twoPairs ∧ PairsRoundTrip emptyValue ∧ StatRoundTrip 4096 1700000000 :=
  ⟨by decide, replies_round_trip.1 threeKeys (by decide),
    replies_round_trip.2.1 twoPairs (by decide), replies_round_trip.2.1 emptyValue (by decide),
    replies_round_trip.2.2 4096 1700000000 (by decide)⟩

end GlobalCacheAdaptor.ServerAdaptor
