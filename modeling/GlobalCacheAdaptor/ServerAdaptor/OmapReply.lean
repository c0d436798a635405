import GlobalCacheAdaptor.ServerAdaptor.ClassIsolation

/-!
# The reply to an omap listing

The back end answers an `OMAPGETVALS` with `EncodeOmapGetvals`, and the class API decodes what it
wrote. The encoder counts every pair but leaves out each key and each value that is empty.
`roundTrips_iff` says when the decoded map is the encoded one.
-/

namespace GlobalCacheAdaptor.ServerAdaptor

open Lib

/-! ## `EncodeOmapGetvals` -/

/-- `SaStr`: the bytes at `buf`, as many as `len` says; a null pointer is `none`. -/
structure SaStr where
  buf : Option Bytes
  length_lt : (buf.getD []).length < 2 ^ 32

/-- The bytes of the string. -/
def SaStr.text (s : SaStr) : Bytes := s.buf.getD []

/-- `SaBatchKv`: the pairs, as many as `kvNum` says. -/
structure SaBatchKv where
  kvs : List (SaStr × SaStr)
  length_lt : kvs.length < 2 ^ 32

/-- The keys and values of the pairs. -/
def SaBatchKv.texts (KVs : SaBatchKv) : List (Bytes × Bytes) :=
  KVs.kvs.map fun kv => (kv.1.text, kv.2.text)

/-- Encode a string if `buf` and `len` are not zero. -/
def encodeSaStr (s : SaStr) : Bytes :=
  if s.buf.isSome ∧ s.text.length ≠ 0 then Format.string.encode s.text else []

/-- `EncodeOmapGetvals`: what it leaves in the output of the op. -/
def encodeOmapGetvals (KVs : SaBatchKv) (outdata : Bytes) : Bytes :=
  let bl := KVs.kvs.flatMap fun kv => encodeSaStr kv.1 ++ encodeSaStr kv.2
  -- every pair is counted, also one that left nothing in `bl`
  outdata ++ Format.u32.encode KVs.kvs.length ++ bl ++ (Format.le 1).encode 0

/-! ## The round trip -/

/-- The decoding of a value listing. -/
def decodeVals : Decoder (OrdMap Bytes Bytes × Bool) := do
  let vals ← (do let entries ← strBlMap.decode; pure (toMap entries))
  let more ← (Format.le 1).decode
  pure (vals, decide (more ≠ 0))

/-- The encoded pairs decode to their map with `more` false and nothing left, and both listings of
the class API return this map if the back end succeeds with this output. -/
def RoundTrips (KVs : SaBatchKv) : Prop :=
  decodeVals (encodeOmapGetvals KVs []) = .ok ((toMap KVs.texts, false), []) ∧
    ∀ (ctx : OnMessage.MsgContext) (ops : List OSDOp),
      (∀ opreq, 0 ≤ (ctx.cbFunc opreq [OnMessage.newOp]).1 ∧
        (ctx.cbFunc opreq [OnMessage.newOp]).2.2 =
          encodeOmapGetvals KVs OnMessage.newOp.outdata) →
      (∀ startObj filterPrefix maxToGet,
        (OnMessage.clsCxxMapGetVals ctx startObj filterPrefix maxToGet ops).out =
          some (toMap KVs.texts, false)) ∧
      (OnMessage.clsCxxMapGetAllVals ctx ops).out = some (toMap KVs.texts, false)

/-- The bytes of an encoded pair. -/
def pairSize (kv : Bytes × Bytes) : Nat := ((Format.string.pair Format.string).encode kv).length

/-- Only empty strings are left out. -/
theorem encodeSaStr_eq (s : SaStr) :
    encodeSaStr s = if s.text = [] then [] else Format.string.encode s.text := by
  unfold encodeSaStr SaStr.text
  cases s.buf with
  | none => rfl
  | some text =>
      by_cases htext : text = []
      · simp [htext]
      · simp [htext]

/-- An encoded string is left out, or complete. -/
theorem length_encodeSaStr (s : SaStr) :
    (encodeSaStr s).length + (if s.text = [] then 4 else 0) =
      (Format.string.encode s.text).length := by
  rw [encodeSaStr_eq]
  by_cases htext : s.text = []
  · rw [if_pos htext, if_pos htext, htext]
    rfl
  · rw [if_neg htext, if_neg htext]
    rfl

/-- The bytes that the encoder leaves out of a pair. -/
def lost (kv : SaStr × SaStr) : Nat :=
  (if kv.1.text = [] then 4 else 0) + (if kv.2.text = [] then 4 else 0)

/-- What is written and what is left out make up the encoded pairs. -/
theorem length_written_add_lost (kvs : List (SaStr × SaStr)) :
    (kvs.flatMap fun kv => encodeSaStr kv.1 ++ encodeSaStr kv.2).length + total lost kvs =
      total pairSize (kvs.map fun kv => (kv.1.text, kv.2.text)) := by
  induction kvs with
  | nil => rfl
  | cons kv rest ih =>
      have hkey := length_encodeSaStr kv.1
      have hval := length_encodeSaStr kv.2
      have hpair : pairSize (kv.1.text, kv.2.text) =
          (Format.string.encode kv.1.text).length + (Format.string.encode kv.2.text).length :=
        List.length_append
      rw [List.flatMap_cons, List.length_append, List.length_append, total_cons, List.map_cons,
        total_cons, ← ih, hpair, lost]
      omega

/-- What a listing decodes to. -/
theorem decodeVals_ok_iff {bs rest : Bytes} {vals : OrdMap Bytes Bytes} {more : Bool} :
    decodeVals bs = .ok ((vals, more), rest) ↔
      ∃ entries flag, strBlMap.Valid entries ∧ (Format.le 1).Valid flag ∧
        bs = strBlMap.encode entries ++ ((Format.le 1).encode flag ++ rest) ∧
        toMap entries = vals ∧ decide (flag ≠ 0) = more := by
  simp only [decodeVals, Decoder.bind_ok_iff, Format.decode_iff, Decoder.pure_ok_iff,
    Prod.mk.injEq]
  constructor
  · intro h
    obtain ⟨_, _, ⟨entries, _, ⟨hvalid, rfl⟩, rfl, rfl⟩, flag, _, ⟨hflag, rfl⟩, hresult⟩ := h
    obtain ⟨⟨rfl, rfl⟩, rfl⟩ := hresult
    exact ⟨entries, flag, hvalid, hflag, rfl, rfl, rfl⟩
  · intro h
    obtain ⟨entries, flag, hvalid, hflag, rfl, rfl, rfl⟩ := h
    exact ⟨_, _, ⟨entries, _, ⟨hvalid, rfl⟩, rfl, rfl⟩, flag, _, ⟨hflag, rfl⟩, ⟨rfl, rfl⟩, rfl⟩

/-- Pairs without an empty string are written as a map. -/
theorem encodeOmapGetvals_eq {KVs : SaBatchKv}
    (h : ∀ kv ∈ KVs.kvs, kv.1.text ≠ [] ∧ kv.2.text ≠ []) :
    encodeOmapGetvals KVs [] = strBlMap.encode KVs.texts ++ (Format.le 1).encode 0 := by
  have hwritten : ∀ kvs : List (SaStr × SaStr), (∀ kv ∈ kvs, kv.1.text ≠ [] ∧ kv.2.text ≠ []) →
      (kvs.flatMap fun kv => encodeSaStr kv.1 ++ encodeSaStr kv.2) =
        (kvs.map fun kv => (kv.1.text, kv.2.text)).flatMap
          (Format.string.pair Format.string).encode := by
    intro kvs hkvs
    induction kvs with
    | nil => rfl
    | cons kv rest ih =>
        rw [List.forall_mem_cons] at hkvs
        obtain ⟨⟨hkey, hval⟩, hrest⟩ := hkvs
        rw [List.flatMap_cons, List.map_cons, List.flatMap_cons, ih hrest, encodeSaStr_eq,
          encodeSaStr_eq, if_neg hkey, if_neg hval]
        rfl
  rw [encodeOmapGetvals, hwritten KVs.kvs h, List.nil_append, SaBatchKv.texts]
  show _ = (leBytes 4 (KVs.kvs.map _).length ++ _) ++ _
  rw [List.length_map]
  rfl

/-- The pairs of a batch can be encoded as a map. -/
theorem texts_valid (KVs : SaBatchKv) : strBlMap.Valid KVs.texts := by
  refine ⟨?_, ?_⟩
  · rw [SaBatchKv.texts, List.length_map]
    exact KVs.length_lt
  · intro text htext
    obtain ⟨kv, -, rfl⟩ := List.mem_map.mp htext
    exact ⟨kv.1.length_lt, kv.2.length_lt⟩

/-- A sub-request that the back end answers is finished with the output of the answer. -/
theorem fetch_of_answer {β : Type} {ctx : OnMessage.MsgContext} {op : OpRequestOps}
    {outdata : Bytes} (hret : 0 ≤ (ctx.cbFunc (ctx.request op) [OnMessage.newOp]).1)
    (hout : (ctx.cbFunc (ctx.request op) [OnMessage.newOp]).2.2 = outdata)
    (finish : Int → Bytes → Int × Option β) (ops : List OSDOp) :
    ∃ r, (ctx.fetch op finish ops).ret = (finish r outdata).1 ∧
      (ctx.fetch op finish ops).out = (finish r outdata).2 := by
  refine ⟨(ctx.cbFunc (ctx.request op) [OnMessage.newOp]).1, ?_⟩
  rw [← hout]
  unfold OnMessage.MsgContext.fetch OnMessage.MsgContext.call
  simp only
  rw [if_neg (Int.not_lt.mpr hret)]
  exact ⟨rfl, rfl⟩

/-- A listing of the class API returns what its output decodes to. -/
theorem fetch_finishVals_out {ctx : OnMessage.MsgContext} {op : OpRequestOps} {ops : List OSDOp}
    {outdata rest : Bytes} {result : OrdMap Bytes Bytes × Bool}
    (hret : 0 ≤ (ctx.cbFunc (ctx.request op) [OnMessage.newOp]).1)
    (hout : (ctx.cbFunc (ctx.request op) [OnMessage.newOp]).2.2 = outdata)
    (hdecode : decodeVals outdata = .ok (result, rest)) :
    (ctx.fetch op OnMessage.finishVals ops).out = some result := by
  obtain ⟨r, -, hfetch⟩ := fetch_of_answer hret hout OnMessage.finishVals ops
  unfold decodeVals at hdecode
  rw [hfetch, OnMessage.finishVals, finishListing, hdecode]

/-- The reply to an omap listing round trips exactly if it has no empty key and no empty value. -/
theorem roundTrips_iff {KVs : SaBatchKv} (hdistinct : (KVs.texts.map Prod.fst).Nodup) :
    RoundTrips KVs ↔ ∀ kv ∈ KVs.kvs, kv.1.text ≠ [] ∧ kv.2.text ≠ [] := by
  constructor
  · intro h
    obtain ⟨entries, flag, -, -, hbytes, hmap, -⟩ := decodeVals_ok_iff.mp h.1
    -- the map has all the pairs, so its encoding is not shorter than that of the pairs
    have hsize : total pairSize KVs.texts ≤ total pairSize entries := by
      have hall : total pairSize (toMap KVs.texts).entries = 0 + total pairSize KVs.texts := by
        rw [toMap_eq_foldl hdistinct]
        exact OrdMap.total_foldl_insert_entries pairSize KVs.texts .empty (fun _ _ => rfl)
          hdistinct
      have hsome : total pairSize (toMap entries).entries ≤ 0 + total pairSize entries :=
        OrdMap.total_foldl_insertNew_le pairSize entries .empty
      rw [hmap] at hsome
      omega
    have hlen := congrArg List.length hbytes
    have hentries : (entries.flatMap (Format.string.pair Format.string).encode).length =
        total pairSize entries := List.length_flatMap
    have hwritten := length_written_add_lost KVs.kvs
    simp only [encodeOmapGetvals, strBlMap, Format.counted, Format.u32, Format.le,
      List.length_append, length_leBytes, hentries, List.length_nil] at hlen
    have hlost : total lost KVs.kvs = 0 := by
      rw [SaBatchKv.texts] at hsize
      omega
    intro kv hkv
    have hzero := (total_eq_zero_iff lost KVs.kvs).mp hlost kv hkv
    rw [lost, Nat.add_eq_zero_iff] at hzero
    refine ⟨?_, ?_⟩
    · intro hkey
      rw [if_pos hkey] at hzero
      cases hzero.1
    · intro hval
      rw [if_pos hval] at hzero
      cases hzero.2
  · intro h
    have hdecode : decodeVals (encodeOmapGetvals KVs []) =
        .ok ((toMap KVs.texts, false), []) := by
      refine decodeVals_ok_iff.mpr ⟨KVs.texts, 0, texts_valid KVs, Nat.zero_lt_succ _, ?_, rfl, rfl⟩
      rw [encodeOmapGetvals_eq h, List.append_nil]
    refine ⟨hdecode, ?_⟩
    intro ctx ops hback
    refine ⟨?_, ?_⟩
    · intro startObj filterPrefix maxToGet
      exact fetch_finishVals_out (hback _).1 (hback _).2 hdecode
    · exact fetch_finishVals_out (hback _).1 (hback _).2 hdecode

/-- A string that is there. -/
def saStr (text : Bytes) (h : text.length < 2 ^ 32) : SaStr := ⟨some text, h⟩

/-- Two pairs with values, not in the order of their keys. -/
def twoPairs : SaBatchKv where
  kvs :=
    [(saStr (ascii "size") (by decide), saStr (ascii "4096") (by decide)),
      (saStr (ascii "order") (by decide), saStr (ascii "22") (by decide))]
  length_lt := by decide

/-- No bytes are few enough for a length of 32 bits. -/
theorem length_nil_lt : ([] : Bytes).length < 2 ^ 32 := Nat.two_pow_pos 32

/-- A pair with an empty value. -/
def emptyValue : SaBatchKv where
  kvs := [(saStr (ascii "flag") (by decide), saStr [] length_nil_lt)]
  length_lt := by decide

/-- The pairs with values come back, in the order of their keys. -/
theorem roundTrips_twoPairs :
    (toMap twoPairs.texts).entries =
      [(ascii "order", ascii "22"), (ascii "size", ascii "4096")] ∧ RoundTrips twoPairs := by
  refine ⟨by decide, (roundTrips_iff (by decide)).mpr ?_⟩
  intro kv hkv
  obtain rfl | hkv := List.mem_cons.mp hkv
  · exact ⟨by decide, by decide⟩
  · obtain rfl : kv = _ := List.mem_singleton.mp hkv
    exact ⟨by decide, by decide⟩

/-- The pair with an empty value does not decode: its value is read from the flag at the end. -/
theorem not_roundTrips_emptyValue : ¬ RoundTrips emptyValue := by
  intro h
  have herror : decodeVals (encodeOmapGetvals emptyValue []) = .error .endOfBuffer := by rfl
  have hok := h.1
  rw [herror] at hok
  cases hok

end GlobalCacheAdaptor.ServerAdaptor
