import GlobalCacheAdaptor.CephProxy.FreeSlots
import GlobalCacheAdaptor.CephProxy.ReadOp

/-!
# Delivery of read results

The caller of a read op wants every output it registered to hold the result of its own sub-op.
`deliversAll_iff` says for which sequences of calls this is so: calls of one kind share a slot of
the context, a read into a buffer hides every read into a chain, and neither the number of bytes
read nor the output of exec is ever written.
-/

namespace GlobalCacheAdaptor.CephProxy.ReadOp

open Lib

/-! ## Delivery -/

/-- What the caller may rely on after a call: its outputs hold the result of its sub-op. -/
def ReadCall.Delivered (i : Nat) (outcome : Outcome) (mem : Memory) : ReadCall → Prop
  | .read _ _ buffer bytesRead => buffer = true → bytesRead = true →
      outcome.bytes i <+: mem.buffer i ∧ mem.bytesRead i = (outcome.bytes i).length
  | .readSGL _ _ sgl isRelease => sgl.isSome →
      outcome.bytes i <+: contents isRelease (usedEntries (mem.sgl i))
  | .getXattr _ => outcome.bytes i <+: mem.buffer i
  | .getXattrs => (mem.xattrsIter i).attrset = outcome.pairs i
  | .omapGetVals _ _ => (mem.omapIter i).values = outcome.pairs i
  | .omapGetKeys _ _ => (mem.omapIter i).keys = outcome.keys i
  | .checkSum _ _ _ _ _ pCheckSum _ => pCheckSum = true → outcome.bytes i <+: mem.buffer i
  | .exec _ _ _ outBuf outLen => (outBuf = true → mem.outBuf i = outcome.bytes i) ∧
      (outLen = true → mem.outLen i = (outcome.bytes i).length)

/-- A result has no more bytes than the call asked for, and the output of the call has room for
it. -/
def ReadCall.Fits (i : Nat) (outcome : Outcome) (mem : Memory) : ReadCall → Prop
  | .read _ len _ _ => (outcome.bytes i).length ≤ len ∧ len ≤ (mem.buffer i).length
  | .readSGL _ len sgl _ => (outcome.bytes i).length ≤ len ∧ ∀ chain, sgl = some chain →
      mem.sgl i = chain
  | .getXattr _ => (outcome.bytes i).length ≤ (mem.buffer i).length
  | .checkSum _ _ _ _ _ _ checkSumLen => (outcome.bytes i).length ≤ checkSumLen ∧
      checkSumLen ≤ (mem.buffer i).length
  | _ => True

/-- Results and memory as the calls leave them to librados: a bufferlist has less than 2^32 bytes,
and the iterators are new. -/
structure Fits (calls : List ReadCall) (outcome : Outcome) (mem : Memory) : Prop where
  bytes_lt : ∀ i, (outcome.bytes i).length < 2 ^ 32
  fits : ∀ (i : Nat) (call : ReadCall), calls[i]? = some call → call.Fits i outcome mem
  xattrsIter : ∀ i, mem.xattrsIter i = {}
  omapIter : ∀ i, mem.omapIter i = {}

/-- The op of a sequence of calls runs, every sub-op succeeds, and the callback gets 0. -/
def Completes (calls : List ReadCall) (outcome : Outcome) (mem mem' : Memory) : Prop :=
  readCallback 0 (build calls).reqCtx (operate outcome (build calls) mem).1
    (operate outcome (build calls) mem).2 = some mem'

/-- Whatever the results are, the callback delivers all of them. -/
def DeliversAll (calls : List ReadCall) : Prop :=
  ∀ outcome mem, Fits calls outcome mem →
    ∃ mem', Completes calls outcome mem mem' ∧
      ∀ (i : Nat) (call : ReadCall), calls[i]? = some call → call.Delivered i outcome mem'

/-- The entries of a chain point at as many bytes as they state, and in release mode at a page. -/
def ReadCall.Valid : ReadCall → Prop
  | .readSGL _ _ sgl isRelease => ∀ chain, sgl = some chain →
      CephProxy.Valid false (usedEntries chain) ∧ CephProxy.Valid isRelease (usedEntries chain)
  | _ => True

/-- The sequences of calls whose results are all delivered. -/
structure Deliverable (calls : List ReadCall) : Prop where
  /-- Nothing is read into a buffer. -/
  read : ∀ call ∈ calls, ¬call.isRead
  /-- No output of exec is asked for. -/
  exec : ∀ cls method inBuf outBuf outLen, ReadCall.exec cls method inBuf outBuf outLen ∈ calls →
    outBuf = false ∧ outLen = false
  /-- At most one call is for an attribute. -/
  getXattr : ∀ (i j : Nat) (call other : ReadCall), calls[i]? = some call →
    calls[j]? = some other → call.isGetXattr → other.isGetXattr → i = j
  /-- A read into a chain fits before the first free slot that takes bytes, and it is the last
  one. -/
  readSGL : ∀ (i : Nat) offset len chain isRelease,
    calls[i]? = some (.readSGL offset len (some chain) isRelease) → len ≠ 0 →
      min len (2 ^ 32 - 1) ≤ passable isRelease chain ∧
      ∀ j call, i < j → calls[j]? = some call → ¬call.isReadSGL
  /-- A checksum is the last one. -/
  checkSum : ∀ (i : Nat) type initValue offset len chunkSize checkSumLen,
    calls[i]? = some (.checkSum type initValue offset len chunkSize true checkSumLen) →
      checkSumLen ≠ 0 → ∀ j call, i < j → calls[j]? = some call → ¬call.isCheckSum

section Deliver

variable {calls : List ReadCall} {outcome : Outcome} {mem : Memory}

/-- librados leaves the callers' memory alone. -/
theorem operate_frame (calls : List ReadCall) (outcome : Outcome) (mem : Memory) :
    (operate outcome (build calls) mem).2.buffer = mem.buffer ∧
    (operate outcome (build calls) mem).2.bytesRead = mem.bytesRead ∧
    (operate outcome (build calls) mem).2.outBuf = mem.outBuf ∧
    (operate outcome (build calls) mem).2.outLen = mem.outLen ∧
    (operate outcome (build calls) mem).2.sgl = mem.sgl := by
  obtain ⟨x, o, hmem⟩ := stored_frame outcome ((build calls).buffers, mem) calls
  have hoperate : (operate outcome (build calls) mem).2 =
      { mem with xattrsIter := x, omapIter := o } := hmem
  rw [hoperate]
  exact ⟨rfl, rfl, rfl, rfl, rfl⟩

/-- Without reads into buffers `results` is the result of the last read into a chain. -/
theorem results_of_last {j : Nat} {call : ReadCall} (hread : ∀ call ∈ calls, ¬call.isRead)
    (hlast : last? (fun _ call => call.isReadSGL) calls = some (j, call)) :
    (operate outcome (build calls) mem).1.results = outcome.bytes j := by
  obtain ⟨hget, hkind, hlater⟩ := last?_eq_some hlast
  have hboth : last? (fun _ call => call.isRead || call.isReadSGL) calls = some (j, call) := by
    refine last?_of_forall hget (by simp [hkind]) fun i other hi hother => ?_
    simp [hread other (List.mem_of_getElem? hother), hlater i other hi hother]
  show (stored outcome ((build calls).buffers, mem) calls).1.results = _
  rw [stored_results, hboth]
  rfl

/-- Without reads into buffers the context has no buffer. -/
theorem reqCtx_read_none (hread : ∀ call ∈ calls, ¬call.isRead) :
    (build calls).reqCtx.read = none := by
  rw [reqCtx_read, last?_eq_none_iff.mpr fun i call hcall =>
    hread call (List.mem_of_getElem? hcall)]
  rfl

/-- A read into a chain that is not the last one was asked for no bytes, so the chain holds its
result already. -/
theorem delivered_of_not_last (hd : Deliverable calls) (hfits : Fits calls outcome mem)
    {i : Nat} {offset : BitVec 64} {len : Nat} {chain : List SGL} {isRelease : Bool}
    (hget : calls[i]? = some (.readSGL offset len (some chain) isRelease))
    (hlast : ∀ call, last? (fun _ call => call.isReadSGL) calls ≠ some (i, call)) :
    outcome.bytes i <+: contents isRelease (usedEntries (mem.sgl i)) := by
  have hlen : len = 0 := by
    by_contra hlen
    obtain ⟨-, hlater⟩ := hd.readSGL i offset len chain isRelease hget hlen
    exact hlast _ (last?_of_forall hget rfl hlater)
  have hbytes := (hfits.fits i _ hget).1
  rw [List.eq_nil_of_length_eq_zero (show (outcome.bytes i).length = 0 from by omega)]
  exact List.nil_prefix

/-- The result of a read into a chain has room there. -/
theorem bytes_le_passable (hd : Deliverable calls) (hfits : Fits calls outcome mem)
    {i : Nat} {offset : BitVec 64} {len : Nat} {chain : List SGL} {isRelease : Bool}
    (hget : calls[i]? = some (.readSGL offset len (some chain) isRelease)) :
    (outcome.bytes i).length ≤ passable isRelease chain := by
  have hbytes := (hfits.fits i _ hget).1
  have hlt := hfits.bytes_lt i
  by_cases hlen : len = 0
  · omega
  · obtain ⟨hroom, -⟩ := hd.readSGL i offset len chain isRelease hget hlen
    omega

/-- The results of reads are delivered. -/
theorem copyResults_delivers (hvalid : ∀ call ∈ calls, call.Valid) (hd : Deliverable calls)
    (hfits : Fits calls outcome mem) :
    ∃ mid, copyResults (build calls).reqCtx (operate outcome (build calls) mem).1
        (operate outcome (build calls) mem).2 = some mid ∧
      ∀ (i : Nat) offset len chain isRelease,
        calls[i]? = some (.readSGL offset len (some chain) isRelease) →
          outcome.bytes i <+: contents isRelease (usedEntries (mid.sgl i)) := by
  obtain ⟨-, -, -, -, hsgl⟩ := operate_frame calls outcome mem
  rw [copyResults, reqCtx_read_none hd.read, reqCtx_readSgl]
  cases hlast : last? (fun _ call => call.isReadSGL) calls with
  | none =>
      refine ⟨_, rfl, fun i offset len chain isRelease hget => ?_⟩
      rw [hsgl]
      exact delivered_of_not_last hd hfits hget (by simp [hlast])
  | some x =>
      obtain ⟨j, call⟩ := x
      obtain ⟨hget, hkind, -⟩ := last?_eq_some hlast
      rw [results_of_last hd.read hlast]
      cases call with
      | readSGL offset len sgl isRelease =>
          cases sgl with
          | none =>
              refine ⟨_, rfl, fun i offset' len' chain isRelease' hi => ?_⟩
              rw [hsgl]
              refine delivered_of_not_last hd hfits hi fun call hcall => ?_
              rw [hlast] at hcall
              cases hcall
              rw [hget] at hi
              cases hi
          | some chain =>
              have hchain : mem.sgl j = chain := (hfits.fits j _ hget).2 chain rfl
              obtain ⟨-, hpages⟩ := hvalid _ (List.mem_of_getElem? hget) chain rfl
              obtain ⟨chain', touched, hloop, hcontents⟩ :=
                readCallback_delivers len hpages (bytes_le_passable hd hfits hget)
              have hstep : CephProxy.readCallback isRelease
                  ((operate outcome (build calls) mem).2.sgl j) len (outcome.bytes j) =
                  some (chain', touched) := by
                rw [hsgl, hchain]
                exact hloop
              refine ⟨_, congrArg (Option.map _) hstep,
                fun i offset' len' other isRelease' hi => ?_⟩
              by_cases hij : i = j
              · subst hij
                rw [hget] at hi
                cases hi
                simp only [Function.update_self]
                exact hcontents
              · simp only [Function.update_of_ne hij]
                rw [hsgl]
                refine delivered_of_not_last hd hfits hi fun call hcall => ?_
                rw [hlast] at hcall
                cases hcall
                exact hij rfl
      | _ => cases hkind

/-- The checksum is copied to one buffer. -/
theorem copyCheckSum_buffer_of_ne {reqCtx : ReqContext} {buffers : Buffers} {mem : Memory}
    {a : Address} (h : reqCtx.checksum.pCheckSum ≠ some a) :
    (copyCheckSum reqCtx buffers mem).buffer a = mem.buffer a := by
  rw [copyCheckSum]
  split
  next own hown =>
    have hne : a ≠ own := by
      intro heq
      exact h (heq ▸ hown)
    exact Function.update_of_ne hne _ _
  · rfl

/-- The checksum comes first in its buffer. -/
theorem copyCheckSum_prefix {reqCtx : ReqContext} {buffers : Buffers} {mem : Memory}
    {a : Address} {checkSumLen : Nat} (hslot : reqCtx.checksum = ⟨some a, checkSumLen⟩)
    (hlen : buffers.checksums.length ≤ checkSumLen) :
    buffers.checksums <+: (copyCheckSum reqCtx buffers mem).buffer a := by
  rw [copyCheckSum, hslot]
  show buffers.checksums <+: Function.update mem.buffer a _ a
  rw [Function.update_self, List.take_append, List.take_of_length_le hlen, List.append_assoc]
  exact List.prefix_append _ _

/-- The only attribute asked for is delivered. -/
theorem xattr_delivered (hd : Deliverable calls) {i : Nat} {name : CString}
    (hget : calls[i]? = some (.getXattr name)) (mid : Memory) :
    outcome.bytes i <+: (finish (build calls).reqCtx (operate outcome (build calls) mem).1
      mid).buffer i := by
  have honly : ∀ j other, i < j → calls[j]? = some other → ¬other.isGetXattr := by
    intro j other hj hother hkind
    have := hd.getXattr i j _ other hget hother rfl hkind
    omega
  have hslot : (build calls).reqCtx.xattr = some (name, i) := by
    rw [reqCtx_xattr, last?_of_forall hget rfl honly]
    rfl
  have hfind : (operate outcome (build calls) mem).1.xattrs.find? name.val =
      some (outcome.bytes i) := by
    show (stored outcome ((build calls).buffers, mem) calls).1.xattrs.find? name.val = _
    rw [stored_xattrs, last?_of_forall hget (by simp [ReadCall.getsXattr])]
    · rfl
    · intro j other hj hother hkind
      refine honly j other hj hother ?_
      cases other with
      | getXattr _ => rfl
      | _ => cases hkind
  rw [finish_buffer, copyCheckSum_buffer_of_ne (pCheckSum_ne hget rfl), copyXattr, hslot]
  show outcome.bytes i <+: Function.update mid.buffer i _ i
  rw [Function.update_self, hfind]
  exact List.prefix_append _ _

/-- A checksum that is the last one or has no bytes is delivered. -/
theorem checkSum_delivered (hd : Deliverable calls) (hfits : Fits calls outcome mem) {i : Nat}
    {type : ChecksumType} {initValue : Bytes} {offset : BitVec 64}
    {len chunkSize checkSumLen : Nat}
    (hget : calls[i]? = some (.checkSum type initValue offset len chunkSize true checkSumLen))
    (mid : Memory) :
    outcome.bytes i <+: (finish (build calls).reqCtx (operate outcome (build calls) mem).1
      mid).buffer i := by
  obtain ⟨hbytes, -⟩ := hfits.fits i _ hget
  by_cases hzero : checkSumLen = 0
  · rw [List.eq_nil_of_length_eq_zero (show (outcome.bytes i).length = 0 from by omega)]
    exact List.nil_prefix
  · have hlast := last?_of_forall (p := fun _ call => ReadCall.isCheckSum call) hget rfl
      (hd.checkSum i _ _ _ _ _ _ hget hzero)
    have hslot : (build calls).reqCtx.checksum = ⟨some i, checkSumLen⟩ := by
      rw [reqCtx_checksum, hlast]
      rfl
    have hsums : (operate outcome (build calls) mem).1.checksums = outcome.bytes i := by
      show (stored outcome ((build calls).buffers, mem) calls).1.checksums = _
      rw [stored_checksums, hlast]
      rfl
    rw [finish_buffer, ← hsums]
    exact copyCheckSum_prefix hslot (hsums ▸ hbytes)

/-- Every result of a deliverable sequence of calls is delivered. -/
theorem deliversAll_of_deliverable (hvalid : ∀ call ∈ calls, call.Valid)
    (hd : Deliverable calls) : DeliversAll calls := by
  intro outcome mem hfits
  obtain ⟨mid, hmid, hchains⟩ := copyResults_delivers hvalid hd hfits
  refine ⟨finish (build calls).reqCtx (operate outcome (build calls) mem).1 mid, ?_, ?_⟩
  · rw [Completes, readCallback, if_pos rfl, hmid]
    rfl
  intro i call hget
  obtain ⟨-, -, -, hsgl⟩ :=
    finish_frame (build calls).reqCtx (operate outcome (build calls) mem).1 mid
  obtain ⟨-, -, -, hxattrs, homap⟩ := copyResults_frame _ _ _ hmid
  obtain ⟨hattrset, hkeys, hvalues⟩ :=
    finish_iters (build calls).reqCtx (operate outcome (build calls) mem).1 mid i
  cases call with
  | read offset len buffer bytesRead =>
      intro hbuffer hbytesRead
      exact absurd (by simp [ReadCall.isRead, hbuffer, hbytesRead])
        (hd.read _ (List.mem_of_getElem? hget))
  | readSGL offset len sgl isRelease =>
      intro hsome
      obtain ⟨chain, rfl⟩ := Option.isSome_iff_exists.mp hsome
      rw [hsgl]
      exact hchains i offset len chain isRelease hget
  | getXattr name => exact xattr_delivered hd hget mid
  | getXattrs =>
      show RadosXattrsIter.attrset _ = _
      rw [hattrset, hxattrs]
      exact stored_attrset outcome ((build calls).buffers, mem) hget
  | omapGetVals startAfter maxReturn =>
      show RadosOmapIter.values _ = _
      rw [homap] at hvalues
      rw [hvalues]
      · exact stored_values outcome ((build calls).buffers, mem) hget
      · refine (stored_keys outcome ((build calls).buffers, mem) hget).trans ?_
        show (mem.omapIter i).keys = _
        rw [hfits.omapIter i]
  | omapGetKeys startAfter maxReturn =>
      show RadosOmapIter.keys _ = _
      rw [hkeys, homap]
      exact stored_keys outcome ((build calls).buffers, mem) hget
  | checkSum type initValue offset len chunkSize pCheckSum checkSumLen =>
      intro hpointer
      subst hpointer
      exact checkSum_delivered hd hfits hget mid
  | exec cls method inBuf outBuf outLen =>
      obtain ⟨rfl, rfl⟩ := hd.exec cls method inBuf outBuf outLen (List.mem_of_getElem? hget)
      simp [ReadCall.Delivered]

end Deliver

/-! ## What is not delivered -/

/-- The bytes that a caller has room for; an attribute may have one byte. -/
def ReadCall.room : ReadCall → Nat
  | .read _ len _ _ | .readSGL _ len _ _ => len
  | .checkSum _ _ _ _ _ _ checkSumLen => checkSumLen
  | .getXattr _ => 1
  | _ => 0

/-- The chain of a call. -/
def ReadCall.chain : ReadCall → List SGL
  | .readSGL _ _ sgl _ => sgl.getD []
  | _ => []

/-- Memory with zeros in the buffers, and in the other outputs something that no empty result
leaves. -/
def unread (calls : List ReadCall) : Memory where
  buffer i := List.replicate (calls[i]?.elim 0 ReadCall.room) 0
  bytesRead _ := 1
  outBuf _ := [1]
  outLen _ := 1
  sgl i := calls[i]?.elim [] ReadCall.chain
  xattrsIter _ := {}
  omapIter _ := {}
  behind := []

/-- Only one call has a result. -/
def single (i : Nat) (bytes : Bytes) : Outcome where
  bytes := Function.update (fun _ => []) i bytes
  pairs _ := OrdMap.empty
  keys _ := OrdMap.empty

@[simp] theorem single_bytes (i : Nat) (bytes : Bytes) : (single i bytes).bytes i = bytes := by
  simp [single]

/-- One result that its call has room for fits. -/
theorem fits_unread {calls : List ReadCall} {i : Nat} {bytes : Bytes}
    (hlt : bytes.length < 2 ^ 32)
    (hroom : ∀ call, calls[i]? = some call → bytes.length ≤ call.room) :
    Fits calls (single i bytes) (unread calls) := by
  have hle : ∀ (j : Nat) (call : ReadCall), calls[j]? = some call →
      ((single i bytes).bytes j).length ≤ call.room := by
    intro j call hget
    by_cases hj : j = i
    · subst hj
      simpa using hroom call hget
    · simp [single, Function.update_of_ne hj]
  refine ⟨fun j => ?_, fun j call hget => ?_, fun _ => rfl, fun _ => rfl⟩
  · by_cases hj : j = i
    · subst hj
      simpa using hlt
    · simp [single, Function.update_of_ne hj]
  · have hcall := hle j call hget
    have hbuffer : ((unread calls).buffer j).length = call.room := by
      simp [unread, hget]
    cases call with
    | read | checkSum => exact ⟨hcall, hbuffer.ge⟩
    | readSGL offset len sgl isRelease =>
        refine ⟨hcall, fun chain hchain => ?_⟩
        simp [unread, hget, hchain, ReadCall.chain]
    | getXattr name => exact hcall.trans hbuffer.ge
    | _ => trivial

section Undelivered

variable {calls : List ReadCall} {outcome : Outcome} {mem mem' : Memory}

/-- The callback copies the results of reads first. -/
theorem readCallback_eq_some {reqCtx : ReqContext} {buffers : Buffers}
    (h : readCallback 0 reqCtx buffers mem = some mem') :
    ∃ mid, copyResults reqCtx buffers mem = some mid ∧ mem' = finish reqCtx buffers mid := by
  rw [readCallback, if_pos rfl] at h
  obtain ⟨mid, hmid, hfinish⟩ := Option.map_eq_some_iff.mp h
  exact ⟨mid, hmid, hfinish.symm⟩

/-- Nobody writes the numbers of bytes read and the outputs of exec. -/
theorem completes_frame (h : Completes calls outcome mem mem') :
    mem'.bytesRead = mem.bytesRead ∧ mem'.outBuf = mem.outBuf ∧ mem'.outLen = mem.outLen := by
  obtain ⟨mid, hmid, rfl⟩ := readCallback_eq_some h
  obtain ⟨-, hbytesRead, houtBuf, houtLen, -⟩ := operate_frame calls outcome mem
  obtain ⟨hbytesRead', houtBuf', houtLen', -⟩ := copyResults_frame _ _ _ hmid
  obtain ⟨hbytesRead'', houtBuf'', houtLen'', -⟩ := finish_frame (build calls).reqCtx
    (operate outcome (build calls) mem).1 mid
  exact ⟨hbytesRead''.trans (hbytesRead'.trans hbytesRead),
    houtBuf''.trans (houtBuf'.trans houtBuf), houtLen''.trans (houtLen'.trans houtLen)⟩

/-- Without reads into buffers, the buffers that are written are those in the context. -/
theorem completes_buffer (hread : ∀ call ∈ calls, ¬call.isRead)
    (h : Completes calls outcome mem mem') {i : Nat}
    (hxattr : ∀ name, (build calls).reqCtx.xattr ≠ some (name, i))
    (hsum : (build calls).reqCtx.checksum.pCheckSum ≠ some i) :
    mem'.buffer i = mem.buffer i := by
  obtain ⟨mid, hmid, rfl⟩ := readCallback_eq_some h
  obtain ⟨hbuffer, -⟩ := operate_frame calls outcome mem
  have hmidBuffer : mid.buffer = mem.buffer := by
    rw [copyResults, reqCtx_read_none hread] at hmid
    rw [← hbuffer]
    split at hmid
    · cases ‹none = some _›
    · split at hmid
      · obtain ⟨r, -, rfl⟩ := Option.map_eq_some_iff.mp hmid
        rfl
      · cases hmid
        rfl
  rw [finish_buffer, copyCheckSum_buffer_of_ne hsum, ← hmidBuffer, copyXattr]
  split
  next name own hown =>
    have hne : i ≠ own := by
      intro heq
      exact hxattr name (heq ▸ hown)
    exact Function.update_of_ne hne _ _
  · rfl

/-- The chain that is written is the one in the context. -/
theorem completes_sgl (h : Completes calls outcome mem mem') {i : Nat}
    (hsgl : (build calls).reqCtx.readSgl.sgl ≠ some i) : mem'.sgl i = mem.sgl i := by
  obtain ⟨mid, hmid, rfl⟩ := readCallback_eq_some h
  obtain ⟨-, -, -, -, hsame⟩ := operate_frame calls outcome mem
  obtain ⟨-, -, -, hfinish⟩ := finish_frame (build calls).reqCtx
    (operate outcome (build calls) mem).1 mid
  rw [hfinish, ← hsame]
  rw [copyResults] at hmid
  split at hmid
  · cases hmid
    rfl
  · split at hmid
    next own hown =>
      obtain ⟨r, -, rfl⟩ := Option.map_eq_some_iff.mp hmid
      have hne : i ≠ own := by
        intro heq
        exact hsgl (heq ▸ hown)
      exact Function.update_of_ne hne _ _
    · cases hmid
      rfl

/-- Nothing is read into a buffer of a sequence of calls that delivers all. -/
theorem not_isRead_of_deliversAll (h : DeliversAll calls) : ∀ call ∈ calls, ¬call.isRead := by
  intro call hcall hkind
  obtain ⟨i, hget⟩ := List.getElem?_of_mem hcall
  obtain ⟨mem', hrun, hdelivered⟩ := h (single i []) (unread calls)
    (fits_unread (Nat.two_pow_pos 32) fun _ _ => Nat.zero_le _)
  have hframe := (completes_frame hrun).1
  cases call with
  | read offset len buffer bytesRead =>
      obtain ⟨rfl, rfl⟩ : buffer = true ∧ bytesRead = true := by
        simpa [ReadCall.isRead] using hkind
      obtain ⟨-, hcount⟩ := hdelivered i _ hget rfl rfl
      rw [hframe, single_bytes] at hcount
      exact Nat.one_ne_zero hcount
  | _ => cases hkind

/-- No output of exec is asked for in a sequence of calls that delivers all. -/
theorem exec_of_deliversAll (h : DeliversAll calls) {cls method : CString} {inBuf : Bytes}
    {outBuf outLen : Bool} (hcall : ReadCall.exec cls method inBuf outBuf outLen ∈ calls) :
    outBuf = false ∧ outLen = false := by
  obtain ⟨i, hget⟩ := List.getElem?_of_mem hcall
  obtain ⟨mem', hrun, hdelivered⟩ := h (single i []) (unread calls)
    (fits_unread (Nat.two_pow_pos 32) fun _ _ => Nat.zero_le _)
  obtain ⟨-, houtBuf, houtLen⟩ := completes_frame hrun
  obtain ⟨hbuf, hlen⟩ := hdelivered i _ hget
  rw [houtBuf, single_bytes] at hbuf
  rw [houtLen, single_bytes] at hlen
  constructor
  · exact Bool.eq_false_iff.mpr fun htrue => List.cons_ne_nil _ _ (hbuf htrue)
  · exact Bool.eq_false_iff.mpr fun htrue => Nat.one_ne_zero (hlen htrue)

/-- A one is not the first of some zeros. -/
theorem not_one_prefix_zeros (n : Nat) : ¬([1] : Bytes) <+: List.replicate n 0 := by
  cases n with
  | zero => simp
  | succ n => simp [List.replicate_succ]

/-- An attribute is delivered only if its `val` is the one in the context. -/
theorem xattr_of_deliversAll (h : DeliversAll calls) {i : Nat} {call : ReadCall}
    (hget : calls[i]? = some call) (hkind : call.isGetXattr) :
    ∃ name, (build calls).reqCtx.xattr = some (name, i) := by
  by_contra hslot
  cases call with
  | getXattr name =>
      obtain ⟨mem', hrun, hdelivered⟩ := h (single i [1]) (unread calls)
        (fits_unread (by decide) fun other hother => by
          rw [hget] at hother
          cases hother
          exact Nat.le_refl 1)
      have hbuffer := completes_buffer (not_isRead_of_deliversAll h) hrun
        (fun name hname => hslot ⟨name, hname⟩) (pCheckSum_ne hget rfl)
      have hbytes : (single i [1]).bytes i <+: mem'.buffer i := hdelivered i _ hget
      rw [hbuffer, single_bytes] at hbytes
      exact not_one_prefix_zeros _ hbytes
  | _ => cases hkind

/-- A checksum is delivered only if its buffer is the one in the context. -/
theorem checkSum_of_deliversAll (h : DeliversAll calls) {i : Nat} {type : ChecksumType}
    {initValue : Bytes} {offset : BitVec 64} {len chunkSize checkSumLen : Nat}
    (hget : calls[i]? = some (.checkSum type initValue offset len chunkSize true checkSumLen))
    (hlen : checkSumLen ≠ 0) : (build calls).reqCtx.checksum.pCheckSum = some i := by
  by_contra hslot
  obtain ⟨mem', hrun, hdelivered⟩ := h (single i [1]) (unread calls)
    (fits_unread (by decide) fun other hother => by
      rw [hget] at hother
      cases hother
      exact Nat.one_le_iff_ne_zero.mpr hlen)
  have hbuffer := completes_buffer (not_isRead_of_deliversAll h) hrun (xattr_ne hget rfl) hslot
  have hbytes := hdelivered i _ hget rfl
  rw [hbuffer, single_bytes] at hbytes
  exact not_one_prefix_zeros _ hbytes

/-- A read into a chain is delivered only if its chain is the one in the context. -/
theorem sgl_of_deliversAll (h : DeliversAll calls) {i : Nat} {offset : BitVec 64} {len : Nat}
    {chain : List SGL} {isRelease : Bool}
    (hget : calls[i]? = some (.readSGL offset len (some chain) isRelease)) (hlen : len ≠ 0) :
    (build calls).reqCtx.readSgl.sgl = some i := by
  by_contra hslot
  obtain ⟨b, hb⟩ := exists_not_prefix (contents isRelease (usedEntries chain))
  obtain ⟨mem', hrun, hdelivered⟩ := h (single i [b]) (unread calls)
    (fits_unread (by rw [List.length_singleton]; decide) fun other hother => by
      rw [hget] at hother
      cases hother
      exact Nat.one_le_iff_ne_zero.mpr hlen)
  have hbytes := hdelivered i _ hget rfl
  have hchain : (unread calls).sgl i = chain := by simp [unread, hget, ReadCall.chain]
  rw [completes_sgl hrun hslot, hchain, single_bytes] at hbytes
  exact hb hbytes

/-- The result of a read into the chain in the context is scattered over it. -/
theorem copyResults_sgl {reqCtx : ReqContext} {buffers : Buffers} {mid : Memory} {len : Nat}
    {isRelease : Bool} {a : Address} (hread : reqCtx.read = none)
    (hslot : reqCtx.readSgl = ⟨len, isRelease, some a⟩)
    (h : copyResults reqCtx buffers mem = some mid) :
    ∃ touched, CephProxy.readCallback isRelease (mem.sgl a) len buffers.results =
      some (mid.sgl a, touched) := by
  rw [copyResults, hread, hslot] at h
  obtain ⟨r, hr, rfl⟩ := Option.map_eq_some_iff.mp h
  refine ⟨r.2, hr.trans ?_⟩
  simp only [Function.update_self]

/-- A read into the chain in the context is delivered only if all of it fits before the first free
slot that takes bytes. -/
theorem room_of_deliversAll (h : DeliversAll calls) {i : Nat} {offset : BitVec 64} {len : Nat}
    {chain : List SGL} {isRelease : Bool}
    (hvalid : CephProxy.Valid isRelease (usedEntries chain))
    (hlast : last? (fun _ call => call.isReadSGL) calls =
      some (i, .readSGL offset len (some chain) isRelease)) :
    min len (2 ^ 32 - 1) ≤ passable isRelease chain := by
  by_contra hroom
  obtain ⟨results, hlength, hmisses⟩ := exists_undelivered len hvalid
  obtain ⟨hget, -, -⟩ := last?_eq_some hlast
  obtain ⟨mem', hrun, hdelivered⟩ := h (single i results) (unread calls)
    (fits_unread (by omega) fun other hother => by
      rw [hget] at hother
      cases hother
      show results.length ≤ len
      omega)
  have hbytes := hdelivered i _ hget rfl
  obtain ⟨mid, hmid, rfl⟩ := readCallback_eq_some hrun
  have hslot : (build calls).reqCtx.readSgl = ⟨len, isRelease, some i⟩ := by
    rw [reqCtx_readSgl, hlast]
    rfl
  have hread := not_isRead_of_deliversAll h
  obtain ⟨touched, hloop⟩ := copyResults_sgl (reqCtx_read_none hread) hslot hmid
  obtain ⟨-, -, -, -, hsgl⟩ := operate_frame calls (single i results) (unread calls)
  have hchain : (unread calls).sgl i = chain := by simp [unread, hget, ReadCall.chain]
  rw [results_of_last hread hlast, single_bytes, hsgl, hchain] at hloop
  rw [(finish_frame _ _ mid).2.2.2, single_bytes] at hbytes
  exact hmisses _ touched hloop hbytes

/-- A sequence of calls that delivers all is deliverable. -/
theorem deliverable_of_deliversAll (hvalid : ∀ call ∈ calls, call.Valid)
    (h : DeliversAll calls) : Deliverable calls where
  read := not_isRead_of_deliversAll h
  exec := fun _ _ _ _ _ hcall => exec_of_deliversAll h hcall
  getXattr := by
    intro i j call other hi hj hcall hother
    obtain ⟨name, hslot⟩ := xattr_of_deliversAll h hi hcall
    obtain ⟨name', hslot'⟩ := xattr_of_deliversAll h hj hother
    rw [hslot] at hslot'
    cases hslot'
    rfl
  readSGL := by
    intro i offset len chain isRelease hget hlen
    obtain ⟨call, hlast⟩ := sgl_eq_some (sgl_of_deliversAll h hget hlen)
    obtain ⟨hcall, -, hlater⟩ := last?_eq_some hlast
    rw [hget] at hcall
    cases hcall
    obtain ⟨-, hpages⟩ := hvalid _ (List.mem_of_getElem? hget) chain rfl
    exact ⟨room_of_deliversAll h hpages hlast, hlater⟩
  checkSum := by
    intro i type initValue offset len chunkSize checkSumLen hget hlen
    obtain ⟨call, hlast⟩ := pCheckSum_eq_some (checkSum_of_deliversAll h hget hlen)
    exact (last?_eq_some hlast).2.2

end Undelivered

/-- A sequence of calls delivers every result exactly when nothing is read into a buffer, no output
of exec is asked for, at most one attribute is, and every read into a chain and every checksum that
may have bytes is the last of its kind, with what is read fitting before the first free slot that
takes bytes. -/
theorem deliversAll_iff {calls : List ReadCall} (hvalid : ∀ call ∈ calls, call.Valid) :
    DeliversAll calls ↔ Deliverable calls :=
  ⟨deliverable_of_deliversAll hvalid, deliversAll_of_deliverable hvalid⟩

/-- One output of each kind that can be delivered. -/
def oneOfEach : List ReadCall :=
  [.getXattr ⟨ascii "order", by decide⟩, .readSGL 0 65 (some fullThenOne) false,
    .checkSum .crc32c [] 0 65 65 true 8, .omapGetVals none 16]

/-- The attribute, the chain, the checksum and the iterator all get their results. -/
theorem deliversAll_oneOfEach : DeliversAll oneOfEach := by
  have hvalid : ∀ call ∈ oneOfEach, call.Valid := by
    simp only [oneOfEach, List.forall_mem_cons, ReadCall.Valid, Option.some.injEq]
    refine ⟨trivial, fun chain hchain => ?_, trivial, trivial, by simp⟩
    subst hchain
    exact ⟨by decide, by decide⟩
  refine (deliversAll_iff hvalid).mpr
    { read := by decide
      exec := by simp [oneOfEach]
      getXattr := ?_
      readSGL := ?_
      checkSum := ?_ }
  · have honly : ∀ (i : Nat) (call : ReadCall), oneOfEach[i]? = some call →
        call.isGetXattr → i = 0 := by
      intro i call hi hcall
      match i with
      | 0 => rfl
      | 1 | 2 | 3 =>
          cases hi
          cases hcall
      | i + 4 => cases hi
    intro i j call other hi hj hcall hother
    rw [honly i call hi hcall, honly j other hj hother]
  · intro i offset len chain isRelease hi hlen
    match i with
    | 0 | 2 | 3 | i + 4 => cases hi
    | 1 =>
        cases hi
        refine ⟨by decide, fun j call hj hcall hkind => ?_⟩
        match j with
        | 2 | 3 =>
            cases hcall
            cases hkind
        | j + 4 => cases hcall
  · intro i type initValue offset len chunkSize checkSumLen hi hlen
    match i with
    | 0 | 1 | 3 | i + 4 => cases hi
    | 2 =>
        cases hi
        intro j call hj hcall hkind
        match j with
        | 3 =>
            cases hcall
            cases hkind
        | j + 4 => cases hcall

/-- A read of four bytes. -/
def readFour : ReadCall := .read 0 4 true true

/-- The bytes of a read get to its buffer, and their number does not get to `*bytesRead`. -/
theorem not_deliversAll_readFour :
    (∃ mem', Completes [readFour] (single 0 (ascii "data")) (unread [readFour]) mem' ∧
      mem'.buffer 0 = ascii "data" ∧ mem'.bytesRead 0 = 1) ∧ ¬DeliversAll [readFour] := by
  refine ⟨⟨(unread [readFour]).copy 0 (ascii "data"), rfl, rfl, rfl⟩, fun h => ?_⟩
  obtain ⟨mem', hrun, hdelivered⟩ := h (single 0 (ascii "data")) (unread [readFour])
    (fits_unread (by decide) fun call hcall => by
      cases hcall
      decide)
  obtain ⟨-, hcount⟩ := hdelivered 0 readFour rfl rfl rfl
  cases hrun
  exact absurd hcount (by decide)

end GlobalCacheAdaptor.CephProxy.ReadOp
