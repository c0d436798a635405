import GlobalCacheAdaptor.CephProxy.Sgl

/-!
# Building a write operation

Eight calls add a data sub-op to a `RadosObjectWriteOp`. Each appends its bytes to the op's one
bufferlist and hands that bufferlist to librados, which captures what it holds then. A bufferlist
counts its bytes in 32 bits, and so does every append; a bufferlist that would grow beyond has no
value here.

`payloads_iff` says when every sub-op carries the bytes of its call: the bufferlist is never
emptied, so only when all calls but the last carry no bytes.
-/

namespace GlobalCacheAdaptor.CephProxy

open Lib

/-! ## The op and its calls -/

/-- `AlignBuffer`. -/
structure AlignBuffer where
  prevAlignBuffer : Option Bytes := none
  prevAlignLen : Nat := 0
  backAlignBuffer : Option Bytes := none
  backAlignLen : Nat := 0

/-- A data sub-op as librados captures it. -/
inductive SubOp where
  | write (off : Nat) (payload : Bytes)
  | writeFull (payload : Bytes)
  | writeSame (off writeLen : Nat) (payload : Bytes)
  | append (payload : Bytes)

/-- The bytes of a sub-op. -/
def SubOp.payload : SubOp → Bytes
  | .write _ payload | .writeFull payload | .writeSame _ _ payload | .append payload => payload

/-- `RadosObjectWriteOp`: the bufferlist and the sub-ops given to librados so far. -/
structure RadosObjectWriteOp where
  bl : Bytes := []
  op : List SubOp := []

/-- What a bufferlist holds after an append. -/
def appendBl (bl data : Bytes) : Option Bytes :=
  if bl.length + data.length < 2 ^ 32 then some (bl ++ data) else none

/-- The bytes that `bl.append(buffer, len)` takes: its length parameter has 32 bits. -/
def cutBuffer (buffer : Bytes) (len : Nat) : Bytes := buffer.take (len % 2 ^ 32)

/-- Append to the bufferlist and give it to librados. -/
def RadosObjectWriteOp.add (writeOp : RadosObjectWriteOp) (data : Bytes)
    (subOp : Bytes → SubOp) : Option RadosObjectWriteOp :=
  -- the bufferlist is never cleared, so it also holds the data of earlier calls
  (appendBl writeOp.bl data).map fun bl => ⟨bl, writeOp.op ++ [subOp bl]⟩

/-- `RadosWriteOpWrite`: a null buffer adds no sub-op. -/
def radosWriteOpWrite (writeOp : RadosObjectWriteOp) (buffer : Option Bytes) (len off : Nat) :
    Option RadosObjectWriteOp :=
  match buffer with
  | none => some writeOp
  | some buffer => writeOp.add (cutBuffer buffer len) (.write off)

/-- The two tests around an append of an align buffer. -/
def alignBytes (buffer : Option Bytes) (len : Nat) : Bytes :=
  match buffer with
  | some buffer => if len ≠ 0 then cutBuffer buffer len else []
  | none => []

/-- `RadosWriteOpWriteSGL`. -/
def radosWriteOpWriteSGL (writeOp : RadosObjectWriteOp) (sgl : List SGL) (len1 off : Nat)
    (alignBuffer : Option AlignBuffer) (isRelease : Bool) : Option RadosObjectWriteOp :=
  let align := alignBuffer.getD {}
  (gather isRelease sgl len1).bind fun data =>
    writeOp.add (alignBytes align.prevAlignBuffer align.prevAlignLen ++ data ++
      alignBytes align.backAlignBuffer align.backAlignLen) (.write off)

/-- `RadosWriteOpWriteFull`. -/
def radosWriteOpWriteFull (writeOp : RadosObjectWriteOp) (buffer : Bytes) (len : Nat) :
    Option RadosObjectWriteOp :=
  writeOp.add (cutBuffer buffer len) .writeFull

/-- `RadosWriteOpWriteFullSGL`. -/
def radosWriteOpWriteFullSGL (writeOp : RadosObjectWriteOp) (sgl : List SGL) (len : Nat)
    (isRelease : Bool) : Option RadosObjectWriteOp :=
  (gather isRelease sgl len).bind fun data => writeOp.add data .writeFull

/-- `RadosWriteOpWriteSame`. -/
def radosWriteOpWriteSame (writeOp : RadosObjectWriteOp) (buffer : Bytes)
    (dataLen writeLen off : Nat) : Option RadosObjectWriteOp :=
  writeOp.add (cutBuffer buffer dataLen) (.writeSame off writeLen)

/-- `RadosWriteOpWriteSameSGL`. -/
def radosWriteOpWriteSameSGL (writeOp : RadosObjectWriteOp) (s : List SGL)
    (dataLen writeLen off : Nat) (isRelease : Bool) : Option RadosObjectWriteOp :=
  (gather isRelease s dataLen).bind fun data => writeOp.add data (.writeSame off writeLen)

/-- `RadosWriteOpAppend`. -/
def radosWriteOpAppend (writeOp : RadosObjectWriteOp) (buffer : Bytes) (len : Nat) :
    Option RadosObjectWriteOp :=
  writeOp.add (cutBuffer buffer len) .append

/-- `RadosWriteOpAppendSGL`. -/
def radosWriteOpAppendSGL (writeOp : RadosObjectWriteOp) (s : List SGL) (len : Nat)
    (isRelease : Bool) : Option RadosObjectWriteOp :=
  (gather isRelease s len).bind fun data => writeOp.add data .append

/-- A call of one of the eight functions. -/
inductive Call where
  | write (buffer : Option Bytes) (len off : Nat)
  | writeSGL (sgl : List SGL) (len1 off : Nat) (alignBuffer : Option AlignBuffer)
      (isRelease : Bool)
  | writeFull (buffer : Bytes) (len : Nat)
  | writeFullSGL (sgl : List SGL) (len : Nat) (isRelease : Bool)
  | writeSame (buffer : Bytes) (dataLen writeLen off : Nat)
  | writeSameSGL (s : List SGL) (dataLen writeLen off : Nat) (isRelease : Bool)
  | append (buffer : Bytes) (len : Nat)
  | appendSGL (s : List SGL) (len : Nat) (isRelease : Bool)

/-- Make a call. -/
def RadosObjectWriteOp.call (writeOp : RadosObjectWriteOp) : Call → Option RadosObjectWriteOp
  | .write buffer len off => radosWriteOpWrite writeOp buffer len off
  | .writeSGL sgl len1 off alignBuffer isRelease =>
      radosWriteOpWriteSGL writeOp sgl len1 off alignBuffer isRelease
  | .writeFull buffer len => radosWriteOpWriteFull writeOp buffer len
  | .writeFullSGL sgl len isRelease => radosWriteOpWriteFullSGL writeOp sgl len isRelease
  | .writeSame buffer dataLen writeLen off =>
      radosWriteOpWriteSame writeOp buffer dataLen writeLen off
  | .writeSameSGL s dataLen writeLen off isRelease =>
      radosWriteOpWriteSameSGL writeOp s dataLen writeLen off isRelease
  | .append buffer len => radosWriteOpAppend writeOp buffer len
  | .appendSGL s len isRelease => radosWriteOpAppendSGL writeOp s len isRelease

/-- Make the calls of a list in order. -/
def buildOp : RadosObjectWriteOp → List Call → Option RadosObjectWriteOp
  | writeOp, [] => some writeOp
  | writeOp, call :: rest => (writeOp.call call).bind fun writeOp => buildOp writeOp rest

/-! ## What a call carries -/

/-- The bytes of a call: its buffer, or its align prefix, the bytes of its chain and its align
suffix; `none` for a write without a buffer. -/
def Call.bytes : Call → Option Bytes
  | .write buffer len _ => buffer.map fun buffer => buffer.take len
  | .writeSGL sgl len1 _ alignBuffer isRelease =>
      let align := alignBuffer.getD {}
      some (((align.prevAlignBuffer.getD []).take align.prevAlignLen) ++
        (contents isRelease (usedEntries sgl)).take len1 ++
        ((align.backAlignBuffer.getD []).take align.backAlignLen))
  | .writeFull buffer len | .append buffer len | .writeSame buffer len _ _ =>
      some (buffer.take len)
  | .writeFullSGL sgl len isRelease | .appendSGL sgl len isRelease
  | .writeSameSGL sgl len _ _ isRelease =>
      some ((contents isRelease (usedEntries sgl)).take len)

/-- The chain is valid and long enough. -/
def ValidSgl (isRelease : Bool) (sgl : List SGL) (len : Nat) : Prop :=
  Valid isRelease (usedEntries sgl) ∧ len ≤ capacity isRelease (usedEntries sgl)

/-- A buffer that is there is long enough. -/
def ValidBuffer (buffer : Option Bytes) (len : Nat) : Prop :=
  ∀ bytes ∈ buffer, len ≤ bytes.length

/-- The buffers and chains of a call are long enough for the lengths it states. -/
def Call.Valid : Call → Prop
  | .write buffer len _ => ValidBuffer buffer len
  | .writeSGL sgl len1 _ alignBuffer isRelease =>
      let align := alignBuffer.getD {}
      ValidSgl isRelease sgl len1 ∧ ValidBuffer align.prevAlignBuffer align.prevAlignLen ∧
        ValidBuffer align.backAlignBuffer align.backAlignLen
  | .writeFull buffer len | .append buffer len | .writeSame buffer len _ _ =>
      ValidBuffer (some buffer) len
  | .writeFullSGL sgl len isRelease | .appendSGL sgl len isRelease
  | .writeSameSGL sgl len _ _ isRelease => ValidSgl isRelease sgl len

/-- The call does nothing, or it appends some data and gives the bufferlist to librados; the data is
the bytes of the call if these number less than 2^32. -/
def Call.Adds (call : Call) (data : Option Bytes) : Prop :=
  (∃ subOp : Bytes → SubOp, (∀ bl, (subOp bl).payload = bl) ∧
    ∀ writeOp : RadosObjectWriteOp, writeOp.call call =
      match data with
      | none => some writeOp
      | some data => writeOp.add data subOp) ∧
  (data = none ↔ call.bytes = none) ∧
  ∀ bytes, call.bytes = some bytes → bytes.length < 2 ^ 32 → data = some bytes

/-- Cutting a length that fits does nothing. -/
theorem cutBuffer_eq {buffer : Bytes} {len : Nat} (h : len < 2 ^ 32) :
    cutBuffer buffer len = buffer.take len := by
  rw [cutBuffer, Nat.mod_eq_of_lt h]

/-- The bytes of an align buffer. -/
theorem alignBytes_eq {buffer : Option Bytes} {len : Nat} (hvalid : ValidBuffer buffer len)
    (h : ((buffer.getD []).take len).length < 2 ^ 32) :
    alignBytes buffer len = (buffer.getD []).take len := by
  cases buffer with
  | none => simp [alignBytes]
  | some bytes =>
      have hlen : len ≤ bytes.length := hvalid bytes rfl
      simp only [Option.getD_some, List.length_take] at h
      by_cases hzero : len = 0
      · simp [alignBytes, hzero]
      · simp [alignBytes, hzero, cutBuffer_eq (show len < 2 ^ 32 from by omega)]

/-- What a call gathers from its chain. -/
theorem gather_of_valid {isRelease : Bool} {sgl : List SGL} {len : Nat}
    (h : ValidSgl isRelease sgl len) :
    gather isRelease sgl len =
        some ((contents isRelease (usedEntries sgl)).take (len % 2 ^ 32)) ∧
      ((contents isRelease (usedEntries sgl)).take len).length = len := by
  refine ⟨gather_eq h.1 h.2, ?_⟩
  rw [List.length_take, length_contents h.1]
  exact Nat.min_eq_left h.2

/-- A call that appends a buffer. -/
theorem adds_buffer {call : Call} (subOp : Bytes → SubOp) {buffer : Bytes} {len : Nat}
    (hvalid : ValidBuffer (some buffer) len) (hpayload : ∀ bl, (subOp bl).payload = bl)
    (hcall : ∀ writeOp : RadosObjectWriteOp,
      writeOp.call call = writeOp.add (cutBuffer buffer len) subOp)
    (hbytes : call.bytes = some (buffer.take len)) :
    call.Adds (some (cutBuffer buffer len)) := by
  refine ⟨⟨subOp, hpayload, hcall⟩, by simp [hbytes], fun bytes hsome hlt => ?_⟩
  obtain rfl : buffer.take len = bytes := Option.some.inj (hbytes.symm.trans hsome)
  have hlen : len ≤ buffer.length := hvalid buffer rfl
  rw [List.length_take] at hlt
  rw [cutBuffer_eq (show len < 2 ^ 32 from by omega)]

/-- A call that appends bytes of a chain. -/
theorem adds_sgl {call : Call} (subOp : Bytes → SubOp) {sgl : List SGL} {len : Nat}
    {isRelease : Bool} (hvalid : ValidSgl isRelease sgl len)
    (hpayload : ∀ bl, (subOp bl).payload = bl)
    (hcall : ∀ writeOp : RadosObjectWriteOp, writeOp.call call =
      (gather isRelease sgl len).bind fun data => writeOp.add data subOp)
    (hbytes : call.bytes = some ((contents isRelease (usedEntries sgl)).take len)) :
    call.Adds (some ((contents isRelease (usedEntries sgl)).take (len % 2 ^ 32))) := by
  obtain ⟨hgather, hlength⟩ := gather_of_valid hvalid
  refine ⟨⟨subOp, hpayload, fun writeOp => ?_⟩, by simp [hbytes], fun bytes hsome hlt => ?_⟩
  · rw [hcall, hgather]
    rfl
  · obtain rfl : (contents isRelease (usedEntries sgl)).take len = bytes :=
      Option.some.inj (hbytes.symm.trans hsome)
    rw [hlength] at hlt
    rw [Nat.mod_eq_of_lt hlt]

/-- `RadosWriteOpWriteSGL` appends its align prefix, the bytes of its chain and its align suffix. -/
theorem adds_writeSGL {sgl : List SGL} {len1 off : Nat} {alignBuffer : Option AlignBuffer}
    {isRelease : Bool} (h : (Call.writeSGL sgl len1 off alignBuffer isRelease).Valid) :
    ∃ data, (Call.writeSGL sgl len1 off alignBuffer isRelease).Adds data := by
  obtain ⟨hsgl, hprev, hback⟩ := h
  obtain ⟨hgather, hlength⟩ := gather_of_valid hsgl
  let align := alignBuffer.getD {}
  refine ⟨some (alignBytes align.prevAlignBuffer align.prevAlignLen ++
    (contents isRelease (usedEntries sgl)).take (len1 % 2 ^ 32) ++
    alignBytes align.backAlignBuffer align.backAlignLen),
    ⟨.write off, fun _ => rfl, fun writeOp => ?_⟩, by simp [Call.bytes],
    fun bytes hsome hlt => ?_⟩
  · simp only [RadosObjectWriteOp.call, radosWriteOpWriteSGL, hgather, Option.bind_some]
    rfl
  · simp only [Call.bytes, Option.some.injEq] at hsome
    subst hsome
    simp only [List.length_append, hlength] at hlt
    rw [alignBytes_eq hprev (by omega), alignBytes_eq hback (by omega),
      Nat.mod_eq_of_lt (show len1 < 2 ^ 32 from by omega)]

/-- Every valid call appends its bytes, if these number less than 2^32. -/
theorem exists_adds {call : Call} (h : call.Valid) : ∃ data, call.Adds data := by
  cases call with
  | write buffer len off =>
      cases buffer with
      | none => exact ⟨none, ⟨.write off, fun _ => rfl, fun _ => rfl⟩, by simp [Call.bytes],
          by simp [Call.bytes]⟩
      | some buffer =>
          exact ⟨_, adds_buffer (.write off) h (fun _ => rfl) (fun _ => rfl) rfl⟩
  | writeSGL sgl len1 off alignBuffer isRelease => exact adds_writeSGL h
  | writeFull buffer len =>
      exact ⟨_, adds_buffer .writeFull h (fun _ => rfl) (fun _ => rfl) rfl⟩
  | writeFullSGL sgl len isRelease =>
      exact ⟨_, adds_sgl .writeFull h (fun _ => rfl) (fun _ => rfl) rfl⟩
  | writeSame buffer dataLen writeLen off =>
      exact ⟨_, adds_buffer (.writeSame off writeLen) h (fun _ => rfl) (fun _ => rfl) rfl⟩
  | writeSameSGL s dataLen writeLen off isRelease =>
      exact ⟨_, adds_sgl (.writeSame off writeLen) h (fun _ => rfl) (fun _ => rfl) rfl⟩
  | append buffer len => exact ⟨_, adds_buffer .append h (fun _ => rfl) (fun _ => rfl) rfl⟩
  | appendSGL s len isRelease =>
      exact ⟨_, adds_sgl .append h (fun _ => rfl) (fun _ => rfl) rfl⟩

/-! ## Payloads -/

/-- The bufferlist after each of a list of appends. -/
def accumulate : Bytes → List Bytes → Option (List Bytes)
  | _, [] => some []
  | bl, data :: rest => (appendBl bl data).bind fun bl => (accumulate bl rest).map (bl :: ·)

/-- Appending data that are the wanted bytes wherever these are few enough gives the wanted bytes
exactly when all are few enough and nothing precedes any of them. -/
theorem accumulate_eq_some_iff (pairs : List (Bytes × Bytes))
    (hpairs : ∀ p ∈ pairs, p.2.length < 2 ^ 32 → p.1 = p.2) (bl : Bytes) :
    accumulate bl (pairs.map Prod.fst) = some (pairs.map Prod.snd) ↔
      (∀ b ∈ pairs.map Prod.snd, b.length < 2 ^ 32) ∧ (pairs = [] ∨ bl = []) ∧
        ∀ b ∈ (pairs.map Prod.snd).dropLast, b = [] := by
  induction pairs generalizing bl with
  | nil => simp [accumulate]
  | cons p rest ih =>
      obtain ⟨data, bytes⟩ := p
      obtain ⟨hhead, hrest⟩ := List.forall_mem_cons.mp hpairs
      have hstep : accumulate bl (((data, bytes) :: rest).map Prod.fst) =
          some (((data, bytes) :: rest).map Prod.snd) ↔
          bl.length + data.length < 2 ^ 32 ∧ bl ++ data = bytes ∧
            accumulate bytes (rest.map Prod.fst) = some (rest.map Prod.snd) := by
        simp only [List.map_cons, accumulate, appendBl]
        split_ifs with hfits
        · simp only [Option.bind_some, Option.map_eq_some_iff, List.cons.injEq, hfits, true_and]
          constructor
          · rintro ⟨tail, htail, rfl, rfl⟩
            exact ⟨rfl, htail⟩
          · rintro ⟨rfl, htail⟩
            exact ⟨_, htail, rfl, rfl⟩
        · simp only [Option.bind_none, reduceCtorEq, hfits, false_and]
      have hlast : (∀ b ∈ (bytes :: rest.map Prod.snd).dropLast, b = []) ↔
          (rest = [] ∨ bytes = []) ∧ ∀ b ∈ (rest.map Prod.snd).dropLast, b = [] := by
        cases rest with
        | nil => simp
        | cons q rest => simp [List.dropLast_cons_of_ne_nil]
      rw [hstep, ih hrest, List.map_cons, List.forall_mem_cons, hlast]
      constructor
      · rintro ⟨hfits, rfl, hlengths, hempty⟩
        have hlt : (bl ++ data).length < 2 ^ 32 := by rwa [List.length_append]
        have hdata : data = bl ++ data := hhead hlt
        exact ⟨⟨hlt, hlengths⟩, .inr (List.self_eq_append_left.mp hdata), hempty⟩
      · rintro ⟨⟨hlt, hlengths⟩, hbl, hempty⟩
        obtain rfl : bl = [] := by simpa using hbl
        obtain rfl : data = bytes := hhead hlt
        exact ⟨by simpa using hlt, rfl, hlengths, hempty⟩

/-- The sub-ops of an operation built from valid calls are what the appends leave. -/
theorem payload_buildOp {calls : List Call} {data : Call → Option Bytes}
    (h : ∀ call ∈ calls, call.Adds (data call)) (writeOp : RadosObjectWriteOp) :
    (buildOp writeOp calls).map (fun result => result.op.map SubOp.payload) =
      (accumulate writeOp.bl (calls.filterMap data)).map
        (writeOp.op.map SubOp.payload ++ ·) := by
  induction calls generalizing writeOp with
  | nil => simp [buildOp, accumulate]
  | cons call rest ih =>
      obtain ⟨⟨⟨subOp, hpayload, hcall⟩, -⟩, hrest⟩ := List.forall_mem_cons.mp h
      rw [buildOp, hcall]
      cases hdata : data call with
      | none =>
          rw [List.filterMap_cons_none hdata]
          exact ih hrest writeOp
      | some bytes =>
          rw [List.filterMap_cons_some hdata]
          simp only [RadosObjectWriteOp.add, accumulate]
          cases happend : appendBl writeOp.bl bytes with
          | none => rfl
          | some bl =>
              simp only [Option.map_some, Option.bind_some]
              rw [ih hrest]
              cases accumulate bl (rest.filterMap data) with
              | none => rfl
              | some tail => simp [hpayload]

/-- The data and the bytes of the calls that have any, in step. -/
theorem exists_pairs {calls : List Call} {data : Call → Option Bytes}
    (h : ∀ call ∈ calls, call.Adds (data call)) :
    ∃ pairs : List (Bytes × Bytes), pairs.map Prod.fst = calls.filterMap data ∧
      pairs.map Prod.snd = calls.filterMap Call.bytes ∧
      ∀ p ∈ pairs, p.2.length < 2 ^ 32 → p.1 = p.2 := by
  induction calls with
  | nil => exact ⟨[], rfl, rfl, by simp⟩
  | cons call rest ih =>
      obtain ⟨⟨-, hnone, hsome⟩, hrest⟩ := List.forall_mem_cons.mp h
      obtain ⟨pairs, hfst, hsnd, hpairs⟩ := ih hrest
      cases hdata : data call with
      | none =>
          refine ⟨pairs, ?_, ?_, hpairs⟩
          · rw [List.filterMap_cons_none hdata, hfst]
          · rw [List.filterMap_cons_none (hnone.mp hdata), hsnd]
      | some bytes =>
          cases hbytes : call.bytes with
          | none =>
              rw [hnone.mpr hbytes] at hdata
              cases hdata
          | some wanted =>
              refine ⟨(bytes, wanted) :: pairs, ?_, ?_, ?_⟩
              · rw [List.filterMap_cons_some hdata, List.map_cons, hfst]
              · rw [List.filterMap_cons_some hbytes, List.map_cons, hsnd]
              · refine List.forall_mem_cons.mpr ⟨fun hlt => ?_, hpairs⟩
                exact Option.some.inj (hdata.symm.trans (hsome wanted hbytes hlt))

/-- Every sub-op given to librados carries the bytes of its call. -/
def Payloads (calls : List Call) : Prop :=
  ∃ writeOp, buildOp {} calls = some writeOp ∧
    writeOp.op.map SubOp.payload = calls.filterMap Call.bytes

/-- The sub-ops of a sequence of valid calls carry the bytes of their calls exactly when every call
has less than 2^32 bytes and every call but the last has none. -/
theorem payloads_iff {calls : List Call} (h : ∀ call ∈ calls, call.Valid) :
    Payloads calls ↔ (∀ bytes ∈ calls.filterMap Call.bytes, bytes.length < 2 ^ 32) ∧
      ∀ bytes ∈ (calls.filterMap Call.bytes).dropLast, bytes = [] := by
  choose! data hdata using fun call hcall => exists_adds (h call hcall)
  obtain ⟨pairs, hfst, hsnd, hpairs⟩ := exists_pairs hdata
  have hbuild := payload_buildOp hdata {}
  simp only [List.map_nil, List.nil_append, Option.map_id'] at hbuild
  have hpayloads : Payloads calls ↔
      accumulate [] (pairs.map Prod.fst) = some (pairs.map Prod.snd) := by
    rw [hfst, hsnd, ← hbuild, Option.map_eq_some_iff]
    rfl
  rw [hpayloads, accumulate_eq_some_iff pairs hpairs [], hsnd]
  simp

/-- A write of no bytes, then one of a chain of two nodes behind an align prefix. -/
def emptyThenSgl : List Call :=
  [.write (some []) 0 0,
    .writeSGL oneThenOne 2 4 (some { prevAlignBuffer := some [2, 3], prevAlignLen := 1 }) false]

/-- Each of the two carries its bytes. -/
theorem payloads_emptyThenSgl : emptyThenSgl.filterMap Call.bytes = [[], [2, 9, 9]] ∧
    Payloads emptyThenSgl := by
  have hempty : (Call.write (some []) 0 0).Valid := fun bytes _ => Nat.zero_le _
  have hsgl : (Call.writeSGL oneThenOne 2 4
      (some { prevAlignBuffer := some [2, 3], prevAlignLen := 1 }) false).Valid := by
    refine ⟨⟨by decide, by decide⟩, fun bytes hbytes => ?_, fun bytes hbytes => ?_⟩
    · cases hbytes
      decide
    · cases hbytes
  have hvalid : ∀ call ∈ emptyThenSgl, call.Valid :=
    List.forall_mem_cons.mpr ⟨hempty, List.forall_mem_cons.mpr ⟨hsgl, by simp⟩⟩
  exact ⟨by decide, (payloads_iff hvalid).mpr ⟨by decide, by decide⟩⟩

/-- Of two writes to one operation the second carries the bytes of the first too. -/
theorem second_write_carries_first :
    (buildOp {} [.write (some (ascii "ab")) 2 0, .write (some (ascii "cd")) 2 8]).map
      (fun writeOp => writeOp.op.map SubOp.payload) = some [ascii "ab", ascii "abcd"] ∧
    ¬Payloads [.write (some (ascii "ab")) 2 0, .write (some (ascii "cd")) 2 8] := by
  refine ⟨by decide, fun h => ?_⟩
  obtain ⟨writeOp, hbuild, hpayloads⟩ := h
  cases hbuild
  exact absurd hpayloads (by decide)

end GlobalCacheAdaptor.CephProxy
