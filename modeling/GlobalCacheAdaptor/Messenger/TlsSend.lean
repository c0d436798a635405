import GlobalCacheAdaptor.Lib.Ledger
import GlobalCacheAdaptor.Lib.Run
import GlobalCacheAdaptor.Lib.Wire
import Mathlib.Data.List.Flatten

/-!
# Sending over TLS

`send` of the TLS socket hands the buffers of a list to `do_sendmsg` in chunks of `IOV_MAX`, which
copies a chunk together and writes it with as many calls of `SSL_write` as it takes. How these
calls end is given as a list of outcomes. `send_intact_iff` says when the bytes accepted during a
call are those that its result announces, and what follows for a queue of data.
-/

namespace GlobalCacheAdaptor.Messenger

open Lib

/-! ## Outcomes of `SSL_write` -/

/-- `EINTR`. -/
def eintr : Nat := 4

/-- `EAGAIN`. -/
def eagain : Nat := 11

/-- What `SSL_get_error` returns after a failed call. -/
inductive SslError where
  | wantRead | wantWrite | zeroReturn | syscall | ssl | other
  deriving DecidableEq, Repr

/-- How one call of `SSL_write` ends: `r` bytes accepted, or a result of at most 0 with the values
of `errno` and `SSL_get_error` after it. -/
inductive WriteOutcome where
  | wrote (r : Nat)
  | failed (errno : Nat) (sslErr : SslError)
  deriving DecidableEq, Repr

/-- The outcome that `do_sendmsg` answers with what it has sent so far. -/
def Waits (errno : Nat) (sslErr : SslError) : Prop :=
  errno = eagain ∨ sslErr = .wantRead ∨ sslErr = .wantWrite

instance (errno : Nat) (sslErr : SslError) : Decidable (Waits errno sslErr) :=
  inferInstanceAs (Decidable (_ ∨ _))

/-- What a sending function returns with: its result, the bytes that `SSL_write` accepted while it
ran, and the outcomes it did not need. -/
structure Sent where
  ret : Int
  accepted : Bytes := []
  outcomes : List WriteOutcome

/-- Bytes accepted earlier in the same call. -/
def Sent.after (sent : Sent) (bytes : Bytes) : Sent :=
  { sent with accepted := bytes ++ sent.accepted }

/-! ## `do_sendmsg` -/

/-- The loop of `do_sendmsg`: `cur` is what remains of the copied chunk. It is `none` if the
outcomes end before the loop does, or if one accepts no byte or more than it was given, which
`SSL_write` never does. -/
def writeLoop : List WriteOutcome → Bytes → Nat → Option Sent
  | [], cur, sent => if cur = [] then some { ret := sent, outcomes := [] } else none
  | outcome :: outcomes, cur, sent =>
      if cur = [] then some { ret := sent, outcomes := outcome :: outcomes }
      else
        match outcome with
        | .wrote r =>
            if 1 ≤ r ∧ r ≤ cur.length then
              (writeLoop outcomes (cur.drop r) (sent + r)).map fun s => s.after (cur.take r)
            else none
        | .failed errno sslErr =>
            -- bytes sent before an error that is no wait are not reported
            if errno = eintr then writeLoop outcomes cur sent
            else if Waits errno sslErr then some { ret := sent, outcomes := outcomes }
            else some { ret := -errno, outcomes := outcomes }

/-- `do_sendmsg`; the number of bytes to write is an `int`. -/
def doSendmsg (iov : List Bytes) (outcomes : List WriteOutcome) : Option Sent :=
  let remain := (BitVec.ofNat 32 iov.flatten.length).toInt
  writeLoop outcomes (iov.flatten.take remain.toNat) 0

/-! ## `send` -/

/-- `IOV_MAX`. -/
def iovMax : Nat := 1024

/-- `RETRY_TIME`. -/
def retryTime : Nat := 10000

/-- The fields of the socket that a handshake reads and writes. `retry_count` is an `int`, which
2^31 calls without a handshake would overflow; here it does not. -/
structure TlsSocket where
  isHandShaked : Bool
  retryCount : Nat := 0

/-- `try_handShaked`; `handshake` is what `SSL_accept` or `SSL_connect` returns. -/
def tryHandShaked (socket : TlsSocket) (handshake : Int) : Int × TlsSocket :=
  if socket.isHandShaked then (1, socket)
  else
    let socket' := { socket with retryCount := socket.retryCount + 1 }
    if socket.retryCount > retryTime then (-1, socket')
    else if handshake ≤ 0 then (0, socket')
    else (1, { socket' with isHandShaked := true })

/-- The loop of `send` over the chunks of `IOV_MAX` buffers; it goes on while whole chunks are
sent. -/
def chunkLoop (bufs : List Bytes) (outcomes : List WriteOutcome) (sentBytes : Nat) :
    Option Sent :=
  if bufs = [] then some { ret := sentBytes, outcomes := outcomes }
  else
    match doSendmsg (bufs.take iovMax) outcomes with
    | none => none
    | some s =>
        let msglen := BitVec.ofNat 32 (bufs.take iovMax).flatten.length
        -- a chunk that is not sent whole ends the loop; the result is compared as `unsigned`
        if s.ret < 0 then some s
        else if BitVec.ofInt 32 s.ret < msglen then some { s with ret := sentBytes + s.ret }
        else
          (chunkLoop (bufs.drop iovMax) s.outcomes (sentBytes + s.ret.toNat)).map fun t =>
            t.after s.accepted
termination_by bufs.length
decreasing_by
  rw [List.length_drop]
  have hpos := List.length_pos_iff.mpr (by assumption)
  unfold iovMax
  omega

/-- The buffers from byte `off` on, as `bufferlist::splice` claims them: buffers before it are
skipped, and the buffer it falls into is cut. -/
def spliceFrom : Nat → List Bytes → List Bytes
  | _, [] => []
  | off, buf :: bufs =>
      if buf.length ≤ off then spliceFrom (off - buf.length) bufs else buf.drop off :: bufs

/-- The list after `sentBytes` bytes of it were sent. -/
def advanceList (sentBytes : Nat) (bl : List Bytes) : List Bytes :=
  if sentBytes = 0 then bl
  else if sentBytes < bl.flatten.length then spliceFrom sentBytes bl
  else []

/-- What a call of `send` leaves: its result, the list, the socket, and the bytes accepted. -/
structure SendResult where
  ret : Int
  bl : List Bytes
  socket : TlsSocket
  accepted : Bytes

/-- `send` of the TLS socket. -/
def send (socket : TlsSocket) (handshake : Int) (bl : List Bytes) (outcomes : List WriteOutcome) :
    Option SendResult :=
  let (tryRet, socket) := tryHandShaked socket handshake
  if tryRet = -1 then some { ret := -1, bl := bl, socket := socket, accepted := [] }
  else if tryRet = 0 then some { ret := 0, bl := bl, socket := socket, accepted := [] }
  else
    match chunkLoop bl outcomes 0 with
    | none => none
    | some s =>
        if s.ret < 0 then
          some { ret := s.ret, bl := bl, socket := socket, accepted := s.accepted }
        else
          some
            { ret := s.ret
              bl := advanceList s.ret.toNat bl
              socket := socket
              accepted := s.accepted }

/-! ## What a sequence of writes accepts -/

/-- The bytes that `SSL_write` accepted. -/
def WriteOutcome.accepts : WriteOutcome → Nat
  | .wrote r => r
  | .failed _ _ => 0

/-- The loop calls `SSL_write` again, if bytes remain. -/
def WriteOutcome.GoesOn : WriteOutcome → Prop
  | .wrote _ => True
  | .failed errno _ => errno = eintr

/-- `Stopped size outcomes n stop rest` says that writing `size` bytes with these outcomes accepts
`n` bytes and stops in front of `rest`: `stop` is `none` if all bytes were accepted, and otherwise
the failure it stopped at. -/
inductive Stopped (size : Nat) (outcomes : List WriteOutcome) :
    Nat → Option (Nat × SslError) → List WriteOutcome → Prop where
  | finished (used rest : List WriteOutcome) :
      (∀ outcome ∈ used, outcome.GoesOn) → total WriteOutcome.accepts used = size →
      outcomes = used ++ rest → Stopped size outcomes size none rest
  | failed (used rest : List WriteOutcome) (errno : Nat) (sslErr : SslError) :
      (∀ outcome ∈ used, outcome.GoesOn) → total WriteOutcome.accepts used < size →
      errno ≠ eintr → outcomes = used ++ .failed errno sslErr :: rest →
      Stopped size outcomes (total WriteOutcome.accepts used) (some (errno, sslErr)) rest

section

variable {size n : Nat} {outcomes rest : List WriteOutcome} {stop : Option (Nat × SslError)}

/-- No more bytes are accepted than there are. -/
theorem Stopped.le (h : Stopped size outcomes n stop rest) : n ≤ size := by
  cases h with
  | finished => exact Nat.le_refl _
  | failed used rest errno sslErr hgo hlt => exact Nat.le_of_lt hlt

/-- Writing that does not fail accepts everything. -/
theorem Stopped.finished_eq (h : Stopped size outcomes n none rest) : n = size := by
  cases h with
  | finished => rfl

/-- Writing that fails leaves something. -/
theorem Stopped.lt_of_failed {failure : Nat × SslError}
    (h : Stopped size outcomes n (some failure) rest) : n < size := by
  cases h with
  | failed used rest errno sslErr hused hlt => exact hlt

/-- An outcome that goes on, in front of a sequence of writes. -/
theorem Stopped.cons {outcome : WriteOutcome} (hgo : outcome.GoesOn)
    (h : Stopped size outcomes n stop rest) :
    Stopped (outcome.accepts + size) (outcome :: outcomes) (outcome.accepts + n) stop rest := by
  cases h with
  | finished used rest hused hsum hout =>
      refine .finished (outcome :: used) rest (List.forall_mem_cons.mpr ⟨hgo, hused⟩) ?_ ?_
      · rw [total_cons, hsum]
      · rw [hout, List.cons_append]
  | failed used rest errno sslErr hused hlt herrno hout =>
      rw [← total_cons]
      refine .failed (outcome :: used) rest errno sslErr
        (List.forall_mem_cons.mpr ⟨hgo, hused⟩) ?_ herrno ?_
      · rw [total_cons]
        omega
      · rw [hout, List.cons_append]

/-- A failure stops the writing of more bytes in the same place. -/
theorem Stopped.widen {failure : Nat × SslError} (more : Nat)
    (h : Stopped size outcomes n (some failure) rest) :
    Stopped (size + more) outcomes n (some failure) rest := by
  cases h with
  | failed used rest errno sslErr hused hlt herrno hout =>
      exact .failed used rest errno sslErr hused (by omega) herrno hout

/-- Writing goes on with the next bytes where all bytes were accepted. -/
theorem Stopped.append {size' n' : Nat} {middle : List WriteOutcome}
    (h : Stopped size outcomes n none middle) (h' : Stopped size' middle n' stop rest) :
    Stopped (size + size') outcomes (n + n') stop rest := by
  cases h with
  | finished used middle hused hsum hout =>
      cases h' with
      | finished used' rest hused' hsum' hout' =>
          refine .finished (used ++ used') rest (List.forall_mem_append.mpr ⟨hused, hused'⟩) ?_ ?_
          · rw [total_append, hsum, hsum']
          · rw [hout, hout', List.append_assoc]
      | failed used' rest errno sslErr hused' hlt herrno hout' =>
          rw [← hsum, ← total_append]
          refine .failed (used ++ used') rest errno sslErr
            (List.forall_mem_append.mpr ⟨hused, hused'⟩) ?_ herrno ?_
          · rw [total_append]
            omega
          · rw [hout, hout', List.append_assoc]

/-- Writing nothing stops at once. -/
theorem Stopped.zero (outcomes : List WriteOutcome) : Stopped 0 outcomes 0 none outcomes :=
  .finished [] outcomes (by simp) rfl rfl

end

/-- What `do_sendmsg` returns when it has sent `n` bytes and stops. -/
def stopResult (n : Nat) : Option (Nat × SslError) → Int
  | none => n
  | some (errno, sslErr) => if Waits errno sslErr then n else -errno

/-- The loop of `do_sendmsg` accepts a prefix of what remains. -/
theorem writeLoop_stopped {outcomes : List WriteOutcome} {cur : Bytes} {sent : Nat} {s : Sent}
    (h : writeLoop outcomes cur sent = some s) :
    ∃ n stop, Stopped cur.length outcomes n stop s.outcomes ∧ s.accepted = cur.take n ∧
      s.ret = stopResult (sent + n) stop := by
  induction outcomes generalizing cur sent s with
  | nil =>
      rw [writeLoop] at h
      split_ifs at h with hcur
      cases h
      rw [hcur]
      exact ⟨0, none, .zero [], rfl, rfl⟩
  | cons outcome outcomes ih =>
      unfold writeLoop at h
      by_cases hcur : cur = []
      · rw [if_pos hcur] at h
        cases h
        rw [hcur]
        exact ⟨0, none, .zero _, rfl, rfl⟩
      · rw [if_neg hcur] at h
        cases outcome with
        | wrote r =>
            simp only at h
            split_ifs at h with hr
            obtain ⟨t, ht, rfl⟩ := Option.map_eq_some_iff.mp h
            obtain ⟨n, stop, hstop, haccepted, hret⟩ := ih ht
            refine ⟨r + n, stop, ?_, ?_, ?_⟩
            · have hlen : cur.length = r + (cur.drop r).length := by
                rw [List.length_drop]
                omega
              rw [hlen]
              exact hstop.cons (show (WriteOutcome.wrote r).GoesOn from trivial)
            · show cur.take r ++ t.accepted = cur.take (r + n)
              rw [haccepted, List.take_add]
            · show t.ret = _
              rw [hret, Nat.add_assoc]
        | failed errno sslErr =>
            simp only at h
            split_ifs at h with hintr hwaits
            · obtain ⟨n, stop, hstop, haccepted, hret⟩ := ih h
              refine ⟨n, stop, ?_, haccepted, hret⟩
              have hcons := hstop.cons (show (WriteOutcome.failed errno sslErr).GoesOn from hintr)
              simpa [WriteOutcome.accepts] using hcons
            · cases h
              refine ⟨0, some (errno, sslErr), ?_, rfl, ?_⟩
              · exact .failed [] outcomes errno sslErr (by simp)
                  (List.length_pos_iff.mpr hcur) hintr rfl
              · rw [stopResult, if_pos hwaits]
                rfl
            · cases h
              refine ⟨0, some (errno, sslErr), ?_, rfl, ?_⟩
              · exact .failed [] outcomes errno sslErr (by simp)
                  (List.length_pos_iff.mpr hcur) hintr rfl
              · rw [stopResult, if_neg hwaits]

/-! ## Chunks -/

/-- The number of bytes in front of chunk `k`. -/
def chunkStart (bufs : List Bytes) (k : Nat) : Nat := (bufs.take (k * iovMax)).flatten.length

/-- Every chunk has less than 2 GiB. -/
def ChunksFit (bufs : List Bytes) : Prop :=
  ∀ k, ((bufs.drop (k * iovMax)).take iovMax).flatten.length < 2 ^ 31

/-- The chunks after the first `j` start behind those. -/
theorem chunkStart_add (bufs : List Bytes) (j k : Nat) :
    chunkStart bufs (j + k) = chunkStart bufs j + chunkStart (bufs.drop (j * iovMax)) k := by
  unfold chunkStart
  rw [Nat.add_mul, List.take_add, List.flatten_append, List.length_append]

/-- The first chunk starts at byte 0. -/
theorem chunkStart_zero (bufs : List Bytes) : chunkStart bufs 0 = 0 := by
  rw [chunkStart, Nat.zero_mul]
  rfl

/-- The chunks after the first start behind it. -/
theorem chunkStart_succ (bufs : List Bytes) (k : Nat) :
    chunkStart bufs (k + 1) =
      (bufs.take iovMax).flatten.length + chunkStart (bufs.drop iovMax) k := by
  rw [Nat.add_comm k 1, chunkStart_add, Nat.one_mul, chunkStart, Nat.one_mul]

/-- Later chunks start later. -/
theorem chunkStart_mono (bufs : List Bytes) {j k : Nat} (h : j ≤ k) :
    chunkStart bufs j ≤ chunkStart bufs k := by
  obtain ⟨d, rfl⟩ := Nat.exists_eq_add_of_le h
  rw [chunkStart_add]
  omega

/-- The bytes of the list are those of the first chunk and those of the others. -/
theorem flatten_chunk (bufs : List Bytes) :
    bufs.flatten = (bufs.take iovMax).flatten ++ (bufs.drop iovMax).flatten := by
  rw [← List.flatten_append, List.take_append_drop]

/-- The chunks of the rest fit. -/
theorem ChunksFit.drop {bufs : List Bytes} (h : ChunksFit bufs) :
    ChunksFit (bufs.drop iovMax) := by
  intro k
  have hk := h (k + 1)
  rwa [Nat.succ_mul, Nat.add_comm (k * iovMax), ← List.drop_drop] at hk

/-- The first chunk fits. -/
theorem ChunksFit.head {bufs : List Bytes} (h : ChunksFit bufs) :
    (bufs.take iovMax).flatten.length < 2 ^ 31 := by
  have hzero := h 0
  rwa [Nat.zero_mul, List.drop_zero] at hzero

/-- A chunk that fits is written whole. -/
theorem doSendmsg_of_fit {iov : List Bytes} (h : iov.flatten.length < 2 ^ 31)
    (outcomes : List WriteOutcome) :
    doSendmsg iov outcomes = writeLoop outcomes iov.flatten 0 := by
  have hremain : (BitVec.ofNat 32 iov.flatten.length).toInt = iov.flatten.length := by
    have hval : (BitVec.ofNat 32 iov.flatten.length).toNat = iov.flatten.length := by
      rw [BitVec.toNat_ofNat]
      omega
    rw [BitVec.toInt_eq_toNat_of_lt (by omega), hval]
  show writeLoop outcomes (iov.flatten.take (BitVec.ofNat 32 iov.flatten.length).toInt.toNat) 0 = _
  rw [hremain, Int.toNat_natCast, List.take_length]

/-- The comparison of a result with the length of a chunk that fits. -/
theorem ofInt_lt_msglen {r : Int} {len : Nat} (hr : 0 ≤ r) (hle : r ≤ len) (hlen : len < 2 ^ 31) :
    BitVec.ofInt 32 r < BitVec.ofNat 32 len ↔ r < len := by
  obtain ⟨n, rfl⟩ := Int.eq_ofNat_of_zero_le hr
  rw [BitVec.ofInt_natCast, BitVec.lt_def, BitVec.toNat_ofNat, BitVec.toNat_ofNat]
  omega

/-- What the chunk loop returns when `n` bytes were accepted and it stops in a chunk that starts at
byte `start`: a failure with `errno` 0 counts as a chunk of which nothing was sent. -/
def chunkResult (sentBytes start n : Nat) : Option (Nat × SslError) → Int
  | none => (sentBytes + n : Nat)
  | some (errno, sslErr) =>
      if Waits errno sslErr then (sentBytes + n : Nat)
      else if errno = 0 then (sentBytes + start : Nat)
      else -errno

/-- `ChunkSpec bufs outcomes sentBytes s` says how the chunk loop ends: it accepts a prefix of the
list and stops in chunk `k`, or has sent everything. -/
def ChunkSpec (bufs : List Bytes) (outcomes : List WriteOutcome) (sentBytes : Nat) (s : Sent) :
    Prop :=
  ∃ n stop k, Stopped bufs.flatten.length outcomes n stop s.outcomes ∧
    s.accepted = bufs.flatten.take n ∧ chunkStart bufs k ≤ n ∧
    (stop.isSome → n < chunkStart bufs (k + 1)) ∧
    s.ret = chunkResult sentBytes (chunkStart bufs k) n stop

/-- A failure in the first chunk ends the loop there. -/
theorem chunkSpec_of_failed {bufs : List Bytes} {outcomes : List WriteOutcome} {sentBytes n : Nat}
    {failure : Nat × SslError} {s : Sent}
    (hstop : Stopped (bufs.take iovMax).flatten.length outcomes n (some failure) s.outcomes)
    (haccepted : s.accepted = (bufs.take iovMax).flatten.take n)
    (hret : s.ret = chunkResult sentBytes 0 n (some failure)) :
    ChunkSpec bufs outcomes sentBytes s := by
  have hlt := hstop.lt_of_failed
  refine ⟨n, some failure, 0, ?_, ?_, ?_, ?_, ?_⟩
  · rw [flatten_chunk bufs, List.length_append]
    exact hstop.widen _
  · rw [flatten_chunk bufs, List.take_append_of_le_length (Nat.le_of_lt hlt), haccepted]
  · rw [chunkStart_zero]
    exact Nat.zero_le n
  · intro _
    rw [chunkStart_succ]
    omega
  · rw [chunkStart_zero, hret]

/-- A whole chunk, and then the loop on the rest. -/
theorem chunkSpec_of_whole {bufs : List Bytes} {outcomes middle : List WriteOutcome}
    {sentBytes n : Nat} {t : Sent}
    (hstop : Stopped (bufs.take iovMax).flatten.length outcomes n none middle)
    (hrest : ChunkSpec (bufs.drop iovMax) middle (sentBytes + n) t) :
    ChunkSpec bufs outcomes sentBytes (t.after ((bufs.take iovMax).flatten.take n)) := by
  obtain ⟨n', stop, k, hstop', haccepted, hstart, hnext, hret⟩ := hrest
  have hn := hstop.finished_eq
  refine ⟨n + n', stop, k + 1, ?_, ?_, ?_, ?_, ?_⟩
  · rw [flatten_chunk bufs, List.length_append]
    exact hstop.append hstop'
  · show (bufs.take iovMax).flatten.take n ++ t.accepted = _
    rw [haccepted, flatten_chunk bufs, hn, List.take_length, List.take_length_add_append]
  · rw [chunkStart_succ, hn]
    omega
  · intro hsome
    have hlt := hnext hsome
    rw [chunkStart_succ, hn]
    omega
  · show t.ret = _
    rw [hret, chunkStart_succ, ← hn]
    unfold chunkResult
    split <;> simp only [Nat.add_assoc]

/-- The loop ends with a chunk in which writing failed. -/
theorem round_of_failed {len n sentBytes errno : Nat} {sslErr : SslError} {t s : Sent}
    {next : Option Sent} (hlt : n < len) (hlen : len < 2 ^ 31)
    (hret : t.ret = stopResult n (some (errno, sslErr)))
    (h : (if t.ret < 0 then some t
      else if BitVec.ofInt 32 t.ret < BitVec.ofNat 32 len then
        some { t with ret := sentBytes + t.ret }
      else next) = some s) :
    s.outcomes = t.outcomes ∧ s.accepted = t.accepted ∧
      s.ret = chunkResult sentBytes 0 n (some (errno, sslErr)) := by
  by_cases hwaits : Waits errno sslErr
  · have hretn : t.ret = n := by rw [hret, stopResult, if_pos hwaits]
    have hcmp := ofInt_lt_msglen (show 0 ≤ t.ret by omega) (by omega) hlen
    rw [if_neg (by omega), if_pos (hcmp.mpr (by omega))] at h
    cases h
    refine ⟨rfl, rfl, ?_⟩
    show sentBytes + t.ret = _
    rw [hretn, chunkResult, if_pos hwaits]
    omega
  · have hretn : t.ret = -errno := by rw [hret, stopResult, if_neg hwaits]
    by_cases herrno : errno = 0
    · have hcmp := ofInt_lt_msglen (show 0 ≤ t.ret by omega) (by omega) hlen
      rw [if_neg (by omega), if_pos (hcmp.mpr (by omega))] at h
      cases h
      refine ⟨rfl, rfl, ?_⟩
      show sentBytes + t.ret = _
      rw [hretn, chunkResult, if_neg hwaits, if_pos herrno, herrno]
      omega
    · rw [if_pos (by omega)] at h
      cases h
      refine ⟨rfl, rfl, ?_⟩
      rw [hretn, chunkResult, if_neg hwaits, if_neg herrno]

/-- The loop goes on after a chunk that was sent whole. -/
theorem round_of_whole {len : Nat} {t : Sent} {partly next : Option Sent} (hlen : len < 2 ^ 31)
    (hret : t.ret = len) :
    (if t.ret < 0 then some t
      else if BitVec.ofInt 32 t.ret < BitVec.ofNat 32 len then partly else next) = next := by
  have hcmp := ofInt_lt_msglen (show 0 ≤ t.ret by omega) (by omega) hlen
  rw [if_neg (by omega), if_neg (by rw [hcmp]; omega)]

/-- The chunk loop ends as specified. -/
theorem chunkLoop_spec {bufs : List Bytes} {outcomes : List WriteOutcome} {sentBytes : Nat}
    {s : Sent} (hfit : ChunksFit bufs) (h : chunkLoop bufs outcomes sentBytes = some s) :
    ChunkSpec bufs outcomes sentBytes s := by
  -- the rest of the list after a chunk is shorter, since the list is not empty
  induction hsize : bufs.length using Nat.strongRecOn generalizing bufs outcomes sentBytes s with
  | ind size ih =>
      rw [chunkLoop.eq_def] at h
      by_cases hbufs : bufs = []
      · rw [if_pos hbufs] at h
        cases h
        rw [hbufs]
        exact ⟨0, none, 0, .zero _, rfl, Nat.le_refl _, by simp, rfl⟩
      · rw [if_neg hbufs, doSendmsg_of_fit hfit.head] at h
        cases hwrite : writeLoop outcomes (bufs.take iovMax).flatten 0 with
        | none =>
            rw [hwrite] at h
            cases h
        | some t =>
            simp only [hwrite] at h
            obtain ⟨n, stop, hstop, haccepted, hret⟩ := writeLoop_stopped hwrite
            rw [Nat.zero_add] at hret
            cases stop with
            | none =>
                have hretn : t.ret = n := hret
                rw [round_of_whole hfit.head (by rw [hretn, hstop.finished_eq])] at h
                obtain ⟨u, hu, rfl⟩ := Option.map_eq_some_iff.mp h
                rw [hretn, Int.toNat_natCast] at hu
                rw [haccepted]
                refine chunkSpec_of_whole hstop (ih _ ?_ hfit.drop hu rfl)
                have hpos := List.length_pos_iff.mpr hbufs
                rw [List.length_drop, iovMax]
                omega
            | some failure =>
                obtain ⟨houtcomes, hsame, hresult⟩ :=
                  round_of_failed hstop.lt_of_failed hfit.head hret h
                rw [← houtcomes] at hstop
                rw [← hsame] at haccepted
                exact chunkSpec_of_failed hstop haccepted hresult

/-! ## Where writing stops -/

/-- A list has at most one first element that fails a test. -/
theorem append_cons_unique {α : Type} {p : α → Prop} {u v r r' : List α} {a b : α}
    (hu : ∀ x ∈ u, p x) (hv : ∀ x ∈ v, p x) (ha : ¬ p a) (hb : ¬ p b)
    (h : u ++ a :: r = v ++ b :: r') : u = v ∧ a = b := by
  induction u generalizing v with
  | nil =>
      cases v with
      | nil => exact ⟨rfl, (List.cons.inj h).1⟩
      | cons y v =>
          obtain ⟨rfl, -⟩ := List.cons.inj h
          exact absurd (hv a List.mem_cons_self) ha
  | cons x u ih =>
      rw [List.forall_mem_cons] at hu
      cases v with
      | nil =>
          obtain ⟨rfl, -⟩ := List.cons.inj h
          exact absurd hu.1 hb
      | cons y v =>
          rw [List.forall_mem_cons] at hv
          obtain ⟨rfl, htail⟩ := List.cons.inj h
          obtain ⟨rfl, rfl⟩ := ih hu.2 hv.2 htail
          exact ⟨rfl, rfl⟩

/-- A failure that stops the writing does not go on. -/
theorem not_goesOn_failed {errno : Nat} (h : errno ≠ eintr) (sslErr : SslError) :
    ¬ (WriteOutcome.failed errno sslErr).GoesOn := h

/-- Writing that is finished has not stopped at a failure. -/
theorem Stopped.not_finished_failed {size m n : Nat} {outcomes rest rest' : List WriteOutcome}
    {failure : Nat × SslError} (h : Stopped size outcomes m none rest)
    (h' : Stopped size outcomes n (some failure) rest') : False := by
  cases h with
  | finished used rest hused hsum hout =>
      cases h' with
      | failed used' rest' errno sslErr hused' hlt herrno hout' =>
          obtain ⟨more, happ⟩ | ⟨more, happ⟩ :=
            List.append_eq_append_iff.mp (hout.symm.trans hout')
          · have hle : total WriteOutcome.accepts used' =
                total WriteOutcome.accepts used + total WriteOutcome.accepts more := by
              rw [happ.1, total_append]
            omega
          · cases more with
            | nil =>
                rw [List.append_nil] at happ
                rw [happ.1] at hsum
                omega
            | cons outcome more =>
                obtain ⟨rfl, -⟩ := List.cons.inj happ.2
                refine not_goesOn_failed herrno sslErr (hused _ ?_)
                rw [happ.1]
                exact List.mem_append_right used' List.mem_cons_self

/-- Writing stops in one place only. -/
theorem Stopped.unique {size m n : Nat} {outcomes rest rest' : List WriteOutcome}
    {stop stop' : Option (Nat × SslError)} (h : Stopped size outcomes m stop rest)
    (h' : Stopped size outcomes n stop' rest') : m = n ∧ stop = stop' := by
  cases h with
  | finished used rest hused hsum hout =>
      cases h' with
      | finished => exact ⟨rfl, rfl⟩
      | failed used' rest' errno sslErr hused' hlt herrno hout' =>
          exact ((Stopped.finished used rest hused hsum hout).not_finished_failed
            (.failed used' rest' errno sslErr hused' hlt herrno hout')).elim
  | failed used rest errno sslErr hused hlt herrno hout =>
      cases h' with
      | finished used' rest' hused' hsum hout' =>
          exact ((Stopped.finished used' rest' hused' hsum hout').not_finished_failed
            (.failed used rest errno sslErr hused hlt herrno hout)).elim
      | failed used' rest' errno' sslErr' hused' hlt' herrno' hout' =>
          obtain ⟨rfl, hfail⟩ := append_cons_unique hused hused'
            (not_goesOn_failed herrno sslErr) (not_goesOn_failed herrno' sslErr')
            (hout.symm.trans hout')
          cases hfail
          exact ⟨rfl, rfl⟩

/-! ## One call -/

/-- What is claimed from byte `off` on is the rest of the list. -/
theorem flatten_spliceFrom (off : Nat) (bl : List Bytes) :
    (spliceFrom off bl).flatten = bl.flatten.drop off := by
  induction bl generalizing off with
  | nil => rw [spliceFrom, List.flatten_nil, List.drop_nil]
  | cons buf bufs ih =>
      rw [spliceFrom, List.flatten_cons]
      split_ifs with hlen
      · rw [ih, List.drop_append, List.drop_eq_nil_of_le hlen, List.nil_append]
      · rw [List.flatten_cons, List.drop_append_of_le_length (by omega)]

/-- The list after a call is the rest of the list. -/
theorem flatten_advanceList (sentBytes : Nat) (bl : List Bytes) :
    (advanceList sentBytes bl).flatten = bl.flatten.drop sentBytes := by
  unfold advanceList
  split_ifs with hzero hlt
  · rw [hzero, List.drop_zero]
  · exact flatten_spliceFrom sentBytes bl
  · rw [List.drop_eq_nil_of_le (by omega), List.flatten_nil]

/-- A call that returns at least 0 has sent what it says: the bytes accepted are the first ones of
the list, as many as its result, and the list is what follows them. -/
def KeepsStream (bl : List Bytes) (result : SendResult) : Prop :=
  0 ≤ result.ret →
    result.accepted = bl.flatten.take result.ret.toNat ∧
      result.bl.flatten = bl.flatten.drop result.ret.toNat

/-- Writing the list does not stop, inside a chunk, at an error that is no `EAGAIN` and no want of
TLS and has `errno` 0. -/
def StopsClean (bl : List Bytes) (outcomes : List WriteOutcome) : Prop :=
  ∀ n sslErr rest, Stopped bl.flatten.length outcomes n (some (0, sslErr)) rest →
    ¬ Waits 0 sslErr → ∃ k, n = chunkStart bl k

/-- The call writes nothing because the handshake is not done, or its writing stops clean. -/
def SendClean (socket : TlsSocket) (handshake : Int) (bl : List Bytes)
    (outcomes : List WriteOutcome) : Prop :=
  (tryHandShaked socket handshake).1 = 1 → StopsClean bl outcomes

/-- What the chunk loop accepts is what its result says, exactly if the writing stops clean. -/
theorem chunkSpec_keeps_iff {bl : List Bytes} {outcomes : List WriteOutcome} {s : Sent}
    (h : ChunkSpec bl outcomes 0 s) :
    (0 ≤ s.ret → s.accepted = bl.flatten.take s.ret.toNat) ↔ StopsClean bl outcomes := by
  obtain ⟨n, stop, k, hstop, haccepted, hstart, hnext, hret⟩ := h
  have hle := hstop.le
  cases stop with
  | none =>
      have hretn : s.ret = n := by rw [hret, chunkResult, Nat.zero_add]
      refine iff_of_true (fun _ => ?_) ?_
      · rw [haccepted, hretn, Int.toNat_natCast]
      · intro m sslErr rest hfailed
        exact (hstop.not_finished_failed hfailed).elim
  | some failure =>
      obtain ⟨errno, sslErr⟩ := failure
      by_cases hwaits : Waits errno sslErr
      · have hretn : s.ret = n := by rw [hret, chunkResult, if_pos hwaits, Nat.zero_add]
        refine iff_of_true (fun _ => ?_) ?_
        · rw [haccepted, hretn, Int.toNat_natCast]
        · intro m sslErr' rest hfailed hnot
          obtain ⟨-, hsame⟩ := hstop.unique hfailed
          cases hsame
          exact absurd hwaits hnot
      · by_cases herrno : errno = 0
        · -- the call reports the start of the chunk, whatever it has sent of the chunk
          subst herrno
          have hretn : s.ret = chunkStart bl k := by
            rw [hret, chunkResult, if_neg hwaits, if_pos rfl, Nat.zero_add]
          rw [haccepted, hretn, Int.toNat_natCast]
          constructor
          · intro htake m sslErr' rest hfailed _
            obtain ⟨rfl, -⟩ := hstop.unique hfailed
            have hlen := congrArg List.length (htake (Int.natCast_nonneg _))
            rw [List.length_take, List.length_take] at hlen
            exact ⟨k, by omega⟩
          · intro hclean _
            obtain ⟨j, hj⟩ := hclean n sslErr s.outcomes hstop hwaits
            have hlt := hnext rfl
            have hjk : j ≤ k := by
              by_contra hgt
              have hmono := chunkStart_mono bl (show k + 1 ≤ j by omega)
              omega
            have hmono := chunkStart_mono bl hjk
            rw [show n = chunkStart bl k by omega]
        · have hretn : s.ret = -errno := by
            rw [hret, chunkResult, if_neg hwaits, if_neg herrno]
          refine iff_of_true (fun hpos => ?_) ?_
          · omega
          · intro m sslErr' rest hfailed _
            obtain ⟨-, hsame⟩ := hstop.unique hfailed
            cases hsame
            exact absurd rfl herrno

/-- A handshake has failed, is to be tried again, or is done. -/
theorem tryHandShaked_cases (socket : TlsSocket) (handshake : Int) :
    (tryHandShaked socket handshake).1 = -1 ∨ (tryHandShaked socket handshake).1 = 0 ∨
      (tryHandShaked socket handshake).1 = 1 := by
  unfold tryHandShaked
  split_ifs
  · exact .inr (.inr rfl)
  · exact .inl rfl
  · exact .inr (.inl rfl)
  · exact .inr (.inr rfl)

/-- With the handshake done, a call is the chunk loop. -/
theorem send_of_handShaked {socket : TlsSocket} {handshake : Int} {bl : List Bytes}
    {outcomes : List WriteOutcome} {result : SendResult}
    (hdone : (tryHandShaked socket handshake).1 = 1)
    (h : send socket handshake bl outcomes = some result) :
    ∃ s, chunkLoop bl outcomes 0 = some s ∧ result.ret = s.ret ∧ result.accepted = s.accepted ∧
      (0 ≤ s.ret → result.bl = advanceList s.ret.toNat bl) := by
  simp only [send, hdone] at h
  rw [if_neg (by decide), if_neg (by decide)] at h
  cases hloop : chunkLoop bl outcomes 0 with
  | none =>
      rw [hloop] at h
      cases h
  | some s =>
      simp only [hloop] at h
      split_ifs at h with hneg
      · cases h
        exact ⟨s, rfl, rfl, rfl, fun hpos => absurd hneg (not_lt.mpr hpos)⟩
      · cases h
        exact ⟨s, rfl, rfl, rfl, fun _ => rfl⟩

/-- A call keeps the stream exactly if it is clean. -/
theorem send_keeps_iff {socket : TlsSocket} {handshake : Int} {bl : List Bytes}
    {outcomes : List WriteOutcome} {result : SendResult} (hfit : ChunksFit bl)
    (h : send socket handshake bl outcomes = some result) :
    KeepsStream bl result ↔ SendClean socket handshake bl outcomes := by
  unfold SendClean KeepsStream
  obtain hfailed | hwait | hdone := tryHandShaked_cases socket handshake
  · simp only [send, hfailed, if_true] at h
    cases h
    rw [hfailed]
    refine iff_of_true (fun hpos => ?_) (fun hone => ?_)
    · exact absurd (show (0 : Int) ≤ -1 from hpos) (by decide)
    · exact absurd hone (by decide)
  · simp only [send, hwait] at h
    rw [if_neg (by decide), if_pos trivial] at h
    cases h
    rw [hwait]
    exact iff_of_true (fun _ => ⟨rfl, rfl⟩) (fun hone => absurd hone (by decide))
  · obtain ⟨s, hloop, hret, haccepted, hbl⟩ := send_of_handShaked hdone h
    have hiff := chunkSpec_keeps_iff (chunkLoop_spec hfit hloop)
    rw [hdone, forall_prop_of_true rfl, ← hiff, hret, haccepted]
    refine forall_congr' fun hpos => and_iff_left ?_
    rw [hbl hpos, flatten_advanceList]

/-! ## A queue of data -/

/-- A connection with its outgoing list, the data ever queued on it, and the bytes that `SSL_write`
ever accepted. -/
structure TlsQueue where
  socket : TlsSocket
  bl : List Bytes := []
  queued : Bytes := []
  accepted : Bytes := []

/-- What happens to a queue: data is appended, the list is laid out in other buffers, or `send` is
called. -/
inductive TlsEvent where
  | append (bufs : List Bytes)
  | rebuild (bufs : List Bytes)
  | send (handshake : Int) (outcomes : List WriteOutcome)

/-- One event; a call of `send` that fails or does not return is no step. -/
def TlsQueue.step (q : TlsQueue) : TlsEvent → Option TlsQueue
  | .append bufs => some { q with bl := q.bl ++ bufs, queued := q.queued ++ bufs.flatten }
  | .rebuild bufs => if bufs.flatten = q.bl.flatten then some { q with bl := bufs } else none
  | .send handshake outcomes =>
      match Messenger.send q.socket handshake q.bl outcomes with
      | none => none
      | some result =>
          if result.ret < 0 then none
          else
            some { q with
              socket := result.socket
              bl := result.bl
              accepted := q.accepted ++ result.accepted }

/-- A call of `send` is made on chunks that fit, and is clean. -/
def TlsQueue.SendsClean (q : TlsQueue) : TlsEvent → Prop
  | .send handshake outcomes =>
      ChunksFit q.bl ∧ SendClean q.socket handshake q.bl outcomes
  | _ => True

/-- The bytes accepted and the list are the data queued. -/
def TlsQueue.Intact (q : TlsQueue) : Prop := q.accepted ++ q.bl.flatten = q.queued

/-- A clean event keeps the queue intact. -/
theorem TlsQueue.Intact.step {q q' : TlsQueue} {event : TlsEvent} (h : q.Intact)
    (hclean : q.SendsClean event) (hstep : q.step event = some q') : q'.Intact := by
  unfold TlsQueue.Intact at h ⊢
  cases event with
  | append bufs =>
      cases hstep
      show q.accepted ++ (q.bl ++ bufs).flatten = q.queued ++ bufs.flatten
      rw [List.flatten_append, ← List.append_assoc, h]
  | rebuild bufs =>
      simp only [TlsQueue.step] at hstep
      split_ifs at hstep with hsame
      cases hstep
      show q.accepted ++ bufs.flatten = q.queued
      rw [hsame, h]
  | send handshake outcomes =>
      obtain ⟨hfit, hclean⟩ := hclean
      simp only [TlsQueue.step] at hstep
      cases hsend : Messenger.send q.socket handshake q.bl outcomes with
      | none =>
          rw [hsend] at hstep
          cases hstep
      | some result =>
          simp only [hsend] at hstep
          split_ifs at hstep with hneg
          cases hstep
          obtain ⟨haccepted, hbl⟩ := (send_keeps_iff hfit hsend).mpr hclean (not_lt.mp hneg)
          show q.accepted ++ result.accepted ++ result.bl.flatten = q.queued
          rw [haccepted, hbl, List.append_assoc, List.take_append_drop, h]

/-- TLS sending and the byte stream. A call that returns at least 0 has sent exactly the first
bytes of the list that its result counts, and leaves exactly the rest, if and only if it does not
stop inside a chunk at an error with `errno` 0. On a queue whose sends do not fail and are all of
that kind, the bytes accepted followed by the list are always the data queued. -/
theorem send_intact_iff (socket : TlsSocket) :
    (∀ handshake bl outcomes result, ChunksFit bl →
      send socket handshake bl outcomes = some result →
      (KeepsStream bl result ↔ SendClean socket handshake bl outcomes)) ∧
    ∀ q, Reach TlsQueue.step TlsQueue.SendsClean { socket := socket } q → q.Intact := by
  constructor
  · intro handshake bl outcomes result hfit hsend
    exact send_keeps_iff hfit hsend
  · intro q hreach
    have hinit : TlsQueue.Intact { socket := socket } := rfl
    exact Reach.invariant TlsQueue.Intact hinit
      (fun s event t hs hok hstep => hs.step hok hstep) hreach

/-- A list of less than 2 GiB has chunks that fit. -/
theorem chunksFit_of_length {bl : List Bytes} (h : bl.flatten.length < 2 ^ 31) : ChunksFit bl := by
  intro k
  have hsub : ((bl.drop (k * iovMax)).take iovMax).Sublist bl :=
    (List.take_sublist _ _).trans (List.drop_sublist _ _)
  exact Nat.lt_of_le_of_lt hsub.flatten.length_le h

/-- A socket whose handshake is done. -/
def shaken : TlsSocket where
  isHandShaked := true

/-- One buffer of three bytes. -/
def threeBytes : List Bytes := [[1, 2, 3]]

/-- One byte accepted, and then the socket would block. -/
def oneThenBlock : List WriteOutcome := [.wrote 1, .failed eagain .wantWrite]

/-- Two bytes accepted, and then a protocol error that leaves `errno` at 0. -/
def twoThenError : List WriteOutcome := [.wrote 2, .failed 0 .ssl]

/-- A call that blocks after one byte is clean. -/
theorem sendClean_oneThenBlock (socket : TlsSocket) (handshake : Int) :
    SendClean socket handshake threeBytes oneThenBlock := by
  intro _ n sslErr rest hstop _
  -- writing stops in one place only, and that is a wait
  have hblock : Stopped threeBytes.flatten.length oneThenBlock 1 (some (eagain, .wantWrite)) [] :=
    .failed [.wrote 1] [] eagain .wantWrite (by simp [WriteOutcome.GoesOn]) (by decide)
      (by decide) rfl
  obtain ⟨-, hsame⟩ := hstop.unique hblock
  cases hsame

/-- The call that blocks keeps the stream, and so does the queue that makes it. -/
theorem send_intact_oneThenBlock :
    (∃ result, send shaken 1 threeBytes oneThenBlock = some result ∧
      KeepsStream threeBytes result) ∧
    ∃ q, Reach TlsQueue.step TlsQueue.SendsClean { socket := shaken } q ∧
      q.accepted = [1] ∧ q.Intact := by
  have hfit : ChunksFit threeBytes := chunksFit_of_length (by decide)
  have hsend : send shaken 1 threeBytes oneThenBlock =
      some { ret := 1, bl := [[2, 3]], socket := shaken, accepted := [1] } := by
    unfold send
    rw [chunkLoop.eq_def]
    rfl
  have hqueued : Reach TlsQueue.step TlsQueue.SendsClean { socket := shaken }
      { socket := shaken, bl := threeBytes, queued := [1, 2, 3] } :=
    .next .start (show TlsQueue.SendsClean _ (.append threeBytes) from trivial) rfl
  have hstep : TlsQueue.step { socket := shaken, bl := threeBytes, queued := [1, 2, 3] }
      (.send 1 oneThenBlock) =
      some { socket := shaken, bl := [[2, 3]], queued := [1, 2, 3], accepted := [1] } := by
    simp only [TlsQueue.step, hsend]
    rfl
  have hclean : TlsQueue.SendsClean { socket := shaken, bl := threeBytes, queued := [1, 2, 3] }
      (.send 1 oneThenBlock) := ⟨hfit, sendClean_oneThenBlock _ _⟩
  have hreach := hqueued.next hclean hstep
  obtain ⟨hcall, hrun⟩ := send_intact_iff shaken
  exact ⟨⟨_, hsend, (hcall _ _ _ _ hfit hsend).mpr (sendClean_oneThenBlock _ _)⟩,
    _, hreach, rfl, hrun _ hreach⟩

/-- After the error with `errno` 0 the call returns 0 and leaves the list as it was, although two
bytes of it were accepted: the next call sends them again. -/
theorem error_resends_bytes :
    ∃ result, ChunksFit threeBytes ∧ send shaken 1 threeBytes twoThenError = some result ∧
      result.ret = 0 ∧ result.bl = threeBytes ∧ result.accepted = [1, 2] ∧
      ¬ KeepsStream threeBytes result := by
  have hsend : send shaken 1 threeBytes twoThenError =
      some { ret := 0, bl := threeBytes, socket := shaken, accepted := [1, 2] } := by
    unfold send
    rw [chunkLoop.eq_def]
    rfl
  refine ⟨_, chunksFit_of_length (by decide), hsend, rfl, rfl, rfl, ?_⟩
  intro hkeeps
  have htaken := (hkeeps (Int.le_refl 0)).1
  exact absurd (show ([1, 2] : Bytes) = [] from htaken) (by decide)

end GlobalCacheAdaptor.Messenger
