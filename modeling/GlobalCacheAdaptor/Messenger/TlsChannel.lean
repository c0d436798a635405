import GlobalCacheAdaptor.Messenger.TlsSend
import Mathlib.Logic.Function.Basic

/-!
# A TLS connection from end to end

The two ends of a connection over TLS sockets, each with its outgoing list and what it has read.
`read`, `send` and `is_connected` of either end are called in any order; a TLS session hands the
bytes that one end wrote to the other, in order and once.

`delivered_prefix` says that what is read on one side is what was queued on the other, as long as
no `send` stops inside a chunk at an error with `errno` 0, and `unclean_send_duplicates` that one
such call spoils the stream for good; in both every chunk is below 2 GiB (`ChunksFit`).
`no_data_before_handshake` and `handshake_result_iff` are about `try_handShaked`, which both calls
go through.
-/

namespace GlobalCacheAdaptor.Messenger.TlsChannel

open Lib

/-! ## `read` and `is_connected` -/

/-- What `SSL_read` does: it gives this many bytes, or fails. -/
inductive ReadOutcome where
  | got (n : Nat)
  | failed (errno : Nat) (sslErr : SslError)
  deriving DecidableEq, Repr

/-- What a call of `read` leaves: its result, the socket, and the bytes in the buffer. -/
structure ReadResult where
  ret : Int
  socket : TlsSocket
  bytes : Bytes

/-- `read` of the TLS socket into a buffer of `len` bytes, from a session that holds `incoming`. -/
def read (socket : TlsSocket) (handshake : Int) (len : Nat) (incoming : Bytes)
    (outcome : ReadOutcome) : Option ReadResult :=
  let (tryRet, socket) := tryHandShaked socket handshake
  if tryRet = -1 then some ⟨-1, socket, []⟩
  else if tryRet = 0 then some ⟨-11, socket, []⟩
  else
    match outcome with
    | .got n =>
        if 0 < n ∧ n ≤ len ∧ n ≤ incoming.length then some ⟨n, socket, incoming.take n⟩ else none
    -- only `SSL_ERROR_ZERO_RETURN` is looked at; any other error is told by `errno`
    | .failed errno sslErr =>
        some ⟨if sslErr = .zeroReturn then 0 else -errno, socket, []⟩

/-- One end of the connection: its socket and outgoing list, and the bytes it has read. -/
structure Endpoint where
  queue : TlsQueue
  connected : Bool
  delivered : Bytes := []

/-- `is_connected`; `reconnect` is what `handler.reconnect` returns and `sslConnect` what
`SSL_connect` does. -/
def isConnected (e : Endpoint) (reconnect sslConnect : Int) : Int × Endpoint :=
  if e.connected then (1, e)
  else if reconnect = 0 then
    let socket := e.queue.socket
    let shaken := socket.isHandShaked || decide (0 < sslConnect)
    (1, { e with
      connected := true
      queue := { e.queue with socket := { socket with isHandShaked := shaken } } })
  else if reconnect < 0 then (reconnect, e)
  else (0, e)

/-! ## The connection -/

/-- The two ends. -/
inductive Side where
  | client | server
  deriving DecidableEq, Repr

/-- The end at the other side. -/
def Side.peer : Side → Side
  | .client => .server
  | .server => .client

/-- A connection is its two ends. -/
abbrev Channel := Side → Endpoint

/-- What one end does. -/
inductive Action where
  | isConnected (reconnect sslConnect : Int)
  | queue (event : TlsEvent)
  | read (handshake : Int) (len : Nat) (outcome : ReadOutcome)

/-- The bytes on their way to `side`: those the peer wrote that `side` has not read. -/
def Channel.incoming (c : Channel) (side : Side) : Bytes :=
  (c side.peer).queue.accepted.drop (c side).delivered.length

/-- The end after the action. -/
def Channel.act (c : Channel) (side : Side) : Action → Option Endpoint
  | .isConnected reconnect sslConnect =>
      some (TlsChannel.isConnected (c side) reconnect sslConnect).2
  | .queue event => ((c side).queue.step event).map fun queue => { c side with queue := queue }
  | .read handshake len outcome =>
      (TlsChannel.read (c side).queue.socket handshake len (c.incoming side) outcome).map
        fun result =>
          { c side with
            queue := { (c side).queue with socket := result.socket }
            delivered := (c side).delivered ++ result.bytes }

/-- One step of the connection. -/
def step (c : Channel) (event : Side × Action) : Option Channel :=
  (c.act event.1 event.2).map (Function.update c event.1)

/-- Calls of `send` are made on chunks that fit, and are clean. -/
def SendsClean (c : Channel) : Side × Action → Prop
  | (side, .queue event) => (c side).queue.SendsClean event
  | _ => True

/-- Calls of `send` are made on chunks that fit. -/
def SendsFit (c : Channel) : Side × Action → Prop
  | (side, .queue (.send _ _)) => ChunksFit (c side).queue.bl
  | _ => True

/-- Two sockets as `connect` and `accept` leave them: nothing was queued, written or read. -/
def opened (socket : Side → TlsSocket) (connected : Side → Bool) : Channel :=
  fun side => { queue := { socket := socket side }, connected := connected side }

variable {c c' : Channel} {side : Side} {event : Side × Action}

@[simp] theorem Side.peer_peer (side : Side) : side.peer.peer = side := by
  cases side <;> rfl

@[simp] theorem Side.peer_ne (side : Side) : side.peer ≠ side := by
  cases side <;> decide

/-- A side is the one that acts or its peer. -/
theorem Side.eq_or_eq_peer (side other : Side) : other = side ∨ other = side.peer := by
  cases side <;> cases other <;> decide

/-! ## What a step can do -/

/-- The socket after `try_handShaked` has the handshake done if it had it before or the call says
so. -/
theorem tryHandShaked_isHandShaked (socket : TlsSocket) (handshake : Int) :
    (tryHandShaked socket handshake).2.isHandShaked = true ↔
      (tryHandShaked socket handshake).1 = 1 := by
  unfold tryHandShaked
  split_ifs with hdone
  · exact iff_of_true hdone rfl
  · exact iff_of_false (by simpa using hdone) (by simp)
  · exact iff_of_false (by simpa using hdone) (by simp)
  · exact iff_of_true rfl rfl

/-- What `read` leaves: the handshake is not done and nothing is read, or a piece of what the
session holds is. -/
theorem read_cases {socket : TlsSocket} {handshake : Int} {len : Nat} {incoming : Bytes}
    {outcome : ReadOutcome} {result : ReadResult}
    (h : read socket handshake len incoming outcome = some result) :
    result.socket = (tryHandShaked socket handshake).2 ∧
      result.bytes = incoming.take result.bytes.length ∧
      (result.ret = result.bytes.length ∨ result.bytes = [] ∧ result.ret ≤ 0) ∧
      (result.bytes ≠ [] → (tryHandShaked socket handshake).1 = 1) := by
  obtain hfailed | hwait | hdone := tryHandShaked_cases socket handshake
  · simp only [read, hfailed, if_true] at h
    cases h
    exact ⟨rfl, by simp, .inr ⟨rfl, by simp⟩, fun hne => absurd rfl hne⟩
  · simp only [read, hwait] at h
    rw [if_neg (by decide), if_pos trivial] at h
    cases h
    exact ⟨rfl, by simp, .inr ⟨rfl, by simp⟩, fun hne => absurd rfl hne⟩
  · simp only [read, hdone] at h
    rw [if_neg (by decide), if_neg (by decide)] at h
    cases outcome with
    | got n =>
        simp only at h
        split_ifs at h with hn
        cases h
        have hlen : (incoming.take n).length = n := by
          rw [List.length_take]
          omega
        exact ⟨rfl, by rw [hlen], .inl (by rw [hlen]), fun _ => hdone⟩
    | failed errno sslErr =>
        cases h
        refine ⟨rfl, by simp, .inr ⟨rfl, ?_⟩, fun _ => hdone⟩
        show (if sslErr = .zeroReturn then (0 : Int) else -errno) ≤ 0
        split_ifs <;> omega

/-- A call of `send` goes through `try_handShaked`, and writes only when that returns 1. -/
theorem send_socket {socket : TlsSocket} {handshake : Int} {bl : List Bytes}
    {outcomes : List WriteOutcome} {result : SendResult}
    (h : send socket handshake bl outcomes = some result) :
    result.socket = (tryHandShaked socket handshake).2 ∧
      (result.accepted ≠ [] → (tryHandShaked socket handshake).1 = 1) := by
  obtain hfailed | hwait | hdone := tryHandShaked_cases socket handshake
  · simp only [send, hfailed, if_true] at h
    cases h
    exact ⟨rfl, fun hne => absurd rfl hne⟩
  · simp only [send, hwait] at h
    rw [if_neg (by decide), if_pos trivial] at h
    cases h
    exact ⟨rfl, fun hne => absurd rfl hne⟩
  · refine ⟨?_, fun _ => hdone⟩
    simp only [send, hdone] at h
    rw [if_neg (by decide), if_neg (by decide)] at h
    cases hloop : chunkLoop bl outcomes 0 with
    | none =>
        rw [hloop] at h
        cases h
    | some s =>
        simp only [hloop] at h
        split_ifs at h <;> cases h <;> rfl

/-- A handshake that is done stays done. -/
theorem tryHandShaked_of_isHandShaked {socket : TlsSocket} (h : socket.isHandShaked = true)
    (handshake : Int) : tryHandShaked socket handshake = (1, socket) := by
  unfold tryHandShaked
  rw [if_pos h]

/-- What a queue step can do: the bytes accepted grow, and only over a finished handshake. -/
theorem queue_step_cases {q q' : TlsQueue} {event : TlsEvent} (h : q.step event = some q') :
    ∃ bytes, q'.accepted = q.accepted ++ bytes ∧
      (bytes ≠ [] → q'.socket.isHandShaked = true) ∧
      (q.socket.isHandShaked = true → q'.socket = q.socket) := by
  cases event with
  | append bufs =>
      cases h
      exact ⟨[], by simp, by simp, fun _ => rfl⟩
  | rebuild bufs =>
      simp only [TlsQueue.step] at h
      split_ifs at h
      cases h
      exact ⟨[], by simp, by simp, fun _ => rfl⟩
  | send handshake outcomes =>
      simp only [TlsQueue.step] at h
      cases hsend : send q.socket handshake q.bl outcomes with
      | none =>
          rw [hsend] at h
          cases h
      | some result =>
          simp only [hsend] at h
          split_ifs at h
          cases h
          obtain ⟨hsocket, haccepted⟩ := send_socket hsend
          refine ⟨result.accepted, rfl, fun hne => ?_, fun hdone => ?_⟩
          · show result.socket.isHandShaked = true
            rw [hsocket]
            exact (tryHandShaked_isHandShaked _ _).mpr (haccepted hne)
          · show result.socket = q.socket
            rw [hsocket, tryHandShaked_of_isHandShaked hdone]

/-- What `is_connected` changes: a handshake may get done, nothing is written or read. -/
theorem isConnected_cases (e : Endpoint) (reconnect sslConnect : Int) :
    ∃ socket connected,
      (isConnected e reconnect sslConnect).2 =
        ⟨{ e.queue with socket := socket }, connected, e.delivered⟩ ∧
      (e.queue.socket.isHandShaked = true → socket = e.queue.socket) := by
  unfold isConnected
  split_ifs
  · exact ⟨e.queue.socket, e.connected, rfl, fun _ => rfl⟩
  · refine ⟨_, true, rfl, fun hdone => ?_⟩
    rw [hdone, Bool.true_or, ← hdone]
  · exact ⟨e.queue.socket, e.connected, rfl, fun _ => rfl⟩
  · exact ⟨e.queue.socket, e.connected, rfl, fun _ => rfl⟩

/-- What a step can do: the queue of one end takes a step, or the end reads a piece of what is on
its way, possibly nothing, and its queue keeps all but the socket. -/
theorem step_cases {action : Action} (h : step c (side, action) = some c') :
    (∃ event queue, action = .queue event ∧ (c side).queue.step event = some queue ∧
      c' = Function.update c side { c side with queue := queue }) ∨
    (∃ socket connected bytes, (∀ event, action ≠ .queue event) ∧ bytes <+: c.incoming side ∧
      (bytes ≠ [] → socket.isHandShaked = true) ∧
      ((c side).queue.socket.isHandShaked = true → socket = (c side).queue.socket) ∧
      c' = Function.update c side
        ⟨{ (c side).queue with socket := socket }, connected, (c side).delivered ++ bytes⟩) := by
  obtain ⟨e, he, rfl⟩ := Option.map_eq_some_iff.mp h
  cases action with
  | isConnected reconnect sslConnect =>
      cases he
      obtain ⟨socket, connected, hend, hdone⟩ := isConnected_cases (c side) reconnect sslConnect
      refine .inr ⟨socket, connected, [], by simp, by simp, by simp, hdone, ?_⟩
      rw [List.append_nil, ← hend]
  | queue event =>
      obtain ⟨queue, hqueue, rfl⟩ := Option.map_eq_some_iff.mp he
      exact .inl ⟨event, queue, rfl, hqueue, rfl⟩
  | read handshake len outcome =>
      obtain ⟨result, hresult, rfl⟩ := Option.map_eq_some_iff.mp he
      obtain ⟨hsocket, hbytes, -, hgate⟩ := read_cases hresult
      refine .inr ⟨result.socket, (c side).connected, result.bytes, by simp, ?_, fun hne => ?_,
        fun hdone => ?_, rfl⟩
      · rw [hbytes]
        exact List.take_prefix _ _
      · rw [hsocket]
        exact (tryHandShaked_isHandShaked _ _).mpr (hgate hne)
      · rw [hsocket, tryHandShaked_of_isHandShaked hdone]

/-! ## Every run -/

/-- Each end has read a first part of what the other wrote, and an end whose handshake is not done
has written and read nothing. -/
structure Inv (c : Channel) : Prop where
  read : ∀ side : Side, (c side).delivered <+: (c side.peer).queue.accepted
  gate : ∀ side, (c side).queue.socket.isHandShaked = false →
    (c side).queue.accepted = [] ∧ (c side).delivered = []

/-- What the peer wrote is what `side` has read and what is on its way. -/
theorem Inv.accepted_eq (h : Inv c) (side : Side) :
    (c side.peer).queue.accepted = (c side).delivered ++ c.incoming side := by
  obtain ⟨rest, hrest⟩ := h.read side
  rw [Channel.incoming, ← hrest, List.drop_left]

/-- A step of the queue of one end keeps the invariant. -/
theorem Inv.queue (h : Inv c) {event : TlsEvent} {queue : TlsQueue}
    (hqueue : (c side).queue.step event = some queue) :
    Inv (Function.update c side { c side with queue := queue }) := by
  obtain ⟨bytes, haccepted, hgate, hdone⟩ := queue_step_cases hqueue
  constructor
  · intro other
    rcases Side.eq_or_eq_peer side other with rfl | rfl
    · rw [Function.update_self, Function.update_of_ne (Side.peer_ne _)]
      exact h.read other
    · rw [Side.peer_peer, Function.update_self, Function.update_of_ne (Side.peer_ne _)]
      have hread := h.read side.peer
      rw [Side.peer_peer] at hread
      show (c side.peer).delivered <+: queue.accepted
      rw [haccepted]
      exact hread.trans (List.prefix_append _ _)
  · intro other hnot
    rcases Side.eq_or_eq_peer side other with rfl | rfl
    · rw [Function.update_self] at hnot ⊢
      have hbefore : (c other).queue.socket.isHandShaked = false := by
        by_contra hne
        have hsame := hdone (by simpa using hne)
        exact hne (by rw [← hsame]; exact hnot)
      obtain ⟨hnone, hread⟩ := h.gate other hbefore
      have hbytes : bytes = [] := by
        by_contra hne
        exact absurd (hgate hne) (by simpa using hnot)
      refine ⟨?_, hread⟩
      show queue.accepted = []
      rw [haccepted, hnone, hbytes, List.nil_append]
    · rw [Function.update_of_ne (Side.peer_ne _)] at hnot ⊢
      exact h.gate _ hnot

/-- Reading a piece of what is on its way keeps the invariant. -/
theorem Inv.readPiece (h : Inv c) {socket : TlsSocket} {connected : Bool} {bytes : Bytes}
    (hpiece : bytes <+: c.incoming side) (hgate : bytes ≠ [] → socket.isHandShaked = true)
    (hdone : (c side).queue.socket.isHandShaked = true → socket = (c side).queue.socket) :
    Inv (Function.update c side
      ⟨{ (c side).queue with socket := socket }, connected, (c side).delivered ++ bytes⟩) := by
  constructor
  · intro other
    rcases Side.eq_or_eq_peer side other with rfl | rfl
    · rw [Function.update_self, Function.update_of_ne (Side.peer_ne _), h.accepted_eq]
      exact (List.prefix_append_right_inj _).mpr hpiece
    · rw [Side.peer_peer, Function.update_self, Function.update_of_ne (Side.peer_ne _)]
      have hread := h.read side.peer
      rwa [Side.peer_peer] at hread
  · intro other hnot
    rcases Side.eq_or_eq_peer side other with rfl | rfl
    · rw [Function.update_self] at hnot ⊢
      have hbefore : (c other).queue.socket.isHandShaked = false := by
        by_contra hne
        have hsame := hdone (by simpa using hne)
        exact hne (by rw [← hsame]; exact hnot)
      obtain ⟨hnone, hread⟩ := h.gate other hbefore
      have hbytes : bytes = [] := by
        by_contra hne
        exact absurd (hgate hne) (by simpa using hnot)
      exact ⟨hnone, by rw [hread, hbytes, List.nil_append]⟩
    · rw [Function.update_of_ne (Side.peer_ne _)] at hnot ⊢
      exact h.gate _ hnot

/-- Every step keeps the invariant. -/
theorem Inv.step (h : Inv c) (hstep : TlsChannel.step c event = some c') : Inv c' := by
  obtain ⟨side, action⟩ := event
  obtain ⟨event, queue, -, hqueue, rfl⟩ |
    ⟨socket, connected, bytes, -, hpiece, hgate, hdone, rfl⟩ := step_cases hstep
  · exact h.queue hqueue
  · exact h.readPiece hpiece hgate hdone

/-- Two fresh ends satisfy the invariant. -/
theorem inv_opened (socket : Side → TlsSocket) (connected : Side → Bool) :
    Inv (opened socket connected) :=
  ⟨fun _ => List.prefix_rfl, fun _ _ => ⟨rfl, rfl⟩⟩

/-- Every run keeps the invariant. -/
theorem inv_of_reach {ok : Channel → Side × Action → Prop} {start : Channel} (hstart : Inv start)
    (h : Reach step ok start c) : Inv c :=
  h.invariant Inv hstart fun _ _ _ hs _ hstep => hs.step hstep

/-- In every run over two fresh sockets, an end whose handshake is not done has written and read no
byte of the connection. -/
theorem no_data_before_handshake (socket : Side → TlsSocket) (connected : Side → Bool) :
    ∀ c, Reach step anyEvent (opened socket connected) c → ∀ side,
      (c side).queue.socket.isHandShaked = false →
      (c side).queue.accepted = [] ∧ (c side).delivered = [] :=
  fun _ hc => (inv_of_reach (inv_opened socket connected) hc).gate

/-- A client that has the connection, but not the handshake. -/
def pendingClient : Channel :=
  opened (fun side => { isHandShaked := side = .server }) fun _ => true

/-- A `read` of the client makes a handshake call that fails, and reads nothing. -/
theorem no_data_before_handshake_pending :
    ∃ c, Reach step anyEvent pendingClient c ∧ (c .client).queue.socket.retryCount = 1 ∧
      (c .client).delivered = [] := by
  have hread : step pendingClient (.client, .read 0 16 (.got 1)) =
      some (Function.update pendingClient .client
        { queue := { socket := ⟨false, 1⟩ }, connected := true }) := rfl
  have hreach := Reach.next (.start : Reach step anyEvent pendingClient pendingClient) trivial hread
  exact ⟨_, hreach, rfl,
    (no_data_before_handshake _ _ _ hreach .client rfl).2⟩

/-! ## The stream -/

/-- Of the data queued on `side`, a part was read by its peer, a part is on its way, and the rest
is in the outgoing list. -/
def Conserved (c : Channel) (side : Side) : Prop :=
  (c side).queue.queued =
    (c side.peer).delivered ++ c.incoming side.peer ++ (c side).queue.bl.flatten

/-- A clean step keeps every queue intact. -/
theorem intact_step (h : ∀ side, (c side).queue.Intact) (hclean : SendsClean c event)
    (hstep : step c event = some c') : ∀ side, (c' side).queue.Intact := by
  obtain ⟨acting, action⟩ := event
  intro side
  obtain ⟨event, queue, rfl, hqueue, rfl⟩ | ⟨socket, connected, bytes, -, -, -, -, rfl⟩ :=
    step_cases hstep
  · rcases eq_or_ne side acting with rfl | hne
    · rw [Function.update_self]
      exact (h side).step hclean hqueue
    · rw [Function.update_of_ne hne]
      exact h side
  · rcases eq_or_ne side acting with rfl | hne
    · rw [Function.update_self]
      exact h side
    · rw [Function.update_of_ne hne]
      exact h side

/-- In every run whose calls of `send` are clean, the data queued on a side is what the other side
has read, then what is on its way, then what is left in the list: nothing is lost, repeated or
swapped, in either direction. -/
theorem delivered_prefix (socket : Side → TlsSocket) (connected : Side → Bool) :
    ∀ c, Reach step SendsClean (opened socket connected) c → ∀ side, Conserved c side := by
  intro c hc side
  have hintact : ∀ side, (c side).queue.Intact :=
    hc.invariant (fun c => ∀ side, (c side).queue.Intact) (fun _ => rfl)
      fun _ _ _ hs hclean hstep => intact_step hs hclean hstep
  have haccepted := (inv_of_reach (inv_opened socket connected) hc).accepted_eq side.peer
  rw [Side.peer_peer] at haccepted
  unfold Conserved
  rw [← haccepted]
  exact (hintact side).symm

/-- A connection whose handshakes were done by `connect` and `accept`. -/
def openShaken : Channel := opened (fun _ => shaken) fun _ => true

/-- The connection after the client queued three bytes. -/
def threeQueued : Channel :=
  Function.update openShaken .client
    { queue := { socket := shaken, bl := threeBytes, queued := [1, 2, 3] }, connected := true }

/-- The bytes are queued in one step. -/
theorem step_threeQueued :
    step openShaken (.client, .queue (.append threeBytes)) = some threeQueued := rfl

/-- The connection after the client's `send` wrote one of the bytes. -/
def oneSent : Channel :=
  Function.update threeQueued .client
    { queue :=
        { socket := shaken, bl := [[2, 3]], queued := [1, 2, 3], accepted := [1] }
      connected := true }

/-- The byte is written in one step, which is clean. -/
theorem step_oneSent :
    step threeQueued (.client, .queue (.send 1 oneThenBlock)) = some oneSent := by
  have hsend : send shaken 1 threeBytes oneThenBlock =
      some { ret := 1, bl := [[2, 3]], socket := shaken, accepted := [1] } := by
    unfold send
    rw [chunkLoop.eq_def]
    rfl
  have hqueue : TlsQueue.step { socket := shaken, bl := threeBytes, queued := [1, 2, 3] }
      (.send 1 oneThenBlock) =
      some { socket := shaken, bl := [[2, 3]], queued := [1, 2, 3], accepted := [1] } := by
    simp only [TlsQueue.step, hsend]
    rfl
  show ((TlsQueue.step { socket := shaken, bl := threeBytes, queued := [1, 2, 3] }
    (.send 1 oneThenBlock)).map _).map _ = _
  rw [hqueue]
  rfl

/-- The server reads the byte: three bytes queued, one read, two left in the list. -/
theorem delivered_prefix_oneSent :
    ∃ c, Reach step SendsClean openShaken c ∧ (c .server).delivered = [1] ∧
      Conserved c .client := by
  have hqueued : Reach step SendsClean openShaken threeQueued :=
    .next .start (show SendsClean openShaken (.client, .queue (.append threeBytes)) from trivial)
      step_threeQueued
  have hclean : SendsClean threeQueued (.client, .queue (.send 1 oneThenBlock)) :=
    ⟨chunksFit_of_length (by decide), sendClean_oneThenBlock _ _⟩
  have hread : step oneSent (.server, .read 1 16 (.got 1)) = some (Function.update oneSent .server
      { queue := { socket := shaken }, connected := true, delivered := [1] }) := rfl
  have hreach := (hqueued.next hclean step_oneSent).next
    (show SendsClean oneSent (.server, .read 1 16 (.got 1)) from trivial) hread
  exact ⟨_, hreach, rfl, delivered_prefix (fun _ => shaken) (fun _ => true) _ hreach .client⟩

/-! ## A send that is not clean -/

/-- A call that returns at least 0 leaves no fewer bytes than there were, accepted ones included,
and more if it is not clean. -/
theorem send_length {socket : TlsSocket} {handshake : Int} {bl : List Bytes}
    {outcomes : List WriteOutcome} {result : SendResult} (hfit : ChunksFit bl)
    (h : send socket handshake bl outcomes = some result) (hret : 0 ≤ result.ret) :
    bl.flatten.length ≤ result.accepted.length + result.bl.flatten.length ∧
      (¬SendClean socket handshake bl outcomes →
        bl.flatten.length < result.accepted.length + result.bl.flatten.length) := by
  have hiff := send_keeps_iff hfit h
  by_cases hdone : (tryHandShaked socket handshake).1 = 1
  · obtain ⟨s, hloop, hsame, haccepted, hbl⟩ := send_of_handShaked hdone h
    obtain ⟨n, stop, k, hstop, htake, hstart, -, hresult⟩ := chunkLoop_spec hfit hloop
    have hle := hstop.le
    have hpos : 0 ≤ s.ret := hsame ▸ hret
    have hretle : s.ret ≤ n := by
      cases stop with
      | none => simp [hresult, chunkResult]
      | some failure =>
          obtain ⟨errno, sslErr⟩ := failure
          rw [hresult]
          simp only [chunkResult, Nat.zero_add]
          split_ifs <;> omega
    have hrest : result.bl.flatten = bl.flatten.drop s.ret.toNat := by
      rw [hbl hpos, flatten_advanceList]
    rw [haccepted, htake, hrest, List.length_take, List.length_drop]
    refine ⟨by omega, fun hunclean => ?_⟩
    have hnot : ¬KeepsStream bl result := hiff.not.mpr hunclean
    have hne : n ≠ s.ret.toNat := by
      rintro rfl
      exact hnot fun _ => ⟨by rw [haccepted, htake, hsame], by rw [hrest, hsame]⟩
    omega
  · have hclean : SendClean socket handshake bl outcomes := fun hone => absurd hone hdone
    obtain ⟨haccepted, hbl⟩ := hiff.mpr hclean hret
    rw [haccepted, hbl, List.length_take, List.length_drop]
    exact ⟨by omega, fun hunclean => absurd hclean hunclean⟩

/-- No byte queued is missing from what was accepted and what is left in the list, by number. -/
def NoneMissing (q : TlsQueue) : Prop :=
  q.queued.length ≤ q.accepted.length + q.bl.flatten.length

/-- More bytes were accepted or are left than were ever queued. -/
def Repeats (q : TlsQueue) : Prop :=
  q.queued.length < q.accepted.length + q.bl.flatten.length

/-- A queue step keeps every byte, never undoes a repetition, and repeats bytes if it is a send
that is not clean. -/
theorem queue_step_length {q q' : TlsQueue} {event : TlsEvent} (h : q.step event = some q')
    (hfit : ∀ handshake outcomes, event = .send handshake outcomes → ChunksFit q.bl) :
    (NoneMissing q → NoneMissing q') ∧ (Repeats q → Repeats q') ∧
      (NoneMissing q → ¬q.SendsClean event → Repeats q') := by
  unfold NoneMissing Repeats
  cases event with
  | append bufs =>
      cases h
      simp only [List.flatten_append, List.length_append]
      refine ⟨fun _ => by omega, fun _ => by omega, fun _ hunclean => absurd trivial hunclean⟩
  | rebuild bufs =>
      simp only [TlsQueue.step] at h
      split_ifs at h with hsame
      cases h
      simp only [hsame]
      exact ⟨id, id, fun _ hunclean => absurd trivial hunclean⟩
  | send handshake outcomes =>
      have hfit' := hfit handshake outcomes rfl
      simp only [TlsQueue.step] at h
      cases hsend : send q.socket handshake q.bl outcomes with
      | none =>
          rw [hsend] at h
          cases h
      | some result =>
          simp only [hsend] at h
          split_ifs at h with hneg
          cases h
          obtain ⟨hle, hlt⟩ := send_length hfit' hsend (not_lt.mp hneg)
          simp only [List.length_append]
          refine ⟨fun _ => by omega, fun _ => by omega, fun hbefore hunclean => ?_⟩
          have := hlt fun hclean => hunclean ⟨hfit', hclean⟩
          omega

/-- A step of the connection on chunks that fit keeps every byte and every repetition. -/
theorem step_length (hfit : SendsFit c event) (hstep : step c event = some c') (side : Side) :
    (NoneMissing (c side).queue → NoneMissing (c' side).queue) ∧
      (Repeats (c side).queue → Repeats (c' side).queue) := by
  obtain ⟨acting, action⟩ := event
  obtain ⟨event, queue, rfl, hqueue, rfl⟩ | ⟨socket, connected, bytes, -, -, -, -, rfl⟩ :=
    step_cases hstep
  · rcases eq_or_ne side acting with rfl | hne
    · rw [Function.update_self]
      have hlength := queue_step_length hqueue fun handshake outcomes hevent => by
        rw [hevent] at hfit
        exact hfit
      exact ⟨hlength.1, hlength.2.1⟩
    · rw [Function.update_of_ne hne]
      exact ⟨id, id⟩
  · rcases eq_or_ne side acting with rfl | hne
    · rw [Function.update_self]
      exact ⟨id, id⟩
    · rw [Function.update_of_ne hne]
      exact ⟨id, id⟩

/-- One call of `send` that is not clean and returns at least 0 spoils the stream for good: in
every state of every run after it, what the peer has read, what is on its way and what is left in
the list are together more bytes than were ever queued. -/
theorem unclean_send_duplicates (socket : Side → TlsSocket) (connected : Side → Bool)
    {handshake : Int} {outcomes : List WriteOutcome}
    (hc : Reach step SendsFit (opened socket connected) c)
    (hfit : ChunksFit (c side).queue.bl)
    (hunclean : ¬SendClean (c side).queue.socket handshake (c side).queue.bl outcomes)
    (hstep : step c (side, .queue (.send handshake outcomes)) = some c') :
    ∀ later, Reach step SendsFit c' later →
      (later side).queue.queued.length <
        (later side.peer).delivered.length + (later.incoming side.peer).length +
          (later side).queue.bl.flatten.length := by
  intro later hlater
  have hnone : ∀ side, NoneMissing (c side).queue :=
    hc.invariant (fun c => ∀ side, NoneMissing (c side).queue) (fun _ => Nat.le_refl _)
      fun _ _ _ hs hok hstep side => (step_length hok hstep side).1 (hs side)
  have hfirst : Repeats (c' side).queue := by
    obtain ⟨event, queue, hevent, hqueue, rfl⟩ | ⟨_, _, _, hother, _⟩ := step_cases hstep
    · cases hevent
      rw [Function.update_self]
      exact (queue_step_length hqueue fun _ _ _ => hfit).2.2 (hnone side)
        fun hclean => hunclean hclean.2
    · exact absurd rfl (hother _)
  have hafter : Repeats (later side).queue :=
    hlater.invariant (fun c => Repeats (c side).queue) hfirst
      fun _ _ _ hs hok hstep => (step_length hok hstep side).2 hs
  have hinv : Inv later := inv_of_reach
    ((inv_of_reach (inv_opened socket connected) hc).step hstep) hlater
  have haccepted := congrArg List.length (hinv.accepted_eq side.peer)
  rw [Side.peer_peer, List.length_append] at haccepted
  unfold Repeats at hafter
  omega

/-- Two of three bytes accepted, then a protocol error with `errno` 0: five bytes are under way or
left from then on. -/
theorem unclean_send_twoThenError :
    ∃ c, step threeQueued (.client, .queue (.send 1 twoThenError)) = some c ∧
      ∀ later, Reach step SendsFit c later →
        (later .client).queue.queued.length <
          (later .server).delivered.length + (later.incoming .server).length +
            (later .client).queue.bl.flatten.length := by
  have hfit : ChunksFit threeBytes := chunksFit_of_length (by decide)
  have hsend : send shaken 1 threeBytes twoThenError =
      some { ret := 0, bl := threeBytes, socket := shaken, accepted := [1, 2] } := by
    unfold send
    rw [chunkLoop.eq_def]
    rfl
  have hunclean : ¬SendClean shaken 1 threeBytes twoThenError := by
    refine (send_keeps_iff hfit hsend).not.mp fun hkeeps => ?_
    have htaken := (hkeeps (Int.le_refl 0)).1
    exact absurd (show ([1, 2] : Bytes) = [] from htaken) (by decide)
  have hqueue : TlsQueue.step { socket := shaken, bl := threeBytes, queued := [1, 2, 3] }
      (.send 1 twoThenError) =
      some { socket := shaken, bl := threeBytes, queued := [1, 2, 3], accepted := [1, 2] } := by
    simp only [TlsQueue.step, hsend]
    rfl
  have hstep : step threeQueued (.client, .queue (.send 1 twoThenError)) =
      some (Function.update threeQueued .client
        { queue :=
            { socket := shaken, bl := threeBytes, queued := [1, 2, 3], accepted := [1, 2] }
          connected := true }) := by
    show ((TlsQueue.step { socket := shaken, bl := threeBytes, queued := [1, 2, 3] }
      (.send 1 twoThenError)).map _).map _ = _
    rw [hqueue]
    rfl
  have hreach : Reach step SendsFit openShaken threeQueued :=
    .next .start (show SendsFit openShaken (.client, .queue (.append threeBytes)) from trivial)
      step_threeQueued
  exact ⟨_, hstep,
    unclean_send_duplicates (fun _ => shaken) (fun _ => true) hreach hfit hunclean hstep⟩

/-! ## Giving up -/

/-- The results of `try_handShaked` over a series of calls of `read` and `send`, where the
handshake calls would return `handshakes`. -/
def tryAll : TlsSocket → List Int → List Int
  | _, [] => []
  | socket, handshake :: rest =>
      (tryHandShaked socket handshake).1 :: tryAll (tryHandShaked socket handshake).2 rest

/-- Once the handshake is done, every call returns 1. -/
theorem tryAll_of_isHandShaked {socket : TlsSocket} (h : socket.isHandShaked = true)
    (handshakes : List Int) : tryAll socket handshakes = List.replicate handshakes.length 1 := by
  induction handshakes with
  | nil => rfl
  | cons handshake rest ih =>
      rw [tryAll, tryHandShaked_of_isHandShaked h, ih, List.length_cons, List.replicate_succ]

/-- The handshake gets done in one of the first `k` calls, before the counter runs out. -/
def DoneBy (retryCount : Nat) (handshakes : List Int) (k : Nat) : Prop :=
  ∃ j ≤ k, retryCount + j ≤ retryTime ∧ ∃ handshake ∈ handshakes[j]?, 0 < handshake

/-- Whether the handshake is done by a later call is up to the first one or the rest. -/
theorem doneBy_cons (retryCount : Nat) (handshake : Int) (rest : List Int) (k : Nat) :
    DoneBy retryCount (handshake :: rest) (k + 1) ↔
      (retryCount ≤ retryTime ∧ 0 < handshake) ∨ DoneBy (retryCount + 1) rest k := by
  unfold DoneBy
  constructor
  · rintro ⟨j, hj, hcount, h, hmem, hpos⟩
    cases j with
    | zero =>
        cases hmem
        exact .inl ⟨hcount, hpos⟩
    | succ j => exact .inr ⟨j, by omega, by omega, h, hmem, hpos⟩
  · rintro (⟨hcount, hpos⟩ | ⟨j, hj, hcount, h, hmem, hpos⟩)
    · exact ⟨0, by omega, hcount, handshake, rfl, hpos⟩
    · exact ⟨j + 1, by omega, by omega, h, hmem, hpos⟩

/-- The result of call `k`: 1 once the handshake is done, and else -1 when the counter has run out
and 0 before. -/
theorem tryAll_getElem? {socket : TlsSocket} (hnot : socket.isHandShaked = false)
    {handshakes : List Int} {k : Nat} {result : Int}
    (h : (tryAll socket handshakes)[k]? = some result) :
    (DoneBy socket.retryCount handshakes k → result = 1) ∧
      (¬DoneBy socket.retryCount handshakes k →
        result = if retryTime < socket.retryCount + k then -1 else 0) := by
  induction handshakes generalizing socket k with
  | nil => simp [tryAll] at h
  | cons handshake rest ih =>
      have htry : tryHandShaked socket handshake =
          if socket.retryCount > retryTime then (-1, ⟨false, socket.retryCount + 1⟩)
          else if handshake ≤ 0 then (0, ⟨false, socket.retryCount + 1⟩)
          else (1, ⟨true, socket.retryCount + 1⟩) := by
        simp [tryHandShaked, hnot]
      rw [tryAll, htry] at h
      cases k with
      | zero =>
          have hdone : DoneBy socket.retryCount (handshake :: rest) 0 ↔
              socket.retryCount ≤ retryTime ∧ 0 < handshake := by
            simp [DoneBy]
          rw [hdone, Nat.add_zero]
          simp only [List.getElem?_cons_zero, Option.some.injEq] at h
          split_ifs at h ⊢ <;> subst h <;> simp <;> omega
      | succ k =>
          rw [doneBy_cons]
          rw [List.getElem?_cons_succ] at h
          -- behind a call that did not get the handshake done, the rest decides
          have hlater (hno : ¬(socket.retryCount ≤ retryTime ∧ 0 < handshake))
              (h : (tryAll ⟨false, socket.retryCount + 1⟩ rest)[k]? = some result) :
              ((socket.retryCount ≤ retryTime ∧ 0 < handshake) ∨
                  DoneBy (socket.retryCount + 1) rest k → result = 1) ∧
                (¬((socket.retryCount ≤ retryTime ∧ 0 < handshake) ∨
                    DoneBy (socket.retryCount + 1) rest k) →
                  result = if retryTime < socket.retryCount + (k + 1) then -1 else 0) := by
            obtain ⟨hyes, hwait⟩ := ih rfl h
            rw [show socket.retryCount + (k + 1) = socket.retryCount + 1 + k by omega]
            exact ⟨fun hd => hyes (hd.resolve_left hno),
              fun hd => hwait fun hrest => hd (.inr hrest)⟩
          split_ifs at h with hout hneg
          · exact hlater (by omega) h
          · exact hlater (by omega) h
          · have hone : result = 1 := by
              rw [tryAll_of_isHandShaked rfl] at h
              exact (List.mem_replicate.mp (List.mem_of_getElem? h)).2
            exact ⟨fun _ => hone, fun hd => absurd (.inl ⟨by omega, by omega⟩) hd⟩

/-- Over the calls of `read` and `send` on a fresh socket, fewer than 2^31 of them, a call goes on
to the data exactly when one of the first 10001 handshake calls up to it succeeded, and is refused
for good exactly when all of the first 10001 failed. -/
theorem handshake_result_iff {handshakes : List Int} {k : Nat} {result : Int}
    (h : (tryAll { isHandShaked := false } handshakes)[k]? = some result) :
    (result = 1 ↔ ∃ j ≤ k, j ≤ retryTime ∧ ∃ handshake ∈ handshakes[j]?, 0 < handshake) ∧
      (result = -1 ↔
        retryTime < k ∧ ∀ j ≤ retryTime, ∀ handshake ∈ handshakes[j]?, handshake ≤ 0) := by
  obtain ⟨hdone, hnot⟩ := tryAll_getElem? rfl h
  simp only [DoneBy, Nat.zero_add] at hdone hnot
  by_cases hex : ∃ j ≤ k, j ≤ retryTime ∧ ∃ handshake ∈ handshakes[j]?, 0 < handshake
  · rw [hdone hex]
    refine ⟨iff_of_true rfl hex, iff_of_false (by decide) ?_⟩
    rintro ⟨-, hall⟩
    obtain ⟨j, -, hj, handshake, hmem, hpos⟩ := hex
    have := hall j hj handshake hmem
    omega
  · rw [hnot hex]
    refine ⟨iff_of_false (by split_ifs <;> decide) hex, ?_⟩
    split_ifs with hk
    · refine iff_of_true rfl ⟨hk, fun j hj handshake hmem => ?_⟩
      by_contra hpos
      exact hex ⟨j, by omega, hj, handshake, hmem, by omega⟩
    · exact iff_of_false (by decide) fun hall => hk hall.1

/-- A handshake that is done in the second call. -/
theorem handshake_result_second :
    (tryAll { isHandShaked := false } [0, 1, 0])[2]? = some 1 ∧
      ∃ j ≤ 2, j ≤ retryTime ∧ ∃ handshake ∈ [0, 1, (0 : Int)][j]?, 0 < handshake :=
  ⟨rfl, (@handshake_result_iff [0, 1, 0] 2 1 rfl).1.mp rfl⟩

end GlobalCacheAdaptor.Messenger.TlsChannel
