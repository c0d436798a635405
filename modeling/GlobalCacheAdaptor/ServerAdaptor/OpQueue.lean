import Mathlib.Data.List.Nodup
import GlobalCacheAdaptor.Lib.Run
import GlobalCacheAdaptor.ServerAdaptor.SaDef

/-!
# The client op queues

Connections push messages with `EnqueueClientop`, and each of `queueNum` workers swaps its queue
out under the lock and drains it unlocked (`OpHandlerThread`). A queue and its worker form a
`Lane`. Every section under the lock is one step; a wait on either condition variable may end at
any time, because wake-ups may be spurious. `Delivery` collects what holds in every reachable
state: order per object, no loss, no duplicate, aligned timestamps and no lost wake-up.
-/

namespace GlobalCacheAdaptor.ServerAdaptor.OpQueue

open Lib

/-! ## Queues and workers -/

/-- A `MOSDOp *`. `id` is the identity of the pointer: the number of the call that submitted it. -/
structure OpRef where
  id : Nat
  producer : Nat
  msg : MOSDOp

/-- `ClientOpQueue`: three queues that are meant to run in step. -/
structure ClientOpQueue where
  reqQueue : List OpRef := []
  tsQueue : List Nat := []
  period : List Nat := []

/-- `ClientOpQueue::EnQueue`, without its notification. -/
def ClientOpQueue.enQueue (queue : ClientOpQueue) (opReq : OpRef) (ts p : Nat) : ClientOpQueue :=
  { reqQueue := queue.reqQueue ++ [opReq]
    tsQueue := queue.tsQueue ++ [ts]
    period := queue.period ++ [p] }

/-- Where a worker is: about to take the lock and test the queue, draining its batch, or blocked in
`condOpReq.wait`, with or without a notification sent since it blocked. -/
inductive WorkerPhase where
  | ready
  | draining
  | waiting (notified : Bool)
  deriving DecidableEq, Repr

/-- The locals of `OpHandlerThread`. -/
structure Worker where
  dealQueue : List OpRef := []
  dealTs : List Nat := []
  periodTs : List Nat := []
  phase : WorkerPhase := .ready

/-- `condOpReq.notify_all`. -/
def Worker.notify (worker : Worker) : Worker :=
  match worker.phase with
  | .waiting _ => { worker with phase := .waiting true }
  | .ready | .draining => worker

/-- An op together with its two timestamps, as it was pushed. -/
structure Entry where
  op : OpRef
  ts : Nat
  period : Nat

/-- What a worker found at the heads of its three local queues when it took an op; `none` is the
front of an empty queue. -/
structure Taken where
  op : OpRef
  ts : Option Nat
  period : Option Nat

/-- A queue, its worker, and the history of what was pushed and taken. -/
structure Lane where
  queue : ClientOpQueue := {}
  worker : Worker := {}
  pushed : List Entry := []
  taken : List Taken := []

/-- `EnQueue` with its notification. -/
def Lane.push (lane : Lane) (entry : Entry) : Lane :=
  { lane with
    queue := lane.queue.enQueue entry.op entry.ts entry.period
    worker := lane.worker.notify
    pushed := lane.pushed ++ [entry] }

/-- The steps of a worker. -/
inductive WorkerStep where
  /-- Take the lock; swap the queues if there is something to do, and wait otherwise. -/
  | acquire
  /-- Take one op off the batch: the pops of the drain loop and of `ProcessOpReq`. -/
  | take
  /-- `condOpReq.wait` returns. -/
  | wake
  deriving DecidableEq, Repr

/-- One step of a worker. -/
def Lane.work (lane : Lane) : WorkerStep → Option Lane
  | .acquire =>
      if lane.worker.phase = .ready ∨
          (lane.worker.phase = .draining ∧ lane.worker.dealQueue.isEmpty) then
        if lane.queue.reqQueue.isEmpty then
          some { lane with worker := { lane.worker with phase := .waiting false } }
        else
          some { lane with
            queue :=
              { reqQueue := lane.worker.dealQueue
                tsQueue := lane.worker.dealTs
                period := lane.worker.periodTs }
            worker :=
              { dealQueue := lane.queue.reqQueue
                dealTs := lane.queue.tsQueue
                periodTs := lane.queue.period
                phase := .draining } }
      else none
  | .take =>
      if lane.worker.phase = .draining then
        match lane.worker.dealQueue with
        | [] => none
        | op :: rest =>
            some { lane with
              worker :=
                { lane.worker with
                  dealQueue := rest
                  dealTs := lane.worker.dealTs.tail
                  periodTs := lane.worker.periodTs.tail }
              taken := lane.taken ++ [⟨op, lane.worker.dealTs.head?, lane.worker.periodTs.head?⟩] }
      else none
  | .wake =>
      match lane.worker.phase with
      | .waiting _ => some { lane with worker := { lane.worker with phase := .ready } }
      | .ready | .draining => none

/-! ## The system -/

/-- The parameters of the queues: their number, the size above which a producer waits, and
`std::hash` on names. -/
structure Config where
  queueNum : Nat
  queueNum_pos : 0 < queueNum
  queueMaxCapacity : Nat
  hash : Bytes → Nat

/-- The queue of an object. -/
def Config.idx (cfg : Config) (name : Bytes) : Nat := cfg.hash name % cfg.queueNum

/-- Where a producer is: between calls, before its first section under the lock, or blocked in
`cond.wait` on a queue above its capacity. -/
inductive Producer where
  | idle
  | calling (op : OpRef) (ts : Nat)
  | waiting (op : OpRef) (ts : Nat)

/-- The lanes, the producers, and the history of all submitted ops. -/
structure State where
  lanes : Nat → Lane
  producers : Nat → Producer
  submitted : List OpRef

/-- The state before the first message. -/
def init : State := ⟨fun _ => {}, fun _ => .idle, []⟩

/-- One scheduling choice. Timestamps come from the clock. -/
inductive Event where
  /-- A producer calls `EnqueueClientop`. -/
  | submit (producer : Nat) (msg : MOSDOp) (ts : Nat)
  /-- A producer takes the lock for the first time: it pushes, or waits on a full queue. -/
  | enter (producer : Nat) (period : Nat)
  /-- A producer's `cond.wait` returns: it pushes without a second look at the size. -/
  | resume (producer : Nat) (period : Nat)
  /-- A worker makes a step. -/
  | work (worker : Nat) (action : WorkerStep)

/-- The end of `EnqueueClientop`: push on the queue of the object. -/
def enqueueClientop (cfg : Config) (s : State) (producer : Nat) (op : OpRef) (ts period : Nat) :
    State :=
  let idx := cfg.idx op.msg.oid
  { s with
    lanes := Function.update s.lanes idx ((s.lanes idx).push ⟨op, ts, period⟩)
    producers := Function.update s.producers producer .idle }

/-- One step of the system. -/
def step (cfg : Config) (s : State) : Event → Option State
  | .submit producer msg ts =>
      match s.producers producer with
      | .idle =>
          let op : OpRef := ⟨s.submitted.length, producer, msg⟩
          some { s with
            producers := Function.update s.producers producer (.calling op ts)
            submitted := s.submitted ++ [op] }
      | .calling _ _ | .waiting _ _ => none
  | .enter producer period =>
      match s.producers producer with
      | .calling op ts =>
          if cfg.queueMaxCapacity < (s.lanes (cfg.idx op.msg.oid)).queue.reqQueue.length then
            some { s with producers := Function.update s.producers producer (.waiting op ts) }
          else some (enqueueClientop cfg s producer op ts period)
      | .idle | .waiting _ _ => none
  | .resume producer period =>
      match s.producers producer with
      | .waiting op ts => some (enqueueClientop cfg s producer op ts period)
      | .idle | .calling _ _ => none
  | .work worker action =>
      if worker < cfg.queueNum then
        match (s.lanes worker).work action with
        | some lane => some { s with lanes := Function.update s.lanes worker lane }
        | none => none
      else none

/-! ## One lane -/

/-- Three queues hold the given entries in step. -/
structure Holds (entries : List Entry) (ops : List OpRef) (ts period : List Nat) : Prop where
  ops : ops = entries.map Entry.op
  ts : ts = entries.map Entry.ts
  period : period = entries.map Entry.period

/-- An entry as a worker takes it when its queues are in step. -/
def Entry.taken (entry : Entry) : Taken := ⟨entry.op, some entry.ts, some entry.period⟩

/-- What was pushed on a lane is what was taken, then what the worker holds, then what is queued;
all queues are in step; the worker holds something only while it drains; and it waits without a
notification only on an empty queue. -/
structure Lane.Inv (lane : Lane) : Prop where
  split : ∃ done batch queued : List Entry,
    lane.pushed = done ++ (batch ++ queued) ∧ lane.taken = done.map Entry.taken ∧
    Holds batch lane.worker.dealQueue lane.worker.dealTs lane.worker.periodTs ∧
    Holds queued lane.queue.reqQueue lane.queue.tsQueue lane.queue.period
  idle : lane.worker.phase ≠ .draining → lane.worker.dealQueue = []
  wait : lane.worker.phase = .waiting false → lane.queue.reqQueue = []

/-- Empty queues hold nothing in step. -/
theorem Holds.nil : Holds [] [] [] [] := ⟨rfl, rfl, rfl⟩

/-- A push at the end of all three queues keeps them in step. -/
theorem Holds.push {entries : List Entry} {ops : List OpRef} {ts period : List Nat}
    (h : Holds entries ops ts period) (entry : Entry) :
    Holds (entries ++ [entry]) (ops ++ [entry.op]) (ts ++ [entry.ts])
      (period ++ [entry.period]) := by
  obtain ⟨rfl, rfl, rfl⟩ := h
  constructor <;> simp

/-- A new lane is in order. -/
theorem inv_newLane : ({} : Lane).Inv :=
  ⟨⟨[], [], [], rfl, rfl, .nil, .nil⟩, fun _ => rfl, fun _ => rfl⟩

/-- A notification changes nothing but the phase of a waiting worker. -/
theorem notify_cases (worker : Worker) :
    (∃ notified, worker.phase = .waiting notified ∧
      worker.notify = { worker with phase := .waiting true }) ∨
    ((∀ notified, worker.phase ≠ .waiting notified) ∧ worker.notify = worker) := by
  unfold Worker.notify
  cases hphase : worker.phase with
  | waiting notified => exact .inl ⟨notified, rfl, rfl⟩
  | ready => exact .inr ⟨by simp, rfl⟩
  | draining => exact .inr ⟨by simp, rfl⟩

/-- A push keeps the lane in order: the notification goes to a worker that waits. -/
theorem Lane.Inv.push {lane : Lane} (h : lane.Inv) (entry : Entry) : (lane.push entry).Inv := by
  obtain ⟨⟨done, batch, queued, hpushed, htaken, hbatch, hqueued⟩, hidle, hwait⟩ := h
  have hsplit : lane.pushed ++ [entry] = done ++ (batch ++ (queued ++ [entry])) := by
    simp [hpushed]
  rcases notify_cases lane.worker with ⟨notified, hphase, hnotify⟩ | ⟨hphase, hnotify⟩
  · refine ⟨⟨done, batch, queued ++ [entry], hsplit, htaken, ?_, hqueued.push entry⟩, ?_, ?_⟩
    · simpa only [Lane.push, hnotify] using hbatch
    · intro _
      simp only [Lane.push, hnotify]
      exact hidle (by simp [hphase])
    · intro hunnotified
      simp [Lane.push, hnotify] at hunnotified
  · refine ⟨⟨done, batch, queued ++ [entry], hsplit, htaken, ?_, hqueued.push entry⟩, ?_, ?_⟩
    · simpa only [Lane.push, hnotify] using hbatch
    · simpa only [Lane.push, hnotify] using hidle
    · intro hunnotified
      simp only [Lane.push, hnotify] at hunnotified
      exact absurd hunnotified (hphase false)

/-- Every step of the worker keeps the lane in order, and what was pushed on it. -/
theorem Lane.Inv.work {lane lane' : Lane} {action : WorkerStep} (h : lane.Inv)
    (hwork : lane.work action = some lane') : lane'.Inv ∧ lane'.pushed = lane.pushed := by
  obtain ⟨⟨done, batch, queued, hpushed, htaken, hbatch, hqueued⟩, hidle, hwait⟩ := h
  cases action with
  | acquire =>
      simp only [Lane.work] at hwork
      split_ifs at hwork with hfree hempty
      · cases hwork
        refine ⟨⟨⟨done, batch, queued, hpushed, htaken, hbatch, hqueued⟩, ?_, ?_⟩, rfl⟩
        · intro _
          rcases hfree with hready | ⟨-, hdeal⟩
          · exact hidle (by simp [hready])
          · exact List.isEmpty_iff.mp hdeal
        · exact fun _ => List.isEmpty_iff.mp hempty
      · cases hwork
        -- the local queues are empty, so the swap leaves an empty queue behind
        have hdeal : lane.worker.dealQueue = [] := by
          rcases hfree with hready | ⟨-, hdeal⟩
          · exact hidle (by simp [hready])
          · exact List.isEmpty_iff.mp hdeal
        have hnil : batch = [] := by
          rw [hbatch.ops] at hdeal
          exact List.map_eq_nil_iff.mp hdeal
        subst hnil
        refine ⟨⟨⟨done, queued, [], by simpa using hpushed, htaken, hqueued, hbatch⟩, ?_, ?_⟩, rfl⟩
        · exact fun hne => absurd rfl hne
        · exact fun hphase => by cases hphase
  | take =>
      simp only [Lane.work] at hwork
      split_ifs at hwork with hdraining
      cases hbatch' : batch with
      | nil =>
          rw [hbatch.ops, hbatch'] at hwork
          cases hwork
      | cons entry rest =>
          subst hbatch'
          rw [hbatch.ops, hbatch.ts, hbatch.period] at hwork
          simp only [List.map_cons, List.head?_cons, List.tail_cons, Option.some.injEq] at hwork
          subst hwork
          refine ⟨⟨⟨done ++ [entry], rest, queued, by simp [hpushed], ?_, ⟨rfl, rfl, rfl⟩, hqueued⟩,
            fun hne => absurd hdraining hne, ?_⟩, rfl⟩
          · simp [htaken, Entry.taken]
          · intro hphase
            simp [hdraining] at hphase
  | wake =>
      simp only [Lane.work] at hwork
      cases hphase : lane.worker.phase with
      | ready => simp [hphase] at hwork
      | draining => simp [hphase] at hwork
      | waiting notified =>
          simp only [hphase, Option.some.injEq] at hwork
          subst hwork
          refine ⟨⟨⟨done, batch, queued, hpushed, htaken, hbatch, hqueued⟩, ?_, ?_⟩, rfl⟩
          · exact fun _ => hidle (by simp [hphase])
          · exact fun h => by cases h

/-! ## A worker left alone takes everything -/

/-- The worker acts on its own: it does not rely on a spurious wake-up. -/
def Lane.ownStep (lane : Lane) (action : WorkerStep) : Prop :=
  action = .wake → lane.worker.phase = .waiting true

/-- With nothing held and nothing queued, everything pushed was taken. -/
theorem Lane.Inv.taken_all {lane : Lane} (h : lane.Inv) (hdeal : lane.worker.dealQueue = [])
    (hqueue : lane.queue.reqQueue = []) :
    lane.taken.map Taken.op = lane.pushed.map Entry.op := by
  obtain ⟨done, batch, queued, hpushed, htaken, hbatch, hqueued⟩ := h.split
  rw [hbatch.ops, List.map_eq_nil_iff] at hdeal
  rw [hqueued.ops, List.map_eq_nil_iff] at hqueue
  subst hdeal hqueue
  simp [hpushed, htaken, Entry.taken]

/-- A draining worker can empty its batch. -/
theorem Lane.Inv.drain {lane : Lane} (h : lane.Inv) (hdraining : lane.worker.phase = .draining) :
    ∃ lane', Reach Lane.work Lane.ownStep lane lane' ∧ lane'.Inv ∧
      lane'.worker.phase = .draining ∧ lane'.worker.dealQueue = [] ∧
      lane'.queue = lane.queue ∧ lane'.pushed = lane.pushed := by
  induction hdeal : lane.worker.dealQueue generalizing lane with
  | nil => exact ⟨lane, .start, h, hdraining, hdeal, rfl, rfl⟩
  | cons op rest ih =>
      cases htake : lane.work .take with
      | none => simp [Lane.work, hdraining, hdeal] at htake
      | some next =>
          obtain ⟨hinv, -⟩ := h.work htake
          have hnext := htake
          simp only [Lane.work, hdraining, hdeal, if_true, Option.some.injEq] at hnext
          subst hnext
          obtain ⟨lane', hreach, hinv', hphase, hempty, hqueue, hpushed⟩ := ih hinv rfl rfl
          exact ⟨lane', (Reach.next .start (by simp [Lane.ownStep]) htake).trans hreach, hinv',
            hphase, hempty, hqueue, hpushed⟩

/-- A worker that holds nothing and is about to test its queue can take everything queued. -/
theorem Lane.Inv.take_queued {lane : Lane} (h : lane.Inv) (hdeal : lane.worker.dealQueue = [])
    (hphase : lane.worker.phase = .ready ∨ lane.worker.phase = .draining) :
    ∃ lane', Reach Lane.work Lane.ownStep lane lane' ∧
      lane'.taken.map Taken.op = lane.pushed.map Entry.op := by
  by_cases hqueue : lane.queue.reqQueue = []
  · exact ⟨lane, .start, h.taken_all hdeal hqueue⟩
  · have hfree : lane.worker.phase = .ready ∨
        (lane.worker.phase = .draining ∧ lane.worker.dealQueue = []) :=
      hphase.imp_right fun hdraining => ⟨hdraining, hdeal⟩
    cases hacquire : lane.work .acquire with
    | none => simp [Lane.work, List.isEmpty_iff, if_pos hfree, hqueue] at hacquire
    | some next =>
        obtain ⟨hinv, -⟩ := h.work hacquire
        have hnext := hacquire
        simp only [Lane.work, List.isEmpty_iff, if_pos hfree, if_neg hqueue,
          Option.some.injEq] at hnext
        subst hnext
        obtain ⟨lane', hreach, hinv', -, hempty, hsame, hpushed⟩ := hinv.drain rfl
        refine ⟨lane', (Reach.next .start (by simp [Lane.ownStep]) hacquire).trans hreach, ?_⟩
        rw [hinv'.taken_all hempty (by rw [hsame]; exact hdeal), hpushed]

/-- From every lane in order, its worker can take everything pushed so far. -/
theorem Lane.Inv.take_all {lane : Lane} (h : lane.Inv) :
    ∃ lane', Reach Lane.work Lane.ownStep lane lane' ∧
      lane'.taken.map Taken.op = lane.pushed.map Entry.op := by
  cases hphase : lane.worker.phase with
  | ready => exact h.take_queued (h.idle (by simp [hphase])) (.inl hphase)
  | draining =>
      obtain ⟨lane', hreach, hinv, hdraining, hempty, -, hpushed⟩ := h.drain hphase
      obtain ⟨lane'', hreach', htaken⟩ := hinv.take_queued hempty (.inr hdraining)
      exact ⟨lane'', hreach.trans hreach', htaken.trans (by rw [hpushed])⟩
  | waiting notified =>
      have hdeal := h.idle (by simp [hphase])
      cases notified with
      | false => exact ⟨lane, .start, h.taken_all hdeal (h.wait hphase)⟩
      | true =>
          cases hwake : lane.work .wake with
          | none => simp [Lane.work, hphase] at hwake
          | some next =>
              obtain ⟨hinv, hpushed⟩ := h.work hwake
              have hnext := hwake
              simp only [Lane.work, hphase, Option.some.injEq] at hnext
              subst hnext
              obtain ⟨lane', hreach, htaken⟩ := hinv.take_queued hdeal (.inl rfl)
              exact ⟨lane', (Reach.next .start (fun _ => hphase) hwake).trans hreach,
                htaken.trans (by rw [hpushed])⟩

/-! ## The whole system -/

/-- The op a producer has submitted and not yet pushed. -/
def Producer.pending : Producer → List OpRef
  | .idle => []
  | .calling op _ | .waiting op _ => [op]

/-- The op comes from this producer and names this object. -/
def OpRef.isBy (producer : Nat) (name : Bytes) (op : OpRef) : Bool :=
  op.producer = producer && op.msg.oid = name

/-- Every lane is in order and holds the objects that hash to it; and per producer and object,
what was submitted is what was pushed, then what is on its way. -/
structure Inv (cfg : Config) (s : State) : Prop where
  lane : ∀ q, (s.lanes q).Inv
  home : ∀ q, ∀ entry ∈ (s.lanes q).pushed, cfg.idx entry.op.msg.oid = q
  owner : ∀ p, ∀ op ∈ (s.producers p).pending, op.producer = p
  order : ∀ p name, s.submitted.filter (OpRef.isBy p name) =
    ((s.lanes (cfg.idx name)).pushed.map Entry.op).filter (OpRef.isBy p name) ++
      (s.producers p).pending.filter (OpRef.isBy p name)
  ids : s.submitted.map OpRef.id = List.range s.submitted.length

variable {cfg : Config} {s t : State}

theorem inv_init : Inv cfg init :=
  ⟨fun _ => inv_newLane, by simp [init], by simp [init, Producer.pending],
    by simp [init, Producer.pending], rfl⟩

/-- A push moves the op of its producer from under way to pushed, and nothing else. -/
theorem Inv.enqueue {producer : Nat} {op : OpRef} (h : Inv cfg s)
    (hpending : (s.producers producer).pending = [op]) (ts period : Nat) :
    Inv cfg (enqueueClientop cfg s producer op ts period) := by
  have howner : op.producer = producer := h.owner producer op (by simp [hpending])
  refine ⟨?_, ?_, ?_, ?_, h.ids⟩
  · intro q
    by_cases hq : q = cfg.idx op.msg.oid
    · subst hq
      simp only [enqueueClientop, Function.update_self]
      exact (h.lane _).push _
    · simp only [enqueueClientop, Function.update_of_ne hq]
      exact h.lane q
  · intro q entry hentry
    by_cases hq : q = cfg.idx op.msg.oid
    · subst hq
      simp only [enqueueClientop, Function.update_self, Lane.push, List.mem_append,
        List.mem_singleton] at hentry
      rcases hentry with hold | rfl
      · exact h.home _ entry hold
      · rfl
    · simp only [enqueueClientop, Function.update_of_ne hq] at hentry
      exact h.home q entry hentry
  · intro p op' hop'
    by_cases hp : p = producer
    · subst hp
      simp [enqueueClientop, Producer.pending] at hop'
    · simp only [enqueueClientop, Function.update_of_ne hp] at hop'
      exact h.owner p op' hop'
  · intro p name
    have horder := h.order p name
    by_cases hp : p = producer
    · subst hp
      rw [hpending] at horder
      by_cases hname : op.msg.oid = name
      · subst hname
        simpa [enqueueClientop, Lane.push, Producer.pending] using horder
      · have hother : [op].filter (OpRef.isBy p name) = [] := by simp [OpRef.isBy, hname]
        rw [hother] at horder
        by_cases hq : cfg.idx name = cfg.idx op.msg.oid
        · simpa [enqueueClientop, hq, Lane.push, Producer.pending, hother] using horder
        · simpa [enqueueClientop, hq, Producer.pending] using horder
    · have hother : [op].filter (OpRef.isBy p name) = [] := by
        have hne : producer ≠ p := fun heq => hp heq.symm
        simp [OpRef.isBy, howner, hne]
      by_cases hq : cfg.idx name = cfg.idx op.msg.oid
      · simpa [enqueueClientop, hq, hp, Lane.push, hother] using horder
      · simpa [enqueueClientop, hq, hp] using horder

/-- A producer that submits has nothing else under way. -/
theorem Inv.submit {producer : Nat} (h : Inv cfg s) (hidle : s.producers producer = .idle)
    (msg : MOSDOp) (ts : Nat) :
    Inv cfg { s with
      producers := Function.update s.producers producer
        (.calling ⟨s.submitted.length, producer, msg⟩ ts)
      submitted := s.submitted ++ [⟨s.submitted.length, producer, msg⟩] } := by
  refine ⟨h.lane, h.home, ?_, ?_, ?_⟩
  · intro p op hop
    by_cases hp : p = producer
    · subst hp
      simp only [Function.update_self, Producer.pending, List.mem_singleton] at hop
      rw [hop]
    · simp only [Function.update_of_ne hp] at hop
      exact h.owner p op hop
  · intro p name
    have horder := h.order p name
    by_cases hp : p = producer
    · subst hp
      rw [hidle] at horder
      simp only [Producer.pending, List.filter_nil, List.append_nil] at horder
      simp only [List.filter_append, horder, Function.update_self, Producer.pending]
    · have hne : producer ≠ p := fun heq => hp heq.symm
      simp only [List.filter_append, horder, Function.update_of_ne hp]
      simp [OpRef.isBy, hne]
  · simp [h.ids, List.range_succ]

/-- A wait on a full queue changes nothing the invariant sees. -/
theorem Inv.wait {producer : Nat} {op : OpRef} {ts : Nat} (h : Inv cfg s)
    (hcalling : s.producers producer = .calling op ts) :
    Inv cfg { s with producers := Function.update s.producers producer (.waiting op ts) } := by
  have hpending : ∀ p, (Function.update s.producers producer (.waiting op ts) p).pending =
      (s.producers p).pending := by
    intro p
    by_cases hp : p = producer
    · subst hp
      rw [Function.update_self, hcalling]
      rfl
    · rw [Function.update_of_ne hp]
  refine ⟨h.lane, h.home, ?_, ?_, h.ids⟩
  · intro p op' hop'
    rw [hpending] at hop'
    exact h.owner p op' hop'
  · intro p name
    rw [hpending]
    exact h.order p name

/-- A step of a worker keeps the invariant. -/
theorem Inv.work {worker : Nat} {action : WorkerStep} {lane : Lane} (h : Inv cfg s)
    (hwork : (s.lanes worker).work action = some lane) :
    Inv cfg { s with lanes := Function.update s.lanes worker lane } := by
  obtain ⟨hinv, hsame⟩ := (h.lane worker).work hwork
  have hpushed : ∀ q, (Function.update s.lanes worker lane q).pushed = (s.lanes q).pushed := by
    intro q
    by_cases hq : q = worker
    · subst hq
      rw [Function.update_self, hsame]
    · rw [Function.update_of_ne hq]
  refine ⟨?_, ?_, h.owner, ?_, h.ids⟩
  · intro q
    by_cases hq : q = worker
    · subst hq
      simpa only [Function.update_self] using hinv
    · simpa only [Function.update_of_ne hq] using h.lane q
  · intro q entry hentry
    rw [hpushed] at hentry
    exact h.home q entry hentry
  · intro p name
    rw [hpushed]
    exact h.order p name

/-- Every step keeps the invariant. -/
theorem Inv.step {event : Event} (h : Inv cfg s) (hstep : step cfg s event = some t) :
    Inv cfg t := by
  cases event with
  | submit producer msg ts =>
      cases hproducer : s.producers producer with
      | idle =>
          simp only [OpQueue.step, hproducer, Option.some.injEq] at hstep
          subst hstep
          exact h.submit hproducer msg ts
      | calling op ts' => simp [OpQueue.step, hproducer] at hstep
      | waiting op ts' => simp [OpQueue.step, hproducer] at hstep
  | enter producer period =>
      cases hproducer : s.producers producer with
      | idle => simp [OpQueue.step, hproducer] at hstep
      | calling op ts =>
          simp only [OpQueue.step, hproducer] at hstep
          split_ifs at hstep
          · cases hstep
            exact h.wait hproducer
          · cases hstep
            exact h.enqueue (by rw [hproducer]; rfl) ts period
      | waiting op ts => simp [OpQueue.step, hproducer] at hstep
  | resume producer period =>
      cases hproducer : s.producers producer with
      | idle => simp [OpQueue.step, hproducer] at hstep
      | calling op ts => simp [OpQueue.step, hproducer] at hstep
      | waiting op ts =>
          simp only [OpQueue.step, hproducer, Option.some.injEq] at hstep
          subst hstep
          exact h.enqueue (by rw [hproducer]; rfl) ts period
  | work worker action =>
      simp only [OpQueue.step] at hstep
      split_ifs at hstep
      cases hwork : (s.lanes worker).work action with
      | none => simp [hwork] at hstep
      | some lane =>
          simp only [hwork, Option.some.injEq] at hstep
          subst hstep
          exact h.work hwork

/-! ## Delivery -/

/-- Only worker `q` acts, and it does not rely on a spurious wake-up. -/
def ownStep (q : Nat) (s : State) : Event → Prop
  | .work worker action => worker = q ∧ (s.lanes q).ownStep action
  | .submit _ _ _ | .enter _ _ | .resume _ _ => False

/-- What one worker can do to its lane, it can do in the system. -/
theorem reach_of_lane {q : Nat} (hq : q < cfg.queueNum) {lane : Lane}
    (h : Reach Lane.work Lane.ownStep (s.lanes q) lane) :
    Reach (step cfg) (ownStep q) s { s with lanes := Function.update s.lanes q lane } := by
  induction h with
  | start =>
      rw [Function.update_eq_self]
      exact .start
  | @next before after action _ hown hwork ih =>
      have hok : ownStep q { s with lanes := Function.update s.lanes q before }
          (.work q action) := ⟨rfl, by simpa only [Function.update_self] using hown⟩
      refine ih.next hok ?_
      simp only [step, if_pos hq, Function.update_self, hwork, Function.update_idem]

/-- What the queues guarantee in a state. -/
structure Delivery (cfg : Config) (s : State) : Prop where
  /-- All ops on an object go through the queue of that object. -/
  same_queue : ∀ q, ∀ entry ∈ (s.lanes q).pushed, q = cfg.idx entry.op.msg.oid
  /-- Ops are taken in the order they were pushed, each with its own two timestamps. -/
  taken_in_push_order : ∀ q, (s.lanes q).taken <+: (s.lanes q).pushed.map Entry.taken
  /-- The ops of one producer on one object are taken in the order they were submitted. -/
  taken_in_submission_order : ∀ p name,
    ((s.lanes (cfg.idx name)).taken.map Taken.op).filter (OpRef.isBy p name) <+:
      s.submitted.filter (OpRef.isBy p name)
  /-- The ops of one producer on one object are pushed in the order they were submitted, and only
  the last can be still under way. -/
  pushed_in_submission_order : ∀ p name,
    s.submitted.filter (OpRef.isBy p name) =
      ((s.lanes (cfg.idx name)).pushed.map Entry.op).filter (OpRef.isBy p name) ++
        (s.producers p).pending.filter (OpRef.isBy p name)
  /-- Every pushed op is taken, in the batch of the worker or queued. -/
  not_lost : ∀ q, (s.lanes q).pushed.map Entry.op =
    (s.lanes q).taken.map Taken.op ++
      ((s.lanes q).worker.dealQueue ++ (s.lanes q).queue.reqQueue)
  /-- No op is pushed, and so none is taken, twice. -/
  not_duplicated : ∀ q, ((s.lanes q).pushed.map Entry.op).Nodup
  /-- The worker of a queue, acting alone, takes everything pushed so far. -/
  will_be_taken : ∀ q < cfg.queueNum, ∃ t, Reach (step cfg) (ownStep q) s t ∧
    (t.lanes q).taken.map Taken.op = (s.lanes q).pushed.map Entry.op
  /-- The three queues have equal length. -/
  aligned : ∀ q, (s.lanes q).queue.tsQueue.length = (s.lanes q).queue.reqQueue.length ∧
    (s.lanes q).queue.period.length = (s.lanes q).queue.reqQueue.length
  /-- A worker that waits with no notification pending has an empty queue. -/
  no_lost_wakeup : ∀ q, (s.lanes q).worker.phase = .waiting false →
    (s.lanes q).queue.reqQueue = []

/-- Submitted ops are distinct. -/
theorem Inv.submitted_nodup (h : Inv cfg s) : s.submitted.Nodup := by
  have hids : (s.submitted.map OpRef.id).Nodup := by
    rw [h.ids]
    exact List.nodup_range
  exact hids.of_map OpRef.id

/-- Pushed ops are distinct, because per producer and object they are among the submitted ones. -/
theorem Inv.pushed_nodup (h : Inv cfg s) (q : Nat) :
    ((s.lanes q).pushed.map Entry.op).Nodup := by
  classical
  rw [List.nodup_iff_count]
  intro op
  by_cases hmem : op ∈ (s.lanes q).pushed.map Entry.op
  · obtain ⟨entry, hentry, rfl⟩ := List.mem_map.mp hmem
    have hhome := h.home q entry hentry
    have hself : OpRef.isBy entry.op.producer entry.op.msg.oid entry.op = true := by
      simp [OpRef.isBy]
    have horder := h.order entry.op.producer entry.op.msg.oid
    rw [hhome] at horder
    calc ((s.lanes q).pushed.map Entry.op).count entry.op
        = (((s.lanes q).pushed.map Entry.op).filter
            (OpRef.isBy entry.op.producer entry.op.msg.oid)).count entry.op :=
          (List.count_filter hself).symm
      _ ≤ (s.submitted.filter (OpRef.isBy entry.op.producer entry.op.msg.oid)).count entry.op := by
          rw [horder]
          exact (List.sublist_append_left _ _).count_le _
      _ = s.submitted.count entry.op := List.count_filter hself
      _ ≤ 1 := List.nodup_iff_count.mp h.submitted_nodup _
  · rw [List.count_eq_zero_of_not_mem hmem]
    exact Nat.zero_le 1

/-- In every reachable state of every interleaving of producers and workers, the queues deliver
each object's ops in order, once, with their own timestamps, and no worker sleeps through a
push. -/
theorem queues_deliver (h : Reach (step cfg) anyEvent init s) : Delivery cfg s := by
  have hinv : Inv cfg s :=
    h.invariant (Inv cfg) inv_init fun _ _ _ hs _ hstep => hs.step hstep
  refine ⟨fun q entry hentry => (hinv.home q entry hentry).symm, ?_, ?_, hinv.order, ?_,
    hinv.pushed_nodup, ?_, ?_, fun q => (hinv.lane q).wait⟩
  · intro q
    obtain ⟨done, batch, queued, hpushed, htaken, -, -⟩ := (hinv.lane q).split
    rw [hpushed, htaken, List.map_append]
    exact List.prefix_append _ _
  · intro p name
    obtain ⟨done, batch, queued, hpushed, htaken, -, -⟩ := (hinv.lane (cfg.idx name)).split
    have hops : done.map (Taken.op ∘ Entry.taken) = done.map Entry.op := rfl
    rw [hinv.order p name, hpushed, htaken, List.map_map, hops, List.map_append,
      List.filter_append, List.append_assoc]
    exact List.prefix_append _ _
  · intro q
    obtain ⟨done, batch, queued, hpushed, htaken, hbatch, hqueued⟩ := (hinv.lane q).split
    have hops : done.map (Taken.op ∘ Entry.taken) = done.map Entry.op := rfl
    rw [hpushed, htaken, hbatch.ops, hqueued.ops, List.map_map, hops, List.map_append,
      List.map_append]
  · intro q hq
    obtain ⟨lane, hreach, htaken⟩ := (hinv.lane q).take_all
    exact ⟨_, reach_of_lane hq hreach, by simpa only [Function.update_self] using htaken⟩
  · intro q
    obtain ⟨done, batch, queued, hpushed, htaken, hbatch, hqueued⟩ := (hinv.lane q).split
    rw [hqueued.ops, hqueued.ts, hqueued.period]
    simp

/-- Two queues, with names hashed by their length. -/
def twoQueues : Config := ⟨2, by decide, 1, List.length⟩

/-- A worker finds its queue empty and waits; a push wakes it, and it takes the op. The second op on
the object is pushed next to the batch and taken after the first; the third is under way. -/
theorem queues_deliver_two :
    ∃ s, Reach (step twoQueues) anyEvent init s ∧
      (s.lanes 1).taken.map (fun taken => taken.op.id) = [0, 1] ∧ s.submitted.length = 3 ∧
      Delivery twoQueues s := by
  have h : Reach (step twoQueues) anyEvent init _ :=
    Reach.of_run [.work 1 .acquire, .submit 0 { oid := ascii "a" } 10, .enter 0 11, .work 1 .wake,
      .work 1 .acquire, .submit 0 { oid := ascii "a" } 20, .enter 0 21, .work 1 .take,
      .work 1 .acquire, .work 1 .take, .submit 0 { oid := ascii "a" } 30] rfl
  exact ⟨_, h, by decide, by decide, queues_deliver h⟩

end GlobalCacheAdaptor.ServerAdaptor.OpQueue
