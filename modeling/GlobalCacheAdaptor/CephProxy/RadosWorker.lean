import Mathlib.Data.List.Nodup
import GlobalCacheAdaptor.Lib.OrdMap
import GlobalCacheAdaptor.Lib.Run

/-!
# The I/O workers of the proxy

`RadosWorker::Queue` finds or creates the `RadosIOWorker` of a pool and pushes an op on it; the
worker's thread (`OpHandler`) swaps the queue out under the lock and hands the ops to librados
unlocked. A completion's function is called by librados, or by the worker when there is no I/O
context or the submission fails. `Stop` waits for each worker to run dry and joins it.

Every section under a lock is one step, a wait on a condition variable may end at any time, and
librados calls a completion it owes whenever it likes. `WorkersDeliver` collects what holds in
every reachable state.
-/

namespace GlobalCacheAdaptor.CephProxy.RadosWorker

open Lib

/-! ## One worker -/

/-- The `opType` of an op, as `RadosOperationAioOperate` switches on it. -/
inductive OpType where
  | batchRead
  | batchWrite
  | unknown
  deriving DecidableEq

/-- A `RadosObjectOperation` queued with its completion. `id` is its identity: the number of the
call that queued it. -/
structure Op where
  id : Nat
  poolId : Int
  opType : OpType
  deriving DecidableEq

/-- Where the thread of a worker is: before it first takes the lock, handling a batch, blocked in
`ioworkerCond.wait` with or without a notification sent since, or returned. -/
inductive Phase where
  | ready
  | draining
  | waiting (notified : Bool)
  | exited
  deriving DecidableEq

/-- `RadosIOWorker`, with `ls` the rest of the batch of its thread, and the history of what was
accepted and taken. -/
structure RadosIOWorker where
  poolId : Int
  ops : List Op := []
  ls : List Op := []
  phase : Phase := .ready
  ioworkerStop : Bool := false
  ioworkerRunning : Bool := false
  ioworkerEmptyWait : Bool := false
  accepted : List Op := []
  taken : List Op := []

/-- `IO_WORKER_QUEUE_MAX_COUNT`. -/
def ioWorkerQueueMaxCount : Nat := 65535

/-- `ioworkerCond.notify_all`. -/
def RadosIOWorker.notify (w : RadosIOWorker) : RadosIOWorker :=
  match w.phase with
  | .waiting _ => { w with phase := .waiting true }
  | .ready | .draining | .exited => w

/-- `RadosIOWorker::Queue`: the thread is notified before the op is pushed. -/
def RadosIOWorker.queue (w : RadosIOWorker) (op : Op) : RadosIOWorker × Int :=
  if ioWorkerQueueMaxCount < w.ops.length then (w, -1)
  else
    let w := if w.ops.isEmpty then w.notify else w
    ({ w with ops := w.ops ++ [op], accepted := w.accepted ++ [op] }, 0)

/-- The end of `OpHandler`. -/
def RadosIOWorker.exit (w : RadosIOWorker) : RadosIOWorker :=
  { w with phase := .exited, ioworkerStop := false }

/-- The inner loop of `OpHandler` and what follows it, with the lock held: swap the queue, or
return or wait when it is empty. The flag says whether `ioworkerEmptyCond` is notified. -/
def RadosIOWorker.innerLoop (w : RadosIOWorker) : RadosIOWorker × Bool :=
  if w.ops.isEmpty then
    if w.ioworkerStop then (w.exit, true)
    else ({ w with phase := .waiting false }, w.ioworkerEmptyWait)
  else ({ w with ls := w.ops, ops := [], ioworkerRunning := true, phase := .draining }, false)

/-- The head of the outer loop of `OpHandler`. -/
def RadosIOWorker.outerLoop (w : RadosIOWorker) : RadosIOWorker × Bool :=
  if w.ioworkerStop then (w.exit, true) else w.innerLoop

/-- What the thread meets when it handles an op: no I/O context for the pool, or what
`aio_operate` returns. -/
inductive Answer where
  | noIoCtx
  | aio (ret : Int)
  deriving DecidableEq

/-- `RadosOperationAioOperate`: an unknown op never reaches librados. -/
def radosOperationAioOperate (op : Op) (ret : Int) : Int :=
  match op.opType with
  | .batchRead | .batchWrite => ret
  | .unknown => -22

/-- The steps of a worker's thread. -/
inductive WorkerStep where
  /-- Take the lock, at the start or after a batch. -/
  | acquire
  /-- Handle one op of the batch. -/
  | take (answer : Answer)
  /-- `ioworkerCond.wait` returns. -/
  | wake
  deriving DecidableEq

/-- What a step of a worker does to the rest: notify `ioworkerEmptyCond`, hand an op to librados,
call the function of an op. `handled` is the op it handled and what it met there. -/
structure Effect where
  notifyEmpty : Bool := false
  handled : List (Op × Answer) := []
  sent : List Op := []
  called : List (Op × Int) := []

/-- The body of the batch loop: who gets the op. -/
def handleOp (op : Op) (answer : Answer) : Effect :=
  match answer with
  | .noIoCtx => { handled := [(op, answer)], called := [(op, -2)] }
  | .aio ret =>
      if radosOperationAioOperate op ret < 0 then
        { handled := [(op, answer)], called := [(op, radosOperationAioOperate op ret)] }
      else if radosOperationAioOperate op ret = 0 then
        { handled := [(op, answer)], sent := [op] }
      else { handled := [(op, answer)] }

/-- One step of `OpHandler`. -/
def RadosIOWorker.work (w : RadosIOWorker) : WorkerStep → Option (RadosIOWorker × Effect)
  | .acquire =>
      match w.phase with
      | .ready => some (w.outerLoop.1, { notifyEmpty := w.outerLoop.2 })
      | .draining =>
          -- after a batch the inner loop goes on without the test of `ioworkerStop`
          if w.ls.isEmpty then
            let w := { w with ioworkerRunning := false }
            some (w.innerLoop.1, { notifyEmpty := w.innerLoop.2 })
          else none
      | .waiting _ | .exited => none
  | .take answer =>
      match w.phase, w.ls with
      | .draining, op :: rest =>
          some ({ w with ls := rest, taken := w.taken ++ [op] }, handleOp op answer)
      | _, _ => none
  | .wake =>
      match w.phase with
      | .waiting _ => some (w.outerLoop.1, { notifyEmpty := w.outerLoop.2 })
      | .ready | .draining | .exited => none

/-! ## The system -/

/-- Where a thread that calls `RadosWorker::Queue` is: outside, before `GetIOWorker`, before
`CreateIOWorker`, or holding the worker it is going to queue on. -/
inductive Caller where
  | idle
  | lookup (op : Op)
  | create (op : Op)
  | push (op : Op) (worker : Nat)
  deriving DecidableEq

/-- Where `Stop` is: not called; at the test of `WaitForEmpty`, blocked in it, between it and
`StopProc`, or in the join, for the first of the workers still to stop; or returned. -/
inductive Stopper where
  | notCalled
  | testing (todo : List Nat)
  | blocked (todo : List Nat) (notified : Bool)
  | stopProc (todo : List Nat)
  | joining (todo : List Nat)
  | done
  deriving DecidableEq

/-- The workers ever created, the table of them, the threads, what librados owes, and the history:
return values of `Queue`, ops the threads handled and what they met, completions librados ran and
what `rados_aio_get_return_value` gave there, and calls of completion functions. -/
structure State where
  workers : List RadosIOWorker := []
  ioWorkers : OrdMap Int Nat := .empty
  callers : List Caller
  stopper : Stopper := .notCalled
  submitted : Nat := 0
  returned : List (Op × Int) := []
  pending : List Op := []
  handled : List (Op × Answer) := []
  completions : List (Op × Int) := []
  called : List (Op × Int) := []

/-- The state after `Start`, with any number of threads that may call `Queue`. -/
def init (threads : Nat) : State := { callers := List.replicate threads .idle }

/-- One scheduling choice. -/
inductive Event where
  /-- A thread calls `Queue` with a new op. -/
  | submit (caller : Nat) (poolId : Int) (opType : OpType)
  /-- `GetIOWorker`, under the shared lock. -/
  | getIOWorker (caller : Nat)
  /-- `CreateIOWorker`, under the unique lock; `new` may fail. -/
  | createIOWorker (caller : Nat) (allocated : Bool)
  /-- `RadosIOWorker::Queue`, under the lock of the worker. -/
  | queue (caller : Nat)
  /-- A step of a worker's thread. -/
  | work (worker : Nat) (action : WorkerStep)
  /-- librados calls the `i`-th completion it owes, with this return value. -/
  | complete (i : Nat) (ret : Int)
  /-- `Stop` is called. -/
  | stop
  /-- A step of `Stop`. -/
  | stopStep
  deriving DecidableEq

/-- Set where a thread is. -/
def State.setCaller (s : State) (caller : Nat) (phase : Caller) : State :=
  { s with callers := s.callers.set caller phase }

/-- A call of `Queue` returns. -/
def State.queueReturns (s : State) (caller : Nat) (op : Op) (ret : Int) : State :=
  { s.setCaller caller .idle with returned := s.returned ++ [(op, ret)] }

/-- `ioworkerEmptyCond.notify_all` of a worker. -/
def Stopper.notify (stopper : Stopper) (worker : Nat) : Stopper :=
  match stopper with
  | .blocked (i :: rest) notified => .blocked (i :: rest) (notified || decide (i = worker))
  | other => other

/-- Every call of `Queue` has returned. -/
def State.noCaller (s : State) : Prop := ∀ caller ∈ s.callers, caller = .idle

/-- One step of `Stop`; the deleted worker stays in `workers` as history. -/
def State.stopStep (s : State) : Option State :=
  match s.stopper with
  | .notCalled | .done => none
  | .testing [] => some { s with stopper := .done, ioWorkers := .empty }
  | .testing (i :: rest) =>
      match s.workers[i]? with
      | none => none
      | some w =>
          if !w.ops.isEmpty || w.ioworkerRunning then
            some { s with
              workers := s.workers.set i { w with ioworkerEmptyWait := true }
              stopper := .blocked (i :: rest) false }
          else
            some { s with
              workers := s.workers.set i { w with ioworkerEmptyWait := false }
              stopper := .stopProc (i :: rest) }
  | .blocked todo _ => some { s with stopper := .testing todo }
  | .stopProc [] => none
  | .stopProc (i :: rest) =>
      match s.workers[i]? with
      | none => none
      | some w =>
          some { s with
            workers := s.workers.set i { w.notify with ioworkerStop := true }
            stopper := .joining (i :: rest) }
  | .joining [] => none
  | .joining (i :: rest) =>
      match s.workers[i]? with
      | none => none
      | some w => if w.phase = .exited then some { s with stopper := .testing rest } else none

/-- A worker's thread has made a step with this effect. -/
def State.worked (s : State) (worker : Nat) (w : RadosIOWorker) (effect : Effect) : State :=
  { s with
    workers := s.workers.set worker w
    stopper := if effect.notifyEmpty then s.stopper.notify worker else s.stopper
    pending := s.pending ++ effect.sent
    handled := s.handled ++ effect.handled
    called := s.called ++ effect.called }

/-- `ReadCallback` or `WriteCallback` of the `i`-th op that librados owes a completion: it passes
the return value on to the function of the op. -/
def State.complete (s : State) (i : Nat) (op : Op) (ret : Int) : State :=
  { s with
    pending := s.pending.eraseIdx i
    completions := s.completions ++ [(op, ret)]
    called := s.called ++ [(op, ret)] }

/-- One step of the system. -/
def step (s : State) : Event → Option State
  | .submit caller poolId opType =>
      match s.callers[caller]? with
      | some .idle =>
          let op : Op := ⟨s.submitted, poolId, opType⟩
          let s := { s with submitted := s.submitted + 1 }
          if poolId < 0 then some (s.queueReturns caller op (-1))
          else some (s.setCaller caller (.lookup op))
      | _ => none
  | .getIOWorker caller =>
      match s.callers[caller]? with
      | some (.lookup op) =>
          match s.ioWorkers.find? op.poolId with
          | some worker => some (s.setCaller caller (.push op worker))
          | none => some (s.setCaller caller (.create op))
      | _ => none
  | .createIOWorker caller allocated =>
      match s.callers[caller]? with
      | some (.create op) =>
          -- another thread may have created the worker since `GetIOWorker`
          match s.ioWorkers.find? op.poolId with
          | some worker => some (s.setCaller caller (.push op worker))
          | none =>
              if allocated then
                some { s.setCaller caller (.push op s.workers.length) with
                  workers := s.workers ++ [{ poolId := op.poolId }]
                  ioWorkers := s.ioWorkers.insert op.poolId s.workers.length }
              else some (s.queueReturns caller op (-1))
      | _ => none
  | .queue caller =>
      match s.callers[caller]? with
      | some (.push op worker) =>
          match s.workers[worker]? with
          | some w =>
              some { s.queueReturns caller op (w.queue op).2 with
                workers := s.workers.set worker (w.queue op).1 }
          | none => none
      | _ => none
  | .work worker action =>
      match s.workers[worker]? with
      | some w =>
          match w.work action with
          | some (w', effect) => some (s.worked worker w' effect)
          | none => none
      | none => none
  | .complete i ret =>
      match s.pending[i]? with
      | some op => some (s.complete i op ret)
      | none => none
  | .stop =>
      match s.stopper with
      | .notCalled => some { s with stopper := .testing s.ioWorkers.values }
      | _ => none
  | .stopStep => s.stopStep

/-- What is assumed of the environment: `aio_operate` returns no positive value, and `Stop` is
called after the last call of `Queue` returned. -/
def admitted (s : State) : Event → Prop
  | .work _ (.take (.aio ret)) => ret ≤ 0
  | .submit _ _ _ => s.stopper = .notCalled
  | .stop => s.noCaller
  | _ => True

instance (s : State) : Decidable s.noCaller :=
  inferInstanceAs (Decidable (∀ caller ∈ s.callers, caller = .idle))

instance (s : State) (event : Event) : Decidable (admitted s event) :=
  match event with
  | .work _ (.take (.aio ret)) => inferInstanceAs (Decidable (ret ≤ 0))
  | .work _ (.take .noIoCtx) | .work _ .acquire | .work _ .wake => inferInstanceAs (Decidable True)
  | .submit _ _ _ => inferInstanceAs (Decidable (s.stopper = .notCalled))
  | .stop => inferInstanceAs (Decidable s.noCaller)
  | .getIOWorker _ | .createIOWorker _ _ | .queue _ | .complete _ _ | .stopStep =>
      inferInstanceAs (Decidable True)

/-! ## What one worker keeps -/

/-- What was accepted is what was taken, then the batch, then the queue; the thread holds a batch
only while it drains; it waits without a notification only on an empty queue; and it is stopped
only when nothing is left. -/
structure RadosIOWorker.Inv (w : RadosIOWorker) : Prop where
  order : w.accepted = w.taken ++ (w.ls ++ w.ops)
  idle : w.phase ≠ .draining → w.ls = []
  running : w.ioworkerRunning = true ↔ w.phase = .draining
  wait : w.phase = .waiting false → w.ops = []
  stopped : w.ioworkerStop = true ∨ w.phase = .exited → w.ops = [] ∧ w.phase ≠ .draining

/-- Nothing is queued and no batch is being handled. -/
def RadosIOWorker.Dry (w : RadosIOWorker) : Prop := w.ops = [] ∧ w.phase ≠ .draining

/-- The thread has not been asked to stop. -/
def RadosIOWorker.Live (w : RadosIOWorker) : Prop :=
  w.ioworkerStop = false ∧ w.phase ≠ .exited

/-- A new worker is in order. -/
theorem inv_newWorker (poolId : Int) : ({ poolId := poolId } : RadosIOWorker).Inv :=
  ⟨rfl, fun _ => rfl, by simp, by simp, by simp⟩

/-- A notification changes nothing but the phase of a waiting thread. -/
theorem notify_cases (w : RadosIOWorker) :
    (∃ notified, w.phase = .waiting notified ∧ w.notify = { w with phase := .waiting true }) ∨
    ((∀ notified, w.phase ≠ .waiting notified) ∧ w.notify = w) := by
  unfold RadosIOWorker.notify
  cases hphase : w.phase with
  | waiting notified => exact .inl ⟨notified, rfl, rfl⟩
  | ready | draining | exited => exact .inr ⟨by simp, rfl⟩

/-- A notification keeps a worker in order. -/
theorem RadosIOWorker.Inv.notify {w : RadosIOWorker} (h : w.Inv) : w.notify.Inv := by
  rcases notify_cases w with ⟨notified, hphase, hnotify⟩ | ⟨-, hnotify⟩
  · rw [hnotify]
    refine ⟨h.order, fun _ => h.idle (by simp [hphase]), ?_, by simp, ?_⟩
    · simpa [hphase] using h.running
    · simpa [hphase] using h.stopped
  · rwa [hnotify]

/-- A notification leaves everything but the phase alone, and no thread waits unnotified. -/
theorem notify_frame (w : RadosIOWorker) :
    w.notify = { w with phase := w.notify.phase } ∧ w.notify.phase ≠ .waiting false ∧
      (w.notify.phase = .draining ↔ w.phase = .draining) ∧
      (w.notify.phase = .exited ↔ w.phase = .exited) := by
  rcases notify_cases w with ⟨notified, hphase, hnotify⟩ | ⟨hphase, hnotify⟩
  · simp [hnotify, hphase]
  · simp [hnotify, hphase]

/-- `WaitForEmpty` sets and clears its mark on a worker and changes nothing else. -/
theorem RadosIOWorker.Inv.emptyWait {w : RadosIOWorker} (h : w.Inv) (waits : Bool) :
    { w with ioworkerEmptyWait := waits }.Inv :=
  ⟨h.order, h.idle, h.running, h.wait, h.stopped⟩

/-- The test of `WaitForEmpty` fails only on a worker that has run dry. -/
theorem RadosIOWorker.Inv.dry_of_empty {w : RadosIOWorker} (h : w.Inv)
    (hbusy : ¬(!w.ops.isEmpty || w.ioworkerRunning) = true) : w.Dry := by
  simp only [Bool.or_eq_true, Bool.not_eq_true', not_or, Bool.not_eq_false, List.isEmpty_iff,
    Bool.not_eq_true] at hbusy
  refine ⟨hbusy.1, ?_⟩
  intro hdraining
  have hrunning := h.running.mpr hdraining
  rw [hbusy.2] at hrunning
  cases hrunning

/-- A worker that has run dry can be asked to stop. -/
theorem RadosIOWorker.Inv.stopProc {w : RadosIOWorker} (h : w.Inv) (hdry : w.Dry) :
    { w.notify with ioworkerStop := true }.Inv := by
  have hinv := h.notify
  obtain ⟨hframe, -, hdraining, -⟩ := notify_frame w
  refine ⟨hinv.order, hinv.idle, hinv.running, hinv.wait, ?_⟩
  intro _
  refine ⟨?_, fun hd => hdry.2 (hdraining.mp hd)⟩
  rw [hframe]
  exact hdry.1

/-- What a push leaves of a worker that was not asked to stop. -/
theorem RadosIOWorker.Inv.queue {w : RadosIOWorker} (h : w.Inv) (hlive : w.Live) (op : Op) :
    (w.queue op).1.Inv ∧ (w.queue op).1.Live ∧ (w.queue op).1.poolId = w.poolId ∧
      (w.queue op).1.taken = w.taken ∧
      (w.queue op).1.accepted = w.accepted ++ (if (w.queue op).2 = 0 then [op] else []) := by
  by_cases hfull : ioWorkerQueueMaxCount < w.ops.length
  · simp [RadosIOWorker.queue, hfull, h, hlive]
  · obtain ⟨hframe, hunnotified, hdraining, hexited⟩ := notify_frame w
    -- the thread that is pushed on does not wait unnotified: the queue was empty and it was just
    -- notified, or the queue was not empty
    obtain ⟨v, hv, hinv, hlive', hwait, hsame⟩ : ∃ v, v = (if w.ops.isEmpty then w.notify else w) ∧
        v.Inv ∧ v.Live ∧ v.phase ≠ .waiting false ∧ v = { w with phase := v.phase } := by
      by_cases hempty : w.ops.isEmpty = true
      · refine ⟨w.notify, by simp [hempty], h.notify, ?_, hunnotified, hframe⟩
        rw [RadosIOWorker.Live, hframe]
        exact ⟨hlive.1, fun hex => hlive.2 (hexited.mp hex)⟩
      · refine ⟨w, by simp [hempty], h, hlive, fun hphase => hempty ?_, rfl⟩
        simp [h.wait hphase]
    have hqueue : w.queue op =
        ({ v with ops := v.ops ++ [op], accepted := v.accepted ++ [op] }, 0) := by
      simp only [RadosIOWorker.queue, if_neg hfull, ← hv]
    rw [hqueue]
    refine ⟨⟨?_, hinv.idle, hinv.running, fun hphase => absurd hphase hwait, ?_⟩, hlive', ?_⟩
    · simp [hinv.order]
    · intro hstop
      rcases hstop with hstop | hstop
      · exact absurd (hlive'.1.symm.trans hstop) (by simp)
      · exact absurd hstop hlive'.2
    · rw [hsame]
      simp

/-- What the inner loop can do. -/
theorem innerLoop_cases (w : RadosIOWorker) :
    (w.ops = [] ∧ w.ioworkerStop = true ∧ w.innerLoop = (w.exit, true)) ∨
    (w.ops = [] ∧ w.ioworkerStop = false ∧
      w.innerLoop = ({ w with phase := .waiting false }, w.ioworkerEmptyWait)) ∨
    (w.ops ≠ [] ∧ w.innerLoop =
      ({ w with ls := w.ops, ops := [], ioworkerRunning := true, phase := .draining }, false)) := by
  by_cases hempty : w.ops = []
  · cases hstop : w.ioworkerStop with
    | true => exact .inl ⟨hempty, rfl, by simp [RadosIOWorker.innerLoop, hempty, hstop]⟩
    | false =>
        exact .inr (.inl ⟨hempty, rfl, by simp [RadosIOWorker.innerLoop, hempty, hstop]⟩)
  · exact .inr (.inr ⟨hempty, by simp [RadosIOWorker.innerLoop, hempty]⟩)

/-- What the thread of a worker without a batch does under the lock: return, wait, or swap. -/
inductive RadosIOWorker.LoopStep (w : RadosIOWorker) : RadosIOWorker → Prop where
  | exit (hstop : w.ioworkerStop = true) : LoopStep w
      { w with phase := .exited, ioworkerStop := false, ioworkerRunning := false }
  | wait (hempty : w.ops = []) (hstop : w.ioworkerStop = false) : LoopStep w
      { w with phase := .waiting false, ioworkerRunning := false }
  | swap (hops : w.ops ≠ []) : LoopStep w
      { w with ls := w.ops, ops := [], ioworkerRunning := true, phase := .draining }

/-- The inner loop is such a step. -/
theorem loopStep_innerLoop (w : RadosIOWorker) :
    w.LoopStep ({ w with ioworkerRunning := false } : RadosIOWorker).innerLoop.1 := by
  rcases innerLoop_cases { w with ioworkerRunning := false } with
    ⟨-, hstop, heq⟩ | ⟨hempty, hstop, heq⟩ | ⟨hops, heq⟩
  · rw [heq]
    exact .exit hstop
  · rw [heq]
    exact .wait hempty hstop
  · rw [heq]
    exact .swap hops

/-- The outer loop is such a step, if the thread is not marked as running. -/
theorem loopStep_outerLoop {w : RadosIOWorker} (h : w.ioworkerRunning = false) :
    w.LoopStep w.outerLoop.1 := by
  have hsame : ({ w with ioworkerRunning := false } : RadosIOWorker) = w := by rw [← h]
  by_cases hstop : w.ioworkerStop = true
  · have hexit : w.outerLoop.1 =
        { w with phase := .exited, ioworkerStop := false, ioworkerRunning := false } := by
      simp [RadosIOWorker.outerLoop, hstop, RadosIOWorker.exit, h]
    rw [hexit]
    exact .exit hstop
  · have hinner := loopStep_innerLoop w
    rw [hsame] at hinner
    simpa [RadosIOWorker.outerLoop, hstop] using hinner

/-- What one step of a worker's thread can do. -/
theorem RadosIOWorker.Inv.work_cases {w w' : RadosIOWorker} {action : WorkerStep}
    {effect : Effect} (h : w.Inv) (hwork : w.work action = some (w', effect)) :
    (w.ls = [] ∧ w.LoopStep w' ∧ effect.sent = [] ∧ effect.called = []) ∨
    ∃ op rest answer, action = .take answer ∧ w.phase = .draining ∧ w.ls = op :: rest ∧
      w' = { w with ls := rest, taken := w.taken ++ [op] } ∧ effect = handleOp op answer := by
  have hrunning : w.phase ≠ .draining → w.ioworkerRunning = false := by
    intro hphase
    simpa using mt h.running.mp hphase
  cases action with
  | acquire =>
      cases hphase : w.phase with
      | ready =>
          simp only [RadosIOWorker.work, hphase, Option.some.injEq, Prod.mk.injEq] at hwork
          obtain ⟨rfl, rfl⟩ := hwork
          exact .inl ⟨h.idle (by simp [hphase]), loopStep_outerLoop (hrunning (by simp [hphase])),
            rfl, rfl⟩
      | draining =>
          simp only [RadosIOWorker.work, hphase] at hwork
          split_ifs at hwork with hls
          simp only [Option.some.injEq, Prod.mk.injEq] at hwork
          obtain ⟨rfl, rfl⟩ := hwork
          exact .inl ⟨List.isEmpty_iff.mp hls, loopStep_innerLoop w, rfl, rfl⟩
      | waiting notified => simp [RadosIOWorker.work, hphase] at hwork
      | exited => simp [RadosIOWorker.work, hphase] at hwork
  | take answer =>
      simp only [RadosIOWorker.work] at hwork
      split at hwork
      · rename_i op rest hphase hls
        simp only [Option.some.injEq, Prod.mk.injEq] at hwork
        obtain ⟨rfl, rfl⟩ := hwork
        exact .inr ⟨op, rest, answer, rfl, hphase, hls, rfl, rfl⟩
      · cases hwork
  | wake =>
      cases hphase : w.phase with
      | waiting notified =>
          simp only [RadosIOWorker.work, hphase, Option.some.injEq, Prod.mk.injEq] at hwork
          obtain ⟨rfl, rfl⟩ := hwork
          exact .inl ⟨h.idle (by simp [hphase]), loopStep_outerLoop (hrunning (by simp [hphase])),
            rfl, rfl⟩
      | ready | draining | exited => simp [RadosIOWorker.work, hphase] at hwork

/-- A loop step keeps a worker in order. -/
theorem RadosIOWorker.Inv.loopStep {w w' : RadosIOWorker} (h : w.Inv) (hls : w.ls = [])
    (hstep : w.LoopStep w') : w'.Inv := by
  have horder : w.accepted = w.taken ++ w.ops := by simpa [hls] using h.order
  cases hstep with
  | exit hstop =>
      have hops := (h.stopped (.inl hstop)).1
      exact ⟨h.order, fun _ => hls, by simp, fun _ => hops, fun _ => ⟨hops, by simp⟩⟩
  | wait hempty hstop => exact ⟨h.order, fun _ => hls, by simp, fun _ => hempty, by simp [hstop]⟩
  | swap hops =>
      refine ⟨by simpa using horder, by simp, by simp, by simp, fun hstop => ?_⟩
      exact absurd (h.stopped (.inl (by simpa using hstop))).1 hops

/-- librados never answers with a positive value. -/
def Answer.ok : Answer → Prop
  | .noIoCtx => True
  | .aio ret => ret ≤ 0

/-- An op is either handed to librados or its function is called, once. -/
theorem handleOp_once (op : Op) {answer : Answer} (h : answer.ok) :
    (handleOp op answer).called.map Prod.fst ++ (handleOp op answer).sent = [op] := by
  cases answer with
  | noIoCtx => rfl
  | aio ret =>
      have hret : radosOperationAioOperate op ret ≤ 0 := by
        unfold radosOperationAioOperate
        split
        · exact h
        · exact h
        · decide
      simp only [handleOp]
      split_ifs with hneg hzero
      · rfl
      · rfl
      · omega

/-- What a step of its thread leaves of a worker. -/
theorem RadosIOWorker.Inv.work {w w' : RadosIOWorker} {action : WorkerStep} {effect : Effect}
    (h : w.Inv) (hok : ∀ answer, action = .take answer → answer.ok)
    (hwork : w.work action = some (w', effect)) :
    w'.Inv ∧ w'.poolId = w.poolId ∧ w'.accepted = w.accepted ∧ (w.Live → w'.Live) ∧
      (w.Dry → w'.Dry) ∧
      w'.taken = w.taken ++ (effect.called.map Prod.fst ++ effect.sent) := by
  rcases h.work_cases hwork with ⟨hls, hstep, hsent, hcalled⟩ |
    ⟨op, rest, answer, rfl, hphase, hls, rfl, rfl⟩
  · refine ⟨h.loopStep hls hstep, ?_⟩
    cases hstep with
    | exit hstop => exact ⟨rfl, rfl, fun hlive => absurd (hlive.1.symm.trans hstop) (by simp),
        fun hdry => ⟨hdry.1, by simp⟩, by simp [hsent, hcalled]⟩
    | wait hempty hstop => exact ⟨rfl, rfl, fun _ => ⟨hstop, by simp⟩,
        fun hdry => ⟨hdry.1, by simp⟩, by simp [hsent, hcalled]⟩
    | swap hops => exact ⟨rfl, rfl, fun hlive => ⟨hlive.1, by simp⟩,
        fun hdry => absurd hdry.1 hops, by simp [hsent, hcalled]⟩
  · refine ⟨⟨by simp [h.order, hls], fun hne => absurd hphase hne, h.running, ?_, h.stopped⟩, rfl,
      rfl, id, id, ?_⟩
    · simp [hphase]
    · simp [handleOp_once op (hok answer rfl)]

/-! ## What the system keeps -/

/-- The pool of the `i`-th worker. -/
def State.poolOf (s : State) (i : Nat) : Option Int := s.workers[i]?.map RadosIOWorker.poolId

/-- The ops of a pool whose call of `Queue` returned 0, in the order of acceptance. -/
def acceptedFor (returned : List (Op × Int)) (poolId : Int) : List Op :=
  (returned.filter fun r => decide (r.2 = 0) && decide (r.1.poolId = poolId)).map Prod.fst

/-- Whether the thread is inside `Queue` with the op of this number. -/
def Caller.holds (id : Nat) : Caller → Nat
  | .idle => 0
  | .lookup op | .create op | .push op _ => single id op.id

/-- There is one worker per pool, in the table until `Stop` clears it, and every thread that is
about to push holds the worker of its op's pool. -/
structure Tabled (s : State) : Prop where
  listed : s.stopper = .notCalled → ∀ i p, s.poolOf i = some p → s.ioWorkers.find? p = some i
  unique : ∀ i j p, s.poolOf i = some p → s.poolOf j = some p → i = j
  table : ∀ p i, s.ioWorkers.find? p = some i → s.poolOf i = some p
  held : ∀ op i, Caller.push op i ∈ s.callers → s.poolOf i = some op.poolId

/-- The invariant of the system. -/
structure Inv (s : State) : Prop where
  worker : ∀ (i : Nat) (w : RadosIOWorker), s.workers[i]? = some w → w.Inv
  tabled : Tabled s
  /-- Every call of `Queue` is under way or has returned. -/
  once : ∀ id, total (Caller.holds id) s.callers + (s.returned.map fun r => r.1.id).count id =
    if id < s.submitted then 1 else 0
  /-- A worker has accepted what `Queue` returned 0 for. -/
  accepted : ∀ (i : Nat) (w : RadosIOWorker), s.workers[i]? = some w →
    w.accepted = acceptedFor s.returned w.poolId
  home : ∀ op, (op, 0) ∈ s.returned → ∃ i, s.poolOf i = some op.poolId
  /-- Every op taken is with librados, or its function was called. -/
  calls : ∀ op, (s.called.map Prod.fst).count op + s.pending.count op =
    total (fun w : RadosIOWorker => w.taken.count op) s.workers
  quiet : s.stopper ≠ .notCalled → s.noCaller
  live : s.stopper = .notCalled → ∀ (i : Nat) (w : RadosIOWorker), s.workers[i]? = some w → w.Live
  /-- `Stop` goes on to `StopProc` only with a worker that has run dry. -/
  dry : ∀ i rest, s.stopper = .stopProc (i :: rest) →
    ∀ w : RadosIOWorker, s.workers[i]? = some w → w.Dry

theorem inv_init (threads : Nat) : Inv (init threads) := by
  have hidle : ∀ id, total (Caller.holds id) (List.replicate threads .idle) = 0 := by
    intro id
    rw [total_eq_zero_iff]
    intro c hc
    rw [List.eq_of_mem_replicate hc]
    rfl
  refine ⟨by simp [init], ⟨by simp [init, State.poolOf], by simp [init, State.poolOf],
    by simp [init], ?_⟩, ?_, by simp [init], by simp [init], by simp [init], by simp [init],
    by simp [init], by simp [init]⟩
  · intro op i hmem
    exact absurd (List.eq_of_mem_replicate hmem) (by simp)
  · intro id
    simp [init, hidle]

variable {s t : State}

/-- Replacing a worker by one of the same pool changes no worker's pool. -/
theorem poolOf_set {i : Nat} {w w' : RadosIOWorker} (hw : s.workers[i]? = some w)
    (hpool : w'.poolId = w.poolId) (j : Nat) :
    ((s.workers.set i w')[j]?).map RadosIOWorker.poolId = s.poolOf j := by
  rw [List.getElem?_set, State.poolOf]
  split_ifs with hij hlen
  · subst hij
    simp [hw, hpool]
  · subst hij
    exact absurd (List.getElem?_eq_some_iff.mp hw).1 hlen
  · rfl

/-- Replacing a worker by one that has taken the same ops changes no count of taken ops. -/
theorem taken_set {i : Nat} {w w' : RadosIOWorker} (hw : s.workers[i]? = some w)
    (htaken : w'.taken = w.taken) (op : Op) :
    total (fun v : RadosIOWorker => v.taken.count op) (s.workers.set i w') =
      total (fun v : RadosIOWorker => v.taken.count op) s.workers := by
  have hset := total_set (fun v : RadosIOWorker => v.taken.count op) hw w'
  rw [htaken] at hset
  omega

/-- The table depends on the workers only through their pools. -/
theorem Tabled.frame (h : Tabled s) (hpool : ∀ i, t.poolOf i = s.poolOf i)
    (hio : t.ioWorkers = s.ioWorkers) (hstop : t.stopper = .notCalled → s.stopper = .notCalled)
    (hheld : ∀ op i, Caller.push op i ∈ t.callers →
      Caller.push op i ∈ s.callers ∨ s.poolOf i = some op.poolId) : Tabled t := by
  refine ⟨?_, ?_, ?_, ?_⟩
  · intro hcalled i p hi
    rw [hpool] at hi
    rw [hio]
    exact h.listed (hstop hcalled) i p hi
  · intro i j p hi hj
    rw [hpool] at hi hj
    exact h.unique i j p hi hj
  · intro p i hi
    rw [hio] at hi
    rw [hpool]
    exact h.table p i hi
  · intro op i hmem
    rw [hpool]
    rcases hheld op i hmem with hold | hnew
    · exact h.held op i hold
    · exact hnew

/-- A pointer held after a thread moved was held before, or is the one it moved to. -/
theorem held_set {caller : Nat} {c : Caller}
    (hc : ∀ op i, c = .push op i → s.poolOf i = some op.poolId) :
    ∀ op i, Caller.push op i ∈ s.callers.set caller c →
      Caller.push op i ∈ s.callers ∨ s.poolOf i = some op.poolId := by
  intro op i hmem
  rcases List.mem_or_eq_of_mem_set hmem with hold | heq
  · exact .inl hold
  · exact .inr (hc op i heq.symm)

/-- What has been accepted after one more return. -/
theorem acceptedFor_append (returned : List (Op × Int)) (op : Op) (ret poolId : Int) :
    acceptedFor (returned ++ [(op, ret)]) poolId =
      acceptedFor returned poolId ++ if ret = 0 ∧ op.poolId = poolId then [op] else [] := by
  simp only [acceptedFor, List.filter_append, List.map_append]
  by_cases hret : ret = 0 <;> by_cases hpool : op.poolId = poolId <;> simp [hret, hpool]

/-- While a thread is inside `Queue`, `Stop` has not been called. -/
theorem Inv.notCalled {caller : Nat} {c : Caller} (h : Inv s) (hc : s.callers[caller]? = some c)
    (hne : c ≠ .idle) : s.stopper = .notCalled := by
  by_contra hstop
  exact hne (h.quiet hstop c (List.mem_of_getElem? hc))

/-- A call that goes on stays under way. -/
theorem Inv.once_moves {caller : Nat} {c c' : Caller} (h : Inv s)
    (hc : s.callers[caller]? = some c) (hsame : ∀ id, c'.holds id = c.holds id) (id : Nat) :
    total (Caller.holds id) (s.callers.set caller c') + (s.returned.map fun r => r.1.id).count id =
      if id < s.submitted then 1 else 0 := by
  have hset := total_set (Caller.holds id) hc c'
  rw [hsame id] at hset
  rw [← h.once id]
  omega

/-- A thread moves on inside `Queue` with its op. -/
theorem Inv.move {caller : Nat} {c c' : Caller} (h : Inv s) (hc : s.callers[caller]? = some c)
    (hne : c ≠ .idle) (hsame : ∀ id, c'.holds id = c.holds id)
    (hpush : ∀ op i, c' = .push op i → s.poolOf i = some op.poolId) :
    Inv (s.setCaller caller c') := by
  have hstop := h.notCalled hc hne
  exact ⟨h.worker, h.tabled.frame (fun _ => rfl) rfl id (held_set hpush), h.once_moves hc hsame,
    h.accepted, h.home, h.calls, fun hcalled => absurd hstop hcalled, h.live, h.dry⟩

/-- A thread finds the worker of its op's pool in the table. -/
theorem Inv.found {caller worker : Nat} {c : Caller} {op : Op} (h : Inv s)
    (hc : s.callers[caller]? = some c) (hholds : ∀ id, c.holds id = single id op.id)
    (hne : c ≠ .idle) (hfind : s.ioWorkers.find? op.poolId = some worker) :
    Inv (s.setCaller caller (.push op worker)) := by
  refine h.move hc hne (fun id => (hholds id).symm) ?_
  intro op' i heq
  cases heq
  exact h.tabled.table _ _ hfind

/-- A thread calls `Queue` with a new op. -/
theorem Inv.submit {caller : Nat} (h : Inv s) (hc : s.callers[caller]? = some .idle)
    (hstop : s.stopper = .notCalled) (poolId : Int) (opType : OpType) :
    Inv (({ s with submitted := s.submitted + 1 } : State).setCaller caller
      (.lookup ⟨s.submitted, poolId, opType⟩)) := by
  refine ⟨h.worker, h.tabled.frame (fun _ => rfl) rfl id (held_set fun _ _ heq => by cases heq), ?_,
    h.accepted, h.home, h.calls, fun hcalled => absurd hstop hcalled, h.live, h.dry⟩
  · intro id
    have hset := total_set (Caller.holds id) hc (.lookup ⟨s.submitted, poolId, opType⟩)
    have honce := h.once id
    simp only [Caller.holds] at hset
    simp only [State.setCaller]
    by_cases hid : id = s.submitted
    · subst hid
      simp only [lt_irrefl, if_false, single_self, Nat.lt_succ_self, if_true] at honce hset ⊢
      omega
    · have hsingle : single id s.submitted = 0 := single_of_ne fun heq => hid heq.symm
      have hlt : id < s.submitted + 1 ↔ id < s.submitted := by omega
      simp only [hsingle, hlt] at hset ⊢
      omega

/-- A call that returns is no longer under way. -/
theorem Inv.once_returns {caller : Nat} {c : Caller} {op : Op} (h : Inv s)
    (hc : s.callers[caller]? = some c) (hholds : ∀ id, c.holds id = single id op.id) (ret : Int)
    (id : Nat) :
    total (Caller.holds id) (s.callers.set caller .idle) +
      ((s.returned ++ [(op, ret)]).map fun r => r.1.id).count id =
        if id < s.submitted then 1 else 0 := by
  have hset := total_set (Caller.holds id) hc .idle
  rw [hholds id, show Caller.holds id .idle = 0 from rfl] at hset
  rw [← h.once id]
  simp only [List.map_append, List.map_cons, List.map_nil, List.count_append,
    List.count_singleton, beq_iff_eq]
  simp only [single] at hset
  omega

/-- A call of `Queue` that returns an error leaves the workers alone. -/
theorem Inv.refuse {caller : Nat} {c : Caller} {op : Op} (h : Inv s)
    (hc : s.callers[caller]? = some c) (hholds : ∀ id, c.holds id = single id op.id)
    (hne : c ≠ .idle) {ret : Int} (hret : ret ≠ 0) : Inv (s.queueReturns caller op ret) := by
  have hstop := h.notCalled hc hne
  refine ⟨h.worker, h.tabled.frame (fun _ => rfl) rfl id (held_set fun _ _ heq => by cases heq),
    h.once_returns hc hholds ret, ?_, ?_, h.calls, fun hcalled => absurd hstop hcalled, h.live,
    h.dry⟩
  · intro i w hw
    rw [State.queueReturns, acceptedFor_append]
    simpa [hret] using h.accepted i w hw
  · intro op' hmem
    simp only [State.queueReturns, List.mem_append, List.mem_singleton, Prod.mk.injEq] at hmem
    rcases hmem with hold | ⟨-, hzero⟩
    · exact h.home op' hold
    · exact absurd hzero.symm hret

/-- A new worker has its pool, and the others keep theirs. -/
theorem poolOf_append (s : State) (poolId : Int) (j : Nat) :
    ((s.workers ++ [{ poolId := poolId }])[j]?).map RadosIOWorker.poolId =
      if j = s.workers.length then some poolId else s.poolOf j := by
  rw [List.getElem?_append, State.poolOf]
  split_ifs with hlt heq heq
  · omega
  · rfl
  · simp [heq]
  · rw [List.getElem?_eq_none (by simp; omega), List.getElem?_eq_none (by omega)]

/-- A pool that is not in the table has no worker yet. -/
theorem Tabled.new_pool (h : Tabled s) (hstop : s.stopper = .notCalled) {poolId : Int}
    (hfind : s.ioWorkers.find? poolId = none) {j : Nat} {p : Int} (hj : s.poolOf j = some p) :
    j ≠ s.workers.length ∧ p ≠ poolId := by
  have hlisted := h.listed hstop j p hj
  constructor
  · intro heq
    subst heq
    simp [State.poolOf] at hj
  · intro heq
    rw [heq, hfind] at hlisted
    cases hlisted

/-- The first worker of a pool is put into the table. -/
theorem Tabled.create {caller : Nat} {op : Op} (h : Tabled s) (hstop : s.stopper = .notCalled)
    (hfind : s.ioWorkers.find? op.poolId = none) :
    Tabled { s.setCaller caller (.push op s.workers.length) with
      workers := s.workers ++ [{ poolId := op.poolId }]
      ioWorkers := s.ioWorkers.insert op.poolId s.workers.length } := by
  refine ⟨?_, ?_, ?_, ?_⟩
  · intro _ i p hi
    rw [State.poolOf, poolOf_append] at hi
    rw [OrdMap.find?_insert]
    split_ifs at hi with heq
    · cases hi
      rw [if_pos rfl, heq]
    · rw [if_neg (h.new_pool hstop hfind hi).2]
      exact h.listed hstop i p hi
  · intro i j p hi hj
    rw [State.poolOf, poolOf_append] at hi hj
    split_ifs at hi hj with hli hlj hlj
    · rw [hli, hlj]
    · cases hi
      exact absurd rfl (h.new_pool hstop hfind hj).2
    · cases hj
      exact absurd rfl (h.new_pool hstop hfind hi).2
    · exact h.unique i j p hi hj
  · intro p i hi
    rw [OrdMap.find?_insert] at hi
    rw [State.poolOf, poolOf_append]
    split_ifs at hi with hp
    · cases hi
      rw [if_pos rfl, hp]
    · have hold := h.table p i hi
      rw [if_neg (h.new_pool hstop hfind hold).1]
      exact hold
  · intro op' i hmem
    rw [State.poolOf, poolOf_append]
    obtain hold | heq := List.mem_or_eq_of_mem_set hmem
    · have hpoolOf := h.held op' i hold
      rw [if_neg (h.new_pool hstop hfind hpoolOf).1]
      exact hpoolOf
    · cases heq
      rw [if_pos rfl]

/-- `CreateIOWorker` makes the first worker of a pool. -/
theorem Inv.create {caller : Nat} {op : Op} (h : Inv s)
    (hc : s.callers[caller]? = some (.create op)) (hfind : s.ioWorkers.find? op.poolId = none) :
    Inv { s.setCaller caller (.push op s.workers.length) with
      workers := s.workers ++ [{ poolId := op.poolId }]
      ioWorkers := s.ioWorkers.insert op.poolId s.workers.length } := by
  have hstop := h.notCalled hc (by simp)
  refine ⟨forall_getElem?_append h.worker (inv_newWorker _), h.tabled.create hstop hfind,
    h.once_moves hc fun _ => rfl,
    forall_getElem?_append (P := fun _ (v : RadosIOWorker) =>
      v.accepted = acceptedFor s.returned v.poolId) h.accepted ?_,
    ?_, ?_, fun hcalled => absurd hstop hcalled,
    fun _ => forall_getElem?_append (h.live hstop) ⟨rfl, by simp⟩,
    fun _ _ hphase => nomatch hstop.symm.trans hphase⟩
  · -- nothing can have been accepted for a pool that has no worker
    symm
    simp only [acceptedFor, List.map_eq_nil_iff, List.filter_eq_nil_iff,
      Bool.and_eq_true, decide_eq_true_eq, not_and]
    intro r hr hzero hsame
    obtain ⟨i, hi⟩ := h.home r.1 (by rw [← hzero]; exact hr)
    exact (h.tabled.new_pool hstop hfind hi).2 hsame
  · intro op' hmem
    obtain ⟨i, hi⟩ := h.home op' hmem
    refine ⟨i, ?_⟩
    rw [State.poolOf, poolOf_append, if_neg (h.tabled.new_pool hstop hfind hi).1]
    exact hi
  · intro op'
    rw [total_append]
    simpa [State.setCaller] using h.calls op'

/-- `RadosIOWorker::Queue` on the worker of the op's pool. -/
theorem Inv.queue {caller worker : Nat} {op : Op} {w : RadosIOWorker} (h : Inv s)
    (hc : s.callers[caller]? = some (.push op worker)) (hw : s.workers[worker]? = some w) :
    Inv { s.queueReturns caller op (w.queue op).2 with
      workers := s.workers.set worker (w.queue op).1 } := by
  have hstop := h.notCalled hc (by simp)
  have hheld := h.tabled.held op worker (List.mem_of_getElem? hc)
  have hpool : w.poolId = op.poolId := by simpa [State.poolOf, hw] using hheld
  obtain ⟨hinv, hlive, hsame, htaken, haccepted⟩ :=
    (h.worker worker w hw).queue (h.live hstop worker w hw) op
  have hpoolOf := poolOf_set hw hsame
  refine ⟨forall_getElem?_set h.worker hinv,
    h.tabled.frame hpoolOf rfl id (held_set fun _ _ heq => by cases heq),
    h.once_returns hc (fun _ => rfl) _, ?_, ?_, ?_, fun hcalled => absurd hstop hcalled,
    fun _ => forall_getElem?_set (h.live hstop) hlive,
    fun _ _ hphase => nomatch hstop.symm.trans hphase⟩
  · intro i v hv
    show v.accepted = acceptedFor (s.returned ++ [(op, (w.queue op).2)]) v.poolId
    rw [acceptedFor_append]
    rw [List.getElem?_set] at hv
    split_ifs at hv with hi hlen
    · cases hv
      simp only [haccepted, hsame, hpool, and_true]
      rw [h.accepted worker w hw, hpool]
    · have hne : op.poolId ≠ v.poolId := by
        intro heq
        refine hi (h.tabled.unique worker i op.poolId hheld ?_)
        simp [State.poolOf, hv, heq]
      simp only [hne, and_false, if_false, List.append_nil]
      exact h.accepted i v hv
  · intro op' hmem
    simp only [State.queueReturns, List.mem_append, List.mem_singleton, Prod.mk.injEq] at hmem
    rcases hmem with hold | ⟨rfl, -⟩
    · obtain ⟨i, hi⟩ := h.home op' hold
      exact ⟨i, (hpoolOf i).trans hi⟩
    · exact ⟨worker, (hpoolOf worker).trans hheld⟩
  · intro op'
    exact (h.calls op').trans (taken_set hw htaken op').symm

/-- A notification of `Stop` does not move it. -/
theorem notify_stopper (stopper : Stopper) (worker : Nat) :
    (stopper.notify worker = .notCalled ↔ stopper = .notCalled) ∧
      ∀ todo, stopper.notify worker = .stopProc todo ↔ stopper = .stopProc todo := by
  unfold Stopper.notify
  split
  · simp
  · exact ⟨Iff.rfl, fun _ => Iff.rfl⟩

/-- A step of a worker's thread. -/
theorem Inv.work {worker : Nat} {w w' : RadosIOWorker} {action : WorkerStep} {effect : Effect}
    (h : Inv s) (hw : s.workers[worker]? = some w)
    (hok : ∀ answer, action = .take answer → answer.ok)
    (hwork : w.work action = some (w', effect)) : Inv (s.worked worker w' effect) := by
  obtain ⟨hinv, hsame, haccepted, hlive, hdry, htaken⟩ := (h.worker worker w hw).work hok hwork
  have hpoolOf := poolOf_set hw hsame
  have hstop : (s.worked worker w' effect).stopper = .notCalled ↔ s.stopper = .notCalled := by
    simp only [State.worked]
    split_ifs
    · exact (notify_stopper s.stopper worker).1
    · rfl
  refine ⟨forall_getElem?_set h.worker hinv,
    h.tabled.frame hpoolOf rfl hstop.mp fun _ _ hmem => .inl hmem, h.once, ?_, ?_, ?_,
    fun hcalled => h.quiet (mt hstop.mpr hcalled), ?_, ?_⟩
  · refine forall_getElem?_set
      (P := fun _ (v : RadosIOWorker) => v.accepted = acceptedFor s.returned v.poolId) h.accepted ?_
    rw [haccepted, hsame]
    exact h.accepted worker w hw
  · intro op hmem
    obtain ⟨i, hi⟩ := h.home op hmem
    exact ⟨i, (hpoolOf i).trans hi⟩
  · intro op
    have hset := total_set (fun v : RadosIOWorker => v.taken.count op) hw w'
    have hcalls := h.calls op
    simp only [htaken, List.count_append] at hset
    simp only [State.worked, List.map_append, List.count_append]
    omega
  · intro hcalled
    have hlive' := h.live (hstop.mp hcalled)
    exact forall_getElem?_set hlive' (hlive (hlive' worker w hw))
  · intro i rest hphase
    have hphase' : s.stopper = .stopProc (i :: rest) := by
      simp only [State.worked] at hphase
      split_ifs at hphase
      · exact ((notify_stopper s.stopper worker).2 _).mp hphase
      · exact hphase
    have hold := h.dry i rest hphase'
    have hall := forall_getElem?_set (P := fun j (v : RadosIOWorker) => j = i → v.Dry)
      (fun j v hv hj => hold v (hj ▸ hv)) (fun hj => hdry (hold w (hj ▸ hw)))
    exact fun v hv => hall i v hv rfl

/-- librados calls a completion it owes. -/
theorem Inv.complete {i : Nat} {op : Op} (h : Inv s) (hop : s.pending[i]? = some op) (ret : Int) :
    Inv (s.complete i op ret) := by
  refine ⟨h.worker, h.tabled.frame (fun _ => rfl) rfl id fun _ _ hmem => .inl hmem, h.once,
    h.accepted, h.home, ?_, h.quiet, h.live, h.dry⟩
  intro op'
  have hworkers : (s.complete i op ret).workers = s.workers := rfl
  rw [hworkers, ← h.calls op']
  have herase := total_eraseIdx (single op') hop
  simp only [total_single_eq_count] at herase
  simp only [State.complete, List.map_append, List.map_cons, List.map_nil, List.count_append,
    List.count_singleton, beq_iff_eq]
  simp only [single] at herase
  omega

/-- `Stop` is called when no thread is inside `Queue`. -/
theorem Inv.stop (h : Inv s) (hquiet : s.noCaller) (todo : List Nat) :
    Inv { s with stopper := .testing todo } :=
  ⟨h.worker, h.tabled.frame (fun _ => rfl) rfl (by simp) fun _ _ hmem => .inl hmem, h.once,
    h.accepted, h.home, h.calls, fun _ => hquiet, by simp, by simp⟩

/-- `Stop` touches a worker without queueing or taking anything. -/
theorem Inv.touch {i : Nat} {w w' : RadosIOWorker} {stopper : Stopper} (h : Inv s)
    (hw : s.workers[i]? = some w) (hcalled : s.stopper ≠ .notCalled) (hinv : w'.Inv)
    (hpool : w'.poolId = w.poolId) (haccepted : w'.accepted = w.accepted)
    (htaken : w'.taken = w.taken) (hne : stopper ≠ .notCalled)
    (hdry : ∀ j rest, stopper = .stopProc (j :: rest) → j = i ∧ w'.Dry) :
    Inv { s with workers := s.workers.set i w', stopper := stopper } := by
  have hpoolOf := poolOf_set hw hpool
  refine ⟨forall_getElem?_set h.worker hinv,
    h.tabled.frame hpoolOf rfl (fun hstop => absurd hstop hne) fun _ _ hmem => .inl hmem, h.once,
    ?_, ?_, ?_, fun _ => h.quiet hcalled, fun hstop => absurd hstop hne, ?_⟩
  · refine forall_getElem?_set
      (P := fun _ (v : RadosIOWorker) => v.accepted = acceptedFor s.returned v.poolId) h.accepted ?_
    rw [haccepted, hpool]
    exact h.accepted i w hw
  · intro op hmem
    obtain ⟨j, hj⟩ := h.home op hmem
    exact ⟨j, (hpoolOf j).trans hj⟩
  · intro op
    exact (h.calls op).trans (taken_set hw htaken op).symm
  · intro j rest hphase v hv
    obtain ⟨rfl, hdry'⟩ := hdry j rest hphase
    rw [List.getElem?_set_self (List.getElem?_eq_some_iff.mp hw).1] at hv
    cases hv
    exact hdry'

/-- A step of `Stop`. -/
theorem Inv.stopStep (h : Inv s) (hstep : s.stopStep = some t) : Inv t := by
  unfold State.stopStep at hstep
  split at hstep
  · cases hstep
  · cases hstep
  · rename_i hphase
    cases hstep
    have hquiet := h.quiet (by simp [hphase])
    exact ⟨h.worker, ⟨by simp, h.tabled.unique, by simp, h.tabled.held⟩, h.once, h.accepted, h.home,
      h.calls, fun _ => hquiet, by simp, by simp⟩
  · rename_i i rest hphase
    have hcalled : s.stopper ≠ .notCalled := by simp [hphase]
    split at hstep
    · cases hstep
    · rename_i w hw
      have hinv := h.worker i w hw
      split_ifs at hstep with hbusy
      · cases hstep
        exact h.touch hw hcalled (hinv.emptyWait true) rfl rfl rfl (by simp) (by simp)
      · cases hstep
        refine h.touch hw hcalled (hinv.emptyWait false) rfl rfl rfl (by simp) ?_
        intro j rest' heq
        cases heq
        exact ⟨rfl, hinv.dry_of_empty hbusy⟩
  · rename_i todo notified hphase
    cases hstep
    exact h.stop (h.quiet (by simp [hphase])) todo
  · cases hstep
  · rename_i i rest hphase
    split at hstep
    · cases hstep
    · rename_i w hw
      cases hstep
      have hinv := (h.worker i w hw).stopProc (h.dry i rest hphase w hw)
      have hframe := (notify_frame w).1
      refine h.touch hw (by simp [hphase]) hinv ?_ ?_ ?_ (by simp) (by simp)
      all_goals rw [hframe]
  · cases hstep
  · rename_i i rest hphase
    split at hstep
    · cases hstep
    · split_ifs at hstep
      cases hstep
      exact h.stop (h.quiet (by simp [hphase])) rest

/-- Every admitted step keeps the invariant. -/
theorem Inv.step {event : Event} (h : Inv s) (hok : admitted s event)
    (hstep : step s event = some t) : Inv t := by
  cases event with
  | submit caller poolId opType =>
      simp only [RadosWorker.step] at hstep
      split at hstep
      · rename_i hc
        have hsubmit := h.submit hc hok poolId opType
        split_ifs at hstep with hneg
        · -- the call returns at once; the thread was inside `Queue` for no step
          cases hstep
          have hlen := (List.getElem?_eq_some_iff.mp hc).1
          have hrefuse : Inv (State.queueReturns _ caller ⟨s.submitted, poolId, opType⟩ (-1)) :=
            hsubmit.refuse (List.getElem?_set_self hlen) (fun _ => rfl) (by simp) (by simp)
          simpa [State.queueReturns, State.setCaller, List.set_set] using hrefuse
        · cases hstep
          exact hsubmit
      · cases hstep
  | getIOWorker caller =>
      simp only [RadosWorker.step] at hstep
      split at hstep
      · rename_i op hc
        split at hstep
        · rename_i worker hfind
          cases hstep
          exact h.found hc (fun _ => rfl) (by simp) hfind
        · cases hstep
          exact h.move hc (by simp) (fun _ => rfl) fun _ _ heq => by cases heq
      · cases hstep
  | createIOWorker caller allocated =>
      simp only [RadosWorker.step] at hstep
      split at hstep
      · rename_i op hc
        split at hstep
        · rename_i worker hfind
          cases hstep
          exact h.found hc (fun _ => rfl) (by simp) hfind
        · rename_i hfind
          split_ifs at hstep
          · cases hstep
            exact h.create hc hfind
          · cases hstep
            exact h.refuse hc (fun _ => rfl) (by simp) (by simp)
      · cases hstep
  | queue caller =>
      simp only [RadosWorker.step] at hstep
      split at hstep
      · rename_i op worker hc
        split at hstep
        · rename_i w hw
          cases hstep
          exact h.queue hc hw
        · cases hstep
      · cases hstep
  | work worker action =>
      simp only [RadosWorker.step] at hstep
      split at hstep
      · rename_i w hw
        split at hstep
        · rename_i w' effect hwork
          cases hstep
          refine h.work hw (fun answer haction => ?_) hwork
          subst haction
          cases answer with
          | noIoCtx => trivial
          | aio ret => exact hok
        · cases hstep
      · cases hstep
  | complete i ret =>
      simp only [RadosWorker.step] at hstep
      split at hstep
      · rename_i op hop
        cases hstep
        exact h.complete hop ret
      · cases hstep
  | stop =>
      simp only [RadosWorker.step] at hstep
      split at hstep
      · cases hstep
        exact h.stop hok _
      · cases hstep
  | stopStep => exact h.stopStep hstep

/-! ## What the function of an op is called with -/

/-- What the thread met makes it call the function of the op itself, with this value. -/
def Answer.Fails (op : Op) (ret : Int) : Answer → Prop
  | .noIoCtx => ret = -2
  | .aio aioRet => ret < 0 ∧ ret = if op.opType = .unknown then -22 else aioRet

/-- What the thread met leaves the op with librados. -/
def Answer.Sends (op : Op) (answer : Answer) : Prop := op.opType ≠ .unknown ∧ answer = .aio 0

/-- An unknown op fails with -22, and what `aio_operate` returned counts for the others. -/
theorem radosOperationAioOperate_eq (op : Op) (ret : Int) :
    radosOperationAioOperate op ret = if op.opType = .unknown then -22 else ret := by
  unfold radosOperationAioOperate
  cases op.opType <;> rfl

/-- Handling an op is recorded. -/
theorem handled_handleOp (op : Op) (answer : Answer) :
    (handleOp op answer).handled = [(op, answer)] := by
  cases answer with
  | noIoCtx => rfl
  | aio aioRet =>
      simp only [handleOp]
      split_ifs <;> rfl

/-- When handling an op calls a function. -/
theorem mem_called_handleOp {op op' : Op} {answer : Answer} {ret : Int} :
    (op', ret) ∈ (handleOp op answer).called ↔ op' = op ∧ answer.Fails op ret := by
  cases answer with
  | noIoCtx => simp [handleOp, Answer.Fails]
  | aio aioRet =>
      simp only [handleOp, Answer.Fails, ← radosOperationAioOperate_eq]
      split_ifs with hneg hzero
      · simp only [List.mem_singleton, Prod.mk.injEq]
        refine and_congr_right fun _ => ⟨?_, And.right⟩
        rintro rfl
        exact ⟨hneg, rfl⟩
      · refine iff_of_false List.not_mem_nil ?_
        rintro ⟨-, hret, rfl⟩
        exact hneg hret
      · refine iff_of_false List.not_mem_nil ?_
        rintro ⟨-, hret, rfl⟩
        exact hneg hret

/-- When handling an op hands it to librados. -/
theorem mem_sent_handleOp {op op' : Op} {answer : Answer} :
    op' ∈ (handleOp op answer).sent ↔ op' = op ∧ answer.Sends op := by
  cases answer with
  | noIoCtx => simp [handleOp, Answer.Sends]
  | aio aioRet =>
      have hzero : radosOperationAioOperate op aioRet = 0 ↔
          op.opType ≠ .unknown ∧ aioRet = 0 := by
        rw [radosOperationAioOperate_eq]
        split_ifs with hunknown <;> simp [hunknown]
      simp only [handleOp, Answer.Sends, Answer.aio.injEq, ← hzero]
      split_ifs with hneg hsent
      · exact iff_of_false List.not_mem_nil fun h => absurd h.2 hneg.ne
      · simp [hsent]
      · exact iff_of_false List.not_mem_nil fun h => hsent h.2

/-- What is recorded of an op that was handled: it is with librados or its function was called, and
by whom and with what value. -/
structure Answered (s : State) : Prop where
  once : ∀ op, (s.handled.map Prod.fst).count op =
    (s.called.map Prod.fst).count op + s.pending.count op
  sent : ∀ op, (op ∈ s.pending ∨ ∃ ret, (op, ret) ∈ s.completions) ↔
    ∃ answer, (op, answer) ∈ s.handled ∧ answer.Sends op
  called : ∀ op ret, (op, ret) ∈ s.called ↔
    (op, ret) ∈ s.completions ∨ ∃ answer, (op, answer) ∈ s.handled ∧ answer.Fails op ret

/-- What librados owes or has completed was submitted with 0. -/
theorem Answered.sent_iff (h : Answered s) (op : Op) :
    (op ∈ s.pending ∨ ∃ ret, (op, ret) ∈ s.completions) ↔
      op.opType ≠ .unknown ∧ (op, .aio 0) ∈ s.handled := by
  rw [h.sent op]
  constructor
  · rintro ⟨answer, hmem, hknown, rfl⟩
    exact ⟨hknown, hmem⟩
  · intro hsent
    exact ⟨.aio 0, hsent.2, hsent.1, rfl⟩

/-- Who calls the function of an op, and with what value. -/
theorem Answered.called_iff (h : Answered s) (op : Op) (ret : Int) :
    (op, ret) ∈ s.called ↔
      (op, ret) ∈ s.completions ∨ ((op, .noIoCtx) ∈ s.handled ∧ ret = -2) ∨
        ∃ aioRet, (op, .aio aioRet) ∈ s.handled ∧ ret < 0 ∧
          ret = if op.opType = .unknown then -22 else aioRet := by
  rw [h.called op ret]
  refine or_congr_right ⟨?_, ?_⟩
  · rintro ⟨answer, hmem, hfails⟩
    cases answer with
    | noIoCtx => exact .inl ⟨hmem, hfails⟩
    | aio aioRet => exact .inr ⟨aioRet, hmem, hfails⟩
  · rintro (⟨hmem, hret⟩ | ⟨aioRet, hmem, hfails⟩)
    · exact ⟨.noIoCtx, hmem, hret⟩
    · exact ⟨.aio aioRet, hmem, hfails⟩

/-- A thread handles an op. -/
theorem Answered.handle {op : Op} {answer : Answer} (h : Answered s) (hok : answer.ok)
    (hhandled : t.handled = s.handled ++ (handleOp op answer).handled)
    (hpending : t.pending = s.pending ++ (handleOp op answer).sent)
    (hcompletions : t.completions = s.completions)
    (hcalled : t.called = s.called ++ (handleOp op answer).called) : Answered t := by
  rw [handled_handleOp] at hhandled
  have hmem : ∀ (P : Answer → Prop) op', (∃ a, (op', a) ∈ t.handled ∧ P a) ↔
      (∃ a, (op', a) ∈ s.handled ∧ P a) ∨ (op' = op ∧ P answer) := by
    intro P op'
    simp only [hhandled, List.mem_append, List.mem_singleton, Prod.mk.injEq, or_and_right,
      exists_or, and_assoc, exists_and_left, exists_eq_left]
  refine ⟨fun op' => ?_, fun op' => ?_, fun op' ret => ?_⟩
  · have hone := congrArg (List.count op') (handleOp_once op hok)
    have hold := h.once op'
    rw [List.count_append] at hone
    rw [hhandled, hcalled, hpending]
    simp only [List.map_append, List.map_cons, List.map_nil, List.count_append]
    omega
  · rw [hmem, ← h.sent op', hpending, hcompletions, List.mem_append, mem_sent_handleOp,
      or_right_comm]
    refine or_congr_right (and_congr_right fun heq => ?_)
    rw [heq]
  · rw [hmem, hcalled, hcompletions, List.mem_append, mem_called_handleOp, h.called op' ret,
      or_assoc]
    refine or_congr_right (or_congr_right (and_congr_right fun heq => ?_))
    rw [heq]

/-- librados runs a completion. -/
theorem Answered.complete {i : Nat} {op : Op} (h : Answered s) (hop : s.pending[i]? = some op)
    (ret : Int) : Answered (s.complete i op ret) := by
  refine ⟨fun op' => ?_, fun op' => ?_, fun op' ret' => ?_⟩
  · have herase := total_eraseIdx (single op') hop
    have hold := h.once op'
    simp only [total_single_eq_count] at herase
    simp only [single] at herase
    simp only [State.complete, List.map_append, List.map_cons, List.map_nil, List.count_append,
      List.count_singleton, beq_iff_eq]
    omega
  · rw [show (s.complete i op ret).handled = s.handled from rfl, ← h.sent op']
    simp only [State.complete, List.mem_append, List.mem_singleton, Prod.mk.injEq]
    constructor
    · rintro (hleft | ⟨ret', hold | ⟨rfl, -⟩⟩)
      · exact .inl (List.mem_of_mem_eraseIdx hleft)
      · exact .inr ⟨ret', hold⟩
      · exact .inl (List.mem_of_getElem? hop)
    · rintro (hmem | ⟨ret', hold⟩)
      · by_cases heq : op' = op
        · exact .inr ⟨ret, .inr ⟨heq, rfl⟩⟩
        · obtain ⟨j, hj⟩ := List.mem_iff_getElem?.mp hmem
          refine .inl (List.mem_eraseIdx_iff_getElem?.mpr ⟨j, ?_, hj⟩)
          rintro rfl
          exact heq (Option.some.inj (hj.symm.trans hop))
      · exact .inr ⟨ret', .inl hold⟩
  · show (op', ret') ∈ s.called ++ [(op, ret)] ↔ (op', ret') ∈ s.completions ++ [(op, ret)] ∨ _
    rw [List.mem_append, List.mem_append, h.called op' ret', or_right_comm]
    rfl

/-- A thread's step handles an op, or touches neither ops nor their functions. -/
theorem effect_of_work {w w' : RadosIOWorker} {action : WorkerStep} {effect : Effect}
    (hwork : w.work action = some (w', effect)) :
    (∃ notifies, effect = { notifyEmpty := notifies }) ∨
      ∃ op answer, action = .take answer ∧ effect = handleOp op answer := by
  cases action with
  | acquire =>
      simp only [RadosIOWorker.work] at hwork
      split at hwork
      · cases hwork
        exact .inl ⟨_, rfl⟩
      · split_ifs at hwork
        cases hwork
        exact .inl ⟨_, rfl⟩
      all_goals cases hwork
  | take answer =>
      simp only [RadosIOWorker.work] at hwork
      split at hwork
      · rename_i op rest _ _
        cases hwork
        exact .inr ⟨op, answer, rfl, rfl⟩
      · cases hwork
  | wake =>
      simp only [RadosIOWorker.work] at hwork
      split at hwork
      · cases hwork
        exact .inl ⟨_, rfl⟩
      all_goals cases hwork

/-- `Stop` touches neither ops nor their functions. -/
theorem Answered.stopStep (h : Answered s) (hstep : s.stopStep = some t) : Answered t := by
  obtain ⟨workers, ioWorkers, stopper, rfl⟩ : ∃ workers ioWorkers stopper,
      t = { s with workers := workers, ioWorkers := ioWorkers, stopper := stopper } := by
    unfold State.stopStep at hstep
    split at hstep
    all_goals try split at hstep
    all_goals try split_ifs at hstep
    all_goals cases hstep
    all_goals exact ⟨_, _, _, rfl⟩
  exact ⟨h.once, h.sent, h.called⟩

/-- Every admitted step keeps the record. -/
theorem Answered.step {event : Event} (h : Answered s) (hok : admitted s event)
    (hstep : step s event = some t) : Answered t := by
  cases event with
  | submit caller poolId opType =>
      simp only [RadosWorker.step] at hstep
      split at hstep
      · split_ifs at hstep
        all_goals
          cases hstep
          exact ⟨h.once, h.sent, h.called⟩
      · cases hstep
  | getIOWorker caller =>
      simp only [RadosWorker.step] at hstep
      split at hstep
      · split at hstep
        all_goals
          cases hstep
          exact ⟨h.once, h.sent, h.called⟩
      · cases hstep
  | createIOWorker caller allocated =>
      simp only [RadosWorker.step] at hstep
      split at hstep
      · split at hstep
        · cases hstep
          exact ⟨h.once, h.sent, h.called⟩
        · split_ifs at hstep
          all_goals
            cases hstep
            exact ⟨h.once, h.sent, h.called⟩
      · cases hstep
  | queue caller =>
      simp only [RadosWorker.step] at hstep
      split at hstep
      · split at hstep
        · cases hstep
          exact ⟨h.once, h.sent, h.called⟩
        · cases hstep
      · cases hstep
  | work worker action =>
      simp only [RadosWorker.step] at hstep
      split at hstep
      · split at hstep
        · rename_i w' effect hwork
          cases hstep
          rcases effect_of_work hwork with ⟨notifies, rfl⟩ | ⟨op, answer, rfl, rfl⟩
          · simpa [State.worked] using ⟨h.once, h.sent, h.called⟩
          · have hanswer : answer.ok := by
              cases answer with
              | noIoCtx => trivial
              | aio ret => exact hok
            exact h.handle hanswer rfl rfl rfl rfl
        · cases hstep
      · cases hstep
  | complete i ret =>
      simp only [RadosWorker.step] at hstep
      split at hstep
      · rename_i op hop
        cases hstep
        exact h.complete hop ret
      · cases hstep
  | stop =>
      simp only [RadosWorker.step] at hstep
      split at hstep
      · cases hstep
        exact ⟨h.once, h.sent, h.called⟩
      · cases hstep
  | stopStep => exact h.stopStep hstep

/-- The record is right in every run. -/
theorem answered_of_reach {threads : Nat} (h : Reach step admitted (init threads) s) :
    Answered s :=
  h.invariant Answered ⟨by simp [init], by simp [init], by simp [init]⟩
    fun _ _ _ hs hok hstep => hs.step hok hstep

/-! ## A worker left alone takes everything -/

/-- One step of a worker, its effect aside. -/
def RadosIOWorker.step (w : RadosIOWorker) (action : WorkerStep) : Option RadosIOWorker :=
  (w.work action).map Prod.fst

/-- The thread acts on its own, meeting the given answers: it does not rely on a spurious
wake-up. -/
def RadosIOWorker.ownStep (answer : Op → Answer) (w : RadosIOWorker) : WorkerStep → Prop
  | .acquire => True
  | .take met => ∃ op ∈ w.ls.head?, met = answer op
  | .wake => w.phase = .waiting true

/-- Nothing is left: everything accepted was taken. -/
theorem RadosIOWorker.Inv.taken_all {w : RadosIOWorker} (h : w.Inv) (hls : w.ls = [])
    (hops : w.ops = []) : w.taken = w.accepted := by
  simpa [hls, hops] using h.order.symm

/-- A draining thread can empty its batch. -/
theorem RadosIOWorker.Inv.drain {w : RadosIOWorker} (answer : Op → Answer) (h : w.Inv)
    (hphase : w.phase = .draining) :
    ∃ w', Reach RadosIOWorker.step (RadosIOWorker.ownStep answer) w w' ∧ w'.Inv ∧
      w'.phase = .draining ∧ w'.ls = [] ∧ w'.ops = w.ops ∧ w'.accepted = w.accepted := by
  induction hls : w.ls generalizing w with
  | nil => exact ⟨w, .start, h, hphase, hls, rfl, rfl⟩
  | cons op rest ih =>
      have htake : w.step (.take (answer op)) =
          some { w with ls := rest, taken := w.taken ++ [op] } := by
        simp [RadosIOWorker.step, RadosIOWorker.work, hphase, hls]
      have hnext : RadosIOWorker.Inv { w with ls := rest, taken := w.taken ++ [op] } :=
        ⟨by simp [h.order, hls], fun hne => absurd hphase hne, h.running, by simp [hphase],
          h.stopped⟩
      obtain ⟨w', hreach, hinv, hphase', hempty, hops, hacc⟩ := ih hnext hphase rfl
      have hown : w.ownStep answer (.take (answer op)) := ⟨op, by simp [hls], rfl⟩
      exact ⟨w', (Reach.next .start hown htake).trans hreach, hinv, hphase', hempty, hops, hacc⟩

/-- A thread that can take the lock and finds ops takes them all. -/
theorem RadosIOWorker.Inv.swap_drain {w : RadosIOWorker} (answer : Op → Answer) (h : w.Inv)
    (hls : w.ls = []) (action : WorkerStep) (hown : w.ownStep answer action)
    (hstep : w.step action = some
      { w with ls := w.ops, ops := [], ioworkerRunning := true, phase := .draining })
    (hops : w.ops ≠ []) :
    ∃ w', Reach RadosIOWorker.step (RadosIOWorker.ownStep answer) w w' ∧
      w'.taken = w.accepted := by
  have hswap := h.loopStep hls (.swap hops)
  obtain ⟨w', hreach, hinv, -, hempty, hops', hacc⟩ := hswap.drain answer rfl
  exact ⟨w', (Reach.next .start hown hstep).trans hreach,
    (hinv.taken_all hempty hops').trans hacc⟩

/-- The thread, acting alone, takes everything accepted so far. -/
theorem RadosIOWorker.Inv.take_all {w : RadosIOWorker} (answer : Op → Answer) (h : w.Inv) :
    ∃ w', Reach RadosIOWorker.step (RadosIOWorker.ownStep answer) w w' ∧
      w'.taken = w.accepted := by
  by_cases hstop : w.ioworkerStop = true ∨ w.phase = .exited
  · obtain ⟨hops, hphase⟩ := h.stopped hstop
    exact ⟨w, .start, h.taken_all (h.idle hphase) hops⟩
  · rw [not_or, Bool.not_eq_true] at hstop
    obtain ⟨hstop, hexited⟩ := hstop
    cases hphase : w.phase with
    | ready =>
        have hls := h.idle (by simp [hphase])
        by_cases hops : w.ops = []
        · exact ⟨w, .start, h.taken_all hls hops⟩
        · exact h.swap_drain answer hls .acquire trivial (by
            simp [RadosIOWorker.step, RadosIOWorker.work, hphase, RadosIOWorker.outerLoop, hstop,
              RadosIOWorker.innerLoop, hops]) hops
    | draining =>
        obtain ⟨v, hreach, hinv, hphase', hls, hops', hacc⟩ := h.drain answer hphase
        by_cases hops : v.ops = []
        · exact ⟨v, hreach, (hinv.taken_all hls hops).trans hacc⟩
        · obtain ⟨w', hreach', htaken⟩ := hinv.swap_drain answer hls .acquire trivial (by
            simp [RadosIOWorker.step, RadosIOWorker.work, hphase', hls, RadosIOWorker.innerLoop,
              hops]) hops
          exact ⟨w', hreach.trans hreach', htaken.trans hacc⟩
    | waiting notified =>
        have hls := h.idle (by simp [hphase])
        by_cases hops : w.ops = []
        · exact ⟨w, .start, h.taken_all hls hops⟩
        · cases notified with
          | false => exact absurd (h.wait hphase) hops
          | true =>
              exact h.swap_drain answer hls .wake hphase (by
                simp [RadosIOWorker.step, RadosIOWorker.work, hphase, RadosIOWorker.outerLoop,
                  hstop, RadosIOWorker.innerLoop, hops]) hops
    | exited => exact absurd hphase hexited

/-! ## Delivery -/

/-- Only the thread of the `i`-th worker acts, on its own and meeting the given answers, and
librados. -/
def onlyWorker (i : Nat) (answer : Op → Answer) (s : State) : Event → Prop
  | .work worker action =>
      worker = i ∧ ∃ w : RadosIOWorker, s.workers[i]? = some w ∧ w.ownStep answer action
  | .complete _ _ => True
  | .submit _ _ _ | .getIOWorker _ | .createIOWorker _ _ | .queue _ | .stop | .stopStep => False

/-- What one worker can do alone, it can do in the system. -/
theorem reach_of_worker {i : Nat} {answer : Op → Answer} {w w' : RadosIOWorker}
    (hw : s.workers[i]? = some w)
    (h : Reach RadosIOWorker.step (RadosIOWorker.ownStep answer) w w') :
    ∃ t, Reach step (onlyWorker i answer) s t ∧ t.workers[i]? = some w' := by
  induction h with
  | start => exact ⟨s, .start, hw⟩
  | @next before after action _ hown hstep ih =>
      obtain ⟨t, hreach, hbefore⟩ := ih
      obtain ⟨⟨after', effect⟩, hwork, rfl⟩ := Option.map_eq_some_iff.mp hstep
      have hok : onlyWorker i answer t (.work i action) := ⟨rfl, before, hbefore, hown⟩
      refine ⟨t.worked i after' effect, hreach.next hok ?_, ?_⟩
      · simp [step, hbefore, hwork]
      · exact List.getElem?_set_self (List.getElem?_eq_some_iff.mp hbefore).1

/-- librados can call every completion it owes. -/
theorem reach_no_pending (i : Nat) (answer : Op → Answer) (s : State) :
    ∃ t, Reach step (onlyWorker i answer) s t ∧ t.pending = [] ∧ t.workers = s.workers := by
  induction hpending : s.pending generalizing s with
  | nil => exact ⟨s, .start, hpending, rfl⟩
  | cons op rest ih =>
      have hstep : step s (.complete 0 0) = some (s.complete 0 op 0) := by
        simp [step, hpending]
      obtain ⟨t, hreach, hempty, hworkers⟩ := ih (s.complete 0 op 0) (by
        simp [State.complete, hpending])
      exact ⟨t, (Reach.next .start trivial hstep).trans hreach, hempty, hworkers⟩

/-- What the workers guarantee in a state. -/
structure WorkersDeliver (s : State) : Prop where
  /-- No two workers serve one pool. -/
  one_worker : ∀ (i j : Nat) (v w : RadosIOWorker), s.workers[i]? = some v →
    s.workers[j]? = some w → v.poolId = w.poolId → i = j
  /-- Every op for which `Queue` returned 0 was accepted by the worker of its pool. -/
  accepted_by_pool : ∀ op, (op, 0) ∈ s.returned →
    ∃ w ∈ s.workers, w.poolId = op.poolId ∧ op ∈ w.accepted
  /-- A worker accepted exactly these ops of its pool, in this order and each once. -/
  accepted_once : ∀ w ∈ s.workers, w.accepted = acceptedFor s.returned w.poolId ∧
    w.accepted.Nodup
  /-- Ops are taken in the order of acceptance, and none is lost. -/
  taken_in_order : ∀ w ∈ s.workers, w.accepted = w.taken ++ (w.ls ++ w.ops)
  /-- The function of an op that was taken is called once, or librados owes that call. -/
  called_once : ∀ op, (s.called.map Prod.fst).count op + s.pending.count op =
    if ∃ w ∈ s.workers, op ∈ w.taken then 1 else 0
  /-- An op that was taken met one answer: no I/O context, or what `aio_operate` returned. -/
  handled_once : ∀ op, (s.handled.map Prod.fst).count op =
    if ∃ w ∈ s.workers, op ∈ w.taken then 1 else 0
  /-- librados owes the completion of an op, or has run it, exactly if there was an I/O context and
  `aio_operate` returned 0. -/
  sent : ∀ op, (op ∈ s.pending ∨ ∃ ret, (op, ret) ∈ s.completions) ↔
    op.opType ≠ .unknown ∧ (op, .aio 0) ∈ s.handled
  /-- The function of an op is called by `ReadCallback` or `WriteCallback` with what the completion
  returned, or by the thread with -ENOENT or the error of the submission. -/
  called_with : ∀ op ret, (op, ret) ∈ s.called ↔
    (op, ret) ∈ s.completions ∨ ((op, .noIoCtx) ∈ s.handled ∧ ret = -2) ∨
      ∃ aioRet, (op, .aio aioRet) ∈ s.handled ∧ ret < 0 ∧
        ret = if op.opType = .unknown then -22 else aioRet
  /-- Whatever the thread meets, it takes all that was accepted, and librados completes it. -/
  will_complete : ∀ (answer : Op → Answer), (∀ op, (answer op).ok) →
    ∀ (i : Nat) (w : RadosIOWorker), s.workers[i]? = some w →
    ∃ t, Reach step (onlyWorker i answer) s t ∧ (∃ w', t.workers[i]? = some w' ∧
      w'.taken = w.accepted) ∧ ∀ op ∈ w.accepted, (t.called.map Prod.fst).count op = 1
  /-- A thread that waits with no notification pending has an empty queue. -/
  no_lost_wakeup : ∀ w ∈ s.workers, w.phase = .waiting false → w.ops = []
  /-- A thread that has returned has taken everything. -/
  exited_dry : ∀ w ∈ s.workers, w.phase = .exited → w.taken = w.accepted

/-- Ops returned to their callers are distinct. -/
theorem Inv.returned_nodup (h : Inv s) : (s.returned.map Prod.fst).Nodup := by
  have hids : ((s.returned.map Prod.fst).map Op.id).Nodup := by
    rw [List.map_map, List.nodup_iff_count_le_one]
    intro id
    have honce : total (Caller.holds id) s.callers +
        (s.returned.map (Op.id ∘ Prod.fst)).count id = if id < s.submitted then 1 else 0 :=
      h.once id
    split_ifs at honce <;> omega
  exact hids.of_map _

/-- A worker accepts no op twice. -/
theorem Inv.accepted_nodup (h : Inv s) {i : Nat} {w : RadosIOWorker}
    (hw : s.workers[i]? = some w) : w.accepted.Nodup := by
  rw [h.accepted i w hw, acceptedFor]
  exact h.returned_nodup.sublist (List.filter_sublist.map Prod.fst)

/-- A worker accepts only ops of its pool. -/
theorem Inv.poolId_of_mem (h : Inv s) {i : Nat} {w : RadosIOWorker} {op : Op}
    (hw : s.workers[i]? = some w) (hop : op ∈ w.accepted) : op.poolId = w.poolId := by
  rw [h.accepted i w hw, acceptedFor] at hop
  obtain ⟨r, hr, rfl⟩ := List.mem_map.mp hop
  have hkept := (List.mem_filter.mp hr).2
  simp only [Bool.and_eq_true, decide_eq_true_eq] at hkept
  exact hkept.2

/-- An op is taken by one worker at most, once. -/
theorem Inv.taken_once (h : Inv s) (op : Op) :
    total (fun w : RadosIOWorker => w.taken.count op) s.workers =
      if ∃ w ∈ s.workers, op ∈ w.taken then 1 else 0 := by
  split_ifs with hex
  · obtain ⟨w, hmem, hop⟩ := hex
    obtain ⟨i, hw⟩ := List.mem_iff_getElem?.mp hmem
    have hsub : ∀ {j : Nat} {v : RadosIOWorker}, s.workers[j]? = some v → op ∈ v.taken →
        op ∈ v.accepted := by
      intro j v hv hopv
      rw [(h.worker j v hv).order]
      simp [hopv]
    rw [total_eq_of_others_zero hw]
    · have hnodup : w.taken.Nodup := by
        have hall := h.accepted_nodup hw
        rw [(h.worker i w hw).order] at hall
        exact hall.of_append_left
      exact List.count_eq_one_of_mem hnodup hop
    · intro j v hv hne
      refine List.count_eq_zero.mpr fun hopv => hne ?_
      have hpool : v.poolId = w.poolId :=
        (h.poolId_of_mem hv (hsub hv hopv)).symm.trans (h.poolId_of_mem hw (hsub hw hop))
      exact h.tabled.unique j i w.poolId (by simp [State.poolOf, hv, hpool])
        (by simp [State.poolOf, hw])
  · rw [total_eq_zero_iff]
    intro w hw
    exact List.count_eq_zero.mpr fun hop => hex ⟨w, hw, hop⟩

/-- The environment of a worker left alone is admitted. -/
theorem admitted_of_onlyWorker {i : Nat} {answer : Op → Answer} (hanswer : ∀ op, (answer op).ok)
    (s : State) (event : Event) (h : onlyWorker i answer s event) : admitted s event := by
  cases event with
  | work worker action =>
      obtain ⟨-, w, -, hown⟩ := h
      cases action with
      | acquire | wake => trivial
      | take met =>
          obtain ⟨op, -, rfl⟩ := hown
          have hok := hanswer op
          cases hmet : answer op with
          | noIoCtx => trivial
          | aio ret =>
              rw [hmet] at hok
              exact hok
  | complete => trivial
  | submit | getIOWorker | createIOWorker | queue | stop | stopStep => exact h.elim

/-- In every reachable state of every interleaving of callers, workers, librados and `Stop`, there
is one worker per pool, ops are taken once and in order, their functions are called once, by the
completion or by the thread and with the value that is due, no thread sleeps through a push, and a
thread that returns has taken everything. -/
theorem workers_deliver {threads : Nat} (h : Reach step admitted (init threads) s) :
    WorkersDeliver s := by
  have hinvariant : ∀ {t}, Reach step admitted (init threads) t → Inv t := fun ht =>
    ht.invariant Inv (inv_init threads) fun _ _ _ hs hok hstep => hs.step hok hstep
  have hinv := hinvariant h
  have hanswered := answered_of_reach h
  have hget : ∀ {w}, w ∈ s.workers → ∃ i : Nat, s.workers[i]? = some w :=
    fun hw => List.mem_iff_getElem?.mp hw
  refine ⟨?_, ?_, ?_, ?_, ?_, ?_, ?_, ?_, ?_, ?_, ?_⟩
  · intro i j v w hv hw hpool
    exact hinv.tabled.unique i j w.poolId (by simp [State.poolOf, hv, hpool])
      (by simp [State.poolOf, hw])
  · intro op hop
    obtain ⟨i, hi⟩ := hinv.home op hop
    obtain ⟨w, hw, hpool⟩ := Option.map_eq_some_iff.mp hi
    refine ⟨w, List.mem_of_getElem? hw, hpool, ?_⟩
    rw [hinv.accepted i w hw, acceptedFor]
    exact List.mem_map.mpr ⟨(op, 0), List.mem_filter.mpr ⟨hop, by simp [hpool]⟩, rfl⟩
  · intro w hw
    obtain ⟨i, hi⟩ := hget hw
    exact ⟨hinv.accepted i w hi, hinv.accepted_nodup hi⟩
  · intro w hw
    obtain ⟨i, hi⟩ := hget hw
    exact (hinv.worker i w hi).order
  · intro op
    rw [hinv.calls op, hinv.taken_once op]
  · intro op
    rw [hanswered.once op, hinv.calls op, hinv.taken_once op]
  · exact hanswered.sent_iff
  · exact hanswered.called_iff
  · intro answer hanswer i w hw
    obtain ⟨w', hworker, htaken⟩ := (hinv.worker i w hw).take_all answer
    obtain ⟨middle, hfirst, hw'⟩ := reach_of_worker hw hworker
    obtain ⟨t, hsecond, hempty, hworkers⟩ := reach_no_pending i answer middle
    have hreach := hfirst.trans hsecond
    have hinv' := hinvariant (h.trans (hreach.mono (admitted_of_onlyWorker hanswer)))
    rw [← hworkers] at hw'
    refine ⟨t, hreach, ⟨w', hw', htaken⟩, fun op hop => ?_⟩
    have hcalls := hinv'.calls op
    rw [hinv'.taken_once op, if_pos ⟨w', List.mem_of_getElem? hw', htaken ▸ hop⟩, hempty] at hcalls
    simpa using hcalls
  · intro w hw
    obtain ⟨i, hi⟩ := hget hw
    exact (hinv.worker i w hi).wait
  · intro w hw hexited
    obtain ⟨i, hi⟩ := hget hw
    obtain ⟨hops, hphase⟩ := (hinv.worker i w hi).stopped (.inr hexited)
    exact (hinv.worker i w hi).taken_all ((hinv.worker i w hi).idle hphase) hops

/-- Two threads race to create the worker of pool 3; the ops are handled, one by librados and one
without an I/O context, and `Stop` joins the worker. -/
theorem workers_deliver_two :
    ∃ s, Reach step admitted (init 2) s ∧ s.stopper = .done ∧ s.workers.length = 1 ∧
      s.called = [(⟨0, 3, .batchRead⟩, -2), (⟨1, 3, .batchWrite⟩, 5)] ∧ WorkersDeliver s := by
  have h : Reach step admitted (init 2) _ :=
    Reach.of_run [.submit 0 3 .batchRead, .submit 1 3 .batchWrite, .getIOWorker 0, .getIOWorker 1,
      .createIOWorker 1 true, .createIOWorker 0 true, .work 0 .acquire, .queue 1, .queue 0, .stop,
      .stopStep, .work 0 .wake, .work 0 (.take (.aio 0)), .work 0 (.take .noIoCtx),
      .complete 0 5, .work 0 .acquire, .stopStep, .stopStep, .stopStep, .work 0 .wake, .stopStep,
      .stopStep] rfl
  exact ⟨_, h, by decide, by decide, by decide, workers_deliver h⟩

end GlobalCacheAdaptor.CephProxy.RadosWorker
