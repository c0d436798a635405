import Mathlib.Algebra.BigOperators.Group.Finset.Basic
import Mathlib.Algebra.Order.BigOperators.Group.Finset
import GlobalCacheAdaptor.ServerAdaptor.OpQueue

/-!
# Stopping the worker threads

`OSA_Finish` calls `NetworkModule::StopThread`, which takes and drops the mutex of every queue,
sets `finishThread` outside of it, then notifies every worker and joins them. A worker reads its
flag at the head of its loop and, on an empty queue, blocks in `condOpReq.wait` some time later,
under one lock. `OpQueue` takes that section as one step; here it is three: taking the lock, the
test of the flag, and the swap or the wait. What a worker does with one op is one step that is
always possible: the waits in it, at the gates of the throttle and while `copyupFlag` is set, are
taken to end (`Restart` has a module where the gate does not).

Read `stop_thread_returns_unless_missed` first: if the handling of every op returns, `StopThread`
returns whatever the schedule, unless a notification is sent to a worker between its test of the
flag and its wait on an empty queue.
-/

namespace GlobalCacheAdaptor.ServerAdaptor.StopThread

open Lib OpQueue

/-! ## Workers -/

/-- Where `OpHandlerThread` stands in one turn of its loop: without the lock, at the test of
`finishThread` with the lock, past that test with the lock, or out of the loop. -/
inductive Point where
  | unlocked
  | locked
  | passed
  | finished
  deriving DecidableEq, Repr

/-- A worker with its queue. -/
structure Thread where
  lane : Lane := {}
  point : Point := .unlocked

/-- The worker owns `opQueueMutex`. -/
def Thread.ownsLock (thread : Thread) : Bool :=
  thread.point = .locked || thread.point = .passed

/-- The steps of a worker. -/
inductive Action where
  /-- `opReqLock.lock()`, at the start, after a batch or at the end of a wait. -/
  | lock
  /-- The test of `finishThread` at the head of the loop. -/
  | test
  /-- The rest of the section under the lock: swap the queues, or wait. -/
  | act
  /-- One op of the batch, from the pop to the return of `DoOneOps` and `FinishCacheOps`. -/
  | take
  /-- `condOpReq.wait` stops blocking. -/
  | wake
  deriving DecidableEq, Repr

/-- The worker is about to take the lock: it neither waits nor has ops of a batch left. -/
def Thread.atLock (thread : Thread) : Prop :=
  thread.lane.worker.phase = .ready ∨
    (thread.lane.worker.phase = .draining ∧ thread.lane.worker.dealQueue.isEmpty)

instance (thread : Thread) : Decidable thread.atLock :=
  inferInstanceAs (Decidable (_ ∨ _))

/-- One step of a worker whose flag reads `finish`. -/
def Thread.work (finish : Bool) (thread : Thread) : Action → Option Thread
  | .lock =>
      if thread.point = .unlocked ∧ thread.atLock then some { thread with point := .locked }
      else none
  | .test =>
      if thread.point = .locked then
        some { thread with point := if finish then .finished else .passed }
      else none
  | .act =>
      if thread.point = .passed then (thread.lane.work .acquire).map (⟨·, .unlocked⟩) else none
  | .take =>
      if thread.point = .unlocked then (thread.lane.work .take).map (⟨·, .unlocked⟩) else none
  | .wake =>
      if thread.point = .unlocked then (thread.lane.work .wake).map (⟨·, .unlocked⟩) else none

/-! ## The system -/

/-- Where `StopThread` is: not called, in one of its three loops at an index, between the lock and
the flag of an index, or done. -/
inductive Stopper where
  | idle
  | locking (i : Nat)
  | setting (i : Nat)
  | notifying (i : Nat)
  | joining (i : Nat)
  | returned
  deriving DecidableEq, Repr

/-- The workers, their flags, and the thread in `OSA_Finish`. -/
structure State where
  threads : Nat → Thread := fun _ => {}
  finishThread : Nat → Bool := fun _ => false
  stopper : Stopper := .idle

/-- The state after `CreateWorkThread`. -/
def init : State := {}

/-- One scheduling choice. -/
inductive Event where
  /-- A producer pushes under the lock of a queue. -/
  | push (i : Nat) (entry : Entry)
  /-- A worker makes a step. -/
  | work (i : Nat) (action : Action)
  /-- `OSA_Finish` calls `StopThread`. -/
  | call
  /-- `StopThread` makes a step. -/
  | stop

/-- `condOpReq.notify_all` for one queue. -/
def Thread.notify (thread : Thread) : Thread :=
  { thread with lane := { thread.lane with worker := thread.lane.worker.notify } }

/-- One step of `StopThread` over `queueNum` queues. The `unique_lock` of the first loop lives for
the `try` block only, so the lock is dropped before the flag is written. -/
def stopThread (queueNum : Nat) (s : State) : Option State :=
  match s.stopper with
  | .idle | .returned => none
  | .locking i =>
      if i < queueNum then
        if (s.threads i).ownsLock then none else some { s with stopper := .setting i }
      else some { s with stopper := .notifying 0 }
  | .setting i =>
      some { s with
        finishThread := Function.update s.finishThread i true
        stopper := .locking (i + 1) }
  | .notifying i =>
      if i < queueNum then
        some { s with
          threads := Function.update s.threads i (s.threads i).notify
          stopper := .notifying (i + 1) }
      else some { s with stopper := .joining 0 }
  | .joining i =>
      if i < queueNum then
        if (s.threads i).point = .finished then some { s with stopper := .joining (i + 1) }
        else none
      else some { s with stopper := .returned }

/-- One step of the system. -/
def step (queueNum : Nat) (s : State) : Event → Option State
  | .push i entry =>
      if (s.threads i).ownsLock then none
      else some { s with
        threads := Function.update s.threads i
          { s.threads i with lane := (s.threads i).lane.push entry } }
  | .work i action =>
      if i < queueNum then
        match (s.threads i).work (s.finishThread i) action with
        | some thread => some { s with threads := Function.update s.threads i thread }
        | none => none
      else none
  | .call => if s.stopper = .idle then some { s with stopper := .locking 0 } else none
  | .stop => stopThread queueNum s

/-! ## What a step does -/

/-- The steps of a worker, with the section after a passed test cut by its two outcomes. -/
inductive Moves (finish : Bool) (thread : Thread) : Action → Thread → Prop where
  | lock : thread.point = .unlocked → thread.atLock → Moves finish thread .lock
      ⟨thread.lane, .locked⟩
  | test : thread.point = .locked → Moves finish thread .test
      ⟨thread.lane, if finish then .finished else .passed⟩
  | sleep : thread.point = .passed → thread.atLock → thread.lane.queue.reqQueue = [] →
      Moves finish thread .act
        ⟨{ thread.lane with worker := { thread.lane.worker with phase := .waiting false } },
          .unlocked⟩
  | swap : thread.point = .passed → thread.atLock → thread.lane.queue.reqQueue ≠ [] →
      Moves finish thread .act
        ⟨{ thread.lane with
            queue := ⟨thread.lane.worker.dealQueue, thread.lane.worker.dealTs,
              thread.lane.worker.periodTs⟩
            worker := ⟨thread.lane.queue.reqQueue, thread.lane.queue.tsQueue,
              thread.lane.queue.period, .draining⟩ }, .unlocked⟩
  | take (lane : Lane) : thread.point = .unlocked → thread.lane.worker.phase = .draining →
      lane.worker.phase = .draining → lane.queue = thread.lane.queue →
      lane.worker.dealQueue.length < thread.lane.worker.dealQueue.length →
      Moves finish thread .take ⟨lane, .unlocked⟩
  | wake (notified : Bool) : thread.point = .unlocked →
      thread.lane.worker.phase = .waiting notified → Moves finish thread .wake
        ⟨{ thread.lane with worker := { thread.lane.worker with phase := .ready } }, .unlocked⟩

variable {thread thread' : Thread} {finish : Bool} {action : Action}

/-- A step of a worker is one of these. -/
theorem moves_of_work (h : thread.work finish action = some thread') :
    Moves finish thread action thread' := by
  cases action with
  | lock =>
      simp only [Thread.work] at h
      split_ifs at h with hlock
      cases h
      exact .lock hlock.1 hlock.2
  | test =>
      simp only [Thread.work] at h
      by_cases hlocked : thread.point = .locked
      · rw [if_pos hlocked] at h
        cases h
        exact .test hlocked
      · rw [if_neg hlocked] at h
        cases h
  | act =>
      simp only [Thread.work] at h
      split_ifs at h with hpassed
      obtain ⟨lane, hlane, rfl⟩ := Option.map_eq_some_iff.mp h
      simp only [Lane.work] at hlane
      split_ifs at hlane with hfree hempty
      · cases hlane
        exact .sleep hpassed hfree (List.isEmpty_iff.mp hempty)
      · cases hlane
        exact .swap hpassed hfree fun hnil => hempty (List.isEmpty_iff.mpr hnil)
  | take =>
      simp only [Thread.work] at h
      split_ifs at h with hunlocked
      obtain ⟨lane, hlane, rfl⟩ := Option.map_eq_some_iff.mp h
      simp only [Lane.work] at hlane
      split_ifs at hlane with hdraining
      split at hlane
      · cases hlane
      · rename_i op rest hdeal
        cases hlane
        exact .take _ hunlocked hdraining hdraining rfl (by simp [hdeal])
  | wake =>
      simp only [Thread.work] at h
      split_ifs at h with hunlocked
      obtain ⟨lane, hlane, rfl⟩ := Option.map_eq_some_iff.mp h
      simp only [Lane.work] at hlane
      split at hlane
      · rename_i notified hphase
        cases hlane
        exact .wake notified hunlocked hphase
      all_goals cases hlane

/-- The steps of the system. -/
inductive Stepped (queueNum : Nat) (s : State) : Event → State → Prop where
  | push (i : Nat) (entry : Entry) : (s.threads i).ownsLock = false →
      Stepped queueNum s (.push i entry)
        { s with
          threads := Function.update s.threads i
            { s.threads i with lane := (s.threads i).lane.push entry } }
  | work (i : Nat) (action : Action) (thread : Thread) : i < queueNum →
      (s.threads i).work (s.finishThread i) action = some thread →
      Stepped queueNum s (.work i action)
        { s with threads := Function.update s.threads i thread }
  | call : s.stopper = .idle → Stepped queueNum s .call { s with stopper := .locking 0 }
  | locked (i : Nat) : s.stopper = .locking i → i < queueNum →
      (s.threads i).ownsLock = false →
      Stepped queueNum s .stop { s with stopper := .setting i }
  | lockedAll (i : Nat) : s.stopper = .locking i → queueNum ≤ i →
      Stepped queueNum s .stop { s with stopper := .notifying 0 }
  | set (i : Nat) : s.stopper = .setting i → Stepped queueNum s .stop
      { s with
        finishThread := Function.update s.finishThread i true
        stopper := .locking (i + 1) }
  | notified (i : Nat) : s.stopper = .notifying i → i < queueNum →
      Stepped queueNum s .stop
        { s with
          threads := Function.update s.threads i (s.threads i).notify
          stopper := .notifying (i + 1) }
  | notifiedAll (i : Nat) : s.stopper = .notifying i → queueNum ≤ i →
      Stepped queueNum s .stop { s with stopper := .joining 0 }
  | joined (i : Nat) : s.stopper = .joining i → i < queueNum →
      (s.threads i).point = .finished →
      Stepped queueNum s .stop { s with stopper := .joining (i + 1) }
  | joinedAll (i : Nat) : s.stopper = .joining i → queueNum ≤ i →
      Stepped queueNum s .stop { s with stopper := .returned }

variable {queueNum : Nat} {s t : State} {event : Event}

/-- A step of the system is one of these. -/
theorem stepped_of_step (h : step queueNum s event = some t) : Stepped queueNum s event t := by
  cases event with
  | push i entry =>
      simp only [step] at h
      split_ifs at h with howns
      cases h
      exact .push i entry (Bool.eq_false_iff.mpr howns)
  | work i action =>
      simp only [step] at h
      split_ifs at h with hi
      split at h
      · rename_i thread hwork
        cases h
        exact .work i action thread hi hwork
      · cases h
  | call =>
      simp only [step] at h
      split_ifs at h with hidle
      cases h
      exact .call hidle
  | stop =>
      simp only [step, stopThread] at h
      cases hstopper : s.stopper with
      | idle => simp [hstopper] at h
      | returned => simp [hstopper] at h
      | locking i =>
          simp only [hstopper] at h
          split_ifs at h with hi howns
          · cases h
            exact .locked i hstopper hi (Bool.eq_false_iff.mpr howns)
          · cases h
            exact .lockedAll i hstopper (Nat.le_of_not_lt hi)
      | setting i =>
          simp only [hstopper, Option.some.injEq] at h
          subst h
          exact .set i hstopper
      | notifying i =>
          simp only [hstopper] at h
          split_ifs at h with hi
          · cases h
            exact .notified i hstopper hi
          · cases h
            exact .notifiedAll i hstopper (Nat.le_of_not_lt hi)
      | joining i =>
          simp only [hstopper] at h
          split_ifs at h with hi hfinished
          · cases h
            exact .joined i hstopper hi hfinished
          · cases h
            exact .joinedAll i hstopper (Nat.le_of_not_lt hi)

/-- What a step does to one worker. -/
inductive Changes (queueNum : Nat) (s : State) (event : Event) (i : Nat) : Thread → Prop where
  | same : Changes queueNum s event i (s.threads i)
  | push (entry : Entry) : event = .push i entry → (s.threads i).ownsLock = false →
      Changes queueNum s event i { s.threads i with lane := (s.threads i).lane.push entry }
  | work (action : Action) (thread : Thread) : event = .work i action → i < queueNum →
      (s.threads i).work (s.finishThread i) action = some thread →
      Changes queueNum s event i thread
  | notify : event = .stop → s.stopper = .notifying i → i < queueNum →
      Changes queueNum s event i (s.threads i).notify

/-- Every step does one of these to each worker. -/
theorem Stepped.changes (h : Stepped queueNum s event t) (i : Nat) :
    Changes queueNum s event i (t.threads i) := by
  cases h with
  | push j entry howns =>
      rcases eq_or_ne i j with rfl | hne
      · simpa using Changes.push entry rfl howns
      · simpa [Function.update_of_ne hne] using Changes.same
  | work j action thread hj hwork =>
      rcases eq_or_ne i j with rfl | hne
      · simpa using Changes.work action thread rfl hj hwork
      · simpa [Function.update_of_ne hne] using Changes.same
  | notified j hstopper hj =>
      rcases eq_or_ne i j with rfl | hne
      · simpa using Changes.notify rfl hstopper hj
      · simpa [Function.update_of_ne hne] using Changes.same
  | call | locked | lockedAll | set | notifiedAll | joined | joinedAll => exact .same

/-! ## What every run keeps -/

/-- The queues and the worker are in order, and a worker with the lock or out of its loop has
nothing in hand. -/
structure Thread.Inv (thread : Thread) : Prop where
  lane : thread.lane.Inv
  hand : thread.point ≠ .unlocked → thread.atLock

/-- A worker about to take the lock has an empty batch. -/
theorem Thread.Inv.dealQueue_nil (h : thread.Inv) (hlock : thread.atLock) :
    thread.lane.worker.dealQueue = [] := by
  rcases hlock with hready | ⟨-, hempty⟩
  · exact h.lane.idle (by simp [hready])
  · exact List.isEmpty_iff.mp hempty

/-- A notification changes at most whether a wait was notified. -/
theorem notify_atLock : thread.notify.atLock ↔ thread.atLock := by
  rcases notify_cases thread.lane.worker with ⟨notified, hphase, hnotify⟩ | ⟨-, hnotify⟩
  · simp [Thread.atLock, Thread.notify, hnotify, hphase]
  · simp [Thread.atLock, Thread.notify, hnotify]

/-- A notification keeps a worker in order. -/
theorem Thread.Inv.notify (h : thread.Inv) : thread.notify.Inv := by
  obtain ⟨⟨hsplit, hidle, hwait⟩, hhand⟩ := h
  refine ⟨?_, fun hpoint => notify_atLock.mpr (hhand hpoint)⟩
  rcases notify_cases thread.lane.worker with ⟨notified, hphase, hnotify⟩ | ⟨-, hnotify⟩
  · refine ⟨by simpa [Thread.notify, hnotify] using hsplit, ?_, ?_⟩
    · intro _
      simpa [Thread.notify, hnotify] using hidle (by simp [hphase])
    · simp [Thread.notify, hnotify]
  · simpa only [Thread.notify, hnotify] using ⟨hsplit, hidle, hwait⟩

/-- A push changes the worker as a notification does. -/
theorem push_atLock (entry : Entry) :
    Thread.atLock ⟨thread.lane.push entry, thread.point⟩ ↔ thread.atLock :=
  notify_atLock

/-- A step of a worker leaves its lane alone or is a step of the lane. -/
theorem lane_of_work (h : thread.work finish action = some thread') :
    thread'.lane = thread.lane ∨ ∃ inner, thread.lane.work inner = some thread'.lane := by
  cases action with
  | lock =>
      simp only [Thread.work] at h
      split_ifs at h
      cases h
      exact .inl rfl
  | test =>
      simp only [Thread.work] at h
      split_ifs at h <;> cases h <;> exact .inl rfl
  | act =>
      simp only [Thread.work] at h
      split_ifs at h
      obtain ⟨lane, hlane, rfl⟩ := Option.map_eq_some_iff.mp h
      exact .inr ⟨.acquire, hlane⟩
  | take =>
      simp only [Thread.work] at h
      split_ifs at h
      obtain ⟨lane, hlane, rfl⟩ := Option.map_eq_some_iff.mp h
      exact .inr ⟨.take, hlane⟩
  | wake =>
      simp only [Thread.work] at h
      split_ifs at h
      obtain ⟨lane, hlane, rfl⟩ := Option.map_eq_some_iff.mp h
      exact .inr ⟨.wake, hlane⟩

/-- A worker's own step keeps it in order. -/
theorem Thread.Inv.work (h : thread.Inv) (hwork : thread.work finish action = some thread') :
    thread'.Inv := by
  constructor
  · rcases lane_of_work hwork with hsame | ⟨inner, hlane⟩
    · rw [hsame]
      exact h.lane
    · exact (h.lane.work hlane).1
  · cases moves_of_work hwork with
    | lock hpoint hlock => exact fun _ => hlock
    | test hpoint => exact fun _ => h.hand (by simp [hpoint])
    | sleep | swap | take | wake => exact fun hne => absurd rfl hne

/-- The flag of a worker was set. -/
def Stopper.flagged (i : Nat) : Stopper → Prop
  | .idle => False
  | .locking j | .setting j => i < j
  | .notifying _ | .joining _ | .returned => True

/-- The notification of a worker was sent. -/
def Stopper.notified (i : Nat) : Stopper → Prop
  | .idle | .locking _ | .setting _ => False
  | .notifying j => i < j
  | .joining _ | .returned => True

/-- A worker was joined. -/
def Stopper.joined (i : Nat) : Stopper → Prop
  | .idle | .locking _ | .setting _ | .notifying _ => False
  | .joining j => i < j
  | .returned => True

/-- Every worker is in order, the flags follow the first loop of `StopThread`, and a joined worker
has left its loop. -/
structure Inv (queueNum : Nat) (s : State) : Prop where
  threads : ∀ i, (s.threads i).Inv
  flags : ∀ i < queueNum, s.stopper.flagged i → s.finishThread i = true
  joins : ∀ i < queueNum, s.stopper.joined i → (s.threads i).point = .finished

/-- The initial state is in order. -/
theorem inv_init : Inv queueNum init :=
  ⟨fun _ => ⟨inv_newLane, fun hne => absurd rfl hne⟩, fun _ _ h => h.elim, fun _ _ h => h.elim⟩

/-- No step takes a worker back into its loop. -/
theorem finished_stays (h : Stepped queueNum s event t) {i : Nat}
    (hfinished : (s.threads i).point = .finished) : (t.threads i).point = .finished := by
  have hchange := h.changes i
  generalize t.threads i = after at hchange ⊢
  cases hchange with
  | same | push | notify => exact hfinished
  | work action thread hevent hi hwork => cases moves_of_work hwork <;> simp_all

/-- Every step keeps every worker in order. -/
theorem threads_inv_step (h : ∀ i, (s.threads i).Inv) (hstep : Stepped queueNum s event t)
    (i : Nat) : (t.threads i).Inv := by
  have hchange := hstep.changes i
  generalize t.threads i = after at hchange ⊢
  cases hchange with
  | same => exact h i
  | push entry =>
      exact ⟨(h i).lane.push entry, fun hpoint => (push_atLock entry).mpr ((h i).hand hpoint)⟩
  | work action thread hevent hi hwork => exact (h i).work hwork
  | notify => exact (h i).notify

/-- Every step keeps the state in order. -/
theorem Inv.step (h : Inv queueNum s) (hstep : Stepped queueNum s event t) : Inv queueNum t := by
  have hfinished := fun i => finished_stays (i := i) hstep
  refine ⟨threads_inv_step h.threads hstep, ?_, ?_⟩
  · intro i hi hflagged
    cases hstep with
    | push | work => exact h.flags i hi hflagged
    | call hidle => exact absurd hflagged (Nat.not_lt_zero i)
    | locked j hj | notified j hj | notifiedAll j hj | joined j hj | joinedAll j hj =>
        exact h.flags i hi (by rw [hj]; exact hflagged)
    | lockedAll j hj hle => exact h.flags i hi (by rw [hj]; exact Nat.lt_of_lt_of_le hi hle)
    | set j hj =>
        rcases eq_or_ne i j with rfl | hne
        · simp
        · have hlt : i < j := by
            have : i < j + 1 := hflagged
            omega
          simpa [Function.update_of_ne hne] using h.flags i hi (by rw [hj]; exact hlt)
  · intro i hi hjoined
    cases hstep with
    | push | work => exact hfinished i (h.joins i hi hjoined)
    | call | locked | lockedAll | set | notified => exact hjoined.elim
    | notifiedAll => exact absurd hjoined (Nat.not_lt_zero i)
    | joined j hj _ hpoint =>
        rcases eq_or_ne i j with rfl | hne
        · exact hpoint
        · have hlt : i < j := by
            have : i < j + 1 := hjoined
            omega
          exact h.joins i hi (by rw [hj]; exact hlt)
    | joinedAll j hj hle =>
        exact h.joins i hi (by rw [hj]; exact Nat.lt_of_lt_of_le hi hle)

/-! ## Missed notifications -/

/-- The event is a `notify_all` of `StopThread` to a worker that found its flag unset and is about
to wait on an empty queue: the worker does not wait yet, so the notification reaches nobody. -/
def missed (queueNum : Nat) (s : State) : Event → Bool
  | .stop =>
      match s.stopper with
      | .notifying i =>
          i < queueNum && (s.threads i).point = .passed &&
            (s.threads i).lane.queue.reqQueue.isEmpty
      | .idle | .locking _ | .setting _ | .joining _ | .returned => false
  | .push _ _ | .work _ _ | .call => false

/-- The worker does not wait without a notification, and is not about to. -/
structure Thread.Awake (thread : Thread) : Prop where
  passed : thread.point = .passed → thread.lane.queue.reqQueue ≠ []
  waiting : thread.lane.worker.phase ≠ .waiting false

/-- A notification leaves no worker waiting without one. -/
theorem notify_phase (worker : Worker) : worker.notify.phase ≠ .waiting false := by
  rcases notify_cases worker with ⟨notified, hphase, hnotify⟩ | ⟨hphase, hnotify⟩
  · simp [hnotify]
  · rw [hnotify]
    exact hphase false

/-- A worker whose flag is set stays awake. -/
theorem Thread.Awake.work (h : thread.Awake) (hwork : thread.work true action = some thread') :
    thread'.Awake := by
  cases moves_of_work hwork with
  | lock => exact ⟨by simp, h.waiting⟩
  | test => exact ⟨by simp, h.waiting⟩
  | sleep hpoint hlock hqueue => exact absurd hqueue (h.passed hpoint)
  | swap => exact ⟨by simp, by simp⟩
  | take lane _ _ hdraining => exact ⟨by simp, by simp [hdraining]⟩
  | wake => exact ⟨by simp, by simp⟩

/-- Every notified worker is awake. -/
def Notified (queueNum : Nat) (s : State) : Prop :=
  ∀ i < queueNum, s.stopper.notified i → (s.threads i).Awake

/-- A notification comes after the flag. -/
theorem Stopper.flagged_of_notified {stopper : Stopper} {i : Nat} (h : stopper.notified i) :
    stopper.flagged i := by
  cases stopper with
  | idle | locking | setting => exact h.elim
  | notifying | joining | returned => trivial

/-- A step that misses nobody keeps every notified worker awake. -/
theorem Notified.step (h : Notified queueNum s) (hinv : Inv queueNum s)
    (hstep : Stepped queueNum s event t) (hmissed : missed queueNum s event = false) :
    Notified queueNum t := by
  intro i hi hnotified
  by_cases hbefore : s.stopper.notified i
  · have hawake := h i hi hbefore
    have hchange := hstep.changes i
    generalize t.threads i = after at hchange ⊢
    cases hchange with
    | same => exact hawake
    | push entry => exact ⟨by simp [Lane.push, ClientOpQueue.enQueue], notify_phase _⟩
    | work action thread hevent _ hwork =>
        rw [hinv.flags i hi (Stopper.flagged_of_notified hbefore)] at hwork
        exact hawake.work hwork
    | notify => exact ⟨hawake.passed, notify_phase _⟩
  · -- only the notification of this worker changes whether it was notified
    cases hstep with
    | push | work => exact absurd hnotified hbefore
    | call | locked | set => exact hnotified.elim
    | lockedAll => exact absurd hnotified (Nat.not_lt_zero i)
    | notified j hj hlt =>
        obtain rfl : i = j := by
          rw [hj] at hbefore
          have h1 : i < j + 1 := hnotified
          have h2 : ¬i < j := hbefore
          omega
        simp only [Function.update_self]
        refine ⟨fun hpassed hqueue => ?_, notify_phase _⟩
        have hp : (s.threads i).point = .passed := hpassed
        have hq : (s.threads i).lane.queue.reqQueue = [] := hqueue
        simp [missed, hj, hlt, hp, hq] at hmissed
    | notifiedAll j hj hle =>
        exact absurd (by rw [hj]; exact Nat.lt_of_lt_of_le hi hle) hbefore
    | joined j hj | joinedAll j hj => exact absurd (by rw [hj]; trivial) hbefore

/-! ## How far everybody still has to go -/

/-- The system acts on its own: no producer, and no spurious wake-up. -/
def own (s : State) : Event → Prop
  | .push _ _ => False
  | .work i action => action = .wake → (s.threads i).lane.worker.phase = .waiting true
  | .call | .stop => True

/-- An upper bound for the steps of a worker before it leaves its loop or waits. -/
def Thread.weight (thread : Thread) : Nat :=
  (match thread.point, thread.lane.worker.phase with
    | .finished, _ => 0
    | .passed, _ => 1
    | .locked, _ => 2
    | .unlocked, .ready | .unlocked, .draining => 3
    | .unlocked, .waiting true => 4
    | .unlocked, .waiting false => 0) +
  6 * thread.lane.queue.reqQueue.length + thread.lane.worker.dealQueue.length

/-- A worker's own step takes it closer. -/
theorem Thread.Inv.weight_lt (h : thread.Inv) (hwork : thread.work finish action = some thread')
    (hown : action = .wake → thread.lane.worker.phase = .waiting true) :
    thread'.weight < thread.weight := by
  cases moves_of_work hwork with
  | lock hpoint hlock =>
      rcases hlock with hready | ⟨hdraining, -⟩
      · simp [Thread.weight, hpoint, hready]
      · simp [Thread.weight, hpoint, hdraining]
  | test hpoint =>
      cases finish with
      | true => simp [Thread.weight, hpoint]
      | false => simp [Thread.weight, hpoint]
  | sleep hpoint hlock hqueue => simp [Thread.weight, hpoint]
  | swap hpoint hlock hqueue =>
      have hdeal := h.dealQueue_nil hlock
      have hpos := List.length_pos_iff.mpr hqueue
      simp only [Thread.weight, hpoint, hdeal, List.length_nil]
      omega
  | take lane hpoint hphase hphase' hqueue hlt =>
      simp only [Thread.weight, hpoint, hphase, hphase', hqueue]
      omega
  | wake notified hpoint hphase =>
      have hnotified := hown rfl
      simp [Thread.weight, hpoint, hnotified]

/-- What the notification that is still to come may cost a worker. -/
def Stopper.pending (i : Nat) : Stopper → Nat
  | .idle | .locking _ | .setting _ => 4
  | .notifying j => if i < j then 0 else 4
  | .joining _ | .returned => 0

/-- The steps `StopThread` still has to make. -/
def Stopper.left (queueNum : Nat) : Stopper → Nat
  | .idle => 4 * queueNum + 4
  | .locking i => 2 * (queueNum - i) + (2 * queueNum + 3)
  | .setting i => 2 * (queueNum - (i + 1)) + (2 * queueNum + 4)
  | .notifying i => queueNum - i + (queueNum + 2)
  | .joining i => queueNum - i + 1
  | .returned => 0

/-- An upper bound for the steps of the system on its own. -/
def State.weight (queueNum : Nat) (s : State) : Nat :=
  ∑ i ∈ Finset.range queueNum, ((s.threads i).weight + s.stopper.pending i) +
    s.stopper.left queueNum

/-- A notification costs a worker at most what was set aside for it. -/
theorem notify_weight_le : thread.notify.weight ≤ thread.weight + 4 := by
  rcases notify_cases thread.lane.worker with ⟨notified, hphase, hnotify⟩ | ⟨-, hnotify⟩
  · simp only [Thread.weight, Thread.notify, hnotify]
    cases thread.point <;> simp only <;> omega
  · simp [Thread.weight, Thread.notify, hnotify]

/-- A step of `StopThread` itself: no worker gets further away, and `StopThread` gets closer. -/
theorem weight_lt_of_stop
    (hthreads : ∀ i < queueNum, (t.threads i).weight + t.stopper.pending i ≤
      (s.threads i).weight + s.stopper.pending i)
    (hleft : t.stopper.left queueNum < s.stopper.left queueNum) :
    t.weight queueNum < s.weight queueNum := by
  have hsum := Finset.sum_le_sum fun i hi => hthreads i (Finset.mem_range.mp hi)
  exact Nat.add_lt_add_of_le_of_lt hsum hleft

/-- Once `StopThread` was called, every step the system makes on its own takes it closer. -/
theorem Inv.weight_lt (h : Inv queueNum s) (hcalled : s.stopper ≠ .idle)
    (hstep : Stepped queueNum s event t) (hown : own s event) :
    t.weight queueNum < s.weight queueNum := by
  cases hstep with
  | push => exact hown.elim
  | call hidle => exact absurd hidle hcalled
  | work i action thread hi hwork =>
      have hlt := (h.threads i).weight_lt hwork hown
      refine Nat.add_lt_add_right (Finset.sum_lt_sum (fun j _ => ?_)
        ⟨i, Finset.mem_range.mpr hi, ?_⟩) _
      · rcases eq_or_ne j i with rfl | hne
        · simpa using hlt.le
        · simp [Function.update_of_ne hne]
      · simpa using hlt
  | locked i hi hlt =>
      refine weight_lt_of_stop (fun j _ => ?_) ?_
      · simp [hi, Stopper.pending]
      · simp only [hi, Stopper.left]
        omega
  | lockedAll i hi hle =>
      refine weight_lt_of_stop (fun j _ => ?_) ?_
      · simp [hi, Stopper.pending]
      · simp only [hi, Stopper.left]
        omega
  | set i hi =>
      refine weight_lt_of_stop (fun j _ => ?_) ?_
      · simp [hi, Stopper.pending]
      · simp [hi, Stopper.left]
  | notified i hi hlt =>
      refine weight_lt_of_stop (fun j _ => ?_) ?_
      · rcases eq_or_ne j i with rfl | hne
        · simpa [hi, Stopper.pending] using notify_weight_le
        · simp only [hi, Stopper.pending, Function.update_of_ne hne]
          split_ifs <;> omega
      · simp only [hi, Stopper.left]
        omega
  | notifiedAll i hi hle =>
      refine weight_lt_of_stop (fun j hj => ?_) ?_
      · simp only [hi, Stopper.pending]
        omega
      · simp only [hi, Stopper.left]
        omega
  | joined i hi hlt =>
      refine weight_lt_of_stop (fun j _ => ?_) ?_
      · simp [hi, Stopper.pending]
      · simp only [hi, Stopper.left]
        omega
  | joinedAll i hi hle =>
      refine weight_lt_of_stop (fun j _ => ?_) ?_
      · simp [hi, Stopper.pending]
      · simp [hi, Stopper.left]

/-! ## Somebody can always make a step -/

/-- A worker with the lock can go on. -/
theorem Thread.Inv.live_of_ownsLock (h : thread.Inv) (howns : thread.ownsLock = true)
    (finish : Bool) : ∃ action, action ≠ .wake ∧ (thread.work finish action).isSome := by
  cases hpoint : thread.point with
  | unlocked => simp [Thread.ownsLock, hpoint] at howns
  | finished => simp [Thread.ownsLock, hpoint] at howns
  | locked => exact ⟨.test, by simp, by simp [Thread.work, hpoint]⟩
  | passed =>
      have hlock : thread.lane.worker.phase = .ready ∨
          (thread.lane.worker.phase = .draining ∧ thread.lane.worker.dealQueue.isEmpty) :=
        h.hand (by simp [hpoint])
      refine ⟨.act, by simp, ?_⟩
      simp only [Thread.work, if_pos hpoint, Lane.work, if_pos hlock, Option.isSome_map]
      split_ifs <;> rfl

/-- A worker that is awake and in its loop can go on. -/
theorem Thread.Inv.live (h : thread.Inv) (hawake : thread.Awake)
    (hpoint : thread.point ≠ .finished) (finish : Bool) :
    ∃ action, (action = .wake → thread.lane.worker.phase = .waiting true) ∧
      (thread.work finish action).isSome := by
  by_cases howns : thread.ownsLock = true
  · obtain ⟨action, hne, hwork⟩ := h.live_of_ownsLock howns finish
    exact ⟨action, fun heq => absurd heq hne, hwork⟩
  have hunlocked : thread.point = .unlocked := by
    cases hcase : thread.point <;> simp_all [Thread.ownsLock]
  cases hphase : thread.lane.worker.phase with
  | ready => exact ⟨.lock, by simp, by simp [Thread.work, hunlocked, Thread.atLock, hphase]⟩
  | draining =>
      cases hdeal : thread.lane.worker.dealQueue with
      | nil =>
          exact ⟨.lock, by simp, by simp [Thread.work, hunlocked, Thread.atLock, hphase, hdeal]⟩
      | cons op rest =>
          exact ⟨.take, by simp, by simp [Thread.work, hunlocked, Lane.work, hphase, hdeal]⟩
  | waiting notified =>
      cases notified with
      | false => exact absurd hphase hawake.waiting
      | true =>
          exact ⟨.wake, fun _ => rfl, by simp [Thread.work, hunlocked, Lane.work, hphase]⟩

/-- A worker that can go on can go on in the system. -/
theorem step_work {i : Nat} (hi : i < queueNum)
    (hwork : ((s.threads i).work (s.finishThread i) action).isSome) :
    (step queueNum s (.work i action)).isSome := by
  obtain ⟨thread, hthread⟩ := Option.isSome_iff_exists.mp hwork
  simp [step, hi, hthread]

/-- The system acts on its own and no notification is missed. -/
def smooth (queueNum : Nat) (s : State) (event : Event) : Prop :=
  own s event ∧ missed queueNum s event = false

/-- While `StopThread` runs and every notified worker is awake, somebody can make a step: at a
notification that would be missed it is the worker. -/
theorem Inv.live (h : Inv queueNum s) (hnotified : Notified queueNum s)
    (hcalled : s.stopper ≠ .idle) (hreturned : s.stopper ≠ .returned) :
    ∃ event, smooth queueNum s event ∧ (StopThread.step queueNum s event).isSome := by
  have hholder {i : Nat} (hi : i < queueNum) (howns : (s.threads i).ownsLock = true) :
      ∃ event, smooth queueNum s event ∧ (StopThread.step queueNum s event).isSome := by
    obtain ⟨action, hne, hwork⟩ := (h.threads i).live_of_ownsLock howns (s.finishThread i)
    exact ⟨.work i action, ⟨fun heq => absurd heq hne, rfl⟩, step_work hi hwork⟩
  cases hstopper : s.stopper with
  | idle => exact absurd hstopper hcalled
  | returned => exact absurd hstopper hreturned
  | locking i =>
      have hsmooth : smooth queueNum s .stop := ⟨trivial, by simp [missed, hstopper]⟩
      by_cases hi : i < queueNum
      · by_cases howns : (s.threads i).ownsLock = true
        · exact hholder hi howns
        · exact ⟨.stop, hsmooth, by simp [StopThread.step, stopThread, hstopper, hi, howns]⟩
      · exact ⟨.stop, hsmooth, by simp [StopThread.step, stopThread, hstopper, hi]⟩
  | setting i =>
      exact ⟨.stop, ⟨trivial, by simp [missed, hstopper]⟩,
        by simp [StopThread.step, stopThread, hstopper]⟩
  | notifying i =>
      by_cases hi : i < queueNum
      · by_cases howns : (s.threads i).ownsLock = true
        · exact hholder hi howns
        · have hpoint : (s.threads i).point ≠ .passed := by
            intro hpassed
            simp [Thread.ownsLock, hpassed] at howns
          exact ⟨.stop, ⟨trivial, by simp [missed, hstopper, hpoint]⟩,
            by simp [StopThread.step, stopThread, hstopper, hi]⟩
      · exact ⟨.stop, ⟨trivial, by simp [missed, hstopper, hi]⟩,
          by simp [StopThread.step, stopThread, hstopper, hi]⟩
  | joining i =>
      have hsmooth : smooth queueNum s .stop := ⟨trivial, by simp [missed, hstopper]⟩
      by_cases hi : i < queueNum
      · by_cases hfinished : (s.threads i).point = .finished
        · exact ⟨.stop, hsmooth, by simp [StopThread.step, stopThread, hstopper, hi, hfinished]⟩
        · have hawake := hnotified i hi (by rw [hstopper]; trivial)
          obtain ⟨action, hwake, hwork⟩ := (h.threads i).live hawake hfinished (s.finishThread i)
          exact ⟨.work i action, ⟨hwake, rfl⟩, step_work hi hwork⟩
      · exact ⟨.stop, hsmooth, by simp [StopThread.step, stopThread, hstopper, hi]⟩

/-! ## When `StopThread` returns -/

/-- `StopThread` has returned. -/
def Returned (s : State) : Prop := s.stopper = .returned

/-- A worker was notified before its wait, and will wait or waits for another notification. -/
def Stuck (queueNum i : Nat) (s : State) : Prop :=
  i < queueNum ∧ s.stopper.notified i ∧ ¬s.stopper.joined i ∧
    (((s.threads i).point = .passed ∧ (s.threads i).lane.queue.reqQueue = []) ∨
      ((s.threads i).point = .unlocked ∧
        (s.threads i).lane.worker.phase = .waiting false))

/-- A run that missed nobody is in order, and every notified worker is awake. -/
theorem inv_of_reach
    (h : Reach (step queueNum) (fun s event => missed queueNum s event = false) init s) :
    Inv queueNum s ∧ Notified queueNum s := by
  refine Reach.invariant (fun s => Inv queueNum s ∧ Notified queueNum s)
    ⟨inv_init, fun _ _ h => h.elim⟩ ?_ h
  intro s event t hs hmissed hstep
  have hstepped := stepped_of_step hstep
  exact ⟨hs.1.step hstepped, hs.2.step hs.1 hstepped hmissed⟩

/-- `StopThread` once called stays called. -/
theorem called_stays (h : Stepped queueNum s event t) (hcalled : s.stopper ≠ .idle) :
    t.stopper ≠ .idle := by
  cases h with
  | push | work => exact hcalled
  | call | locked | lockedAll | set | notified | notifiedAll | joined | joinedAll => simp

/-- A worker once notified stays notified. -/
theorem notified_stays {i : Nat} (h : Stepped queueNum s event t)
    (hnotified : s.stopper.notified i) : t.stopper.notified i := by
  cases h with
  | push | work => exact hnotified
  | call hj | locked j hj | lockedAll j hj | set j hj =>
      rw [hj] at hnotified
      exact hnotified.elim
  | notified j hj =>
      rw [hj] at hnotified
      exact Nat.lt_succ_of_lt hnotified
  | notifiedAll | joined | joinedAll => trivial

/-- Only a worker that has left its loop is joined. -/
theorem not_joined_stays {i : Nat} (h : Stepped queueNum s event t) (hi : i < queueNum)
    (hjoined : ¬s.stopper.joined i) (hfinished : (s.threads i).point ≠ .finished) :
    ¬t.stopper.joined i := by
  intro hafter
  cases h with
  | push | work => exact hjoined hafter
  | call | locked | lockedAll | set | notified => exact hafter
  | notifiedAll => exact Nat.not_lt_zero i hafter
  | joined j hj _ hpoint =>
      rw [hj] at hjoined
      obtain rfl : i = j := by
        have h1 : i < j + 1 := hafter
        have h2 : ¬i < j := hjoined
        omega
      exact hfinished hpoint
  | joinedAll j hj hle =>
      rw [hj] at hjoined
      exact hjoined (Nat.lt_of_lt_of_le hi hle)

/-- On its own the system leaves a stuck worker stuck. -/
theorem Stuck.step {i : Nat} (h : Stuck queueNum i s) (hstep : Stepped queueNum s event t)
    (hown : own s event) : Stuck queueNum i t := by
  obtain ⟨hi, hnotified, hjoined, hwhere⟩ := h
  have hpoint : (s.threads i).point ≠ .finished := by
    rcases hwhere with ⟨hpassed, -⟩ | ⟨hunlocked, -⟩
    · simp [hpassed]
    · simp [hunlocked]
  refine ⟨hi, notified_stays hstep hnotified, not_joined_stays hstep hi hjoined hpoint, ?_⟩
  have hchange := hstep.changes i
  generalize t.threads i = after at hchange ⊢
  cases hchange with
  | same => exact hwhere
  | push entry hevent =>
      subst hevent
      exact hown.elim
  | notify hevent hstopper =>
      rw [hstopper] at hnotified
      exact absurd hnotified (Nat.lt_irrefl i)
  | work action thread hevent hlt hwork =>
      subst hevent
      rcases hwhere with ⟨hpassed, hqueue⟩ | ⟨hunlocked, hphase⟩
      · cases moves_of_work hwork with
        | sleep => exact .inr ⟨rfl, rfl⟩
        | swap _ _ hne => exact absurd hqueue hne
        | lock hp | test hp | take _ hp | wake _ hp => simp [hpassed] at hp
      · cases moves_of_work hwork with
        | lock _ hlock => simp [Thread.atLock, hphase] at hlock
        | take _ _ hdraining => simp [hphase] at hdraining
        | wake =>
            have hwoken := hown rfl
            simp [hphase] at hwoken
        | test hp | sleep hp | swap hp => simp [hunlocked] at hp

/-- A missed notification leaves its worker stuck. -/
theorem stuck_of_missed (hmissed : missed queueNum s event = true)
    (hstep : Stepped queueNum s event t) : ∃ i, Stuck queueNum i t := by
  cases hstep with
  | notified i hstopper hi =>
      simp only [missed, hstopper, hi, decide_true, Bool.true_and, Bool.and_eq_true,
        decide_eq_true_eq, List.isEmpty_iff] at hmissed
      refine ⟨i, hi, Nat.lt_succ_self i, id, .inl ?_⟩
      simpa [Thread.notify] using hmissed
  | notifiedAll i hstopper hle => simp [missed, hstopper, Nat.not_lt.mpr hle] at hmissed
  | push | work | call => simp [missed] at hmissed
  | locked _ hs | lockedAll _ hs | set _ hs | joined _ hs | joinedAll _ hs =>
      simp [missed, hs] at hmissed

/-- While nobody is missed, every step is kept in order and takes the system closer. -/
theorem leads_of_inv (hinv : Inv queueNum s) (hnotified : Notified queueNum s)
    (hcalled : s.stopper ≠ .idle) : Leads (step queueNum) (smooth queueNum) Returned s := by
  refine Leads.of_measure
    (fun s => Inv queueNum s ∧ Notified queueNum s ∧ s.stopper ≠ .idle)
    (State.weight queueNum) ?_ ?_ ⟨hinv, hnotified, hcalled⟩
  · intro s event t hs hsmooth hstep
    have hstepped := stepped_of_step hstep
    exact ⟨⟨hs.1.step hstepped, hs.2.1.step hs.1 hstepped hsmooth.2,
      called_stays hstepped hs.2.2⟩, hs.1.weight_lt hs.2.2 hstepped hsmooth.1⟩
  · intro s hs hgoal
    obtain ⟨event, hsmooth, hsome⟩ := hs.1.live hs.2.1 hs.2.2 hgoal
    obtain ⟨t, ht⟩ := Option.isSome_iff_exists.mp hsome
    exact ⟨event, t, hsmooth, ht⟩

/-- If the handling of every op returns, so does `StopThread`, whatever the schedule and whatever is
queued, unless a notification is missed. Take a run up to a step of the stop that missed nobody
before. If the step misses nobody either, every schedule from there on that misses nobody comes to
the return; if it misses a worker, the return is out of reach until a producer or a spurious
wake-up interferes. -/
theorem stop_thread_returns_unless_missed
    (h : Reach (step queueNum) (fun s event => missed queueNum s event = false) init s)
    (hcalled : s.stopper ≠ .idle) (hstep : step queueNum s event = some t) :
    (missed queueNum s event = false → Leads (step queueNum) (smooth queueNum) Returned t) ∧
    (missed queueNum s event = true → ∀ u, Reach (step queueNum) own t u → ¬Returned u) := by
  obtain ⟨hinv, hnotified⟩ := inv_of_reach h
  have hstepped := stepped_of_step hstep
  constructor
  · intro hmissed
    exact leads_of_inv (hinv.step hstepped) (hnotified.step hinv hstepped hmissed)
      (called_stays hstepped hcalled)
  · intro hmissed u hu hreturned
    obtain ⟨i, hstuck⟩ := stuck_of_missed hmissed hstepped
    have hstuck' : Stuck queueNum i u := by
      refine Reach.invariant (Stuck queueNum i) hstuck ?_ hu
      intro v e w hv hown hw
      exact hv.step (stepped_of_step hw) hown
    exact hstuck'.2.2.1 (by rw [hreturned]; trivial)

/-- One queue, whose worker tests its flag between the lock and the flag of `StopThread`. -/
def lateFlag : List Event :=
  [.call, .stop, .work 0 .lock, .work 0 .test, .stop, .stop]

/-- The state before the only notification, with the worker between its test and its wait. -/
def beforeMiss : State :=
  (run (step 1) (fun s event => missed 1 s event = false) init lateFlag).getD init

/-- The state after that notification. -/
def afterMiss : State := (step 1 beforeMiss .stop).getD beforeMiss

/-- The missed notification after `lateFlag` keeps `StopThread` from returning. -/
theorem stop_thread_hangs_lateFlag :
    missed 1 beforeMiss .stop = true ∧
      ∀ u, Reach (step 1) own afterMiss u → ¬Returned u :=
  ⟨rfl, (stop_thread_returns_unless_missed (Reach.of_run lateFlag rfl) (by decide)
    (rfl : step 1 beforeMiss .stop = some afterMiss)).2 rfl⟩

/-! ## After the return -/

/-- A worker has left its loop, holds no op, and has taken exactly the given ops. -/
structure AtRest (ops : List Taken) (thread : Thread) : Prop where
  finished : thread.point = .finished
  dealQueue : thread.lane.worker.dealQueue = []
  taken : thread.lane.taken = ops
  rest : thread.lane.pushed.map Entry.op = ops.map Taken.op ++ thread.lane.queue.reqQueue

/-- A worker in order that has left its loop is at rest. -/
theorem Thread.Inv.atRest (h : thread.Inv) (hfinished : thread.point = .finished) :
    AtRest thread.lane.taken thread := by
  have hdeal := h.dealQueue_nil (h.hand (by simp [hfinished]))
  refine ⟨hfinished, hdeal, rfl, ?_⟩
  obtain ⟨done, batch, queued, hpushed, htaken, hbatch, hqueued⟩ := h.lane.split
  rw [hbatch.ops, List.map_eq_nil_iff] at hdeal
  subst hdeal
  simp [hpushed, htaken, hqueued.ops, Entry.taken]

/-- Every run is in order. -/
theorem inv_of_anyReach (h : Reach (step queueNum) anyEvent init s) : Inv queueNum s :=
  Reach.invariant (Inv queueNum) inv_init
    (fun _ _ _ hs _ hstep => hs.step (stepped_of_step hstep)) h

/-- No step makes a worker that has left its loop take another op. -/
theorem taken_stays {i : Nat} (h : Stepped queueNum s event t)
    (hfinished : (s.threads i).point = .finished) :
    (t.threads i).lane.taken = (s.threads i).lane.taken := by
  have hchange := h.changes i
  generalize t.threads i = after at hchange ⊢
  cases hchange with
  | same | push | notify => rfl
  | work action thread hevent hi hwork => cases moves_of_work hwork <;> simp_all

/-- When `StopThread` has returned no worker touches a queue any more, so that the module may be
deleted: in every later state each worker has left its loop with an empty batch, has taken the ops
it had taken at the return, and what else was pushed sits in its queue for good. -/
theorem workers_at_rest_after_return (h : Reach (step queueNum) anyEvent init s)
    (hreturned : Returned s) (hlater : Reach (step queueNum) anyEvent s t) {i : Nat}
    (hi : i < queueNum) : AtRest (s.threads i).lane.taken (t.threads i) := by
  have hfinished : (s.threads i).point = .finished :=
    (inv_of_anyReach h).joins i hi (by rw [hreturned]; trivial)
  obtain ⟨hfinished', htaken⟩ : (t.threads i).point = .finished ∧
      (t.threads i).lane.taken = (s.threads i).lane.taken := by
    refine Reach.invariant (fun t : State => (t.threads i).point = .finished ∧
      (t.threads i).lane.taken = (s.threads i).lane.taken) ⟨hfinished, rfl⟩ ?_ hlater
    intro u event v hu _ hstep
    have hstepped := stepped_of_step hstep
    exact ⟨finished_stays hstepped hu.1, (taken_stays hstepped hu.1).trans hu.2⟩
  have hrest := ((inv_of_anyReach (h.trans hlater)).threads i).atRest hfinished'
  rwa [htaken] at hrest

/-- One queue, stopped while its worker has not looked at the op pushed last. -/
def stopWithOp (entry : Entry) : List Event :=
  [.work 0 .lock, .work 0 .test, .work 0 .act, .call, .stop, .stop, .push 0 entry, .stop, .stop,
    .stop, .work 0 .wake, .work 0 .lock, .work 0 .test, .stop, .stop]

/-- The entry of an op without content. -/
def emptyEntry : Entry := ⟨⟨0, 0, { oid := [] }⟩, 0, 0⟩

/-- The state at the return after `stopWithOp`. -/
def stoppedWithOp : State :=
  (run (step 1) anyEvent init (stopWithOp emptyEntry)).getD init

/-- An op pushed after the flag was set is left in its queue. -/
theorem workers_at_rest_stopWithOp :
    (stoppedWithOp.threads 0).lane.queue.reqQueue = [emptyEntry.op] ∧
      AtRest (stoppedWithOp.threads 0).lane.taken (stoppedWithOp.threads 0) :=
  ⟨rfl, workers_at_rest_after_return
    (Reach.of_run (stopWithOp emptyEntry) rfl : Reach (step 1) anyEvent init stoppedWithOp)
    rfl .start (by decide)⟩

end GlobalCacheAdaptor.ServerAdaptor.StopThread
