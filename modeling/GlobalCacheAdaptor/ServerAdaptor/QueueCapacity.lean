import GlobalCacheAdaptor.ServerAdaptor.OpQueue

/-!
# The capacity of a client op queue

A producer that finds a queue above `queueMaxCapacity` waits once and then pushes without a second
look at the size. `bounded_iff_clean` says that the queues stay within one op of the capacity as
long as every producer that is woken finds room, and not one step longer.
-/

namespace GlobalCacheAdaptor.ServerAdaptor.OpQueue

open Lib

/-- The number of ops in a queue. -/
def State.size (s : State) (q : Nat) : Nat := (s.lanes q).queue.reqQueue.length

/-- Every queue is within one op of the capacity. -/
def Bounded (cfg : Config) (s : State) : Prop := ∀ q, s.size q ≤ cfg.queueMaxCapacity + 1

/-- The queue that a waiting producer waits for is no longer above its capacity. -/
def hasRoom (cfg : Config) (s : State) : Producer → Bool
  | .waiting op _ => s.size (cfg.idx op.msg.oid) ≤ cfg.queueMaxCapacity
  | .idle | .calling _ _ => true

/-- A producer whose `cond.wait` returns finds room. -/
def clean (cfg : Config) (s : State) : Event → Bool
  | .resume producer _ => hasRoom cfg s (s.producers producer)
  | .submit _ _ _ | .enter _ _ | .work _ _ => true

variable {cfg : Config} {s t : State}

/-- A push adds one op to the queue of its object. -/
theorem size_enqueue (producer : Nat) (op : OpRef) (ts period q : Nat) :
    (enqueueClientop cfg s producer op ts period).size q =
      s.size q + if q = cfg.idx op.msg.oid then 1 else 0 := by
  by_cases hq : q = cfg.idx op.msg.oid
  · subst hq
    simp [State.size, enqueueClientop, Lane.push, ClientOpQueue.enQueue]
  · simp [State.size, enqueueClientop, hq]

/-- A push into a queue that is not above its capacity keeps all queues bounded. -/
theorem Bounded.enqueue {op : OpRef} (h : Bounded cfg s)
    (hroom : s.size (cfg.idx op.msg.oid) ≤ cfg.queueMaxCapacity) (producer ts period : Nat) :
    Bounded cfg (enqueueClientop cfg s producer op ts period) := by
  intro q
  rw [size_enqueue]
  split_ifs with hq
  · rw [hq]
    omega
  · exact h q

/-- A worker never makes its queue longer: it swaps in an empty batch. -/
theorem Lane.Inv.work_length {lane lane' : Lane} {action : WorkerStep} (h : lane.Inv)
    (hwork : lane.work action = some lane') :
    lane'.queue.reqQueue.length ≤ lane.queue.reqQueue.length := by
  cases action with
  | acquire =>
      simp only [Lane.work] at hwork
      split_ifs at hwork with hfree hempty
      · cases hwork
        exact le_rfl
      · cases hwork
        have hdeal : lane.worker.dealQueue = [] := by
          rcases hfree with hready | ⟨-, hdeal⟩
          · exact h.idle (by simp [hready])
          · exact List.isEmpty_iff.mp hdeal
        simp [hdeal]
  | take =>
      simp only [Lane.work] at hwork
      split_ifs at hwork
      split at hwork
      · cases hwork
      · cases hwork
        exact le_rfl
  | wake =>
      simp only [Lane.work] at hwork
      split at hwork
      · cases hwork
        exact le_rfl
      · cases hwork
      · cases hwork

/-- A clean step keeps all queues bounded. -/
theorem Bounded.step {event : Event} (h : Bounded cfg s) (hinv : Inv cfg s)
    (hclean : clean cfg s event = true) (hstep : step cfg s event = some t) : Bounded cfg t := by
  cases event with
  | submit producer msg ts =>
      simp only [OpQueue.step] at hstep
      split at hstep
      · cases hstep
        exact h
      · cases hstep
      · cases hstep
  | enter producer period =>
      simp only [OpQueue.step] at hstep
      split at hstep
      · split_ifs at hstep with hfull
        · cases hstep
          exact h
        · cases hstep
          exact h.enqueue (not_lt.mp hfull) producer _ period
      · cases hstep
      · cases hstep
  | resume producer period =>
      simp only [OpQueue.step] at hstep
      split at hstep
      · rename_i op ts hwaiting
        cases hstep
        simp only [clean, hwaiting, hasRoom, decide_eq_true_eq] at hclean
        exact h.enqueue hclean producer ts period
      · cases hstep
      · cases hstep
  | work worker action =>
      simp only [OpQueue.step] at hstep
      split_ifs at hstep
      split at hstep
      · rename_i lane hwork
        cases hstep
        intro q
        by_cases hq : q = worker
        · subst hq
          simp only [State.size, Function.update_self]
          exact ((hinv.lane q).work_length hwork).trans (h q)
        · simp only [State.size, Function.update_of_ne hq]
          exact h q
      · cases hstep

/-- A producer that pushes into a queue above its capacity leaves it out of bounds. -/
theorem not_bounded_of_not_clean {event : Event} (hdirty : ¬clean cfg s event = true)
    (hstep : step cfg s event = some t) : ¬Bounded cfg t := by
  cases event with
  | resume producer period =>
      simp only [OpQueue.step] at hstep
      split at hstep
      · rename_i op ts hwaiting
        cases hstep
        simp only [clean, hwaiting, hasRoom, decide_eq_true_eq, not_le] at hdirty
        intro hbounded
        have hover := hbounded (cfg.idx op.msg.oid)
        rw [size_enqueue, if_pos rfl] at hover
        omega
      · cases hstep
      · cases hstep
  | submit producer msg ts => exact absurd rfl hdirty
  | enter producer period => exact absurd rfl hdirty
  | work worker action => exact absurd rfl hdirty

/-- After any run of clean steps all queues are bounded, and they still are after the next step
exactly when that step is clean too. -/
theorem bounded_iff_clean (h : Reach (step cfg) (fun s event => clean cfg s event = true) init s) :
    Bounded cfg s ∧
      ∀ event t, step cfg s event = some t → (Bounded cfg t ↔ clean cfg s event = true) := by
  have hinv : Inv cfg s ∧ Bounded cfg s := by
    refine h.invariant (fun s => Inv cfg s ∧ Bounded cfg s) ⟨inv_init, fun q => Nat.zero_le _⟩ ?_
    intro s event t hs hclean hstep
    exact ⟨hs.1.step hstep, hs.2.step hs.1 hclean hstep⟩
  refine ⟨hinv.2, fun event t hstep => ⟨fun hbounded => ?_, fun hclean => ?_⟩⟩
  · by_contra hdirty
    exact not_bounded_of_not_clean hdirty hstep hbounded
  · exact hinv.2.step hinv.1 hclean hstep

/-- Four queues of capacity 1, with names hashed by their length. -/
def fourQueues : Config := ⟨4, by decide, 1, List.length⟩

/-- A message on the object "a". -/
def onObjectA : MOSDOp := { oid := ascii "a" }

/-- One producer fills the queue, and three more wait. -/
def fillThenWait : List Event :=
  [.submit 0 onObjectA 10, .enter 0 11, .submit 0 onObjectA 12, .enter 0 13,
    .submit 1 onObjectA 14, .enter 1 15, .submit 2 onObjectA 16, .enter 2 17,
    .submit 3 onObjectA 18, .enter 3 19]

/-- The worker takes the batch, and two of the producers it wakes find room. -/
theorem bounded_two_woken :
    ∃ s, Reach (step fourQueues) (fun s event => clean fourQueues s event = true) init s ∧
      s.size 1 = 2 ∧ Bounded fourQueues s := by
  have h : Reach (step fourQueues) (fun s event => clean fourQueues s event = true) init _ :=
    Reach.of_run (fillThenWait ++ [.work 1 .acquire, .resume 1 20, .resume 2 21]) rfl
  exact ⟨_, h, rfl, (bounded_iff_clean h).1⟩

/-- The third producer finds the queue full again and pushes all the same. -/
theorem not_bounded_three_woken :
    ∃ s, Reach (step fourQueues) anyEvent init s ∧ s.size 1 = 3 ∧ ¬Bounded fourQueues s := by
  have h : Reach (step fourQueues) anyEvent init _ :=
    Reach.of_run
      (fillThenWait ++ [.work 1 .acquire, .resume 1 20, .resume 2 21, .resume 3 22]) rfl
  refine ⟨_, h, rfl, fun hbounded => ?_⟩
  exact absurd (hbounded 1) (by decide)

end GlobalCacheAdaptor.ServerAdaptor.OpQueue
