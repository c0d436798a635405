import Mathlib.Data.List.InsertIdx
import GlobalCacheAdaptor.ClientAdaptor.Placement

/-!
# Wake-ups of parked ops

An op whose partition is not OK is parked, and the notification that the partition is OK again
makes `retry_op_submit` look for it. The wake-up is lost if the op is parked after the
notification was processed: `_op_submit` reads the status and parks the op in two steps, and an
error reply parks an op without reading the status. `Parked` is the invariant that every parked op
of an OK partition has a wake-up ahead of it, and `no_lost_wakeup` the runs that keep it.
-/

namespace GlobalCacheAdaptor.ClientAdaptor

open Lib

variable {cfg : Config} {s t : State} {event : Event} {p : Pt}

/-! ## Parked ops and their wake-ups -/

/-- The partitions that the hung ops wait for, in their order. -/
def State.hungPts (cfg : Config) (s : State) : List Pt := s.hangon.map fun o => cfg.pt (s.ops o)

/-- The partitions that the ops of the retry queues wait for. -/
def State.waitingPts (cfg : Config) (s : State) : List Pt :=
  s.waiting.entries.flatMap fun e => e.2.map fun o => ⟨cfg.clusterId (s.ops o).pool, e.1⟩

/-- The caller is `retry_op_submit` for the partition. -/
def Frame.retries (p : Pt) : Frame → Bool
  | .retryErrors pts | .retryHangon pts => p ∈ pts
  | .opSubmit | .handleOsdOpReply | .msHandleReset | .nodeviewChange => false

/-- The caller is `retry_op_submit` for the partition, before its second section. -/
def Frame.wakesHung (p : Pt) : Frame → Bool
  | .retryErrors pts => p ∈ pts
  | .opSubmit | .handleOsdOpReply | .msHandleReset | .nodeviewChange | .retryHangon _ => false

/-- The task is `retry_op_submit` for the partition. -/
def Task.retries (p : Pt) : Task → Bool
  | .retryStart pts | .hangonLock pts | .hangonScan pts _ _ => p ∈ pts
  | .submitting frame _ _ _ => frame.retries p
  | .replyPark _ _ | .done => false

/-- The task is `retry_op_submit` for the partition, before its first section. -/
def Task.wakesWaiting (p : Pt) : Task → Bool
  | .retryStart pts => p ∈ pts
  | .submitting _ _ _ _ | .replyPark _ _ | .hangonLock _ | .hangonScan _ _ _ | .done => false

/-- The task is `retry_op_submit` for the partition, before its second section or in it and not
yet past position `k` of the hung ops. -/
def Task.wakesHung (p : Pt) (k : Nat) : Task → Bool
  | .retryStart pts | .hangonLock pts => p ∈ pts
  | .hangonScan pts iter _ => p ∈ pts && iter ≤ k
  | .submitting frame _ _ _ => frame.wakesHung p
  | .replyPark _ _ | .done => false

/-- A notification for the partition is undelivered, or it is being processed by a task that
passes the test. -/
def State.covered (s : State) (p : Pt) (wake : Task → Bool) : Bool :=
  s.notices.any (fun entries => p ∈ ccmPtChangeNotify entries) || s.tasks.any wake

/-- No op is parked for an OK partition without a notification for it that is undelivered or being
processed. -/
def State.NoneStuck (cfg : Config) (s : State) : Prop :=
  ∀ p, p ∈ s.hungPts cfg ∨ p ∈ s.waitingPts cfg → s.ptOk p = true →
    s.covered p (Task.retries p) = true

/-- At the moment an op is parked its partition is not OK, or a notification for the partition is
undelivered or has not reached the section of `retry_op_submit` that looks for the op. -/
def parksInTime (cfg : Config) (s : State) : Event → Bool
  | .run i _ _ =>
      match s.tasks[i]? with
      | some (.submitting _ o .park _) =>
          !s.ptOk (cfg.pt (s.ops o)) ||
            s.covered (cfg.pt (s.ops o)) (Task.wakesHung (cfg.pt (s.ops o)) s.hangon.length)
      | some (.replyPark o ptId) =>
          !s.ptOk ⟨cfg.clusterId (s.ops o).pool, ptId⟩ ||
            s.covered ⟨cfg.clusterId (s.ops o).pool, ptId⟩
              (Task.wakesWaiting ⟨cfg.clusterId (s.ops o).pool, ptId⟩)
      | _ => true
  | .submit _ _ _ | .reply _ _ _ | .ptChange _ _ | .notify _ | .deliver _ | .nodeView _
  | .reset _ => true

/-- What it means to be covered. -/
theorem covered_iff {wake : Task → Bool} :
    s.covered p wake = true ↔
      (∃ entries ∈ s.notices, p ∈ ccmPtChangeNotify entries) ∨
        ∃ task ∈ s.tasks, wake task = true := by
  simp [State.covered]

/-- A task that wakes an op is processing the notification. -/
theorem retries_of_wakesWaiting {task : Task} (h : task.wakesWaiting p = true) :
    task.retries p = true := by
  cases task with
  | retryStart pts => exact h
  | submitting | replyPark | hangonLock | hangonScan | done => cases h

/-- A task that wakes a hung op is processing the notification. -/
theorem retries_of_wakesHung {k : Nat} {task : Task} (h : task.wakesHung p k = true) :
    task.retries p = true := by
  cases task with
  | retryStart pts => exact h
  | hangonLock pts => exact h
  | hangonScan pts iter queue => exact (Bool.and_eq_true _ _ ▸ h).1
  | submitting frame op pc rest =>
      cases frame with
      | retryErrors pts => exact h
      | opSubmit | handleOsdOpReply | msHandleReset | nodeviewChange | retryHangon => cases h
  | replyPark | done => cases h

/-- Without `retrylock` it does not matter where an op hangs. -/
theorem wakesHung_of_unlocked {task : Task} (h : task.locks = false) (k k' : Nat) :
    task.wakesHung p k = task.wakesHung p k' := by
  cases task with
  | hangonScan => cases h
  | submitting | replyPark | retryStart | hangonLock | done => rfl

/-! ## How covers are kept -/

/-- A cover is kept while no notification is delivered and every task that wakes is followed by
one. -/
theorem covered_of_tasks {wake wake' : Task → Bool} (h : s.covered p wake = true)
    (hnotices : ∀ entries ∈ s.notices, entries ∈ t.notices)
    (htasks : (∃ task ∈ s.tasks, wake task = true) → ∃ task ∈ t.tasks, wake' task = true) :
    t.covered p wake' = true := by
  rw [covered_iff] at h ⊢
  rcases h with ⟨entries, hmem, hp⟩ | htask
  · exact .inl ⟨entries, hnotices entries hmem, hp⟩
  · exact .inr (htasks htask)

/-- A step of task `i` keeps a waking task if the task itself goes on to wake. -/
theorem exists_mem_set {α : Type*} {xs : List α} {i : Nat} {x y : α} {P Q : α → Prop}
    (hx : xs[i]? = some x) (hself : P x → Q y)
    (hrest : ∀ j z, j ≠ i → xs[j]? = some z → P z → Q z) (h : ∃ z ∈ xs, P z) :
    ∃ z ∈ xs.set i y, Q z := by
  obtain ⟨z, hz, hP⟩ := h
  obtain ⟨j, hj⟩ := List.mem_iff_getElem?.mp hz
  by_cases hij : j = i
  · subst hij
    obtain rfl : x = z := Option.some.inj (hx.symm.trans hj)
    obtain ⟨hlt, -⟩ := List.getElem?_eq_some_iff.mp hx
    exact ⟨y, List.mem_iff_getElem?.mpr ⟨j, List.getElem?_set_self hlt⟩, hself hP⟩
  · refine ⟨z, List.mem_iff_getElem?.mpr ⟨j, ?_⟩, hrest j z hij hj hP⟩
    rw [List.getElem?_set_ne (Ne.symm hij)]
    exact hj

/-- A cover by the tasks is kept by a step of one of them that keeps its own part. -/
theorem covered_of_set {wake : Task → Bool} {i : Nat} {task task' : Task}
    (htask : s.tasks[i]? = some task) (hnotices : t.notices = s.notices)
    (htasks : t.tasks = s.tasks.set i task') (hself : wake task = true → wake task' = true)
    (h : s.covered p wake = true) : t.covered p wake = true := by
  refine covered_of_tasks h (fun entries hmem => hnotices ▸ hmem) fun hwake => ?_
  rw [htasks]
  exact exists_mem_set htask hself (fun _ _ _ _ hz => hz) hwake

/-- A new thread leaves the covers alone. -/
theorem covered_of_append {wake : Task → Bool} {task : Task} (hnotices : t.notices = s.notices)
    (htasks : t.tasks = s.tasks ++ [task]) (h : s.covered p wake = true) :
    t.covered p wake = true := by
  refine covered_of_tasks h (fun entries hmem => hnotices ▸ hmem) ?_
  intro h
  obtain ⟨x, hx, hwake⟩ := h
  exact ⟨x, by rw [htasks]; exact List.mem_append_left _ hx, hwake⟩

/-- `retry_op_submit` wakes the hung ops after its first batch. -/
theorem wakesHung_nextTask {k : Nat} (frame : Frame) (rest : List OpId)
    (h : frame.wakesHung p = true) : (nextTask frame rest).wakesHung p k = true := by
  cases rest with
  | cons op rest => exact h
  | nil =>
      cases frame with
      | retryErrors pts => exact h
      | opSubmit | handleOsdOpReply | msHandleReset | nodeviewChange | retryHangon => cases h

/-! ## Mutual exclusion -/

/-- How many tasks hold `retrylock`. -/
def lockers (tasks : List Task) : Nat := total (fun task => if task.locks then 1 else 0) tasks

/-- A task that submits a batch does not hold `retrylock`. -/
@[simp] theorem nextTask_locks (frame : Frame) (rest : List OpId) :
    (nextTask frame rest).locks = false := by
  cases rest with
  | nil => cases frame <;> rfl
  | cons op rest => rfl

/-- A step to a point without `retrylock`, or from one with it, adds no holder. -/
theorem lockers_set_le {tasks : List Task} {i : Nat} {task task' : Task}
    (htask : tasks[i]? = some task) (h : task'.locks = true → task.locks = true) :
    lockers (tasks.set i task') ≤ lockers tasks := by
  have hset := total_set (fun task : Task => if task.locks then 1 else 0) htask task'
  unfold lockers
  cases hlocks : task'.locks with
  | false =>
      simp only [hlocks, Bool.false_eq_true, if_false] at hset
      omega
  | true =>
      simp only [hlocks, h hlocks, if_true] at hset
      omega

/-- A thread enters the Objecter without `retrylock`. -/
theorem lockers_append {tasks : List Task} {task : Task} (h : task.locks = false) :
    lockers (tasks ++ [task]) = lockers tasks := by
  simp [lockers, h]

/-- While the lock is free no task holds it. -/
theorem lockers_eq_zero (h : s.lockFree = true) : lockers s.tasks = 0 := by
  rw [lockers, total_eq_zero_iff]
  intro task htask
  have hfree := List.all_eq_true.mp h task htask
  simpa using hfree

/-- While one task holds the lock no other one does. -/
theorem unlocked_of_ne {tasks : List Task} (h : lockers tasks ≤ 1) {i j : Nat} {x z : Task}
    (hx : tasks[i]? = some x) (hlocks : x.locks = true) (hij : j ≠ i) (hz : tasks[j]? = some z) :
    z.locks = false := by
  have hset := total_set (fun task : Task => if task.locks then 1 else 0) hx .done
  have hmem : z ∈ tasks.set i .done := by
    refine List.mem_iff_getElem?.mpr ⟨j, ?_⟩
    rw [List.getElem?_set_ne (Ne.symm hij)]
    exact hz
  have hle := le_total (fun task : Task => if task.locks then 1 else 0) hmem
  unfold lockers at h
  cases hzl : z.locks with
  | false => rfl
  | true =>
      have hdone : Task.done.locks = false := rfl
      simp only [hlocks, hdone, if_true, Bool.false_eq_true, if_false] at hset
      simp only [hzl, if_true] at hle
      omega

/-! ## The invariant -/

/-- At most one task holds `retrylock`, and every op parked for an OK partition has a wake-up
ahead of it. -/
structure Parked (cfg : Config) (s : State) : Prop where
  lock : lockers s.tasks ≤ 1
  hung : ∀ k p, (s.hungPts cfg)[k]? = some p → s.ptOk p = true →
    s.covered p (Task.wakesHung p k) = true
  waiting : ∀ p ∈ s.waitingPts cfg, s.ptOk p = true → s.covered p (Task.wakesWaiting p) = true

/-- Nothing is parked in the beginning. -/
theorem parked_init (cfg : Config) (ptOk : Pt → Bool) : Parked cfg (init ptOk) := by
  refine ⟨by simp [lockers, init], ?_, ?_⟩
  · intro k p hp
    simp [State.hungPts, init] at hp
  · intro p hp
    simp [State.waitingPts, init, OrdMap.empty] at hp

/-- Where every parked op has a wake-up ahead of it, none is stuck. -/
theorem Parked.noneStuck (h : Parked cfg s) : s.NoneStuck cfg := by
  rintro p (hung | hwaiting) hok
  · obtain ⟨k, hk⟩ := List.mem_iff_getElem?.mp hung
    refine covered_of_tasks (h.hung k p hk hok) (fun _ => id) ?_
    intro h
    obtain ⟨task, hmem, hwake⟩ := h
    exact ⟨task, hmem, retries_of_wakesHung hwake⟩
  · refine covered_of_tasks (h.waiting p hwaiting hok) (fun _ => id) ?_
    intro h
    obtain ⟨task, hmem, hwake⟩ := h
    exact ⟨task, hmem, retries_of_wakesWaiting hwake⟩

/-- A step that parks no op keeps the invariant if it keeps the covers. -/
theorem Parked.frame (h : Parked cfg s) (hlock : lockers t.tasks ≤ 1)
    (hhung : t.hungPts cfg = s.hungPts cfg) (hwaiting : t.waitingPts cfg = s.waitingPts cfg)
    (hptOk : t.ptOk = s.ptOk)
    (hcover : ∀ k p, s.covered p (Task.wakesHung p k) = true →
      t.covered p (Task.wakesHung p k) = true)
    (hcover' : ∀ p, s.covered p (Task.wakesWaiting p) = true →
      t.covered p (Task.wakesWaiting p) = true) : Parked cfg t where
  lock := hlock
  hung k p hp hok := by
    rw [hhung] at hp
    rw [hptOk] at hok
    exact hcover k p (h.hung k p hp hok)
  waiting p hp hok := by
    rw [hwaiting] at hp
    rw [hptOk] at hok
    exact hcover' p (h.waiting p hp hok)

/-- A new thread keeps the invariant. -/
theorem Parked.append (h : Parked cfg s) {task : Task} (htasks : t.tasks = s.tasks ++ [task])
    (hlocks : task.locks = false) (hnotices : t.notices = s.notices)
    (hhung : t.hungPts cfg = s.hungPts cfg) (hwaiting : t.waitingPts cfg = s.waitingPts cfg)
    (hptOk : t.ptOk = s.ptOk) : Parked cfg t := by
  refine h.frame ?_ hhung hwaiting hptOk (fun k p => covered_of_append hnotices htasks)
    fun p => covered_of_append hnotices htasks
  rw [htasks, lockers_append hlocks]
  exact h.lock

/-! ## Where ops wait -/

/-- Replacing an op that is not parked changes no partition that is waited for. -/
theorem hungPts_update {o : OpId} {op : Op} (ho : o ∉ s.hangon) :
    (s.hangon.map fun x => cfg.pt (Function.update s.ops o op x)) = s.hungPts cfg := by
  refine List.map_congr_left fun x hx => ?_
  have hne : x ≠ o := fun heq => ho (heq ▸ hx)
  rw [Function.update_of_ne hne]

/-- An op that starts over waits for the same partition. -/
theorem hungPts_clearTid (o : OpId) : (s.clearTid o).hungPts cfg = s.hungPts cfg := by
  refine List.map_congr_left fun x _ => ?_
  by_cases hx : x = o
  · subst hx
    simp only [State.clearTid, Function.update_self, Config.pt]
  · simp only [State.clearTid, Function.update_of_ne hx]

/-- Replacing an op by one of the same pool changes no partition that queued ops wait for. -/
theorem waitingPts_update {o : OpId} {op : Op} (hpool : op.pool = (s.ops o).pool) :
    { s with ops := Function.update s.ops o op }.waitingPts cfg = s.waitingPts cfg := by
  have hall : ∀ x, (Function.update s.ops o op x).pool = (s.ops x).pool := by
    intro x
    by_cases hx : x = o
    · subst hx
      rw [Function.update_self, hpool]
    · rw [Function.update_of_ne hx]
  simp only [State.waitingPts, hall]

/-- An op waits in the queue of its partition. -/
theorem mem_waitingPts :
    p ∈ s.waitingPts cfg ↔ ∃ queue, s.waiting.find? p.ptId = some queue ∧
      ∃ o ∈ queue, cfg.clusterId (s.ops o).pool = p.cluster := by
  obtain ⟨cluster, ptId⟩ := p
  simp only [State.waitingPts, List.mem_flatMap, List.mem_map, Pt.mk.injEq, Prod.exists]
  constructor
  · intro h
    obtain ⟨ptId', queue, hentry, o, ho, hcluster, rfl⟩ := h
    exact ⟨queue, s.waiting.mem_entries_iff.mp hentry, o, ho, hcluster⟩
  · intro h
    obtain ⟨queue, hfind, o, ho, hcluster⟩ := h
    exact ⟨ptId, queue, s.waiting.mem_entries_iff.mpr hfind, o, ho, hcluster, rfl⟩

/-- The first section takes the queues of the listed partitions. -/
theorem find?_takeReady {pts : List Nat} {waiting left : OrdMap Nat (List OpId)}
    {batch : List OpId} (h : takeReady pts waiting = (left, batch)) (k : Nat) :
    left.find? k = if k ∈ pts then none else waiting.find? k := by
  induction pts generalizing waiting left batch with
  | nil =>
      cases h
      simp
  | cons pt pts ih =>
      rw [takeReady] at h
      cases hfind : waiting.find? pt with
      | none =>
          simp only [hfind] at h
          rw [ih h]
          by_cases hk : k = pt
          · subst hk
            simp [hfind]
          · simp [hk]
      | some queue =>
          simp only [hfind] at h
          obtain ⟨rfl, -⟩ := Prod.mk.inj h
          rw [@ih (waiting.erase pt) _ _ rfl, OrdMap.find?_erase]
          by_cases hk : k = pt <;> simp [hk]

/-- A push puts one op in one queue. -/
theorem find?_pushWaiting (waiting : OrdMap Nat (List OpId)) (ptId : Nat) (o : OpId) (k : Nat) :
    (pushWaiting waiting ptId o).find? k =
      if k = ptId then some ((waiting.find? ptId).getD [] ++ [o]) else waiting.find? k := by
  unfold pushWaiting
  cases hfind : waiting.find? ptId with
  | none => simp [OrdMap.find?_insert]
  | some queue => simp [OrdMap.find?_insert]

/-! ## The invariant is kept -/

/-- A step of one task that parks no op keeps the invariant if it keeps its part of the covers. -/
theorem Parked.set (h : Parked cfg s) {i : Nat} {task task' : Task}
    (htask : s.tasks[i]? = some task) (htasks : t.tasks = s.tasks.set i task')
    (hlocks : task'.locks = false) (hnotices : t.notices = s.notices)
    (hhung : t.hungPts cfg = s.hungPts cfg) (hwaiting : t.waitingPts cfg = s.waitingPts cfg)
    (hptOk : t.ptOk = s.ptOk)
    (hself : ∀ k p, task.wakesHung p k = true → task'.wakesHung p k = true)
    (hself' : ∀ p, task.wakesWaiting p = true → task'.wakesWaiting p = true) : Parked cfg t := by
  refine h.frame ?_ hhung hwaiting hptOk
    (fun k p => covered_of_set htask hnotices htasks (hself k p))
    fun p => covered_of_set htask hnotices htasks (hself' p)
  rw [htasks]
  exact (lockers_set_le htask (by simp [hlocks])).trans h.lock

/-- Parking a hung op in time keeps the invariant. -/
theorem Parked.park (h : Parked cfg s) {i : Nat} {frame : Frame} {o : OpId} {rest : List OpId}
    (htask : s.tasks[i]? = some (.submitting frame o .park rest))
    (hok : s.ptOk (cfg.pt (s.ops o)) = true → s.covered (cfg.pt (s.ops o))
      (Task.wakesHung (cfg.pt (s.ops o)) s.hangon.length) = true) :
    Parked cfg { s with
      hangon := s.hangon ++ [o]
      tasks := s.tasks.set i (nextTask frame rest) } := by
  have hcover : ∀ k p, s.covered p (Task.wakesHung p k) = true →
      { s with
        hangon := s.hangon ++ [o]
        tasks := s.tasks.set i (nextTask frame rest) }.covered p (Task.wakesHung p k) = true :=
    fun k p => covered_of_set htask rfl rfl (wakesHung_nextTask frame rest)
  refine ⟨?_, fun k p hp hpOk => hcover k p ?_, fun p hp hpOk => ?_⟩
  · exact (lockers_set_le htask (by simp)).trans h.lock
  · have hp' : (s.hungPts cfg ++ [cfg.pt (s.ops o)])[k]? = some p := by
      simpa [State.hungPts] using hp
    rw [List.getElem?_append, List.getElem?_singleton] at hp'
    split_ifs at hp' with hlt hlast
    · exact h.hung k p hp' hpOk
    · obtain rfl := Option.some.inj hp'
      have hk : k = s.hangon.length := by
        simp only [State.hungPts, List.length_map] at hlt hlast
        omega
      rw [hk]
      exact hok hpOk
  · refine covered_of_set htask rfl rfl ?_ (h.waiting p hp hpOk)
    intro hwake
    cases hwake

/-- Queueing an op in time keeps the invariant. -/
theorem Parked.replyPark (h : Parked cfg s) {i : Nat} {o : OpId} {ptId : Nat}
    (htask : s.tasks[i]? = some (.replyPark o ptId))
    (hok : s.ptOk ⟨cfg.clusterId (s.ops o).pool, ptId⟩ = true →
      s.covered ⟨cfg.clusterId (s.ops o).pool, ptId⟩
        (Task.wakesWaiting ⟨cfg.clusterId (s.ops o).pool, ptId⟩) = true) :
    Parked cfg { s with
      waiting := pushWaiting s.waiting ptId o
      tasks := s.tasks.set i .done } := by
  refine ⟨?_, fun k p hp hpOk => ?_, fun p hp hpOk => ?_⟩
  · exact (lockers_set_le htask (by simp [Task.locks])).trans h.lock
  · exact covered_of_set htask rfl rfl (fun hwake => nomatch hwake) (h.hung k p hp hpOk)
  · refine covered_of_set htask rfl rfl (fun hwake => nomatch hwake) ?_
    obtain ⟨queue, hfind, x, hx, hcluster⟩ := mem_waitingPts.mp hp
    simp only [find?_pushWaiting] at hfind
    split_ifs at hfind with hkey
    · obtain rfl := Option.some.inj hfind
      rcases List.mem_append.mp hx with hold | hnew
      · refine h.waiting p (mem_waitingPts.mpr ?_) hpOk
        cases hold' : s.waiting.find? ptId with
        | none => simp [hold'] at hold
        | some old =>
            rw [hold', Option.getD_some] at hold
            exact ⟨old, hkey ▸ hold', x, hold, hcluster⟩
      · obtain rfl := List.mem_singleton.mp hnew
        obtain rfl : p = ⟨cfg.clusterId (s.ops x).pool, ptId⟩ := by
          rw [hcluster, ← hkey]
        exact hok hpOk
    · exact h.waiting p (mem_waitingPts.mpr ⟨queue, hfind, x, hx, hcluster⟩) hpOk

/-- The first section of `retry_op_submit` leaves nothing behind that counted on it. -/
theorem Parked.retryStart (h : Parked cfg s) {i : Nat} {pts : List Pt}
    {left : OrdMap Nat (List OpId)} {batch : List OpId}
    (htask : s.tasks[i]? = some (.retryStart pts))
    (htake : takeReady (pts.map Pt.ptId) s.waiting = (left, batch)) :
    Parked cfg { s with
      waiting := left
      tasks := s.tasks.set i (nextTask (.retryErrors pts) batch) } := by
  refine ⟨?_, fun k p hp hpOk => ?_, fun p hp hpOk => ?_⟩
  · exact (lockers_set_le htask (by simp)).trans h.lock
  · refine covered_of_set htask rfl rfl ?_ (h.hung k p hp hpOk)
    exact wakesHung_nextTask (.retryErrors pts) batch
  · obtain ⟨queue, hfind, x, hx, hcluster⟩ := mem_waitingPts.mp hp
    simp only [find?_takeReady htake] at hfind
    split_ifs at hfind with hkey
    -- the queues that counted on this task were taken, so it was not the cover of this one
    refine covered_of_set htask rfl rfl ?_
      (h.waiting p (mem_waitingPts.mpr ⟨queue, hfind, x, hx, hcluster⟩) hpOk)
    intro hwake
    exact absurd (List.mem_map_of_mem (of_decide_eq_true hwake)) hkey

/-- Taking `retrylock` for the second section keeps the invariant. -/
theorem Parked.hangonLock (h : Parked cfg s) {i : Nat} {pts : List Pt}
    (htask : s.tasks[i]? = some (.hangonLock pts)) (hfree : s.lockFree = true) :
    Parked cfg { s with tasks := s.tasks.set i (.hangonScan pts 0 []) } := by
  refine h.frame ?_ rfl rfl rfl (fun k p => covered_of_set htask rfl rfl ?_)
    fun p => covered_of_set htask rfl rfl ?_
  · have hset := total_set (fun task : Task => if task.locks then 1 else 0) htask
      (.hangonScan pts 0 [])
    have hzero := lockers_eq_zero hfree
    have hscan : (Task.hangonScan pts 0 []).locks = true := rfl
    simp only [hscan, if_true] at hset
    unfold lockers at hzero ⊢
    dsimp only
    omega
  · intro hwake
    simpa [Task.wakesHung] using hwake
  · intro hwake
    cases hwake

/-- A cover of the hung op at position `k` is kept by a step of the task that scans them, if that
task has still to reach the position `k'` the op is at afterwards. -/
theorem Parked.covered_scan (h : Parked cfg s) {i : Nat} {pts : List Pt} {iter : Nat}
    {queue : List OpId} (htask : s.tasks[i]? = some (.hangonScan pts iter queue)) {task' : Task}
    (hnotices : t.notices = s.notices) (htasks : t.tasks = s.tasks.set i task') {k k' : Nat}
    (hself : p ∈ pts → iter ≤ k → task'.wakesHung p k' = true)
    (hcover : s.covered p (Task.wakesHung p k) = true) :
    t.covered p (Task.wakesHung p k') = true := by
  refine covered_of_tasks hcover (fun entries hmem => hnotices ▸ hmem) fun hwake => ?_
  rw [htasks]
  refine exists_mem_set htask (fun hscan => ?_) (fun j z hij hz hwakes => ?_) hwake
  · simp only [Task.wakesHung, Bool.and_eq_true, decide_eq_true_eq] at hscan
    exact hself hscan.1 hscan.2
  · -- only the scanning task holds `retrylock`, so positions do not matter to the others
    rw [← wakesHung_of_unlocked (unlocked_of_ne h.lock htask rfl hij hz) k k']
    exact hwakes

/-- Taking a hung op whose partition is OK keeps the invariant: the ops behind it move up. -/
theorem Parked.scanTake (h : Parked cfg s) {i : Nat} {pts : List Pt} {iter : Nat}
    {queue : List OpId} (o : OpId) (htask : s.tasks[i]? = some (.hangonScan pts iter queue)) :
    Parked cfg { s with
      hangon := s.hangon.eraseIdx iter
      tasks := s.tasks.set i (.hangonScan pts iter (queue ++ [o])) } := by
  refine ⟨?_, fun k p hp hpOk => ?_, fun p hp hpOk => ?_⟩
  · exact (lockers_set_le htask fun _ => rfl).trans h.lock
  · have hp' : ((s.hungPts cfg).eraseIdx iter)[k]? = some p := by
      simpa only [State.hungPts, List.eraseIdx_map] using hp
    rw [List.getElem?_eraseIdx] at hp'
    split_ifs at hp' with hlt
    · refine h.covered_scan htask (by rfl) (by rfl) (fun hmem hle => ?_) (h.hung k p hp' hpOk)
      simp [Task.wakesHung, hmem, hle]
    · refine h.covered_scan htask (by rfl) (by rfl) (fun hmem hle => ?_) (h.hung (k + 1) p hp' hpOk)
      simp only [Task.wakesHung, hmem, decide_true, Bool.true_and, decide_eq_true_eq]
      omega
  · exact covered_of_set htask rfl rfl (fun hwake => nomatch hwake) (h.waiting p hp hpOk)

/-- Passing a hung op whose partition is not OK keeps the invariant: it needs no wake-up. -/
theorem Parked.scanKeep (h : Parked cfg s) {i : Nat} {pts : List Pt} {iter : Nat}
    {queue : List OpId} {o : OpId} (htask : s.tasks[i]? = some (.hangonScan pts iter queue))
    (hop : s.hangon[iter]? = some o) (hok : s.ptOk (cfg.pt (s.ops o)) = false) :
    Parked cfg { s with tasks := s.tasks.set i (.hangonScan pts (iter + 1) queue) } := by
  refine ⟨?_, fun k p hp hpOk => ?_, fun p hp hpOk => ?_⟩
  · exact (lockers_set_le htask fun _ => rfl).trans h.lock
  · have hk : k ≠ iter := by
      intro heq
      subst heq
      have hpt : (s.hungPts cfg)[k]? = some (cfg.pt (s.ops o)) := by simp [State.hungPts, hop]
      obtain rfl := Option.some.inj (hpt.symm.trans hp)
      exact absurd hpOk (by simp [hok])
    refine h.covered_scan htask (by rfl) (by rfl) (fun hmem hle => ?_) (h.hung k p hp hpOk)
    simp only [Task.wakesHung, hmem, decide_true, Bool.true_and, decide_eq_true_eq]
    omega
  · exact covered_of_set htask rfl rfl (fun hwake => nomatch hwake) (h.waiting p hp hpOk)

/-- At the end of the second section no hung op counts on it any more. -/
theorem Parked.scanEnd (h : Parked cfg s) {i : Nat} {pts : List Pt} {iter : Nat}
    {queue : List OpId} (htask : s.tasks[i]? = some (.hangonScan pts iter queue))
    (hop : s.hangon[iter]? = none) :
    Parked cfg { s with tasks := s.tasks.set i (nextTask (.retryHangon pts) queue) } := by
  refine ⟨?_, fun k p hp hpOk => ?_, fun p hp hpOk => ?_⟩
  · exact (lockers_set_le htask (by simp)).trans h.lock
  · refine h.covered_scan htask (by rfl) (by rfl) (fun hmem hle => ?_) (h.hung k p hp hpOk)
    have hlt : k < (s.hungPts cfg).length := (List.getElem?_eq_some_iff.mp hp).1
    have hge := List.getElem?_eq_none_iff.mp hop
    rw [State.hungPts, List.length_map] at hlt
    omega
  · exact covered_of_set htask rfl rfl (fun hwake => nomatch hwake) (h.waiting p hp hpOk)

/-- A partition change keeps the invariant: a partition that becomes OK is announced. -/
theorem Parked.ptChange (h : Parked cfg s) (pt : Pt) (ok : Bool) :
    Parked cfg { s with
      ptOk := Function.update s.ptOk pt ok
      notices := if ok && !s.ptOk pt then s.notices ++ [[(pt, true)]] else s.notices } := by
  have hcover : ∀ p wake, Function.update s.ptOk pt ok p = true →
      (s.ptOk p = true → s.covered p wake = true) →
      { s with
        ptOk := Function.update s.ptOk pt ok
        notices := if ok && !s.ptOk pt then s.notices ++ [[(pt, true)]] else s.notices }.covered
          p wake = true := by
    intro p wake hpOk hcovered
    have hnotices : ∀ entries ∈ s.notices,
        entries ∈ if ok && !s.ptOk pt then s.notices ++ [[(pt, true)]] else s.notices := by
      intro entries hmem
      split_ifs
      · exact List.mem_append_left _ hmem
      · exact hmem
    cases hold : s.ptOk p with
    | true => exact covered_of_tasks (hcovered hold) hnotices id
    | false =>
        -- the partition becomes OK in this step, and the new notification covers it
        have hp : p = pt := by
          by_contra hne
          rw [Function.update_of_ne hne, hold] at hpOk
          cases hpOk
        subst hp
        rw [Function.update_self] at hpOk
        refine covered_iff.mpr (.inl ⟨[(p, true)], ?_, ?_⟩)
        · simp [hpOk, hold]
        · simp [ccmPtChangeNotify]
  exact ⟨h.lock, fun k p hp hpOk => hcover p _ hpOk (h.hung k p hp),
    fun p hp hpOk => hcover p _ hpOk (h.waiting p hp)⟩

/-- Delivering a notification turns it into a task that covers the same partitions. -/
theorem covered_deliver {j : Nat} {entries : List (Pt × Bool)} {wake : Task → Bool}
    (hnotice : s.notices[j]? = some entries)
    (hwake : p ∈ ccmPtChangeNotify entries →
      wake (Task.retryStart (ccmPtChangeNotify entries)) = true)
    (h : s.covered p wake = true) :
    { s with
      notices := s.notices.eraseIdx j
      tasks := s.tasks ++ [Task.retryStart (ccmPtChangeNotify entries)] }.covered p wake =
        true := by
  rw [covered_iff] at h ⊢
  rcases h with ⟨entries', hmem, hp⟩ | ⟨task, hmem, htask⟩
  · obtain ⟨j', hj'⟩ := List.mem_iff_getElem?.mp hmem
    by_cases hj : j' = j
    · subst hj
      obtain rfl := Option.some.inj (hnotice.symm.trans hj')
      exact .inr ⟨_, List.mem_append_right _ (List.mem_singleton_self _), hwake hp⟩
    · exact .inl ⟨entries', List.mem_eraseIdx_iff_getElem?.mpr ⟨j', hj, hj'⟩, hp⟩
  · exact .inr ⟨task, List.mem_append_left _ hmem, htask⟩

/-- Delivering a notification with no OK partition loses no cover. -/
theorem covered_deliverNothing {j : Nat} {entries : List (Pt × Bool)} {wake : Task → Bool}
    (hnotice : s.notices[j]? = some entries) (hpts : ccmPtChangeNotify entries = [])
    (h : s.covered p wake = true) :
    { s with notices := s.notices.eraseIdx j }.covered p wake = true := by
  rw [covered_iff] at h ⊢
  rcases h with ⟨entries', hmem, hp⟩ | htask
  · obtain ⟨j', hj'⟩ := List.mem_iff_getElem?.mp hmem
    refine .inl ⟨entries', List.mem_eraseIdx_iff_getElem?.mpr ⟨j', ?_, hj'⟩, hp⟩
    intro heq
    subst heq
    obtain rfl := Option.some.inj (hnotice.symm.trans hj')
    rw [hpts] at hp
    cases hp
  · exact .inr htask

/-- An op in the locals of a running function does not hang. -/
theorem Inv.not_hung (h : Inv s) {i : Nat} {task : Task} {o : OpId}
    (htask : s.tasks[i]? = some task) (ho : o ∈ task.ops) : o ∉ s.hangon := by
  intro hung
  have hhung : single o o ≤ total (single o) s.hangon := le_total (single o) hung
  have hrunning := one_le_running htask ho
  have hheld := h.held_le_one o
  rw [single_self] at hhung
  unfold State.held at hheld
  omega

/-- The next op id is in no place. -/
theorem Inv.submitted_not_mem (h : Inv s) : s.submitted ∉ s.places := by
  have honce := h.once s.submitted
  rw [held_eq_total, total_single_eq_count, if_neg (by simp)] at honce
  exact List.count_eq_zero.mp honce

/-- Submitting a new op keeps the invariant. -/
theorem Parked.submit (h : Parked cfg s) (hinv : Inv s) (op : Op) :
    Parked cfg { s with
      ops := Function.update s.ops s.submitted op
      submitted := s.submitted + 1
      tasks := s.tasks ++ [.submitting .opSubmit s.submitted .calcTarget []] } := by
  have hnew := hinv.submitted_not_mem
  simp only [State.places, List.mem_append, not_or] at hnew
  obtain ⟨⟨⟨-, hqueues⟩, hhung⟩, -⟩ := hnew
  refine h.append rfl rfl rfl (hungPts_update hhung) ?_ rfl
  refine List.flatMap_congr fun e he => List.map_congr_left fun o ho => ?_
  have hne : o ≠ s.submitted := by
    intro heq
    subst heq
    exact hqueues (List.mem_flatMap.mpr ⟨e, he, ho⟩)
  simp only [Function.update_of_ne hne]

/-- A step of a running function that parks ops in time keeps the invariant. -/
theorem Parked.run (h : Parked cfg s) (hinv : Inv s) {i : Nat} {view : TargetView} {relock : Bool}
    (hok : parksInTime cfg s (.run i view relock) = true)
    (hstep : Step cfg s (.run i view relock) t) : Parked cfg t := by
  cases hstep with
  | @calcTarget _ _ _ frame o rest op ptStat htask hcalc =>
      exact h.set htask rfl rfl rfl (hungPts_update (hinv.not_hung htask List.mem_cons_self))
        (waitingPts_update (calcPtTarget_keeps hcalc).2.2) rfl (fun _ _ => id) fun _ => id
  | recalc htask => exact h.set htask rfl rfl rfl rfl rfl rfl (fun _ _ => id) fun _ => id
  | @place _ _ frame o rest htask =>
      exact h.set htask rfl (nextTask_locks frame rest) rfl
        (hungPts_update (hinv.not_hung htask List.mem_cons_self)) (waitingPts_update rfl) rfl
        (fun _ _ => wakesHung_nextTask frame rest) fun _ hwake => nomatch hwake
  | park htask hlock =>
      refine h.park htask fun hpOk => ?_
      simpa [parksInTime, htask, hpOk] using hok
  | replyPark htask hlock =>
      refine h.replyPark htask fun hpOk => ?_
      simpa [parksInTime, htask, hpOk] using hok
  | retryStart htask hlock htake => exact h.retryStart htask htake
  | hangonLock htask hlock => exact h.hangonLock htask hlock
  | scanTake htask hop hpOk => exact h.scanTake _ htask
  | scanKeep htask hop hpOk => exact h.scanKeep htask hop hpOk
  | scanEnd htask hop => exact h.scanEnd htask hop

/-- A reply keeps the invariant. -/
theorem Parked.reply (h : Parked cfg s) (osd : Int) (session : OpMap) (tid : Nat) (o : OpId)
    (reply : Reply) : Parked cfg (handleOsdOpReply cfg s osd session tid o reply) := by
  rcases handleOsdOpReply_cases cfg s osd session tid o reply with ⟨task, -, hlocks, heq⟩ | heq
  · rw [heq]
    exact h.append rfl hlocks rfl (hungPts_clearTid o) (waitingPts_update rfl) rfl
  · rw [heq]
    exact h.frame h.lock rfl rfl rfl (fun _ _ => id) fun _ => id

/-- A step that parks ops in time keeps the invariant. -/
theorem Parked.step (h : Parked cfg s) (hinv : Inv s) (hok : parksInTime cfg s event = true)
    (hstep : Step cfg s event t) : Parked cfg t := by
  cases event with
  | run i view relock => exact h.run hinv hok hstep
  | submit pool name onfinish =>
      cases hstep with
      | submit => exact h.submit hinv _
  | reply osd tid reply =>
      cases hstep with
      | replyIgnored => exact h
      | reply hsession hop => exact h.reply osd _ tid _ reply
  | ptChange pt ok =>
      cases hstep with
      | ptChange => exact h.ptChange pt ok
  | notify entries =>
      cases hstep with
      | notify =>
          refine h.frame h.lock rfl rfl rfl (fun k p hcover => ?_) fun p hcover => ?_
          · exact covered_of_tasks hcover (fun _ => List.mem_append_left _) id
          · exact covered_of_tasks hcover (fun _ => List.mem_append_left _) id
  | deliver j =>
      cases hstep with
      | deliverNothing hnotice hpts =>
          exact h.frame h.lock rfl rfl rfl (fun _ _ => covered_deliverNothing hnotice hpts)
            fun _ => covered_deliverNothing hnotice hpts
      | deliver hnotice =>
          refine h.frame ((lockers_append rfl).trans_le h.lock) rfl rfl rfl
            (fun k p => covered_deliver hnotice fun hp => ?_)
            fun p => covered_deliver hnotice fun hp => ?_
          · simpa [Task.wakesHung] using hp
          · simpa [Task.wakesWaiting] using hp
  | nodeView available =>
      cases hstep with
      | nodeView hview =>
          cases hview
          exact h.append rfl (nextTask_locks _ _) rfl rfl rfl rfl
  | reset osd =>
      cases hstep with
      | reset hsession hgc hreset =>
          cases hreset
          exact h.append rfl (nextTask_locks _ _) rfl rfl rfl rfl
      | resetOther => exact h

/-! ## Runs -/

/-- In every run in which ops are parked in time, no op is ever parked for an OK partition without
a notification for it that is undelivered or being processed. -/
theorem no_lost_wakeup (cfg : Config) (ptOk : Pt → Bool) {s : State}
    (h : Reach (step cfg) (fun s event => parksInTime cfg s event = true) (init ptOk) s) :
    s.NoneStuck cfg := by
  have hboth : Inv s ∧ Parked cfg s := by
    refine h.invariant (fun s => Inv s ∧ Parked cfg s) ⟨inv_init ptOk, parked_init cfg ptOk⟩ ?_
    rintro s event t ⟨hinv, hparked⟩ hok hstep
    exact ⟨hinv.step (step_cases hstep), hparked.step hinv hok (step_cases hstep)⟩
  exact hboth.2.noneStuck

/-- An op hangs for partition 3, which then becomes OK: the notification is on its way. -/
theorem noneStuck_hung_then_ok :
    ∃ s, Reach (step onePool) (fun s event => parksInTime onePool s event = true)
        (init fun _ => false) s ∧
      s.hungPts onePool = [⟨1, 3⟩] ∧ s.ptOk ⟨1, 3⟩ = true ∧ s.NoneStuck onePool := by
  have h : Reach (step onePool) (fun s event => parksInTime onePool s event = true)
      (init fun _ => false) _ := Reach.of_run
    [.submit 1 imageObject true, .run 0 nodeTwo false, .run 0 nodeTwo false,
      .ptChange ⟨1, 3⟩ true] rfl
  exact ⟨_, h, by decide, by decide, no_lost_wakeup onePool _ h⟩

/-- The wake-up is lost if partition 3 becomes OK, and is processed, between the read of its status
and the push on the hung ops; or before a late error reply is queued. -/
theorem wakeup_lost_before_park :
    (∃ s, Reach (step onePool) anyEvent (init fun _ => false) s ∧
      s.hungPts onePool = [⟨1, 3⟩] ∧ ¬ s.NoneStuck onePool) ∧
    ∃ s, Reach (step onePool) anyEvent (init fun _ => true) s ∧
      s.waitingPts onePool = [⟨1, 3⟩] ∧ ¬ s.NoneStuck onePool := by
  constructor
  · have h : Reach (step onePool) anyEvent (init fun _ => false) _ := Reach.of_run
      [.submit 1 imageObject true, .run 0 nodeTwo false, .ptChange ⟨1, 3⟩ true, .deliver 0,
        .run 1 nodeTwo false, .run 1 nodeTwo false, .run 1 nodeTwo false, .run 0 nodeTwo false] rfl
    refine ⟨_, h, by decide, fun hnone => ?_⟩
    exact absurd (hnone ⟨1, 3⟩ (.inl (by decide)) (by decide)) (by decide)
  · have h : Reach (step onePool) anyEvent (init fun _ => true) _ := Reach.of_run
      [.submit 1 imageObject true, .run 0 nodeTwo false, .run 0 nodeTwo false,
        .ptChange ⟨1, 3⟩ false, .ptChange ⟨1, 3⟩ true, .deliver 0, .run 1 nodeTwo false,
        .run 1 nodeTwo false, .run 1 nodeTwo false,
        .reply nodeTwo.osd 1 ⟨-16, false, imageObject, 3⟩, .run 2 nodeTwo false] rfl
    refine ⟨_, h, by decide, fun hnone => ?_⟩
    exact absurd (hnone ⟨1, 3⟩ (.inr (by decide)) (by decide)) (by decide)

end GlobalCacheAdaptor.ClientAdaptor
