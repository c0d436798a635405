import Mathlib.Data.List.Nodup
import GlobalCacheAdaptor.ClientAdaptor.Objecter

/-!
# No op is lost or duplicated

Every handler moves ops between the session maps, the retry queues, the hung ops and the locals of
running functions. `State.held w` is the total weight of all ops in all these places; for every
weight `w` at once, each move keeps it. With the weight that counts one op this says that an
unfinished op is in exactly one place, once.
-/

namespace GlobalCacheAdaptor.ClientAdaptor

open Lib

variable {cfg : Config} {s t : State} {event : Event}

/-! ## The places of an op -/

/-- The ops on sessions, the homeless one included. -/
def State.assignedOps (s : State) : List OpId :=
  s.sessions.entries.flatMap (fun e => e.2.values) ++ s.homeless.values

/-- All ops in all places: the sessions, the retry queues, the hung ops and the locals of running
functions. -/
def State.places (s : State) : List OpId :=
  s.assignedOps ++ s.waiting.entries.flatMap (fun e => e.2) ++ s.hangon ++ s.tasks.flatMap Task.ops

/-- The weight of the ops on sessions. -/
def State.assigned (w : OpId → Nat) (s : State) : Nat :=
  total (fun e => total w e.2.values) s.sessions.entries + total w s.homeless.values

/-- The weight of the ops in the retry queues of the partitions. -/
def queued (w : OpId → Nat) (waiting : OrdMap Nat (List OpId)) : Nat :=
  total (fun e => total w e.2) waiting.entries

/-- The weight of the ops in the locals of running functions. -/
def running (w : OpId → Nat) (tasks : List Task) : Nat := total (fun task => total w task.ops) tasks

/-- The weight of all ops in all places. -/
def State.held (w : OpId → Nat) (s : State) : Nat :=
  s.assigned w + queued w s.waiting + total w s.hangon + running w s.tasks

/-- The assigned weight is the weight of the ops on sessions. -/
theorem assigned_eq_total (w : OpId → Nat) (s : State) : s.assigned w = total w s.assignedOps := by
  simp only [State.assigned, State.assignedOps, total_append, total_flatMap]

/-- The weight held is the weight of all places. -/
theorem held_eq_total (w : OpId → Nat) (s : State) : s.held w = total w s.places := by
  simp only [State.held, assigned_eq_total, queued, running, State.places, total_append,
    total_flatMap]

/-- The op is on some session under this tid. -/
def State.OnSession (s : State) (tid : Nat) (o : OpId) : Prop :=
  (∃ osd session, s.sessions.find? osd = some session ∧ session.find? tid = some o) ∨
    s.homeless.find? tid = some o

/-- An op on a session is part of the assigned weight. -/
theorem le_assigned (w : OpId → Nat) {tid : Nat} {o : OpId} (h : s.OnSession tid o) :
    w o ≤ s.assigned w := by
  rcases h with ⟨osd, session, hsession, hop⟩ | hop
  · have hinner : w o ≤ total w session.values := le_total w (OrdMap.mem_values hop)
    have houter : total w session.values ≤ total (fun e => total w e.2.values) s.sessions.entries :=
      le_total (fun e : Int × OpMap => total w e.2.values) (s.sessions.mem_entries_iff.mpr hsession)
    unfold State.assigned
    omega
  · have hinner : w o ≤ total w s.homeless.values := le_total w (OrdMap.mem_values hop)
    unfold State.assigned
    omega

/-! ## What each move does to the weights -/

/-- The caller's next task holds the rest of its batch. -/
@[simp] theorem nextTask_ops (frame : Frame) (rest : List OpId) :
    (nextTask frame rest).ops = rest := by
  cases rest with
  | nil => cases frame <;> rfl
  | cons op rest => rfl

/-- Assigning an op under a tid that is not in use adds its weight to the sessions. -/
theorem assigned_assign (w : OpId → Nat) {o : OpId}
    (hfree : ∀ o', ¬ s.OnSession (s.submitTid o) o') :
    (s.assign o).assigned w = s.assigned w + w o := by
  have hhomeless : s.homeless.find? (s.submitTid o) = none := by
    rcases h : s.homeless.find? (s.submitTid o) with _ | o'
    · rfl
    · exact absurd (.inr h) (hfree o')
  by_cases hosd : (s.ops o).osd < 0
  · simp only [State.assigned, State.assign, if_pos hosd,
      OrdMap.total_values_insert_new w hhomeless]
    omega
  · simp only [State.assigned, State.assign, if_neg hosd]
    rcases hsession : s.sessions.find? (s.ops o).osd with _ | session
    · have hempty : s.getSession (s.ops o).osd = .empty := by simp [State.getSession, hsession]
      rw [hempty, OrdMap.total_insert_new _ hsession,
        OrdMap.total_values_insert_new w (OrdMap.find?_empty _)]
      simp only [OrdMap.values, OrdMap.empty, List.map_nil, total_nil]
      omega
    · have hfound : s.getSession (s.ops o).osd = session := by simp [State.getSession, hsession]
      have hnew : session.find? (s.submitTid o) = none := by
        rcases h : session.find? (s.submitTid o) with _ | o'
        · rfl
        · exact absurd (.inl ⟨_, session, hsession, h⟩) (hfree o')
      have htotal := OrdMap.total_insert_old (fun e : Int × OpMap => total w e.2.values) hsession
        (session.insert (s.submitTid o) o)
      simp only [OrdMap.total_values_insert_new w hnew] at htotal
      rw [hfound]
      omega

/-- Taking an op off its session takes its weight off the sessions. -/
theorem assigned_detach (w : OpId → Nat) {osd : Int} {session : OpMap} {tid : Nat} {o : OpId}
    (hsession : s.sessions.find? osd = some session) (hop : session.find? tid = some o) :
    (s.detach osd session tid o).assigned w + w o = s.assigned w := by
  have htotal := OrdMap.total_insert_old (fun e : Int × OpMap => total w e.2.values) hsession
    (session.erase tid)
  have herase := OrdMap.total_values_erase w hop
  dsimp only at htotal
  simp only [State.assigned, State.detach]
  omega

/-- The node-view handler takes its ops off the sessions, and leaves the others. -/
theorem assigned_nodeview (w : OpId → Nat) (s : State) (available : List (BitVec 32)) :
    (nodeviewChange s available).1.assigned w + total w (viewTaken s available) = s.assigned w := by
  have hsessions := OrdMap.total_filter (fun e : Int × OpMap => total w e.2.values) s.sessions
    (fun e => viewDead available e.1)
  have hhomeless := OrdMap.total_values_filter w s.homeless
    (fun e => filterMsg (s.ops e.2).name)
  simp only [State.assigned, nodeviewChange, viewTaken, total_append, total_flatMap]
  omega

/-- Closing a session takes all its ops off the sessions. -/
theorem assigned_reset (w : OpId → Nat) {osd : Int} {session : OpMap}
    (hsession : s.sessions.find? osd = some session) :
    (msHandleReset s osd session).1.assigned w + total w session.values = s.assigned w := by
  have htotal := OrdMap.total_erase (fun e : Int × OpMap => total w e.2.values) hsession
  dsimp only at htotal
  simp only [State.assigned, msHandleReset]
  omega

/-- A resend map holds each of its ops once, if their tids are distinct. -/
theorem total_collect (w : OpId → Nat) {ids : List OpId}
    (htids : (ids.map fun o => (s.ops o).tid).Nodup) :
    total w (collect s ids).values = total w ids := by
  rw [collect, OrdMap.total_foldl_insert w (fun o => (s.ops o).tid) ids .empty (by simp) htids]
  simp [OrdMap.values, OrdMap.empty]

/-- The first section of `retry_op_submit` moves whole queues into its batch. -/
theorem queued_takeReady (w : OpId → Nat) {pts : List Nat} {waiting left : OrdMap Nat (List OpId)}
    {batch : List OpId} (h : takeReady pts waiting = (left, batch)) :
    queued w left + total w batch = queued w waiting := by
  induction pts generalizing waiting left batch with
  | nil =>
      cases h
      simp
  | cons pt pts ih =>
      rw [takeReady] at h
      cases hfind : waiting.find? pt with
      | none =>
          simp only [hfind] at h
          exact ih h
      | some queue =>
          simp only [hfind] at h
          obtain ⟨rfl, rfl⟩ := Prod.mk.inj h
          have hrest := @ih (waiting.erase pt) _ _ rfl
          have herase := OrdMap.total_erase (fun e : Nat × List OpId => total w e.2) hfind
          dsimp only at herase
          rw [total_append]
          simp only [queued] at hrest ⊢
          omega

/-- A retryable error adds the op to one queue. -/
theorem queued_pushWaiting (w : OpId → Nat) (waiting : OrdMap Nat (List OpId)) (ptId : Nat)
    (o : OpId) : queued w (pushWaiting waiting ptId o) = queued w waiting + w o := by
  unfold pushWaiting queued
  cases hfind : waiting.find? ptId with
  | none => simp [OrdMap.total_insert_new _ hfind]
  | some queue =>
      have htotal := OrdMap.total_insert_old (fun e : Nat × List OpId => total w e.2) hfind
        (queue ++ [o])
      simp only [total_append, total_cons, total_nil] at htotal
      simp only
      omega

/-- A new thread brings its ops along. -/
theorem running_append (w : OpId → Nat) (tasks : List Task) (task : Task) :
    running w (tasks ++ [task]) = running w tasks + total w task.ops := by
  simp [running]

/-- A step of one thread exchanges the ops it held for those it holds now. -/
theorem running_set (w : OpId → Nat) {tasks : List Task} {i : Nat} {task : Task}
    (h : tasks[i]? = some task) (task' : Task) :
    running w (tasks.set i task') + total w task.ops = running w tasks + total w task'.ops :=
  total_set (fun task : Task => total w task.ops) h task'

/-! ## Which ops are on a session -/

/-- Assigning an op puts nothing but that op on a session. -/
theorem onSession_of_assign {o o' : OpId} {tid : Nat} (h : (s.assign o).OnSession tid o') :
    s.OnSession tid o' ∨ (tid = s.submitTid o ∧ o' = o) := by
  by_cases hosd : (s.ops o).osd < 0
  · rcases h with ⟨osd, session, hsession, hop⟩ | hop
    · simp only [State.assign, if_pos hosd] at hsession
      exact .inl (.inl ⟨osd, session, hsession, hop⟩)
    · simp only [State.assign, if_pos hosd, OrdMap.find?_insert] at hop
      split_ifs at hop with htid
      · cases hop
        exact .inr ⟨htid, rfl⟩
      · exact .inl (.inr hop)
  · rcases h with ⟨osd, session, hsession, hop⟩ | hop
    · simp only [State.assign, if_neg hosd, OrdMap.find?_insert] at hsession
      split_ifs at hsession with hkey
      · cases hsession
        rw [OrdMap.find?_insert] at hop
        split_ifs at hop with htid
        · cases hop
          exact .inr ⟨htid, rfl⟩
        · cases hfind : s.sessions.find? (s.ops o).osd with
          | none => simp [State.getSession, hfind] at hop
          | some old =>
              simp only [State.getSession, hfind, Option.getD_some] at hop
              exact .inl (.inl ⟨_, old, hfind, hop⟩)
      · exact .inl (.inl ⟨osd, session, hsession, hop⟩)
    · simp only [State.assign, if_neg hosd] at hop
      exact .inl (.inr hop)

/-- Taking an op off its session puts nothing on a session. -/
theorem onSession_of_detach {osd : Int} {session : OpMap} {tid tid' : Nat} {o o' : OpId}
    (hsession : s.sessions.find? osd = some session)
    (h : (s.detach osd session tid o).OnSession tid' o') : s.OnSession tid' o' := by
  rcases h with ⟨osd', session', hsession', hop⟩ | hop
  · simp only [State.detach, OrdMap.find?_insert] at hsession'
    split_ifs at hsession' with hkey
    · cases hsession'
      rw [OrdMap.find?_erase] at hop
      split_ifs at hop
      exact .inl ⟨osd, session, hsession, hop⟩
    · exact .inl ⟨osd', session', hsession', hop⟩
  · exact .inr hop

/-- The node-view handler puts nothing on a session. -/
theorem onSession_of_nodeview {available : List (BitVec 32)} {tid : Nat} {o : OpId}
    (h : (nodeviewChange s available).1.OnSession tid o) : s.OnSession tid o := by
  rcases h with ⟨osd, session, hsession, hop⟩ | hop
  · simp only [nodeviewChange, OrdMap.find?_filter] at hsession
    exact .inl ⟨osd, session, (Option.filter_eq_some_iff.mp hsession).1, hop⟩
  · simp only [nodeviewChange, OrdMap.find?_filter] at hop
    exact .inr (Option.filter_eq_some_iff.mp hop).1

/-- A connection reset puts nothing on a session. -/
theorem onSession_of_reset {osd : Int} {session : OpMap} {tid : Nat} {o : OpId}
    (h : (msHandleReset s osd session).1.OnSession tid o) : s.OnSession tid o := by
  rcases h with ⟨osd', session', hsession, hop⟩ | hop
  · simp only [msHandleReset, OrdMap.find?_erase] at hsession
    split_ifs at hsession
    exact .inl ⟨osd', session', hsession, hop⟩
  · exact .inr hop

/-- The ops on sessions are those listed. -/
theorem onSession_of_mem_assignedOps {o : OpId} (h : o ∈ s.assignedOps) :
    ∃ tid, s.OnSession tid o := by
  rcases List.mem_append.mp h with hsessions | hhomeless
  · obtain ⟨⟨osd, session⟩, hentry, ho⟩ := List.mem_flatMap.mp hsessions
    obtain ⟨tid, htid⟩ := OrdMap.exists_find?_of_mem_values ho
    exact ⟨tid, .inl ⟨osd, session, s.sessions.mem_entries_iff.mp hentry, htid⟩⟩
  · obtain ⟨tid, htid⟩ := OrdMap.exists_find?_of_mem_values hhomeless
    exact ⟨tid, .inr htid⟩

/-- The ops the node-view handler takes are those on the sessions it closes and the homeless ones
on RBD data objects. -/
theorem mem_viewTaken {available : List (BitVec 32)} {o : OpId} :
    o ∈ viewTaken s available ↔
      (∃ e ∈ s.sessions.entries, viewDead available e.1 = true ∧ o ∈ e.2.values) ∨
        (o ∈ s.homeless.values ∧ filterMsg (s.ops o).name = true) := by
  unfold viewTaken
  simp only [OrdMap.filter, OrdMap.values, List.mem_append, List.mem_flatMap, List.mem_filter,
    List.mem_map]
  refine or_congr ?_ ?_
  · exact exists_congr fun e => and_assoc
  · constructor
    · intro h
      obtain ⟨e, ⟨hentry, hname⟩, rfl⟩ := h
      exact ⟨⟨e, hentry, rfl⟩, hname⟩
    · intro h
      obtain ⟨⟨e, hentry, rfl⟩, hname⟩ := h
      exact ⟨e, ⟨hentry, hname⟩, rfl⟩

/-- The ops the node-view handler takes are on sessions. -/
theorem onSession_of_viewTaken {available : List (BitVec 32)} {o : OpId}
    (h : o ∈ viewTaken s available) : ∃ tid, s.OnSession tid o := by
  refine onSession_of_mem_assignedOps (List.mem_append.mpr ?_)
  rcases mem_viewTaken.mp h with ⟨e, hentry, -, ho⟩ | ⟨ho, -⟩
  · exact .inl (List.mem_flatMap.mpr ⟨e, hentry, ho⟩)
  · exact .inr ho

/-! ## The invariant -/

/-- Every unfinished op is held once and no other op is held; ops are on sessions under their own
tids; and tids are unique. -/
structure Inv (s : State) : Prop where
  started : ∀ o, s.finished o = true → o < s.submitted
  once : ∀ o, s.held (single o) = if o < s.submitted ∧ s.finished o = false then 1 else 0
  key : ∀ tid o, s.OnSession tid o → (s.ops o).tid = tid ∧ tid ≠ 0
  unique : ∀ o o', (s.ops o).tid = (s.ops o').tid → (s.ops o).tid ≠ 0 → o = o'
  le : ∀ o, (s.ops o).tid ≤ s.lastTid

/-- Nothing is held in the beginning. -/
theorem inv_init (ptOk : Pt → Bool) : Inv (init ptOk) := by
  refine ⟨by simp [init], fun o => by simp [init]; rfl, ?_, by simp [init], by simp [init]⟩
  rintro tid o (⟨osd, session, hsession, -⟩ | hop)
  · cases hsession
  · cases hop

/-- No op is held twice. -/
theorem Inv.held_le_one (h : Inv s) (o : OpId) : s.held (single o) ≤ 1 := by
  rw [h.once o]
  split_ifs <;> omega

/-- An op in the locals of a running function is part of the running weight. -/
theorem one_le_running {i : Nat} {task : Task} {o : OpId} (htask : s.tasks[i]? = some task)
    (ho : o ∈ task.ops) : 1 ≤ running (single o) s.tasks := by
  have hinner : single o o ≤ total (single o) task.ops := le_total (single o) ho
  have houter : total (single o) task.ops ≤ running (single o) s.tasks :=
    le_total (fun task : Task => total (single o) task.ops) (List.mem_of_getElem? htask)
  rw [single_self] at hinner
  omega

/-- An op in the locals of a running function is not on a session. -/
theorem Inv.off_session (h : Inv s) {i : Nat} {task : Task} {o : OpId}
    (htask : s.tasks[i]? = some task) (ho : o ∈ task.ops) (tid : Nat) : ¬ s.OnSession tid o := by
  intro hon
  have hassigned := le_assigned (single o) hon
  have hrunning := one_le_running htask ho
  have hheld := h.held_le_one o
  rw [single_self] at hassigned
  unfold State.held at hheld
  omega

/-- The next op id is not on a session. -/
theorem Inv.fresh (h : Inv s) (tid : Nat) : ¬ s.OnSession tid s.submitted := by
  intro hon
  have hassigned := le_assigned (single s.submitted) hon
  have honce := h.once s.submitted
  rw [single_self] at hassigned
  simp only [Nat.lt_irrefl, false_and, if_false] at honce
  unfold State.held at honce
  omega

/-- No other op has the tid that an op is assigned under. -/
theorem Inv.eq_of_tid_eq_submitTid (h : Inv s) {o o' : OpId}
    (heq : (s.ops o').tid = s.submitTid o) : o' = o := by
  unfold State.submitTid at heq
  split_ifs at heq with hzero
  · have hle := h.le o'
    omega
  · exact h.unique o' o heq (by omega)

/-- The tid an op is about to be assigned under is not in use. -/
theorem Inv.free_tid (h : Inv s) {i : Nat} {task : Task} {o : OpId}
    (htask : s.tasks[i]? = some task) (ho : o ∈ task.ops) (o' : OpId) :
    ¬ s.OnSession (s.submitTid o) o' := by
  intro hon
  obtain ⟨hkey, -⟩ := h.key _ _ hon
  obtain rfl := h.eq_of_tid_eq_submitTid hkey
  exact h.off_session htask ho _ hon

/-- Ops taken off sessions have distinct tids. -/
theorem Inv.tids_nodup (h : Inv s) {ids : List OpId} (hle : ∀ w, total w ids ≤ s.assigned w)
    (hon : ∀ o ∈ ids, ∃ tid, s.OnSession tid o) : (ids.map fun o => (s.ops o).tid).Nodup := by
  have hnodup : ids.Nodup := by
    refine nodup_of_total_single_le_one fun o => ?_
    -- an op taken twice would be held twice
    have hheld := h.held_le_one o
    have hids := hle (single o)
    unfold State.held at hheld
    omega
  refine hnodup.map_on ?_
  intro o ho o' ho' heq
  obtain ⟨tid, htid⟩ := hon o ho
  obtain ⟨hkey, hne⟩ := h.key tid o htid
  exact h.unique o o' heq (by rw [hkey]; exact hne)

/-- The resend map of the node-view handler holds exactly the ops it took. -/
theorem Inv.total_viewResend (h : Inv s) (w : OpId → Nat) (available : List (BitVec 32)) :
    total w (nodeviewChange s available).2.values = total w (viewTaken s available) := by
  refine total_collect w (h.tids_nodup (fun w => ?_) fun o ho => onSession_of_viewTaken ho)
  have htotal := assigned_nodeview w s available
  omega

/-- The resend map of a connection reset holds exactly the ops of the session. -/
theorem Inv.total_resetResend (h : Inv s) (w : OpId → Nat) {osd : Int} {session : OpMap}
    (hsession : s.sessions.find? osd = some session) :
    total w (msHandleReset s osd session).2.values = total w session.values := by
  refine total_collect w (h.tids_nodup (fun w => ?_) fun o ho => ?_)
  · have htotal := assigned_reset w hsession
    omega
  · obtain ⟨tid, htid⟩ := OrdMap.exists_find?_of_mem_values ho
    exact ⟨tid, .inl ⟨osd, session, hsession, htid⟩⟩

/-! ## Every step moves ops and loses none -/

/-- The step only moves ops: none is submitted or finished. -/
structure Moved (s t : State) : Prop where
  submitted : t.submitted = s.submitted
  finished : t.finished = s.finished
  held : ∀ w, t.held w = s.held w

/-- A task that goes on with the ops it has moves none. -/
theorem held_of_task {i : Nat} {task task' : Task} {ops : OpId → Op}
    (htask : s.tasks[i]? = some task) (hops : task'.ops = task.ops) (w : OpId → Nat) :
    { s with ops := ops, tasks := s.tasks.set i task' }.held w = s.held w := by
  have hset := running_set w htask task'
  rw [hops] at hset
  show s.assigned w + queued w s.waiting + total w s.hangon + running w (s.tasks.set i task') =
    s.held w
  rw [State.held]
  omega

/-- A step of a running function moves ops. -/
theorem Inv.moved_run (h : Inv s) {i : Nat} {view : TargetView} {relock : Bool}
    (hstep : Step cfg s (.run i view relock) t) : Moved s t := by
  refine ⟨by cases hstep <;> rfl, by cases hstep <;> rfl, fun w => ?_⟩
  cases hstep with
  | calcTarget htask => exact held_of_task htask (by rfl) w
  | recalc htask => exact held_of_task htask (by rfl) w
  | @place _ _ frame o rest htask =>
      have hset := running_set w htask (nextTask frame rest)
      have hassign := assigned_assign w (h.free_tid htask (List.mem_cons_self (a := o)))
      rw [nextTask_ops] at hset
      simp only [Task.ops, total_cons] at hset
      show (s.assign o).assigned w + queued w s.waiting + total w s.hangon +
        running w (s.tasks.set i (nextTask frame rest)) = s.held w
      rw [State.held]
      omega
  | @park _ _ _ frame o rest htask hlock =>
      have hset := running_set w htask (nextTask frame rest)
      rw [nextTask_ops] at hset
      simp only [Task.ops, total_cons] at hset
      show s.assigned w + queued w s.waiting + total w (s.hangon ++ [o]) +
        running w (s.tasks.set i _) = s.held w
      rw [State.held, total_append, total_cons, total_nil]
      omega
  | @replyPark _ _ _ o ptId htask hlock =>
      have hset := running_set w htask .done
      have hpush := queued_pushWaiting w s.waiting ptId o
      simp only [Task.ops, total_cons, total_nil] at hset
      show s.assigned w + queued w (pushWaiting s.waiting ptId o) + total w s.hangon +
        running w (s.tasks.set i _) = s.held w
      rw [State.held]
      omega
  | @retryStart _ _ _ pts left batch htask hlock htake =>
      have hset := running_set w htask (nextTask (.retryErrors pts) batch)
      have hqueued := queued_takeReady w htake
      rw [nextTask_ops] at hset
      simp only [Task.ops, total_nil] at hset
      show s.assigned w + queued w left + total w s.hangon +
        running w (s.tasks.set i _) = s.held w
      rw [State.held]
      omega
  | hangonLock htask => exact held_of_task htask (by rfl) w
  | @scanTake _ _ _ pts iter queue o htask hop hok =>
      have hset := running_set w htask (.hangonScan pts iter (queue ++ [o]))
      have herase := total_eraseIdx w hop
      simp only [Task.ops, total_append, total_cons, total_nil] at hset
      show s.assigned w + queued w s.waiting + total w (s.hangon.eraseIdx iter) +
        running w (s.tasks.set i _) = s.held w
      rw [State.held]
      omega
  | scanKeep htask => exact held_of_task htask (by rfl) w
  | scanEnd htask => exact held_of_task htask (nextTask_ops _ _) w

/-- A node-view change moves ops. -/
theorem Inv.moved_nodeView (h : Inv s) (available : List (BitVec 32)) :
    Moved s ((nodeviewChange s available).1.spawn
      (nextTask .nodeviewChange (nodeviewChange s available).2.values)) := by
  refine ⟨rfl, rfl, fun w => ?_⟩
  have hassigned := assigned_nodeview w s available
  have hresend := h.total_viewResend w available
  show (nodeviewChange s available).1.assigned w + queued w s.waiting + total w s.hangon +
    running w (s.tasks ++ [nextTask .nodeviewChange (nodeviewChange s available).2.values]) = _
  rw [running_append, nextTask_ops, State.held]
  omega

/-- A connection reset moves ops. -/
theorem Inv.moved_reset (h : Inv s) {osd : Int} {session : OpMap}
    (hsession : s.sessions.find? osd = some session) :
    Moved s ((msHandleReset s osd session).1.spawn
      (nextTask .msHandleReset (msHandleReset s osd session).2.values)) := by
  refine ⟨rfl, rfl, fun w => ?_⟩
  have hassigned := assigned_reset w hsession
  have hresend := h.total_resetResend w hsession
  show (msHandleReset s osd session).1.assigned w + queued w s.waiting + total w s.hangon +
    running w (s.tasks ++ [nextTask .msHandleReset (msHandleReset s osd session).2.values]) = _
  rw [running_append, nextTask_ops, State.held]
  omega

/-- A reply either moves the op into the handler, with no tid, or finishes it. -/
theorem handleOsdOpReply_cases (cfg : Config) (s : State) (osd : Int) (session : OpMap) (tid : Nat)
    (o : OpId) (reply : Reply) :
    (∃ task : Task, task.ops = [o] ∧ task.locks = false ∧
        handleOsdOpReply cfg s osd session tid o reply =
          ((s.detach osd session tid o).clearTid o).spawn task) ∨
      handleOsdOpReply cfg s osd session tid o reply =
        { s.detach osd session tid o with finished := Function.update s.finished o true } := by
  unfold handleOsdOpReply
  split_ifs
  · exact .inl ⟨_, rfl, rfl, rfl⟩
  · exact .inl ⟨_, rfl, rfl, rfl⟩
  · exact .inr rfl

/-- An op that a reply takes off its session is on no session. -/
theorem Inv.off_session_of_detach (h : Inv s) {osd : Int} {session : OpMap} {tid : Nat} {o : OpId}
    (hsession : s.sessions.find? osd = some session) (hop : session.find? tid = some o)
    (tid' : Nat) : ¬ (s.detach osd session tid o).OnSession tid' o := by
  intro hon
  have hdetach := assigned_detach (single o) hsession hop
  have hleft := le_assigned (single o) hon
  have hheld := h.held_le_one o
  rw [single_self] at hdetach hleft
  unfold State.held at hheld
  omega

/-! ## The invariant is inductive -/

/-- A step that only moves ops, assigns no tid and puts nothing on a session keeps the
invariant. -/
theorem Inv.of_moved (h : Inv s) (hmoved : Moved s t)
    (htid : ∀ o, (t.ops o).tid = (s.ops o).tid) (hlast : t.lastTid = s.lastTid)
    (hon : ∀ tid o, t.OnSession tid o → s.OnSession tid o) : Inv t where
  started o := by
    rw [hmoved.submitted, hmoved.finished]
    exact h.started o
  once o := by
    rw [hmoved.held, h.once, hmoved.submitted, hmoved.finished]
  key tid o ho := by
    rw [htid]
    exact h.key tid o (hon tid o ho)
  unique o o' := by
    rw [htid, htid]
    exact h.unique o o'
  le o := by
    rw [htid, hlast]
    exact h.le o

/-- Clearing the tid of one op keeps the tids unique. -/
theorem Inv.unique_clear (h : Inv s) {op : Op} (hop : op.tid = 0) (x o o' : OpId)
    (heq : (Function.update s.ops x op o).tid = (Function.update s.ops x op o').tid)
    (hne : (Function.update s.ops x op o).tid ≠ 0) : o = o' := by
  by_cases ho : o = x
  · subst ho
    rw [Function.update_self] at hne
    exact absurd hop hne
  · by_cases ho' : o' = x
    · subst ho'
      rw [Function.update_self, hop] at heq
      exact absurd heq hne
    · rw [Function.update_of_ne ho] at heq hne
      rw [Function.update_of_ne ho'] at heq
      exact h.unique o o' heq hne

/-- Clearing the tid of one op leaves every tid in range. -/
theorem Inv.le_clear (h : Inv s) {op : Op} (hop : op.tid = 0) (x o : OpId) :
    (Function.update s.ops x op o).tid ≤ s.lastTid := by
  by_cases ho : o = x
  · subst ho
    rw [Function.update_self, hop]
    exact Nat.zero_le _
  · rw [Function.update_of_ne ho]
    exact h.le o

/-- Submitting a new op keeps the invariant. -/
theorem Inv.submit (h : Inv s) (pool : Int) (name : Bytes) (onfinish : Bool) :
    Inv { s with
      ops := Function.update s.ops s.submitted { pool := pool, name := name, onfinish := onfinish }
      submitted := s.submitted + 1
      tasks := s.tasks ++ [.submitting .opSubmit s.submitted .calcTarget []] } where
  started o ho := Nat.lt_succ_of_lt (h.started o ho)
  once o := by
    have honce := h.once o
    show s.assigned (single o) + queued (single o) s.waiting + total (single o) s.hangon +
      running (single o) (s.tasks ++ [_]) =
        if o < s.submitted + 1 ∧ s.finished o = false then 1 else 0
    rw [running_append, Task.ops, total_cons, total_nil]
    unfold State.held at honce
    by_cases ho : o = s.submitted
    · subst ho
      have hfinished : s.finished s.submitted = false := by
        rcases hf : s.finished s.submitted
        · rfl
        · exact absurd (h.started _ hf) (Nat.lt_irrefl _)
      rw [single_self, hfinished]
      simp only [Nat.lt_irrefl, false_and, if_false] at honce
      simp only [Nat.lt_succ_self, and_self, if_true]
      omega
    · have hlt : o < s.submitted + 1 ↔ o < s.submitted := by
        rw [Nat.lt_succ_iff_lt_or_eq, or_iff_left ho]
      simp only [single_of_ne (Ne.symm ho), hlt]
      omega
  key tid o hon := by
    have hold : s.OnSession tid o := hon
    have ho : o ≠ s.submitted := by
      intro heq
      subst heq
      exact h.fresh tid hold
    simp only [Function.update_of_ne ho]
    exact h.key tid o hold
  unique o o' heq hne := h.unique_clear rfl s.submitted o o' heq hne
  le o := h.le_clear rfl s.submitted o

/-- The tid an op is assigned under is not zero. -/
theorem submitTid_ne_zero (s : State) (o : OpId) : s.submitTid o ≠ 0 := by
  unfold State.submitTid
  split_ifs <;> omega

/-- Assigning the op that a function works on keeps the invariant. -/
theorem Inv.place (h : Inv s) {i : Nat} {frame : Frame} {o : OpId} {rest : List OpId}
    (htask : s.tasks[i]? = some (.submitting frame o .place rest))
    (hmoved : Moved s { s.assign o with tasks := s.tasks.set i (nextTask frame rest) }) :
    Inv { s.assign o with tasks := s.tasks.set i (nextTask frame rest) } := by
  have hself : ((s.assign o).ops o).tid = s.submitTid o := by simp [State.assign]
  have hother : ∀ x, x ≠ o → (s.assign o).ops x = s.ops x := by
    intro x hx
    simp only [State.assign, Function.update_of_ne hx]
  refine ⟨?_, ?_, ?_, ?_, ?_⟩
  · intro x
    rw [hmoved.submitted, hmoved.finished]
    exact h.started x
  · intro x
    rw [hmoved.held, h.once, hmoved.submitted, hmoved.finished]
  · intro tid x hon
    rcases onSession_of_assign (show (s.assign o).OnSession tid x from hon) with hold | ⟨rfl, rfl⟩
    · have hx : x ≠ o := by
        intro heq
        subst heq
        exact h.off_session htask List.mem_cons_self tid hold
      simp only [hother x hx]
      exact h.key tid x hold
    · exact ⟨hself, submitTid_ne_zero s x⟩
  · intro x y heq hne
    by_cases hx : x = o
    · by_cases hy : y = o
      · rw [hx, hy]
      · subst hx
        simp only [hself, hother y hy] at heq
        exact absurd (h.eq_of_tid_eq_submitTid heq.symm) hy
    · by_cases hy : y = o
      · subst hy
        simp only [hself, hother x hx] at heq
        exact absurd (h.eq_of_tid_eq_submitTid heq) hx
      · simp only [hother x hx] at heq hne
        simp only [hother y hy] at heq
        exact h.unique x y heq hne
  · intro x
    have hlast : s.lastTid ≤ (s.assign o).lastTid ∧ s.submitTid o ≤ (s.assign o).lastTid := by
      have hle := h.le o
      simp only [State.assign, State.submitTid]
      split_ifs <;> omega
    by_cases hx : x = o
    · subst hx
      simp only [hself]
      exact hlast.2
    · simp only [hother x hx]
      exact (h.le x).trans hlast.1

/-- A reply to an op keeps the invariant. -/
theorem Inv.reply (h : Inv s) {osd : Int} {session : OpMap} {tid : Nat} {o : OpId} (reply : Reply)
    (hsession : s.sessions.find? osd = some session) (hop : session.find? tid = some o) :
    Inv (handleOsdOpReply cfg s osd session tid o reply) := by
  have hdetach := fun w => assigned_detach w hsession hop
  have hoff := h.off_session_of_detach hsession hop
  rcases handleOsdOpReply_cases cfg s osd session tid o reply with ⟨task, hops, -, heq⟩ | heq
  · rw [heq]
    refine ⟨h.started, fun x => ?_, ?_, h.unique_clear rfl o, h.le_clear rfl o⟩
    · have hx := hdetach (single x)
      show (s.detach osd session tid o).assigned (single x) + queued (single x) s.waiting +
        total (single x) s.hangon + running (single x) (s.tasks ++ [task]) =
          if x < s.submitted ∧ s.finished x = false then 1 else 0
      rw [running_append, hops, total_cons, total_nil, ← h.once x, State.held]
      omega
    · intro tid' x hon
      have hx : x ≠ o := by
        intro heq
        subst heq
        exact hoff tid' hon
      simp only [State.spawn, State.clearTid, Function.update_of_ne hx]
      exact h.key tid' x (onSession_of_detach (o := o) hsession hon)
  · rw [heq]
    have honce := h.once o
    have hin : single o o ≤ s.assigned (single o) :=
      le_assigned _ (.inl ⟨osd, session, hsession, hop⟩)
    have hlive : o < s.submitted ∧ s.finished o = false := by
      by_contra hdead
      rw [if_neg hdead] at honce
      rw [single_self] at hin
      unfold State.held at honce
      omega
    refine ⟨?_, ?_, ?_, h.unique, h.le⟩
    · intro x hx
      by_cases hxo : x = o
      · exact hxo ▸ hlive.1
      · simp only [Function.update_of_ne hxo] at hx
        exact h.started x hx
    · intro x
      have hx := hdetach (single x)
      show (s.detach osd session tid o).assigned (single x) + queued (single x) s.waiting +
        total (single x) s.hangon + running (single x) s.tasks =
          if x < s.submitted ∧ Function.update s.finished o true x = false then 1 else 0
      by_cases hxo : x = o
      · subst hxo
        rw [if_pos hlive] at honce
        rw [single_self] at hx
        unfold State.held at honce
        simp only [Function.update_self, Bool.true_eq_false, and_false, if_false]
        omega
      · rw [single_of_ne (Ne.symm hxo)] at hx
        simp only [Function.update_of_ne hxo]
        rw [← h.once x, State.held]
        omega
    · intro tid' x hon
      exact h.key tid' x (onSession_of_detach (o := o) hsession hon)

/-- Reading the target of an op changes nothing but the target. -/
theorem calcPtTarget_keeps {ptOk : Pt → Bool} {op op' : Op} {view : TargetView} {ptStat : Bool}
    (h : calcPtTarget cfg ptOk op view = (op', ptStat)) :
    op'.tid = op.tid ∧ op'.onfinish = op.onfinish ∧ op'.pool = op.pool := by
  unfold calcPtTarget at h
  split_ifs at h
  · cases h
    exact ⟨rfl, rfl, rfl⟩
  · cases h
    exact ⟨rfl, rfl, rfl⟩

/-- A step of a running function keeps the invariant. -/
theorem Inv.run (h : Inv s) {i : Nat} {view : TargetView} {relock : Bool}
    (hstep : Step cfg s (.run i view relock) t) : Inv t := by
  have hmoved := h.moved_run hstep
  cases hstep with
  | @calcTarget _ _ _ _ o _ op _ htask hcalc =>
      refine h.of_moved hmoved (fun x => ?_) rfl fun _ _ => id
      by_cases hx : x = o
      · subst hx
        simp only [Function.update_self]
        exact (calcPtTarget_keeps hcalc).1
      · simp only [Function.update_of_ne hx]
  | place htask => exact h.place htask hmoved
  | recalc => exact h.of_moved hmoved (fun _ => rfl) rfl fun _ _ => id
  | park => exact h.of_moved hmoved (fun _ => rfl) rfl fun _ _ => id
  | replyPark => exact h.of_moved hmoved (fun _ => rfl) rfl fun _ _ => id
  | retryStart => exact h.of_moved hmoved (fun _ => rfl) rfl fun _ _ => id
  | hangonLock => exact h.of_moved hmoved (fun _ => rfl) rfl fun _ _ => id
  | scanTake => exact h.of_moved hmoved (fun _ => rfl) rfl fun _ _ => id
  | scanKeep => exact h.of_moved hmoved (fun _ => rfl) rfl fun _ _ => id
  | scanEnd => exact h.of_moved hmoved (fun _ => rfl) rfl fun _ _ => id

/-- Every step keeps the invariant. -/
theorem Inv.step (h : Inv s) (hstep : Step cfg s event t) : Inv t := by
  cases event with
  | run i view relock => exact h.run hstep
  | submit pool name onfinish =>
      cases hstep with
      | submit => exact h.submit pool name onfinish
  | reply osd tid reply =>
      cases hstep with
      | replyIgnored => exact h
      | reply hsession hop => exact h.reply reply hsession hop
  | ptChange pt ok =>
      cases hstep with
      | ptChange => exact h.of_moved ⟨rfl, rfl, fun _ => rfl⟩ (fun _ => rfl) rfl fun _ _ => id
  | notify entries =>
      cases hstep with
      | notify => exact h.of_moved ⟨rfl, rfl, fun _ => rfl⟩ (fun _ => rfl) rfl fun _ _ => id
  | deliver j =>
      cases hstep with
      | deliverNothing =>
          exact h.of_moved ⟨rfl, rfl, fun _ => rfl⟩ (fun _ => rfl) rfl fun _ _ => id
      | @deliver _ entries hnotice =>
          refine h.of_moved ⟨rfl, rfl, fun w => ?_⟩ (fun _ => rfl) rfl fun _ _ => id
          have happend := running_append w s.tasks (.retryStart (ccmPtChangeNotify entries))
          rw [Task.ops, total_nil] at happend
          simp only [State.held, State.assigned]
          omega
  | nodeView available =>
      cases hstep with
      | nodeView hview =>
          cases hview
          exact h.of_moved (h.moved_nodeView available) (fun _ => rfl) rfl
            fun _ _ => onSession_of_nodeview
  | reset osd =>
      cases hstep with
      | @reset _ session _ _ hsession hgc hreset =>
          cases hreset
          exact h.of_moved (h.moved_reset hsession) (fun _ => rfl) rfl
            fun _ _ => @onSession_of_reset s osd session _ _
      | resetOther => exact h

/-- The invariant holds in every reachable state. -/
theorem inv_of_reach {ptOk : Pt → Bool} (h : Reach (step cfg) anyEvent (init ptOk) s) : Inv s :=
  h.invariant Inv (inv_init ptOk) fun _ _ _ hinv _ hstep => hinv.step (step_cases hstep)

/-! ## Exactly one place -/


/-- In every run of submissions, replies, partition notifications, node-view changes and
connection resets, in any order, an unfinished op is in exactly one place, once. -/
theorem unfinished_op_in_one_place (cfg : Config) (ptOk : Pt → Bool) {s : State}
    (h : Reach (step cfg) anyEvent (init ptOk) s) {o : OpId} (hsubmitted : o < s.submitted)
    (hunfinished : s.finished o = false) : s.places.count o = 1 := by
  have honce := (inv_of_reach h).once o
  rw [if_pos ⟨hsubmitted, hunfinished⟩, held_eq_total, total_single_eq_count] at honce
  exact honce

/-- Pool 1 is accelerated by cluster 1. -/
def onePool : Config := ⟨fun pool => if pool = 1 then some 1 else none⟩

/-- An object of an RBD image, long enough to be accelerated. -/
def imageObject : Bytes := ascii "rbd_data.10226b8b4567.0000000000000001"

/-- Partition 3, served by port 0 of node 2 of cluster 1. -/
def nodeTwo : TargetView where
  osd := 2 ^ 20 + 2 ^ 16 + 2 * 16
  targetPool := 1
  ptId := 3

/-- An op that node 2 answers with `-EBUSY` is in the queue of its partition and nowhere else. -/
theorem places_after_ebusy :
    ∃ s, Reach (step onePool) anyEvent (init fun _ => true) s ∧ s.waiting.find? 3 = some [0] ∧
      s.places.count 0 = 1 := by
  have h : Reach (step onePool) anyEvent (init fun _ => true) _ := Reach.of_run
    [.submit 1 imageObject true, .run 0 nodeTwo false, .run 0 nodeTwo false,
      .reply nodeTwo.osd 1 ⟨-16, false, imageObject, 3⟩, .run 1 nodeTwo false] rfl
  exact ⟨_, h, by decide, unfinished_op_in_one_place onePool _ h (by decide) (by decide)⟩

end GlobalCacheAdaptor.ClientAdaptor
