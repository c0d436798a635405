import GlobalCacheAdaptor.ClientAdaptor.NodeId
import GlobalCacheAdaptor.Lib.OrdMap
import GlobalCacheAdaptor.Lib.Run

/-!
# The patched Objecter

The retry machinery of `Objecter` as a step function. A thread inside one of its functions is a
`Task`; a step is a section under one lock, the read of a target and partition status, or the read
of one status while `retrylock` is held. Ceph's session bookkeeping (`_session_op_assign`,
`_session_op_remove`, `close_session`, `_send_op_account`) is taken as documented. `step_cases`
lists everything a step can do.
-/

namespace GlobalCacheAdaptor.ClientAdaptor

open Lib

/-! ## Ops and their targets -/

/-- An `Objecter::Op`, as far as the retry machinery reads it. -/
structure Op where
  /-- `target.base_oloc.pool`. -/
  pool : Int
  /-- `target.base_oid.name`. -/
  name : Bytes
  onfinish : Bool
  tid : Nat := 0
  /-- `target.target_oloc.pool`. -/
  targetPool : Int := 0
  /-- `target.actual_pgid.pgid.m_seed`. -/
  ptId : Nat := 0
  /-- `target.osd`. -/
  osd : Int := -1

/-- The identity of an `Op *`. -/
abbrev OpId := Nat

/-- The ops of a session, by tid. -/
abbrev OpMap := OrdMap Nat OpId

/-- A partition of a cluster. -/
structure Pt where
  cluster : Nat
  ptId : Nat
  deriving DecidableEq, Repr

/-- `acc_pool_set`: the cluster of each accelerated pool. -/
structure Config where
  accPoolSet : Int → Option Nat

/-- `get_cluster_id`, which aborts on a pool that is not accelerated. -/
def Config.clusterId (cfg : Config) (pool : Int) : Nat := (cfg.accPoolSet pool).getD 0

/-- The partition recorded in an op. -/
def Config.pt (cfg : Config) (op : Op) : Pt := ⟨cfg.clusterId op.pool, op.ptId⟩

/-- `ClientAdaptorMsg::filter_msg`. -/
def filterMsg (name : Bytes) : Bool := 27 ≤ name.length && name.take 8 = ascii "rbd_data"

/-- What `_calc_pt_target` finds: the partition and node of an accelerated object, or the
placement of any other one. -/
structure TargetView where
  osd : Int
  targetPool : Int
  ptId : Nat

/-- `Objecter::_calc_pt_target`: the op with its new target, and `pt_status`. -/
def calcPtTarget (cfg : Config) (ptOk : Pt → Bool) (op : Op) (view : TargetView) : Op × Bool :=
  if (cfg.accPoolSet op.pool).isSome && filterMsg op.name then
    -- the target is recorded whatever the status of the partition is
    let op := { op with targetPool := op.pool, ptId := view.ptId, osd := view.osd }
    (op, ptOk (cfg.pt op))
  else
    ({ op with targetPool := view.targetPool, ptId := view.ptId, osd := view.osd }, true)

/-- `errort_filter`: the error codes after which an op is resubmitted. -/
def errortFilter (returnCode : Int) : Bool :=
  returnCode ∈ ([-4, -16, -26, -28, -35, -11, -62, -70, -85, -100, -102, -104, -105, -110, -112,
    -114, -123, -125] : List Int)

/-- `-EAGAIN`. -/
def eagain : Int := -11

/-! ## The state -/

/-- The caller of `_op_submit`, and what it has still to do after its batch. -/
inductive Frame where
  | opSubmit
  | handleOsdOpReply
  | msHandleReset
  | nodeviewChange
  /-- The first loop of `retry_op_submit`; the scan of the hung ops follows. -/
  | retryErrors (pts : List Pt)
  /-- The last loop of `retry_op_submit`. -/
  | retryHangon (pts : List Pt)
  deriving DecidableEq, Repr

/-- The next step of `_op_submit` on an op: read its target and status, park it, or assign it. -/
inductive SubmitPc where
  | calcTarget | park | place
  deriving DecidableEq, Repr

/-- A thread inside the Objecter. -/
inductive Task where
  /-- In `_op_submit` on `op`, with `rest` still to be submitted by the same caller. -/
  | submitting (frame : Frame) (op : OpId) (pc : SubmitPc) (rest : List OpId)
  /-- In `handle_osd_op_reply`, about to push `op` on the retry queue of a partition. -/
  | replyPark (op : OpId) (ptId : Nat)
  /-- In `retry_op_submit`, before its first section under `retrylock`. -/
  | retryStart (pts : List Pt)
  /-- In `retry_op_submit`, before its second section. -/
  | hangonLock (pts : List Pt)
  /-- In the second section, at position `iter` of the hung ops. -/
  | hangonScan (pts : List Pt) (iter : Nat) (queue : List OpId)
  | done
  deriving DecidableEq, Repr

/-- The ops a task holds in its locals. -/
def Task.ops : Task → List OpId
  | .submitting _ op _ rest => op :: rest
  | .replyPark op _ => [op]
  | .hangonScan _ _ queue => queue
  | .retryStart _ | .hangonLock _ | .done => []

/-- The task holds `retrylock`. -/
def Task.locks : Task → Bool
  | .hangonScan _ _ _ => true
  | .submitting _ _ _ _ | .replyPark _ _ | .retryStart _ | .hangonLock _ | .done => false

/-- The caller submits the next op of its batch, or goes on after it. -/
def nextTask (frame : Frame) : List OpId → Task
  | op :: rest => .submitting frame op .calcTarget rest
  | [] =>
      match frame with
      | .retryErrors pts => .hangonLock pts
      | _ => .done

/-- The Objecter. Op ids below `submitted` are in use. -/
structure State where
  ops : OpId → Op
  submitted : Nat
  finished : OpId → Bool
  sessions : OrdMap Int OpMap
  homeless : OpMap
  /-- `op_waiting_for_retry`. -/
  waiting : OrdMap Nat (List OpId)
  /-- `hangon_retry_submit_ops`. -/
  hangon : List OpId
  lastTid : Nat
  numInFlight : Int
  /-- The partitions that are `CCM_PT_STATE_OK`. -/
  ptOk : Pt → Bool
  /-- Partition change notifications not yet delivered: the entries with their state. -/
  notices : List (List (Pt × Bool))
  tasks : List Task

/-- The state before the first op, with any partition states. -/
def init (ptOk : Pt → Bool) : State where
  ops := fun _ => { pool := 0, name := [], onfinish := false }
  submitted := 0
  finished := fun _ => false
  sessions := .empty
  homeless := .empty
  waiting := .empty
  hangon := []
  lastTid := 0
  numInFlight := 0
  ptOk := ptOk
  notices := []
  tasks := []

/-- No thread holds `retrylock`. -/
def State.lockFree (s : State) : Bool := s.tasks.all fun task => !task.locks

/-! ## The functions -/

/-- 1 for an op with `onfinish`, the amount it counts in `num_in_flight`. -/
def State.flight (s : State) (o : OpId) : Nat := if (s.ops o).onfinish then 1 else 0

/-- The tid an op is assigned under: its own, or the next one if it has none. -/
def State.submitTid (s : State) (o : OpId) : Nat :=
  if (s.ops o).tid = 0 then s.lastTid + 1 else (s.ops o).tid

/-- The ops of the session of a node, opening it if it is not there. -/
def State.getSession (s : State) (osd : Int) : OpMap := (s.sessions.find? osd).getD .empty

/-- The end of `_op_submit`: `_send_op_account`, a tid if the op has none, and
`_session_op_assign`. A negative `osd` selects the homeless session. -/
def State.assign (s : State) (o : OpId) : State :=
  let op := s.ops o
  let tid := s.submitTid o
  { s with
    ops := Function.update s.ops o { op with tid := tid }
    lastTid := if op.tid = 0 then s.lastTid + 1 else s.lastTid
    numInFlight := s.numInFlight + s.flight o
    homeless := if op.osd < 0 then s.homeless.insert tid o else s.homeless
    sessions :=
      if op.osd < 0 then s.sessions
      else s.sessions.insert op.osd ((s.getSession op.osd).insert tid o) }

/-- The first section of `retry_op_submit`: take the queues of the ready partitions, in the order
of the list. -/
def takeReady : List Nat → OrdMap Nat (List OpId) → OrdMap Nat (List OpId) × List OpId
  | [], waiting => (waiting, [])
  | pt :: pts, waiting =>
      match waiting.find? pt with
      | some queue =>
          match takeReady pts (waiting.erase pt) with
          | (left, batch) => (left, queue ++ batch)
      | none => takeReady pts waiting

/-- The push of `handle_osd_op_reply`: at the end of the queue of the partition, or as a new
queue. -/
def pushWaiting (waiting : OrdMap Nat (List OpId)) (ptId : Nat) (o : OpId) :
    OrdMap Nat (List OpId) :=
  match waiting.find? ptId with
  | some queue => waiting.insert ptId (queue ++ [o])
  | none => waiting.insert ptId [o]

/-- `CcmPtChangeNotify`: the partitions of the entries that are OK. -/
def ccmPtChangeNotify (entries : List (Pt × Bool)) : List Pt :=
  (entries.filter (·.2)).map (·.1)

/-- The resend map of a handler: each op under its own tid. -/
def collect (s : State) (ids : List OpId) : OpMap :=
  ids.foldl (fun resend o => resend.insert (s.ops o).tid o) .empty

/-- The test of the node-view handler for a session it closes. -/
def viewDead (available : List (BitVec 32)) (osd : Int) : Bool :=
  isGcOsd osd && viewNode osd ∉ available

/-- The ops `nodeview_change_retry_op_submit` takes off sessions: all ops of the sessions it
closes, then the homeless ops on RBD data objects. Each op is read from its map node right after
the node was erased; the model reads what the node held. -/
def viewTaken (s : State) (available : List (BitVec 32)) : List OpId :=
  (s.sessions.filter fun e => viewDead available e.1).entries.flatMap (fun e => e.2.values) ++
    (s.homeless.filter fun e => filterMsg (s.ops e.2).name).values

/-- `nodeview_change_retry_op_submit` under `rwlock`: the state after it and the resend map. -/
def nodeviewChange (s : State) (available : List (BitVec 32)) : State × OpMap :=
  ({ s with
      sessions := s.sessions.filter fun e => !viewDead available e.1
      homeless := s.homeless.filter fun e => !filterMsg (s.ops e.2).name },
    collect s (viewTaken s available))

/-- The resend branch of `ms_handle_reset` on a session: it is closed, and every op on it is taken
off with its share of `num_in_flight`. -/
def msHandleReset (s : State) (osd : Int) (session : OpMap) : State × OpMap :=
  let resend := collect s session.values
  ({ s with
      sessions := s.sessions.erase osd
      numInFlight := s.numInFlight - total s.flight resend.values },
    resend)

/-- Take an op off its session for a reply: `num_in_flight--` and `_session_op_remove`. -/
def State.detach (s : State) (osd : Int) (session : OpMap) (tid : Nat) (o : OpId) : State :=
  { s with
    sessions := s.sessions.insert osd (session.erase tid)
    numInFlight := s.numInFlight - s.flight o }

/-- The op starts over with no tid. -/
def State.clearTid (s : State) (o : OpId) : State :=
  { s with ops := Function.update s.ops o { s.ops o with tid := 0 } }

/-- A thread enters the Objecter. -/
def State.spawn (s : State) (task : Task) : State := { s with tasks := s.tasks ++ [task] }

/-! ## Events and steps -/

/-- A reply from a node: its result, whether it is a redirect, and the object and partition it
names. -/
structure Reply where
  rc : Int
  redirect : Bool
  name : Bytes
  ptId : Nat

/-- One scheduling choice. -/
inductive Event where
  /-- A client submits a new op. -/
  | submit (pool : Int) (name : Bytes) (onfinish : Bool)
  /-- Task `i` makes its next step. A read of the target finds `view`; `relock` says that the
  osdmap changed while `rwlock` was dropped, so that the target is read again. -/
  | run (i : Nat) (view : TargetView) (relock : Bool)
  | reply (osd : Int) (tid : Nat) (reply : Reply)
  | ptChange (pt : Pt) (ok : Bool)
  /-- The cluster manager sends any further notification. -/
  | notify (entries : List (Pt × Bool))
  /-- Notification `j` is delivered. -/
  | deliver (j : Nat)
  | nodeView (available : List (BitVec 32))
  | reset (osd : Int)

/-- The op is one that `handle_osd_op_reply` queues for a retry. -/
def retryable (cfg : Config) (op : Op) (reply : Reply) : Bool :=
  (cfg.accPoolSet op.targetPool).isSome && errortFilter reply.rc &&
    decide (ascii "rbd_data" <:+: reply.name)

/-- `handle_osd_op_reply` for an op that is on its session. -/
def handleOsdOpReply (cfg : Config) (s : State) (osd : Int) (session : OpMap) (tid : Nat) (o : OpId)
    (reply : Reply) : State :=
  let detached := s.detach osd session tid o
  -- a redirect and `-EAGAIN` go back to `_op_submit` at once, other retryable errors wait
  if reply.redirect ∨ reply.rc = eagain then
    (detached.clearTid o).spawn (.submitting .handleOsdOpReply o .calcTarget [])
  else if retryable cfg (s.ops o) reply then
    (detached.clearTid o).spawn (.replyPark o reply.ptId)
  else { detached with finished := Function.update s.finished o true }

/-- One step of a task; `none` while it has to wait for `retrylock`. -/
def runTask (cfg : Config) (s : State) (i : Nat) (view : TargetView) (relock : Bool) :
    Task → Option State
  | .submitting frame o .calcTarget rest =>
      match calcPtTarget cfg s.ptOk (s.ops o) view with
      | (op, ptStat) =>
          some { s with
            ops := Function.update s.ops o op
            tasks := s.tasks.set i
              (.submitting frame o (if ptStat then .place else .park) rest) }
  | .submitting frame o .place rest =>
      -- the target is read again if the osdmap changed while `rwlock` was retaken exclusively
      if relock then some { s with tasks := s.tasks.set i (.submitting frame o .calcTarget rest) }
      else some { s.assign o with tasks := s.tasks.set i (nextTask frame rest) }
  | .submitting frame o .park rest =>
      if s.lockFree then
        some { s with
          hangon := s.hangon ++ [o]
          tasks := s.tasks.set i (nextTask frame rest) }
      else none
  | .replyPark o ptId =>
      if s.lockFree then
        some { s with
          waiting := pushWaiting s.waiting ptId o
          tasks := s.tasks.set i .done }
      else none
  | .retryStart pts =>
      if s.lockFree then
        match takeReady (pts.map Pt.ptId) s.waiting with
        | (waiting, batch) =>
            some { s with
              waiting := waiting
              tasks := s.tasks.set i (nextTask (.retryErrors pts) batch) }
      else none
  | .hangonLock pts =>
      if s.lockFree then some { s with tasks := s.tasks.set i (.hangonScan pts 0 []) } else none
  | .hangonScan pts iter queue =>
      match s.hangon[iter]? with
      | some o =>
          if s.ptOk (cfg.pt (s.ops o)) then
            -- `erase(iter)` leaves `iter` at the element behind the erased one
            some { s with
              hangon := s.hangon.eraseIdx iter
              tasks := s.tasks.set i (.hangonScan pts iter (queue ++ [o])) }
          else some { s with tasks := s.tasks.set i (.hangonScan pts (iter + 1) queue) }
      | none => some { s with tasks := s.tasks.set i (nextTask (.retryHangon pts) queue) }
  | .done => none

/-- One step of the system. -/
def step (cfg : Config) (s : State) : Event → Option State
  | .submit pool name onfinish =>
      some { s with
        ops := Function.update s.ops s.submitted
          { pool := pool, name := name, onfinish := onfinish }
        submitted := s.submitted + 1
        tasks := s.tasks ++ [.submitting .opSubmit s.submitted .calcTarget []] }
  | .run i view relock =>
      match s.tasks[i]? with
      | some task => runTask cfg s i view relock task
      | none => none
  | .reply osd tid reply =>
      match s.sessions.find? osd with
      | none => none
      | some session =>
          match session.find? tid with
          | none => some s
          | some o => some (handleOsdOpReply cfg s osd session tid o reply)
  | .ptChange pt ok =>
      -- a notification is sent only when the partition was not OK before
      some { s with
        ptOk := Function.update s.ptOk pt ok
        notices := if ok && !s.ptOk pt then s.notices ++ [[(pt, true)]] else s.notices }
  | .notify entries => some { s with notices := s.notices ++ [entries] }
  | .deliver j =>
      match s.notices[j]? with
      | none => none
      | some entries =>
          let delivered := { s with notices := s.notices.eraseIdx j }
          match ccmPtChangeNotify entries with
          | [] => some delivered
          | pts => some (delivered.spawn (.retryStart pts))
  | .nodeView available =>
      match nodeviewChange s available with
      | (s', resend) => some (s'.spawn (nextTask .nodeviewChange resend.values))
  | .reset osd =>
      match s.sessions.find? osd with
      | none => none
      | some session =>
          if checkOsdValue osd then
            match msHandleReset s osd session with
            | (s', resend) => some (s'.spawn (nextTask .msHandleReset resend.values))
          else some s

/-! ## Inversion of a step -/

/-- Everything one step can do. -/
inductive Step (cfg : Config) (s : State) : Event → State → Prop where
  | submit {pool : Int} {name : Bytes} {onfinish : Bool} :
      Step cfg s (.submit pool name onfinish)
        { s with
          ops := Function.update s.ops s.submitted
            { pool := pool, name := name, onfinish := onfinish }
          submitted := s.submitted + 1
          tasks := s.tasks ++ [.submitting .opSubmit s.submitted .calcTarget []] }
  | calcTarget {i : Nat} {view : TargetView} {relock : Bool} {frame : Frame} {o : OpId}
      {rest : List OpId} {op : Op} {ptStat : Bool}
      (htask : s.tasks[i]? = some (.submitting frame o .calcTarget rest))
      (hcalc : calcPtTarget cfg s.ptOk (s.ops o) view = (op, ptStat)) :
      Step cfg s (.run i view relock)
        { s with
          ops := Function.update s.ops o op
          tasks := s.tasks.set i (.submitting frame o (if ptStat then .place else .park) rest) }
  | recalc {i : Nat} {view : TargetView} {frame : Frame} {o : OpId} {rest : List OpId}
      (htask : s.tasks[i]? = some (.submitting frame o .place rest)) :
      Step cfg s (.run i view true)
        { s with tasks := s.tasks.set i (.submitting frame o .calcTarget rest) }
  | place {i : Nat} {view : TargetView} {frame : Frame} {o : OpId} {rest : List OpId}
      (htask : s.tasks[i]? = some (.submitting frame o .place rest)) :
      Step cfg s (.run i view false)
        { s.assign o with tasks := s.tasks.set i (nextTask frame rest) }
  | park {i : Nat} {view : TargetView} {relock : Bool} {frame : Frame} {o : OpId}
      {rest : List OpId} (htask : s.tasks[i]? = some (.submitting frame o .park rest))
      (hlock : s.lockFree = true) :
      Step cfg s (.run i view relock)
        { s with
          hangon := s.hangon ++ [o]
          tasks := s.tasks.set i (nextTask frame rest) }
  | replyPark {i : Nat} {view : TargetView} {relock : Bool} {o : OpId} {ptId : Nat}
      (htask : s.tasks[i]? = some (.replyPark o ptId)) (hlock : s.lockFree = true) :
      Step cfg s (.run i view relock)
        { s with
          waiting := pushWaiting s.waiting ptId o
          tasks := s.tasks.set i .done }
  | retryStart {i : Nat} {view : TargetView} {relock : Bool} {pts : List Pt}
      {left : OrdMap Nat (List OpId)} {batch : List OpId}
      (htask : s.tasks[i]? = some (.retryStart pts)) (hlock : s.lockFree = true)
      (htake : takeReady (pts.map Pt.ptId) s.waiting = (left, batch)) :
      Step cfg s (.run i view relock)
        { s with
          waiting := left
          tasks := s.tasks.set i (nextTask (.retryErrors pts) batch) }
  | hangonLock {i : Nat} {view : TargetView} {relock : Bool} {pts : List Pt}
      (htask : s.tasks[i]? = some (.hangonLock pts)) (hlock : s.lockFree = true) :
      Step cfg s (.run i view relock)
        { s with tasks := s.tasks.set i (.hangonScan pts 0 []) }
  | scanTake {i : Nat} {view : TargetView} {relock : Bool} {pts : List Pt} {iter : Nat}
      {queue : List OpId} {o : OpId} (htask : s.tasks[i]? = some (.hangonScan pts iter queue))
      (hop : s.hangon[iter]? = some o) (hok : s.ptOk (cfg.pt (s.ops o)) = true) :
      Step cfg s (.run i view relock)
        { s with
          hangon := s.hangon.eraseIdx iter
          tasks := s.tasks.set i (.hangonScan pts iter (queue ++ [o])) }
  | scanKeep {i : Nat} {view : TargetView} {relock : Bool} {pts : List Pt} {iter : Nat}
      {queue : List OpId} {o : OpId} (htask : s.tasks[i]? = some (.hangonScan pts iter queue))
      (hop : s.hangon[iter]? = some o) (hok : s.ptOk (cfg.pt (s.ops o)) = false) :
      Step cfg s (.run i view relock)
        { s with tasks := s.tasks.set i (.hangonScan pts (iter + 1) queue) }
  | scanEnd {i : Nat} {view : TargetView} {relock : Bool} {pts : List Pt} {iter : Nat}
      {queue : List OpId} (htask : s.tasks[i]? = some (.hangonScan pts iter queue))
      (hop : s.hangon[iter]? = none) :
      Step cfg s (.run i view relock)
        { s with tasks := s.tasks.set i (nextTask (.retryHangon pts) queue) }
  | replyIgnored {osd : Int} {tid : Nat} {reply : Reply} : Step cfg s (.reply osd tid reply) s
  | reply {osd : Int} {tid : Nat} {reply : Reply} {session : OpMap} {o : OpId}
      (hsession : s.sessions.find? osd = some session) (hop : session.find? tid = some o) :
      Step cfg s (.reply osd tid reply) (handleOsdOpReply cfg s osd session tid o reply)
  | ptChange {pt : Pt} {ok : Bool} :
      Step cfg s (.ptChange pt ok)
        { s with
          ptOk := Function.update s.ptOk pt ok
          notices := if ok && !s.ptOk pt then s.notices ++ [[(pt, true)]] else s.notices }
  | notify {entries : List (Pt × Bool)} :
      Step cfg s (.notify entries) { s with notices := s.notices ++ [entries] }
  | deliverNothing {j : Nat} {entries : List (Pt × Bool)} (hnotice : s.notices[j]? = some entries)
      (hpts : ccmPtChangeNotify entries = []) :
      Step cfg s (.deliver j) { s with notices := s.notices.eraseIdx j }
  | deliver {j : Nat} {entries : List (Pt × Bool)} (hnotice : s.notices[j]? = some entries) :
      Step cfg s (.deliver j)
        { s with
          notices := s.notices.eraseIdx j
          tasks := s.tasks ++ [.retryStart (ccmPtChangeNotify entries)] }
  | nodeView {available : List (BitVec 32)} {s' : State} {resend : OpMap}
      (hview : nodeviewChange s available = (s', resend)) :
      Step cfg s (.nodeView available) (s'.spawn (nextTask .nodeviewChange resend.values))
  | reset {osd : Int} {session : OpMap} {s' : State} {resend : OpMap}
      (hsession : s.sessions.find? osd = some session) (hgc : checkOsdValue osd = true)
      (hreset : msHandleReset s osd session = (s', resend)) :
      Step cfg s (.reset osd) (s'.spawn (nextTask .msHandleReset resend.values))
  | resetOther {osd : Int} : Step cfg s (.reset osd) s

/-- Every step of a task is one of the listed ones. -/
theorem runTask_cases {cfg : Config} {s t : State} {i : Nat} {view : TargetView} {relock : Bool}
    {task : Task} (htask : s.tasks[i]? = some task)
    (h : runTask cfg s i view relock task = some t) : Step cfg s (.run i view relock) t := by
  cases task with
  | submitting frame o pc rest =>
      cases pc with
      | calcTarget =>
          simp only [runTask, Option.some.injEq] at h
          subst h
          exact .calcTarget htask rfl
      | place =>
          simp only [runTask] at h
          split_ifs at h with hrelock
          · cases h
            rw [hrelock]
            exact .recalc htask
          · cases h
            rw [Bool.eq_false_iff.mpr hrelock]
            exact .place htask
      | park =>
          simp only [runTask] at h
          split_ifs at h with hlock
          cases h
          exact .park htask hlock
  | replyPark o ptId =>
      simp only [runTask] at h
      split_ifs at h with hlock
      cases h
      exact .replyPark htask hlock
  | retryStart pts =>
      simp only [runTask] at h
      split_ifs at h with hlock
      cases h
      exact .retryStart htask hlock rfl
  | hangonLock pts =>
      simp only [runTask] at h
      split_ifs at h with hlock
      cases h
      exact .hangonLock htask hlock
  | hangonScan pts iter queue =>
      simp only [runTask] at h
      cases hop : s.hangon[iter]? with
      | none =>
          simp only [hop, Option.some.injEq] at h
          subst h
          exact .scanEnd htask hop
      | some o =>
          simp only [hop] at h
          split_ifs at h with hok
          · cases h
            exact .scanTake htask hop hok
          · cases h
            exact .scanKeep htask hop (by simpa using hok)
  | done => cases h

/-- Every step is one of the listed ones. -/
theorem step_cases {cfg : Config} {s t : State} {event : Event} (h : step cfg s event = some t) :
    Step cfg s event t := by
  cases event with
  | submit pool name onfinish =>
      cases h
      exact .submit
  | run i view relock =>
      simp only [step] at h
      cases htask : s.tasks[i]? with
      | none => simp [htask] at h
      | some task =>
          simp only [htask] at h
          exact runTask_cases htask h
  | reply osd tid reply =>
      simp only [step] at h
      cases hsession : s.sessions.find? osd with
      | none => simp [hsession] at h
      | some session =>
          simp only [hsession] at h
          cases hop : session.find? tid with
          | none =>
              simp only [hop, Option.some.injEq] at h
              subst h
              exact .replyIgnored
          | some o =>
              simp only [hop, Option.some.injEq] at h
              subst h
              exact .reply hsession hop
  | ptChange pt ok =>
      cases h
      exact .ptChange
  | notify entries =>
      cases h
      exact .notify
  | deliver j =>
      simp only [step] at h
      cases hnotice : s.notices[j]? with
      | none => simp [hnotice] at h
      | some entries =>
          simp only [hnotice] at h
          cases hpts : ccmPtChangeNotify entries with
          | nil =>
              simp only [hpts, Option.some.injEq] at h
              subst h
              exact .deliverNothing hnotice hpts
          | cons pt pts =>
              simp only [hpts, Option.some.injEq] at h
              subst h
              rw [← hpts]
              exact .deliver hnotice
  | nodeView available =>
      simp only [step, Option.some.injEq] at h
      subst h
      exact .nodeView rfl
  | reset osd =>
      simp only [step] at h
      cases hsession : s.sessions.find? osd with
      | none => simp [hsession] at h
      | some session =>
          simp only [hsession] at h
          split_ifs at h with hgc
          · cases h
            exact .reset hsession hgc rfl
          · cases h
            exact .resetOther

end GlobalCacheAdaptor.ClientAdaptor
