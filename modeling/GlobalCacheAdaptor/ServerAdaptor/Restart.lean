import GlobalCacheAdaptor.ServerAdaptor.Admission

/-!
# A second `OSA_Init`

`OSA_Finish` deletes the network module and the next `OSA_Init` makes another one, but
`g_networkModule` is set by the first `CreateWorkThread` of the process and by nothing else. The
workers of a module count requests on the module itself, and `FinishCacheOps` gives the counts back
through `g_networkModule`. So a module that is not where the first one was never gets a count back:
it lets a bounded number of requests through `GetlwtCas` (`passed_after_restart`), and once it has
stopped it cannot be finished either (`starved_never_finishes`).

A write to a module that was deleted is taken to change nothing of the one in use, and every
`OSA_Init` is taken to start the same number of workers.
-/

namespace GlobalCacheAdaptor.ServerAdaptor.Restart

open Lib
open Throttle (Stage Phase Req startCalls newReq accessReq)

/-! ## The process -/

/-- The process. `workers` is what each worker of the module in use is busy with, and `sent` holds
the requests that were handed to the back end, also by modules that are gone. -/
structure State where
  /-- `g_ptrNetwork`: the address of the module in use. -/
  ptrNetwork : Option Nat := none
  /-- `g_networkModule`. -/
  networkModule : Option Nat := none
  /-- The counters of the module in use. -/
  counters : Counter → Word := fun _ => 0
  workers : List (Option Req) := []
  sent : List Req := []
  /-- History: how many requests the module in use has let through `GetlwtCas`. -/
  passed : Nat := 0

/-- One scheduling choice. `reading` is the value of the throttle if the access reads one, and
`stray` what the memory of a deleted module holds. -/
inductive Event where
  /-- `OSA_Init`; a module that it makes gets the address. -/
  | osaInit (addr : Nat)
  /-- `OSA_Finish`, when it has joined the workers. -/
  | osaFinish
  /-- A worker pops a message and runs `ProcessOpReq` on it. -/
  | pop (worker : Nat) (op : MOSDOp)
  /-- The request of a worker makes its next access. -/
  | access (worker : Nat) (reading stray : Word)
  /-- The gate is open: the worker hands its request to the back end. -/
  | doOneOps (worker : Nat)
  /-- The back end finishes request `i`. -/
  | finishCacheOps (i : Nat)
  /-- Request `i` makes its next access in `FinishCacheOps`. -/
  | finishAccess (i : Nat) (reading stray : Word)

/-- The calls of the stage are made on the module in use: a worker admits on its own module, and
`FinishCacheOps`, which also answers what a worker refuses, goes through `g_networkModule`. -/
def State.reaches (s : State) (stage : Stage) : Prop :=
  stage = .accept ∨ s.networkModule = s.ptrNetwork

instance (s : State) (stage : Stage) : Decidable (s.reaches stage) :=
  inferInstanceAs (Decidable (_ ∨ _))

/-- One access of a call of request `r`: the process and the request after. -/
def State.touch (s : State) (r : Req) (stage : Stage) (call : CounterCall)
    (rest : List CounterCall) (pc : Pc) (reading stray : Word) : State × Req :=
  if s.reaches stage then
    let accessed := accessReq r stage call rest pc (s.counters call.target) reading
    ({ s with counters := Function.update s.counters call.target accessed.1 }, accessed.2)
  else (s, (accessReq r stage call rest pc stray reading).2)

/-- Where a request is in `GetlwtCas`. -/
def gatePc : Phase → Option Pc
  | .calling .accept (.getlwtCas _) _ pc => some pc
  | .calling _ _ _ _ | .gated | .backend | .done => none

/-- What a worker is busy with once its request is at `r`. -/
def slot (r : Req) : Option Req := if r.phase = .done then none else some r

/-- One step of the process. A message on which `ProcessOpReq` raises ends it. -/
def step (queueNum : Nat) (s : State) : Event → Option State
  | .osaInit addr =>
      match s.ptrNetwork with
      | some _ => some s
      | none =>
          some { s with
            ptrNetwork := some addr
            -- `CreateWorkThread` sets it only if it is null
            networkModule := some (s.networkModule.getD addr)
            counters := fun _ => 0
            workers := List.replicate queueNum none
            passed := 0 }
  | .osaFinish =>
      match s.ptrNetwork with
      | none => some s
      | some _ =>
          if ∀ w ∈ s.workers, w = none then some { s with ptrNetwork := none, workers := [] }
          else none
  | .pop worker op =>
      match s.workers[worker]? with
      | some none =>
          match processOpReq op with
          | .error _ => none
          | .ok processed =>
              match newReq worker processed with
              | none => some s
              | some r => some { s with workers := s.workers.set worker (some r) }
      | _ => none
  | .access worker reading stray =>
      match s.workers[worker]? with
      | some (some r) =>
          match r.phase with
          | .calling stage call rest pc =>
              let touched := s.touch r stage call rest pc reading stray
              let left := (gatePc r.phase).isSome && (gatePc touched.2.phase).isNone
              some { touched.1 with
                workers := s.workers.set worker (slot touched.2)
                passed := s.passed + if left then 1 else 0 }
          | _ => none
      | _ => none
  | .doOneOps worker =>
      match s.workers[worker]? with
      | some (some r) =>
          if r.phase = .gated then
            some { s with
              workers := s.workers.set worker none
              sent := s.sent ++ [{ r with phase := .backend }] }
          else none
      | _ => none
  | .finishCacheOps i =>
      match s.sent[i]? with
      | none => none
      | some r =>
          if r.phase = .backend then
            some { s with
              sent := s.sent.set i
                { r with phase := startCalls .finish (releaseCalls r.optionType r.optionLength) } }
          else none
  | .finishAccess i reading stray =>
      match s.sent[i]? with
      | none => none
      | some r =>
          match r.phase with
          | .calling stage call rest pc =>
              let touched := s.touch r stage call rest pc reading stray
              some { touched.1 with sent := s.sent.set i touched.2 }
          | _ => none

/-- The worker is in `GetlwtCas`. -/
def State.atGate (s : State) (worker : Nat) : Bool :=
  match s.workers[worker]? with
  | some (some r) => (gatePc r.phase).isSome
  | _ => false

/-- Accesses of `GetlwtCas` read this value of `saOpThrottle`. -/
def throttleIs (throttle : Word) (s : State) : Event → Bool
  | .access worker reading _ => !s.atGate worker || reading = throttle
  | .osaInit _ | .osaFinish | .pop _ _ | .doOneOps _ | .finishCacheOps _ | .finishAccess _ _ _ =>
      true

/-- The module stays in use. -/
def staysInUse : Event → Bool
  | .osaFinish => false
  | .osaInit _ | .pop _ _ | .access _ _ _ | .doOneOps _ | .finishCacheOps _
  | .finishAccess _ _ _ => true

/-! ## Inversion of a step -/

variable {queueNum : Nat} {s t u : State} {event : Event} {r r' : Req} {stage : Stage}
  {call : CounterCall} {rest : List CounterCall} {pc : Pc} {throttle : Word}

/-- Everything one step can do. -/
inductive Step (queueNum : Nat) (s : State) : Event → State → Prop where
  /-- `OSA_Init` finds a module in use, `OSA_Finish` finds none, or a message is dropped. -/
  | kept {event : Event} : Step queueNum s event s
  | osaInit {addr : Nat} (hptr : s.ptrNetwork = none) :
      Step queueNum s (.osaInit addr)
        { s with
          ptrNetwork := some addr
          networkModule := some (s.networkModule.getD addr)
          counters := fun _ => 0
          workers := List.replicate queueNum none
          passed := 0 }
  | osaFinish (hidle : ∀ w ∈ s.workers, w = none) :
      Step queueNum s .osaFinish { s with ptrNetwork := none, workers := [] }
  | pop {worker : Nat} {op : MOSDOp} {processed : Processed} {r : Req}
      (hslot : s.workers[worker]? = some none) (hprocess : processOpReq op = .ok processed)
      (hnew : newReq worker processed = some r) :
      Step queueNum s (.pop worker op) { s with workers := s.workers.set worker (some r) }
  | access {worker : Nat} {reading stray : Word} {r r' : Req} {stage : Stage} {call : CounterCall}
      {rest : List CounterCall} {pc : Pc} {t : State}
      (hslot : s.workers[worker]? = some (some r)) (hphase : r.phase = .calling stage call rest pc)
      (htouch : s.touch r stage call rest pc reading stray = (t, r')) :
      Step queueNum s (.access worker reading stray)
        { t with
          workers := s.workers.set worker (slot r')
          passed := s.passed +
            if (gatePc r.phase).isSome && (gatePc r'.phase).isNone then 1 else 0 }
  | doOneOps {worker : Nat} {r : Req} (hslot : s.workers[worker]? = some (some r))
      (hphase : r.phase = .gated) :
      Step queueNum s (.doOneOps worker)
        { s with
          workers := s.workers.set worker none
          sent := s.sent ++ [{ r with phase := .backend }] }
  | finishCacheOps {i : Nat} {r : Req} (hsent : s.sent[i]? = some r)
      (hphase : r.phase = .backend) :
      Step queueNum s (.finishCacheOps i)
        { s with
          sent := s.sent.set i
            { r with phase := startCalls .finish (releaseCalls r.optionType r.optionLength) } }
  | finishAccess {i : Nat} {reading stray : Word} {r r' : Req} {stage : Stage} {call : CounterCall}
      {rest : List CounterCall} {pc : Pc} {t : State} (hsent : s.sent[i]? = some r)
      (hphase : r.phase = .calling stage call rest pc)
      (htouch : s.touch r stage call rest pc reading stray = (t, r')) :
      Step queueNum s (.finishAccess i reading stray) { t with sent := s.sent.set i r' }

theorem step_cases (h : step queueNum s event = some t) : Step queueNum s event t := by
  cases event with
  | osaInit addr =>
      simp only [step] at h
      split at h
      · cases h
        exact .kept
      · rename_i hptr
        cases h
        exact .osaInit hptr
  | osaFinish =>
      simp only [step] at h
      split at h
      · cases h
        exact .kept
      · split_ifs at h with hidle
        cases h
        exact .osaFinish hidle
  | pop worker op =>
      simp only [step] at h
      split at h
      · rename_i hslot
        split at h
        · cases h
        · rename_i processed hprocess
          split at h
          · cases h
            exact .kept
          · rename_i r hnew
            cases h
            exact .pop hslot hprocess hnew
      · cases h
  | access worker reading stray =>
      simp only [step] at h
      split at h
      · rename_i r hslot
        split at h
        · rename_i stage call rest pc hphase
          cases h
          exact .access hslot hphase rfl
        · cases h
      · cases h
  | doOneOps worker =>
      simp only [step] at h
      split at h
      · rename_i r hslot
        split_ifs at h with hphase
        cases h
        exact .doOneOps hslot hphase
      · cases h
  | finishCacheOps i =>
      simp only [step] at h
      split at h
      · cases h
      · rename_i r hsent
        split_ifs at h with hphase
        cases h
        exact .finishCacheOps hsent hphase
  | finishAccess i reading stray =>
      simp only [step] at h
      split at h
      · cases h
      · rename_i r hsent
        split at h
        · rename_i stage call rest pc hphase
          cases h
          exact .finishAccess hsent hphase rfl
        · cases h

/-- An access of a call whose counts do not reach the module in use keeps the process. -/
theorem touch_of_not_reaches (h : ¬s.reaches stage) (reading stray : Word) :
    s.touch r stage call rest pc reading stray =
      (s, (accessReq r stage call rest pc stray reading).2) :=
  if_neg h

/-- An access of a call that reaches the module in use. -/
theorem touch_of_reaches (h : s.reaches stage) (reading stray : Word) :
    s.touch r stage call rest pc reading stray =
      ({ s with
          counters := Function.update s.counters call.target
            (accessReq r stage call rest pc (s.counters call.target) reading).1 },
        (accessReq r stage call rest pc (s.counters call.target) reading).2) :=
  if_pos h

/-- An access changes nothing but counters. -/
theorem touch_frame {reading stray : Word}
    (h : s.touch r stage call rest pc reading stray = (t, r')) :
    ∃ counters, t = { s with counters := counters } := by
  unfold State.touch at h
  split_ifs at h
  · cases h
    exact ⟨_, rfl⟩
  · cases h
    exact ⟨s.counters, rfl⟩

/-- Whatever an access finds, the call of its request goes on or the next one starts. -/
theorem touch_follows {reading stray : Word}
    (h : s.touch r stage call rest pc reading stray = (t, r')) :
    Throttle.Follows stage call rest r'.phase := by
  unfold State.touch at h
  split_ifs at h
  · cases h
    exact (Throttle.accessReq_cases rfl).follows
  · cases h
    exact (Throttle.accessReq_cases rfl).follows

/-- Away from the module that gets the counts back, only the first call of an admission moves
`lwtCount`. -/
theorem touch_lwtCount (helsewhere : s.networkModule ≠ s.ptrNetwork)
    (hout : stage ≠ .accept ∨ call.target ≠ .lwtCount) {reading stray : Word}
    (h : s.touch r stage call rest pc reading stray = (t, r')) :
    t.counters .lwtCount = s.counters .lwtCount := by
  unfold State.touch at h
  split_ifs at h with hreaches
  · cases h
    have htarget : call.target ≠ .lwtCount := by
      rcases hreaches with hstage | hsame
      · exact hout.resolve_left (not_not_intro hstage)
      · exact absurd hsame helsewhere
    exact Function.update_of_ne htarget.symm _ _
  · cases h
    rfl

/-! ## The shape of requests -/

/-- A phase of a request that a worker is busy with. Only the first call of an admission is about
`lwtCount`. -/
def Admits : Phase → Prop
  | .calling .accept call rest _ =>
      (call.target = .lwtCount → call = .getlwtCas 1) ∧ ∀ next ∈ rest, next.target ≠ .lwtCount
  | .calling .reject _ _ _ | .gated => True
  | .calling .finish _ _ _ | .backend | .done => False

/-- A phase of a request that was handed to the back end. -/
def Finishes : Phase → Prop
  | .calling .finish _ _ _ | .backend | .done => True
  | .calling .accept _ _ _ | .calling .reject _ _ _ | .gated => False

/-- Workers admit or refuse, and what was handed over is finished, whoever handed it over. -/
structure Shaped (s : State) : Prop where
  workers : ∀ r, some r ∈ s.workers → Admits r.phase
  sent : ∀ r ∈ s.sent, Finishes r.phase

/-- A worker's request keeps its shape until it is done. -/
theorem admits_of_follows {phase : Phase} (h : Admits (.calling stage call rest pc))
    (hfollows : Throttle.Follows stage call rest phase) (hdone : phase ≠ .done) :
    Admits phase := by
  obtain ⟨pc', rfl⟩ | rfl := hfollows
  · cases stage with
    | accept => exact h
    | reject => trivial
    | finish => exact h
  · cases stage with
    | accept =>
        cases rest with
        | nil => trivial
        | cons next later =>
            obtain ⟨-, hrest⟩ := h
            refine ⟨fun htarget => ?_, fun other hother => ?_⟩
            · exact absurd htarget (hrest next List.mem_cons_self)
            · exact hrest other (List.mem_cons_of_mem _ hother)
    | reject =>
        cases rest with
        | nil => exact absurd rfl hdone
        | cons next later => trivial
    | finish => exact h.elim

/-- A request that is being finished goes on to be. -/
theorem finishes_of_follows {phase : Phase} (h : Finishes (.calling stage call rest pc))
    (hfollows : Throttle.Follows stage call rest phase) : Finishes phase := by
  cases stage with
  | accept => exact h.elim
  | reject => exact h.elim
  | finish =>
      obtain ⟨pc', rfl⟩ | rfl := hfollows
      · trivial
      · cases rest <;> trivial

/-- A request starts in the shape of a worker's request. -/
theorem admits_newReq {op : MOSDOp} {processed : Processed} {worker : Nat}
    (hprocess : processOpReq op = .ok processed) (hnew : newReq worker processed = some r) :
    Admits r.phase := by
  obtain ⟨optionType, optionLength, rfl⟩ | ⟨-, rfl⟩ := Throttle.newReq_cases hprocess hnew
  · refine ⟨fun _ => rfl, ?_⟩
    cases optionType <;> simp [CounterCall.target]
  · trivial

theorem slot_eq_some (h : slot r' = some r) : r' = r ∧ r.phase ≠ .done := by
  unfold slot at h
  split_ifs at h with hdone
  cases h
  exact ⟨rfl, hdone⟩

/-- Every step keeps the shape of requests. -/
theorem Shaped.step (h : Shaped s) (hstep : Restart.step queueNum s event = some t) :
    Shaped t := by
  cases step_cases hstep with
  | kept => exact h
  | osaInit hptr =>
      refine ⟨fun r hr => ?_, h.sent⟩
      obtain ⟨-, hnone⟩ := List.mem_replicate.mp hr
      cases hnone
  | osaFinish hidle => exact ⟨fun r hr => absurd hr List.not_mem_nil, h.sent⟩
  | pop hslot hprocess hnew =>
      refine ⟨fun r hr => ?_, h.sent⟩
      obtain hold | hr' := List.mem_or_eq_of_mem_set hr
      · exact h.workers r hold
      · cases hr'
        exact admits_newReq hprocess hnew
  | access hslot hphase htouch =>
      obtain ⟨counters, rfl⟩ := touch_frame htouch
      refine ⟨fun r hr => ?_, h.sent⟩
      obtain hold | hr' := List.mem_or_eq_of_mem_set hr
      · exact h.workers r hold
      · obtain ⟨rfl, hdone⟩ := slot_eq_some hr'.symm
        have hbefore := h.workers _ (List.mem_of_getElem? hslot)
        rw [hphase] at hbefore
        exact admits_of_follows hbefore (touch_follows htouch) hdone
  | doOneOps hslot hphase =>
      refine ⟨fun r hr => ?_, fun r hr => ?_⟩
      · obtain hold | hr' := List.mem_or_eq_of_mem_set hr
        · exact h.workers r hold
        · cases hr'
      · obtain hold | hnew := List.mem_append.mp hr
        · exact h.sent r hold
        · rw [List.mem_singleton.mp hnew]
          trivial
  | finishCacheOps hsent hphase =>
      refine ⟨h.workers, fun r hr => ?_⟩
      obtain hold | rfl := List.mem_or_eq_of_mem_set hr
      · exact h.sent r hold
      · show Finishes (startCalls .finish _)
        cases releaseCalls _ _ <;> trivial
  | finishAccess hsent hphase htouch =>
      obtain ⟨counters, rfl⟩ := touch_frame htouch
      refine ⟨h.workers, fun r hr => ?_⟩
      obtain hold | rfl := List.mem_or_eq_of_mem_set hr
      · exact h.sent r hold
      · have hbefore := h.sent _ (List.mem_of_getElem? hsent)
        rw [hphase] at hbefore
        exact finishes_of_follows hbefore (touch_follows htouch)

/-- In every run the requests have their shape. -/
theorem shaped_of_reach {ok : State → Event → Prop} (h : Reach (Restart.step queueNum) ok {} s) :
    Shaped s :=
  h.invariant Shaped
    ⟨fun _ hr => absurd hr List.not_mem_nil, fun _ hr => absurd hr List.not_mem_nil⟩
    fun _ _ _ hs _ hstep => hs.step hstep

/-! ## A module that gets no count back -/

/-- Where a worker is in `GetlwtCas`. -/
def slotPc (w : Option Req) : Option Pc := w.bind fun r => gatePc r.phase

/-- The worker waits in `GetlwtCas` for the counter it has added to. -/
def waiting (pc : Option Pc) : Nat := if pc.any Pc.swapped then 1 else 0

/-- The worker has read a value that lets it through. -/
def clear (throttle : Word) : Option Pc → Nat
  | some (.rethrottle old) => if old ≤ throttle then 1 else 0
  | _ => 0

/-- What a worker has read is not more than was added, and who reads again has seen more than the
throttle. -/
def Waits (throttle : Word) (added : Nat) : Option Pc → Prop
  | some (.rethrottle old) => old.toNat ≤ added
  | some .reload => throttle.toNat < added
  | _ => True

/-- How many requests were added to `lwtCount` of the module in use. -/
def State.added (s : State) : Nat := s.passed + total (fun w => waiting (slotPc w)) s.workers

/-- The module in use is not the one that gets the counts back: its counter is what was ever added
to it, and at most the throttle and one request are through or about to be. -/
structure Starving (throttle : Word) (queueNum : Nat) (s : State) : Prop where
  shaped : Shaped s
  in_use : s.ptrNetwork.isSome
  elsewhere : s.networkModule ≠ s.ptrNetwork
  length_workers : s.workers.length = queueNum
  count : s.counters .lwtCount = BitVec.ofNat 64 s.added
  bound : s.passed + total (fun w => clear throttle (slotPc w)) s.workers ≤ throttle.toNat + 1
  waits : ∀ w ∈ s.workers, Waits throttle s.added (slotPc w)

theorem waiting_le_one (pc : Option Pc) : waiting pc ≤ 1 := by
  unfold waiting
  split_ifs <;> omega

/-- Who is let through waits. -/
theorem clear_le_waiting (throttle : Word) (pc : Option Pc) : clear throttle pc ≤ waiting pc := by
  unfold clear
  split
  · rename_i old
    have hwaiting : waiting (some (.rethrottle old)) = 1 := by simp [waiting, Pc.swapped]
    rw [hwaiting]
    split_ifs <;> omega
  · exact Nat.zero_le _

theorem Waits.mono {added added' : Nat} {pc : Option Pc} (h : Waits throttle added pc)
    (hle : added ≤ added') : Waits throttle added' pc := by
  cases pc with
  | none => trivial
  | some pc =>
      cases pc with
      | rethrottle old => exact Nat.le_trans (show old.toNat ≤ added from h) hle
      | reload => exact Nat.lt_of_lt_of_le (show throttle.toNat < added from h) hle
      | enter | load _ | cas _ _ => trivial

/-- The counter has room for the throttle and all workers, so that it does not wrap. -/
theorem Starving.added_le (h : Starving throttle queueNum s) :
    s.added ≤ throttle.toNat + 1 + queueNum := by
  have hworkers : total (fun w => waiting (slotPc w)) s.workers ≤ s.workers.length := by
    have hsum := List.sum_le_card_nsmul (s.workers.map fun w => waiting (slotPc w)) 1
      (fun n hn => by
        obtain ⟨w, -, rfl⟩ := List.mem_map.mp hn
        exact waiting_le_one _)
    simpa [total] using hsum
  have hbound := h.bound
  rw [h.length_workers] at hworkers
  unfold State.added
  omega

/-- What a worker's move does: `left` requests leave `GetlwtCas` by it and `n` are added. -/
structure Turn (throttle : Word) (added : Nat) (before after : Option Pc) (left n : Nat) :
    Prop where
  counted : left + waiting after = waiting before + n
  cleared : left + clear throttle after ≤ clear throttle before ∨
    left = 0 ∧ clear throttle before = 0 ∧ clear throttle after ≤ 1 ∧ added ≤ throttle.toNat
  waits : Waits throttle (added + n) after

/-- A worker that is not in `GetlwtCas` before and after has no part in it. -/
theorem turn_none (throttle : Word) (added : Nat) : Turn throttle added none none 0 0 :=
  ⟨rfl, .inl (Nat.le_refl _), trivial⟩

/-- Worker `i` goes from one occupation to another, and `left` requests leave `GetlwtCas` by it. -/
structure Moved (s t : State) (i : Nat) (w' : Option Req) (left : Nat) : Prop where
  ptrNetwork : t.ptrNetwork = s.ptrNetwork
  networkModule : t.networkModule = s.networkModule
  workers : t.workers = s.workers.set i w'
  passed : t.passed = s.passed + left

/-- A turn of one worker keeps the invariant, and takes nothing from what was added. -/
theorem Starving.move (h : Starving throttle queueNum s) {i left n : Nat} {w w' : Option Req}
    (hslot : s.workers[i]? = some w) (hmoved : Moved s t i w' left)
    (hturn : Turn throttle s.added (slotPc w) (slotPc w') left n)
    (hcount : t.counters .lwtCount = s.counters .lwtCount + BitVec.ofNat 64 n)
    (hshaped : Shaped t) : Starving throttle queueNum t ∧ s.added ≤ t.added := by
  obtain ⟨hptr, hmodule, hworkers, hpassed⟩ := hmoved
  have hwaiting := total_set (fun w => waiting (slotPc w)) hslot w'
  have hclear := total_set (fun w => clear throttle (slotPc w)) hslot w'
  have hcounted := hturn.counted
  have hadded : t.added = s.added + n := by
    unfold State.added
    rw [hworkers, hpassed]
    omega
  refine ⟨⟨hshaped, ?_, ?_, ?_, ?_, ?_, ?_⟩, by omega⟩
  · rw [hptr]
    exact h.in_use
  · rw [hptr, hmodule]
    exact h.elsewhere
  · rw [hworkers, List.length_set]
    exact h.length_workers
  · rw [hadded, BitVec.ofNat_add, ← h.count]
    exact hcount
  · have hbound := h.bound
    have hle : total (fun w => clear throttle (slotPc w)) s.workers ≤
        total (fun w => waiting (slotPc w)) s.workers :=
      total_le_total fun w _ => clear_le_waiting throttle (slotPc w)
    rw [hworkers, hpassed]
    rcases hturn.cleared with hcleared | ⟨hleft, hbefore, hafter, hfew⟩
    · omega
    · -- whoever is through or about to be is in the counter, and the counter is low
      unfold State.added at hfew
      omega
  · intro v hv
    rw [hworkers] at hv
    rw [hadded]
    obtain hold | rfl := List.mem_or_eq_of_mem_set hv
    · exact (h.waits v hold).mono (Nat.le_add_right _ _)
    · exact hturn.waits

/-! ## One access of `GetlwtCas` -/

theorem accessReq_goOn {counter reading : Word} {pc' : Pc}
    (h : call.access pc counter reading = .goOn pc') :
    accessReq r stage call rest pc counter reading =
      (counter, { r with phase := .calling stage call rest pc' }) := by
  unfold accessReq
  rw [h]

theorem accessReq_leave {counter reading : Word}
    (h : call.access pc counter reading = .leave) :
    accessReq r stage call rest pc counter reading =
      (counter, { r with phase := startCalls stage rest }) := by
  unfold accessReq
  rw [h]

theorem accessReq_add {counter reading value : Word} {next : Option Pc}
    (hget : call.isGet = true) (h : call.access pc counter reading = .swap value next) :
    accessReq r stage call rest pc counter reading =
      (value, { r with
        phase := Throttle.afterSwap stage call rest next
        added := Function.update r.added call.target true }) := by
  unfold accessReq
  rw [h]
  simp only [hget, if_true]

theorem accessReq_subtract {counter reading value : Word} (hput : call.isGet = false)
    (h : call.access pc counter reading = .swap value none) :
    accessReq r stage call rest pc counter reading =
      (value, { r with
        phase := startCalls stage rest
        subtracted := Function.update r.subtracted call.target true }) := by
  unfold accessReq
  rw [h]
  simp only [hput, Bool.false_eq_true, if_false, Throttle.afterSwap]

/-- The calls after `GetlwtCas` are not at its gate. -/
theorem gatePc_startCalls (hrest : ∀ next ∈ rest, next.target ≠ .lwtCount) :
    gatePc (startCalls .accept rest) = none := by
  cases rest with
  | nil => rfl
  | cons next later =>
      have hnext := hrest next List.mem_cons_self
      cases next with
      | getlwtCas c => exact absurd rfl hnext
      | _ => rfl

theorem slotPc_slot (r : Req) : slotPc (slot r) = gatePc r.phase := by
  unfold slot
  split_ifs with hdone
  · rw [hdone]
    rfl
  · rfl

/-- A worker in `GetlwtCas` takes its turn at the counter that holds what was added. -/
theorem gate_turn {added : Nat} {counter : Word} (hzero : throttle ≠ 0)
    (hcount : counter = BitVec.ofNat 64 added) (hadded : added < 2 ^ 64)
    (hrest : ∀ next ∈ rest, next.target ≠ .lwtCount) (hwaits : Waits throttle added (some pc))
    {accessed : Word × Req}
    (haccess : accessReq r .accept (.getlwtCas 1) rest pc counter throttle = accessed) :
    ∃ n, accessed.1 = counter + BitVec.ofNat 64 n ∧
      Turn throttle added (some pc) (gatePc accessed.2.phase)
        (if (gatePc accessed.2.phase).isNone then 1 else 0) n := by
  have hvalue : (BitVec.ofNat 64 added).toNat = added := by
    rw [BitVec.toNat_ofNat, Nat.mod_eq_of_lt hadded]
  subst hcount haccess
  cases pc with
  | enter =>
      have henter : (CounterCall.getlwtCas 1).access .enter (BitVec.ofNat 64 added) throttle =
          .goOn (.load throttle) := if_neg hzero
      rw [accessReq_goOn henter]
      exact ⟨0, (BitVec.add_zero _).symm, rfl, .inl (Nat.le_refl _), trivial⟩
  | load held => exact ⟨0, (BitVec.add_zero _).symm, rfl, .inl (Nat.le_refl _), trivial⟩
  | cas held old =>
      by_cases hsame : BitVec.ofNat 64 added = old
      · -- the swap succeeds, and the call compares with the value before it
        have hswap : (CounterCall.getlwtCas 1).access (.cas held old) (BitVec.ofNat 64 added)
            throttle = .swap (old + 1) (some (.rethrottle old)) := if_pos hsame
        rw [accessReq_add rfl hswap, hsame]
        refine ⟨1, rfl, rfl, ?_, ?_⟩
        · show 0 + clear throttle (some (.rethrottle old)) ≤ 0 ∨ _
          by_cases hle : old ≤ throttle
          · have hlow : old.toNat ≤ throttle.toNat := hle
            rw [← hsame, hvalue] at hlow
            have hone : clear throttle (some (.rethrottle old)) = 1 := by simp [clear, hle]
            exact .inr ⟨rfl, rfl, Nat.le_of_eq hone, hlow⟩
          · exact .inl (by simp [clear, hle])
        · show old.toNat ≤ added + 1
          rw [← hsame, hvalue]
          omega
      · have hkeep : (CounterCall.getlwtCas 1).access (.cas held old) (BitVec.ofNat 64 added)
            throttle = .goOn (.load held) := if_neg hsame
        rw [accessReq_goOn hkeep]
        exact ⟨0, (BitVec.add_zero _).symm, rfl, .inl (Nat.le_refl _), trivial⟩
  | reload =>
      have hhigh : ¬BitVec.ofNat 64 added ≤ throttle := by
        intro hle
        have hlow : (BitVec.ofNat 64 added).toNat ≤ throttle.toNat := hle
        rw [hvalue] at hlow
        exact Nat.not_lt.mpr hlow hwaits
      refine ⟨0, (BitVec.add_zero _).symm, rfl, .inl ?_, ?_⟩
      · show 0 + clear throttle (some (.rethrottle (BitVec.ofNat 64 added))) ≤ 0
        simp [clear, hhigh]
      · show (BitVec.ofNat 64 added).toNat ≤ added + 0
        rw [hvalue]
        omega
  | rethrottle old =>
      have hread : old.toNat ≤ added := hwaits
      by_cases hwait : throttle < old
      · have hsleep : (CounterCall.getlwtCas 1).access (.rethrottle old) (BitVec.ofNat 64 added)
            throttle = .goOn .reload := if_pos hwait
        rw [accessReq_goOn hsleep]
        have hhigh : throttle.toNat < old.toNat := hwait
        refine ⟨0, (BitVec.add_zero _).symm, rfl, .inl (Nat.zero_le _), ?_⟩
        show throttle.toNat < added + 0
        omega
      · have hleave : (CounterCall.getlwtCas 1).access (.rethrottle old) (BitVec.ofNat 64 added)
            throttle = .leave := if_neg hwait
        rw [accessReq_leave hleave, gatePc_startCalls hrest]
        have hclear : clear throttle (some (.rethrottle old)) = 1 := by
          simp [clear, BitVec.not_lt.mp hwait]
        refine ⟨0, (BitVec.add_zero _).symm, rfl, .inl ?_, trivial⟩
        rw [hclear]
        exact Nat.le_refl _

/-! ## One step -/

theorem gatePc_calling (h : stage ≠ .accept ∨ call.target ≠ .lwtCount) :
    gatePc (.calling stage call rest pc) = none := by
  cases stage with
  | accept =>
      cases call with
      | getlwtCas c =>
          rcases h with hstage | htarget
          · exact absurd rfl hstage
          · exact absurd rfl htarget
      | _ => rfl
  | reject | finish => rfl

/-- A request that is not at `GetlwtCas` does not come there. -/
theorem gatePc_of_follows {phase : Phase} (h : stage ≠ .accept ∨ call.target ≠ .lwtCount)
    (hadmits : Admits (.calling stage call rest pc))
    (hfollows : Throttle.Follows stage call rest phase) : gatePc phase = none := by
  obtain ⟨pc', rfl⟩ | rfl := hfollows
  · exact gatePc_calling h
  · cases stage with
    | accept => exact gatePc_startCalls hadmits.2
    | reject => cases rest <;> rfl
    | finish => exact hadmits.elim

/-- A new request is about to enter `GetlwtCas`, or has no part in it. -/
theorem turn_newReq {op : MOSDOp} {processed : Processed} {worker : Nat} (added : Nat)
    (hprocess : processOpReq op = .ok processed) (hnew : newReq worker processed = some r) :
    Turn throttle added none (gatePc r.phase) 0 0 := by
  obtain ⟨optionType, optionLength, rfl⟩ | ⟨-, rfl⟩ := Throttle.newReq_cases hprocess hnew
  · exact ⟨rfl, .inl (Nat.le_refl _), trivial⟩
  · exact turn_none throttle added

/-- The access of a worker in `GetlwtCas` is one of that call, on the counter of the module in use
and under the throttle. -/
theorem gate_access {worker : Nat} {reading stray : Word} (h : Shaped s)
    (hslot : s.workers[worker]? = some (some r)) (hphase : r.phase = .calling stage call rest pc)
    (hgate : stage = .accept ∧ call.target = .lwtCount)
    (hreading : throttleIs throttle s (.access worker reading stray)) :
    gatePc r.phase = some pc ∧ (∀ next ∈ rest, next.target ≠ .lwtCount) ∧
      s.touch r stage call rest pc reading stray =
        ({ s with
            counters := Function.update s.counters .lwtCount
              (accessReq r .accept (.getlwtCas 1) rest pc (s.counters .lwtCount) throttle).1 },
          (accessReq r .accept (.getlwtCas 1) rest pc (s.counters .lwtCount) throttle).2) := by
  obtain ⟨rfl, htarget⟩ := hgate
  have hadmits := h.workers r (List.mem_of_getElem? hslot)
  rw [hphase] at hadmits
  obtain rfl := hadmits.1 htarget
  have hpc : gatePc r.phase = some pc := by
    rw [hphase]
    rfl
  have hread : reading = throttle := by
    have hin : s.atGate worker = true := by
      unfold State.atGate
      rw [hslot]
      show (gatePc r.phase).isSome = true
      rw [hpc]
      rfl
    simpa [throttleIs, hin] using hreading
  subst hread
  exact ⟨hpc, hadmits.2, touch_of_reaches (.inl rfl) reading stray⟩

/-- A module that gets no count back goes on like that as long as it is in use. -/
theorem Starving.step (h : Starving throttle queueNum s) (hzero : throttle ≠ 0)
    (hfits : throttle.toNat + 1 + queueNum < 2 ^ 64) (hreading : throttleIs throttle s event)
    (hstays : staysInUse event) (hstep : Restart.step queueNum s event = some t) :
    Starving throttle queueNum t ∧ s.added ≤ t.added := by
  have hshaped := h.shaped.step hstep
  have hadded : s.added < 2 ^ 64 := Nat.lt_of_le_of_lt h.added_le hfits
  cases step_cases hstep with
  | kept => exact ⟨h, Nat.le_refl _⟩
  | osaInit hptr =>
      have hin := h.in_use
      rw [hptr] at hin
      cases hin
  | osaFinish hidle => cases hstays
  | pop hslot hprocess hnew =>
      exact h.move hslot ⟨rfl, rfl, rfl, rfl⟩ (turn_newReq s.added hprocess hnew)
        (BitVec.add_zero _).symm hshaped
  | @access worker reading stray r r' stage call rest pc t hslot hphase htouch =>
      have hadmits := h.shaped.workers r (List.mem_of_getElem? hslot)
      rw [hphase] at hadmits
      by_cases hgate : stage = .accept ∧ call.target = .lwtCount
      · -- the worker is in `GetlwtCas`, on the counter of the module in use
        obtain ⟨hpc, hrest, hgateTouch⟩ := gate_access h.shaped hslot hphase hgate hreading
        have hwaits : Waits throttle s.added (some pc) :=
          hpc ▸ h.waits (some r) (List.mem_of_getElem? hslot)
        rw [hgateTouch] at htouch
        cases htouch
        obtain ⟨n, hvalue, hturn⟩ := gate_turn (r := r) hzero h.count hadded hrest hwaits rfl
        refine h.move (n := n) hslot ⟨rfl, rfl, rfl, rfl⟩ ?_ ?_ hshaped
        · have hbefore : slotPc (some r) = some pc := hpc
          rw [slotPc_slot, hbefore, hpc, Option.isSome_some, Bool.true_and]
          exact hturn
        · show Function.update s.counters .lwtCount _ .lwtCount = _
          rw [Function.update_self]
          exact hvalue
      · -- the access has no part in `GetlwtCas`, and `lwtCount` stays
        have hout : stage ≠ .accept ∨ call.target ≠ .lwtCount := not_and_or.mp hgate
        have hbefore : gatePc r.phase = none := by
          rw [hphase]
          exact gatePc_calling hout
        have hafter : gatePc r'.phase = none :=
          gatePc_of_follows hout hadmits (touch_follows htouch)
        have hcount := touch_lwtCount h.elsewhere hout htouch
        obtain ⟨counters, rfl⟩ := touch_frame htouch
        refine h.move (n := 0) hslot ⟨rfl, rfl, rfl, rfl⟩ ?_ ?_ hshaped
        · have hslotPc : slotPc (some r) = none := hbefore
          rw [slotPc_slot, hslotPc, hbefore, hafter]
          exact turn_none throttle s.added
        · exact hcount.trans (BitVec.add_zero _).symm
  | @doOneOps worker r hslot hphase =>
      have hbefore : slotPc (some r) = none := by
        show gatePc r.phase = none
        rw [hphase]
        rfl
      refine h.move hslot ⟨rfl, rfl, rfl, (Nat.add_zero _).symm⟩ ?_ (BitVec.add_zero _).symm
        hshaped
      rw [hbefore]
      exact turn_none throttle s.added
  | finishCacheOps hsent hphase =>
      exact ⟨⟨hshaped, h.in_use, h.elsewhere, h.length_workers, h.count, h.bound, h.waits⟩,
        Nat.le_refl _⟩
  | @finishAccess i reading stray r r' stage call rest pc t hsent hphase htouch =>
      have hfinishes := h.shaped.sent r (List.mem_of_getElem? hsent)
      rw [hphase] at hfinishes
      have hlost : ¬s.reaches stage := by
        rintro (hstage | hsame)
        · rw [hstage] at hfinishes
          exact hfinishes
        · exact h.elsewhere hsame
      rw [touch_of_not_reaches hlost] at htouch
      cases htouch
      exact ⟨⟨hshaped, h.in_use, h.elsewhere, h.length_workers, h.count, h.bound, h.waits⟩,
        Nat.le_refl _⟩

/-! ## A module that gets its counts back -/

/-- A run of one module under one throttle. -/
def inLifetime (throttle : Word) (s : State) (event : Event) : Prop :=
  throttleIs throttle s event ∧ staysInUse event

instance (throttle : Word) (s : State) (event : Event) : Decidable (inLifetime throttle s event) :=
  inferInstanceAs (Decidable (_ ∧ _))

/-- A state of the module that was in use in state `start`: what its first worker is busy with, and
what a request changes. -/
structure Serving (start : State) (w : Option Req) (counters : Counter → Word) (passed : Nat)
    (sent : List Req) (s : State) : Prop where
  ptrNetwork : s.ptrNetwork = start.ptrNetwork
  networkModule : s.networkModule = start.networkModule
  worker : s.workers[0]? = some w
  counters : s.counters = counters
  passed : s.passed = passed
  sent : s.sent = sent

/-- Some run of the module comes to such a state. -/
def Comes (queueNum : Nat) (throttle : Word) (s : State) (w : Option Req)
    (counters : Counter → Word) (passed : Nat) (sent : List Req) : Prop :=
  ∃ t, Reach (Restart.step queueNum) (inLifetime throttle) s t ∧
    Serving s w counters passed sent t

theorem getElem?_set_self_of_some {workers : List (Option Req)} {i : Nat} {w : Option Req}
    (h : workers[i]? = some w) (w' : Option Req) : (workers.set i w')[i]? = some w' := by
  obtain ⟨hlength, -⟩ := List.getElem?_eq_some_iff.mp h
  rw [List.getElem?_set_self hlength]

section Comes

variable {counters : Counter → Word} {value reading held : Word} {passed : Nat} {sent : List Req}
  {w : Option Req}

theorem Comes.pop (h : Comes queueNum throttle s none counters passed sent) {op : MOSDOp}
    {processed : Processed} (hprocess : processOpReq op = .ok processed)
    (hnew : newReq 0 processed = some r) :
    Comes queueNum throttle s (some r) counters passed sent := by
  obtain ⟨t, hreach, ht⟩ := h
  have hstep : Restart.step queueNum t (.pop 0 op) =
      some { t with workers := t.workers.set 0 (some r) } := by
    simp only [Restart.step, ht.worker, hprocess, hnew]
  exact ⟨_, hreach.next ⟨rfl, rfl⟩ hstep, ht.ptrNetwork, ht.networkModule,
    getElem?_set_self_of_some ht.worker _, ht.counters, ht.passed, ht.sent⟩

/-- The worker makes an access on the counters of its own module. In `GetlwtCas` it reads the
throttle. -/
theorem Comes.access (h : Comes queueNum throttle s (some r) counters passed sent)
    (hphase : r.phase = .calling .accept call rest pc)
    (hreading : (gatePc r.phase).isNone ∨ reading = throttle)
    (haccess : accessReq r .accept call rest pc (counters call.target) reading = (value, r')) :
    Comes queueNum throttle s (slot r') (Function.update counters call.target value)
      (passed + if (gatePc r.phase).isSome && (gatePc r'.phase).isNone then 1 else 0) sent := by
  obtain ⟨t, hreach, ht⟩ := h
  have htouch : t.touch r .accept call rest pc reading 0 =
      ({ t with counters := Function.update counters call.target value }, r') := by
    rw [touch_of_reaches (.inl rfl), ht.counters, haccess]
  have hstep : Restart.step queueNum t (.access 0 reading 0) =
      some { t with
        counters := Function.update counters call.target value
        workers := t.workers.set 0 (slot r')
        passed := t.passed +
          if (gatePc r.phase).isSome && (gatePc r'.phase).isNone then 1 else 0 } := by
    simp only [Restart.step, ht.worker, hphase, htouch]
  have hok : throttleIs throttle t (.access 0 reading 0) = true := by
    have hgate : t.atGate 0 = (gatePc r.phase).isSome := by
      unfold State.atGate
      rw [ht.worker]
    simpa [throttleIs, hgate] using hreading
  refine ⟨_, hreach.next ⟨hok, rfl⟩ hstep, ht.ptrNetwork, ht.networkModule,
    getElem?_set_self_of_some ht.worker _, rfl, ?_, ht.sent⟩
  rw [← ht.passed]

theorem Comes.doOneOps (h : Comes queueNum throttle s (some r) counters passed sent)
    (hphase : r.phase = .gated) :
    Comes queueNum throttle s none counters passed (sent ++ [{ r with phase := .backend }]) := by
  obtain ⟨t, hreach, ht⟩ := h
  have hstep : Restart.step queueNum t (.doOneOps 0) =
      some { t with
        workers := t.workers.set 0 none
        sent := t.sent ++ [{ r with phase := .backend }] } := by
    simp only [Restart.step, ht.worker, hphase, if_true]
  refine ⟨_, hreach.next ⟨rfl, rfl⟩ hstep, ht.ptrNetwork, ht.networkModule,
    getElem?_set_self_of_some ht.worker _, ht.counters, ht.passed, ?_⟩
  rw [← ht.sent]

theorem Comes.finishCacheOps (h : Comes queueNum throttle s w counters passed (sent ++ [r]))
    (hphase : r.phase = .backend) :
    Comes queueNum throttle s w counters passed
      (sent ++ [{ r with
        phase := startCalls .finish (releaseCalls r.optionType r.optionLength) }]) := by
  obtain ⟨t, hreach, ht⟩ := h
  have hsent : t.sent[sent.length]? = some r := by
    rw [ht.sent, List.getElem?_concat_length]
  have hstep : Restart.step queueNum t (.finishCacheOps sent.length) =
      some { t with
        sent := t.sent.set sent.length
          { r with phase := startCalls .finish (releaseCalls r.optionType r.optionLength) } } := by
    simp only [Restart.step, hsent, hphase, if_true]
  refine ⟨_, hreach.next ⟨rfl, rfl⟩ hstep, ht.ptrNetwork, ht.networkModule, ht.worker,
    ht.counters, ht.passed, ?_⟩
  show t.sent.set sent.length _ = _
  rw [ht.sent]
  simp

/-- `FinishCacheOps` makes an access, and `g_networkModule` is the module in use. -/
theorem Comes.finishAccess (h : Comes queueNum throttle s w counters passed (sent ++ [r]))
    (hsame : s.networkModule = s.ptrNetwork) (hphase : r.phase = .calling stage call rest pc)
    (haccess : accessReq r stage call rest pc (counters call.target) reading = (value, r')) :
    Comes queueNum throttle s w (Function.update counters call.target value) passed
      (sent ++ [r']) := by
  obtain ⟨t, hreach, ht⟩ := h
  have hsent : t.sent[sent.length]? = some r := by
    rw [ht.sent, List.getElem?_concat_length]
  have hreaches : t.reaches stage := by
    refine .inr ?_
    rw [ht.networkModule, ht.ptrNetwork, hsame]
  have htouch : t.touch r stage call rest pc reading 0 =
      ({ t with counters := Function.update counters call.target value }, r') := by
    rw [touch_of_reaches hreaches, ht.counters, haccess]
  have hstep : Restart.step queueNum t (.finishAccess sent.length reading 0) =
      some { t with
        counters := Function.update counters call.target value
        sent := t.sent.set sent.length r' } := by
    simp only [Restart.step, hsent, hphase, htouch]
  refine ⟨_, hreach.next ⟨rfl, rfl⟩ hstep, ht.ptrNetwork, ht.networkModule, ht.worker, rfl,
    ht.passed, ?_⟩
  show t.sent.set sent.length r' = _
  rw [ht.sent]
  simp

/-- The call of the worker goes on. -/
theorem Comes.goOn (h : Comes queueNum throttle s (some r) counters passed sent) {pc' : Pc}
    (hphase : r.phase = .calling .accept call rest pc)
    (hreading : (gatePc r.phase).isNone ∨ reading = throttle)
    (hgoOn : call.access pc (counters call.target) reading = .goOn pc') :
    Comes queueNum throttle s (some { r with phase := .calling .accept call rest pc' }) counters
      passed sent := by
  have haccess := h.access hphase hreading (accessReq_goOn hgoOn)
  have hgate : ((gatePc r.phase).isSome &&
      (gatePc (.calling .accept call rest pc')).isNone) = false := by
    rw [hphase]
    cases call <;> rfl
  rw [Function.update_eq_self] at haccess
  simp only [hgate, Bool.false_eq_true, if_false, Nat.add_zero] at haccess
  exact haccess

/-- The call of `FinishCacheOps` goes on. -/
theorem Comes.finishGoOn (h : Comes queueNum throttle s w counters passed (sent ++ [r]))
    {pc' : Pc} (hsame : s.networkModule = s.ptrNetwork)
    (hphase : r.phase = .calling stage call rest pc)
    (hgoOn : call.access pc (counters call.target) reading = .goOn pc') :
    Comes queueNum throttle s w counters passed
      (sent ++ [{ r with phase := .calling stage call rest pc' }]) := by
  have haccess := h.finishAccess hsame hphase (accessReq_goOn hgoOn)
  rwa [Function.update_eq_self] at haccess

/-- A call that nothing disturbs and that does not wait: it loads and swaps. -/
structure Undisturbed (call : CounterCall) (reading held count value : Word) : Prop where
  enter : call.access .enter count reading = .goOn (.load held)
  load : call.access (.load held) count reading = .goOn (.cas held count)
  swap : call.access (.cas held count) count reading = .swap value none

/-- A `Get` on a write or read counter whose throttle is off. -/
theorem undisturbed_get (hget : call.isGet = true) (htarget : call.target ≠ .lwtCount)
    (count : Word) : Undisturbed call 0 0 count (count + call.amount) := by
  have haccess := Throttle.access_of_get hget htarget
  refine ⟨haccess _ _ _, haccess _ _ _, ?_⟩
  rw [haccess]
  simp [getCas]

/-- The calls that give back the only read that was counted. -/
theorem undisturbed_put (hzero : throttle ≠ 0) :
    Undisturbed (.putReadBWCas 0) throttle 0 0 0 ∧ Undisturbed .putReadlwtCas throttle 0 1 0 ∧
      Undisturbed .putlwtCas throttle throttle 1 0 :=
  ⟨⟨rfl, rfl, rfl⟩, ⟨rfl, rfl, rfl⟩, ⟨if_neg hzero, rfl, rfl⟩⟩

/-- A `Get` of the worker on another counter than `lwtCount`. -/
theorem Comes.get (h : Comes queueNum throttle s (some r) counters passed sent)
    (hphase : r.phase = .calling .accept call rest .enter) (hget : call.isGet = true)
    (htarget : call.target ≠ .lwtCount) :
    Comes queueNum throttle s
      (slot { r with
        phase := startCalls .accept rest
        added := Function.update r.added call.target true })
      (Function.update counters call.target (counters call.target + call.amount)) passed sent := by
  obtain ⟨henter, hload, hswap⟩ := undisturbed_get hget htarget (counters call.target)
  have hgate : ∀ pc, gatePc (.calling .accept call rest pc) = none :=
    fun _ => gatePc_calling (.inr htarget)
  have hout : ∀ pc, (gatePc (.calling .accept call rest pc)).isNone ∨ (0 : Word) = throttle := by
    intro pc
    rw [hgate]
    exact .inl rfl
  have hentered := h.goOn hphase (hphase ▸ hout _) henter
  have hloaded := hentered.goOn rfl (hout _) hload
  have hswapped := hloaded.access rfl (hout _) (accessReq_add hget hswap)
  simp only [hgate, Option.isSome_none, Bool.false_and, Bool.false_eq_true, if_false,
    Nat.add_zero] at hswapped
  exact hswapped

/-- A `Put` of `FinishCacheOps`. -/
theorem Comes.put (h : Comes queueNum throttle s w counters passed (sent ++ [r]))
    (hsame : s.networkModule = s.ptrNetwork)
    (hphase : r.phase = .calling .finish call rest .enter) (hput : call.isGet = false)
    (hcall : Undisturbed call reading held (counters call.target) value) :
    Comes queueNum throttle s w (Function.update counters call.target value) passed
      (sent ++ [{ r with
        phase := startCalls .finish rest
        subtracted := Function.update r.subtracted call.target true }]) := by
  have hload := h.finishGoOn hsame hphase hcall.enter
  have hcas := hload.finishGoOn hsame rfl hcall.load
  exact hcas.finishAccess hsame rfl (accessReq_subtract hput hcall.swap)

/-- The counters when one more read of no length is counted. -/
def counted (counters : Counter → Word) : Counter → Word
  | .lwtCount => counters .lwtCount + 1
  | .lwtReadCount => counters .lwtReadCount + 1
  | .lwtWriteCount => counters .lwtWriteCount
  | .writeBW => counters .writeBW
  | .readBW => counters .readBW

/-- The worker takes a message without operations and counts it. -/
theorem Comes.count (h : Comes queueNum throttle s none counters passed sent)
    (hzero : throttle ≠ 0) :
    Comes queueNum throttle s
      (some
        { worker := 0
          optionType := .gcacheRead
          optionLength := 0
          phase := .calling .accept (.getlwtCas 1) [.getReadlwtCas 1, .getReadBWCas 0]
            (.rethrottle (counters .lwtCount))
          added := Function.update (fun _ => false) .lwtCount true })
      (Function.update counters .lwtCount (counters .lwtCount + 1)) passed sent := by
  obtain ⟨processed, hprocess, hnew⟩ : ∃ processed,
      processOpReq { oid := ascii "a" } = .ok processed ∧
      newReq 0 processed = some (.start 0 .accept .gcacheRead 0 (admitCalls .gcacheRead 0)) :=
    ⟨_, rfl, rfl⟩
  have henter : (CounterCall.getlwtCas 1).access .enter (counters .lwtCount) throttle =
      .goOn (.load throttle) := if_neg hzero
  have hread : (CounterCall.getlwtCas 1).access (.load throttle) (counters .lwtCount) throttle =
      .goOn (.cas throttle (counters .lwtCount)) := rfl
  have hswap : (CounterCall.getlwtCas 1).access (.cas throttle (counters .lwtCount))
      (counters .lwtCount) throttle =
      .swap (counters .lwtCount + 1) (some (.rethrottle (counters .lwtCount))) := if_pos rfl
  have hpop := h.pop hprocess hnew
  have hload := hpop.goOn rfl (.inr rfl) henter
  have hcas := hload.goOn rfl (.inr rfl) hread
  exact hcas.access rfl (.inr rfl) (accessReq_add rfl hswap)

/-- A read comes through the gate while the counter is at most the throttle. -/
theorem Comes.admit (h : Comes queueNum throttle s none counters passed sent)
    (hzero : throttle ≠ 0) (hlow : ¬throttle < counters .lwtCount) :
    ∃ r, (r.phase = .backend ∧ r.optionType = .gcacheRead ∧ r.optionLength = 0) ∧
      Comes queueNum throttle s none (counted counters) (passed + 1) (sent ++ [r]) := by
  have hleave : ∀ count, (CounterCall.getlwtCas 1).access (.rethrottle (counters .lwtCount))
      count throttle = .leave := by
    intro count
    show (if throttle < counters .lwtCount then Access.goOn .reload else .leave) = .leave
    rw [if_neg hlow]
  have hthrough := (h.count hzero).access rfl (.inr rfl) (accessReq_leave (hleave _))
  have hread := hthrough.get rfl rfl (by decide)
  have hgated := hread.get rfl rfl (by decide)
  obtain ⟨t, hreach, hsent⟩ := hgated.doOneOps rfl
  refine ⟨_, ⟨rfl, rfl, rfl⟩, t, hreach, hsent.ptrNetwork, hsent.networkModule, hsent.worker,
    hsent.counters.trans ?_, hsent.passed, hsent.sent⟩
  funext k
  cases k with
  | readBW => exact BitVec.add_zero _
  | lwtCount | lwtWriteCount | lwtReadCount | writeBW => rfl

/-- A read comes through the gate of a module that gets its counts back, and is finished. -/
theorem Comes.round (h : Comes queueNum throttle s none (fun _ => 0) passed sent)
    (hsame : s.networkModule = s.ptrNetwork) (hzero : throttle ≠ 0) :
    ∃ sent', Comes queueNum throttle s none (fun _ => 0) (passed + 1) sent' := by
  have hlow : ¬throttle < (0 : Word) := fun hlt => Nat.not_lt_zero _ hlt
  obtain ⟨⟨_, _, _, phase, _, _, _⟩, ⟨rfl, rfl, rfl⟩, hadmitted⟩ := h.admit hzero hlow
  obtain ⟨hputBW, hputRead, hputlwt⟩ := undisturbed_put hzero
  have hfinish := hadmitted.finishCacheOps rfl
  have hfreeBW := hfinish.put hsame rfl rfl hputBW
  have hfreeRead := hfreeBW.put hsame rfl rfl hputRead
  obtain ⟨t, hreach, hfree⟩ := hfreeRead.put hsame rfl rfl hputlwt
  refine ⟨_, t, hreach, hfree.ptrNetwork, hfree.networkModule, hfree.worker,
    hfree.counters.trans ?_, hfree.passed, rfl⟩
  funext k
  cases k <;> rfl

/-- Reads that are not finished come through the gate until the counter is above the throttle. -/
theorem Comes.fill (h : Comes queueNum throttle s none (fun _ => 0) 0 sent)
    (hzero : throttle ≠ 0) {n : Nat} (hn : n ≤ throttle.toNat + 1)
    (hfits : throttle.toNat + 1 < 2 ^ 64) :
    ∃ counters sent', counters .lwtCount = BitVec.ofNat 64 n ∧
      Comes queueNum throttle s none counters n sent' := by
  induction n with
  | zero => exact ⟨_, sent, rfl, h⟩
  | succ n ih =>
      obtain ⟨counters, sent', hcount, hn'⟩ := ih (by omega)
      have hlow : ¬throttle < counters .lwtCount := by
        intro hlt
        have hval : throttle.toNat < (counters .lwtCount).toNat := hlt
        rw [hcount, BitVec.toNat_ofNat, Nat.mod_eq_of_lt (by omega)] at hval
        omega
      obtain ⟨r, -, hadmitted⟩ := hn'.admit hzero hlow
      refine ⟨_, _, ?_, hadmitted⟩
      show counters .lwtCount + 1 = _
      rw [hcount, BitVec.ofNat_add]
      rfl

end Comes

/-! ## What the second `OSA_Init` leads to -/

/-- `OSA_Init` without a module in use starts a new one. -/
theorem osaInit_eq {addr : Nat} (hptr : s.ptrNetwork = none)
    (hinit : Restart.step queueNum s (.osaInit addr) = some t) :
    t = { s with
      ptrNetwork := some addr
      networkModule := some (s.networkModule.getD addr)
      counters := fun _ => 0
      workers := List.replicate queueNum none
      passed := 0 } := by
  simp only [Restart.step, hptr, Option.some.injEq] at hinit
  exact hinit.symm

/-- A module at another address than the first one gets no count back from its start on. -/
theorem starving_init {addr : Nat} (throttle : Word) (hs : Shaped s) (hptr : s.ptrNetwork = none)
    (hinit : Restart.step queueNum s (.osaInit addr) = some t)
    (hmodule : t.networkModule ≠ some addr) : Starving throttle queueNum t := by
  have hshaped := hs.step hinit
  obtain rfl := osaInit_eq hptr hinit
  have hidle : ∀ v : Option Pc → Nat, v none = 0 →
      total (fun w => v (slotPc w)) (List.replicate queueNum none) = 0 := by
    intro v hv
    rw [total_eq_zero_iff]
    intro w hw
    obtain ⟨-, rfl⟩ := List.mem_replicate.mp hw
    exact hv
  refine ⟨hshaped, rfl, hmodule, List.length_replicate, ?_, ?_, ?_⟩
  · show (0 : Word) = BitVec.ofNat 64 (0 + total (fun w => waiting (slotPc w)) _)
    rw [hidle waiting rfl]
    rfl
  · show 0 + total (fun w => clear throttle (slotPc w)) _ ≤ _
    rw [hidle (clear throttle) rfl]
    exact Nat.zero_le _
  · intro w hw
    obtain ⟨-, rfl⟩ := List.mem_replicate.mp hw
    trivial

/-- The invariant over the whole life of the module. -/
theorem Starving.of_reach (ht : Starving throttle queueNum t) (hzero : throttle ≠ 0)
    (hfits : throttle.toNat + 1 + queueNum < 2 ^ 64)
    (h : Reach (Restart.step queueNum) (inLifetime throttle) t u) :
    Starving throttle queueNum u :=
  h.invariant (Starving throttle queueNum) ht fun _ _ _ hs hok hstep =>
    (hs.step hzero hfits hok.1 hok.2 hstep).1

/-- What the counter of such a module shows is what was added to it. -/
theorem Starving.toNat_count (h : Starving throttle queueNum s)
    (hfits : throttle.toNat + 1 + queueNum < 2 ^ 64) :
    (s.counters .lwtCount).toNat = s.added := by
  rw [h.count, BitVec.toNat_ofNat, Nat.mod_eq_of_lt (Nat.lt_of_le_of_lt h.added_le hfits)]

/-- The worker waits in `GetlwtCas` and has read no value that lets it through. -/
def Held (throttle : Word) : Option Pc → Prop
  | some (.rethrottle old) => throttle < old
  | some .reload => True
  | some .enter | some (.load _) | some (.cas _ _) | none => False

/-- Who waits and is not about to be let through is held. -/
theorem held_of_clear_lt {pc : Option Pc} (h : clear throttle pc < waiting pc) :
    Held throttle pc := by
  cases pc with
  | none => simp [waiting] at h
  | some pc =>
      cases pc with
      | rethrottle old =>
          by_contra hlow
          have hle : old ≤ throttle := BitVec.not_lt.mp hlow
          simp [waiting, clear, Pc.swapped, hle] at h
      | reload => trivial
      | enter | load _ | cas _ _ => simp [waiting, Pc.swapped] at h

/-- Once more is added than can come through, some worker is held. -/
theorem Starving.exists_held (h : Starving throttle queueNum s)
    (hover : throttle.toNat + 1 < s.added) :
    ∃ (worker : Nat) (w : Option Req), s.workers[worker]? = some w ∧
      Held throttle (slotPc w) := by
  by_contra hnone
  have hle : total (fun w => waiting (slotPc w)) s.workers ≤
      total (fun w => clear throttle (slotPc w)) s.workers := by
    refine total_le_total fun w hw => ?_
    obtain ⟨worker, hslot⟩ := List.mem_iff_getElem?.mp hw
    by_contra hlt
    exact hnone ⟨worker, w, hslot, held_of_clear_lt (Nat.lt_of_not_le hlt)⟩
  have hbound := h.bound
  unfold State.added at hover
  omega

/-- A held worker that reads the counter again sees more than the throttle. -/
theorem held_access {counter : Word} (hheld : Held throttle (some pc))
    (hhigh : throttle < counter) :
    Held throttle
      (gatePc (accessReq r .accept (.getlwtCas 1) rest pc counter throttle).2.phase) := by
  cases pc with
  | enter | load _ | cas _ _ => exact hheld.elim
  | reload =>
      have hread : (CounterCall.getlwtCas 1).access .reload counter throttle =
          .goOn (.rethrottle counter) := rfl
      rw [accessReq_goOn hread]
      exact hhigh
  | rethrottle old =>
      have hsleep : (CounterCall.getlwtCas 1).access (.rethrottle old) counter throttle =
          .goOn .reload := if_pos hheld
      rw [accessReq_goOn hsleep]
      trivial

/-- A worker that is not in `GetlwtCas` is not held. -/
theorem not_held_of_gatePc (hnone : gatePc r.phase = none) :
    ¬Held throttle (slotPc (some r)) := by
  show ¬Held throttle (gatePc r.phase)
  rw [hnone]
  exact id

/-- A held worker stays held, whatever step is made. -/
theorem Starving.held_step (h : Starving throttle queueNum s)
    (hfits : throttle.toNat + 1 + queueNum < 2 ^ 64) (hover : throttle.toNat + 1 < s.added)
    {i : Nat} {w : Option Req} (hslot : s.workers[i]? = some w)
    (hheld : Held throttle (slotPc w)) (hreading : throttleIs throttle s event)
    (hstep : Restart.step queueNum s event = some t) :
    ∃ w', t.workers[i]? = some w' ∧ Held throttle (slotPc w') := by
  cases step_cases hstep with
  | kept => exact ⟨w, hslot, hheld⟩
  | osaInit hptr =>
      have hin := h.in_use
      rw [hptr] at hin
      cases hin
  | osaFinish hidle =>
      rw [hidle w (List.mem_of_getElem? hslot)] at hheld
      exact hheld.elim
  | @pop worker op processed r hfree hprocess hnew =>
      have hne : worker ≠ i := by
        rintro rfl
        rw [hslot] at hfree
        cases hfree
        exact hheld
      exact ⟨w, by rwa [List.getElem?_set_ne hne], hheld⟩
  | @access worker reading stray r r' stage call rest pc t hbusy hphase htouch =>
      by_cases hworker : worker = i
      · subst hworker
        rw [hbusy] at hslot
        cases hslot
        have hgate : stage = .accept ∧ call.target = .lwtCount := by
          by_contra hout
          refine not_held_of_gatePc ?_ hheld
          rw [hphase]
          exact gatePc_calling (not_and_or.mp hout)
        obtain ⟨hpc, -, hgateTouch⟩ := gate_access h.shaped hbusy hphase hgate hreading
        rw [hgateTouch] at htouch
        cases htouch
        have hwaiting : Held throttle (some pc) := hpc ▸ hheld
        have hhigh : throttle < s.counters .lwtCount := by
          show throttle.toNat < (s.counters .lwtCount).toNat
          rw [h.toNat_count hfits]
          omega
        refine ⟨_, getElem?_set_self_of_some hbusy _, ?_⟩
        rw [slotPc_slot]
        exact held_access hwaiting hhigh
      · obtain ⟨counters, rfl⟩ := touch_frame htouch
        exact ⟨w, by rwa [List.getElem?_set_ne hworker], hheld⟩
  | @doOneOps worker r hbusy hphase =>
      have hne : worker ≠ i := by
        rintro rfl
        rw [hslot] at hbusy
        cases hbusy
        refine not_held_of_gatePc ?_ hheld
        rw [hphase]
        rfl
      exact ⟨w, by rwa [List.getElem?_set_ne hne], hheld⟩
  | finishCacheOps hsent hphase => exact ⟨w, hslot, hheld⟩
  | finishAccess hsent hphase htouch =>
      obtain ⟨counters, rfl⟩ := touch_frame htouch
      exact ⟨w, hslot, hheld⟩

/-- A held worker is in `GetlwtCas`. -/
theorem atGate_of_held {i : Nat} {w : Option Req} (hslot : s.workers[i]? = some w)
    (hheld : Held throttle (slotPc w)) : s.atGate i = true := by
  cases w with
  | none => exact hheld.elim
  | some r =>
      unfold State.atGate
      rw [hslot]
      show (gatePc r.phase).isSome = true
      cases hpc : gatePc r.phase with
      | none => exact absurd hheld (not_held_of_gatePc hpc)
      | some pc => rfl

/-- `OSA_Finish` waits for a held worker. -/
theorem Starving.osaFinish_eq_none (h : Starving throttle queueNum s) {i : Nat}
    {w : Option Req} (hslot : s.workers[i]? = some w) (hheld : Held throttle (slotPc w)) :
    Restart.step queueNum s .osaFinish = none := by
  obtain ⟨ptr, hptr⟩ := Option.isSome_iff_exists.mp h.in_use
  simp only [Restart.step, hptr]
  refine if_neg fun hidle => ?_
  rw [hidle w (List.mem_of_getElem? hslot)] at hheld
  exact hheld

/-- A module that was just made has idle workers and empty counters. -/
theorem comes_osaInit {addr : Nat} (throttle : Word) (hptr : s.ptrNetwork = none)
    (hinit : Restart.step queueNum s (.osaInit addr) = some t) (hqueue : 0 < queueNum) :
    Comes queueNum throttle t none (fun _ => 0) 0 s.sent := by
  obtain rfl := osaInit_eq hptr hinit
  refine ⟨_, .start, rfl, rfl, ?_, rfl, rfl, rfl⟩
  show (List.replicate queueNum none)[0]? = some none
  rw [List.getElem?_replicate, if_pos hqueue]

/-- Under a throttle that stays, the module that the next `OSA_Init` makes lets the throttle and
one more request through, and no other ever, if it is not where the first one was; if it is there,
it can go on without end. -/
theorem passed_after_restart {addr : Nat} (hs : Reach (Restart.step queueNum) anyEvent {} s)
    (hptr : s.ptrNetwork = none) (hinit : Restart.step queueNum s (.osaInit addr) = some t)
    (hqueue : 0 < queueNum) (hzero : throttle ≠ 0)
    (hfits : throttle.toNat + 1 + queueNum < 2 ^ 64) :
    (t.networkModule ≠ some addr →
      (∀ u, Reach (Restart.step queueNum) (inLifetime throttle) t u →
        u.passed ≤ throttle.toNat + 1) ∧
      ∃ u, Reach (Restart.step queueNum) (inLifetime throttle) t u ∧
        u.passed = throttle.toNat + 1) ∧
    (t.networkModule = some addr → ∀ n, ∃ u,
      Reach (Restart.step queueNum) (inLifetime throttle) t u ∧ u.passed = n) := by
  have hstart := comes_osaInit throttle hptr hinit hqueue
  refine ⟨fun hmodule => ⟨fun u hu => ?_, ?_⟩, fun hmodule n => ?_⟩
  · have hstarving :=
      (starving_init throttle (shaped_of_reach hs) hptr hinit hmodule).of_reach hzero hfits hu
    exact Nat.le_trans (Nat.le_add_right _ _) hstarving.bound
  · obtain ⟨counters, sent, -, u, hu, hserving⟩ :=
      hstart.fill hzero (Nat.le_refl _) (by omega)
    exact ⟨u, hu, hserving.passed⟩
  · have hsame : t.networkModule = t.ptrNetwork := by
      rw [hmodule, osaInit_eq hptr hinit]
    have hround : ∃ sent, Comes queueNum throttle t none (fun _ => 0) n sent := by
      induction n with
      | zero => exact ⟨s.sent, hstart⟩
      | succ n ih =>
          obtain ⟨sent, h⟩ := ih
          exact h.round hsame hzero
    obtain ⟨sent, u, hu, hserving⟩ := hround
    exact ⟨u, hu, hserving.passed⟩

/-- The module of one worker that is made at another address than the first one lets 2001 requests
through under the smallest throttle. -/
theorem restarted_lets_2001_through :
    ∃ s t, Reach (Restart.step 1) anyEvent {} s ∧ Restart.step 1 s (.osaInit 2) = some t ∧
      ∀ u, Reach (Restart.step 1) (inLifetime 2000) t u → u.passed ≤ 2001 :=
  have hs : Reach (Restart.step 1) anyEvent {} _ := Reach.of_run [.osaInit 1, .osaFinish] rfl
  ⟨_, _, hs, rfl, ((passed_after_restart hs rfl rfl (by decide) (by decide) (by decide)).1
    (by decide)).1⟩

/-- A module at another address than the first one can count more than it lets through, and from
then on some worker never leaves `GetlwtCas`, so that no `OSA_Finish` returns. -/
theorem starved_never_finishes {addr : Nat} (hs : Reach (Restart.step queueNum) anyEvent {} s)
    (hptr : s.ptrNetwork = none) (hinit : Restart.step queueNum s (.osaInit addr) = some t)
    (hmodule : t.networkModule ≠ some addr) (hqueue : 0 < queueNum) (hzero : throttle ≠ 0)
    (hfits : throttle.toNat + 1 + queueNum < 2 ^ 64) :
    (∃ u, Reach (Restart.step queueNum) (inLifetime throttle) t u ∧
      throttle.toNat + 1 < (u.counters .lwtCount).toNat) ∧
    ∀ u, Reach (Restart.step queueNum) (inLifetime throttle) t u →
      throttle.toNat + 1 < (u.counters .lwtCount).toNat →
      ∃ worker, ∀ v,
        Reach (Restart.step queueNum) (fun s event => throttleIs throttle s event) u v →
          v.atGate worker = true ∧ Restart.step queueNum v .osaFinish = none := by
  have hfresh := starving_init throttle (shaped_of_reach hs) hptr hinit hmodule
  constructor
  · -- the throttle and one request are through, and the next one is counted
    obtain ⟨counters, sent, hcount, hfull⟩ := (comes_osaInit throttle hptr hinit hqueue).fill hzero
      (Nat.le_refl _) (by omega)
    obtain ⟨u, hu, hserving⟩ := hfull.count hzero
    refine ⟨u, hu, ?_⟩
    have hvalue : u.counters .lwtCount = BitVec.ofNat 64 (throttle.toNat + 1 + 1) := by
      rw [hserving.counters, Function.update_self, hcount]
      exact (BitVec.ofNat_add _ 1).symm
    rw [hvalue, BitVec.toNat_ofNat, Nat.mod_eq_of_lt (by omega)]
    omega
  · intro u hu hover
    have hstarving := hfresh.of_reach hzero hfits hu
    rw [hstarving.toNat_count hfits] at hover
    obtain ⟨worker, w, hslot, hheld⟩ := hstarving.exists_held hover
    refine ⟨worker, fun v hv => ?_⟩
    obtain ⟨hlast, -, w', hslot', hheld'⟩ :=
      hv.invariant (fun s => Starving throttle queueNum s ∧ throttle.toNat + 1 < s.added ∧
          ∃ w, s.workers[worker]? = some w ∧ Held throttle (slotPc w))
        ⟨hstarving, hover, w, hslot, hheld⟩ fun s event t hinv hok hstep => by
          obtain ⟨hs, hmore, w, hslot, hheld⟩ := hinv
          have hstays : staysInUse event = true := by
            cases event with
            | osaFinish =>
                rw [hs.osaFinish_eq_none hslot hheld] at hstep
                cases hstep
            | _ => rfl
          obtain ⟨ht, hle⟩ := hs.step hzero hfits hok hstays hstep
          exact ⟨ht, Nat.lt_of_lt_of_le hmore hle,
            hs.held_step hfits hmore hslot hheld hok hstep⟩
    exact ⟨atGate_of_held hslot' hheld', hlast.osaFinish_eq_none hslot' hheld'⟩

/-- Under the smallest throttle, the module of one worker that is made at another address than the
first one comes to a state after which it is never finished. -/
theorem restarted_never_finishes :
    ∃ s t u worker, Reach (Restart.step 1) anyEvent {} s ∧
      Restart.step 1 s (.osaInit 2) = some t ∧
      Reach (Restart.step 1) (inLifetime 2000) t u ∧
      ∀ v, Reach (Restart.step 1) (fun s event => throttleIs 2000 s event) u v →
        v.atGate worker = true ∧ Restart.step 1 v .osaFinish = none :=
  have hs : Reach (Restart.step 1) anyEvent {} _ := Reach.of_run [.osaInit 1, .osaFinish] rfl
  have hzero : (2000 : Word) ≠ 0 := by decide
  have ⟨hfull, hstuck⟩ := starved_never_finishes hs rfl rfl (by decide) (by decide) hzero
    (by decide)
  have ⟨u, hu, hover⟩ := hfull
  have ⟨worker, hstays⟩ := hstuck u hu hover
  ⟨_, _, u, worker, hs, rfl, hu, hstays⟩

end GlobalCacheAdaptor.ServerAdaptor.Restart
