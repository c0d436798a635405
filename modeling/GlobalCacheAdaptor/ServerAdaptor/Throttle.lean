import GlobalCacheAdaptor.Lib.Ledger
import GlobalCacheAdaptor.Lib.Run
import GlobalCacheAdaptor.ServerAdaptor.CounterCas

/-!
# Conservation of the QoS counters

Workers admit requests through `Get…Cas` calls, the back end releases them through the `Put…Cas`
calls of `FinishCacheOps`, and all of them interleave access by access. Each request remembers
which counters it was added to and subtracted from, so the true value of a counter is a total over
the requests (`State.owed`). The main results say when the machine word equals that total.
-/

namespace GlobalCacheAdaptor.ServerAdaptor.Throttle

open Lib

/-! ## The system -/

/-- Who runs the calls of a request: the worker that admits it, the worker that answers it with an
error, or the back end that finishes it. -/
inductive Stage where
  | accept | reject | finish
  deriving DecidableEq, Repr

/-- Where a request is. `gated` is the wait for `copyupFlag`. -/
inductive Phase where
  | calling (stage : Stage) (call : CounterCall) (rest : List CounterCall) (pc : Pc)
  | gated
  | backend
  | done
  deriving DecidableEq, Repr

/-- A request. The last three fields are history: which counters it was added to, which it was
subtracted from, and which `Put`s returned through their guard. -/
structure Req where
  worker : Nat
  optionType : OptionType
  optionLength : Word
  phase : Phase
  added : Counter → Bool := fun _ => false
  subtracted : Counter → Bool := fun _ => false
  dropped : Counter → Bool := fun _ => false

/-- The counters, and every request taken so far. -/
structure State where
  counters : Counter → Word
  reqs : List Req

/-- The state before the first message. -/
def init : State := ⟨fun _ => 0, []⟩

/-- One scheduling choice. `reading` is the value of the throttle if the access reads one. -/
inductive Event where
  /-- A worker pops a message and runs `ProcessOpReq` on it. -/
  | pop (worker : Nat) (op : MOSDOp)
  /-- Request `i` makes its next access. -/
  | access (i : Nat) (reading : Word)
  /-- The gate is open: the worker hands request `i` to the back end. -/
  | doOneOps (i : Nat)
  /-- The back end finishes request `i`, with the type and length it was given. -/
  | finishCacheOps (i : Nat)

/-- The worker is still busy with this request. -/
def Req.occupies (worker : Nat) (r : Req) : Bool :=
  r.worker = worker &&
    match r.phase with
    | .calling .accept _ _ _ | .calling .reject _ _ _ | .gated => true
    | .calling .finish _ _ _ | .backend | .done => false

/-- The phase at the start of a list of calls. -/
def startCalls (stage : Stage) : List CounterCall → Phase
  | call :: rest => .calling stage call rest .enter
  | [] =>
      match stage with
      | .accept => .gated
      | .reject | .finish => .done

/-- The counter calls among the effects of a function. -/
def counterCalls (effects : List Effect) : List CounterCall :=
  effects.filterMap fun | .counter call => some call | _ => none

/-- A request at the start of its calls. -/
def Req.start (worker : Nat) (stage : Stage) (optionType : OptionType) (optionLength : Word)
    (calls : List CounterCall) : Req :=
  { worker := worker
    optionType := optionType
    optionLength := optionLength
    phase := startCalls stage calls }

/-- The request a popped message becomes, or `none` for a message that is dropped. -/
def newReq (worker : Nat) (processed : Processed) : Option Req :=
  let optionType := processed.opreq.optionType
  let optionLength := processed.opreq.optionLength
  if processed.ret = 0 then
    some (.start worker .accept optionType optionLength (admitCalls optionType optionLength))
  else
    match counterCalls processed.effects with
    | [] => none
    | calls => some (.start worker .reject optionType optionLength calls)

/-- The number of requests that are not done. Each holds at least a byte of a 64-bit address
space: its `SaOpReq`, or the frame of the call that finishes it. -/
def live (s : State) : Nat := s.reqs.countP (·.phase ≠ .done)

/-- The phase after a swap: the call goes on waiting, or the next one starts. -/
def afterSwap (stage : Stage) (call : CounterCall) (rest : List CounterCall) : Option Pc → Phase
  | some pc => .calling stage call rest pc
  | none => startCalls stage rest

/-- One access of a call of request `r`: the new value of its counter, and the request after. -/
def accessReq (r : Req) (stage : Stage) (call : CounterCall) (rest : List CounterCall) (pc : Pc)
    (counter reading : Word) : Word × Req :=
  match call.access pc counter reading with
  | .goOn pc' => (counter, { r with phase := .calling stage call rest pc' })
  | .leave => (counter, { r with phase := startCalls stage rest })
  | .drop =>
      (counter, { r with
        phase := startCalls stage rest
        dropped := Function.update r.dropped call.target true })
  | .swap value next =>
      if call.isGet then
        (value, { r with
          phase := afterSwap stage call rest next
          added := Function.update r.added call.target true })
      else
        (value, { r with
          phase := afterSwap stage call rest next
          subtracted := Function.update r.subtracted call.target true })

/-- One step of the system. A message on which `ProcessOpReq` raises ends the process. -/
def step (s : State) : Event → Option State
  | .pop worker op =>
      if s.reqs.any (·.occupies worker) then none
      else if 2 ^ 64 ≤ live s + 1 then none
      else
        match processOpReq op with
        | .error _ => none
        | .ok processed =>
            match newReq worker processed with
            -- a message dropped by the `poolId overflow` exit touches no counter
            | none => some s
            | some r => some { s with reqs := s.reqs ++ [r] }
  | .access i reading =>
      match s.reqs[i]? with
      | none => none
      | some r =>
          match r.phase with
          | .calling stage call rest pc =>
              match accessReq r stage call rest pc (s.counters call.target) reading with
              | (value, r') =>
                  some ⟨Function.update s.counters call.target value, s.reqs.set i r'⟩
          | _ => none
  | .doOneOps i =>
      match s.reqs[i]? with
      | none => none
      | some r =>
          if r.phase = .gated then some { s with reqs := s.reqs.set i { r with phase := .backend } }
          else none
  | .finishCacheOps i =>
      match s.reqs[i]? with
      | none => none
      | some r =>
          if r.phase = .backend then
            some { s with
              reqs := s.reqs.set i
                { r with phase := startCalls .finish (releaseCalls r.optionType r.optionLength) } }
          else none

/-! ## The true value of a counter -/

/-- What a request adds to a counter: one for the request counters, its length for the others. -/
def Req.weight (k : Counter) (r : Req) : Nat :=
  match k with
  | .lwtCount | .lwtWriteCount | .lwtReadCount => 1
  | .writeBW | .readBW => r.optionLength.toNat

/-- The request was added to the counter and not yet subtracted. -/
def Req.outstanding (k : Counter) (r : Req) : Bool := r.added k && !r.subtracted k

/-- What the request has in the counter. -/
def Req.owed (k : Counter) (r : Req) : Nat := if r.outstanding k then r.weight k else 0

/-- The true value of a counter: the sum over the requests that were added and not yet
subtracted. -/
def State.owed (k : Counter) (s : State) : Nat := total (Req.owed k) s.reqs

/-! ## Inversion of a step -/

/-- A popped message is admitted with the calls of its type, or it has a short RBD name and the
worker releases what it never got. -/
theorem newReq_cases {op : MOSDOp} {processed : Processed} {worker : Nat} {r : Req}
    (hprocess : processOpReq op = .ok processed) (hnew : newReq worker processed = some r) :
    (∃ optionType optionLength,
      r = .start worker .accept optionType optionLength (admitCalls optionType optionLength)) ∨
    (shortRbdName op.oid = true ∧
      r = .start worker .reject .gcacheDefault 0 (releaseCalls .gcacheDefault 0)) := by
  by_cases hshort : shortRbdName op.oid = true
  · rw [processOpReq_of_short hshort] at hprocess
    cases hprocess
    cases hnew
    exact .inr ⟨hshort, rfl⟩
  · by_cases hpool : op.PoolOverflow
    · rw [processOpReq_of_poolOverflow hpool] at hprocess
      cases hprocess
      cases hnew
    · obtain ⟨st, rfl⟩ := processOpReq_of_converted (by simpa using hshort) hpool hprocess
      cases hnew
      exact .inl ⟨_, _, rfl⟩

/-- Everything one step can do. -/
inductive Step (s : State) : Event → State → Prop where
  /-- A popped message is dropped without a trace. -/
  | popDropped {worker : Nat} {op : MOSDOp} : Step s (.pop worker op) s
  /-- A popped message becomes a request. -/
  | popReq {worker : Nat} {op : MOSDOp} {processed : Processed} {r : Req}
      (hlive : live s + 1 < 2 ^ 64) (hprocess : processOpReq op = .ok processed)
      (hnew : newReq worker processed = some r) :
      Step s (.pop worker op) { s with reqs := s.reqs ++ [r] }
  /-- A call of a request makes an access. -/
  | access {i : Nat} {reading value : Word} {r r' : Req} {stage : Stage} {call : CounterCall}
      {rest : List CounterCall} {pc : Pc} (hr : s.reqs[i]? = some r)
      (hphase : r.phase = .calling stage call rest pc)
      (haccess : accessReq r stage call rest pc (s.counters call.target) reading = (value, r')) :
      Step s (.access i reading)
        ⟨Function.update s.counters call.target value, s.reqs.set i r'⟩
  /-- A request is handed to the back end. -/
  | doOneOps {i : Nat} {r : Req} (hr : s.reqs[i]? = some r) (hphase : r.phase = .gated) :
      Step s (.doOneOps i) { s with reqs := s.reqs.set i { r with phase := .backend } }
  /-- The back end starts to finish a request. -/
  | finishCacheOps {i : Nat} {r : Req} (hr : s.reqs[i]? = some r) (hphase : r.phase = .backend) :
      Step s (.finishCacheOps i)
        { s with
          reqs := s.reqs.set i
            { r with phase := startCalls .finish (releaseCalls r.optionType r.optionLength) } }

/-- Every step is one of the listed ones. -/
theorem step_cases {s t : State} {event : Event} (h : step s event = some t) : Step s event t := by
  cases event with
  | pop worker op =>
      simp only [step] at h
      split_ifs at h with hbusy hlive
      cases hprocess : processOpReq op with
      | error e => simp [hprocess] at h
      | ok processed =>
          cases hnew : newReq worker processed with
          | none =>
              simp only [hprocess, hnew, Option.some.injEq] at h
              subst h
              exact .popDropped
          | some r =>
              simp only [hprocess, hnew, Option.some.injEq] at h
              subst h
              exact .popReq (by omega) hprocess hnew
  | access i reading =>
      simp only [step] at h
      cases hr : s.reqs[i]? with
      | none => simp [hr] at h
      | some r =>
          simp only [hr] at h
          cases hphase : r.phase with
          | calling stage call rest pc =>
              simp only [hphase, Option.some.injEq] at h
              subst h
              exact .access hr hphase rfl
          | gated => simp [hphase] at h
          | backend => simp [hphase] at h
          | done => simp [hphase] at h
  | doOneOps i =>
      simp only [step] at h
      cases hr : s.reqs[i]? with
      | none => simp [hr] at h
      | some r =>
          simp only [hr] at h
          split_ifs at h with hphase
          cases h
          exact .doOneOps hr hphase
  | finishCacheOps i =>
      simp only [step] at h
      cases hr : s.reqs[i]? with
      | none => simp [hr] at h
      | some r =>
          simp only [hr] at h
          split_ifs at h with hphase
          cases h
          exact .finishCacheOps hr hphase

/-! ## Requests that balance their calls -/

/-- Some call of the list moves the counter. -/
def due (k : Counter) (calls : List CounterCall) : Bool := calls.any (·.target = k)

/-- The counters a request releases when it is finished. -/
def Req.releases (k : Counter) (r : Req) : Bool :=
  due k (releaseCalls r.optionType r.optionLength)

/-- The request has not started its release. -/
def Phase.admitting : Phase → Bool
  | .calling .accept _ _ _ | .gated | .backend => true
  | .calling .reject _ _ _ | .calling .finish _ _ _ | .done => false

/-- The calls of the current list that have not swapped yet. -/
def Phase.pending : Phase → List CounterCall
  | .calling _ call rest pc => if pc.swapped then rest else call :: rest
  | .gated | .backend | .done => []

/-- The pending calls move distinct counters of the request by its weight, up while it is being
admitted and down afterwards. -/
structure Req.CallsOk (r : Req) : Prop where
  nodup : (r.phase.pending.map CounterCall.target).Nodup
  kind : ∀ call ∈ r.phase.pending, call.isGet = r.phase.admitting
  amount : ∀ call ∈ r.phase.pending, call.amount.toNat = r.weight call.target
  released : ∀ call ∈ r.phase.pending, r.releases call.target = true

/-- The history of a request agrees with its pending calls, on the counters in `K`: it is in every
counter it releases, except those it has still to add itself to or has already left. -/
structure Req.Sound (K : Counter → Prop) (r : Req) : Prop where
  calls : r.CallsOk
  added : ∀ k, K k →
    r.added k = (r.releases k && !(r.phase.admitting && due k r.phase.pending))
  subtracted : ∀ k, K k →
    r.subtracted k = (r.releases k && !(r.phase.admitting || due k r.phase.pending))
  dropped : ∀ k, K k → r.dropped k = false

variable {K : Counter → Prop} {r r' : Req} {stage : Stage} {call : CounterCall}
  {rest : List CounterCall} {pc : Pc}

@[simp] theorem pending_startCalls (stage : Stage) (calls : List CounterCall) :
    (startCalls stage calls).pending = calls := by
  cases calls with
  | nil => cases stage <;> rfl
  | cons call rest => rfl

@[simp] theorem admitting_startCalls (stage : Stage) (calls : List CounterCall) :
    (startCalls stage calls).admitting = decide (stage = .accept) := by
  cases calls <;> cases stage <;> rfl

@[simp] theorem admitting_calling :
    (Phase.calling stage call rest pc).admitting = decide (stage = .accept) := by
  cases stage <;> rfl

@[simp] theorem admitting_afterSwap {next : Option Pc} :
    (afterSwap stage call rest next).admitting = decide (stage = .accept) := by
  cases next <;> simp [afterSwap]

theorem pending_afterSwap {next : Option Pc} (hnext : ∀ pc ∈ next, pc.swapped = true) :
    (afterSwap stage call rest next).pending = rest := by
  cases next with
  | none => simp [afterSwap]
  | some pc => simp [afterSwap, Phase.pending, hnext pc rfl]

@[simp] theorem due_nil (k : Counter) : due k [] = false := rfl

theorem due_cons_of_ne {k : Counter} (h : k ≠ call.target) :
    due k (call :: rest) = due k rest := by
  simp [due, h.symm]

/-- After a call on a counter, the later calls leave that counter alone. -/
theorem Req.CallsOk.due_rest (h : r.CallsOk) (hpending : r.phase.pending = call :: rest) :
    due call.target rest = false := by
  have hnodup := h.nodup
  rw [hpending, List.map_cons, List.nodup_cons] at hnodup
  simp only [due, List.any_eq_false, decide_eq_true_eq]
  exact fun c hc heq => hnodup.1 (List.mem_map.mpr ⟨c, hc, heq⟩)

/-- Dropping the first pending call keeps the list in order. -/
theorem Req.CallsOk.tail (h : r.CallsOk) (hpending : r.phase.pending = call :: rest)
    (hpending' : r'.phase.pending = rest) (hadmits : r'.phase.admitting = r.phase.admitting)
    (htype : r'.optionType = r.optionType) (hlength : r'.optionLength = r.optionLength) :
    r'.CallsOk := by
  obtain ⟨hnodup, hkind, hamount, hreleased⟩ := h
  rw [hpending] at hnodup hkind hamount hreleased
  simp only [List.map_cons, List.nodup_cons] at hnodup
  simp only [List.mem_cons, forall_eq_or_imp] at hkind hamount hreleased
  constructor
  · rw [hpending']
    exact hnodup.2
  · rw [hpending', hadmits]
    exact hkind.2
  · intro c hc
    rw [hpending'] at hc
    rw [hamount.2 c hc]
    cases c.target <;> simp [Req.weight, hlength]
  · intro c hc
    rw [hpending'] at hc
    rw [Req.releases, htype, hlength]
    exact hreleased.2 c hc

/-- A change of phase that keeps the pending calls keeps the request sound. -/
theorem Req.Sound.keep (h : r.Sound K) {phase : Phase} (hpending : phase.pending = r.phase.pending)
    (hadmits : phase.admitting = r.phase.admitting) : { r with phase := phase }.Sound K := by
  obtain ⟨⟨hnodup, hkind, hamount, hreleased⟩, hadded, hsubtracted, hdropped⟩ := h
  refine ⟨⟨?_, ?_, ?_, ?_⟩, ?_, ?_, hdropped⟩
  · simp only [hpending]
    exact hnodup
  · simp only [hpending, hadmits]
    exact hkind
  · simp only [hpending]
    exact hamount
  · simp only [hpending]
    exact hreleased
  · simp only [hpending, hadmits]
    exact hadded
  · simp only [hpending, hadmits]
    exact hsubtracted

/-- A pending `Put` belongs to a request that is in the counter with its whole weight. -/
theorem Req.Sound.owed_of_put (h : r.Sound K) (hpending : call ∈ r.phase.pending)
    (hput : call.isGet = false) (hK : K call.target) :
    r.owed call.target = call.amount.toNat := by
  have hadmits : r.phase.admitting = false := by rw [← h.calls.kind call hpending, hput]
  have hdue : due call.target r.phase.pending = true := by
    simp only [due, List.any_eq_true, decide_eq_true_eq]
    exact ⟨call, hpending, rfl⟩
  have hreleased := h.calls.released call hpending
  simp [Req.owed, Req.outstanding, h.added _ hK, h.subtracted _ hK, hadmits, hdue, hreleased,
    h.calls.amount call hpending]

/-- A pending `Get` belongs to a request that is not in the counter. -/
theorem Req.Sound.owed_of_get (h : r.Sound K) (hpending : call ∈ r.phase.pending)
    (hget : call.isGet = true) (hK : K call.target) :
    r.added call.target = false ∧ r.subtracted call.target = false := by
  have hadmits : r.phase.admitting = true := by rw [← h.calls.kind call hpending, hget]
  have hdue : due call.target r.phase.pending = true := by
    simp only [due, List.any_eq_true, decide_eq_true_eq]
    exact ⟨call, hpending, rfl⟩
  simp [h.added _ hK, h.subtracted _ hK, hadmits, hdue]

section Advance

variable {phase : Phase} (h : r.Sound K) (hpending : r.phase.pending = call :: rest)
  (hpending' : phase.pending = rest) (hadmits : phase.admitting = r.phase.admitting)
include h hpending hpending' hadmits

/-- Giving up a call on a counter outside `K` keeps the request sound. -/
theorem Req.Sound.skip {dropped : Counter → Bool} (hK : ¬ K call.target)
    (hdropped : ∀ k, K k → dropped k = false) :
    { r with phase := phase, dropped := dropped }.Sound K := by
  refine ⟨h.calls.tail hpending hpending' hadmits rfl rfl, ?_, ?_, hdropped⟩
  · intro k hk
    have hne : k ≠ call.target := fun heq => hK (heq ▸ hk)
    have hadded := h.added k hk
    rw [hpending, due_cons_of_ne hne] at hadded
    simp only [hadmits, hpending']
    exact hadded
  · intro k hk
    have hne : k ≠ call.target := fun heq => hK (heq ▸ hk)
    have hsubtracted := h.subtracted k hk
    rw [hpending, due_cons_of_ne hne] at hsubtracted
    simp only [hadmits, hpending']
    exact hsubtracted

/-- A `Get` that swapped puts the request into its counter. -/
theorem Req.Sound.add (hget : call.isGet = true) :
    { r with phase := phase, added := Function.update r.added call.target true }.Sound K := by
  have hmem : call ∈ r.phase.pending := by simp [hpending]
  have hadmitting : r.phase.admitting = true := by rw [← h.calls.kind call hmem, hget]
  refine ⟨h.calls.tail hpending hpending' hadmits rfl rfl, ?_, ?_, h.dropped⟩
  · intro k hk
    simp only [hadmits, hpending', hadmitting]
    by_cases heq : k = call.target
    · subst heq
      have hreleased : Req.releases call.target _ = true := h.calls.released call hmem
      simp only [Function.update_self, h.calls.due_rest hpending, Bool.and_false,
        Bool.not_false, Bool.and_true]
      exact hreleased.symm
    · have hadded := h.added k hk
      rw [hpending, due_cons_of_ne heq, hadmitting] at hadded
      rw [Function.update_of_ne heq]
      exact hadded
  · intro k hk
    have hsubtracted := h.subtracted k hk
    simp only [hadmitting, Bool.true_or] at hsubtracted
    simp only [hadmits, hadmitting, Bool.true_or]
    exact hsubtracted

/-- A `Put` that swapped takes the request out of its counter. -/
theorem Req.Sound.subtract (hput : call.isGet = false) :
    { r with
      phase := phase
      subtracted := Function.update r.subtracted call.target true }.Sound K := by
  have hmem : call ∈ r.phase.pending := by simp [hpending]
  have hadmitting : r.phase.admitting = false := by rw [← h.calls.kind call hmem, hput]
  refine ⟨h.calls.tail hpending hpending' hadmits rfl rfl, ?_, ?_, h.dropped⟩
  · intro k hk
    have hadded := h.added k hk
    simp only [hadmitting, Bool.false_and] at hadded
    simp only [hadmits, hadmitting, Bool.false_and]
    exact hadded
  · intro k hk
    simp only [hadmits, hpending', hadmitting]
    by_cases heq : k = call.target
    · subst heq
      have hreleased : Req.releases call.target _ = true := h.calls.released call hmem
      simp only [Function.update_self, h.calls.due_rest hpending, Bool.or_false,
        Bool.not_false, Bool.and_true]
      exact hreleased.symm
    · have hsubtracted := h.subtracted k hk
      rw [hpending, due_cons_of_ne heq, hadmitting] at hsubtracted
      rw [Function.update_of_ne heq]
      exact hsubtracted

end Advance

/-! ## One access -/

/-- How an access changes a counter and what its request has in it. -/
inductive Moved (counter value : Word) (before after : Nat) (amount : Word) : Prop where
  | same (hvalue : value = counter) (howed : after = before)
  | up (hvalue : value = counter + amount) (howed : after = before + amount.toNat)
  | down (hvalue : value = counter - amount) (howed : before = after + amount.toNat)

/-- One access keeps its request sound, and moves its counter by what the request's share in it
changes. The throttle of `lwtCount` is not off, and no guard of a `Put` on a counter in `K`
fires. -/
theorem accessReq_sound {counter reading value : Word} (h : r.Sound K)
    (hphase : r.phase = .calling stage call rest pc)
    (hthrottle : K .lwtCount → call.target = .lwtCount → reading ≠ 0)
    (hguard : K call.target → call.target ≠ .lwtCount → r.owed call.target = call.amount.toNat →
      ¬ counter < call.amount)
    (haccess : accessReq r stage call rest pc counter reading = (value, r')) :
    r'.Sound K ∧ (∀ k, k ≠ call.target → r'.owed k = r.owed k) ∧
      (K call.target →
        Moved counter value (r.owed call.target) (r'.owed call.target) call.amount) := by
  have heffect := access_effect call pc counter reading
  unfold accessReq at haccess
  generalize call.access pc counter reading = result at heffect haccess
  have hadmits : r.phase.admitting = decide (stage = .accept) := by rw [hphase, admitting_calling]
  cases heffect with
  | goOn hpc =>
      obtain ⟨rfl, rfl⟩ := Prod.mk.inj haccess
      refine ⟨h.keep ?_ (by rw [admitting_calling, hadmits]), fun _ _ => rfl,
        fun _ => .same rfl rfl⟩
      rw [hphase, Phase.pending, Phase.pending, hpc]
  | waited hpc =>
      obtain ⟨rfl, rfl⟩ := Prod.mk.inj haccess
      refine ⟨h.keep ?_ (by rw [admitting_startCalls, hadmits]), fun _ _ => rfl,
        fun _ => .same rfl rfl⟩
      rw [hphase, pending_startCalls, Phase.pending, if_pos hpc]
  | throttleOff htarget hpc hreading =>
      obtain ⟨rfl, rfl⟩ := Prod.mk.inj haccess
      have hpending : r.phase.pending = call :: rest := by simp [hphase, Phase.pending, hpc]
      -- a throttle of zero is excluded for the counters in `K`
      have hK : ¬ K call.target := fun hK => hthrottle (htarget ▸ hK) htarget hreading
      exact ⟨h.skip hpending (pending_startCalls _ _) (by rw [admitting_startCalls, hadmits]) hK
        h.dropped, fun _ _ => rfl, fun _ => .same rfl rfl⟩
  | drop hput htarget hpc hless =>
      obtain ⟨rfl, rfl⟩ := Prod.mk.inj haccess
      have hpending : r.phase.pending = call :: rest := by simp [hphase, Phase.pending, hpc]
      -- a request about to subtract itself is in the counter, so the guard stays open
      have hK : ¬ K call.target := fun hK =>
        hguard hK htarget (h.owed_of_put (by simp [hpending]) hput hK) hless
      refine ⟨h.skip hpending (pending_startCalls _ _)
        (by rw [admitting_startCalls, hadmits]) hK ?_, fun _ _ => rfl, fun _ => .same rfl rfl⟩
      intro k hk
      have hne : k ≠ call.target := fun heq => hK (heq ▸ hk)
      rw [Function.update_of_ne hne]
      exact h.dropped k hk
  | @add next hget hpc hnext =>
      simp only [hget, if_true] at haccess
      obtain ⟨rfl, rfl⟩ := Prod.mk.inj haccess
      have hpending : r.phase.pending = call :: rest := by simp [hphase, Phase.pending, hpc]
      have hmem : call ∈ r.phase.pending := by simp [hpending]
      refine ⟨h.add hpending (pending_afterSwap hnext) (by rw [admitting_afterSwap, hadmits]) hget,
        ?_, ?_⟩
      · intro k hk
        simp only [Req.owed, Req.outstanding, Function.update_of_ne hk]
        rfl
      · intro hK
        obtain ⟨hadded, hsubtracted⟩ := h.owed_of_get hmem hget hK
        have hamount := h.calls.amount call hmem
        refine .up rfl ?_
        simp only [Req.owed, Req.outstanding, Function.update_self, hadded, hsubtracted, hamount,
          Bool.true_and, Bool.false_and, Bool.not_false, if_true, Bool.false_eq_true, if_false,
          Nat.zero_add]
        rfl
  | subtract hput hpc =>
      simp only [hput, Bool.false_eq_true, if_false] at haccess
      obtain ⟨rfl, rfl⟩ := Prod.mk.inj haccess
      have hpending : r.phase.pending = call :: rest := by simp [hphase, Phase.pending, hpc]
      have hmem : call ∈ r.phase.pending := by simp [hpending]
      refine ⟨h.subtract hpending (pending_afterSwap (by simp))
        (by rw [admitting_afterSwap, hadmits]) hput, ?_, ?_⟩
      · intro k hk
        simp only [Req.owed, Req.outstanding, Function.update_of_ne hk]
        rfl
      · intro hK
        refine .down rfl ?_
        rw [h.owed_of_put hmem hput hK]
        simp [Req.owed, Req.outstanding, Function.update_self]

/-! ## New and released requests -/

/-- A request releases what it gets. -/
theorem due_admitCalls (k : Counter) (optionType : OptionType) (optionLength : Word) :
    due k (admitCalls optionType optionLength) = due k (releaseCalls optionType optionLength) := by
  cases optionType <;> cases k <;> rfl

/-- An admitted request starts sound, and in no counter. -/
theorem start_accept_sound (worker : Nat) (optionType : OptionType) (optionLength : Word) :
    (Req.start worker .accept optionType optionLength
      (admitCalls optionType optionLength)).Sound K := by
  refine ⟨⟨?_, ?_, ?_, ?_⟩, ?_, ?_, fun _ _ => rfl⟩
  · cases optionType <;> simp [Req.start, admitCalls, CounterCall.target]
  · cases optionType <;> simp [Req.start, admitCalls, CounterCall.isGet]
  · cases optionType <;> simp [Req.start, admitCalls, CounterCall.amount, CounterCall.target,
      Req.weight]
  · cases optionType <;> simp [Req.start, admitCalls, CounterCall.target, Req.releases,
      releaseCalls, due]
  · intro k _
    simp [Req.start, Req.releases, due_admitCalls]
  · intro k _
    simp [Req.start]

/-- A rejected request starts sound on every counter but `lwtCount`, which it never entered. -/
theorem start_reject_sound (worker : Nat) (hK : ¬ K .lwtCount) :
    (Req.start worker .reject .gcacheDefault 0 (releaseCalls .gcacheDefault 0)).Sound K := by
  have hne : ∀ k, K k → Counter.lwtCount ≠ k := fun k hk heq => hK (heq ▸ hk)
  refine ⟨⟨?_, ?_, ?_, ?_⟩, ?_, ?_, fun _ _ => rfl⟩
  · simp [Req.start, releaseCalls]
  · simp [Req.start, releaseCalls, CounterCall.isGet]
  · simp [Req.start, releaseCalls, CounterCall.amount, CounterCall.target, Req.weight]
  · simp [Req.start, releaseCalls, CounterCall.target, Req.releases, due]
  · intro k hk
    simp [Req.start, Req.releases, releaseCalls, due, CounterCall.target, hne k hk]
  · intro k hk
    simp [Req.start, Req.releases, releaseCalls, due, CounterCall.target, hne k hk]

/-- The back end releases exactly what the request holds. -/
theorem Req.Sound.finish (h : r.Sound K) (hphase : r.phase = .backend) :
    { r with phase := startCalls .finish (releaseCalls r.optionType r.optionLength) }.Sound K := by
  obtain ⟨_, hadded, hsubtracted, hdropped⟩ := h
  simp only [hphase, Phase.pending, Phase.admitting, due_nil] at hadded hsubtracted
  refine ⟨⟨?_, ?_, ?_, ?_⟩, ?_, ?_, hdropped⟩
  · simp only [pending_startCalls]
    cases r.optionType <;> simp [releaseCalls, CounterCall.target]
  · simp only [pending_startCalls, admitting_startCalls]
    cases r.optionType <;> simp [releaseCalls, CounterCall.isGet]
  · simp only [pending_startCalls]
    cases r.optionType <;> simp [releaseCalls, CounterCall.amount, CounterCall.target, Req.weight]
  · simp only [pending_startCalls, Req.releases, due, List.any_eq_true, decide_eq_true_eq]
    exact fun call hcall => ⟨call, hcall, rfl⟩
  · intro k hk
    rw [hadded k hk]
    simp [Req.releases]
  · intro k hk
    rw [hsubtracted k hk]
    simp [Req.releases]

/-! ## The invariant of the system -/

/-- Every counter in `K` holds its true value modulo 2^64, and every request is sound on them. -/
structure Inv (K : Counter → Prop) (s : State) : Prop where
  value : ∀ k, K k → s.counters k = BitVec.ofNat 64 (s.owed k)
  sound : ∀ r ∈ s.reqs, r.Sound K

/-- The call request `i` is making. -/
def State.currentCall (s : State) (i : Nat) : Option CounterCall :=
  match s.reqs[i]? with
  | some r =>
      match r.phase with
      | .calling _ call _ _ => some call
      | _ => none
  | none => none

/-- Accesses that read `saOpThrottle` read this value. -/
def opThrottleIs (throttle : Word) (s : State) : Event → Bool
  | .access i reading =>
      match s.currentCall i with
      | some call => call.target ≠ .lwtCount || reading = throttle
      | none => true
  | .pop _ _ | .doOneOps _ | .finishCacheOps _ => true

/-- A popped message does not have a short RBD name. -/
def longName : Event → Bool
  | .pop _ op => !shortRbdName op.oid
  | .access _ _ | .doOneOps _ | .finishCacheOps _ => true

variable {s t : State} {event : Event}

/-- No request owes anything in the beginning. -/
theorem inv_init : Inv K init := ⟨fun _ _ => rfl, by simp [init]⟩

/-- Replacing a request by a sound one with the same share in every counter keeps the
invariant. -/
theorem Inv.set {i : Nat} (h : Inv K s) (hr : s.reqs[i]? = some r) (hsound : r'.Sound K)
    (howed : ∀ k, r'.owed k = r.owed k) : Inv K { s with reqs := s.reqs.set i r' } := by
  constructor
  · intro k hk
    have htotal := total_set (Req.owed k) hr r'
    rw [howed k] at htotal
    rw [h.value k hk]
    simp only [State.owed]
    rw [Nat.add_right_cancel htotal]
  · intro r'' hmem
    rcases List.mem_or_eq_of_mem_set hmem with hold | rfl
    · exact h.sound r'' hold
    · exact hsound

/-- A `Put` whose request is in the counter does not find the counter below its amount, as long as
the true value fits the word. -/
theorem Inv.guard_open {k : Counter} {amount : Word} (h : Inv K s) (hk : K k)
    (hfits : s.owed k < 2 ^ 64) (hr : r ∈ s.reqs) (howed : r.owed k = amount.toNat) :
    ¬ s.counters k < amount := by
  have hle : r.owed k ≤ s.owed k := le_total (Req.owed k) hr
  rw [h.value k hk, BitVec.lt_def, BitVec.toNat_ofNat, Nat.mod_eq_of_lt hfits]
  omega

/-- One access keeps the invariant. -/
theorem Inv.access {i : Nat} {reading value : Word} (h : Inv K s) (hr : s.reqs[i]? = some r)
    (hphase : r.phase = .calling stage call rest pc)
    (haccess : accessReq r stage call rest pc (s.counters call.target) reading = (value, r'))
    (hthrottle : K .lwtCount → call.target = .lwtCount → reading ≠ 0)
    (hfits : ∀ k, K k → k ≠ .lwtCount → s.owed k < 2 ^ 64) :
    Inv K ⟨Function.update s.counters call.target value, s.reqs.set i r'⟩ := by
  have hmem : r ∈ s.reqs := List.mem_of_getElem? hr
  obtain ⟨hsound, hother, hmoved⟩ := accessReq_sound (h.sound r hmem) hphase hthrottle
    (fun hK hne howed => h.guard_open hK (hfits _ hK hne) hmem howed) haccess
  constructor
  · intro k hk
    show Function.update s.counters call.target value k =
      BitVec.ofNat 64 (total (Req.owed k) (s.reqs.set i r'))
    have htotal := total_set (Req.owed k) hr r'
    have hbefore : s.counters k = BitVec.ofNat 64 (total (Req.owed k) s.reqs) := h.value k hk
    by_cases heq : k = call.target
    · subst heq
      rw [Function.update_self]
      cases hmoved hk with
      | same hvalue howed =>
          rw [howed] at htotal
          rw [hvalue, hbefore, Nat.add_right_cancel htotal]
      | up hvalue howed =>
          rw [hvalue, hbefore]
          exact ofNat_add_of_eq call.amount (by omega)
      | down hvalue howed =>
          rw [hvalue, hbefore]
          exact ofNat_sub_of_eq call.amount (by omega)
    · rw [hother k heq] at htotal
      rw [Function.update_of_ne heq, hbefore, Nat.add_right_cancel htotal]
  · intro r'' hmem'
    rcases List.mem_or_eq_of_mem_set hmem' with hold | rfl
    · exact h.sound r'' hold
    · exact hsound

/-- A new request owes nothing. -/
theorem owed_start (worker : Nat) (stage : Stage) (optionType : OptionType) (optionLength : Word)
    (calls : List CounterCall) (k : Counter) :
    (Req.start worker stage optionType optionLength calls).owed k = 0 := rfl

/-- Every step keeps the invariant, if `lwtCount` is only tracked while its throttle is on and no
short name is popped, and the other tracked counters fit their words. -/
theorem Inv.step (h : Inv K s) (hstep : step s event = some t)
    (hname : K .lwtCount → longName event = true) {throttle : Word} (hzero : throttle ≠ 0)
    (hthrottle : K .lwtCount → opThrottleIs throttle s event = true)
    (hfits : ∀ k, K k → k ≠ .lwtCount → s.owed k < 2 ^ 64) : Inv K t := by
  cases step_cases hstep with
  | popDropped => exact h
  | @popReq worker op processed r hlive hprocess hnew =>
      have hstart : r.Sound K ∧ ∀ k, r.owed k = 0 := by
        rcases newReq_cases hprocess hnew with ⟨optionType, optionLength, rfl⟩ | ⟨hshort, rfl⟩
        · exact ⟨start_accept_sound worker optionType optionLength, owed_start _ _ _ _ _⟩
        · refine ⟨start_reject_sound worker fun hK => ?_, owed_start _ _ _ _ _⟩
          have hlong := hname hK
          simp [longName, hshort] at hlong
      constructor
      · intro k hk
        rw [h.value k hk]
        simp [State.owed, hstart.2 k]
      · intro r' hmem
        rcases List.mem_append.mp hmem with hold | hnew'
        · exact h.sound r' hold
        · rw [List.mem_singleton.mp hnew']
          exact hstart.1
  | access hr hphase haccess =>
      refine h.access hr hphase haccess (fun hK htarget hreading => ?_) hfits
      have hread := hthrottle hK
      simp only [opThrottleIs, State.currentCall, hr, hphase, htarget, hreading, ne_eq,
        not_true_eq_false, decide_false, Bool.false_or, decide_eq_true_eq] at hread
      exact hzero hread.symm
  | doOneOps hr hphase =>
      have hsound := h.sound _ (List.mem_of_getElem? hr)
      exact h.set hr (hsound.keep (by rw [hphase]; rfl) (by rw [hphase]; rfl)) fun _ => rfl
  | finishCacheOps hr hphase =>
      have hsound := h.sound _ (List.mem_of_getElem? hr)
      exact h.set hr (hsound.finish hphase) fun _ => rfl

/-! ## `lwtCount` -/

/-- Replacing a request that is not done does not add to the requests that are not done. -/
theorem live_set_le {i : Nat} (hr : s.reqs[i]? = some r) (hphase : r.phase ≠ .done)
    (counters : Counter → Word) : live ⟨counters, s.reqs.set i r'⟩ ≤ live s := by
  have htotal := total_set (fun r : Req => if r.phase ≠ .done then 1 else 0) hr r'
  simp only [live, ← total_indicator, decide_eq_true_eq]
  simp only [hphase, ne_eq, not_false_eq_true, if_true] at htotal ⊢
  split_ifs at htotal <;> omega

/-- There are always fewer than 2^64 requests that are not done. -/
theorem live_lt_step (hlive : live s < 2 ^ 64) (hstep : step s event = some t) :
    live t < 2 ^ 64 := by
  cases step_cases hstep with
  | popDropped => exact hlive
  | @popReq worker op processed r hroom hprocess hnew =>
      have hone : [r].countP (·.phase ≠ .done) ≤ 1 := List.countP_le_length
      simp only [live, List.countP_append] at hroom ⊢
      omega
  | access hr hphase haccess =>
      exact (live_set_le hr (by simp [hphase]) _).trans_lt hlive
  | doOneOps hr hphase =>
      exact (live_set_le hr (by simp [hphase]) _).trans_lt hlive
  | finishCacheOps hr hphase =>
      exact (live_set_le hr (by simp [hphase]) _).trans_lt hlive

/-- The true value of a counter that counts requests is the number of requests in it. -/
theorem owed_eq_countP {k : Counter} (hone : ∀ r : Req, r.weight k = 1) (s : State) :
    s.owed k = s.reqs.countP (·.outstanding k) := by
  rw [← total_indicator, State.owed]
  exact total_congr fun r _ => by rw [Req.owed, hone r]

/-- A finished request is in no counter. -/
theorem Req.Sound.outstanding_done {k : Counter} (h : r.Sound K) (hk : K k)
    (hphase : r.phase = .done) : r.outstanding k = false := by
  simp [Req.outstanding, h.added k hk, h.subtracted k hk, hphase, Phase.admitting, Phase.pending]

/-- Only requests that are not done are in a counter of requests. -/
theorem Inv.owed_le_live {k : Counter} (h : Inv K s) (hK : K k)
    (hone : ∀ r : Req, r.weight k = 1) : s.owed k ≤ live s := by
  rw [owed_eq_countP hone, live]
  refine List.countP_mono_left fun r hr hout => ?_
  rw [decide_eq_true_eq]
  intro hphase
  rw [(h.sound r hr).outstanding_done hK hphase] at hout
  cases hout

/-- With the throttle fixed at a value other than zero and no short RBD name popped, `lwtCount` is
in every reachable state the number of requests that were added and not yet subtracted; a request
that has still to subtract itself finds it positive. -/
theorem lwtCount_conserved {throttle : Word} (hzero : throttle ≠ 0)
    (h : Reach step (fun s event => opThrottleIs throttle s event = true ∧ longName event = true)
      init s) :
    (s.counters .lwtCount).toNat = s.reqs.countP (·.outstanding .lwtCount) ∧
      ∀ r ∈ s.reqs, .putlwtCas ∈ r.phase.pending → 0 < (s.counters .lwtCount).toNat := by
  have hinv : Inv (· = .lwtCount) s ∧ live s < 2 ^ 64 := by
    refine h.invariant (fun s => Inv (· = .lwtCount) s ∧ live s < 2 ^ 64) ⟨inv_init, by decide⟩ ?_
    intro s event t hs hok hstep
    refine ⟨hs.1.step hstep (fun _ => hok.2) hzero (fun _ => hok.1) ?_, live_lt_step hs.2 hstep⟩
    intro k hk hne
    exact absurd hk hne
  obtain ⟨hinv, hlive⟩ := hinv
  have hle := hinv.owed_le_live rfl fun _ => rfl
  have hvalue : (s.counters .lwtCount).toNat = s.owed .lwtCount := by
    rw [hinv.value _ rfl, BitVec.toNat_ofNat, Nat.mod_eq_of_lt (by omega)]
  refine ⟨by rw [hvalue, owed_eq_countP fun _ => rfl], fun r hr hput => ?_⟩
  have howed : r.owed .lwtCount = 1 := (hinv.sound r hr).owed_of_put hput rfl rfl
  have hshare : r.owed .lwtCount ≤ s.owed .lwtCount := le_total (Req.owed .lwtCount) hr
  omega

/-- A 4 KiB write to an object outside RBD. -/
def smallWrite : MOSDOp :=
  { oid := ascii "a", ops := [{ op := { op := .write, extentLength := 4096 } }] }

/-- The write is popped and makes all accesses of its three `Get`s. -/
def admitSmallWrite : List Event :=
  [.pop 0 smallWrite, .access 0 5000, .access 0 5000, .access 0 5000, .access 0 5000,
    .access 0 0, .access 0 0, .access 0 0, .access 0 7, .access 0 0, .access 0 0]

/-- The admitted write is counted. -/
theorem lwtCount_admitSmallWrite :
    ∃ s, Reach step (fun s event => opThrottleIs 5000 s event = true ∧ longName event = true)
        init s ∧
      s.reqs.countP (·.outstanding .lwtCount) = 1 ∧ (s.counters .lwtCount).toNat = 1 := by
  have h : Reach step (fun s event => opThrottleIs 5000 s event = true ∧ longName event = true)
      init _ := Reach.of_run admitSmallWrite rfl
  exact ⟨_, h, by decide, (lwtCount_conserved (by decide) h).1⟩

/-- A message whose name starts like an RBD data object and has two sections. -/
def shortNamed : MOSDOp := { oid := ascii "rbd_data.1" }

/-- The answer to a message with a short RBD name takes `lwtCount` from 0 to 2^64 - 1. -/
theorem lwtCount_wraps_on_short_name :
    ∃ s, Reach step (fun s event => opThrottleIs 5000 s event = true) init s ∧
      s.reqs.countP (·.outstanding .lwtCount) = 0 ∧
      s.counters .lwtCount = BitVec.allOnes 64 := by
  have h : Reach step (fun s event => opThrottleIs 5000 s event = true) init _ :=
    Reach.of_run [.pop 0 shortNamed, .access 0 5000, .access 0 5000, .access 0 5000] rfl
  exact ⟨_, h, by decide, by decide⟩

/-! ## The write and read counters -/

/-- The true totals fit the words of their counters. -/
def State.Fits (s : State) : Prop := ∀ k, k ≠ .lwtCount → s.owed k < 2 ^ 64

/-- Only the four counters other than `lwtCount` are tested. -/
instance (s : State) : Decidable s.Fits :=
  decidable_of_iff (s.owed .lwtWriteCount < 2 ^ 64 ∧ s.owed .lwtReadCount < 2 ^ 64 ∧
      s.owed .writeBW < 2 ^ 64 ∧ s.owed .readBW < 2 ^ 64)
    ⟨fun ⟨hw, hr, hwb, hrb⟩ k hk => by cases k <;> first | assumption | exact absurd rfl hk,
      fun h => ⟨h _ (by decide), h _ (by decide), h _ (by decide), h _ (by decide)⟩⟩

/-- As long as the true totals fit, each write and read counter is in every reachable state the
number, or the total length, of the requests that were added and not yet subtracted, no `Put` was
dropped by its guard, and a request that is done is in no counter. The throttles take any values. -/
theorem qos_counters_conserved (h : Reach step (fun s _ => s.Fits) init s) (hfits : s.Fits)
    {k : Counter} (hk : k ≠ .lwtCount) :
    (s.counters k).toNat = s.owed k ∧
      ∀ r ∈ s.reqs, r.dropped k = false ∧ (r.phase = .done → r.outstanding k = false) := by
  have hinv : Inv (· ≠ .lwtCount) s := by
    refine h.invariant (Inv (· ≠ .lwtCount)) inv_init ?_
    intro s event t hs hok hstep
    exact hs.step hstep (fun hK => absurd rfl hK) (by decide : (1 : Word) ≠ 0)
      (fun hK => absurd rfl hK) fun k hk _ => hok k hk
  refine ⟨?_, fun r hr => ?_⟩
  · rw [hinv.value k hk, BitVec.toNat_ofNat, Nat.mod_eq_of_lt (hfits k hk)]
  · have hsound := hinv.sound r hr
    exact ⟨hsound.dropped k hk, fun hdone => hsound.outstanding_done hk hdone⟩

/-- The admitted write is in `writeBW` with its 4 KiB. -/
theorem writeBW_admitSmallWrite :
    ∃ s, Reach step (fun s _ => s.Fits) init s ∧ s.Fits ∧ (s.counters .writeBW).toNat = 4 := by
  have h : Reach step (fun s _ => s.Fits) init _ := Reach.of_run admitSmallWrite rfl
  exact ⟨_, h, by decide, (qos_counters_conserved h (by decide) (by decide)).1⟩

end GlobalCacheAdaptor.ServerAdaptor.Throttle
