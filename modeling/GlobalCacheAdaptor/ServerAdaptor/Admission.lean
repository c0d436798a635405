import GlobalCacheAdaptor.ServerAdaptor.Throttle

/-!
# The admission bound of the QoS gates

A request adds its weight to a counter first and waits afterwards, and it may pass on the value it
added to or on any value it reads later. What has passed is bounded all the same: whoever is let
through saw a counter of at most the throttle, and the counter is at least the weight of everybody
who is through. The counters are 64-bit words, so this needs totals that fit them; the counters of
requests always do.
-/

namespace GlobalCacheAdaptor.ServerAdaptor.Throttle

open Lib

variable {K : Counter → Prop} {r r' : Req} {stage : Stage} {call : CounterCall}
  {rest : List CounterCall} {pc : Pc} {s t : State} {event : Event} {k : Counter} {throttle : Word}

/-! ## Who is admitted -/

/-- The request has been added to the counter and is in the waiting loop of its gate. -/
def Phase.waitsAt (k : Counter) : Phase → Bool
  | .calling _ call _ pc => call.isGet && call.target = k && pc.swapped
  | .gated | .backend | .done => false

/-- The request has passed the last check of the gate and has not been put back. -/
def Req.admitted (k : Counter) (r : Req) : Bool := r.outstanding k && !r.phase.waitsAt k

/-- The total weight of the admitted requests. -/
def State.admitted (k : Counter) (s : State) : Nat :=
  total (fun r => if r.admitted k then r.weight k else 0) s.reqs

/-- The largest weight of a request that goes through the gate. -/
def State.largest (k : Counter) (s : State) : Nat :=
  s.reqs.foldr (fun r m => if r.releases k then max (r.weight k) m else m) 0

/-- Accesses of the calls on a counter that read its throttle read this value. -/
def gateThrottleIs (k : Counter) (throttle : Word) (s : State) : Event → Bool
  | .access i reading =>
      match s.currentCall i with
      | some call => call.target ≠ k || reading = throttle
      | none => true
  | .pop _ _ | .doOneOps _ | .finishCacheOps _ => true

/-- The true total of a bandwidth counter fits its word. -/
def State.FitsAt (k : Counter) (s : State) : Prop :=
  k = .writeBW ∨ k = .readBW → s.owed k < 2 ^ 64

instance (k : Counter) (s : State) : Decidable (s.FitsAt k) :=
  inferInstanceAs (Decidable (_ → _))

/-- The weight of a request of the gate is at most the largest. -/
theorem weight_le_largest (hr : r ∈ s.reqs) (hreleases : r.releases k = true) :
    r.weight k ≤ s.largest k := by
  obtain ⟨counters, reqs⟩ := s
  simp only [State.largest] at hr ⊢
  induction reqs with
  | nil => simp at hr
  | cons first rest ih =>
      rw [List.foldr_cons]
      rcases List.mem_cons.mp hr with rfl | hrest
      · rw [if_pos hreleases]
        exact le_max_left _ _
      · have hle := ih hrest
        split_ifs
        · exact hle.trans (le_max_right _ _)
        · exact hle

/-- A bound on the weights of the gate bounds the largest. -/
theorem largest_le {m : Nat} (h : ∀ r ∈ s.reqs, r.releases k = true → r.weight k ≤ m) :
    s.largest k ≤ m := by
  obtain ⟨counters, reqs⟩ := s
  simp only [State.largest] at h ⊢
  induction reqs with
  | nil => exact Nat.zero_le _
  | cons first rest ih =>
      rw [List.foldr_cons]
      have hrest := ih fun r hr => h r (List.mem_cons_of_mem _ hr)
      split_ifs with hreleases
      · exact max_le (h first List.mem_cons_self hreleases) hrest
      · exact hrest

/-! ## Who the gate lets through -/

/-- The request waits, and what it saw last does not let it go. A value that has just been loaded
already decides, although the comparison is another access. -/
def Phase.blockedAt (k : Counter) (throttle : Word) : Phase → Bool
  | .calling _ call _ .reload => call.isGet && call.target = k
  | .calling _ call _ (.rethrottle old) => call.isGet && call.target = k && throttle < old
  | .calling _ _ _ .enter | .calling _ _ _ (.load _) | .calling _ _ _ (.cas _ _) => false
  | .gated | .backend | .done => false

/-- What a request that is not blocked has in the counter. -/
def Req.cleared (k : Counter) (throttle : Word) (r : Req) : Nat :=
  if r.phase.blockedAt k throttle then 0 else r.owed k

/-- A `Get` on the counter compares with the throttle it read. -/
def Phase.Reads (k : Counter) (throttle : Word) : Phase → Prop
  | .calling _ call _ (.load value) | .calling _ call _ (.cas value _) =>
      call.isGet = true → call.target = k → value = throttle
  | _ => True

@[simp] theorem blockedAt_startCalls (stage : Stage) (calls : List CounterCall) :
    (startCalls stage calls).blockedAt k throttle = false := by
  cases calls <;> cases stage <;> rfl

@[simp] theorem reads_startCalls (stage : Stage) (calls : List CounterCall) :
    (startCalls stage calls).Reads k throttle := by
  cases calls <;> cases stage <;> trivial

/-- A blocked request still waits. -/
theorem waitsAt_of_blockedAt {phase : Phase} (h : phase.blockedAt k throttle = true) :
    phase.waitsAt k = true := by
  cases phase with
  | calling stage call rest pc =>
      cases pc <;> simp_all [Phase.blockedAt, Phase.waitsAt, Pc.swapped]
  | gated => cases h
  | backend => cases h
  | done => cases h

/-- An admitted request is not blocked. -/
theorem admitted_le_cleared (throttle : Word) (r : Req) :
    (if r.admitted k then r.weight k else 0) ≤ r.cleared k throttle := by
  unfold Req.cleared Req.owed Req.admitted
  cases hblocked : r.phase.blockedAt k throttle with
  | true => simp [waitsAt_of_blockedAt hblocked]
  | false =>
      simp only [Bool.false_eq_true, if_false]
      cases r.outstanding k <;> cases r.phase.waitsAt k <;> simp

/-- Nobody has more cleared than owed. -/
theorem cleared_le_owed (k : Counter) (throttle : Word) (r : Req) :
    r.cleared k throttle ≤ r.owed k := by
  unfold Req.cleared
  split_ifs
  · exact Nat.zero_le _
  · exact le_rfl

/-- A blocked request is not through. -/
theorem cleared_of_blocked (h : r.phase.blockedAt k throttle = true) :
    r.cleared k throttle = 0 := by
  rw [Req.cleared, if_pos h]

/-- A request whose share stays is not let through as long as it stays blocked. -/
theorem cleared_le_of_keep (howed : r'.owed k = r.owed k)
    (hblocked : r.phase.blockedAt k throttle = true → r'.phase.blockedAt k throttle = true) :
    r'.cleared k throttle ≤ r.cleared k throttle := by
  cases hbefore : r.phase.blockedAt k throttle with
  | true =>
      rw [cleared_of_blocked (hblocked hbefore)]
      exact Nat.zero_le _
  | false =>
      have hcleared : r.cleared k throttle = r.owed k := by simp [Req.cleared, hbefore]
      rw [hcleared, ← howed]
      exact cleared_le_owed k throttle r'

/-! ## One access -/

/-- The `Get`s of the write and read counters share their body. -/
theorem access_of_get (hget : call.isGet = true) (htarget : call.target ≠ .lwtCount)
    (pc : Pc) (counter reading : Word) :
    call.access pc counter reading = getCas call.amount pc counter reading := by
  cases call with
  | getlwtCas c => exact absurd rfl htarget
  | getWritelwtCas c => rfl
  | getReadlwtCas c => rfl
  | getWriteBWCas c => rfl
  | getReadBWCas c => rfl
  | putlwtCas => cases hget
  | putWritelwtCas => cases hget
  | putReadlwtCas => cases hget
  | putWriteBWCas c => cases hget
  | putReadBWCas c => cases hget

/-- After an access the call goes on, or the next one starts. -/
def Follows (stage : Stage) (call : CounterCall) (rest : List CounterCall) (phase : Phase) : Prop :=
  (∃ pc, phase = .calling stage call rest pc) ∨ phase = startCalls stage rest

theorem follows_afterSwap (next : Option Pc) :
    Follows stage call rest (afterSwap stage call rest next) := by
  cases next with
  | none => exact .inr rfl
  | some pc => exact .inl ⟨pc, rfl⟩

/-- Everything an access can do to its request. -/
inductive Accessed (r : Req) (stage : Stage) (call : CounterCall) (rest : List CounterCall) :
    Req → Prop where
  | kept {phase : Phase} (hphase : Follows stage call rest phase) :
      Accessed r stage call rest { r with phase := phase }
  | dropped {phase : Phase} (hphase : Follows stage call rest phase) :
      Accessed r stage call rest
        { r with phase := phase, dropped := Function.update r.dropped call.target true }
  | added {phase : Phase} (hphase : Follows stage call rest phase) (hget : call.isGet = true) :
      Accessed r stage call rest
        { r with phase := phase, added := Function.update r.added call.target true }
  | subtracted {phase : Phase} (hphase : Follows stage call rest phase) :
      Accessed r stage call rest
        { r with phase := phase, subtracted := Function.update r.subtracted call.target true }

/-- Every access does one of the listed things. -/
theorem accessReq_cases {counter reading value : Word}
    (haccess : accessReq r stage call rest pc counter reading = (value, r')) :
    Accessed r stage call rest r' := by
  unfold accessReq at haccess
  split at haccess
  · cases haccess
    exact .kept (.inl ⟨_, rfl⟩)
  · cases haccess
    exact .kept (.inr rfl)
  · cases haccess
    exact .dropped (.inr rfl)
  · split_ifs at haccess with hget
    · cases haccess
      exact .added (follows_afterSwap _) hget
    · cases haccess
      exact .subtracted (follows_afterSwap _)

theorem Accessed.follows (h : Accessed r stage call rest r') :
    Follows stage call rest r'.phase := by
  cases h <;> assumption

/-- An access keeps the weight of its request and the counters it goes through. -/
theorem Accessed.frame (h : Accessed r stage call rest r') :
    r'.weight k = r.weight k ∧ r'.releases k = r.releases k := by
  cases h <;> exact ⟨rfl, rfl⟩

/-- Only a `Get` on the counter can add to what the request has in it. -/
theorem Accessed.owed_le (h : Accessed r stage call rest r')
    (hother : (call.isGet && call.target = k) = false) : r'.owed k ≤ r.owed k := by
  cases h with
  | kept hphase => exact le_rfl
  | dropped hphase => exact le_rfl
  | added hphase hget =>
      have hne : k ≠ call.target := by
        intro heq
        simp [hget, heq] at hother
      simp only [Req.owed, Req.outstanding, Function.update_of_ne hne]
      exact le_rfl
  | subtracted hphase =>
      by_cases heq : k = call.target
      · simp [Req.owed, Req.outstanding, heq]
      · simp only [Req.owed, Req.outstanding, Function.update_of_ne heq]
        exact le_rfl

/-- An access of any other call blocks nobody at the gate, and adds nothing to what is through. -/
theorem cleared_of_other {counter reading value : Word}
    (hphase : r.phase = .calling stage call rest pc)
    (haccess : accessReq r stage call rest pc counter reading = (value, r'))
    (hother : (call.isGet && call.target = k) = false) :
    r'.phase.Reads k throttle ∧ r'.cleared k throttle ≤ r.cleared k throttle := by
  have hfree : ∀ pc, (Phase.calling stage call rest pc).blockedAt k throttle = false := by
    intro pc
    cases pc <;> simp_all [Phase.blockedAt]
  have hreads : ∀ pc, (Phase.calling stage call rest pc).Reads k throttle := by
    intro pc
    cases pc <;> simp_all [Phase.Reads]
  have haccessed := accessReq_cases haccess
  have hbefore : r.cleared k throttle = r.owed k := by
    simp [Req.cleared, hphase, hfree]
  rw [hbefore]
  constructor
  · rcases haccessed.follows with ⟨pc', hpc'⟩ | hnext
    · rw [hpc']
      exact hreads pc'
    · rw [hnext]
      exact reads_startCalls _ _
  · exact (cleared_le_owed k throttle r').trans (haccessed.owed_le hother)

/-- An access of a `Get` at the gate lets its request through only if the counter is at most the
throttle. -/
theorem cleared_of_get {counter reading value : Word} (hzero : throttle ≠ 0)
    (hk : k ≠ .lwtCount) (hget : call.isGet = true) (htarget : call.target = k)
    (hreading : reading = throttle) (hphase : r.phase = .calling stage call rest pc)
    (hreads : r.phase.Reads k throttle)
    (haccess : accessReq r stage call rest pc counter reading = (value, r')) :
    r'.phase.Reads k throttle ∧
      (r'.cleared k throttle ≤ r.cleared k throttle ∨ counter ≤ throttle) := by
  subst hreading
  rw [accessReq, access_of_get hget (htarget ▸ hk)] at haccess
  rw [hphase] at hreads
  cases pc with
  | enter =>
      cases haccess
      refine ⟨fun _ _ => rfl, .inl (cleared_le_of_keep rfl fun hblocked => ?_)⟩
      rw [hphase] at hblocked
      cases hblocked
  | load value =>
      cases haccess
      refine ⟨hreads, .inl (cleared_le_of_keep rfl fun hblocked => ?_)⟩
      rw [hphase] at hblocked
      cases hblocked
  | cas throttle old =>
      obtain rfl : throttle = reading := hreads hget htarget
      simp only [getCas, if_neg hzero] at haccess
      split_ifs at haccess with hsame hless
      · -- the wait begins, as the value before the addition is above the throttle
        subst hsame
        cases haccess
        refine ⟨trivial, .inl ?_⟩
        rw [cleared_of_blocked (by simp [afterSwap, Phase.blockedAt, hget, htarget])]
        exact Nat.zero_le _
      · subst hsame
        cases haccess
        exact ⟨reads_startCalls _ _, .inr (BitVec.not_lt.mp hless)⟩
      · cases haccess
        refine ⟨hreads, .inl (cleared_le_of_keep rfl fun hblocked => ?_)⟩
        rw [hphase] at hblocked
        cases hblocked
  | reload =>
      cases haccess
      refine ⟨trivial, ?_⟩
      by_cases hless : reading < counter
      · left
        rw [cleared_of_blocked (by simp [Phase.blockedAt, hget, htarget, hless])]
        exact Nat.zero_le _
      · exact .inr (BitVec.not_lt.mp hless)
  | rethrottle old =>
      simp only [getCas, if_neg hzero] at haccess
      split_ifs at haccess with hless
      · cases haccess
        refine ⟨trivial, .inl ?_⟩
        rw [cleared_of_blocked (by simp [Phase.blockedAt, hget, htarget])]
        exact Nat.zero_le _
      · cases haccess
        -- the loaded value had already let the request through
        refine ⟨reads_startCalls _ _, .inl (cleared_le_of_keep rfl fun hblocked => ?_)⟩
        simp [hphase, Phase.blockedAt, hless] at hblocked

/-! ## The invariant of the gate -/

/-- The counter is sound, the calls compare with the throttle, and what is through is at most the
throttle and one weight. -/
structure GateInv (k : Counter) (throttle : Word) (s : State) : Prop where
  sound : Inv (· = k) s
  live_lt : live s < 2 ^ 64
  reads : ∀ r ∈ s.reqs, r.phase.Reads k throttle
  cleared_le : total (Req.cleared k throttle) s.reqs ≤ throttle.toNat + s.largest k

/-- A request that is in the counter goes through its gate. -/
theorem Req.Sound.owed_le_largest (h : r.Sound K) (hK : K k) (hr : r ∈ s.reqs) :
    r.owed k ≤ s.largest k := by
  unfold Req.owed
  split_ifs with hout
  · refine weight_le_largest hr ?_
    rw [Req.outstanding, h.added k hK] at hout
    simp_all
  · exact Nat.zero_le _

/-- A request has the weight and the gates of another. -/
def Req.SameShare (k : Counter) (r r' : Req) : Prop :=
  r'.weight k = r.weight k ∧ r'.releases k = r.releases k

/-- A state that still has the shares of another has at least its largest weight. -/
theorem largest_mono (h : ∀ r ∈ s.reqs, ∃ r' ∈ t.reqs, r.SameShare k r') :
    s.largest k ≤ t.largest k := by
  refine largest_le fun r hr hreleases => ?_
  obtain ⟨r', hr', hweight, hsame⟩ := h r hr
  rw [← hweight]
  exact weight_le_largest hr' (by rw [hsame, hreleases])

/-- Replacing a request by one with the same share does not lower the largest weight. -/
theorem largest_le_set {i : Nat} (counters : Counter → Word) (hr : s.reqs[i]? = some r)
    (hshare : r.SameShare k r') :
    s.largest k ≤ (State.mk counters (s.reqs.set i r')).largest k := by
  refine largest_mono fun first hfirst => ?_
  obtain ⟨j, hj⟩ := List.mem_iff_getElem?.mp hfirst
  by_cases heq : i = j
  · subst heq
    obtain rfl : first = r := Option.some.inj (hj.symm.trans hr)
    obtain ⟨hlen, -⟩ := List.getElem?_eq_some_iff.mp hj
    exact ⟨r', List.mem_set hlen _, hshare⟩
  · refine ⟨first, List.mem_of_getElem? (i := j) ?_, rfl, rfl⟩
    rw [List.getElem?_set_ne heq, hj]

/-- A request that changes keeps the invariant of the gate if nothing gets through by it, or if the
counter is at most the throttle. -/
theorem GateInv.set {i : Nat} {counters : Counter → Word} (h : GateInv k throttle s)
    (hfits : s.owed k < 2 ^ 64) (hr : s.reqs[i]? = some r) (hshare : r.SameShare k r')
    (hsound : Inv (· = k) ⟨counters, s.reqs.set i r'⟩)
    (hlive : live ⟨counters, s.reqs.set i r'⟩ < 2 ^ 64) (hreads : r'.phase.Reads k throttle)
    (hcleared : r'.cleared k throttle ≤ r.cleared k throttle ∨ s.counters k ≤ throttle) :
    GateInv k throttle ⟨counters, s.reqs.set i r'⟩ := by
  refine ⟨hsound, hlive, ?_, ?_⟩
  · intro r'' hmem
    rcases List.mem_or_eq_of_mem_set hmem with hold | rfl
    · exact h.reads r'' hold
    · exact hreads
  · have htotal := total_set (Req.cleared k throttle) hr r'
    have hlargest := largest_le_set counters hr hshare
    have hbefore := h.cleared_le
    rcases hcleared with hle | hcounter
    · show total (Req.cleared k throttle) (s.reqs.set i r') ≤ _
      omega
    · -- whoever is through is in the counter, and the counter is at most the throttle
      have howed : total (Req.cleared k throttle) s.reqs ≤ s.owed k :=
        total_le_total fun r _ => cleared_le_owed k throttle r
      have hvalue : (s.counters k).toNat = s.owed k := by
        rw [h.sound.value k rfl, BitVec.toNat_ofNat, Nat.mod_eq_of_lt hfits]
      have hlow : (s.counters k).toNat ≤ throttle.toNat := hcounter
      have hmem : r' ∈ s.reqs.set i r' :=
        List.mem_set (List.getElem?_eq_some_iff.mp hr).1 _
      have hshare' : r'.owed k ≤ (State.mk counters (s.reqs.set i r')).largest k :=
        (hsound.sound r' hmem).owed_le_largest (s := ⟨counters, s.reqs.set i r'⟩) rfl hmem
      have hnew := cleared_le_owed k throttle r'
      show total (Req.cleared k throttle) (s.reqs.set i r') ≤ _
      omega

/-- The word of the counter holds its true total, also when the counter counts requests. -/
theorem GateInv.owed_lt (h : GateInv k throttle s) (hk : k ≠ .lwtCount) (hfits : s.FitsAt k) :
    s.owed k < 2 ^ 64 := by
  cases k with
  | lwtCount => exact absurd rfl hk
  | lwtWriteCount => exact (h.sound.owed_le_live rfl fun _ => rfl).trans_lt h.live_lt
  | lwtReadCount => exact (h.sound.owed_le_live rfl fun _ => rfl).trans_lt h.live_lt
  | writeBW => exact hfits (.inl rfl)
  | readBW => exact hfits (.inr rfl)

/-- Nobody is at the gate in the beginning. -/
theorem gateInv_init (k : Counter) (throttle : Word) : GateInv k throttle init :=
  ⟨inv_init, by decide, by simp [init], by simp [init]⟩

/-- Every step keeps the invariant of the gate. -/
theorem GateInv.step (h : GateInv k throttle s) (hk : k ≠ .lwtCount) (hzero : throttle ≠ 0)
    (hreading : gateThrottleIs k throttle s event = true) (hfits : s.FitsAt k)
    (hstep : step s event = some t) : GateInv k throttle t := by
  have howed := h.owed_lt hk hfits
  have hsound : Inv (· = k) t :=
    h.sound.step hstep (fun heq => absurd heq.symm hk) hzero (fun heq => absurd heq.symm hk)
      fun k' hk' _ => hk' ▸ howed
  have hlive := live_lt_step h.live_lt hstep
  cases step_cases hstep with
  | popDropped => exact h
  | @popReq worker op processed r hroom hprocess hnew =>
      have hstart : r.phase.Reads k throttle ∧ r.owed k = 0 := by
        rcases newReq_cases hprocess hnew with ⟨optionType, optionLength, rfl⟩ | ⟨-, rfl⟩
        · exact ⟨by simp [Req.start], rfl⟩
        · exact ⟨by simp [Req.start], rfl⟩
      refine ⟨hsound, hlive, ?_, ?_⟩
      · intro r' hmem
        rcases List.mem_append.mp hmem with hold | hnew'
        · exact h.reads r' hold
        · rw [List.mem_singleton.mp hnew']
          exact hstart.1
      · have hcleared := cleared_le_owed k throttle r
        have hbefore := h.cleared_le
        have hlargest : s.largest k ≤ (State.mk s.counters (s.reqs ++ [r])).largest k :=
          largest_mono fun r' hr' => ⟨r', List.mem_append_left _ hr', rfl, rfl⟩
        rw [total_append, total_cons, total_nil]
        omega
  | @access i reading value r r' stage call rest pc hr hphase haccess =>
      have hreads := h.reads r (List.mem_of_getElem? hr)
      have haccessed := accessReq_cases haccess
      cases hother : call.isGet && call.target = k with
      | false =>
          obtain ⟨hreads', hcleared⟩ := cleared_of_other hphase haccess hother
          exact h.set howed hr haccessed.frame hsound hlive hreads' (.inl hcleared)
      | true =>
          obtain ⟨hget, htarget⟩ : call.isGet = true ∧ call.target = k := by simpa using hother
          have hread : reading = throttle := by
            simpa [gateThrottleIs, State.currentCall, hr, hphase, htarget] using hreading
          rw [htarget] at haccess
          obtain ⟨hreads', hcleared⟩ :=
            cleared_of_get hzero hk hget htarget hread hphase hreads haccess
          exact h.set howed hr haccessed.frame hsound hlive hreads' hcleared
  | @doOneOps i r hr hphase =>
      refine h.set howed hr ⟨rfl, rfl⟩ hsound hlive trivial (.inl (cleared_le_of_keep rfl ?_))
      simp [hphase, Phase.blockedAt]
  | @finishCacheOps i r hr hphase =>
      refine h.set howed hr ⟨rfl, rfl⟩ hsound hlive (reads_startCalls _ _)
        (.inl (cleared_le_of_keep rfl ?_))
      simp [hphase, Phase.blockedAt]

/-! ## The bound -/

/-- With the throttle of a write or read counter fixed at a value other than zero, the admitted
requests weigh in every reachable state at most the throttle and the largest single weight, as long
as the total in a bandwidth counter fits its word. For the counters of requests that is the
throttle and one, without a condition. -/
theorem admitted_le (hk : k ≠ .lwtCount) (hzero : throttle ≠ 0)
    (h : Reach step (fun s event => gateThrottleIs k throttle s event = true ∧ s.FitsAt k)
      init s) :
    s.admitted k ≤ throttle.toNat + s.largest k ∧
      (k = .lwtWriteCount ∨ k = .lwtReadCount → s.admitted k ≤ throttle.toNat + 1) := by
  have hinv : GateInv k throttle s :=
    h.invariant (GateInv k throttle) (gateInv_init k throttle) fun s event t hs hok hstep =>
      hs.step hk hzero hok.1 hok.2 hstep
  have hle : s.admitted k ≤ throttle.toNat + s.largest k :=
    (total_le_total fun r _ => admitted_le_cleared throttle r).trans hinv.cleared_le
  refine ⟨hle, fun hcount => ?_⟩
  have hone : s.largest k ≤ 1 := by
    refine largest_le fun r _ _ => ?_
    rcases hcount with rfl | rfl
    · exact le_rfl
    · exact le_rfl
  omega

/-- The accesses that add write `i` to its three counters, with a bandwidth throttle of 7. -/
def writeAccesses (i : Nat) : List Event :=
  [.access i 5000, .access i 5000, .access i 5000, .access i 5000, .access i 0, .access i 0,
    .access i 0, .access i 7, .access i 7, .access i 7]

/-- Three writes of 4 KiB, on three objects, at the bandwidth gate with a throttle of 7: two pass,
which is more than the throttle, and the third waits. -/
theorem admitted_le_smallWrites :
    ∃ s, Reach step (fun s event => gateThrottleIs .writeBW 7 s event = true ∧ s.FitsAt .writeBW)
        init s ∧
      s.admitted .writeBW = 8 ∧ s.owed .writeBW = 12 ∧ s.largest .writeBW = 4 ∧
      s.admitted .writeBW ≤ (7 : Word).toNat + s.largest .writeBW ∧
      (Counter.writeBW = .lwtWriteCount ∨ Counter.writeBW = .lwtReadCount →
        s.admitted .writeBW ≤ (7 : Word).toNat + 1) := by
  have h : Reach step
      (fun s event => gateThrottleIs .writeBW 7 s event = true ∧ s.FitsAt .writeBW) init _ :=
    Reach.of_run ([.pop 0 smallWrite, .pop 1 { smallWrite with oid := ascii "b" },
      .pop 2 { smallWrite with oid := ascii "c" }] ++ writeAccesses 0 ++ writeAccesses 1 ++
      writeAccesses 2 ++ [.access 2 7, .access 2 7]) rfl
  exact ⟨_, h, by decide, by decide, by decide, admitted_le (by decide) (by decide) h⟩

/-! ## A bandwidth counter that wraps -/

/-- The kibibytes a read op adds to its message. -/
def readKib (i : OSDOp) : Nat := (i.op.extentLength / 1024).toNat

/-- A message of reads to an object outside RBD adds up their kibibytes, modulo 2^64. -/
theorem convertOps_reads (name : Bytes) (sections : List Bytes) {ops : List OSDOp}
    (hops : ∀ i ∈ ops, i.op.op = .read) (st : LoopState) :
    ∃ st', convertOps name sections false ops st = .ok (some st') ∧
      st'.optionType.write = st.optionType.write ∧
      st'.optionLength.read = st.optionLength.read + BitVec.ofNat 64 (total readKib ops) := by
  induction ops generalizing st with
  | nil => exact ⟨st, rfl, rfl, by simp⟩
  | cons i rest ih =>
      obtain ⟨hread, hrest⟩ := List.forall_mem_cons.mp hops
      have hconvert : ∀ oneOp, ∃ converted,
          convertClientopToOpreq i oneOp st.optionType st.optionLength = .ok converted ∧
            converted.optionType.write = st.optionType.write ∧
            converted.optionLength.read =
              st.optionLength.read + i.op.extentLength / 1024 := by
        intro oneOp
        simp only [convertClientopToOpreq, hread]
        exact ⟨_, rfl, rfl, rfl⟩
      obtain ⟨converted, hi, hwrite, hlength⟩ :=
        hconvert { opSubType := .other 0, objName := cStr name }
      obtain ⟨st', hst', hwrite', hlength'⟩ := ih hrest
        { vecOps := st.vecOps ++ [converted.oneOp]
          exitsCopyUp := st.exitsCopyUp || converted.ret = 1
          optionType := converted.optionType
          optionLength := converted.optionLength }
      refine ⟨st', ?_, hwrite'.trans hwrite, ?_⟩
      · simp only [convertOps, newOneOp, Bool.false_eq_true, if_false, hi]
        exact hst'
      · rw [hlength', hlength, total_cons, BitVec.ofNat_add, readKib, BitVec.ofNat_toNat,
          BitVec.setWidth_eq, BitVec.add_assoc]

/-- A read of a number of bytes. -/
def readOf (length : Word) : OSDOp := { op := { op := .read, extentLength := length } }

/-- A message of 512 reads of 2^64 - 1 bytes and one of 512 KiB: 2^63 KiB in all. -/
def hugeRead (oid : Bytes) : MOSDOp :=
  { oid := oid,
    ops := List.replicate 512 (readOf (BitVec.allOnes 64)) ++ [readOf (512 * 1024)] }

theorem hugeRead_oid (oid : Bytes) : (hugeRead oid).oid = oid := rfl

/-- The weight of the message. -/
def hugeKib : Word := BitVec.twoPow 64 63

/-- A worker takes the message with all of its weight. -/
theorem newReq_hugeRead (worker : Nat) {oid : Bytes} (hname : shortRbdName oid = false)
    (hmark : hasRbdMark (strtok oid) = false) :
    ∃ processed, processOpReq (hugeRead oid) = .ok processed ∧
      newReq worker processed =
        some (.start worker .accept .gcacheRead hugeKib (admitCalls .gcacheRead hugeKib)) := by
  have hreads : ∀ i ∈ (hugeRead oid).ops, i.op.op = .read := by
    intro i hi
    rcases List.mem_append.mp hi with hi | hi
    · rw [List.eq_of_mem_replicate hi]
      rfl
    · rw [List.mem_singleton.mp hi]
      rfl
  have htotal : total readKib (hugeRead oid).ops = 2 ^ 63 := by
    rw [hugeRead, total_append, total_replicate, total_cons, total_nil]
    decide
  obtain ⟨st, hst, hwrite, hlength⟩ :=
    convertOps_reads oid (strtok oid) hreads {}
  have hread : st.optionLength.read = hugeKib := by
    rw [hlength, htotal]
    decide
  have hprocess : processOpReq (hugeRead oid) =
      .ok ⟨0, completeRequest (hugeRead oid) st, []⟩ := by
    have hshort : shortRbdName (hugeRead oid).oid = false := hname
    rw [processOpReq_of_not_short hshort, hugeRead_oid, hmark, hst]
  refine ⟨_, hprocess, ?_⟩
  simp only [newReq, completeRequest, hwrite, hread]
  rfl

/-- A popped message that becomes a request is appended to the requests. -/
theorem step_pop {worker : Nat} {op : MOSDOp} {processed : Processed}
    (hfree : s.reqs.any (·.occupies worker) = false) (hroom : live s + 1 < 2 ^ 64)
    (hprocess : processOpReq op = .ok processed) (hnew : newReq worker processed = some r) :
    step s (.pop worker op) = some { s with reqs := s.reqs ++ [r] } := by
  simp only [step, hfree, Bool.false_eq_true, if_false, if_neg (Nat.not_le.mpr hroom), hprocess,
    hnew]

/-- The accesses that add a request to its three counters. -/
def addAccesses (i : Nat) : List Event :=
  [.access i 0, .access i 10, .access i 10, .access i 10, .access i 10, .access i 10, .access i 10]

/-- Two messages of 2^63 KiB each, on two objects: the first passes a throttle of 10 at once, and
the second, which has to wait, takes the counter back to 0 and passes too. -/
theorem not_admitted_le_wrapped :
    ∃ s, Reach step (fun s event => gateThrottleIs .readBW 10 s event = true) init s ∧
      ¬ s.admitted .readBW ≤ (10 : Word).toNat + s.largest .readBW := by
  obtain ⟨processed, hprocess, hnew⟩ :=
    newReq_hugeRead 0 (show shortRbdName (ascii "a") = false by decide) (by decide)
  obtain ⟨processed', hprocess', hnew'⟩ :=
    newReq_hugeRead 1 (show shortRbdName (ascii "b") = false by decide) (by decide)
  have hstart : Reach step (fun s event => gateThrottleIs .readBW 10 s event = true) init init :=
    .start
  have hfirst := hstart.next rfl (step_pop rfl (by decide) hprocess hnew)
  have hadded := hfirst.trans (Reach.of_run (addAccesses 0) rfl)
  have hsecond := hadded.next rfl (step_pop rfl (by decide) hprocess' hnew')
  have hlast := hsecond.trans
    (Reach.of_run (addAccesses 1 ++ [.access 1 10, .access 1 10]) rfl)
  exact ⟨_, hlast, by decide⟩

end GlobalCacheAdaptor.ServerAdaptor.Throttle
