import GlobalCacheAdaptor.Lib.Ledger
import GlobalCacheAdaptor.Lib.Run
import GlobalCacheAdaptor.ServerAdaptor.SaDef

/-!
# The write quota of a cycle

`LimitWrite` of `network_module.cpp` counts the kibibytes written in a quota cycle and sleeps until
the cycle's end once they reach the budget of the cycle. The budget is the write ratio scaled to the
cycle, and both the scaling and the count are truncating divisions. The bytes that pass before the
sleep are compared with the exact quota, for any clock readings.
-/

namespace GlobalCacheAdaptor.ServerAdaptor.LimitWrite

open Lib

/-! ## The code -/

/-- `QosParam`, with the check `OSA_Init` makes on the cycle. The throttles are not used here. -/
structure QosParam where
  limitWrite : BitVec 32
  getQuotaCycle : BitVec 32
  one_le : 1 ≤ getQuotaCycle

/-- The members of `NetworkModule` that `LimitWrite` uses. Points of time are in nanoseconds. -/
structure LimitState where
  cycleBegin : Int
  periodBW : BitVec 64 := 0
  wcacheBW : BitVec 64 := BitVec.allOnes 64
  writeRatio : BitVec 32 := 0

/-- One enqueued message, and what the call reads: the clock three times, the quotas
`GetWriteQuota` gives in turn, and the garbage in `timeInterval` if the clock is behind
`cycleBegin`. -/
structure Call where
  op : MOSDOp
  nowTime : Int
  garbage : Int := 0
  quotas : List (BitVec 32) := []
  beginTime : Int
  checkTime : Int

/-- The op is a `WRITE` or a `WRITEFULL`. -/
def isWrite (i : OSDOp) : Bool := i.op.op = .writeFull || i.op.op = .write

/-- `NetworkModule::ContainWriteOp`. -/
def containWriteOp (op : MOSDOp) : Bool := op.ops.any isWrite

/-- `duration_cast<milliseconds>`. -/
def toMillis (nanos : Int) : Int := nanos.tdiv 1000000

/-- `timeInterval` at the head of the loop. -/
def timeInterval (s : LimitState) (call : Call) : Int :=
  if s.cycleBegin ≤ call.nowTime then toMillis (call.nowTime - s.cycleBegin) else call.garbage

/-- The call starts a new cycle. -/
def startsCycle (qos : QosParam) (s : LimitState) (call : Call) : Bool :=
  (qos.getQuotaCycle.toNat : Int) ≤ timeInterval s call

/-- The budget of a cycle in KiB, in 32-bit arithmetic. -/
def budget (cycle ratio : BitVec 32) : BitVec 32 :=
  if cycle < 1000 then ratio / (1000 / cycle) else ratio * (cycle / 1000)

/-- The loop that starts a cycle. A ratio of zero sleeps and asks again, so the call returns only
when a ratio is not zero. -/
def startCycle (cycle : BitVec 32) (beginTime : Int) :
    List (BitVec 32) → LimitState → Option LimitState
  | [], _ => none
  | ratio :: rest, s =>
      let s := { s with writeRatio := ratio, wcacheBW := (budget cycle ratio).setWidth 64 }
      if ratio = 0 then startCycle cycle beginTime rest s
      else some { s with periodBW := 0, cycleBegin := beginTime }

/-- The loop that adds the lengths of the write ops. -/
def collect (ops : List OSDOp) (periodBW : BitVec 64) : BitVec 64 :=
  ops.foldl (fun bw i => if isWrite i then bw + i.op.extentLength / 1024 else bw) periodBW

/-- The argument of the last `usleep`, if it is called. -/
def sleepMicros (cycle : BitVec 32) (s : LimitState) (checkTime : Int) : Option (BitVec 32) :=
  if s.periodBW < s.wcacheBW then none
  else
    let interval := toMillis (checkTime - s.cycleBegin)
    if interval ≤ cycle.toNat then
      let iWait := BitVec.ofInt 32 (cycle.toNat - interval)
      if iWait ≠ 0 then some (iWait * 1000) else none
    else none

/-- `NetworkModule::LimitWrite`: the members after the call, and its last sleep. -/
def limitWrite (qos : QosParam) (s : LimitState) (call : Call) :
    Option (LimitState × Option (BitVec 32)) :=
  let entered :=
    if startsCycle qos s call then startCycle qos.getQuotaCycle call.beginTime call.quotas s
    else some s
  entered.map fun s =>
    let s := { s with periodBW := collect call.op.ops s.periodBW }
    (s, sleepMicros qos.getQuotaCycle s call.checkTime)

/-! ## The system -/

/-- The members, and the history of the current cycle: the messages accounted up to the call that
slept until its end, and whether there was one. -/
structure State where
  limit : LimitState
  accounted : List MOSDOp := []
  slept : Bool := false

/-- The sleep lasts until the end of the cycle. -/
def sleepsToEnd (cycle : BitVec 32) (s : LimitState) (checkTime : Int) : Option (BitVec 32) → Bool
  | some micros => 1000 * (cycle.toNat - toMillis (checkTime - s.cycleBegin)) ≤ micros.toNat
  | none => false

/-- The history after a call. -/
def State.after (qos : QosParam) (s : State) (call : Call) (limit : LimitState) (slept : Bool) :
    State :=
  if startsCycle qos s.limit call then { limit := limit, accounted := [call.op], slept := slept }
  else if s.slept then { s with limit := limit }
  else { limit := limit, accounted := s.accounted ++ [call.op], slept := slept }

/-- The end of `EnqueueClientop`, which passes messages with a write op through `LimitWrite` one at
a time. -/
def step (qos : QosParam) (s : State) (call : Call) : Option State :=
  if qos.limitWrite ≠ 0 ∧ containWriteOp call.op then
    match limitWrite qos s.limit call with
    | none => none
    | some (limit, sleep) =>
        some (s.after qos call limit (sleepsToEnd qos.getQuotaCycle limit call.checkTime sleep))
  else some s

/-- The members when the module is constructed. -/
def init (cycleBegin : Int) : State := { limit := { cycleBegin := cycleBegin } }

/-- The bytes of the write ops of a message. -/
def writeBytes (op : MOSDOp) : Nat :=
  total (fun i => if isWrite i then i.op.extentLength.toNat else 0) op.ops

/-- The kibibytes of the write ops of a message, each rounded down. -/
def writeKib (op : MOSDOp) : Nat :=
  total (fun i => if isWrite i then i.op.extentLength.toNat / 1024 else 0) op.ops

/-- The bytes accounted in the cycle are at most its quota and the bytes of the last op, the one
that crosses the limit if the cycle has slept. Both sides are scaled by 1000. -/
def State.WithinQuota (qos : QosParam) (s : State) : Prop :=
  ∀ before op, s.accounted = before ++ [op] →
    1000 * total writeBytes s.accounted ≤
      1024 * (s.limit.writeRatio.toNat * qos.getQuotaCycle.toNat) + 1000 * writeBytes op

/-! ## When the quota is exact -/

/-- The write lengths of a message are whole kibibytes. -/
def wholeKib (op : MOSDOp) : Bool :=
  op.ops.all fun i => !isWrite i || i.op.extentLength.toNat % 1024 = 0

/-- The ratio divided by the cycles in a second is less than one KiB above the ratio times the
cycle in seconds. -/
def evenCycle (cycle ratio : BitVec 32) : Bool :=
  1000 ≤ cycle.toNat ||
    ratio.toNat / (1000 / cycle.toNat) ≤ ratio.toNat * cycle.toNat / 1000 + 1

/-- The lengths of an accounted message are whole kibibytes, and the count does not wrap. -/
def countsExactly (periodBW : BitVec 64) (op : MOSDOp) : Bool :=
  wholeKib op && periodBW.toNat + writeKib op < 2 ^ 64

/-- A call that starts a cycle gets a ratio that the cycle divides evenly. A call that goes on in a
cycle whose last call slept to its end is not accounted any more; any other finds the budget not
used up yet. -/
def exact (qos : QosParam) (s : State) (call : Call) : Bool :=
  if startsCycle qos s.limit call then
    countsExactly 0 call.op && call.quotas.all (evenCycle qos.getQuotaCycle)
  else s.slept || (countsExactly s.limit.periodBW call.op && s.limit.periodBW < s.limit.wcacheBW)

variable {qos : QosParam} {s t : State} {call : Call}

/-! ## The two divisions -/

/-- Below the budget of an even cycle the count is within the quota. -/
theorem le_quota_of_lt_budget {cycle ratio : BitVec 32} {kib : Nat}
    (heven : evenCycle cycle ratio = true) (hlt : kib < (budget cycle ratio).toNat) :
    1000 * kib ≤ ratio.toNat * cycle.toNat := by
  simp only [evenCycle, Bool.or_eq_true, decide_eq_true_eq] at heven
  unfold budget at hlt
  split_ifs at hlt with hshort
  · have hcycle : cycle.toNat < 1000 := hshort
    have hbudget : kib < ratio.toNat / (1000 / cycle.toNat) := by
      simpa [BitVec.toNat_udiv] using hlt
    have hle : kib ≤ ratio.toNat * cycle.toNat / 1000 := by omega
    calc 1000 * kib ≤ 1000 * (ratio.toNat * cycle.toNat / 1000) := Nat.mul_le_mul_left _ hle
      _ ≤ ratio.toNat * cycle.toNat := Nat.mul_div_le _ _
  · -- whole seconds: both the division and the wrapping product only lose
    have hseconds : kib < ratio.toNat * (cycle.toNat / 1000) := by
      refine hlt.trans_le ?_
      simp only [BitVec.toNat_mul, BitVec.toNat_udiv]
      exact Nat.mod_le _ _
    calc 1000 * kib ≤ 1000 * (ratio.toNat * (cycle.toNat / 1000)) :=
          Nat.mul_le_mul_left _ hseconds.le
      _ = ratio.toNat * (1000 * (cycle.toNat / 1000)) := by ring
      _ ≤ ratio.toNat * cycle.toNat := Nat.mul_le_mul_left _ (Nat.mul_div_le _ _)

-- a cycle of 0.6 s gets the quota of a whole second
example : budget 600 1000 = 1000 := by decide

/-- The count of a message that does not wrap is the sum of its kibibytes. -/
theorem collect_toNat {periodBW : BitVec 64} {op : MOSDOp}
    (hfits : periodBW.toNat + writeKib op < 2 ^ 64) :
    (collect op.ops periodBW).toNat = periodBW.toNat + writeKib op := by
  simp only [collect, writeKib] at hfits ⊢
  generalize op.ops = ops at hfits ⊢
  induction ops generalizing periodBW with
  | nil => simp
  | cons i rest ih =>
      rw [total_cons] at hfits ⊢
      rw [List.foldl_cons]
      by_cases hwrite : isWrite i = true
      · simp only [hwrite, if_true] at hfits ⊢
        have hadd : (periodBW + i.op.extentLength / 1024).toNat =
            periodBW.toNat + i.op.extentLength.toNat / 1024 := by
          rw [BitVec.toNat_add, BitVec.toNat_udiv]
          exact Nat.mod_eq_of_lt (by simp; omega)
        rw [ih (by omega), hadd]
        omega
      · simp only [hwrite, Bool.false_eq_true, if_false] at hfits ⊢
        rw [ih (by omega)]
        omega

/-- Whole kibibytes lose nothing. -/
theorem writeBytes_of_wholeKib {op : MOSDOp} (h : wholeKib op = true) :
    writeBytes op = 1024 * writeKib op := by
  simp only [wholeKib, writeBytes, writeKib] at h ⊢
  generalize op.ops = ops at h ⊢
  induction ops with
  | nil => rfl
  | cons i rest ih =>
      simp only [List.all_cons, Bool.and_eq_true] at h
      rw [total_cons, total_cons, ih h.2]
      by_cases hwrite : isWrite i = true
      · have hdiv : i.op.extentLength.toNat % 1024 = 0 := by simpa [hwrite] using h.1
        simp only [hwrite, if_true]
        omega
      · simp only [hwrite, Bool.false_eq_true, if_false]
        omega

/-! ## Inversion of a step -/

/-- The members at the start of a cycle. -/
def LimitState.started (s : LimitState) (cycle ratio : BitVec 32) (beginTime : Int) : LimitState :=
  { s with
    writeRatio := ratio
    wcacheBW := (budget cycle ratio).setWidth 64
    periodBW := 0
    cycleBegin := beginTime }

/-- The loop ends with the first ratio that is not zero. -/
theorem startCycle_eq_some {cycle : BitVec 32} {beginTime : Int} {quotas : List (BitVec 32)}
    {s s' : LimitState} (h : startCycle cycle beginTime quotas s = some s') :
    ∃ ratio ∈ quotas, s' = s.started cycle ratio beginTime := by
  induction quotas generalizing s with
  | nil => cases h
  | cons ratio rest ih =>
      simp only [startCycle] at h
      split_ifs at h with hzero
      · obtain ⟨ratio', hmem, rfl⟩ := ih h
        exact ⟨ratio', List.mem_cons_of_mem _ hmem, rfl⟩
      · cases h
        exact ⟨ratio, List.mem_cons_self, rfl⟩

/-- The members after the lengths of a message are added. -/
def LimitState.collected (s : LimitState) (op : MOSDOp) : LimitState :=
  { s with periodBW := collect op.ops s.periodBW }

/-- Everything one call can do. -/
inductive Step (qos : QosParam) (s : State) (call : Call) : State → Prop where
  /-- The message has no write op, or the limit is off. -/
  | passed : Step qos s call s
  /-- The call starts a cycle and is accounted in it. -/
  | started {ratio : BitVec 32} {slept : Bool} (hmem : ratio ∈ call.quotas)
      (hstarts : startsCycle qos s.limit call = true) :
      Step qos s call
        { limit :=
            (s.limit.started qos.getQuotaCycle ratio call.beginTime).collected call.op
          accounted := [call.op]
          slept := slept }
  /-- The cycle has slept to its end, and the clock says that it is not over. -/
  | afterSleep (hstarts : startsCycle qos s.limit call = false) (hslept : s.slept = true) :
      Step qos s call { s with limit := s.limit.collected call.op }
  /-- The call is accounted in the current cycle. -/
  | accounted {slept : Bool} (hstarts : startsCycle qos s.limit call = false)
      (hslept : s.slept = false) :
      Step qos s call
        { limit := s.limit.collected call.op
          accounted := s.accounted ++ [call.op]
          slept := slept }

/-- Every call does one of the listed things. -/
theorem step_cases (h : step qos s call = some t) : Step qos s call t := by
  unfold step at h
  split_ifs at h with hpasses
  · cases hlimit : limitWrite qos s.limit call with
    | none =>
        rw [hlimit] at h
        cases h
    | some result =>
        obtain ⟨limit, sleep⟩ := result
        rw [hlimit] at h
        cases h
        unfold limitWrite at hlimit
        unfold State.after
        by_cases hstarts : startsCycle qos s.limit call = true
        · rw [if_pos hstarts]
          simp only [hstarts, if_true] at hlimit
          obtain ⟨entered, hentered, heq⟩ := Option.map_eq_some_iff.mp hlimit
          obtain ⟨ratio, hmem, rfl⟩ := startCycle_eq_some hentered
          cases heq
          exact .started hmem hstarts
        · rw [if_neg hstarts]
          have hfalse : startsCycle qos s.limit call = false := by simpa using hstarts
          simp only [hfalse, Bool.false_eq_true, if_false, Option.map_some, Option.some.injEq]
            at hlimit
          cases hlimit
          by_cases hslept : s.slept = true
          · rw [if_pos hslept]
            exact .afterSleep hfalse hslept
          · rw [if_neg hslept]
            exact .accounted hfalse (by simpa using hslept)
  · cases h
    exact .passed

/-! ## The quota holds -/

/-- In a cycle with a quota the budget is that of the ratio, the count before a sleep is the exact
number of kibibytes, and they are within the quota. -/
structure Inv (qos : QosParam) (s : State) : Prop where
  even : evenCycle qos.getQuotaCycle s.limit.writeRatio = true
  budget_eq : s.limit.wcacheBW =
    (budget qos.getQuotaCycle s.limit.writeRatio).setWidth 64
  count : s.slept = false → s.limit.periodBW.toNat = total writeKib s.accounted
  whole : total writeBytes s.accounted = 1024 * total writeKib s.accounted
  within : s.WithinQuota qos

/-- One message alone is within the quota and its own bytes. -/
theorem withinQuota_singleton {limit : LimitState} {op : MOSDOp} {slept : Bool} :
    (State.mk limit [op] slept).WithinQuota qos := by
  intro before op' heq
  have hone : [] ++ [op] = before ++ [op'] := heq
  obtain ⟨rfl, hop⟩ := List.append_inj' hone rfl
  obtain rfl : op = op' := by simpa using hop
  simp

/-- A message accounted below the budget leaves the cycle within its quota. -/
theorem Inv.withinQuota_append (h : Inv qos s) {limit : LimitState} {slept : Bool} {op : MOSDOp}
    (hratio : limit.writeRatio = s.limit.writeRatio) (hslept : s.slept = false)
    (hbelow : s.limit.periodBW < s.limit.wcacheBW) :
    (State.mk limit (s.accounted ++ [op]) slept).WithinQuota qos := by
  intro before op' heq
  obtain ⟨rfl, hop⟩ := List.append_inj' heq rfl
  obtain rfl : op = op' := by simpa using hop
  have hlt : total writeKib s.accounted < (budget qos.getQuotaCycle s.limit.writeRatio).toNat := by
    have hcount := h.count hslept
    rw [h.budget_eq, BitVec.lt_def, BitVec.toNat_setWidth, hcount] at hbelow
    exact hbelow.trans_le (Nat.mod_le _ _)
  have hquota := le_quota_of_lt_budget h.even hlt
  have hwhole := h.whole
  show 1000 * total writeBytes (s.accounted ++ [op]) ≤
    1024 * (limit.writeRatio.toNat * qos.getQuotaCycle.toNat) + 1000 * writeBytes op
  rw [hratio, total_append, total_cons, total_nil]
  omega

/-- What an exactly counted message adds. -/
theorem countsExactly_spec {periodBW : BitVec 64} {op : MOSDOp}
    (h : countsExactly periodBW op = true) :
    writeBytes op = 1024 * writeKib op ∧
      (collect op.ops periodBW).toNat = periodBW.toNat + writeKib op := by
  simp only [countsExactly, Bool.and_eq_true, decide_eq_true_eq] at h
  exact ⟨writeBytes_of_wholeKib h.1, collect_toNat h.2⟩

/-- Every exact call keeps the invariant, or starts a cycle in which it holds. -/
theorem inv_step (h : s.limit.writeRatio ≠ 0 → Inv qos s) (hexact : exact qos s call = true)
    (hstep : step qos s call = some t) (hratio : t.limit.writeRatio ≠ 0) : Inv qos t := by
  cases step_cases hstep with
  | passed => exact h hratio
  | @started ratio slept hmem hstarts =>
      simp only [exact, hstarts, if_true, Bool.and_eq_true, List.all_eq_true] at hexact
      obtain ⟨hwhole, hcount⟩ := countsExactly_spec hexact.1
      refine ⟨hexact.2 ratio hmem, rfl, fun _ => ?_, ?_, withinQuota_singleton⟩
      · show (collect call.op.ops 0).toNat = total writeKib [call.op]
        rw [hcount, total_cons, total_nil]
        simp
      · show total writeBytes [call.op] = 1024 * total writeKib [call.op]
        rw [total_cons, total_cons, total_nil, total_nil, hwhole]
        omega
  | afterSleep hstarts hslept =>
      have hs := h hratio
      refine ⟨hs.even, hs.budget_eq, fun hfalse => ?_, hs.whole, hs.within⟩
      rw [hslept] at hfalse
      cases hfalse
  | @accounted slept hstarts hslept =>
      have hs := h hratio
      simp only [exact, hstarts, Bool.false_eq_true, if_false, hslept, Bool.false_or,
        Bool.and_eq_true, decide_eq_true_eq] at hexact
      obtain ⟨hwhole, hcount⟩ := countsExactly_spec hexact.1
      refine ⟨hs.even, hs.budget_eq, fun _ => ?_, ?_,
        hs.withinQuota_append rfl hslept hexact.2⟩
      · show (collect call.op.ops s.limit.periodBW).toNat =
          total writeKib (s.accounted ++ [call.op])
        rw [hcount, hs.count hslept, total_append, total_cons, total_nil]
        omega
      · show total writeBytes (s.accounted ++ [call.op]) =
          1024 * total writeKib (s.accounted ++ [call.op])
        simp only [total_append, total_cons, total_nil, hs.whole, hwhole]
        omega

/-- In every run whose calls are counted exactly, the bytes accounted in a cycle, up to the call
that sleeps until its end, are at most the quota and the bytes of the last op. The cycle has a
quota once a ratio was fetched: before, `writeRatio` is 0 and no quota was set. -/
theorem withinQuota_of_exact {cycleBegin : Int}
    (h : Reach (step qos) (fun s call => exact qos s call = true) (init cycleBegin) s)
    (hratio : s.limit.writeRatio ≠ 0) : s.WithinQuota qos := by
  have hinv : s.limit.writeRatio ≠ 0 → Inv qos s := by
    refine h.invariant (fun s => s.limit.writeRatio ≠ 0 → Inv qos s) (fun hne => ?_) ?_
    · exact absurd rfl hne
    · intro s call t hs hexact hstep hne
      exact inv_step hs hexact hstep hne
  exact (hinv hratio).within

/-- Milliseconds of a time that has passed. -/
theorem toMillis_mono {a b : Int} (ha : 0 ≤ a) (hab : a ≤ b) :
    0 ≤ toMillis a ∧ toMillis a ≤ toMillis b := by
  unfold toMillis
  rw [Int.tdiv_eq_ediv_of_nonneg ha, Int.tdiv_eq_ediv_of_nonneg (ha.trans hab)]
  omega

/-- With a clock that is not set back, and a cycle whose microseconds fit the argument of `usleep`,
a call that finds the budget used up before the cycle has slept starts a new cycle. -/
theorem startsCycle_of_used_up {limit : LimitState} {checkTime : Int}
    (hcycle : 1000 * qos.getQuotaCycle.toNat < 2 ^ 32) (hbegin : limit.cycleBegin ≤ checkTime)
    (hused : ¬ limit.periodBW < limit.wcacheBW)
    (hslept : sleepsToEnd qos.getQuotaCycle limit checkTime
      (sleepMicros qos.getQuotaCycle limit checkTime) = false)
    (hnow : checkTime ≤ call.nowTime) : startsCycle qos limit call = true := by
  obtain ⟨hnonneg, hmono⟩ := toMillis_mono (a := checkTime - limit.cycleBegin)
    (b := call.nowTime - limit.cycleBegin) (by omega) (by omega)
  rw [startsCycle, timeInterval, if_pos (by omega), decide_eq_true_eq]
  refine le_trans ?_ hmono
  rw [sleepMicros, if_neg hused] at hslept
  by_contra hearly
  have hwait : (BitVec.ofInt 32
      (qos.getQuotaCycle.toNat - toMillis (checkTime - limit.cycleBegin))).toNat =
        qos.getQuotaCycle.toNat - toMillis (checkTime - limit.cycleBegin) := by
    rw [BitVec.toNat_ofInt]
    omega
  simp only [if_pos (show toMillis (checkTime - limit.cycleBegin) ≤ qos.getQuotaCycle.toNat by
    omega)] at hslept
  split_ifs at hslept with hzero
  · simp only [sleepsToEnd, BitVec.toNat_mul, decide_eq_false_iff_not] at hslept
    refine hslept ?_
    have hmicros : (BitVec.toNat (1000 : BitVec 32)) = 1000 := rfl
    rw [hmicros]
    omega
  · rw [not_not] at hzero
    rw [hzero] at hwait
    simp at hwait
    omega

/-- A write of this many bytes. -/
def writeOf (length : BitVec 64) : MOSDOp :=
  { oid := ascii "a", ops := [{ op := { op := .write, extentLength := length } }] }

/-- Half a second and 16 KiB a second: two writes of 4 KiB use the budget up, and the second one
sleeps for the rest of the cycle. -/
theorem withinQuota_two_writes :
    ∃ s, Reach (step ⟨1, 500, by decide⟩) (fun s call => exact ⟨1, 500, by decide⟩ s call = true)
        (init 0) s ∧
      s.slept = true ∧ s.WithinQuota ⟨1, 500, by decide⟩ := by
  have h : Reach (step ⟨1, 500, by decide⟩)
      (fun s call => exact ⟨1, 500, by decide⟩ s call = true) (init 0) _ :=
    Reach.of_run
      [{ op := writeOf 4096, nowTime := 500000000, quotas := [16], beginTime := 500000000,
         checkTime := 500000000 },
       { op := writeOf 4096, nowTime := 501000000, beginTime := 0, checkTime := 502000000 }] rfl
  exact ⟨_, h, rfl, withinQuota_of_exact h (by decide)⟩

/-- A second at 1 KiB a second: four writes of 1023 bytes count as nothing, and the call that
sleeps is the fifth. -/
theorem not_withinQuota_short_writes :
    ∃ s, Reach (step ⟨1, 1000, by decide⟩) anyEvent (init 0) s ∧
      s.limit.writeRatio ≠ 0 ∧ s.slept = true ∧ ¬ s.WithinQuota ⟨1, 1000, by decide⟩ := by
  have h : Reach (step ⟨1, 1000, by decide⟩) anyEvent (init 0) _ :=
    Reach.of_run
      [{ op := writeOf 1023, nowTime := 1000000000, quotas := [1], beginTime := 1000000000,
         checkTime := 0 },
       { op := writeOf 1023, nowTime := 1001000000, beginTime := 0, checkTime := 0 },
       { op := writeOf 1023, nowTime := 1002000000, beginTime := 0, checkTime := 0 },
       { op := writeOf 1023, nowTime := 1003000000, beginTime := 0, checkTime := 0 },
       { op := writeOf 1024, nowTime := 1004000000, beginTime := 0, checkTime := 1005000000 }] rfl
  refine ⟨_, h, by decide, rfl, fun hwithin => ?_⟩
  have hle := hwithin [writeOf 1023, writeOf 1023, writeOf 1023, writeOf 1023] (writeOf 1024) rfl
  revert hle
  decide

end GlobalCacheAdaptor.ServerAdaptor.LimitWrite
