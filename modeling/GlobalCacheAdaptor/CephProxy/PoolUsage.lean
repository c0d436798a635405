import GlobalCacheAdaptor.Lib.OrdMap
import GlobalCacheAdaptor.Lib.Run
import Mathlib.Data.List.ReduceOption

/-!
# The pool usage refresh of the monitor thread

`PoolUsageStat::UpdatePoolUsage` runs in rounds. A round asks the cluster for its usage table,
records one pool a line (`Record`), publishes what it recorded (`Compare`) and reports the pools
(`UpdatePoolList`). What the cluster answers is the input of a round: the return value of the `df`
command, for each line whether it matches and what its pool's commands answer, and the return
value of the report. Texts are parsed with regular expressions and doubles; a line carries the
integers that come out of that.

`updatePoolUsage_atomic_iff` says which rounds are atomic. The working lists are emptied only at
the end of a round that gets as far as the report, so a round that stops at its second pool leaves
the first one for the next round to publish.
-/

namespace GlobalCacheAdaptor.CephProxy

open Lib

/-- What is published about one pool. `useRatio` is the bit pattern of the float. -/
structure PoolUsageInfo where
  storedSize : BitVec 64
  objectsNum : BitVec 64
  usedSize : BitVec 64
  useRatio : BitVec 32
  maxAvail : BitVec 64
  k : BitVec 32
  m : BitVec 32
  stripeUnit : BitVec 32
  isEC : Bool
  deriving DecidableEq

/-- The entry `operator[]` creates under a missing key. -/
def PoolUsageInfo.zero : PoolUsageInfo := ⟨0, 0, 0, 0, 0, 0, 0, 0, false⟩

/-- One line of an erasure code profile, as `ParseECProfile` reads it. -/
inductive EcSetting where
  | k (value : BitVec 32)
  | m (value : BitVec 32)
  | stripeUnit (value : BitVec 64)
  | other

/-- The three values a profile sets. -/
structure EcProfile where
  k : BitVec 32
  m : BitVec 32
  stripeUnit : BitVec 32

/-- `ParseECProfile`. -/
def parseECProfile (profile : EcProfile) : EcSetting → EcProfile
  | .k value => { profile with k := value }
  | .m value => { profile with m := value }
  | .stripeUnit value =>
      if value ≠ 0 then { profile with stripeUnit := value.setWidth 32 } else profile
  | .other => profile

/-- What the cluster answers about the kind of a pool. -/
inductive PoolKind where
  /-- `IsECPool` fails. -/
  | unknown
  /-- An erasure coded pool; `none` when the profile command fails. -/
  | erasure (profile : Option (List EcSetting))
  /-- A replicated pool; `statOk` says whether `GetPoolReplicationSize` succeeds. -/
  | replicated (statOk : Bool)

/-- A line of the `df` output that matches the pattern, with the cluster's answers for its pool. -/
structure PoolLine where
  /-- What `atoi` makes of the id column. -/
  id : Int
  storedSize : BitVec 64
  objectsNum : BitVec 64
  usedSize : BitVec 64
  useRatio : BitVec 32
  maxAvail : BitVec 64
  kind : PoolKind
  /-- What `GetDefaultECStripeUnit` returns if it is asked for this line. -/
  defaultECStripeUnit : BitVec 32

/-- The key a line is recorded under. -/
def PoolLine.poolId (line : PoolLine) : Nat := line.id.toNat

/-- The fields of `PoolUsageStat` that a round reads or writes. -/
structure PoolUsageStat where
  poolInfoMap : OrdMap Nat PoolUsageInfo
  tmpPoolInfoMap : OrdMap Nat PoolUsageInfo
  poolList : List Nat
  globalStripeSize : BitVec 32

/-- A new `PoolUsageStat`. -/
def PoolUsageStat.init : PoolUsageStat := ⟨.empty, .empty, [], 0⟩

/-- The stripe unit of a line: asked from the cluster once, then kept in `globalStripeSize`. -/
def cachedStripeSize (globalStripeSize : BitVec 32) (line : PoolLine) : BitVec 32 :=
  if globalStripeSize = 0 then line.defaultECStripeUnit else globalStripeSize

/-- `CalPoolSize` with `GetECProfileSize`: the new `globalStripeSize`, and the profile unless a
command failed. -/
def calPoolSize (globalStripeSize : BitVec 32) (line : PoolLine) :
    BitVec 32 × Option EcProfile :=
  match line.kind with
  | .unknown => (globalStripeSize, none)
  | .erasure none => (globalStripeSize, none)
  | .erasure (some settings) =>
      let stripeUnit := cachedStripeSize globalStripeSize line
      (stripeUnit, some (settings.foldl parseECProfile ⟨0, 0, stripeUnit⟩))
  | .replicated statOk =>
      let stripeUnit := cachedStripeSize globalStripeSize line
      (stripeUnit, if statOk then some ⟨1, 2, stripeUnit⟩ else none)

/-- The flag `IsECPool` sets. -/
def PoolKind.isEC : PoolKind → Bool
  | .erasure _ => true
  | _ => false

/-- The entry `Record` stores for a line with the given profile. -/
def PoolLine.usage (line : PoolLine) (profile : EcProfile) : PoolUsageInfo where
  storedSize := line.storedSize
  objectsNum := line.objectsNum
  usedSize := line.usedSize
  useRatio := line.useRatio
  maxAvail := line.maxAvail
  k := profile.k
  m := profile.m
  stripeUnit := profile.stripeUnit
  isEC := line.kind.isEC

/-- `Record`. `ParseToRecordInfo` fails on a negative id and when `IsECPool` does; `CalPoolSize`
may fail after it has filled `globalStripeSize`. -/
def record (s : PoolUsageStat) (line : PoolLine) : PoolUsageStat × Int :=
  if line.id < 0 then (s, -1)
  else
    match line.kind with
    | .unknown => (s, -1)
    | _ =>
        let (globalStripeSize, profile) := calPoolSize s.globalStripeSize line
        let s := { s with globalStripeSize := globalStripeSize }
        match profile with
        -- the stripe unit that was asked for is kept although the pool is not recorded
        | none => (s, -1)
        | some profile =>
            ({ s with
                tmpPoolInfoMap := s.tmpPoolInfoMap.insert line.poolId (line.usage profile)
                poolList := s.poolList ++ [line.poolId] }, 0)

/-- The loop of `GetPoolStorageUsage`; `none` is a line that does not match the pattern. -/
def recordLines : PoolUsageStat → List (Option PoolLine) → PoolUsageStat × Int
  | s, [] => (s, 0)
  | s, none :: rest => recordLines s rest
  | s, some line :: rest =>
      match record s line with
      -- the pools recorded before a failure stay in `poolList` and `tmpPoolInfoMap`
      | (s, ret) => if ret ≠ 0 then (s, -1) else recordLines s rest

/-- One round of the update loop of `Compare`, with `operator[]` on both maps. -/
def comparePool (s : PoolUsageStat) (poolId : Nat) : PoolUsageStat :=
  let info := (s.tmpPoolInfoMap.find? poolId).getD .zero
  { s with
    tmpPoolInfoMap := s.tmpPoolInfoMap.insert poolId info
    poolInfoMap := s.poolInfoMap.insert poolId info }

/-- `Compare`: copy the listed pools, then delete the pools that are not listed. -/
def compare (s : PoolUsageStat) : PoolUsageStat :=
  let s := s.poolList.foldl comparePool s
  { s with poolInfoMap := s.poolInfoMap.filter fun e => s.poolList.contains e.1 }

/-- `GetPoolStorageUsage`. -/
def getPoolStorageUsage (s : PoolUsageStat) (lines : List (Option PoolLine)) :
    PoolUsageStat × Int :=
  match recordLines s lines with
  | (s, ret) => if ret ≠ 0 then (s, -1) else (compare s, 0)

/-- What the cluster answers in one round. -/
structure Round where
  /-- The return value of the `df` command. -/
  monRet : Int
  lines : List (Option PoolLine)
  /-- The return value of `ReportCreatePool`. -/
  reportRet : Int

/-- The lines of a round that match the pattern. -/
def Round.matched (r : Round) : List PoolLine := r.lines.reduceOption

/-- What a round returns and the list it passes to `ReportCreatePool`, if it gets there. -/
structure Outcome where
  ret : Int
  reported : Option (List Nat)
  deriving DecidableEq

/-- `UpdatePoolList`: the lists are emptied before the report is made. -/
def updatePoolList (s : PoolUsageStat) (reportRet : Int) : PoolUsageStat × Outcome :=
  ({ s with poolList := [], tmpPoolInfoMap := .empty },
    ⟨if reportRet ≠ 0 then -1 else 0, some s.poolList⟩)

/-- `UpdatePoolUsage`. -/
def updatePoolUsage (s : PoolUsageStat) (r : Round) : PoolUsageStat × Outcome :=
  if r.monRet < 0 then (s, ⟨r.monRet, none⟩)
  else
    match getPoolStorageUsage s r.lines with
    | (s, ret) => if ret ≠ 0 then (s, ⟨-1, none⟩) else updatePoolList s r.reportRet

/-- The state after a list of rounds. -/
def rounds (s : PoolUsageStat) (rs : List Round) : PoolUsageStat :=
  rs.foldl (fun s r => (updatePoolUsage s r).1) s

/-- A round as a step of a run; every round can be taken. -/
def roundStep (s : PoolUsageStat) (r : Round) : Option PoolUsageStat :=
  some (updatePoolUsage s r).1

/-! ## Recording -/

/-- Whether `Record` succeeds on a line. -/
def PoolLine.recordable (line : PoolLine) : Bool :=
  decide (0 ≤ line.id) &&
    match line.kind with
    | .unknown => false
    | .erasure profile => profile.isSome
    | .replicated statOk => statOk

/-- The profile a recordable line is stored with. -/
def PoolLine.profile (line : PoolLine) (globalStripeSize : BitVec 32) : EcProfile :=
  (calPoolSize globalStripeSize line).2.getD ⟨0, 0, 0⟩

/-- The `globalStripeSize` after `Record`. -/
def PoolLine.stripeAfter (line : PoolLine) (globalStripeSize : BitVec 32) : BitVec 32 :=
  if line.id < 0 then globalStripeSize else (calPoolSize globalStripeSize line).1

/-- The values of a round: what its lines say, in order, from the stripe unit it started with. -/
def roundValues : BitVec 32 → List PoolLine → List (Nat × PoolUsageInfo)
  | _, [] => []
  | stripe, line :: rest =>
      (line.poolId, line.usage (line.profile stripe)) :: roundValues (line.stripeAfter stripe) rest

/-- The `globalStripeSize` after all lines are recorded. -/
def stripeAfterAll (stripe : BitVec 32) (lines : List PoolLine) : BitVec 32 :=
  lines.foldl (fun stripe line => line.stripeAfter stripe) stripe

/-- The state after all lines are recorded. -/
def recordAll (s : PoolUsageStat) (lines : List PoolLine) : PoolUsageStat where
  poolInfoMap := s.poolInfoMap
  tmpPoolInfoMap := (roundValues s.globalStripeSize lines).foldl (fun m e => m.insert e.1 e.2)
    s.tmpPoolInfoMap
  poolList := s.poolList ++ lines.map PoolLine.poolId
  globalStripeSize := stripeAfterAll s.globalStripeSize lines

/-- The state when recording stops at a line that cannot be recorded. -/
def recordUntil (s : PoolUsageStat) (pre : List PoolLine) (bad : PoolLine) : PoolUsageStat :=
  { recordAll s pre with
    globalStripeSize := bad.stripeAfter (recordAll s pre).globalStripeSize }

@[simp] theorem recordAll_nil (s : PoolUsageStat) : recordAll s [] = s := by
  simp [recordAll, roundValues, stripeAfterAll]

/-- The pools of a round's values are its lines' pools. -/
theorem roundValues_keys (stripe : BitVec 32) (lines : List PoolLine) :
    (roundValues stripe lines).map Prod.fst = lines.map PoolLine.poolId := by
  induction lines generalizing stripe with
  | nil => rfl
  | cons line rest ih => simp [roundValues, ih]

/-- A recordable line is stored and listed. -/
theorem record_of_recordable (s : PoolUsageStat) {line : PoolLine} (h : line.recordable = true) :
    record s line = (recordAll s [line], 0) := by
  simp only [PoolLine.recordable, Bool.and_eq_true, decide_eq_true_eq] at h
  obtain ⟨hid, hkind⟩ := h
  have hneg : ¬line.id < 0 := not_lt.mpr hid
  cases hk : line.kind with
  | unknown => simp [hk] at hkind
  | erasure profile =>
      cases profile with
      | none => simp [hk] at hkind
      | some settings =>
          simp [record, hneg, hk, recordAll, roundValues, stripeAfterAll, PoolLine.stripeAfter,
            PoolLine.profile, calPoolSize]
  | replicated statOk =>
      obtain rfl : statOk = true := by simpa [hk] using hkind
      simp [record, hneg, hk, recordAll, roundValues, stripeAfterAll, PoolLine.stripeAfter,
        PoolLine.profile, calPoolSize]

/-- A line that is not recordable leaves at most the stripe unit behind. -/
theorem record_of_not_recordable (s : PoolUsageStat) {line : PoolLine}
    (h : line.recordable = false) :
    record s line =
      ({ s with globalStripeSize := line.stripeAfter s.globalStripeSize }, -1) := by
  by_cases hid : line.id < 0
  · simp [record, hid, PoolLine.stripeAfter]
  · have hpos : 0 ≤ line.id := not_lt.mp hid
    cases hk : line.kind with
    | unknown => simp [record, hid, hk, PoolLine.stripeAfter, calPoolSize]
    | erasure profile =>
        cases profile with
        | none => simp [record, hid, hk, PoolLine.stripeAfter, calPoolSize]
        | some settings => simp [PoolLine.recordable, hk, hpos] at h
    | replicated statOk =>
        obtain rfl : statOk = false := by simpa [PoolLine.recordable, hk, hpos] using h
        simp [record, hid, hk, PoolLine.stripeAfter, calPoolSize]

/-- Lines that do not match are skipped. -/
theorem recordLines_reduceOption (s : PoolUsageStat) (lines : List (Option PoolLine)) :
    recordLines s lines = recordLines s (lines.reduceOption.map some) := by
  induction lines generalizing s with
  | nil => rfl
  | cons line rest ih =>
      cases line with
      | none => simpa [recordLines] using ih s
      | some line => simp [recordLines, ih]

/-- Recording composes. -/
theorem recordAll_recordAll (s : PoolUsageStat) (line : PoolLine) (rest : List PoolLine) :
    recordAll (recordAll s [line]) rest = recordAll s (line :: rest) := by
  simp [recordAll, roundValues, stripeAfterAll]

/-- Recordable lines are all recorded. -/
theorem recordLines_append {pre : List PoolLine} (hpre : ∀ line ∈ pre, line.recordable = true)
    (s : PoolUsageStat) (rest : List PoolLine) :
    recordLines s ((pre ++ rest).map some) = recordLines (recordAll s pre) (rest.map some) := by
  induction pre generalizing s with
  | nil => simp
  | cons line pre ih =>
      obtain ⟨hline, hrest⟩ := List.forall_mem_cons.mp hpre
      have hrec := record_of_recordable s hline
      simp only [List.cons_append, List.map_cons, recordLines, hrec, ne_eq, not_true_eq_false,
        if_false]
      rw [ih hrest, recordAll_recordAll]

/-- Either all lines are recordable, or there is a first one that is not. -/
theorem all_recordable_or_first (lines : List PoolLine) :
    (∀ line ∈ lines, line.recordable = true) ∨
      ∃ pre bad rest, lines = pre ++ bad :: rest ∧ (∀ line ∈ pre, line.recordable = true) ∧
        bad.recordable = false := by
  induction lines with
  | nil => exact .inl (by simp)
  | cons line rest ih =>
      by_cases hline : line.recordable = true
      · rcases ih with hall | ⟨pre, bad, rest', rfl, hpre, hbad⟩
        · exact .inl (List.forall_mem_cons.mpr ⟨hline, hall⟩)
        · exact .inr ⟨line :: pre, bad, rest', rfl, List.forall_mem_cons.mpr ⟨hline, hpre⟩, hbad⟩
      · exact .inr ⟨[], line, rest, rfl, by simp, by simpa using hline⟩

/-! ## Publishing -/

/-- The update loop of `Compare`, key by key. -/
theorem find?_foldl_comparePool (l : List Nat) (s : PoolUsageStat) (k : Nat) :
    ((l.foldl comparePool s).poolInfoMap.find? k =
      if k ∈ l then some ((s.tmpPoolInfoMap.find? k).getD .zero) else s.poolInfoMap.find? k) ∧
    (l.foldl comparePool s).poolList = s.poolList ∧
    (l.foldl comparePool s).globalStripeSize = s.globalStripeSize := by
  induction l generalizing s with
  | nil => simp
  | cons poolId rest ih =>
      obtain ⟨hfind, hlist, hstripe⟩ := ih (comparePool s poolId)
      rw [List.foldl_cons]
      refine ⟨?_, hlist, hstripe⟩
      rw [hfind]
      simp only [comparePool, OrdMap.find?_insert, List.mem_cons]
      by_cases hk : k = poolId
      · simp [hk]
      · simp [hk]

/-- `Compare` publishes exactly the listed pools. -/
theorem find?_compare (s : PoolUsageStat) (k : Nat) :
    (compare s).poolInfoMap.find? k =
      if k ∈ s.poolList then some ((s.tmpPoolInfoMap.find? k).getD .zero) else none := by
  obtain ⟨hfind, hlist, -⟩ := find?_foldl_comparePool s.poolList s k
  simp only [compare, OrdMap.find?_filter, hfind, hlist]
  by_cases hk : k ∈ s.poolList
  · simp [hk]
  · cases s.poolInfoMap.find? k <;> simp [hk]

/-! ## Rounds -/

/-- What a round can do: fail at once, record every matched pool and publish, or stop at the first
pool that cannot be recorded. -/
theorem updatePoolUsage_cases (s : PoolUsageStat) (r : Round) :
    (r.monRet < 0 ∧ updatePoolUsage s r = (s, ⟨r.monRet, none⟩)) ∨
    (0 ≤ r.monRet ∧ (∀ line ∈ r.matched, line.recordable = true) ∧
      updatePoolUsage s r = updatePoolList (compare (recordAll s r.matched)) r.reportRet) ∨
    (0 ≤ r.monRet ∧ ∃ pre bad rest, r.matched = pre ++ bad :: rest ∧
      (∀ line ∈ pre, line.recordable = true) ∧ bad.recordable = false ∧
      updatePoolUsage s r = (recordUntil s pre bad, ⟨-1, none⟩)) := by
  by_cases hmon : r.monRet < 0
  · exact .inl ⟨hmon, by simp [updatePoolUsage, hmon]⟩
  · have hlines : recordLines s r.lines = recordLines s (r.matched.map some) :=
      recordLines_reduceOption s r.lines
    rcases all_recordable_or_first r.matched with hall | ⟨pre, bad, rest, hmatched, hpre, hbad⟩
    · refine .inr (.inl ⟨not_lt.mp hmon, hall, ?_⟩)
      have hrec : recordLines s r.lines = (recordAll s r.matched, 0) := by
        rw [hlines]
        simpa [recordLines] using recordLines_append hall s []
      simp [updatePoolUsage, hmon, getPoolStorageUsage, hrec]
    · refine .inr (.inr ⟨not_lt.mp hmon, pre, bad, rest, hmatched, hpre, hbad, ?_⟩)
      have hrec : recordLines s r.lines = (recordUntil s pre bad, -1) := by
        rw [hlines, hmatched, recordLines_append hpre]
        simp [recordLines, record_of_not_recordable _ hbad, recordUntil]
      simp [updatePoolUsage, hmon, getPoolStorageUsage, hrec]

/-! ## Atomic rounds -/

/-- A round that succeeds publishes exactly the pools it matched, with its own values, and reports
each of them once. -/
def PublishesRound (s : PoolUsageStat) (r : Round) : Prop :=
  (updatePoolUsage s r).2.ret = 0 →
    (∀ k info, (updatePoolUsage s r).1.poolInfoMap.find? k = some info ↔
      (k, info) ∈ roundValues s.globalStripeSize r.matched) ∧
    ∃ reported, (updatePoolUsage s r).2.reported = some reported ∧ reported.Nodup ∧
      ∀ k, k ∈ reported ↔ ∃ line ∈ r.matched, line.poolId = k

/-- The result of a round: what it returns and reports, and what is published after it. -/
def result (s : PoolUsageStat) (r : Round) : Outcome × OrdMap Nat PoolUsageInfo :=
  ((updatePoolUsage s r).2, (updatePoolUsage s r).1.poolInfoMap)

/-- A round that fails before `Compare`, so before it reports, leaves what is published as it was,
and every later successful round has the result it would have had without it. -/
def LeavesNoTrace (s : PoolUsageStat) (r : Round) : Prop :=
  (updatePoolUsage s r).2.reported = none →
    (updatePoolUsage s r).1.poolInfoMap = s.poolInfoMap ∧
    ∀ later last, (updatePoolUsage (rounds (updatePoolUsage s r).1 later) last).2.ret = 0 →
      result (rounds (updatePoolUsage s r).1 later) last = result (rounds s later) last

/-- The refresh is atomic in this round. -/
def AtomicRound (s : PoolUsageStat) (r : Round) : Prop :=
  PublishesRound s r ∧ LeavesNoTrace s r

/-- Whether `Record` asks for the stripe unit before it fails on this line. -/
def PoolLine.asksStripe (line : PoolLine) : Bool :=
  decide (0 ≤ line.id) &&
    match line.kind with
    | .replicated _ => true
    | _ => false

/-- A round that either records every matched pool, no pool being listed twice if it is reported,
or fails at its first pool without being the first to learn the stripe unit. -/
def CleanRound (s : PoolUsageStat) (r : Round) : Prop :=
  r.monRet < 0 ∨
  ((∀ line ∈ r.matched, line.recordable = true) ∧
    (r.reportRet = 0 → (r.matched.map PoolLine.poolId).Nodup)) ∨
  ∃ bad rest, r.matched = bad :: rest ∧ bad.recordable = false ∧
    (bad.asksStripe = true → s.globalStripeSize ≠ 0 ∨ bad.defaultECStripeUnit = 0)

/-- Nothing is left over from an earlier round. -/
def Idle (s : PoolUsageStat) : Prop := s.poolList = [] ∧ s.tmpPoolInfoMap = .empty

/-- A line that cannot be recorded changes the stripe unit only if it is the first to ask. -/
theorem stripeAfter_eq_iff {line : PoolLine} (h : line.recordable = false) (stripe : BitVec 32) :
    line.stripeAfter stripe = stripe ↔
      (line.asksStripe = true → stripe ≠ 0 ∨ line.defaultECStripeUnit = 0) := by
  by_cases hid : line.id < 0
  · simp [PoolLine.stripeAfter, PoolLine.asksStripe, hid, not_le.mpr hid]
  · have hpos : 0 ≤ line.id := not_lt.mp hid
    cases hk : line.kind with
    | unknown => simp [PoolLine.stripeAfter, PoolLine.asksStripe, hid, hk, calPoolSize]
    | erasure profile =>
        cases profile with
        | none => simp [PoolLine.stripeAfter, PoolLine.asksStripe, hid, hk, calPoolSize]
        | some settings => simp [PoolLine.recordable, hk, hpos] at h
    | replicated statOk =>
        simp only [PoolLine.stripeAfter, hid, if_false, calPoolSize, hk, cachedStripeSize,
          PoolLine.asksStripe, hpos, decide_true, Bool.and_self, forall_const]
        by_cases hstripe : stripe = 0
        · simp [hstripe]
        · rw [if_neg hstripe]
          exact iff_of_true rfl (.inl hstripe)

/-- A clean round from an idle state that reports nothing changes nothing. -/
theorem updatePoolUsage_eq_self {s : PoolUsageStat} {r : Round} (hclean : CleanRound s r)
    (h : (updatePoolUsage s r).2.reported = none) : (updatePoolUsage s r).1 = s := by
  rcases updatePoolUsage_cases s r with
    ⟨-, heq⟩ | ⟨-, -, heq⟩ | ⟨hmon, pre, bad, rest, hmatched, hpre, hbad, heq⟩
  · rw [heq]
  · rw [heq] at h
    cases h
  · rcases hclean with hneg | ⟨hall, -⟩ | ⟨bad', rest', hmatched', hbad', hstripe⟩
    · exact absurd hneg (not_lt.mpr hmon)
    · have := hall bad (by simp [hmatched])
      simp [hbad] at this
    · -- the first line that cannot be recorded is the first line
      cases pre with
      | nil =>
          obtain ⟨rfl, rfl⟩ : bad = bad' ∧ rest = rest' := by simpa [hmatched] using hmatched'
          simp [heq, recordUntil, (stripeAfter_eq_iff hbad _).mpr hstripe]
      | cons line pre =>
          obtain ⟨rfl, -⟩ : line = bad' ∧ pre ++ bad :: rest = rest' := by
            simpa [hmatched] using hmatched'
          have := hpre line (by simp)
          simp [hbad'] at this

/-- Clean rounds keep the working lists empty between rounds. -/
theorem idle_of_reach {s : PoolUsageStat} (h : Reach roundStep CleanRound .init s) : Idle s := by
  refine h.invariant Idle ⟨rfl, rfl⟩ ?_
  intro s r t hidle hclean hstep
  cases hstep
  cases hrep : (updatePoolUsage s r).2.reported with
  | none =>
      rw [updatePoolUsage_eq_self hclean hrep]
      exact hidle
  | some reported =>
      rcases updatePoolUsage_cases s r with ⟨-, heq⟩ | ⟨-, -, heq⟩ | ⟨-, _, _, _, _, _, _, heq⟩
      · rw [heq] at hrep
        cases hrep
      · rw [heq]
        exact ⟨rfl, rfl⟩
      · rw [heq] at hrep
        cases hrep

/-- From an idle state, a round that records everything reports its lines' pools in order. -/
theorem reported_of_idle {s : PoolUsageStat} (hidle : Idle s) (lines : List PoolLine)
    (reportRet : Int) :
    (updatePoolList (compare (recordAll s lines)) reportRet).2.reported =
      some (lines.map PoolLine.poolId) := by
  have hlist := (find?_foldl_comparePool (recordAll s lines).poolList (recordAll s lines) 0).2.1
  simp only [updatePoolList, compare, hlist]
  simp [recordAll, hidle.1]

/-- From an idle state, a round that records distinct pools publishes its values. -/
theorem find?_published_of_idle {s : PoolUsageStat} (hidle : Idle s) {lines : List PoolLine}
    (hnodup : (lines.map PoolLine.poolId).Nodup) (reportRet : Int) (k : Nat)
    (info : PoolUsageInfo) :
    (updatePoolList (compare (recordAll s lines)) reportRet).1.poolInfoMap.find? k = some info ↔
      (k, info) ∈ roundValues s.globalStripeSize lines := by
  have hkeys : ((roundValues s.globalStripeSize lines).map Prod.fst).Nodup := by
    rwa [roundValues_keys]
  have htmp := OrdMap.find?_foldl_insert_entries hkeys OrdMap.empty k
  simp only [OrdMap.find?_empty, reduceCtorEq, false_and, or_false] at htmp
  have hpub := find?_compare (recordAll s lines) k
  simp only [updatePoolList]
  rw [hpub, ← htmp]
  simp only [recordAll, hidle.1, hidle.2, List.nil_append, ← roundValues_keys s.globalStripeSize]
  by_cases hk : k ∈ (roundValues s.globalStripeSize lines).map Prod.fst
  · obtain ⟨⟨k', info'⟩, hmem, rfl⟩ := List.mem_map.mp hk
    rw [if_pos hk, (htmp info').mpr hmem]
    simp
  · rw [if_neg hk, htmp]
    refine iff_of_false (by simp) fun hmem => hk (List.mem_map.mpr ⟨_, hmem, rfl⟩)

/-- A round whose usage table lists no pool and whose report succeeds. -/
def emptyRound : Round := ⟨0, [], 0⟩

/-- An empty round reports what earlier rounds left over. -/
theorem updatePoolUsage_emptyRound (s : PoolUsageStat) :
    (updatePoolUsage s emptyRound).2 = ⟨0, some s.poolList⟩ := by
  have hlist := (find?_foldl_comparePool s.poolList s 0).2.1
  simp [updatePoolUsage, emptyRound, getPoolStorageUsage, recordLines, updatePoolList, compare,
    hlist]

/-- A line of one replicated pool, for which the cluster answers `stripe` if asked. -/
def stripeLine (stripe : BitVec 32) : PoolLine := ⟨0, 0, 0, 0, 0, 0, .replicated true, stripe⟩

/-- A round that lists this pool only and whose report succeeds. -/
def stripeRound (stripe : BitVec 32) : Round := ⟨0, [some (stripeLine stripe)], 0⟩

/-- From an idle state the pool of a `stripeRound` is published with the stripe unit kept from
before, if there is one. -/
theorem updatePoolUsage_stripeRound {s : PoolUsageStat} (hidle : Idle s) (stripe : BitVec 32) :
    (updatePoolUsage s (stripeRound stripe)).2.ret = 0 ∧
    (updatePoolUsage s (stripeRound stripe)).1.poolInfoMap.find? 0 =
      some ((stripeLine stripe).usage
        ⟨1, 2, cachedStripeSize s.globalStripeSize (stripeLine stripe)⟩) := by
  rcases updatePoolUsage_cases s (stripeRound stripe) with
    ⟨hmon, -⟩ | ⟨-, -, heq⟩ | ⟨-, pre, bad, rest, hmatched, -, hbad, -⟩
  · exact absurd hmon (lt_irrefl 0)
  · rw [heq]
    have hnodup : ((stripeRound stripe).matched.map PoolLine.poolId).Nodup :=
      List.nodup_singleton 0
    refine ⟨rfl, ?_⟩
    rw [find?_published_of_idle hidle hnodup]
    exact List.mem_singleton.mpr rfl
  · have hmem : bad ∈ [stripeLine stripe] := by
      rw [show [stripeLine stripe] = pre ++ bad :: rest from hmatched]
      simp
    rw [List.mem_singleton.mp hmem] at hbad
    cases hbad

/-- A round that stops after it recorded a pool shows in the next report. -/
theorem not_leavesNoTrace_of_recorded {s : PoolUsageStat} (hidle : Idle s) {r : Round}
    {line bad : PoolLine} {pre : List PoolLine}
    (heq : updatePoolUsage s r = (recordUntil s (line :: pre) bad, ⟨-1, none⟩)) :
    ¬LeavesNoTrace s r := by
  intro h
  obtain ⟨-, hlater⟩ := h (by rw [heq])
  have hsame := congrArg (fun x => x.1.reported) (hlater [] emptyRound
    (by rw [updatePoolUsage_emptyRound]))
  simp only [result, rounds, List.foldl_nil, updatePoolUsage_emptyRound, heq, hidle.1] at hsame
  simp [recordUntil, recordAll] at hsame

/-- A round that stops at its first pool and learns the stripe unit shows in the next values. -/
theorem not_leavesNoTrace_of_stripe {s : PoolUsageStat} (hidle : Idle s) {r : Round}
    {bad : PoolLine} (hbad : bad.recordable = false)
    (hstripe : bad.stripeAfter s.globalStripeSize ≠ s.globalStripeSize)
    (heq : updatePoolUsage s r = (recordUntil s [] bad, ⟨-1, none⟩)) :
    ¬LeavesNoTrace s r := by
  intro h
  obtain ⟨-, hlater⟩ := h (by rw [heq])
  have hidle' : Idle (recordUntil s [] bad) := by
    rw [recordUntil, recordAll_nil]
    exact hidle
  have hzero : s.globalStripeSize = 0 := by
    by_contra hne
    exact hstripe ((stripeAfter_eq_iff hbad _).mpr fun _ => .inl hne)
  -- the next round is asked for a unit that differs from the one that was kept
  let stripe := bad.stripeAfter s.globalStripeSize + 1
  obtain ⟨hret, hfind⟩ := updatePoolUsage_stripeRound hidle' stripe
  obtain ⟨-, hfind'⟩ := updatePoolUsage_stripeRound hidle stripe
  have hsame := hlater [] (stripeRound stripe) (by simpa [rounds, heq] using hret)
  simp only [result, rounds, List.foldl_nil, heq, Prod.mk.injEq] at hsame
  rw [hsame.2, hfind'] at hfind
  have hunit := congrArg (Option.map PoolUsageInfo.stripeUnit) hfind
  have hkept : bad.stripeAfter s.globalStripeSize ≠ 0 := fun hz => hstripe (hz.trans hzero.symm)
  simp only [Option.map_some, PoolLine.usage, cachedStripeSize, recordUntil, recordAll_nil,
    if_pos hzero, if_neg hkept, Option.some.injEq, stripeLine] at hunit
  simp [stripe] at hunit

/-- From an idle state, a round is atomic exactly when it is clean. -/
theorem atomicRound_iff_of_idle {s : PoolUsageStat} (hidle : Idle s) (r : Round) :
    AtomicRound s r ↔ CleanRound s r := by
  constructor
  · intro h
    obtain ⟨hpub, htrace⟩ := h
    rcases updatePoolUsage_cases s r with
      ⟨hmon, -⟩ | ⟨-, hall, heq⟩ | ⟨-, pre, bad, rest, hmatched, -, hbad, heq⟩
    · exact .inl hmon
    · refine .inr (.inl ⟨hall, fun hreport => ?_⟩)
      obtain ⟨-, reported, hrep, hnodup, -⟩ := hpub (by rw [heq]; simp [updatePoolList, hreport])
      rw [heq, reported_of_idle hidle, Option.some.injEq] at hrep
      rwa [hrep]
    · cases pre with
      | nil =>
          refine .inr (.inr ⟨bad, rest, hmatched, hbad, ?_⟩)
          rw [← stripeAfter_eq_iff hbad]
          by_contra hstripe
          exact not_leavesNoTrace_of_stripe hidle hbad hstripe heq htrace
      | cons line pre => exact absurd htrace (not_leavesNoTrace_of_recorded hidle heq)
  · intro hclean
    refine ⟨fun hret => ?_, fun hrep => ?_⟩
    · rcases updatePoolUsage_cases s r with
        ⟨hmon, heq⟩ | ⟨hmon, hall, heq⟩ | ⟨-, _, _, _, _, _, _, heq⟩
      · rw [heq] at hret
        exact absurd hret hmon.ne
      · have hreport : r.reportRet = 0 := by
          by_contra hne
          rw [heq] at hret
          simp [updatePoolList, hne] at hret
        have hnodup : (r.matched.map PoolLine.poolId).Nodup := by
          rcases hclean with hneg | ⟨-, hnodup⟩ | ⟨bad, rest, hmatched, hbad, -⟩
          · exact absurd hneg (not_lt.mpr hmon)
          · exact hnodup hreport
          · have := hall bad (by simp [hmatched])
            simp [hbad] at this
        rw [heq]
        exact ⟨find?_published_of_idle hidle hnodup _, _, reported_of_idle hidle _ _, hnodup,
          fun k => List.mem_map⟩
      · rw [heq] at hret
        cases hret
    · rw [updatePoolUsage_eq_self hclean hrep]
      exact ⟨rfl, fun _ _ _ => rfl⟩

/-- After any run of clean rounds, the next round is atomic exactly when it is clean too. -/
theorem updatePoolUsage_atomic_iff {s : PoolUsageStat}
    (h : Reach roundStep CleanRound .init s) (r : Round) : AtomicRound s r ↔ CleanRound s r :=
  atomicRound_iff_of_idle (idle_of_reach h) r

/-- A run of one round that lists a pool; in the next one the pool is gone. -/
theorem emptyRound_atomic_after_stripeRound :
    AtomicRound (updatePoolUsage .init (stripeRound 4096)).1 emptyRound := by
  have hfirst : CleanRound .init (stripeRound 4096) :=
    .inr (.inl ⟨by decide, fun _ => by decide⟩)
  have hrun : Reach roundStep CleanRound .init (updatePoolUsage .init (stripeRound 4096)).1 :=
    .next .start hfirst rfl
  have hlast : CleanRound (updatePoolUsage .init (stripeRound 4096)).1 emptyRound :=
    .inr (.inl ⟨by decide, fun _ => by decide⟩)
  exact (updatePoolUsage_atomic_iff hrun emptyRound).mpr hlast

/-- A line of a replicated pool whose replication size can or cannot be read. -/
def replicatedLine (id : Int) (statOk : Bool) : PoolLine :=
  ⟨id, 0, 0, 0, 0, 0, .replicated statOk, 4096⟩

/-- Pool 1 is recorded, then the round fails at pool 2. -/
def halfRecordedRound : Round :=
  ⟨0, [some (replicatedLine 1 true), some (replicatedLine 2 false)], 0⟩

/-- The next table lists pool 2 only. -/
def poolTwoRound : Round := ⟨0, [some (replicatedLine 2 true)], 0⟩

/-- After a round that failed at its second pool, a successful round publishes and reports the
first pool too, which its table does not list. -/
theorem stale_pool_published :
    ∃ s, Reach roundStep anyEvent .init s ∧ poolTwoRound.matched.map PoolLine.poolId = [2] ∧
      (updatePoolUsage s poolTwoRound).2 = ⟨0, some [1, 2]⟩ ∧
      ((updatePoolUsage s poolTwoRound).1.poolInfoMap.find? 1).isSome = true ∧
      ¬AtomicRound s poolTwoRound := by
  refine ⟨(updatePoolUsage .init halfRecordedRound).1, .next .start trivial rfl, by decide,
    by decide, by decide, ?_⟩
  intro h
  obtain ⟨-, reported, hrep, -, hmem⟩ := h.1 (by decide)
  obtain rfl : [1, 2] = reported := Option.some.inj hrep
  exact absurd ((hmem 1).mp (by decide)) (by decide)

end GlobalCacheAdaptor.CephProxy
