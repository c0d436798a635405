import GlobalCacheAdaptor.CephProxy.DfTable
import GlobalCacheAdaptor.CephProxy.PoolUsage

/-!
# Where a stripe unit comes from

A refresh of the pool usage with the replies of the monitor as texts, down to the commands that ask
for the kind of a pool, its profile and the default stripe unit. `resolve` turns the replies of a
line into the line that `PoolUsage` records, and `refresh_stat` says that a refresh is a round of
that model as long as nothing is thrown. Beside the state stands what has been heard: the numbers
that successful replies and profile lines gave.

`unpoisoned_of_clean` says which replies keep every stripe unit to the default or to a number that
was heard. `GetDefaultECStripeUnit` returns its error code as a stripe unit, throws on a reply
without a line end, and cuts the number to 32 bits.
-/

namespace GlobalCacheAdaptor.CephProxy

open Lib Regex ServerAdaptor

/-! ## Replies -/

/-- The return value of a `mon_command` and its output. -/
structure MonReply where
  ret : BitVec 32
  outbl : Bytes

/-- The exceptions of the standard library that the refresh can meet. -/
inductive StdException where
  | outOfRange
  deriving DecidableEq

/-- `defaultStripeUnit`. -/
def defaultStripeUnit : BitVec 32 := 4096

/-- `unit.replace(unit.find("\n"), 1, "")`: the position of a text without a line end is past its
end. -/
def eraseNewline (unit : Bytes) : Except StdException Bytes :=
  if byteOf '\n' ∈ unit then .ok (unit.erase (byteOf '\n')) else .error .outOfRange

/-- `GetDefaultECStripeUnit`. -/
def getDefaultECStripeUnit (reply : MonReply) : Except StdException (BitVec 32) :=
  -- the error code becomes a `uint32_t`
  if reply.ret.toInt < 0 then .ok reply.ret
  else
    match eraseNewline reply.outbl with
    | .error e => .error e
    | .ok unit =>
        let num := transStrToNum unit 0
        .ok (if num ≠ 0 then num.setWidth 32 else defaultStripeUnit)

/-- `erasure_code_profile:\s(\S+)\n?` -/
def ecProfilePattern : Regex Byte :=
  .seq (lit (ascii "erasure_code_profile:"))
    (.seq rxSpace (.seq (.group 1 rxNonSpace.plus) (rxChar '\n').opt))

/-- `IsECPool`; -13 is `-EACCES`. -/
def isECPool (reply : MonReply) : ECAnswer :=
  if reply.ret.toInt < 0 then
    if reply.ret.toInt = -13 then ⟨0, [], false⟩ else ⟨reply.ret.toInt, [], false⟩
  else
    match ecProfilePattern.regexMatch reply.outbl with
    | some result => ⟨0, cStr (str result 1), true⟩
    | none => ⟨-1, [], true⟩

/-- `(\w+)=(\w+)` -/
def settingPattern : Regex Byte :=
  .seq (.group 1 rxWord.plus) (.seq (rxChar '=') (.group 2 rxWord.plus))

/-- What `ParseECProfile` reads off a line of a profile. -/
def parseSetting (profile : Bytes) : EcSetting :=
  match settingPattern.regexMatch profile with
  | none => .other
  | some result =>
      if str result 1 = ascii "k" then .k (atoi (str result 2))
      else if str result 1 = ascii "m" then .m (atoi (str result 2))
      else if str result 1 = ascii "stripe_unit" then .stripeUnit (transStrToNum (str result 2) 0)
      else .other

/-- The lines of a profile, as `GetECProfileSize` reads them, or none if the command fails. -/
def profileSettings (reply : MonReply) : Option (List EcSetting) :=
  if reply.ret ≠ 0 then none
  else some ((tokens (byteOf '\n') (cStr reply.outbl)).map parseSetting)

/-! ## Lines -/

/-- A line of the `df` output that matches the pattern, with the replies to the commands about its
pool. A reply is there also if its command is not sent. -/
structure AskedLine where
  id : Int
  storedSize : BitVec 64
  objectsNum : BitVec 64
  usedSize : BitVec 64
  useRatio : BitVec 32
  maxAvail : BitVec 64
  ecReply : MonReply
  profileReply : MonReply
  /-- Whether `GetPoolReplicationSize` succeeds. -/
  statOk : Bool
  defaultReply : MonReply

/-- The kind of the pool. -/
def AskedLine.kind (line : AskedLine) : PoolKind :=
  let answer := isECPool line.ecReply
  if answer.ret ≠ 0 then .unknown
  else if answer.isEC then .erasure (profileSettings line.profileReply)
  else .replicated line.statOk

/-- The line with its replies read. -/
def AskedLine.resolve (line : AskedLine) : PoolLine where
  id := line.id
  storedSize := line.storedSize
  objectsNum := line.objectsNum
  usedSize := line.usedSize
  useRatio := line.useRatio
  maxAvail := line.maxAvail
  kind := line.kind
  defaultECStripeUnit :=
    match getDefaultECStripeUnit line.defaultReply with
    | .ok stripeUnit => stripeUnit
    | .error _ => 0

/-- `CalPoolSize` comes to `GetDefaultECStripeUnit` on this line. -/
def AskedLine.asksDefault (line : AskedLine) (globalStripeSize : BitVec 32) : Bool :=
  decide (0 ≤ line.id) && decide (globalStripeSize = 0) &&
    match line.kind with
    | .erasure (some _) | .replicated _ => true
    | _ => false

/-- `GetDefaultECStripeUnit` throws on this line. -/
def AskedLine.raises (line : AskedLine) (globalStripeSize : BitVec 32) : Bool :=
  line.asksDefault globalStripeSize &&
    match getDefaultECStripeUnit line.defaultReply with
    | .ok _ => false
    | .error _ => true

/-- The settings of the profile that `GetECProfileSize` reads on this line. -/
def AskedLine.settings (line : AskedLine) : List EcSetting :=
  if line.id < 0 then []
  else
    match line.kind with
    | .erasure (some settings) => settings
    | _ => []

/-- The stripe units among the settings. -/
def stripeUnits (settings : List EcSetting) : List (BitVec 64) :=
  settings.filterMap fun
    | .stripeUnit value => some value
    | _ => none

/-- The number that a successful reply about the default gives. -/
def MonReply.number (reply : MonReply) : List (BitVec 64) :=
  if reply.ret.toInt < 0 then []
  else
    match eraseNewline reply.outbl with
    | .ok unit => [transStrToNum unit 0]
    | .error _ => []

/-- The numbers heard on a line. -/
def AskedLine.heard (line : AskedLine) (globalStripeSize : BitVec 32) : List (BitVec 64) :=
  (if line.asksDefault globalStripeSize then line.defaultReply.number else []) ++
    stripeUnits line.settings

/-! ## Refreshes -/

/-- The state of the refresh, with the numbers heard so far and whether an exception has left it. -/
structure Monitor where
  stat : PoolUsageStat
  heard : List (BitVec 64)
  raised : Bool

/-- A new monitor. -/
def Monitor.init : Monitor := ⟨.init, [], false⟩

/-- `Record`, where `GetDefaultECStripeUnit` may throw before anything is stored. -/
def recordAsked (s : Monitor) (line : AskedLine) : Monitor × Int :=
  if line.raises s.stat.globalStripeSize then ({ s with raised := true }, -1)
  else
    let heard := s.heard ++ line.heard s.stat.globalStripeSize
    match record s.stat line.resolve with
    | (stat, ret) => ({ s with stat := stat, heard := heard }, ret)

/-- The loop of `GetPoolStorageUsage`, which an exception leaves like a failure. -/
def recordAskedLines : Monitor → List (Option AskedLine) → Monitor × Int
  | s, [] => (s, 0)
  | s, none :: rest => recordAskedLines s rest
  | s, some line :: rest =>
      match recordAsked s line with
      | (s, ret) => if ret ≠ 0 then (s, -1) else recordAskedLines s rest

/-- What the cluster answers in one refresh. -/
structure Refresh where
  monRet : Int
  lines : List (Option AskedLine)
  reportRet : Int

/-- The refresh as a round of the model without texts. -/
def Refresh.toRound (r : Refresh) : Round :=
  ⟨r.monRet, r.lines.map (Option.map AskedLine.resolve), r.reportRet⟩

/-- `UpdatePoolUsage`. -/
def refresh (s : Monitor) (r : Refresh) : Monitor :=
  if r.monRet < 0 then s
  else
    match recordAskedLines s r.lines with
    | (s, ret) =>
        if ret ≠ 0 then s
        else { s with stat := (updatePoolList (compare s.stat) r.reportRet).1 }

/-- A refresh as a step of a run. Nothing catches an exception, so none comes after it. -/
def refreshStep (s : Monitor) (r : Refresh) : Option Monitor :=
  if s.raised then none else some (refresh s r)

/-! ## Known stripe units -/

/-- The default, or a number that was heard: one that `TransStrToNum` gave for a text of the
monitors. -/
def Known (heard : List (BitVec 64)) (stripeUnit : BitVec 32) : Prop :=
  stripeUnit = defaultStripeUnit ∨ ∃ num ∈ heard, num ≠ 0 ∧ stripeUnit.toNat = num.toNat

/-- Every stripe unit is known, except that `globalStripeSize` may still be 0, and nothing was
thrown. -/
structure Unpoisoned (s : Monitor) : Prop where
  global : s.stat.globalStripeSize = 0 ∨ Known s.heard s.stat.globalStripeSize
  recorded : ∀ id info, s.stat.tmpPoolInfoMap.find? id = some info → Known s.heard info.stripeUnit
  published : ∀ id info, s.stat.poolInfoMap.find? id = some info → Known s.heard info.stripeUnit
  raised : s.raised = false

/-- A reply about the default that succeeds, with a line end and a text from which `TransStrToNum`
makes a number of 32 bits. -/
def MonReply.clean (reply : MonReply) : Bool :=
  decide (0 ≤ reply.ret.toInt) && decide (byteOf '\n' ∈ reply.outbl) &&
    decide ((transStrToNum (reply.outbl.erase (byteOf '\n')) 0).toNat < 2 ^ 32)

/-- The reply about the default is clean if it is asked for, and so is every stripe unit of the
profile that is read. -/
def AskedLine.clean (line : AskedLine) (globalStripeSize : BitVec 32) : Bool :=
  (!line.asksDefault globalStripeSize || line.defaultReply.clean) &&
    (stripeUnits line.settings).all fun value => decide (value.toNat < 2 ^ 32)

/-- Every line that is recorded, up to the first failure, is clean. -/
def cleanLines : PoolUsageStat → List (Option AskedLine) → Bool
  | _, [] => true
  | s, none :: rest => cleanLines s rest
  | s, some line :: rest =>
      line.clean s.globalStripeSize &&
        match record s line.resolve with
        | (s, ret) => decide (ret ≠ 0) || cleanLines s rest

/-- The replies of a refresh are clean, as far as it hears them. -/
def CleanRefresh (s : Monitor) (r : Refresh) : Prop :=
  (decide (r.monRet < 0) || cleanLines s.stat r.lines) = true

/-- A computed condition. -/
instance (s : Monitor) (r : Refresh) : Decidable (CleanRefresh s r) :=
  inferInstanceAs (Decidable (_ = true))

/-! ## A refresh is a round -/

/-- `recordAskedLines` records the resolved lines, unless something is thrown. -/
theorem recordAskedLines_stat {s : Monitor} {lines : List (Option AskedLine)}
    (h : (recordAskedLines s lines).1.raised = false) :
    ((recordAskedLines s lines).1.stat, (recordAskedLines s lines).2) =
      recordLines s.stat (lines.map (Option.map AskedLine.resolve)) := by
  induction lines generalizing s with
  | nil => rfl
  | cons line rest ih =>
      cases line with
      | none => exact ih h
      | some line =>
          simp only [recordAskedLines, recordAsked, List.map_cons, Option.map_some,
            recordLines] at h ⊢
          by_cases hraises : line.raises s.stat.globalStripeSize = true
          · simp [hraises] at h
          · rw [if_neg hraises] at h ⊢
            by_cases hret : (record s.stat line.resolve).2 = 0
            · simp only [hret, ne_eq, not_true_eq_false, if_false] at h ⊢
              exact ih h
            · simp only [hret, ne_eq, not_false_eq_true, if_true]

/-- A refresh that throws nothing is a round of the model without texts. -/
theorem refresh_stat {s : Monitor} {r : Refresh} (h : (refresh s r).raised = false) :
    (refresh s r).stat = (updatePoolUsage s.stat r.toRound).1 := by
  by_cases hmon : r.monRet < 0
  · simp [refresh, updatePoolUsage, Refresh.toRound, hmon]
  · have hraised : (recordAskedLines s r.lines).1.raised = false := by
      simp only [refresh, if_neg hmon] at h
      split_ifs at h <;> exact h
    have hlines := recordAskedLines_stat hraised
    simp only [refresh, updatePoolUsage, getPoolStorageUsage, Refresh.toRound, if_neg hmon,
      ← hlines]
    by_cases hret : (recordAskedLines s r.lines).2 = 0
    · simp [hret]
    · simp [hret]

/-! ## One line -/

/-- What is known stays known. -/
theorem Known.mono {heard more : List (BitVec 64)} {stripeUnit : BitVec 32}
    (h : Known heard stripeUnit) (hsub : heard ⊆ more) : Known more stripeUnit := by
  rcases h with h | ⟨num, hmem, hnum⟩
  · exact .inl h
  · exact .inr ⟨num, hsub hmem, hnum⟩

/-- A number of 32 bits that was heard is known after the cast. -/
theorem known_setWidth {heard : List (BitVec 64)} {num : BitVec 64} (hmem : num ∈ heard)
    (hne : num ≠ 0) (hlt : num.toNat < 2 ^ 32) : Known heard (num.setWidth 32) := by
  refine .inr ⟨num, hmem, hne, ?_⟩
  rw [BitVec.toNat_setWidth, Nat.mod_eq_of_lt hlt]

/-- A clean reply throws nothing and gives a known stripe unit. -/
theorem getDefaultECStripeUnit_of_clean {reply : MonReply} (h : reply.clean = true) :
    ∃ stripeUnit, getDefaultECStripeUnit reply = .ok stripeUnit ∧
      Known reply.number stripeUnit := by
  simp only [MonReply.clean, Bool.and_eq_true, decide_eq_true_eq] at h
  obtain ⟨⟨hret, hmem⟩, hlt⟩ := h
  have herase : eraseNewline reply.outbl = .ok (reply.outbl.erase (byteOf '\n')) := if_pos hmem
  have hneg : ¬ reply.ret.toInt < 0 := by omega
  simp only [getDefaultECStripeUnit, MonReply.number, if_neg hneg, herase]
  refine ⟨_, rfl, ?_⟩
  by_cases hne : transStrToNum (reply.outbl.erase (byteOf '\n')) 0 = 0
  · rw [if_neg (not_not_intro hne)]
    exact .inl rfl
  · rw [if_pos hne]
    exact known_setWidth (List.mem_singleton_self _) hne hlt

/-- The profile's lines leave a known stripe unit known. -/
theorem known_foldl_parseECProfile {heard : List (BitVec 64)} {settings : List EcSetting}
    (hmem : ∀ value ∈ stripeUnits settings, value ∈ heard ∧ value.toNat < 2 ^ 32)
    {profile : EcProfile} (h : Known heard profile.stripeUnit) :
    Known heard (settings.foldl parseECProfile profile).stripeUnit := by
  induction settings generalizing profile with
  | nil => exact h
  | cons setting rest ih =>
      cases setting with
      | k value | m value => exact ih hmem h
      | other => exact ih hmem h
      | stripeUnit value =>
          obtain ⟨⟨hvalue, hlt⟩, hrest⟩ := List.forall_mem_cons.mp hmem
          refine ih hrest ?_
          by_cases hne : value = 0
          · rw [parseECProfile, if_neg (not_not_intro hne)]
            exact h
          · rw [parseECProfile, if_pos hne]
            exact known_setWidth hvalue hne hlt

/-- A line changes the stripe unit only if it asks for it. -/
theorem stripeAfter_resolve (line : AskedLine) (stripe : BitVec 32) :
    line.resolve.stripeAfter stripe =
      if line.asksDefault stripe then line.resolve.defaultECStripeUnit else stripe := by
  have hkind : line.resolve.kind = line.kind := rfl
  have hid : line.resolve.id = line.id := rfl
  rw [PoolLine.stripeAfter, hid, calPoolSize, hkind, AskedLine.asksDefault]
  by_cases hneg : line.id < 0
  · simp [hneg, not_le.mpr hneg]
  · cases line.kind with
    | unknown => simp
    | erasure profile =>
        cases profile with
        | none => simp
        | some settings => simp [hneg, not_lt.mp hneg, cachedStripeSize]
    | replicated statOk => simp [hneg, not_lt.mp hneg, cachedStripeSize]

/-- A line that is recorded has an id and a kind that is known. -/
theorem recordable_resolve {line : AskedLine} (h : line.resolve.recordable = true) :
    0 ≤ line.id ∧
      ((∃ settings, line.kind = .erasure (some settings)) ∨ line.kind = .replicated true) := by
  have hkind : line.resolve.kind = line.kind := rfl
  have hid : line.resolve.id = line.id := rfl
  simp only [PoolLine.recordable, hid, hkind, Bool.and_eq_true, decide_eq_true_eq] at h
  obtain ⟨hpos, hrec⟩ := h
  refine ⟨hpos, ?_⟩
  cases hk : line.kind with
  | unknown => simp [hk] at hrec
  | erasure profile =>
      cases profile with
      | none => simp [hk] at hrec
      | some settings => exact .inl ⟨settings, rfl⟩
  | replicated statOk =>
      obtain rfl : statOk = true := by simpa [hk] using hrec
      exact .inr rfl

/-- The stripe unit that a recordable line is recorded with. -/
theorem profile_resolve {line : AskedLine} (h : line.resolve.recordable = true)
    (stripe : BitVec 32) :
    ∃ profile : EcProfile, profile.stripeUnit = line.resolve.stripeAfter stripe ∧
      (line.resolve.profile stripe).stripeUnit =
        (line.settings.foldl parseECProfile profile).stripeUnit := by
  obtain ⟨hpos, hkind⟩ := recordable_resolve h
  have hresolve : line.resolve.kind = line.kind := rfl
  have hid : line.resolve.id = line.id := rfl
  simp only [PoolLine.profile, PoolLine.stripeAfter, AskedLine.settings, hid,
    if_neg (not_lt.mpr hpos), calPoolSize, hresolve]
  rcases hkind with ⟨settings, hkind⟩ | hkind
  · rw [hkind]
    exact ⟨⟨0, 0, _⟩, rfl, rfl⟩
  · rw [hkind]
    exact ⟨⟨1, 2, _⟩, rfl, rfl⟩

/-- A recordable line that does not ask finds the stripe unit already known. -/
theorem asksDefault_of_recordable {line : AskedLine} (h : line.resolve.recordable = true) :
    line.asksDefault 0 = true := by
  obtain ⟨hpos, hkind⟩ := recordable_resolve h
  simp only [AskedLine.asksDefault, hpos, decide_true, Bool.true_and]
  rcases hkind with ⟨settings, hkind⟩ | hkind
  · rw [hkind]
  · rw [hkind]

/-- A clean line throws nothing, and the stripe unit it leaves is known if it asks. -/
theorem AskedLine.known_of_clean {line : AskedLine} {stripe : BitVec 32}
    (h : line.clean stripe = true) (hasks : line.asksDefault stripe = true) :
    line.raises stripe = false ∧
      Known (line.heard stripe) line.resolve.defaultECStripeUnit := by
  simp only [AskedLine.clean, hasks, Bool.not_true, Bool.false_or, Bool.and_eq_true] at h
  obtain ⟨stripeUnit, hok, hknown⟩ := getDefaultECStripeUnit_of_clean h.1
  constructor
  · simp only [AskedLine.raises, hok, Bool.and_false]
  · simp only [AskedLine.resolve, hok, AskedLine.heard, hasks, if_true]
    exact hknown.mono (List.subset_append_left _ _)

/-! ## Runs -/

/-- What every refresh keeps: known stripe units, and an entry for every listed pool. -/
structure MonitorInv (s : Monitor) : Prop extends Unpoisoned s where
  listed : ∀ id ∈ s.stat.poolList, (s.stat.tmpPoolInfoMap.find? id).isSome = true

/-- The stripe unit after a clean line. -/
theorem MonitorInv.known_stripeAfter {s : Monitor} (hinv : MonitorInv s) {line : AskedLine}
    (hclean : line.clean s.stat.globalStripeSize = true) :
    (line.resolve.stripeAfter s.stat.globalStripeSize = 0 ∧ line.resolve.recordable = false) ∨
      Known (s.heard ++ line.heard s.stat.globalStripeSize)
        (line.resolve.stripeAfter s.stat.globalStripeSize) := by
  rw [stripeAfter_resolve]
  by_cases hasks : line.asksDefault s.stat.globalStripeSize = true
  · rw [if_pos hasks]
    exact .inr ((AskedLine.known_of_clean hclean hasks).2.mono (List.subset_append_right _ _))
  · rw [if_neg hasks]
    rcases hinv.global with hzero | hknown
    · refine .inl ⟨hzero, ?_⟩
      by_contra hrec
      rw [hzero] at hasks
      exact hasks (asksDefault_of_recordable (Bool.eq_true_of_not_eq_false hrec))
    · exact .inr (hknown.mono (List.subset_append_left _ _))

/-- The stripe unit that a clean line is recorded with. -/
theorem MonitorInv.known_profile {s : Monitor} (hinv : MonitorInv s) {line : AskedLine}
    (hclean : line.clean s.stat.globalStripeSize = true)
    (hrec : line.resolve.recordable = true) :
    Known (s.heard ++ line.heard s.stat.globalStripeSize)
      (line.resolve.profile s.stat.globalStripeSize).stripeUnit := by
  obtain ⟨profile, hstart, heq⟩ := profile_resolve hrec s.stat.globalStripeSize
  rw [heq]
  refine known_foldl_parseECProfile ?_ ?_
  · intro value hvalue
    refine ⟨List.mem_append_right _ (List.mem_append_right _ hvalue), ?_⟩
    have hall := (Bool.and_eq_true_iff.mp hclean).2
    exact of_decide_eq_true (List.all_eq_true.mp hall value hvalue)
  · rw [hstart]
    rcases hinv.known_stripeAfter hclean with ⟨-, hnot⟩ | hknown
    · rw [hrec] at hnot
      cases hnot
    · exact hknown

/-- A clean line throws nothing. -/
theorem AskedLine.raises_of_clean {line : AskedLine} {stripe : BitVec 32}
    (h : line.clean stripe = true) : line.raises stripe = false := by
  by_cases hasks : line.asksDefault stripe = true
  · exact (AskedLine.known_of_clean h hasks).1
  · simp [AskedLine.raises, hasks]

/-- A clean line keeps the invariant. -/
theorem MonitorInv.recordAsked {s : Monitor} (hinv : MonitorInv s) {line : AskedLine}
    (hclean : line.clean s.stat.globalStripeSize = true) :
    MonitorInv (recordAsked s line).1 := by
  have hraises : ¬ line.raises s.stat.globalStripeSize = true := by
    rw [AskedLine.raises_of_clean hclean]
    exact Bool.false_ne_true
  have hglobal := (hinv.known_stripeAfter hclean).imp_left And.left
  have hold : ∀ {stripeUnit}, Known s.heard stripeUnit →
      Known (s.heard ++ line.heard s.stat.globalStripeSize) stripeUnit :=
    fun h => h.mono (List.subset_append_left _ _)
  rw [CephProxy.recordAsked, if_neg hraises]
  by_cases hrec : line.resolve.recordable = true
  · rw [record_of_recordable s.stat hrec]
    refine ⟨⟨hglobal, ?_, fun id info h => hold (hinv.published id info h), hinv.raised⟩, ?_⟩
    · intro id info h
      simp only [recordAll, roundValues, List.foldl_cons, List.foldl_nil, OrdMap.find?_insert] at h
      split_ifs at h with hid
      · cases h
        exact hinv.known_profile hclean hrec
      · exact hold (hinv.recorded id info h)
    · intro id hid
      simp only [recordAll, roundValues, List.foldl_cons, List.foldl_nil, OrdMap.find?_insert,
        List.map_cons, List.map_nil] at hid ⊢
      split_ifs with hnew
      · rfl
      · rcases List.mem_append.mp hid with hid | hid
        · exact hinv.listed id hid
        · exact absurd (List.mem_singleton.mp hid) hnew
  · rw [record_of_not_recordable s.stat (Bool.eq_false_of_not_eq_true hrec)]
    exact ⟨⟨hglobal, fun id info h => hold (hinv.recorded id info h),
      fun id info h => hold (hinv.published id info h), hinv.raised⟩, hinv.listed⟩

/-- Clean lines keep the invariant. -/
theorem MonitorInv.recordAskedLines {s : Monitor} (hinv : MonitorInv s)
    {lines : List (Option AskedLine)} (hclean : cleanLines s.stat lines = true) :
    MonitorInv (recordAskedLines s lines).1 := by
  induction lines generalizing s with
  | nil => exact hinv
  | cons line rest ih =>
      cases line with
      | none => exact ih hinv hclean
      | some line =>
          obtain ⟨hline, hrest⟩ := Bool.and_eq_true_iff.mp hclean
          have hnext := hinv.recordAsked hline
          have hraises : ¬ line.raises s.stat.globalStripeSize = true := by
            rw [AskedLine.raises_of_clean hline]
            exact Bool.false_ne_true
          rw [CephProxy.recordAskedLines]
          rw [CephProxy.recordAsked, if_neg hraises] at hnext ⊢
          by_cases hret : (record s.stat line.resolve).2 = 0
          · simp only [hret, ne_eq, not_true_eq_false, if_false, decide_false,
              Bool.false_or] at hrest ⊢
            exact ih hnext hrest
          · simp only [hret, ne_eq, not_false_eq_true, if_true]
            exact hnext

/-- Publishing keeps the invariant. -/
theorem MonitorInv.publish {s : Monitor} (hinv : MonitorInv s) (reportRet : Int) :
    MonitorInv { s with stat := (updatePoolList (compare s.stat) reportRet).1 } := by
  obtain ⟨-, -, hstripe⟩ := find?_foldl_comparePool s.stat.poolList s.stat 0
  refine ⟨⟨?_, ?_, ?_, hinv.raised⟩, ?_⟩
  · rw [show (updatePoolList (compare s.stat) reportRet).1.globalStripeSize =
      s.stat.globalStripeSize from hstripe]
    exact hinv.global
  · intro id info h
    cases h
  · intro id info h
    rw [show (updatePoolList (compare s.stat) reportRet).1.poolInfoMap =
      (compare s.stat).poolInfoMap from rfl, find?_compare] at h
    split_ifs at h with hlisted
    cases h
    -- `operator[]` finds an entry for every listed pool
    obtain ⟨info, hinfo⟩ := Option.isSome_iff_exists.mp (hinv.listed id hlisted)
    rw [hinfo]
    exact hinv.recorded id info hinfo
  · intro id hid
    cases hid

/-- A clean refresh keeps the invariant. -/
theorem MonitorInv.refresh {s : Monitor} (hinv : MonitorInv s) {r : Refresh}
    (hclean : CleanRefresh s r) : MonitorInv (refresh s r) := by
  rw [CephProxy.refresh]
  by_cases hmon : r.monRet < 0
  · rw [if_pos hmon]
    exact hinv
  · rw [CleanRefresh, decide_eq_false hmon, Bool.false_or] at hclean
    have hlines := hinv.recordAskedLines hclean
    rw [if_neg hmon]
    by_cases hret : (CephProxy.recordAskedLines s r.lines).2 = 0
    · simp only [hret, ne_eq, not_true_eq_false, if_false]
      exact hlines.publish r.reportRet
    · simp only [hret, ne_eq, not_false_eq_true, if_true]
      exact hlines

/-- In every run whose replies are clean, every stripe unit is known and nothing is thrown. -/
theorem unpoisoned_of_clean {s : Monitor} (h : Reach refreshStep CleanRefresh .init s) :
    Unpoisoned s := by
  have hinit : MonitorInv .init := by
    refine ⟨⟨.inl rfl, ?_, ?_, rfl⟩, ?_⟩
    · intro id info h
      cases h
    · intro id info h
      cases h
    · intro id hid
      cases hid
  refine (h.invariant MonitorInv hinit ?_).toUnpoisoned
  intro s r t hinv hclean hstep
  rw [refreshStep] at hstep
  split_ifs at hstep
  cases hstep
  exact hinv.refresh hclean

/-- A refresh that lists one replicated pool, with this reply about the default. -/
def replicatedRefresh (reply : MonReply) : Refresh :=
  ⟨0, [some ⟨1, 0, 0, 0, 0, 0, ⟨-13, []⟩, ⟨0, []⟩, true, reply⟩], 0⟩

/-- A refresh that lists one erasure coded pool, with this profile. -/
def erasureRefresh (profile : Bytes) : Refresh :=
  ⟨0, [none, some ⟨2, 0, 0, 0, 0, 0, ⟨0, ascii "erasure_code_profile: p"⟩, ⟨0, profile⟩, true,
    ⟨0, []⟩⟩], 0⟩

/-- The state after the default `8K` and a profile with a unit of its own. -/
def monitorAfterTwo : Monitor :=
  refresh (refresh .init (replicatedRefresh ⟨0, ascii "8K\n"⟩))
    (erasureRefresh (ascii "k=2\nm=1\nstripe_unit=16K\n"))

/-- The default is kept, and the pool is published with the unit of its profile. -/
theorem unpoisoned_after_two :
    monitorAfterTwo.stat.globalStripeSize = 8192 ∧
      (monitorAfterTwo.stat.poolInfoMap.find? 2).map PoolUsageInfo.stripeUnit = some 16384 ∧
      Unpoisoned monitorAfterTwo := by
  refine ⟨by decide, by decide, unpoisoned_of_clean (.of_run
    [replicatedRefresh ⟨0, ascii "8K\n"⟩,
      erasureRefresh (ascii "k=2\nm=1\nstripe_unit=16K\n")] ?_)⟩
  rfl

/-- The state after the command for the default failed with -22. -/
def monitorAfterFailure : Monitor := refresh .init (replicatedRefresh ⟨-22, []⟩)

/-- One error of the monitor becomes the stripe unit of every pool. -/
theorem not_unpoisoned_failed_reply :
    ¬ ∀ s : Monitor, Reach refreshStep anyEvent .init s → Unpoisoned s := by
  intro h
  have hreach : Reach refreshStep anyEvent .init monitorAfterFailure :=
    .of_run [replicatedRefresh ⟨-22, []⟩] rfl
  rcases (h _ hreach).global with hzero | hdefault | ⟨num, hmem, -⟩
  · exact absurd hzero (by decide)
  · exact absurd hdefault (by decide)
  · cases hmem

end GlobalCacheAdaptor.CephProxy
