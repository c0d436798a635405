import GlobalCacheAdaptor.CephProxy.RbdWrapper

/-!
# The scale of an erasure-coded pool

Two loops read the data chunks `k` and the coding chunks `m` off the lines of a profile, and what
comes after them divides by `k`: `CalPoolSize` in the refresh of the pool usage and
`CephLibrbdDiskUsage` in its sum over the pools. A line that does not match is skipped, a later line
replaces an earlier one, and a value that no line sets stays 0.

`scaleGuarded_iff` says for which texts no division is by zero and the assertion of
`CalPoolProperty` holds. Neither loop reports a profile without the values as an error.
-/

namespace GlobalCacheAdaptor.CephProxy

open Lib Regex ServerAdaptor

/-! ## Lines that set a key -/

/-- The word a line `key=word` sets the key to. -/
def settingOf (key line : Bytes) : Option Bytes :=
  let word := line.drop (key.length + 1)
  if line.take (key.length + 1) = key ++ [byteOf '='] ∧ word ≠ [] ∧ word.all isWord = true then
    some word
  else none

/-- The last line of the text that sets the key sets it to a word that `atoi` does not read as
zero. -/
def GivesNonzero (key text : Bytes) : Prop :=
  ∃ word ∈ ((tokens (byteOf '\n') text).filterMap (settingOf key)).getLast?, atoi word ≠ 0

/-- A word of `\w+`. -/
def IsWord (word : Bytes) : Prop := word ≠ [] ∧ ∀ c ∈ word, isWord c = true

theorem settingOf_eq_some {key line word : Bytes} :
    settingOf key line = some word ↔ line = key ++ byteOf '=' :: word ∧ IsWord word := by
  have hlength : (key ++ [byteOf '=']).length = key.length + 1 := by simp
  rw [settingOf, Option.ite_none_right_eq_some, List.all_eq_true]
  constructor
  · rintro ⟨⟨htake, hne, hall⟩, hword⟩
    cases hword
    refine ⟨?_, hne, hall⟩
    rw [← List.singleton_append, ← List.append_assoc, ← htake, List.take_append_drop]
  · rintro ⟨rfl, hne, hall⟩
    rw [← List.singleton_append, ← List.append_assoc, List.take_left' hlength,
      List.drop_left' hlength]
    exact ⟨⟨rfl, hne, hall⟩, rfl⟩

/-- A line of two words is matched, with the words as its groups. -/
theorem regexMatch_setting {name word : Bytes} (hname : IsWord name) (hword : IsWord word) :
    settingPattern.regexMatch (name ++ byteOf '=' :: word) =
      some (Function.update (Function.update (fun _ => none) 1 (some name)) 2 (some word)) := by
  have hequals : Takes (rxChar '=') [byteOf '='] (word ++ [])
      (Function.update (fun _ => none) 1 (some name))
      (Function.update (fun _ => none) 1 (some name)) := takes_chr (by decide)
  have hfirst : ∀ c ∈ ((byteOf '=' :: word) ++ []).head?, isWord c = false := by
    rintro c ⟨⟩
    decide
  refine regexMatch_of_takes (Takes.seq (takes_plus_chr hname.1 hname.2 hfirst).group ?_)
  exact Takes.seq (u := [byteOf '=']) hequals
    (takes_plus_chr hword.1 hword.2 (by simp)).group

/-- A line that is matched is two words. -/
theorem words_of_regexMatch {line : Bytes} {result : Captures Byte}
    (h : settingPattern.regexMatch line = some result) :
    ∃ name word, IsWord name ∧ IsWord word ∧ line = name ++ byteOf '=' :: word := by
  obtain ⟨name, rest, rfl, hname, hrest⟩ := (accepts_of_regexMatch h).of_seq
  obtain ⟨equals, word, rfl, hequals, hword⟩ := hrest.of_seq
  cases hequals with
  | chr heq =>
      rw [of_decide_eq_true heq]
      exact ⟨name, word, hname.of_group.of_plus_chr, hword.of_group.of_plus_chr, rfl⟩

/-- The first word of a line ends at the equals sign. -/
theorem takeWhile_setting {name : Bytes} (h : IsWord name) (word : Bytes) :
    (name ++ byteOf '=' :: word).takeWhile isWord = name := by
  rw [List.takeWhile_append_of_pos h.2, List.takeWhile_cons_of_neg (by decide), List.append_nil]

/-- The groups of a match give the setting of a key. -/
theorem settingOf_eq {key : Bytes} (hkey : IsWord key) (line : Bytes) :
    settingOf key line = (settingPattern.regexMatch line).bind fun result =>
      if str result 1 = key then some (str result 2) else none := by
  cases hmatch : settingPattern.regexMatch line with
  | none =>
      rw [Option.bind_none, Option.eq_none_iff_forall_ne_some]
      intro word hset
      obtain ⟨rfl, hword⟩ := settingOf_eq_some.mp hset
      rw [regexMatch_setting hkey hword] at hmatch
      cases hmatch
  | some result =>
      obtain ⟨name, word, hname, hword, rfl⟩ := words_of_regexMatch hmatch
      rw [regexMatch_setting hname hword] at hmatch
      cases hmatch
      show _ = if name = key then some word else none
      by_cases heq : name = key
      · rw [if_pos heq, ← heq]
        exact settingOf_eq_some.mpr ⟨rfl, hword⟩
      · rw [if_neg heq, Option.eq_none_iff_forall_ne_some]
        intro word' hset
        obtain ⟨hline, -⟩ := settingOf_eq_some.mp hset
        refine heq ?_
        rw [← takeWhile_setting hname word, hline, takeWhile_setting hkey]

/-- What a setting says about `k`. -/
def EcSetting.kValue : EcSetting → Option (BitVec 32)
  | .k value => some value
  | _ => none

/-- What a setting says about `m`. -/
def EcSetting.mValue : EcSetting → Option (BitVec 32)
  | .m value => some value
  | _ => none

theorem parseSetting_values (line : Bytes) :
    (parseSetting line).kValue = (settingOf (ascii "k") line).map atoi ∧
      (parseSetting line).mValue = (settingOf (ascii "m") line).map atoi := by
  have hk : IsWord (ascii "k") := ⟨by decide, List.all_eq_true.mp (by decide)⟩
  have hm : IsWord (ascii "m") := ⟨by decide, List.all_eq_true.mp (by decide)⟩
  rw [settingOf_eq hk, settingOf_eq hm, parseSetting]
  cases settingPattern.regexMatch line with
  | none => exact ⟨rfl, rfl⟩
  | some result =>
      dsimp only [Option.bind_some]
      by_cases hname : str result 1 = ascii "k"
      · rw [if_pos hname, if_pos hname, if_neg (by rw [hname]; decide)]
        exact ⟨rfl, rfl⟩
      · rw [if_neg hname, if_neg hname]
        by_cases hname' : str result 1 = ascii "m"
        · rw [if_pos hname', if_pos hname']
          exact ⟨rfl, rfl⟩
        · rw [if_neg hname', if_neg hname']
          split_ifs
          · exact ⟨rfl, rfl⟩
          · exact ⟨rfl, rfl⟩

/-! ## The last line that sets a key -/

/-- A field that a loop replaces has the last value that was read for it. -/
theorem foldl_latest {σ α β : Type} {step : σ → α → σ} {field : σ → β} {read : α → Option β}
    (hstep : ∀ s a, field (step s a) = (read a).getD (field s)) (l : List α) (s : σ) :
    field (l.foldl step s) = (l.filterMap read).getLast?.getD (field s) := by
  induction l generalizing s with
  | nil => rfl
  | cons a l ih =>
      rw [List.foldl_cons, ih, hstep, List.filterMap_cons]
      cases read a with
      | none => rfl
      | some b => rw [List.getLast?_cons, Option.getD_some, Option.getD_some]

/-- A value that starts at zero and that each line may replace is not zero in the end exactly if
the text gives one that is not. -/
theorem latest_ne_zero_iff {σ : Type} (field : σ → BitVec 32) {step : σ → Bytes → σ} {key : Bytes}
    (hstep : ∀ s line, field (step s line) = ((settingOf key line).map atoi).getD (field s))
    (text : Bytes) {s : σ} (hzero : field s = 0) :
    field ((tokens (byteOf '\n') text).foldl step s) ≠ 0 ↔ GivesNonzero key text := by
  have hmap : (tokens (byteOf '\n') text).filterMap (fun line => (settingOf key line).map atoi) =
      ((tokens (byteOf '\n') text).filterMap (settingOf key)).map atoi :=
    List.map_filterMap.symm
  rw [foldl_latest hstep, hzero, hmap, List.getLast?_map, GivesNonzero]
  cases ((tokens (byteOf '\n') text).filterMap (settingOf key)).getLast? with
  | none => simp
  | some word => simp

/-! ## `CalPoolSize` -/

/-- `CalPoolSize` reads a profile on this line, and nothing is thrown on the way. -/
def AskedLine.readsProfile (line : AskedLine) (globalStripeSize : BitVec 32) : Bool :=
  decide (0 ≤ line.id) && !line.raises globalStripeSize &&
    match line.kind with
    | .erasure (some _) => true
    | _ => false

/-- `info.ec_k` where `CalPoolSize` divides by it, if it does. -/
def AskedLine.repDivisor (line : AskedLine) (globalStripeSize : BitVec 32) : Option (BitVec 32) :=
  if line.readsProfile globalStripeSize then
    (calPoolSize globalStripeSize line.resolve).2.map EcProfile.k
  else none

/-- `CalPoolSize` does not divide by zero. -/
def SizeGuarded (line : AskedLine) (globalStripeSize : BitVec 32) : Prop :=
  ∀ k ∈ line.repDivisor globalStripeSize, k ≠ 0

theorem kValue_parseECProfile (profile : EcProfile) (setting : EcSetting) :
    (parseECProfile profile setting).k = setting.kValue.getD profile.k := by
  cases setting with
  | stripeUnit value =>
      rw [parseECProfile]
      split_ifs
      · rfl
      · rfl
  | k | m | other => rfl

/-- A profile that is read is the text of the reply. -/
theorem AskedLine.settings_of_kind {line : AskedLine} {settings : List EcSetting}
    (h : line.kind = .erasure (some settings)) :
    settings = (tokens (byteOf '\n') (cStr line.profileReply.outbl)).map parseSetting := by
  unfold AskedLine.kind at h
  dsimp only at h
  split_ifs at h
  rw [PoolKind.erasure.injEq, profileSettings] at h
  split_ifs at h
  cases h
  rfl

/-- `CalPoolSize` divides by the last `k` of the profile. -/
theorem sizeGuarded_iff (line : AskedLine) (globalStripeSize : BitVec 32) :
    SizeGuarded line globalStripeSize ↔
      (line.readsProfile globalStripeSize = true →
        GivesNonzero (ascii "k") (cStr line.profileReply.outbl)) := by
  unfold SizeGuarded
  rw [AskedLine.repDivisor]
  by_cases hreads : line.readsProfile globalStripeSize = true
  · obtain ⟨settings, hkind⟩ : ∃ settings, line.kind = .erasure (some settings) := by
      rw [AskedLine.readsProfile, Bool.and_eq_true] at hreads
      obtain ⟨-, hkind⟩ := hreads
      split at hkind
      next settings hkind' => exact ⟨settings, hkind'⟩
      next => cases hkind
    have hresolve : line.resolve.kind = .erasure (some settings) := hkind
    have hread := latest_ne_zero_iff EcProfile.k
      (fun profile line => by rw [kValue_parseECProfile, (parseSetting_values line).1])
      (cStr line.profileReply.outbl)
      (show (EcProfile.mk 0 0 (cachedStripeSize globalStripeSize line.resolve)).k = 0 from rfl)
    rw [← List.foldl_map, ← AskedLine.settings_of_kind hkind] at hread
    rw [if_pos hreads, ← hread, calPoolSize, hresolve]
    constructor
    · intro h _
      exact h _ rfl
    · rintro h k ⟨⟩
      exact h hreads
  · rw [if_neg hreads]
    refine iff_of_true ?_ fun h => absurd h hreads
    rintro k ⟨⟩

end GlobalCacheAdaptor.CephProxy

namespace GlobalCacheAdaptor.CephProxy.Rbd

open Lib Regex ServerAdaptor

/-! ## `CephLibrbdDiskUsage` -/

/-- The pools that `lspools` names. -/
def DiskReplies.pools (x : DiskReplies) : List SigPoolInfo :=
  (parsePoolMap (cStr x.lspools.outbl)).values

/-- The profiles that `CalPoolProperty` reads, up to the first pool it fails on. -/
def DiskReplies.readProfiles (x : DiskReplies) : List SigPoolInfo → List Bytes
  | [] => []
  | info :: rest =>
      match x.answer info.poolName with
      | .failed => []
      | .replicated => x.readProfiles rest
      | .profile text => text :: x.readProfiles rest

/-- `CephLibrbdDiskUsage` up to its sum: the code, and the pools that the sum divides for, if it
comes to it. -/
def diskUsageInfos (ndebug : Bool) (x : DiskReplies) : Exec (Int × Option (List SigPoolInfo)) := do
  let (ret, outs) ← monCommand ndebug x.lspools
  if ret < 0 then return (ret, none)
  let (ret, infos) ← calPoolProperty ndebug x (parsePoolMap outs).values
  if ret < 0 then return (ret, none)
  let (ret, infos) ← calPoolUsage ndebug x infos 0
  if ret < 0 then return (ret, none)
  return (ret, some infos)

/-- The sum is over these pools. -/
theorem diskUsageBody_eq (ndebug : Bool) (x : DiskReplies) :
    diskUsageBody ndebug x = do
      let (ret, infos) ← diskUsageInfos ndebug x
      return (ret, infos.map totalUsage) := by
  unfold diskUsageBody diskUsageInfos
  rw [bind_assoc]
  refine bind_congr ?_
  rintro ⟨ret, outs⟩
  dsimp only
  split_ifs
  · rfl
  rw [bind_assoc]
  refine bind_congr ?_
  rintro ⟨ret, infos⟩
  dsimp only
  split_ifs
  · rfl
  rw [bind_assoc]
  refine bind_congr ?_
  rintro ⟨ret, infos⟩
  dsimp only
  split_ifs
  · rfl
  · rfl

/-- With a client that is there, in both builds: the assertion of `CalPoolProperty` does not stop
the call, a pool with a zero in its scale is an error of `CalPoolProperty`, and the sum does not
divide by zero. -/
structure DiskGuarded (x : DiskReplies) : Prop where
  asserts : ∀ ndebug w, Enabled ndebug w → ∃ result, diskUsageBody ndebug x w = some result
  refused : ∀ ndebug w ret infos w', Enabled ndebug w → 0 ≤ x.lspools.ret.toInt →
    calPoolProperty ndebug x x.pools w = some ((ret, infos), w') → 0 ≤ ret →
    ∀ info ∈ infos, info.k ≠ 0 ∧ info.m ≠ 0
  divides : ∀ ndebug w ret infos w', Enabled ndebug w →
    diskUsageInfos ndebug x w = some ((ret, some infos), w') →
    ∀ info ∈ infos, info.k.signExtend 64 ≠ 0

/-- Both values of the scale are given. -/
def GivesScale (text : Bytes) : Prop :=
  GivesNonzero (ascii "k") text ∧ GivesNonzero (ascii "m") text

/-- The scale that is read off a text, from zeros. -/
theorem readScale_ne_zero_iff (text : Bytes) {info : SigPoolInfo} (hk : info.k = 0)
    (hm : info.m = 0) :
    ((readScale text info).k ≠ 0 ∧ (readScale text info).m ≠ 0) ↔ GivesScale text := by
  refine and_congr (latest_ne_zero_iff SigPoolInfo.k ?_ text hk)
    (latest_ne_zero_iff SigPoolInfo.m ?_ text hm)
  · intro info line
    rw [← (parseSetting_values line).1]
    cases parseSetting line with
    | k | m | stripeUnit | other => rfl
  · intro info line
    rw [← (parseSetting_values line).2]
    cases parseSetting line with
    | k | m | stripeUnit | other => rfl

section Guarded

variable {ndebug : Bool} {x : DiskReplies} {w : World}

/-- An assertion that holds, or that is left out, is passed. -/
theorem assertion_pass {α : Type} {condition : Prop} [Decidable condition]
    (h : ndebug = true ∨ condition) {next : Unit → Exec α} (w : World) :
    (assertion ndebug condition >>= next) w = next () w := bind_of_run (if_pos h)

/-- A round that succeeds is followed by the next one. -/
theorem calPoolProperty_cons {info info' : SigPoolInfo} (rest : List SigPoolInfo)
    (hrun : poolProperty ndebug x info w = some ((0, info'), w)) :
    calPoolProperty ndebug x (info :: rest) w =
      (do
        let (ret, rest) ← calPoolProperty ndebug x rest
        return (ret, info' :: rest)) w := by
  rw [calPoolProperty, bind_of_run hrun]
  rfl

/-- The rounds over profiles that give their scale. -/
theorem calPoolProperty_of_scale (hw : Enabled ndebug w) (pools : List SigPoolInfo)
    (h : ∀ text ∈ x.readProfiles pools, GivesScale text) :
    ∃ ret infos, calPoolProperty ndebug x pools w = some ((ret, infos), w) ∧
      (0 ≤ ret → ∀ info ∈ infos, info.k ≠ 0 ∧ info.m ≠ 0) := by
  induction pools with
  | nil => exact ⟨0, [], rfl, fun _ => List.forall_mem_nil _⟩
  | cons info rest ih =>
      -- a round that succeeds with a scale leaves the rest to the induction
      have hnext : ∀ info', (∀ text ∈ x.readProfiles rest, GivesScale text) →
          (info'.k ≠ 0 ∧ info'.m ≠ 0) →
          poolProperty ndebug x info w = some ((0, info'), w) →
          ∃ ret infos, calPoolProperty ndebug x (info :: rest) w = some ((ret, infos), w) ∧
            (0 ≤ ret → ∀ info ∈ infos, info.k ≠ 0 ∧ info.m ≠ 0) := by
        intro info' hrest hscale hrun
        obtain ⟨ret, infos, hrun', hinfos⟩ := ih hrest
        refine ⟨ret, info' :: infos, ?_, fun hret =>
          List.forall_mem_cons.mpr ⟨hscale, hinfos hret⟩⟩
        rw [calPoolProperty_cons rest hrun, bind_of_run hrun']
        rfl
      rw [DiskReplies.readProfiles] at h
      rcases poolProperty_cases x info hw with
        ⟨-, ret, info', hneg, hrun⟩ | ⟨hanswer, info', hk, hm, hrun⟩ |
          ⟨name, start, -, hk, hm, hanswer, hrun⟩
      · refine ⟨ret, info' :: rest, ?_, fun hret => by omega⟩
        rw [calPoolProperty, bind_of_run hrun]
        exact congrFun (if_pos hneg) w
      · rw [hanswer] at h
        exact hnext info' h (by rw [hk, hm]; decide) hrun
      · rw [hanswer] at h
        obtain ⟨htext, hrest⟩ := List.forall_mem_cons.mp h
        have hscale := (readScale_ne_zero_iff _ hk hm).mpr htext
        refine hnext _ hrest hscale ?_
        rw [hrun]
        exact assertion_pass (.inr hscale) w

/-- With assertions, a profile without its scale stops the rounds. -/
theorem calPoolProperty_stop (hw : w.initFlag = true) {pools : List SigPoolInfo} {text : Bytes}
    (htext : text ∈ x.readProfiles pools) (hscale : ¬ GivesScale text) :
    calPoolProperty false x pools w = none := by
  induction pools with
  | nil => cases htext
  | cons info rest ih =>
      rw [DiskReplies.readProfiles] at htext
      rcases poolProperty_cases x info (.inr hw : Enabled false w) with
        ⟨hanswer, -⟩ | ⟨hanswer, info', -, -, hrun⟩ | ⟨name, start, -, hk, hm, hanswer, hrun⟩
      · rw [hanswer] at htext
        cases htext
      · rw [hanswer] at htext
        rw [calPoolProperty_cons rest hrun]
        exact bind_of_stop (ih htext)
      · rw [hanswer] at htext
        by_cases hfirst : GivesScale (cStr (x.profileReply name).outbl)
        · rw [assertion_pass (.inr ((readScale_ne_zero_iff _ hk hm).mpr hfirst))] at hrun
          rw [calPoolProperty_cons rest hrun]
          obtain rfl | hlater := List.mem_cons.mp htext
          · exact absurd hfirst hscale
          · exact bind_of_stop (ih hlater)
        · rw [assertion_stop fun h => hfirst ((readScale_ne_zero_iff _ hk hm).mp h)] at hrun
          exact bind_of_stop hrun

/-! ## The pools the sum divides for -/

theorem yields_closing {α : Type} {P : α → Prop} {body : Exec α} (h : Yields P body)
    (handle : Handle) : Yields P (closing handle body) :=
  h.bind fun _ hresult => (Yields.any _).bind fun _ _ => (Yields.any _).bind fun _ _ =>
    .pure hresult

/-- The images of a pool do not change its scale. -/
theorem yields_poolUsage (info : SigPoolInfo) :
    Yields (fun result => result.2.k = info.k) (poolUsage ndebug x info) := by
  refine (Yields.any _).bind ?_
  rintro ⟨ret, ioctx⟩ -
  refine .ite (fun _ => .pure rfl) fun _ => yields_closing ?_ ioctx
  refine .ite (fun _ => .pure rfl) fun _ => ?_
  exact (Yields.any _).bind fun _ _ => .pure rfl

theorem yields_calPoolUsage (infos : List SigPoolInfo) (ret : Int)
    (h : ∀ info ∈ infos, info.k ≠ 0) :
    Yields (fun result => ∀ info ∈ result.2, info.k ≠ 0) (calPoolUsage ndebug x infos ret) := by
  induction infos generalizing ret with
  | nil => exact .pure h
  | cons info rest ih =>
      obtain ⟨hk, hrest⟩ := List.forall_mem_cons.mp h
      refine (yields_poolUsage info).bind ?_
      rintro ⟨ret, info'⟩ hinfo
      have hk' : info'.k ≠ 0 := fun hzero => hk (hinfo.symm.trans hzero)
      refine .ite (fun _ => .pure (List.forall_mem_cons.mpr ⟨hk', hrest⟩)) fun _ => ?_
      exact (ih ret hrest).bind fun result hresult =>
        .pure (List.forall_mem_cons.mpr ⟨hk', hresult⟩)

/-- Where every profile gives its scale, the call comes to its end, and every pool it divides for
has a scale. -/
theorem diskUsageInfos_of_scale (hw : Enabled ndebug w)
    (h : 0 ≤ x.lspools.ret.toInt → ∀ text ∈ x.readProfiles x.pools, GivesScale text) :
    ∃ result w', diskUsageInfos ndebug x w = some (result, w') ∧
      ∀ infos ∈ result.2, ∀ info ∈ infos, info.k ≠ 0 := by
  rw [diskUsageInfos, bind_of_run (monCommand_run _ hw)]
  by_cases hneg : x.lspools.ret.toInt < 0
  · simp only [if_pos hneg]
    exact ⟨_, w, rfl, by rintro infos ⟨⟩⟩
  simp only [if_neg hneg, if_neg (Int.lt_irrefl 0)]
  obtain ⟨ret, infos, hrun, hscale⟩ :=
    calPoolProperty_of_scale hw x.pools (h (Int.not_lt.mp hneg))
  rw [← DiskReplies.pools, bind_of_run hrun]
  by_cases hret : ret < 0
  · simp only [if_pos hret]
    exact ⟨_, w, rfl, by rintro infos ⟨⟩⟩
  simp only [if_neg hret]
  obtain ⟨⟨ret', infos'⟩, w', hrun', -⟩ := settles_calPoolUsage x infos 0 w hw
  have hinfos : ∀ info ∈ infos, info.k ≠ 0 :=
    fun info hinfo => (hscale (Int.not_lt.mp hret) info hinfo).1
  have hk := yields_calPoolUsage infos 0 hinfos w _ w' hrun'
  rw [bind_of_run hrun']
  by_cases hret' : ret' < 0
  · simp only [if_pos hret']
    exact ⟨_, w', rfl, by rintro infos ⟨⟩⟩
  · simp only [if_neg hret']
    refine ⟨_, w', rfl, ?_⟩
    rintro infos ⟨⟩
    exact hk

/-- With assertions, a profile without its scale stops the call. -/
theorem diskUsageBody_stop (hw : w.initFlag = true) (hret : 0 ≤ x.lspools.ret.toInt) {text : Bytes}
    (htext : text ∈ x.readProfiles x.pools) (hscale : ¬ GivesScale text) :
    diskUsageBody false x w = none := by
  have henabled : Enabled false w := .inr hw
  rw [diskUsageBody, bind_of_run (monCommand_run _ henabled)]
  simp only [if_neg (Int.not_lt.mpr hret), if_neg (Int.lt_irrefl 0)]
  exact bind_of_stop (calPoolProperty_stop hw htext hscale)

end Guarded

/-- An `int` that is not zero is not zero as a `uint64_t` either. -/
theorem signExtend_ne_zero {k : BitVec 32} (h : k ≠ 0) : k.signExtend 64 ≠ 0 := by
  intro hzero
  refine h (BitVec.eq_of_toInt_eq ?_)
  rw [← BitVec.toInt_signExtend_of_le (show 32 ≤ 64 by decide), hzero]
  rfl

theorem diskGuarded_iff (x : DiskReplies) :
    DiskGuarded x ↔
      (0 ≤ x.lspools.ret.toInt → ∀ text ∈ x.readProfiles x.pools, GivesScale text) := by
  constructor
  · intro hguarded hret text htext
    by_contra hscale
    obtain ⟨result, hrun⟩ := hguarded.asserts false { World.init with initFlag := true } (.inr rfl)
    rw [diskUsageBody_stop rfl hret htext hscale] at hrun
    cases hrun
  · intro h
    refine ⟨?_, ?_, ?_⟩
    · intro ndebug w hw
      obtain ⟨result, w', hrun, -⟩ := diskUsageInfos_of_scale hw h
      rw [diskUsageBody_eq, bind_of_run hrun]
      exact ⟨_, rfl⟩
    · intro ndebug w ret infos w' hw hlspools hrun hret
      obtain ⟨ret', infos', hrun', hscale⟩ := calPoolProperty_of_scale hw x.pools (h hlspools)
      rw [hrun] at hrun'
      cases hrun'
      exact hscale hret
    · intro ndebug w ret infos w' hw hrun info hinfo
      obtain ⟨result, t, hrun', hk⟩ := diskUsageInfos_of_scale hw h
      rw [hrun] at hrun'
      cases hrun'
      exact signExtend_ne_zero (hk infos rfl info hinfo)

/-! ## Profiles that are read -/

/-- `CalPoolSize` does not divide by zero exactly if the profile it reads gives a `k`, and
`CephLibrbdDiskUsage` neither divides by zero nor stops at its assertion exactly if all the profiles
it reads give `k` and `m`. -/
theorem scaleGuarded_iff (line : AskedLine) (globalStripeSize : BitVec 32) (x : DiskReplies) :
    (SizeGuarded line globalStripeSize ↔
        (line.readsProfile globalStripeSize = true →
          GivesNonzero (ascii "k") (cStr line.profileReply.outbl))) ∧
      (DiskGuarded x ↔
        (0 ≤ x.lspools.ret.toInt → ∀ text ∈ x.readProfiles x.pools,
          GivesNonzero (ascii "k") text ∧ GivesNonzero (ascii "m") text)) :=
  ⟨sizeGuarded_iff line globalStripeSize, diskGuarded_iff x⟩

/-- The profile of a locally repairable code, which has layers in place of `k` and `m`. -/
def lrcProfile : Bytes := ascii "layers=[[ \"DDc\", \"\" ]]\nmapping=DD_\nplugin=lrc\n"

/-- A pool with this profile in a `df` output. -/
def lrcLine : AskedLine where
  id := 1
  storedSize := 0
  objectsNum := 0
  usedSize := 0
  useRatio := 0
  maxAvail := 0
  ecReply := ⟨0, ascii "erasure_code_profile: lrc\n"⟩
  profileReply := ⟨0, lrcProfile⟩
  statOk := true
  defaultReply := ⟨0, ascii "4096\n"⟩

/-- A cluster with an empty pool of this profile. -/
def lrcReplies : DiskReplies where
  wantsResult := true
  rados := ⟨0, 0, 0, 0, 0, false, 0, fun _ => 0, fun _ => 0⟩
  lspools := ⟨0, ascii "1 lrc\n"⟩
  ecReply := fun _ => ⟨0, ascii "erasure_code_profile: lrc\n"⟩
  profileReply := fun _ => ⟨0, lrcProfile⟩
  ioctx := fun _ => ⟨0, 0, 0, true⟩
  images := fun _ => ⟨0, []⟩

/-- Both divide by zero for the pool, and with assertions the second stops. -/
theorem not_guarded_lrc :
    lrcLine.repDivisor 4096 = some 0 ∧ ¬ SizeGuarded lrcLine 4096 ∧
      (diskUsageInfos true lrcReplies .init).map (fun result => result.1.2.map (·.map (·.k))) =
        some (some [0]) ∧
      (diskUsageBody false lrcReplies { World.init with initFlag := true }).isNone = true ∧
      ¬ DiskGuarded lrcReplies := by
  have hline : lrcLine.repDivisor 4096 = some 0 := by decide +kernel
  have hsum : (diskUsageInfos true lrcReplies .init).map
      (fun result => result.1.2.map (·.map (·.k))) = some (some [0]) := by decide +kernel
  refine ⟨hline, fun h => h 0 hline rfl, hsum, by decide +kernel, ?_⟩
  intro hguarded
  obtain ⟨⟨⟨ret, infos⟩, w'⟩, hrun, hinfos⟩ := Option.map_eq_some_iff.mp hsum
  obtain ⟨infos, rfl, hk⟩ := Option.map_eq_some_iff.mp hinfos
  have hzero : (0 : BitVec 32) ∈ infos.map (·.k) := by
    rw [hk]
    exact List.mem_singleton_self 0
  obtain ⟨info, hinfo, hinfoK⟩ := List.mem_map.mp hzero
  refine hguarded.divides true .init ret infos w' (.inl rfl) hrun info hinfo ?_
  rw [hinfoK]
  rfl

end GlobalCacheAdaptor.CephProxy.Rbd
