import GlobalCacheAdaptor.CephProxy.MonText
import GlobalCacheAdaptor.Lib.Tokens
import GlobalCacheAdaptor.ServerAdaptor.LimitWrite

/-!
# The configuration of the server adaptor

`OSA_Init` reads the configuration, checks it and hands it to `NetworkModule`, which divides by
some of the values: the number of queues, the number of cores and the length of the quota cycle. A
division by zero ends the process, so the operations that divide are partial here.

`safeToRun_iff` says which accepted configurations are safe to run. The number of cores is compared
with what the binding needs only if the binding is on; with the binding off a list without a core
is accepted, and the first worker is given core `0 % 0`.
-/

namespace GlobalCacheAdaptor.ServerAdaptor.Osa

open Lib CephProxy

/-! ## The configuration -/

/-- `SA_ClusterControlCfg`, as `ReadConfig` fills it. The texts are C strings in arrays. -/
structure SaClusterControlCfg where
  listenIp : Bytes
  listenPort : Bytes
  coreNumber : Bytes
  queueAmount : BitVec 64
  msgrAmount : BitVec 64
  bindCore : BitVec 64
  bindQueueCore : BitVec 64
  queueMaxCapacity : BitVec 64
  writeQoS : BitVec 64
  getQuotaCyc : BitVec 64
  getMessengerThrottle : BitVec 64
  saOpThrottle : BitVec 64

/-- The machine: its addresses, as far as `CheckLocalIp` finds them, and the processors that are
online. -/
structure Host where
  checkLocalIp : Bytes → Bool
  nprocessorsOnln : Int

/-- `QosParam`. -/
structure QosParam where
  limitWrite : BitVec 32
  getQuotaCycle : BitVec 32
  enableThrottle : BitVec 32
  saOpThrottle : BitVec 64

/-- What `OSA_Init` passes on: the arguments of `NetworkModule`, of `CreateWorkThread` and of
`SetQosParam`. Cores are `int`s. -/
structure NetworkParam where
  vecCoreId : List Int
  vecPort : List Bytes
  queueAmount : BitVec 32
  queueMaxCapacity : BitVec 32
  msgrAmount : BitVec 32
  bindCore : BitVec 32
  bindSaCore : BitVec 32
  qos : QosParam

/-! ## The checks -/

/-- `ERROR_PORT`, which every failed check returns. -/
def errorPort : Int := 101

/-- `CheckPort` with `IsDigit`. -/
def checkPort (port : Bytes) : Bool :=
  port.all isDigit && !((atoi port).toInt > 65535 || (atoi port).toInt < 1024)

/-- `CheckCoreId`. -/
def checkCoreId (host : Host) (coreId : Int) : Bool :=
  0 ≤ coreId && coreId < host.nprocessorsOnln

/-- The loop over the ports, up to the first one that is refused. -/
def readPorts (rPort : Bytes) : Option (List Bytes) :=
  (tokens (byteOf ',') (cStr rPort)).mapM fun port => if checkPort port then some port else none

/-- The loop over the cores, up to the first one that is refused. -/
def readCores (host : Host) (coreNumber : Bytes) : Option (List Int) :=
  (tokens (byteOf ',') (cStr coreNumber)).mapM fun p =>
    if checkCoreId host (atoi p).toInt then some (atoi p).toInt else none

/-- The QoS values, as the getters cut them to their types. -/
def SaClusterControlCfg.qos (cfg : SaClusterControlCfg) : QosParam where
  limitWrite := cfg.writeQoS.setWidth 32
  getQuotaCycle := cfg.getQuotaCyc.setWidth 32
  enableThrottle := cfg.getMessengerThrottle.setWidth 32
  saOpThrottle := cfg.saOpThrottle

/-- The check of the QoS values. -/
def checkQos (qos : QosParam) : Bool :=
  !(qos.getQuotaCycle < 1) &&
    !(qos.saOpThrottle ≠ 0 && (qos.saOpThrottle < 2000 || qos.saOpThrottle > 30000))

/-- The check of the amounts: `SA_QUEUE_MIN_NUM` to `SA_QUEUE_MAX_NUM`, `SA_QUEUE_MIN_CAPACITY` to
`SA_QUEUE_MAX_CAPACITY` and `SA_MSGR_MIN_NUM` to `SA_MSGR_MAX_NUM`. -/
def checkAmounts (queueAmount queueMaxCapacity msgrAmount : BitVec 32) : Bool :=
  !(queueAmount > 5000 || queueAmount < 4) &&
    !(queueMaxCapacity > 1024 || queueMaxCapacity < 1) &&
    !(msgrAmount > 16 || msgrAmount < 3)

/-- `OSA_Init` up to the construction of `NetworkModule`: what is passed on, or the code of a
failed check. -/
def osaInit (host : Host) (cfg : SaClusterControlCfg) : Except Int NetworkParam :=
  if host.checkLocalIp (cStr cfg.listenIp) = false then .error errorPort
  else
    match readPorts cfg.listenPort with
    | none => .error errorPort
    | some vecPort =>
        if vecPort.length ≤ 0 ∨ vecPort.length > 8 then .error errorPort
        else
          match readCores host cfg.coreNumber with
          | none => .error errorPort
          | some vecCoreId =>
              let queueAmount := cfg.queueAmount.setWidth 32
              let queueMaxCapacity := cfg.queueMaxCapacity.setWidth 32
              let msgrAmount := cfg.msgrAmount.setWidth 32
              let bindCore := cfg.bindCore.setWidth 32
              if checkAmounts queueAmount queueMaxCapacity msgrAmount = false then .error errorPort
              else if msgrAmount.toNat + vecPort.length > vecCoreId.length ∧ bindCore ≠ 0 then
                .error errorPort
              else if checkQos cfg.qos = false then .error errorPort
              else .ok {
                vecCoreId := vecCoreId
                vecPort := vecPort
                queueAmount := queueAmount
                queueMaxCapacity := queueMaxCapacity
                msgrAmount := msgrAmount
                bindCore := bindCore
                bindSaCore := cfg.bindQueueCore.setWidth 32
                qos := cfg.qos }

/-! ## What divides -/

/-- `/`, which ends the process if the divisor is zero. -/
def checkedDiv {w : Nat} (a b : BitVec w) : Option (BitVec w) :=
  if b = 0 then none else some (a / b)

/-- `%`, which ends the process if the modulus is zero. -/
def checkedMod (a b : Nat) : Option Nat := if b = 0 then none else some (a % b)

/-- `coreId[i % coreId.size()]`. -/
def coreAt (coreId : List Int) (i : Nat) : Option Int := do
  let i ← checkedMod i coreId.length
  coreId[i]?

/-- The queue that `EnqueueClientop` takes for a name with this hash. -/
def enqueueIdx (p : NetworkParam) (hash : BitVec 64) : Option Nat :=
  checkedMod hash.toNat p.queueAmount.toNat

/-- `saCoreId` of `CreateWorkThread`: the cores that the messenger leaves, or all of them. -/
def saCoreId (p : NetworkParam) : List Int :=
  let used := p.msgrAmount + BitVec.ofNat 32 p.vecPort.length
  if p.bindCore ≠ 0 then
    if used.toNat ≥ p.vecCoreId.length then p.vecCoreId else p.vecCoreId.drop used.toNat
  else p.vecCoreId

/-- `CreateWorkThread`: the core of each worker. -/
def createWorkThread (p : NetworkParam) : Option (List Int) :=
  (List.range p.queueAmount.toNat).mapM (coreAt (saCoreId p))

/-- `BindCore` of a messenger worker, as `BindMsgrWorker` calls it: the cores of its mask. -/
def bindCore (p : NetworkParam) : Option (List Int) :=
  let threadNum := p.msgrAmount + BitVec.ofNat 32 p.vecPort.length
  (List.range threadNum.toNat).mapM (coreAt p.vecCoreId)

/-- `wcacheBW` of `LimitWrite`, with its divisions checked. -/
def wcacheBW (cycle ratio : BitVec 32) : Option (BitVec 32) :=
  if cycle < 1000 then do
    let cycles ← checkedDiv 1000 cycle
    checkedDiv ratio cycles
  else do
    let seconds ← checkedDiv cycle 1000
    pure (ratio * seconds)

/-- Nothing is divided by zero, and workers run on cores of the list only. -/
structure SafeToRun (p : NetworkParam) : Prop where
  enqueue : ∀ hash, ∃ idx < p.queueAmount.toNat, enqueueIdx p hash = some idx
  workers : ∃ cores, createWorkThread p = some cores ∧ cores.length = p.queueAmount.toNat ∧
    ∀ core ∈ cores, core ∈ p.vecCoreId
  messengers : p.bindCore ≠ 0 →
    ∃ cores, bindCore p = some cores ∧ ∀ core ∈ cores, core ∈ p.vecCoreId
  limitWrite : ∀ ratio,
    wcacheBW p.qos.getQuotaCycle ratio = some (LimitWrite.budget p.qos.getQuotaCycle ratio)

/-! ## What the checks give -/

/-- A loop that finds something for every element has something for every element. -/
theorem mapM_eq_some_iff {α β : Type} {f : α → Option β} {xs : List α} {ys : List β} :
    xs.mapM f = some ys ↔ List.Forall₂ (fun x y => f x = some y) xs ys := by
  induction xs generalizing ys with
  | nil =>
      rw [List.mapM_nil, List.forall₂_nil_left_iff]
      exact Option.some_inj.trans eq_comm
  | cons x xs ih =>
      rw [List.mapM_cons, List.forall₂_cons_left_iff]
      simp only [Option.bind_eq_bind, Option.bind_eq_some_iff, ih]
      constructor
      · rintro ⟨y, hy, ys', hys', heq⟩
        cases heq
        exact ⟨y, ys', hy, hys', rfl⟩
      · rintro ⟨y, ys', hy, hys', rfl⟩
        exact ⟨y, hy, ys', hys', rfl⟩

/-- The values of an accepted configuration. -/
structure Accepted (host : Host) (cfg : SaClusterControlCfg) (p : NetworkParam) : Prop where
  cores : readCores host cfg.coreNumber = some p.vecCoreId
  queues : 4 ≤ p.queueAmount.toNat
  messengers : 3 ≤ p.msgrAmount.toNat
  bound : p.bindCore ≠ 0 → p.msgrAmount.toNat + p.vecPort.length ≤ p.vecCoreId.length
  cycle : 1 ≤ p.qos.getQuotaCycle.toNat

theorem accepted_of_ok {host : Host} {cfg : SaClusterControlCfg} {p : NetworkParam}
    (h : osaInit host cfg = .ok p) : Accepted host cfg p := by
  unfold osaInit at h
  by_cases hip : host.checkLocalIp (cStr cfg.listenIp) = false
  · rw [if_pos hip] at h
    cases h
  rw [if_neg hip] at h
  cases hports : readPorts cfg.listenPort with
  | none =>
      rw [hports] at h
      cases h
  | some vecPort =>
      rw [hports] at h
      dsimp only at h
      by_cases hcount : vecPort.length ≤ 0 ∨ vecPort.length > 8
      · rw [if_pos hcount] at h
        cases h
      rw [if_neg hcount] at h
      cases hcores : readCores host cfg.coreNumber with
      | none =>
          rw [hcores] at h
          cases h
      | some vecCoreId =>
          rw [hcores] at h
          dsimp only at h
          split_ifs at h with hamounts hbind hqos
          cases h
          simp only [checkAmounts, Bool.not_eq_false, Bool.and_eq_true, Bool.not_eq_true',
            Bool.or_eq_false_iff, decide_eq_false_iff_not] at hamounts
          simp only [checkQos, Bool.not_eq_false, Bool.and_eq_true, Bool.not_eq_true',
            decide_eq_false_iff_not] at hqos
          obtain ⟨⟨⟨-, hqueue⟩, -⟩, -, hmsgr⟩ := hamounts
          refine ⟨hcores, BitVec.not_lt.mp hqueue, BitVec.not_lt.mp hmsgr, ?_,
            BitVec.not_lt.mp hqos.1⟩
          intro hne
          by_contra hfew
          exact hbind ⟨Nat.lt_of_not_le hfew, hne⟩

/-- There is a core for every comma-separated part of the list. -/
theorem cores_eq_nil_iff {host : Host} {coreNumber : Bytes} {cores : List Int}
    (h : readCores host coreNumber = some cores) :
    cores = [] ↔ ∀ c ∈ cStr coreNumber, c = byteOf ',' := by
  have hlength := (mapM_eq_some_iff.mp h).length_eq
  rw [← tokens_eq_nil_iff, ← List.length_eq_zero_iff, ← hlength, List.length_eq_zero_iff]

/-! ## Cores -/

/-- A list with a core has one for every index. -/
theorem coreAt_of_ne {coreId : List Int} (hne : coreId ≠ []) (i : Nat) :
    ∃ core ∈ coreId, coreAt coreId i = some core := by
  have hpos : 0 < coreId.length := List.length_pos_iff.mpr hne
  have hlt : i % coreId.length < coreId.length := Nat.mod_lt i hpos
  refine ⟨coreId[i % coreId.length], List.getElem_mem hlt, ?_⟩
  have hmod : checkedMod i coreId.length = some (i % coreId.length) := if_neg (by omega)
  rw [coreAt, hmod]
  exact List.getElem?_eq_getElem hlt

/-- A list without a core divides by zero. -/
theorem coreAt_nil (i : Nat) : coreAt [] i = none := rfl

/-- Cores for `n` threads. -/
theorem mapM_coreAt {coreId : List Int} (hne : coreId ≠ []) (n : Nat) :
    ∃ cores, (List.range n).mapM (coreAt coreId) = some cores ∧ cores.length = n ∧
      ∀ core ∈ cores, core ∈ coreId := by
  choose core hmem hcore using coreAt_of_ne hne
  have hall : (List.range n).mapM (coreAt coreId) = some ((List.range n).map core) := by
    rw [mapM_eq_some_iff, List.forall₂_map_right_iff]
    exact List.forall₂_same.mpr fun i _ => hcore i
  refine ⟨_, hall, by simp, ?_⟩
  intro c hc
  obtain ⟨i, -, rfl⟩ := List.mem_map.mp hc
  exact hmem i

/-- The messenger leaves a core if there is one, and all of them are in the list. -/
theorem saCoreId_spec (p : NetworkParam) :
    (saCoreId p = [] ↔ p.vecCoreId = []) ∧ ∀ core ∈ saCoreId p, core ∈ p.vecCoreId := by
  unfold saCoreId
  dsimp only
  by_cases hbind : p.bindCore ≠ 0
  · rw [if_pos hbind]
    by_cases hused : (p.msgrAmount + BitVec.ofNat 32 p.vecPort.length).toNat ≥ p.vecCoreId.length
    · rw [if_pos hused]
      exact ⟨Iff.rfl, fun _ h => h⟩
    · rw [if_neg hused]
      refine ⟨?_, fun _ h => List.mem_of_mem_drop h⟩
      rw [List.drop_eq_nil_iff]
      refine iff_of_false hused ?_
      intro hnil
      rw [hnil] at hused
      exact hused (Nat.zero_le _)
  · rw [if_neg hbind]
    exact ⟨Iff.rfl, fun _ h => h⟩

/-! ## The quota cycle -/

/-- The two divisions of a cycle that is not zero. -/
theorem wcacheBW_of_pos {cycle : BitVec 32} (h : 1 ≤ cycle.toNat) (ratio : BitVec 32) :
    wcacheBW cycle ratio = some (LimitWrite.budget cycle ratio) := by
  have hcycle : cycle ≠ 0 := by
    rintro rfl
    exact absurd h (by decide)
  unfold wcacheBW LimitWrite.budget
  by_cases hshort : cycle < 1000
  · have hlt : cycle.toNat < 1000 := hshort
    have hcycles : 1000 / cycle ≠ 0 := by
      intro hzero
      have hdiv : 1000 / cycle.toNat = 0 := by
        simpa [BitVec.toNat_udiv] using congrArg BitVec.toNat hzero
      rcases Nat.div_eq_zero_iff.mp hdiv with hdiv | hdiv <;> omega
    rw [if_pos hshort, if_pos hshort, checkedDiv, if_neg hcycle]
    exact if_neg hcycles
  · rw [if_neg hshort, if_neg hshort]
    rfl

/-! ## Accepted configurations -/

section Runs

variable {host : Host} {cfg : SaClusterControlCfg} {p : NetworkParam}

/-- An accepted configuration with a core is safe to run. -/
theorem Accepted.safeToRun (h : Accepted host cfg p) (hne : p.vecCoreId ≠ []) : SafeToRun p := by
  obtain ⟨hnil, hmem⟩ := saCoreId_spec p
  refine ⟨?_, ?_, ?_, wcacheBW_of_pos h.cycle⟩
  · intro hash
    have hpos : 0 < p.queueAmount.toNat := Nat.lt_of_lt_of_le (by decide) h.queues
    exact ⟨_, Nat.mod_lt _ hpos, if_neg (Nat.pos_iff_ne_zero.mp hpos)⟩
  · obtain ⟨cores, hrun, hlength, hsub⟩ := mapM_coreAt (mt hnil.mp hne) p.queueAmount.toNat
    exact ⟨cores, hrun, hlength, fun core hcore => hmem core (hsub core hcore)⟩
  · intro _
    obtain ⟨cores, hrun, -, hsub⟩ := mapM_coreAt hne _
    exact ⟨cores, hrun, hsub⟩

/-- With the binding on, the checks alone make a configuration safe to run. -/
theorem Accepted.safeToRun_of_bindCore (h : Accepted host cfg p) (hbind : p.bindCore ≠ 0) :
    SafeToRun p := by
  refine h.safeToRun ?_
  intro hnil
  have hbound := h.bound hbind
  have hmessengers := h.messengers
  rw [hnil, List.length_nil] at hbound
  omega

/-- Without a core the first worker has no core to run on. -/
theorem Accepted.createWorkThread_eq_none (h : Accepted host cfg p) (hnil : p.vecCoreId = []) :
    createWorkThread p = none := by
  have hqueues := h.queues
  obtain ⟨n, hn⟩ : ∃ n, p.queueAmount.toNat = n + 1 := ⟨p.queueAmount.toNat - 1, by omega⟩
  rw [createWorkThread, (saCoreId_spec p).1.mpr hnil, hn, List.range_succ_eq_map, List.mapM_cons,
    coreAt_nil]
  rfl

/-- An accepted configuration is safe to run exactly if its core list has something between the
commas. -/
theorem safeToRun_iff (h : osaInit host cfg = .ok p) :
    SafeToRun p ↔ ∃ c ∈ cStr cfg.coreNumber, c ≠ byteOf ',' := by
  have haccepted := accepted_of_ok h
  have hcores : p.vecCoreId ≠ [] ↔ ∃ c ∈ cStr cfg.coreNumber, c ≠ byteOf ',' := by
    rw [ne_eq, cores_eq_nil_iff haccepted.cores]
    push Not
    rfl
  rw [← hcores]
  refine ⟨?_, haccepted.safeToRun⟩
  intro hsafe hnil
  obtain ⟨cores, hrun, -⟩ := hsafe.workers
  rw [haccepted.createWorkThread_eq_none hnil] at hrun
  cases hrun

end Runs

/-- A machine of eight processors. -/
def eightCores : Host := ⟨fun ip => ip = ascii "10.0.0.1", 8⟩

/-- A configuration with this core list and this binding. -/
def configOf (coreNumber : Bytes) (bindCore : BitVec 64) : SaClusterControlCfg where
  listenIp := ascii "10.0.0.1"
  listenPort := ascii "7880,7881"
  coreNumber := coreNumber
  queueAmount := 4
  msgrAmount := 3
  bindCore := bindCore
  bindQueueCore := 1
  queueMaxCapacity := 16
  writeQoS := 1
  getQuotaCyc := 200
  getMessengerThrottle := 0
  saOpThrottle := 0

/-- What is passed on of such a configuration. -/
def networkOf (vecCoreId : List Int) (bindCore : BitVec 32) : NetworkParam where
  vecCoreId := vecCoreId
  vecPort := [ascii "7880", ascii "7881"]
  queueAmount := 4
  queueMaxCapacity := 16
  msgrAmount := 3
  bindCore := bindCore
  bindSaCore := 1
  qos := ⟨1, 200, 0, 0⟩

/-- Two ports and three messenger workers leave the sixth core to the queues. -/
theorem safeToRun_sixCores :
    osaInit eightCores (configOf (ascii "0,1,2,3,4,5") 1) = .ok (networkOf [0, 1, 2, 3, 4, 5] 1) ∧
      createWorkThread (networkOf [0, 1, 2, 3, 4, 5] 1) = some [5, 5, 5, 5] ∧
      SafeToRun (networkOf [0, 1, 2, 3, 4, 5] 1) := by
  have hok : osaInit eightCores (configOf (ascii "0,1,2,3,4,5") 1) =
      .ok (networkOf [0, 1, 2, 3, 4, 5] 1) := rfl
  exact ⟨hok, rfl, (safeToRun_iff hok).mpr ⟨byteOf '0', by decide, by decide⟩⟩

/-- With the binding off a list without a core is accepted, and there is no core for a worker. -/
theorem not_safeToRun_noCores :
    osaInit eightCores (configOf (ascii ",") 0) = .ok (networkOf [] 0) ∧
      ¬ SafeToRun (networkOf [] 0) := by
  refine ⟨rfl, fun hsafe => ?_⟩
  obtain ⟨cores, hrun, -⟩ := hsafe.workers
  cases hrun

end GlobalCacheAdaptor.ServerAdaptor.Osa
