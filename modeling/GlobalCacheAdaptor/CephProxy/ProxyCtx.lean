import GlobalCacheAdaptor.Lib.Ledger
import GlobalCacheAdaptor.Lib.Run

/-!
# The reference count of the shared librados client

Every user of `gProxyCtx` calls `RadosInit` and, if it succeeded, later `RadosShutdown`. `RadosInit`
first looks at `init_flag` under the shared lock, and increments `ref` there when the client is up;
several threads may be in that section at once, so the increment is a load and a store. Everything
under the unique lock is one step, and has to wait until no thread holds the shared lock.

`ref_counts_iff_clean` says exactly when the count survives a step: a store must not overwrite an
increment that was made after its load.
-/

namespace GlobalCacheAdaptor.CephProxy.ProxyCtx

open Lib

/-- Where a thread is: outside; under the shared lock before the load of `ref` or before the store;
between the two locks; or between a successful `RadosInit` and its `RadosShutdown`. -/
inductive Phase where
  | idle
  | fastInit
  | fastLoaded (ref : Int)
  | slowInit
  | active
  deriving DecidableEq

/-- The thread holds the shared lock. -/
def Phase.sharesLock : Phase → Bool
  | .fastInit | .fastLoaded _ => true
  | .idle | .slowInit | .active => false

/-- The thread is a user of the client. -/
def Phase.users : Phase → Nat
  | .active => 1
  | .idle | .fastInit | .fastLoaded _ | .slowInit => 0

/-- `gProxyCtx`, the threads, and for every `client.shutdown()` of `RadosShutdown` how many other
users there were. -/
structure State where
  initFlag : Bool := false
  ref : Int := 0
  threads : List Phase
  shutdowns : List Nat := []

/-- The state before the first call, with any number of threads. -/
def init (threads : Nat) : State := { threads := List.replicate threads .idle }

/-- The users between a successful `RadosInit` and their `RadosShutdown`. -/
def State.users (s : State) : Nat := total Phase.users s.threads

/-- The unique lock can be taken. -/
def State.lockFree (s : State) : Bool := !s.threads.any Phase.sharesLock

/-- One scheduling choice. -/
inductive Event where
  /-- `RadosInit` takes the shared lock and reads `init_flag`. -/
  | radosInit (thread : Nat)
  /-- `FastInitRados` loads `ref`, under the shared lock. -/
  | load (thread : Nat)
  /-- `FastInitRados` stores the increment, and `RadosInit` returns 0. -/
  | store (thread : Nat)
  /-- The rest of `RadosInit` under the unique lock; `connected` says whether every call on the
  client succeeds. -/
  | slowInit (thread : Nat) (connected : Bool)
  /-- `RadosShutdown`. -/
  | radosShutdown (thread : Nat)
  deriving DecidableEq

/-- `RadosShutdown`, under the unique lock. -/
def radosShutdown (s : State) (thread : Nat) : State :=
  let s := { s with ref := s.ref - 1, threads := s.threads.set thread .idle }
  -- the users left at a shutdown are recorded
  if s.ref = 0 then { s with initFlag := false, shutdowns := s.shutdowns ++ [s.users] } else s

/-- `RadosInit` from the second test of `init_flag` on, under the unique lock. -/
def slowInit (s : State) (thread : Nat) (connected : Bool) : State :=
  if s.initFlag then { s with ref := s.ref + 1, threads := s.threads.set thread .active }
  else if connected then
    { s with initFlag := true, ref := 0 + 1, threads := s.threads.set thread .active }
  else { s with threads := s.threads.set thread .idle }

/-- One step of the system. -/
def step (s : State) : Event → Option State
  | .radosInit thread =>
      match s.threads[thread]? with
      | some .idle =>
          some { s with
            threads := s.threads.set thread (if s.initFlag then .fastInit else .slowInit) }
      | _ => none
  | .load thread =>
      match s.threads[thread]? with
      | some .fastInit => some { s with threads := s.threads.set thread (.fastLoaded s.ref) }
      | _ => none
  | .store thread =>
      match s.threads[thread]? with
      | some (.fastLoaded ref) =>
          -- the value loaded is stored, whatever `ref` is by now
          some { s with ref := ref + 1, threads := s.threads.set thread .active }
      | _ => none
  | .slowInit thread connected =>
      match s.threads[thread]? with
      | some .slowInit => if s.lockFree then some (slowInit s thread connected) else none
      | _ => none
  | .radosShutdown thread =>
      match s.threads[thread]? with
      | some .active => if s.lockFree then some (radosShutdown s thread) else none
      | _ => none

/-- `ref` is the number of users, and the client was only ever shut down with no user left. -/
structure Counts (s : State) : Prop where
  ref : s.ref = s.users
  shutdowns : ∀ others ∈ s.shutdowns, others = 0

/-- No other thread stored its increment between this thread's load of `ref` and its store. -/
def clean (s : State) : Event → Prop
  | .store thread =>
      match s.threads[thread]? with
      | some (.fastLoaded ref) => ref = s.ref
      | _ => True
  | .radosInit _ | .load _ | .slowInit _ _ | .radosShutdown _ => True

instance (s : State) (event : Event) : Decidable (clean s event) :=
  match event with
  | .store thread =>
      match hphase : s.threads[thread]? with
      | some (.fastLoaded ref) => decidable_of_iff (ref = s.ref) (by simp [clean, hphase])
      | some .idle | some .fastInit | some .slowInit | some .active | none =>
          isTrue (by simp [clean, hphase])
  | .radosInit _ | .load _ | .slowInit _ _ | .radosShutdown _ => inferInstanceAs (Decidable True)

/-- The count is right, the client is up exactly while there are users, and it stays up while a
thread is on the fast path. -/
structure Inv (s : State) : Prop where
  counts : Counts s
  up : s.initFlag = true ↔ 0 < s.users
  fast : ∀ phase ∈ s.threads, phase.sharesLock = true → s.initFlag = true

theorem inv_init (threads : Nat) : Inv (init threads) := by
  have hidle : ∀ phase ∈ List.replicate threads Phase.idle, phase = .idle := fun _ h =>
    List.eq_of_mem_replicate h
  have husers : (init threads).users = 0 := by
    rw [State.users, total_eq_zero_iff]
    intro phase h
    rw [hidle phase h]
    rfl
  refine ⟨⟨by rw [husers]; rfl, by simp [init]⟩, by rw [husers]; simp [init], ?_⟩
  intro phase h hshares
  rw [hidle phase h] at hshares
  cases hshares

variable {s t : State} {event : Event}

/-- A thread that is no user moves on without becoming one, and takes the fast path only while the
client is up. -/
theorem Inv.move {thread : Nat} {phase next : Phase} (h : Inv s)
    (hphase : s.threads[thread]? = some phase) (hsame : next.users = phase.users)
    (hfast : next.sharesLock = true → s.initFlag = true) :
    Inv { s with threads := s.threads.set thread next } := by
  have hset := total_set Phase.users hphase next
  have husers : total Phase.users (s.threads.set thread next) = s.users := by
    rw [State.users]
    omega
  refine ⟨⟨?_, h.counts.shutdowns⟩, ?_, ?_⟩
  · rw [State.users, husers]
    exact h.counts.ref
  · rw [State.users, husers]
    exact h.up
  · intro other hother hshares
    rcases List.mem_or_eq_of_mem_set hother with hold | rfl
    · exact h.fast other hold hshares
    · exact hfast hshares

/-- A thread becomes a user and is counted. -/
theorem Inv.join {thread : Nat} {phase : Phase} (h : Inv s)
    (hphase : s.threads[thread]? = some phase) (hnone : phase.users = 0) :
    Inv { s with initFlag := true, ref := s.ref + 1, threads := s.threads.set thread .active } := by
  have hset := total_set Phase.users hphase .active
  have husers : total Phase.users (s.threads.set thread .active) = s.users + 1 := by
    rw [show Phase.users .active = 1 from rfl, hnone] at hset
    exact hset
  refine ⟨⟨?_, h.counts.shutdowns⟩, ?_, fun _ _ _ => rfl⟩
  · rw [State.users, husers, h.counts.ref]
    simp
  · rw [State.users, husers]
    simp

/-- A user leaves under the unique lock; the last one shuts the client down. -/
theorem Inv.leave {thread : Nat} (h : Inv s) (hphase : s.threads[thread]? = some .active)
    (hfree : s.lockFree = true) : Inv (radosShutdown s thread) := by
  have hset := total_set Phase.users hphase .idle
  simp only [Phase.users] at hset
  have hup : s.initFlag = true := h.up.mpr (by rw [State.users]; omega)
  have hcount : s.ref - 1 = (total Phase.users (s.threads.set thread .idle) : Nat) := by
    rw [h.counts.ref, State.users]
    omega
  have hnone : ∀ phase ∈ s.threads.set thread .idle, phase.sharesLock ≠ true := by
    intro phase hmem
    simp only [State.lockFree, Bool.not_eq_true', List.any_eq_false] at hfree
    rcases List.mem_or_eq_of_mem_set hmem with hold | rfl
    · exact hfree phase hold
    · simp [Phase.sharesLock]
  simp only [radosShutdown]
  split_ifs with hlast
  · have hzero : total Phase.users (s.threads.set thread .idle) = 0 := by omega
    refine ⟨⟨hcount, ?_⟩, ?_, fun phase hmem hshares => absurd hshares (hnone phase hmem)⟩
    · intro others hmem
      rcases List.mem_append.mp hmem with hold | hnew
      · exact h.counts.shutdowns others hold
      · rw [List.mem_singleton.mp hnew]
        exact hzero
    · simp [State.users, hzero]
  · refine ⟨⟨hcount, h.counts.shutdowns⟩, ?_, fun phase hmem hshares =>
      absurd hshares (hnone phase hmem)⟩
    refine iff_of_true hup ?_
    show 0 < total Phase.users (s.threads.set thread .idle)
    omega

/-- A clean step keeps the invariant. -/
theorem Inv.step (h : Inv s) (hclean : clean s event) (hstep : step s event = some t) : Inv t := by
  cases event with
  | radosInit thread =>
      simp only [ProxyCtx.step] at hstep
      split at hstep
      · rename_i hphase
        cases hstep
        refine h.move hphase ?_ fun hshares => ?_
        · cases s.initFlag <;> rfl
        · by_contra hflag
          simp [hflag, Phase.sharesLock] at hshares
      · cases hstep
  | load thread =>
      simp only [ProxyCtx.step] at hstep
      split at hstep
      · rename_i hphase
        cases hstep
        exact h.move hphase rfl fun _ => h.fast _ (List.mem_of_getElem? hphase) rfl
      · cases hstep
  | store thread =>
      simp only [ProxyCtx.step] at hstep
      split at hstep
      · rename_i ref hphase
        cases hstep
        obtain rfl : ref = s.ref := by simpa [clean, hphase] using hclean
        have hup := h.fast _ (List.mem_of_getElem? hphase) rfl
        have hjoin := h.join hphase rfl
        rw [← hup] at hjoin
        exact hjoin
      · cases hstep
  | slowInit thread connected =>
      simp only [ProxyCtx.step] at hstep
      split at hstep
      · rename_i hphase
        split_ifs at hstep
        cases hstep
        simp only [slowInit]
        split_ifs with hflag
        · have hjoin := h.join hphase rfl
          rw [← hflag] at hjoin
          exact hjoin
        · -- the client is down, so there is no user and `ref` is 0
          have hzero : s.ref = 0 := by
            rw [h.counts.ref, Nat.eq_zero_of_not_pos (mt h.up.mpr hflag)]
            rfl
          have hjoin := h.join hphase rfl
          rw [hzero] at hjoin
          exact hjoin
        · exact h.move hphase rfl (by simp [Phase.sharesLock])
      · cases hstep
  | radosShutdown thread =>
      simp only [ProxyCtx.step] at hstep
      split at hstep
      · rename_i hphase
        split_ifs at hstep with hfree
        cases hstep
        exact h.leave hphase hfree
      · cases hstep

/-- A store that overwrites another increment makes the count wrong. -/
theorem Inv.lost_update (h : Inv s) (hdirty : ¬clean s event)
    (hstep : ProxyCtx.step s event = some t) : t.ref ≠ t.users := by
  cases event with
  | radosInit | load | slowInit | radosShutdown => exact absurd trivial hdirty
  | store thread =>
      simp only [ProxyCtx.step] at hstep
      split at hstep
      · rename_i ref hphase
        cases hstep
        have hstale : ref ≠ s.ref := by simpa [clean, hphase] using hdirty
        have hset := total_set Phase.users hphase .active
        simp only [Phase.users] at hset
        have hcount := h.counts.ref
        simp only [State.users] at hcount ⊢
        omega
      · cases hstep

/-- After any run of clean steps the count is right, and it still is after the next step exactly
when that step is clean too. -/
theorem ref_counts_iff_clean {threads : Nat} (h : Reach step clean (init threads) s) :
    Counts s ∧ ∀ event t, step s event = some t → (Counts t ↔ clean s event) := by
  have hinv : Inv s :=
    h.invariant Inv (inv_init threads) fun _ _ _ hs hclean hstep => hs.step hclean hstep
  refine ⟨hinv.counts, fun event t hstep => ⟨fun hcounts => ?_, fun hclean => ?_⟩⟩
  · by_contra hdirty
    exact hinv.lost_update hdirty hstep hcounts.ref
  · exact (hinv.step hclean hstep).counts

/-- A second user joins on the fast path, and the client is shut down after both have left. -/
theorem ref_counts_two_users :
    ∃ s, Reach step clean (init 2) s ∧ s.shutdowns = [0] ∧ Counts s := by
  have h : Reach step clean (init 2) _ :=
    Reach.of_run [.radosInit 0, .slowInit 0 true, .radosInit 1, .load 1, .store 1,
      .radosShutdown 0, .radosShutdown 1] rfl
  exact ⟨_, h, rfl, (ref_counts_iff_clean h).1⟩

/-- Two threads on the fast path load the same count; when the first two of three users leave, the
client is shut down under the third. -/
theorem lost_update_shuts_down_early :
    ∃ s, Reach step anyEvent (init 3) s ∧ s.users = 1 ∧ s.ref = 0 ∧ s.shutdowns = [1] ∧
      ¬Counts s := by
  have h : Reach step anyEvent (init 3) _ :=
    Reach.of_run [.radosInit 0, .slowInit 0 true, .radosInit 1, .radosInit 2, .load 1, .load 2,
      .store 1, .store 2, .radosShutdown 0, .radosShutdown 1] rfl
  refine ⟨_, h, rfl, rfl, rfl, fun hcounts => ?_⟩
  exact absurd (hcounts.shutdowns 1 (by decide)) (by decide)

end GlobalCacheAdaptor.CephProxy.ProxyCtx
