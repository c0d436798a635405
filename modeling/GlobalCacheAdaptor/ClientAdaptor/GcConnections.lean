import GlobalCacheAdaptor.ClientAdaptor.Objecter

/-!
# The set of cache-node connections

`plugin->msg_ref->connections` holds the connections to cache nodes by address, and the messenger
answers the authentication of a connection itself exactly when its address is in the set. The set
is filled by `_get_session`, and emptied where sessions are closed; a connection object that is
freed gives its address back, so a later connection, to a monitor or to an ordinary OSD, can get
it. `dummy_auth_iff` says that no stale address is ever left in the set.
-/

namespace GlobalCacheAdaptor.ClientAdaptor.GcConnections

open Lib

/-! ## Sessions and connections -/

/-- What a connection object is for. -/
inductive Peer where
  | session (osd : Int)
  /-- A monitor, a manager, or another client of the messenger. -/
  | other
  deriving DecidableEq, Repr

/-- The connection objects that are alive, by address; the connection of each session; the set;
and the connection that `_get_session` has made and not yet put into the set. -/
structure State where
  heap : OrdMap Nat Peer
  sessions : OrdMap Int Nat
  connections : List Nat
  opening : Option Nat

/-- The state before the first session. -/
def init : State := ⟨.empty, .empty, [], none⟩

/-- One scheduling choice. All but `insert`, `connectOther` and `free` hold `rwlock` exclusively,
and `_get_session` holds it until the connection is in the set. -/
inductive Event where
  /-- `_get_session` on an OSD without a session, up to `connect_to_osd`. -/
  | getSession (osd : Int) (addr : Nat)
  /-- The end of `_get_session` under `connlock`. -/
  | insert
  /-- Some other part of the process opens a connection. -/
  | connectOther (addr : Nat)
  | nodeView (available : List (BitVec 32))
  | reset (osd : Int)
  /-- Ceph's `_reopen_session`, which `ms_handle_reset` calls for an OSD that is up. -/
  | reopen (osd : Int) (addr : Nat)
  /-- `handle_osd_map` with these OSDs down or at a new address. -/
  | osdMap (down : List Int)
  /-- The last reference to a connection is dropped. -/
  | free (addr : Nat)

/-- `connections.erase`. -/
def eraseAll (connections addrs : List Nat) : List Nat :=
  connections.filter fun addr => addr ∉ addrs

/-- One step of the process. -/
def step (s : State) : Event → Option State
  | .getSession osd addr =>
      if s.opening = none ∧ 0 ≤ osd ∧ s.sessions.find? osd = none ∧ s.heap.find? addr = none then
        some { s with
          heap := s.heap.insert addr (.session osd)
          sessions := s.sessions.insert osd addr
          opening := if checkOsdValue osd then some addr else none }
      else none
  | .insert =>
      s.opening.map fun addr =>
        { s with connections := addr :: eraseAll s.connections [addr], opening := none }
  | .connectOther addr =>
      if s.heap.find? addr = none then some { s with heap := s.heap.insert addr .other } else none
  | .nodeView available =>
      if s.opening = none then
        let dead := s.sessions.filter fun e => viewDead available e.1
        some { s with
          connections := eraseAll s.connections dead.values
          sessions := s.sessions.filter fun e => !viewDead available e.1 }
      else none
  | .reset osd =>
      match s.sessions.find? osd with
      | none => none
      | some addr =>
          if s.opening = none ∧ checkOsdValue osd then
            some { s with
              connections := eraseAll s.connections [addr]
              sessions := s.sessions.erase osd }
          else none
  | .reopen osd addr =>
      if s.opening = none ∧ checkOsdValue osd = false ∧ (s.sessions.find? osd).isSome ∧
          s.heap.find? addr = none then
        some { s with
          heap := s.heap.insert addr (.session osd)
          sessions := s.sessions.insert osd addr }
      else none
  | .osdMap down =>
      -- the sessions of cache nodes are passed over
      if s.opening = none then
        some { s with sessions := s.sessions.filter fun e => checkOsdValue e.1 || e.1 ∉ down }
      else none
  | .free addr =>
      if addr ∉ s.sessions.values then some { s with heap := s.heap.erase addr } else none

/-- The test of `send_auth_request` and `handle_auth_done`: the connection is authenticated
without the monitors' keys. -/
def dummyAuth (s : State) (addr : Nat) : Bool := addr ∈ s.connections

/-! ## The invariant -/

variable {s t : State} {event : Event}

/-- The connection is that of the session of a cache node. -/
def OfCacheNode (s : State) (addr : Nat) : Prop :=
  ∃ osd, checkOsdValue osd = true ∧ s.sessions.find? osd = some addr

/-- Sessions have live connections of their own, and the set holds those of cache nodes, but for
the one that is being opened. -/
structure Inv (s : State) : Prop where
  nonneg : ∀ osd addr, s.sessions.find? osd = some addr → 0 ≤ osd
  con : ∀ osd addr, s.sessions.find? osd = some addr → s.heap.find? addr = some (.session osd)
  set : ∀ addr, addr ∈ s.connections ↔ OfCacheNode s addr ∧ s.opening ≠ some addr
  opening : ∀ addr, s.opening = some addr → OfCacheNode s addr

/-- Two sessions have two connections. -/
theorem Inv.osd_eq (h : Inv s) {osd osd' : Int} {addr : Nat}
    (hosd : s.sessions.find? osd = some addr) (hosd' : s.sessions.find? osd' = some addr) :
    osd = osd' := by
  have hcon := h.con osd addr hosd
  rw [h.con osd' addr hosd'] at hcon
  exact (Peer.session.inj (Option.some.inj hcon)).symm

theorem mem_eraseAll {connections addrs : List Nat} {addr : Nat} :
    addr ∈ eraseAll connections addrs ↔ addr ∈ connections ∧ addr ∉ addrs := by
  simp [eraseAll]

/-- A session gets a fresh connection object; one of a cache node had none before. -/
theorem Inv.connect (h : Inv s) {osd : Int} {addr : Nat} (hosd : 0 ≤ osd)
    (hopening : s.opening = none) (hfresh : s.heap.find? addr = none)
    (hnone : checkOsdValue osd = true → s.sessions.find? osd = none) :
    Inv { s with
      heap := s.heap.insert addr (.session osd)
      sessions := s.sessions.insert osd addr
      opening := if checkOsdValue osd then some addr else none } := by
  have hnew {osd' : Int} {addr' : Nat} (hfind : s.sessions.find? osd' = some addr') :
      addr' ≠ addr := by
    rintro rfl
    rw [h.con osd' addr' hfind] at hfresh
    cases hfresh
  have hof (addr' : Nat) :
      OfCacheNode { s with
        heap := s.heap.insert addr (.session osd)
        sessions := s.sessions.insert osd addr
        opening := if checkOsdValue osd then some addr else none } addr' ↔
      OfCacheNode s addr' ∨ (checkOsdValue osd = true ∧ addr' = addr) := by
    simp only [OfCacheNode, OrdMap.find?_insert]
    constructor
    · rintro ⟨osd', hgc, hfind⟩
      split_ifs at hfind with heq
      · exact .inr ⟨heq ▸ hgc, (Option.some.inj hfind).symm⟩
      · exact .inl ⟨osd', hgc, hfind⟩
    · rintro (⟨osd', hgc, hfind⟩ | ⟨hgc, rfl⟩)
      · refine ⟨osd', hgc, ?_⟩
        rw [if_neg, hfind]
        rintro rfl
        rw [hnone hgc] at hfind
        cases hfind
      · exact ⟨osd, hgc, if_pos rfl⟩
  have hnotin : addr ∉ s.connections := by
    intro hmem
    obtain ⟨osd', -, hfind⟩ := ((h.set addr).mp hmem).1
    exact hnew hfind rfl
  refine ⟨?_, ?_, ?_, ?_⟩
  · intro osd' addr' hfind
    simp only [OrdMap.find?_insert] at hfind
    split_ifs at hfind with heq
    · omega
    · exact h.nonneg osd' addr' hfind
  · intro osd' addr' hfind
    simp only [OrdMap.find?_insert] at hfind ⊢
    split_ifs at hfind with heq
    · rw [if_pos (Option.some.inj hfind).symm, heq]
    · rw [if_neg (hnew hfind)]
      exact h.con osd' addr' hfind
  · intro addr'
    rw [hof, h.set, hopening]
    by_cases hgc : checkOsdValue osd = true
    · simp only [hgc, if_true, true_and, Option.some.injEq, ne_eq, reduceCtorEq,
        not_false_eq_true, and_true]
      constructor
      · rintro ⟨osd', hgc', hfind⟩
        exact ⟨.inl ⟨osd', hgc', hfind⟩, fun heq => hnew hfind heq.symm⟩
      · rintro ⟨hold | rfl, hne⟩
        · exact hold
        · exact absurd rfl hne
    · simp [hgc]
  · intro addr' haddr
    rw [hof]
    by_cases hgc : checkOsdValue osd = true
    · simp only [hgc, if_true, Option.some.injEq] at haddr
      exact .inr ⟨hgc, haddr.symm⟩
    · simp [hgc] at haddr

/-- Sessions are closed, and the connections of those of cache nodes leave the set. -/
theorem Inv.close (h : Inv s) (hopening : s.opening = none) {sessions : OrdMap Int Nat}
    {connections : List Nat}
    (hsub : ∀ osd addr, sessions.find? osd = some addr → s.sessions.find? osd = some addr)
    (hset : ∀ osd addr, checkOsdValue osd = true → s.sessions.find? osd = some addr →
      (addr ∈ connections ↔ sessions.find? osd = some addr))
    (hold : ∀ addr ∈ connections, addr ∈ s.connections) :
    Inv { s with connections := connections, sessions := sessions } := by
  refine ⟨fun osd addr hfind => h.nonneg osd addr (hsub osd addr hfind),
    fun osd addr hfind => h.con osd addr (hsub osd addr hfind), fun addr => ?_,
    fun addr haddr => ?_⟩
  · constructor
    · intro hmem
      obtain ⟨⟨osd, hgc, hfind⟩, hne⟩ := (h.set addr).mp (hold addr hmem)
      exact ⟨⟨osd, hgc, (hset osd addr hgc hfind).mp hmem⟩, hne⟩
    · rintro ⟨⟨osd, hgc, hfind⟩, -⟩
      exact (hset osd addr hgc (hsub osd addr hfind)).mpr hfind
  · rw [show s.opening = some addr from haddr] at hopening
    cases hopening

/-- The connection of an open session of a cache node is in the set. -/
theorem Inv.mem_of_open (h : Inv s) (hopening : s.opening = none) {osd : Int} {addr : Nat}
    (hgc : checkOsdValue osd = true) (hfind : s.sessions.find? osd = some addr) :
    addr ∈ s.connections :=
  (h.set addr).mpr ⟨⟨osd, hgc, hfind⟩, by simp [hopening]⟩

/-- Every step keeps the invariant. -/
theorem Inv.step (h : Inv s) (hstep : GcConnections.step s event = some t) : Inv t := by
  cases event with
  | getSession osd addr =>
      simp only [GcConnections.step] at hstep
      by_cases hguard : s.opening = none ∧ 0 ≤ osd ∧ s.sessions.find? osd = none ∧
          s.heap.find? addr = none
      · rw [if_pos hguard] at hstep
        cases hstep
        exact h.connect hguard.2.1 hguard.1 hguard.2.2.2 fun _ => hguard.2.2.1
      · rw [if_neg hguard] at hstep
        cases hstep
  | insert =>
      obtain ⟨addr, hopening, rfl⟩ := Option.map_eq_some_iff.mp hstep
      refine ⟨h.nonneg, h.con, fun addr' => ?_, fun addr' haddr => by cases haddr⟩
      show addr' ∈ addr :: eraseAll s.connections [addr] ↔ OfCacheNode s addr' ∧ none ≠ some addr'
      rw [List.mem_cons, mem_eraseAll, h.set, hopening]
      rcases eq_or_ne addr' addr with rfl | hne
      · simp [h.opening addr' hopening]
      · simp [hne, hne.symm]
  | connectOther addr =>
      simp only [GcConnections.step] at hstep
      split_ifs at hstep with hfresh
      cases hstep
      refine ⟨h.nonneg, fun osd addr' hfind => ?_, h.set, h.opening⟩
      have hcon := h.con osd addr' hfind
      simp only [OrdMap.find?_insert]
      rw [if_neg, hcon]
      rintro rfl
      rw [hfresh] at hcon
      cases hcon
  | nodeView available =>
      simp only [GcConnections.step] at hstep
      split_ifs at hstep with hopening
      cases hstep
      refine h.close hopening ?_ ?_ ?_
      · intro osd addr hfind
        rw [OrdMap.find?_filter, Option.filter_eq_some_iff] at hfind
        exact hfind.1
      · intro osd addr hgc hfind
        have hdead : addr ∈ (s.sessions.filter fun e => viewDead available e.1).values ↔
            viewDead available osd = true := by
          constructor
          · intro hmem
            obtain ⟨osd', hfind'⟩ := OrdMap.exists_find?_of_mem_values hmem
            rw [OrdMap.find?_filter, Option.filter_eq_some_iff] at hfind'
            rw [h.osd_eq hfind hfind'.1]
            exact hfind'.2
          · intro hview
            refine OrdMap.mem_values (k := osd) ?_
            rw [OrdMap.find?_filter, hfind]
            simp [hview]
        rw [mem_eraseAll, hdead, OrdMap.find?_filter, hfind]
        simp [h.mem_of_open hopening hgc hfind]
      · intro addr hmem
        exact (mem_eraseAll.mp hmem).1
  | reset osd =>
      simp only [GcConnections.step] at hstep
      split at hstep
      · cases hstep
      · rename_i addr hfind
        split_ifs at hstep with hguard
        cases hstep
        refine h.close hguard.1 ?_ ?_ ?_
        · intro osd' addr' hfind'
          rw [OrdMap.find?_erase] at hfind'
          split_ifs at hfind' with heq
          exact hfind'
        · intro osd' addr' hgc hfind'
          rw [mem_eraseAll, List.mem_singleton, OrdMap.find?_erase, hfind']
          by_cases heq : osd' = osd
          · subst heq
            rw [hfind] at hfind'
            simp [Option.some.inj hfind']
          · have hne : addr' ≠ addr := by
              rintro rfl
              exact heq (h.osd_eq hfind' hfind)
            simp [heq, hne, h.mem_of_open hguard.1 hgc hfind']
        · intro addr' hmem
          exact (mem_eraseAll.mp hmem).1
  | reopen osd addr =>
      simp only [GcConnections.step] at hstep
      split_ifs at hstep with hguard
      cases hstep
      obtain ⟨hopening, hgc, hsome, hfresh⟩ := hguard
      obtain ⟨addr', hfind⟩ := Option.isSome_iff_exists.mp hsome
      have hconnect := h.connect (h.nonneg osd addr' hfind) hopening hfresh (by simp [hgc])
      simpa [hgc, ← hopening] using hconnect
  | osdMap down =>
      simp only [GcConnections.step] at hstep
      split_ifs at hstep with hopening
      cases hstep
      refine h.close hopening ?_ ?_ fun _ hmem => hmem
      · intro osd addr hfind
        rw [OrdMap.find?_filter, Option.filter_eq_some_iff] at hfind
        exact hfind.1
      · intro osd addr hgc hfind
        rw [OrdMap.find?_filter, hfind]
        simp [hgc, h.mem_of_open hopening hgc hfind]
  | free addr =>
      simp only [GcConnections.step] at hstep
      split_ifs at hstep with hfree
      cases hstep
      refine ⟨h.nonneg, fun osd addr' hfind => ?_, h.set, h.opening⟩
      simp only [OrdMap.find?_erase]
      rw [if_neg, h.con osd addr' hfind]
      rintro rfl
      exact hfree (OrdMap.mem_values hfind)

/-- Every run keeps the invariant. -/
theorem inv_of_reach (h : Reach step anyEvent init s) : Inv s := by
  refine h.invariant Inv ?_ fun _ _ _ hs _ hstep => hs.step hstep
  refine ⟨?_, ?_, ?_, ?_⟩ <;> simp [init, OfCacheNode, OrdMap.empty, OrdMap.find?]

/-- In every run, with addresses reused at will, a connection skips the monitors' authentication
exactly if it is the live connection of an open session of a cache node, and is not the one that
`_get_session` has still to put into the set. -/
theorem dummy_auth_iff :
    ∀ s, Reach step anyEvent init s → ∀ addr,
      (dummyAuth s addr = true ↔
        ∃ osd, checkOsdValue osd = true ∧ s.sessions.find? osd = some addr ∧
          s.heap.find? addr = some (.session osd) ∧ s.opening ≠ some addr) := by
  intro s hs addr
  have h := inv_of_reach hs
  rw [dummyAuth, decide_eq_true_eq, h.set]
  constructor
  · rintro ⟨⟨osd, hgc, hfind⟩, hne⟩
    exact ⟨osd, hgc, hfind, h.con osd addr hfind, hne⟩
  · rintro ⟨osd, hgc, hfind, -, hne⟩
    exact ⟨⟨osd, hgc, hfind⟩, hne⟩

/-- The id of node 3 of cluster 1. -/
def nodeThree : Int := 1114160

/-- The session of a cache node is opened on address 5. -/
def openNode : List Event := [.getSession nodeThree 5, .insert]

/-- The node leaves the view, and a monitor connection gets its address. -/
def reuseAddress : List Event := openNode ++ [.nodeView [], .free 5, .connectOther 5]

/-- The state after these events. -/
def after (events : List Event) : State := (run step anyEvent init events).getD init

/-- The connection at address 5 skips the authentication while it is the node's, and does not when
it is the monitor's. -/
theorem dummy_auth_reuseAddress :
    dummyAuth (after openNode) 5 = true ∧ (after reuseAddress).heap.find? 5 = some .other ∧
      dummyAuth (after reuseAddress) 5 = false := by
  have hopen : Reach step anyEvent init (after openNode) := Reach.of_run openNode rfl
  have hreuse : Reach step anyEvent init (after reuseAddress) := Reach.of_run reuseAddress rfl
  refine ⟨(dummy_auth_iff _ hopen 5).mpr ⟨nodeThree, by decide, rfl, rfl, by decide⟩, rfl, ?_⟩
  rw [Bool.eq_false_iff]
  intro hdummy
  obtain ⟨osd, -, -, hheap, -⟩ := (dummy_auth_iff _ hreuse 5).mp hdummy
  have hother : (after reuseAddress).heap.find? 5 = some .other := rfl
  rw [hother] at hheap
  cases hheap

end GlobalCacheAdaptor.ClientAdaptor.GcConnections
