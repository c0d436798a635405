import Mathlib.Data.List.Dedup
import GlobalCacheAdaptor.ClientAdaptor.Placement

/-!
# Which sessions a node-view change closes

A node-view change should close the sessions of the cache nodes that are not available any more,
and no others. The handler looks `viewNode osd` up among the available nodes, which for a packed
id is the node with its cluster above it, and so never a node id: `nodeviewChange` closes every
session of a cache node. `closesDead_iff` says when this is what it should do.
-/

namespace GlobalCacheAdaptor.ClientAdaptor

open Lib

variable {s : State} {available : List (BitVec 32)}

/-- `CcmNodeChangeNotify`: the available nodes that it passes on, or `none` where it returns. The
entries say of each node whether it is up. -/
def ccmNodeChangeNotify (nodeList : List (BitVec 32 × Bool)) : Option (List (BitVec 32)) :=
  if nodeList.length = 0 then none
  else
    let available := ((nodeList.filter (·.2)).map (·.1)).dedup
    if nodeList.length - available.length = 0 then none else some available

/-! ## What the handler should do -/

/-- The session is to a cache node that is not available; the node is the one `get_node_ip`
extracts. -/
def gcDead (available : List (BitVec 32)) (osd : Int) : Bool :=
  isGcOsd osd && !available.contains (nodeOf (BitVec.ofInt 32 osd))

/-- The handler closes exactly the sessions of unavailable cache nodes and keeps the others with
their ops; and it resends, each under its tid, exactly the ops of the closed sessions and the
homeless ops on RBD data objects. -/
structure ClosesDead (s : State) (available : List (BitVec 32)) : Prop where
  sessions : ∀ osd, (nodeviewChange s available).1.sessions.find? osd =
    if gcDead available osd = true then none else s.sessions.find? osd
  resend : ∀ tid o, (nodeviewChange s available).2.find? tid = some o ↔
    (s.ops o).tid = tid ∧
      ((∃ e ∈ s.sessions.entries, gcDead available e.1 = true ∧ o ∈ e.2.values) ∨
        (o ∈ s.homeless.values ∧ filterMsg (s.ops o).name = true))

/-- Ops are on sessions under their own tids, and no two ops have the same one. -/
structure Tids (s : State) : Prop where
  key : ∀ tid o, s.OnSession tid o → (s.ops o).tid = tid
  unique : ∀ tid o o', s.OnSession tid o → s.OnSession tid o' → o = o'

/-- The tids are as assumed in every state the Objecter reaches. -/
theorem Inv.tids (h : Inv s) : Tids s where
  key tid o hon := (h.key tid o hon).1
  unique tid o o' hon hon' := by
    obtain ⟨hkey, hne⟩ := h.key tid o hon
    obtain ⟨hkey', -⟩ := h.key tid o' hon'
    exact h.unique o o' (hkey.trans hkey'.symm) (hkey.trans_ne hne)

/-! ## What it does -/

/-- The handler resends exactly the ops it takes off sessions. -/
theorem Tids.find?_resend (h : Tids s) (available : List (BitVec 32)) (tid : Nat) (o : OpId) :
    (nodeviewChange s available).2.find? tid = some o ↔
      o ∈ viewTaken s available ∧ (s.ops o).tid = tid := by
  have hkeys : ∀ u ∈ viewTaken s available, ∀ v ∈ viewTaken s available,
      (s.ops u).tid = (s.ops v).tid → u = v := by
    intro u hu v hv heq
    obtain ⟨tidU, honU⟩ := onSession_of_viewTaken hu
    obtain ⟨tidV, honV⟩ := onSession_of_viewTaken hv
    obtain rfl := h.key tidU u honU
    obtain rfl := h.key tidV v honV
    exact h.unique _ u v honU (heq ▸ honV)
  rw [nodeviewChange, collect, OrdMap.find?_foldl_insert hkeys]
  simp

/-- The handler closes every session of a cache node, available or not. -/
theorem viewDead_eq_isGcOsd {osd : Int} (hid : IsNodeId osd ∨ IsOsdId osd)
    (havailable : ∀ n ∈ available, n.toNat < 4096) : viewDead available osd = isGcOsd osd := by
  rcases hid with ⟨cluster, node, port, hpos, hcluster, hnode, hport, rfl⟩ | hosd
  · have hview := viewNode_packNodeId hcluster hnode hport
    have hnot : viewNode (packNodeId cluster node port).toInt ∉ available := by
      intro hmem
      have hlt := havailable _ hmem
      omega
    simp [viewDead, hnot]
  · simp [viewDead, isGcOsd_of_isOsdId hosd]

/-- A node-view change closes exactly the sessions of unavailable nodes if and only if no open
session of a cache node is to an available one. -/
theorem closesDead_iff (htids : Tids s)
    (hids : ∀ e ∈ s.sessions.entries, IsNodeId e.1 ∨ IsOsdId e.1)
    (havailable : ∀ n ∈ available, n.toNat < 4096) :
    ClosesDead s available ↔
      ∀ e ∈ s.sessions.entries, isGcOsd e.1 = true → nodeOf (BitVec.ofInt 32 e.1) ∉ available := by
  have hdead : ∀ e ∈ s.sessions.entries, viewDead available e.1 = isGcOsd e.1 :=
    fun e he => viewDead_eq_isGcOsd (hids e he) havailable
  constructor
  · rintro hcloses ⟨osd, session⟩ hentry hgc hmem
    have hfind := s.sessions.mem_entries_iff.mp hentry
    have hafter := hcloses.sessions osd
    simp only [nodeviewChange, OrdMap.find?_filter, hfind, Option.filter_some, hdead _ hentry,
      hgc] at hafter
    simp [gcDead, hmem] at hafter
  · intro hnone
    have hagree : ∀ e ∈ s.sessions.entries, viewDead available e.1 = gcDead available e.1 := by
      intro e he
      rw [hdead e he, gcDead]
      cases hgc : isGcOsd e.1 with
      | false => rfl
      | true => simp [hnone e he hgc]
    refine ⟨fun osd => ?_, fun tid o => ?_⟩
    · simp only [nodeviewChange, OrdMap.find?_filter]
      cases hfind : s.sessions.find? osd with
      | none => simp
      | some session =>
          have heq := hagree (osd, session) (s.sessions.mem_entries_iff.mpr hfind)
          simp only [Option.filter_some, heq]
          cases gcDead available osd <;> rfl
    · rw [htids.find?_resend, mem_viewTaken, and_comm]
      refine and_congr_right fun _ => or_congr_left ?_
      exact exists_congr fun e => and_congr_right fun he => by rw [hagree e he]

/-- The id of port 0 of node 2 of cluster 1 is a packed one. -/
theorem isNodeId_nodeTwo : IsNodeId nodeTwo.osd :=
  ⟨1, 2, 0, by decide, by decide, by decide, by decide, by decide⟩

/-- With one session, to node 2, and node 1 alone available, the handler does what it should. -/
theorem closesDead_nodeTwo_down :
    ∃ s, Reach (step onePool) anyEvent (init fun _ => true) s ∧
      ccmNodeChangeNotify [(1, true), (2, false)] = some [1] ∧
      s.sessions.entries.map (·.1) = [nodeTwo.osd] ∧ ClosesDead s [1] := by
  have h : Reach (step onePool) anyEvent (init fun _ => true) _ := Reach.of_run
    [.submit 1 imageObject true, .run 0 nodeTwo false, .run 0 nodeTwo false] rfl
  refine ⟨_, h, by decide, rfl, (closesDead_iff (inv_of_reach h).tids ?_ (by simp)).mpr ?_⟩
  · intro e he
    obtain rfl := List.mem_singleton.mp he
    exact .inl isNodeId_nodeTwo
  · intro e he
    obtain rfl := List.mem_singleton.mp he
    decide

/-- With the same session, and node 2 up while node 1 is down, the handler closes the session of
the live node. -/
theorem nodeview_closes_live_node :
    ∃ s, Reach (step onePool) anyEvent (init fun _ => true) s ∧
      ccmNodeChangeNotify [(1, false), (2, true)] = some [2] ∧ IsNodeId nodeTwo.osd ∧
      s.sessions.entries.map (·.1) = [nodeTwo.osd] ∧ nodeOf (BitVec.ofInt 32 nodeTwo.osd) = 2 ∧
      (nodeviewChange s [2]).1.sessions.find? nodeTwo.osd = none ∧ ¬ ClosesDead s [2] := by
  have h : Reach (step onePool) anyEvent (init fun _ => true) _ := Reach.of_run
    [.submit 1 imageObject true, .run 0 nodeTwo false, .run 0 nodeTwo false] rfl
  refine ⟨_, h, by decide, isNodeId_nodeTwo, rfl, by decide, rfl, fun hcloses => ?_⟩
  have hlive : gcDead [2] nodeTwo.osd = false := by decide
  have hafter := hcloses.sessions nodeTwo.osd
  rw [hlive] at hafter
  cases hafter

end GlobalCacheAdaptor.ClientAdaptor
