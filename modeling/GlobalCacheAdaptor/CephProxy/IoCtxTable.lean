import Mathlib.Data.List.Lex
import GlobalCacheAdaptor.Lib.OrdMap
import GlobalCacheAdaptor.Lib.Run
import GlobalCacheAdaptor.Lib.Wire

/-!
# Ownership of the I/O contexts

`CephProxy::GetIoCtx` and `GetIoCtx2` look a pool up in `IOCtxTable`, by name or by id, create a
context when there is none, and insert it. The three are separate steps. `Clear` deletes what the
tables hold; nothing else deletes a context.

`owned_iff_clean` says exactly when the ownership of the contexts survives a step: a creation that
fails after it allocated, and an insertion that finds its key taken, each lose an object.
-/

namespace GlobalCacheAdaptor.CephProxy.IoCtxTable

open Lib

/-! ## The table -/

/-- A pool, by name or by id. -/
inductive Key where
  | name (poolname : Bytes)
  | poolId (poolId : Int)
  deriving DecidableEq

/-- `IOCtxTable`. A context is the number of its allocation. -/
structure IOCtxTable where
  table1 : OrdMap Bytes Nat := .empty
  table2 : OrdMap Int Nat := .empty

/-- `IOCtxTable::GetIoCtx`; `none` is the null pointer. -/
def IOCtxTable.getIoCtx (table : IOCtxTable) : Key → Option Nat
  | .name poolname => table.table1.find? poolname
  | .poolId poolId => table.table2.find? poolId

/-- `IOCtxTable::Insert`: by name it overwrites, by id it does not. -/
def IOCtxTable.insert (table : IOCtxTable) (ioctx : Nat) : Key → IOCtxTable
  | .name poolname => { table with table1 := table.table1.insert poolname ioctx }
  | .poolId poolId =>
      match table.table2.find? poolId with
      | some _ => table
      | none => { table with table2 := table.table2.insert poolId ioctx }

/-- `IOCtxTable::Clear`: the contexts it deletes, in order. -/
def IOCtxTable.clear (table : IOCtxTable) : List Nat := table.table1.values ++ table.table2.values

/-- Inserting under a free key stores the context there and leaves the other keys alone. -/
theorem getIoCtx_insert_new {table : IOCtxTable} {key : Key} (h : table.getIoCtx key = none)
    (ioctx : Nat) (other : Key) :
    (table.insert ioctx key).getIoCtx other =
      if other = key then some ioctx else table.getIoCtx other := by
  cases key with
  | name poolname =>
      cases other with
      | name other => simp [IOCtxTable.insert, IOCtxTable.getIoCtx, OrdMap.find?_insert]
      | poolId other => simp [IOCtxTable.insert, IOCtxTable.getIoCtx]
  | poolId poolId =>
      have hfree : table.table2.find? poolId = none := h
      cases other with
      | name other => simp [IOCtxTable.insert, IOCtxTable.getIoCtx, hfree]
      | poolId other => simp [IOCtxTable.insert, IOCtxTable.getIoCtx, hfree, OrdMap.find?_insert]

/-- Inserting under a free key makes the tables hold one more context. -/
theorem total_insert_new (w : Nat → Nat) {table : IOCtxTable} {key : Key}
    (h : table.getIoCtx key = none) (ioctx : Nat) :
    total w (table.insert ioctx key).clear = total w table.clear + w ioctx := by
  cases key with
  | name poolname =>
      simp only [IOCtxTable.clear, IOCtxTable.insert, total_append,
        OrdMap.total_values_insert_new w h]
      omega
  | poolId poolId =>
      have hfree : table.table2.find? poolId = none := h
      simp only [IOCtxTable.clear, IOCtxTable.insert, hfree, total_append,
        OrdMap.total_values_insert_new w hfree]
      omega

/-- Inserting under a taken key loses one of two contexts: the one that was there, or the new
one. -/
theorem total_insert_taken {table : IOCtxTable} {key : Key} {old : Nat}
    (h : table.getIoCtx key = some old) (ioctx : Nat) :
    ∃ lost, (lost = old ∨ lost = ioctx) ∧ ∀ w : Nat → Nat,
      total w (table.insert ioctx key).clear + w lost = total w table.clear + w ioctx := by
  cases key with
  | name poolname =>
      refine ⟨old, .inl rfl, fun w => ?_⟩
      have hinsert := OrdMap.total_insert_old (fun e => w e.2) h ioctx
      simp only [← OrdMap.total_values] at hinsert
      simp only [IOCtxTable.clear, IOCtxTable.insert, total_append]
      omega
  | poolId poolId =>
      have htaken : table.table2.find? poolId = some old := h
      refine ⟨ioctx, .inr rfl, fun w => ?_⟩
      simp only [IOCtxTable.clear, IOCtxTable.insert, htaken]

/-- A stored context is held. -/
theorem mem_clear_of_getIoCtx {table : IOCtxTable} {key : Key} {ioctx : Nat}
    (h : table.getIoCtx key = some ioctx) : ioctx ∈ table.clear := by
  cases key with
  | name poolname => exact List.mem_append_left _ (OrdMap.mem_values h)
  | poolId poolId => exact List.mem_append_right _ (OrdMap.mem_values h)

/-! ## The callers -/

/-- Where a thread that asks for a context is: outside, before it creates one, or before it
inserts the one it created. -/
inductive Caller where
  | idle
  | create (key : Key)
  | insert (key : Key) (ioctx : Nat)
  deriving DecidableEq

/-- How `RadosCreateIoCtx` or `RadosCreateIoCtx2` ends: `new` fails, librados refuses after the
object was allocated, or the object is returned. -/
inductive Creation where
  | noMemory
  | refused
  | created
  deriving DecidableEq

/-- The tables, the threads, the number of objects ever allocated, and the history of the contexts
that were returned to callers. -/
structure State where
  table : IOCtxTable := {}
  callers : List Caller
  allocated : Nat := 0
  got : List (Key × Nat) := []

/-- The state after `Init`, with any number of threads. -/
def init (threads : Nat) : State := { callers := List.replicate threads .idle }

/-- One scheduling choice. -/
inductive Event where
  /-- A thread calls `GetIoCtx` or `GetIoCtx2` and looks the pool up. -/
  | lookup (caller : Nat) (key : Key)
  /-- It creates a context. -/
  | create (caller : Nat) (creation : Creation)
  /-- It inserts the context and returns it. -/
  | insert (caller : Nat)
  deriving DecidableEq

/-- One step of the system. -/
def step (s : State) : Event → Option State
  | .lookup caller key =>
      match s.callers[caller]? with
      | some .idle =>
          match s.table.getIoCtx key with
          | some ioctx => some { s with got := s.got ++ [(key, ioctx)] }
          | none => some { s with callers := s.callers.set caller (.create key) }
      | _ => none
  | .create caller creation =>
      match s.callers[caller]? with
      | some (.create key) =>
          match creation with
          | .noMemory => some { s with callers := s.callers.set caller .idle }
          | .refused =>
              -- the object is not deleted when librados refuses the pool
              some { s with
                callers := s.callers.set caller .idle
                allocated := s.allocated + 1 }
          | .created =>
              some { s with
                callers := s.callers.set caller (.insert key s.allocated)
                allocated := s.allocated + 1 }
      | _ => none
  | .insert caller =>
      match s.callers[caller]? with
      | some (.insert key ioctx) =>
          some { s with
            table := s.table.insert ioctx key
            callers := s.callers.set caller .idle
            got := s.got ++ [(key, ioctx)] }
      | _ => none

/-- Whether the thread is between create and insert with this context. -/
def Caller.holds (ioctx : Nat) : Caller → Nat
  | .idle | .create _ => 0
  | .insert _ held => single ioctx held

/-- Every context is held by one table entry or one caller between create and insert; all callers
that get a context for a key get the same one; and once no caller is left `Clear` deletes every
context exactly once. -/
structure Owned (s : State) : Prop where
  held_once : ∀ ioctx < s.allocated,
    s.table.clear.count ioctx + total (Caller.holds ioctx) s.callers = 1
  same : ∀ key a b, (key, a) ∈ s.got → (key, b) ∈ s.got → a = b
  cleared : (∀ caller ∈ s.callers, caller = .idle) → ∀ ioctx < s.allocated,
    s.table.clear.count ioctx = 1

/-- No creation is refused after it allocated, and no insertion finds its key taken. -/
def clean (s : State) : Event → Prop
  | .lookup _ _ => True
  | .create _ creation => creation ≠ .refused
  | .insert caller =>
      match s.callers[caller]? with
      | some (.insert key _) => s.table.getIoCtx key = none
      | _ => True

instance (s : State) (event : Event) : Decidable (clean s event) :=
  match event with
  | .lookup _ _ => inferInstanceAs (Decidable True)
  | .create _ creation => inferInstanceAs (Decidable (creation ≠ .refused))
  | .insert caller =>
      match hc : s.callers[caller]? with
      | some (.insert key _) =>
          decidable_of_iff (s.table.getIoCtx key = none) (by simp [clean, hc])
      | some .idle | some (.create _) | none => isTrue (by simp [clean, hc])

/-! ## Ownership along a run -/

/-- Every object is held once, and what callers got is what the tables hold. -/
structure Inv (s : State) : Prop where
  held : ∀ ioctx, total (single ioctx) s.table.clear + total (Caller.holds ioctx) s.callers =
    if ioctx < s.allocated then 1 else 0
  got : ∀ key ioctx, (key, ioctx) ∈ s.got → s.table.getIoCtx key = some ioctx

theorem inv_init (threads : Nat) : Inv (init threads) := by
  refine ⟨fun ioctx => ?_, by simp [init]⟩
  have hidle : total (Caller.holds ioctx) (List.replicate threads .idle) = 0 := by
    rw [total_eq_zero_iff]
    intro c hc
    rw [List.eq_of_mem_replicate hc]
    rfl
  simp [init, hidle, IOCtxTable.clear, OrdMap.empty, OrdMap.values]

variable {s t : State} {event : Event}

/-- The invariant says that the contexts are owned. -/
theorem Inv.owned (h : Inv s) : Owned s := by
  have hheld : ∀ ioctx < s.allocated,
      s.table.clear.count ioctx + total (Caller.holds ioctx) s.callers = 1 := by
    intro ioctx hlt
    have := h.held ioctx
    rwa [total_single_eq_count, if_pos hlt] at this
  refine ⟨hheld, ?_, ?_⟩
  · intro key a b ha hb
    exact Option.some.inj ((h.got key a ha).symm.trans (h.got key b hb))
  · intro hidle ioctx hlt
    have hzero : total (Caller.holds ioctx) s.callers = 0 := by
      rw [total_eq_zero_iff]
      intro c hc
      rw [hidle c hc]
      rfl
    have := hheld ioctx hlt
    omega

/-- A caller moves on without taking or giving up a context. -/
theorem Inv.move {caller : Nat} {c c' : Caller} (h : Inv s) (hc : s.callers[caller]? = some c)
    (hsame : ∀ ioctx, c'.holds ioctx = c.holds ioctx) :
    Inv { s with callers := s.callers.set caller c' } := by
  refine ⟨?_, h.got⟩
  intro ioctx
  have hset := total_set (Caller.holds ioctx) hc c'
  rw [hsame ioctx, Nat.add_right_cancel_iff] at hset
  show total _ s.table.clear + total _ (s.callers.set caller c') =
    if ioctx < s.allocated then 1 else 0
  rw [hset]
  exact h.held ioctx

/-- A caller gets the context that the table holds for its key. -/
theorem Inv.found {key : Key} {ioctx : Nat} (h : Inv s)
    (hfind : s.table.getIoCtx key = some ioctx) :
    Inv { s with got := s.got ++ [(key, ioctx)] } := by
  refine ⟨h.held, ?_⟩
  intro key' ioctx' hmem
  obtain hold | hnew := List.mem_append.mp hmem
  · exact h.got key' ioctx' hold
  · obtain ⟨rfl, rfl⟩ : key' = key ∧ ioctx' = ioctx := by simpa using hnew
    exact hfind

/-- A caller creates a context and holds it. -/
theorem Inv.created {caller : Nat} {key : Key} (h : Inv s)
    (hc : s.callers[caller]? = some (.create key)) :
    Inv { s with
      callers := s.callers.set caller (.insert key s.allocated)
      allocated := s.allocated + 1 } := by
  refine ⟨?_, h.got⟩
  intro ioctx
  have hset := total_set (Caller.holds ioctx) hc (.insert key s.allocated)
  have hheld := h.held ioctx
  simp only [Caller.holds, single] at hset
  show total _ s.table.clear + total _ (s.callers.set caller (.insert key s.allocated)) =
    if ioctx < s.allocated + 1 then 1 else 0
  split_ifs at hheld hset ⊢ <;> omega

/-- A caller inserts the context it holds under a key that is free. -/
theorem Inv.insert {caller ioctx : Nat} {key : Key} (h : Inv s)
    (hc : s.callers[caller]? = some (.insert key ioctx)) (hfree : s.table.getIoCtx key = none) :
    Inv { s with
      table := s.table.insert ioctx key
      callers := s.callers.set caller .idle
      got := s.got ++ [(key, ioctx)] } := by
  constructor
  · intro ioctx'
    have hset := total_set (Caller.holds ioctx') hc .idle
    have hheld := h.held ioctx'
    have hinsert := total_insert_new (single ioctx') hfree ioctx
    simp only [Caller.holds] at hset
    show total _ (s.table.insert ioctx key).clear + total _ (s.callers.set caller .idle) =
      if ioctx' < s.allocated then 1 else 0
    omega
  · intro key' ioctx' hmem
    rw [getIoCtx_insert_new hfree]
    obtain hold | hnew := List.mem_append.mp hmem
    · have hold := h.got key' ioctx' hold
      rw [if_neg]
      · exact hold
      · intro heq
        rw [heq, hfree] at hold
        cases hold
    · obtain ⟨rfl, rfl⟩ : key' = key ∧ ioctx' = ioctx := by simpa using hnew
      rw [if_pos rfl]

/-- A clean step keeps the invariant. -/
theorem Inv.step (h : Inv s) (hclean : clean s event) (hstep : step s event = some t) : Inv t := by
  cases event with
  | lookup caller key =>
      simp only [IoCtxTable.step] at hstep
      split at hstep
      · rename_i hc
        split at hstep
        · rename_i ioctx hfind
          cases hstep
          exact h.found hfind
        · cases hstep
          exact h.move hc fun _ => rfl
      · cases hstep
  | create caller creation =>
      simp only [IoCtxTable.step] at hstep
      split at hstep
      · rename_i key hc
        cases creation with
        | refused => exact absurd rfl hclean
        | noMemory =>
            cases hstep
            exact h.move hc fun _ => rfl
        | created =>
            cases hstep
            exact h.created hc
      · cases hstep
  | insert caller =>
      simp only [IoCtxTable.step] at hstep
      split at hstep
      · rename_i key ioctx hc
        cases hstep
        have hfree : s.table.getIoCtx key = none := by simpa [clean, hc] using hclean
        exact h.insert hc hfree
      · cases hstep

/-- A step that is not clean loses an object. -/
theorem Inv.lost (h : Inv s) (hdirty : ¬clean s event) (hstep : IoCtxTable.step s event = some t) :
    ∃ ioctx < t.allocated,
      t.table.clear.count ioctx + total (Caller.holds ioctx) t.callers = 0 := by
  cases event with
  | lookup caller key => exact absurd trivial hdirty
  | create caller creation =>
      obtain rfl : creation = .refused := by
        by_contra hne
        exact hdirty hne
      simp only [IoCtxTable.step] at hstep
      split at hstep
      · rename_i key hc
        cases hstep
        refine ⟨s.allocated, by simp, ?_⟩
        have hset := total_set (Caller.holds s.allocated) hc .idle
        have hheld := h.held s.allocated
        simp only [Caller.holds] at hset
        simp only [lt_irrefl, if_false, total_single_eq_count] at hheld
        show s.table.clear.count s.allocated + total _ (s.callers.set caller .idle) = 0
        omega
      · cases hstep
  | insert caller =>
      simp only [IoCtxTable.step] at hstep
      split at hstep
      · rename_i key ioctx hc
        cases hstep
        have htaken : ∃ old, s.table.getIoCtx key = some old := by
          rw [← Option.ne_none_iff_exists']
          intro hfree
          exact hdirty (by simpa [clean, hc] using hfree)
        obtain ⟨old, hold⟩ := htaken
        obtain ⟨lost, hlost, hinsert⟩ := total_insert_taken hold ioctx
        -- the old context is in the tables and the new one with the caller, so each is held once
        have hin : 0 < total (single lost) s.table.clear + total (Caller.holds lost) s.callers := by
          rcases hlost with rfl | rfl
          · have := le_total (single lost) (mem_clear_of_getIoCtx hold)
            rw [single_self] at this
            omega
          · have := le_total (Caller.holds lost) (List.mem_of_getElem? hc)
            rw [show Caller.holds lost (.insert key lost) = 1 from single_self lost] at this
            omega
        have hheld := h.held lost
        have hlt : lost < s.allocated := by
          by_contra hge
          rw [if_neg hge] at hheld
          omega
        refine ⟨lost, hlt, ?_⟩
        have hset := total_set (Caller.holds lost) hc .idle
        have hlostOnce := hinsert (single lost)
        rw [if_pos hlt] at hheld
        simp only [Caller.holds, single_self] at hset hlostOnce
        rw [← total_single_eq_count]
        show total _ (s.table.insert ioctx key).clear + total _ (s.callers.set caller .idle) = 0
        omega
      · cases hstep

/-- After any run of clean steps the contexts are owned, and they still are after the next step
exactly when that step is clean too. -/
theorem owned_iff_clean {threads : Nat} (h : Reach step clean (init threads) s) :
    Owned s ∧ ∀ event t, step s event = some t → (Owned t ↔ clean s event) := by
  have hinv : Inv s :=
    h.invariant Inv (inv_init threads) fun _ _ _ hs hclean hstep => hs.step hclean hstep
  refine ⟨hinv.owned, fun event t hstep => ⟨fun howned => ?_, fun hclean => ?_⟩⟩
  · by_contra hdirty
    obtain ⟨ioctx, hlt, hzero⟩ := hinv.lost hdirty hstep
    have := howned.held_once ioctx hlt
    omega
  · exact (hinv.step hclean hstep).owned

/-- One thread creates the context of pool 7; the other finds it. -/
theorem owned_shared_pool :
    ∃ s, Reach step clean (init 2) s ∧ s.got = [(.poolId 7, 0), (.poolId 7, 0)] ∧ Owned s := by
  have h : Reach step clean (init 2) _ :=
    Reach.of_run [.lookup 0 (.poolId 7), .create 0 .created, .insert 0, .lookup 1 (.poolId 7)] rfl
  exact ⟨_, h, rfl, (owned_iff_clean h).1⟩

/-- Two threads that both find no context for a pool name get different ones, and one of the two
is lost: `Clear` deletes only the other. -/
theorem racing_callers_lose_context :
    ∃ s, Reach step anyEvent (init 2) s ∧ (∀ caller ∈ s.callers, caller = .idle) ∧
      s.allocated = 2 ∧ s.got = [(.name (ascii "rbd"), 0), (.name (ascii "rbd"), 1)] ∧
      s.table.clear = [1] ∧ ¬Owned s := by
  have h : Reach step anyEvent (init 2) _ :=
    Reach.of_run [.lookup 0 (.name (ascii "rbd")), .lookup 1 (.name (ascii "rbd")),
      .create 0 .created, .create 1 .created, .insert 0, .insert 1] rfl
  refine ⟨_, h, by decide, rfl, rfl, rfl, fun howned => ?_⟩
  have hsame : 0 = 1 := howned.same (.name (ascii "rbd")) 0 1 (by decide) (by decide)
  cases hsame

end GlobalCacheAdaptor.CephProxy.IoCtxTable
