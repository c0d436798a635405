import GlobalCacheAdaptor.CephProxy.ReadDelivery
import Mathlib.Logic.Function.Iterate

/-!
# Iterating over the result of an omap query

Both omap queries give the caller an iterator over one map of values. `ReadCallback` moves the
iterator to the first value and only then puts the keys of a key query among the values, and it
moves only the iterator of the last query. `RadosOmapGetNext` is followed from there to the end.
-/

namespace GlobalCacheAdaptor.CephProxy.ReadOp

open Lib

/-! ## The iterator -/

/-- `RadosOmapGetNext`: the key and the value it returns, or none for the end marker, a null key.
Each of its four outputs may be a null pointer, which changes nothing of the others. -/
def radosOmapGetNext (it : RadosOmapIter) : Option (Bytes × Bytes) × RadosOmapIter :=
  match it.i with
  | none => (none, it)
  | some key =>
      (some (key, (it.values.find? key).getD []),
        { it with i := (it.values.entries.find? fun e => decide (key < e.1)).map Prod.fst })

/-- `RadosOmapIterSize`. -/
def radosOmapIterSize (it : RadosOmapIter) : Nat := it.values.entries.length

/-- What the call after `n` others returns. -/
def nextAfter (n : Nat) (it : RadosOmapIter) : Option (Bytes × Bytes) :=
  (radosOmapGetNext ((fun it => (radosOmapGetNext it).2)^[n] it)).1

/-- Repeated calls return these entries in order and then the end marker, and the size is their
number. -/
def Iterates (it : RadosOmapIter) (entries : List (Bytes × Bytes)) : Prop :=
  (∀ n, nextAfter n it = entries[n]?) ∧ radosOmapIterSize it = entries.length

/-- An iterator at the end stays there. -/
theorem nextAfter_of_end {it : RadosOmapIter} (h : it.i = none) (n : Nat) :
    nextAfter n it = none := by
  have hnext : radosOmapGetNext it = (none, it) := by
    unfold radosOmapGetNext
    rw [h]
  have hfixed : (fun it => (radosOmapGetNext it).2)^[n] it = it :=
    Function.iterate_fixed (by rw [hnext]) n
  rw [nextAfter, hfixed, hnext]

/-- An iterator at the end has returned everything exactly when there is nothing. -/
theorem iterates_of_end {it : RadosOmapIter} {entries : List (Bytes × Bytes)} (h : it.i = none)
    (hempty : entries = [] → it.values = OrdMap.empty) : Iterates it entries ↔ entries = [] := by
  constructor
  · rintro ⟨hnext, -⟩
    have hzero := hnext 0
    rw [nextAfter_of_end h] at hzero
    cases entries with
    | nil => rfl
    | cons first rest => cases hzero
  · rintro rfl
    refine ⟨fun n => ?_, ?_⟩
    · rw [nextAfter_of_end h]
      rfl
    · rw [radosOmapIterSize, hempty rfl]
      rfl

/-- After `n` calls an iterator that began at the first entry is at the `n`-th. -/
theorem iterate_next {it : RadosOmapIter} (h : it.i = it.values.entries.head?.map Prod.fst)
    (n : Nat) :
    (fun it => (radosOmapGetNext it).2)^[n] it =
      { it with i := it.values.entries[n]?.map Prod.fst } := by
  induction n with
  | zero =>
      rw [← List.head?_eq_getElem?, ← h]
      rfl
  | succ n ih =>
      rw [Function.iterate_succ_apply', ih]
      cases hn : it.values.entries[n]? with
      | none =>
          have hlen := List.getElem?_eq_none_iff.mp hn
          rw [List.getElem?_eq_none (by omega)]
          rfl
      | some e =>
          simp only [radosOmapGetNext, Option.map_some]
          rw [it.values.find?_gt_eq_next hn fun e' => decide_eq_true_iff]

/-- An iterator that begins at the first entry of its values returns all of them. -/
theorem iterates_of_begin {it : RadosOmapIter} (h : it.i = it.values.entries.head?.map Prod.fst) :
    Iterates it it.values.entries := by
  refine ⟨fun n => ?_, rfl⟩
  rw [nextAfter, iterate_next h]
  cases hn : it.values.entries[n]? with
  | none => rfl
  | some e =>
      simp only [radosOmapGetNext, Option.map_some]
      rw [it.values.find?_of_getElem? hn]
      rfl

/-! ## The iterators after the callback -/

/-- A call for values or keys of the omap. -/
def ReadCall.isOmap (call : ReadCall) : Bool := call.isOmapGetVals || call.isOmapGetKeys

/-- The entries an omap query asks for; a key comes with an empty value. -/
def ReadCall.omapResult (i : Nat) (outcome : Outcome) : ReadCall → List (Bytes × Bytes)
  | .omapGetVals _ _ => (outcome.pairs i).entries
  | .omapGetKeys _ _ => (outcome.keys i).entries.map fun e => (e.1, [])
  | _ => []

/-- The context holds the iterator of the last omap query. -/
theorem reqCtx_omap (calls : List ReadCall) :
    (build calls).reqCtx.omap =
      (last? (fun _ call => call.isOmap) calls).elim none fun x => some x.1 := by
  refine eq_last _ (fun calls => (build calls).reqCtx.omap) (fun i _ => some i) ?_ calls
  intro calls call
  rw [build_concat]
  cases call with
  | read offset len buffer bytesRead => cases buffer <;> cases bytesRead <;> rfl
  | _ => rfl

/-- The context holds the iterator of a query that no other omap query follows. -/
theorem reqCtx_omap_eq_some_iff {calls : List ReadCall} {i : Nat} {call : ReadCall}
    (hget : calls[i]? = some call) (homap : call.isOmap = true) :
    (build calls).reqCtx.omap = some i ↔
      ∀ j other, i < j → calls[j]? = some other → ¬other.isOmap := by
  rw [reqCtx_omap]
  constructor
  · intro hslot
    cases hlast : last? (fun _ call => ReadCall.isOmap call) calls with
    | none =>
        rw [hlast] at hslot
        cases hslot
    | some x =>
        rw [hlast] at hslot
        obtain rfl : x.1 = i := Option.some.inj hslot
        exact (last?_eq_some hlast).2.2
  · intro hlater
    rw [last?_of_forall (p := fun _ call => ReadCall.isOmap call) hget homap hlater]
    rfl

/-- librados moves no omap iterator. -/
theorem stored_i (outcome : Outcome) (s : Buffers × Memory) (calls : List ReadCall)
    (iter : Address) :
    ((stored outcome s calls).2.omapIter iter).i = (s.2.omapIter iter).i := by
  induction calls using List.reverseRecOn with
  | nil => rfl
  | append_singleton calls call ih =>
      rw [stored_concat, ← ih]
      generalize stored outcome s calls = s'
      cases call with
      | read offset len buffer bytesRead => cases buffer <;> cases bytesRead <;> rfl
      | omapGetVals startAfter maxReturn =>
          show (Function.update s'.2.omapIter calls.length _ iter).i = _
          by_cases h : iter = calls.length
          · subst h
            rw [Function.update_self]
          · rw [Function.update_of_ne h]
      | omapGetKeys startAfter maxReturn =>
          show (Function.update s'.2.omapIter calls.length _ iter).i = _
          by_cases h : iter = calls.length
          · subst h
            rw [Function.update_self]
          · rw [Function.update_of_ne h]
      | _ => rfl

/-- The iterator of the context moves to its first value, and then gets its keys. -/
theorem beginOmap_self {reqCtx : ReqContext} {mem : Memory} {iter : Address}
    (h : reqCtx.omap = some iter) :
    (beginOmap reqCtx mem).omapIter iter =
      { mem.omapIter iter with
        i := (mem.omapIter iter).values.entries.head?.map Prod.fst
        values := (mem.omapIter iter).keys.entries.foldl
          (fun values key => touchKey values key.1) (mem.omapIter iter).values } := by
  simp [beginOmap, h, Memory.setOmapIter]

/-- Every other iterator stays. -/
theorem beginOmap_of_ne {reqCtx : ReqContext} {mem : Memory} {iter : Address}
    (h : reqCtx.omap ≠ some iter) : (beginOmap reqCtx mem).omapIter iter = mem.omapIter iter := by
  unfold beginOmap
  cases homap : reqCtx.omap with
  | none => rfl
  | some own =>
      have hne : iter ≠ own := by
        intro heq
        exact h (heq ▸ homap)
      exact Function.update_of_ne hne _ _

/-- The omap iterators after a completed op. -/
theorem completes_omapIter {calls : List ReadCall} {outcome : Outcome} {mem mem' : Memory}
    (h : Completes calls outcome mem mem') (iter : Address) :
    ∃ mid : Memory, mid.omapIter = (operate outcome (build calls) mem).2.omapIter ∧
      mem'.omapIter iter = (beginOmap (build calls).reqCtx mid).omapIter iter := by
  rw [Completes, readCallback, if_pos rfl] at h
  obtain ⟨mid, hmid, rfl⟩ := Option.map_eq_some_iff.mp h
  obtain ⟨-, -, -, -, homap⟩ := copyResults_frame _ _ _ hmid
  refine ⟨mid, homap, ?_⟩
  rw [← finish_omapIter (build calls).reqCtx (operate outcome (build calls) mem).1 mid]
  rfl

/-- After the completion of an op, the iterator of an omap query returns the whole result exactly
when there is none, or the query is for values and no other omap query follows it in the op. -/
theorem iterates_iff {calls : List ReadCall} {outcome : Outcome} {mem mem' : Memory} {i : Nat}
    {call : ReadCall} (hget : calls[i]? = some call) (homap : call.isOmap = true)
    (hnew : mem.omapIter i = {}) (hcomplete : Completes calls outcome mem mem') :
    Iterates (mem'.omapIter i) (call.omapResult i outcome) ↔
      call.omapResult i outcome = [] ∨ (call.isOmapGetVals = true ∧
        ∀ j other, i < j → calls[j]? = some other → ¬other.isOmap) := by
  obtain ⟨mid, hmid, hiter⟩ := completes_omapIter hcomplete i
  have hbegin : (mid.omapIter i).i = none := by
    rw [hmid]
    refine (stored_i outcome ((build calls).buffers, mem) calls i).trans ?_
    show (mem.omapIter i).i = none
    rw [hnew]
  have hvalues : (mid.omapIter i).values =
      if call.isOmapGetVals then outcome.pairs i else OrdMap.empty := by
    rw [hmid]
    refine (stored_values outcome ((build calls).buffers, mem) hget).trans ?_
    rw [hnew]
  have hkeys : (mid.omapIter i).keys =
      if call.isOmapGetKeys then outcome.keys i else OrdMap.empty := by
    rw [hmid]
    refine (stored_keys outcome ((build calls).buffers, mem) hget).trans ?_
    rw [hnew]
  rw [hiter, ← reqCtx_omap_eq_some_iff hget homap]
  cases call with
  | omapGetVals startAfter maxReturn =>
      simp only [ReadCall.isOmapGetVals, ReadCall.isOmapGetKeys, if_true, Bool.false_eq_true,
        if_false] at hvalues hkeys
      by_cases hslot : (build calls).reqCtx.omap = some i
      · rw [beginOmap_self hslot, hvalues, hkeys]
        exact iff_of_true (iterates_of_begin rfl) (.inr ⟨rfl, hslot⟩)
      · rw [beginOmap_of_ne hslot, iterates_of_end hbegin]
        · simp [hslot]
        · intro hempty
          rw [hvalues]
          exact OrdMap.eq_empty hempty
  | omapGetKeys startAfter maxReturn =>
      simp only [ReadCall.isOmapGetVals, ReadCall.isOmapGetKeys, if_true, Bool.false_eq_true,
        if_false] at hvalues hkeys
      have hresult : ReadCall.omapResult i outcome (.omapGetKeys startAfter maxReturn) = [] →
          (outcome.keys i).entries = [] := by
        simp [ReadCall.omapResult]
      by_cases hslot : (build calls).reqCtx.omap = some i
      · -- the first of no values is the end, and the keys come too late to change that
        rw [beginOmap_self hslot, hvalues, hkeys, iterates_of_end rfl]
        · simp [ReadCall.isOmapGetVals]
        · intro hempty
          show (outcome.keys i).entries.foldl _ OrdMap.empty = _
          rw [hresult hempty]
          rfl
      · rw [beginOmap_of_ne hslot, iterates_of_end hbegin fun _ => hvalues]
        simp [ReadCall.isOmapGetVals]
  | _ => cases homap

/-- One entry, as the result of either kind of query. -/
def oneEntry : Outcome where
  bytes := fun _ => []
  pairs := fun _ => OrdMap.empty.insert (ascii "key") (ascii "value")
  keys := fun _ => OrdMap.empty.insert (ascii "key") ()

/-- A query for values returns its entry, and then the end. -/
theorem iterates_oneValue :
    ∃ mem', Completes [.omapGetVals none 16] oneEntry (unread [.omapGetVals none 16]) mem' ∧
      Iterates (mem'.omapIter 0) [(ascii "key", ascii "value")] := by
  have hcomplete :
      Completes [.omapGetVals none 16] oneEntry (unread [.omapGetVals none 16]) _ := rfl
  refine ⟨_, hcomplete, ?_⟩
  refine (iterates_iff (i := 0) rfl rfl rfl hcomplete).mpr (.inr ⟨rfl, ?_⟩)
  intro j other hj hother
  rw [List.getElem?_eq_none (show 1 ≤ j from hj)] at hother
  cases hother

/-- A query for keys whose result is one key returns the end at once. -/
theorem not_iterates_oneKey :
    ∃ mem', Completes [.omapGetKeys none 16] oneEntry (unread [.omapGetKeys none 16]) mem' ∧
      nextAfter 0 (mem'.omapIter 0) = none ∧ radosOmapIterSize (mem'.omapIter 0) = 1 ∧
      ¬ Iterates (mem'.omapIter 0) [(ascii "key", [])] := by
  have hcomplete :
      Completes [.omapGetKeys none 16] oneEntry (unread [.omapGetKeys none 16]) _ := rfl
  refine ⟨_, hcomplete, rfl, rfl, fun h => ?_⟩
  cases h.1 0

end GlobalCacheAdaptor.CephProxy.ReadOp
