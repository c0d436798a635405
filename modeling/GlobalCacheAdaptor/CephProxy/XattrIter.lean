import GlobalCacheAdaptor.CephProxy.ReadDelivery
import GlobalCacheAdaptor.Lib.Handles
import GlobalCacheAdaptor.Lib.Run

/-!
# Iterating over the result of an attribute query

`RadosGetXattrsNext` returns a copy of a value, which the next call or `RadosGetXattrsEnd` frees.
Where the copy cannot be made the iterator stays, so that the call can be repeated. The walk over
the plain list of entries says what a caller sees; the iterator refines it once `ReadCallback` has
moved it to its first entry, which happens to the iterator of the last query of an op only.
-/

namespace GlobalCacheAdaptor.CephProxy.ReadOp

open Lib

/-! ## A walk over a list of entries -/

/-- What a call returns: the end marker, a null name; an entry; or `-ENOMEM`, with the name. -/
inductive XattrsNext where
  | ended
  | entry (name val : Bytes)
  | noMemory (name : Bytes)
  deriving DecidableEq

/-- The entry that was returned. -/
def XattrsNext.pair? : XattrsNext → Option (Bytes × Bytes)
  | .entry name val => some (name, val)
  | .ended | .noMemory _ => none

/-- One call on the entries that are left. An empty value needs no copy. -/
def walkNext (rest : List (Bytes × Bytes)) (allocated : Bool) :
    XattrsNext × List (Bytes × Bytes) :=
  match rest with
  | [] => (.ended, [])
  | e :: rest =>
      if e.2.isEmpty || allocated then (.entry e.1 e.2, rest) else (.noMemory e.1, e :: rest)

/-- What the results of a walk promise, whichever copies fail. -/
structure Walks (entries : List (Bytes × Bytes)) (allocs : List Bool) (results : List XattrsNext) :
    Prop where
  /-- The entries come in order, each once and none left out. -/
  in_order : results.filterMap XattrsNext.pair? <+: entries
  /-- The end marker comes after all of them. -/
  ended : .ended ∈ results → results.filterMap XattrsNext.pair? = entries
  /-- It comes when there are more calls than entries and failed copies. -/
  comes_to_end : entries.length + allocs.count false < allocs.length → .ended ∈ results

/-- Nothing follows the last entry but end markers. -/
theorem walk_nil (allocs : List Bool) :
    (outputs walkNext [] allocs).1 = List.replicate allocs.length .ended := by
  induction allocs with
  | nil => rfl
  | cons allocated rest ih =>
      simp only [outputs, walkNext]
      rw [ih, List.length_cons, List.replicate_succ]

/-- The walk over a list of entries keeps what it promises. -/
theorem walks_walk (entries : List (Bytes × Bytes)) (allocs : List Bool) :
    Walks entries allocs (outputs walkNext entries allocs).1 := by
  induction allocs generalizing entries with
  | nil => exact ⟨List.nil_prefix, by simp [outputs], by simp⟩
  | cons allocated allocs ih =>
      cases entries with
      | nil =>
          rw [walk_nil]
          have hnone : (List.replicate (allocated :: allocs).length XattrsNext.ended).filterMap
              XattrsNext.pair? = [] := by
            simp [List.filterMap_replicate, XattrsNext.pair?]
          refine ⟨?_, fun _ => hnone, fun _ => by simp⟩
          rw [hnone]
      | cons e rest =>
          by_cases hcopied : (e.2.isEmpty || allocated) = true
          · obtain ⟨horder, hended, hend⟩ := ih rest
            have hstep : outputs walkNext (e :: rest) (allocated :: allocs) =
                (.entry e.1 e.2 :: (outputs walkNext rest allocs).1,
                  (outputs walkNext rest allocs).2) := by
              simp only [outputs, walkNext]
              rw [if_pos hcopied]
            rw [hstep]
            refine ⟨?_, ?_, ?_⟩
            · simpa [XattrsNext.pair?] using horder
            · simpa [XattrsNext.pair?] using hended
            · intro hlt
              refine List.mem_cons_of_mem _ (hend ?_)
              have hcount : allocs.count false ≤ (allocated :: allocs).count false :=
                List.count_le_count_cons
              simp only [List.length_cons] at hlt
              omega
          · obtain ⟨horder, hended, hend⟩ := ih (e :: rest)
            have hfalse : allocated = false := by
              rw [Bool.or_eq_true, not_or, Bool.not_eq_true, Bool.not_eq_true] at hcopied
              exact hcopied.2
            have hstep : outputs walkNext (e :: rest) (allocated :: allocs) =
                (.noMemory e.1 :: (outputs walkNext (e :: rest) allocs).1,
                  (outputs walkNext (e :: rest) allocs).2) := by
              simp only [outputs, walkNext]
              rw [if_neg hcopied]
            rw [hstep]
            have hnone : (XattrsNext.noMemory e.1).pair? = none := rfl
            refine ⟨?_, ?_, ?_⟩
            · rwa [List.filterMap_cons_none hnone]
            · rw [List.filterMap_cons_none hnone]
              intro hmem
              refine hended (List.mem_of_ne_of_mem ?_ hmem)
              simp
            · intro hlt
              refine List.mem_cons_of_mem _ (hend ?_)
              rw [hfalse, List.count_cons_self] at hlt
              simp only [List.length_cons] at hlt ⊢
              omega

/-! ## The iterator -/

/-- A `RadosXattrsIter`, with the copy its `val` points at, the number of copies that were made and
the history of the heap. -/
structure XattrsCursor where
  it : RadosXattrsIter
  val : Option Nat := none
  copies : Nat := 0
  heap : List HandleEvent := []

/-- `i->second`, for a name that the iterator stands at. -/
def XattrsCursor.bl (cursor : XattrsCursor) (name : Bytes) : Bytes :=
  (cursor.it.attrset.find? name).getD []

/-- `malloc`, into `val`. -/
def XattrsCursor.copied (cursor : XattrsCursor) : XattrsCursor :=
  { cursor with
    val := some cursor.copies
    copies := cursor.copies + 1
    heap := cursor.heap ++ [.opened cursor.copies] }

/-- Free the copy of the last value. -/
def XattrsCursor.freeVal (cursor : XattrsCursor) : XattrsCursor :=
  match cursor.val with
  | some copy => { cursor with val := none, heap := cursor.heap ++ [.closed copy] }
  | none => cursor

/-- Move to the next entry. -/
def XattrsCursor.advance (cursor : XattrsCursor) (name : Bytes) : XattrsCursor :=
  { cursor with it := { cursor.it with
      i := (cursor.it.attrset.entries.find? fun e => decide (name < e.1)).map Prod.fst } }

/-- `RadosGetXattrsNext`; `allocated` says whether its `malloc` succeeds, if there is one. -/
def radosGetXattrsNext (cursor : XattrsCursor) (allocated : Bool) : XattrsNext × XattrsCursor :=
  let cursor := cursor.freeVal
  match cursor.it.i with
  | none => (.ended, cursor)
  | some name =>
      if (cursor.bl name).isEmpty then (.entry name [], cursor.advance name)
      else if allocated then (.entry name (cursor.bl name), cursor.copied.advance name)
      else (.noMemory name, cursor)

/-- `RadosGetXattrsEnd`: the destructor of the iterator. -/
def radosGetXattrsEnd (cursor : XattrsCursor) : XattrsCursor := cursor.freeVal

@[simp] theorem freeVal_it (cursor : XattrsCursor) : cursor.freeVal.it = cursor.it := by
  unfold XattrsCursor.freeVal
  cases cursor.val <;> rfl

@[simp] theorem freeVal_bl (cursor : XattrsCursor) (name : Bytes) :
    cursor.freeVal.bl name = cursor.bl name := by
  rw [XattrsCursor.bl, freeVal_it]
  rfl

/-- What a call can do. -/
inductive NextDoes (cursor : XattrsCursor) (allocated : Bool) : XattrsNext × XattrsCursor → Prop
    where
  | ended : cursor.it.i = none → NextDoes cursor allocated (.ended, cursor.freeVal)
  | empty {name : Bytes} : cursor.it.i = some name → cursor.bl name = [] →
      NextDoes cursor allocated (.entry name [], cursor.freeVal.advance name)
  | copied {name : Bytes} : cursor.it.i = some name → cursor.bl name ≠ [] → allocated = true →
      NextDoes cursor allocated (.entry name (cursor.bl name), cursor.freeVal.copied.advance name)
  | noMemory {name : Bytes} : cursor.it.i = some name → cursor.bl name ≠ [] → allocated = false →
      NextDoes cursor allocated (.noMemory name, cursor.freeVal)

/-- A call does one of these. -/
theorem next_does (cursor : XattrsCursor) (allocated : Bool) :
    NextDoes cursor allocated (radosGetXattrsNext cursor allocated) := by
  unfold radosGetXattrsNext
  simp only [freeVal_it, freeVal_bl, List.isEmpty_iff]
  cases hi : cursor.it.i with
  | none => exact .ended hi
  | some name =>
      dsimp only
      split_ifs with hempty hallocated
      · exact .empty hi hempty
      · exact .copied hi hempty hallocated
      · exact .noMemory hi hempty (Bool.not_eq_true _ ▸ hallocated)

/-! ## The copies -/

/-- Every copy was freed once, except the one that the iterator holds. -/
def XattrsCursor.Held (cursor : XattrsCursor) : Prop :=
  match cursor.val with
  | none => Paired 0 cursor.copies cursor.heap
  | some copy => cursor.copies = copy + 1 ∧
      ∃ log, Paired 0 copy log ∧ cursor.heap = log ++ [.opened copy]

/-- Without a copy every copy was freed once. -/
theorem held_of_val_none {cursor : XattrsCursor} (h : cursor.val = none) :
    cursor.Held ↔ Paired 0 cursor.copies cursor.heap := by
  unfold XattrsCursor.Held
  rw [h]

/-- After `free` there is no copy, and the account holds. -/
theorem XattrsCursor.Held.freeVal {cursor : XattrsCursor} (h : cursor.Held) :
    cursor.freeVal.val = none ∧ Paired 0 cursor.freeVal.copies cursor.freeVal.heap := by
  unfold XattrsCursor.Held at h
  unfold XattrsCursor.freeVal
  cases hval : cursor.val with
  | none =>
      rw [hval] at h
      exact ⟨hval, h⟩
  | some copy =>
      rw [hval] at h
      obtain ⟨hcopies, log, hlog, hheap⟩ := h
      refine ⟨rfl, ?_⟩
      show Paired 0 cursor.copies (cursor.heap ++ [.closed copy])
      rw [hcopies, hheap, List.append_assoc]
      exact hlog.append (Paired.wrap (Paired.nil (copy + 1)))

/-- A call keeps the account of the copies. -/
theorem XattrsCursor.Held.next {cursor : XattrsCursor} (h : cursor.Held) (allocated : Bool) :
    (radosGetXattrsNext cursor allocated).2.Held := by
  obtain ⟨hval, hpaired⟩ := h.freeVal
  have hdoes := next_does cursor allocated
  generalize radosGetXattrsNext cursor allocated = result at hdoes
  cases hdoes with
  | ended => exact (held_of_val_none hval).mpr hpaired
  | @empty name => exact (@held_of_val_none (cursor.freeVal.advance name) hval).mpr hpaired
  | copied => exact ⟨rfl, cursor.freeVal.heap, hpaired, rfl⟩
  | noMemory => exact (held_of_val_none hval).mpr hpaired

/-- A copy that the iterator holds was made and not freed. -/
theorem XattrsCursor.Held.val_live {cursor : XattrsCursor} (h : cursor.Held) {copy : Nat}
    (hval : cursor.val = some copy) : onHandle copy cursor.heap = [.opened copy] := by
  unfold XattrsCursor.Held at h
  rw [hval] at h
  obtain ⟨-, log, hlog, hheap⟩ := h
  rw [hheap, onHandle, List.filter_append, ← onHandle, hlog.2, if_neg (by omega)]
  simp [HandleEvent.handle]

/-- The iterator holds a copy of every value that is not empty. -/
theorem val_of_entry {cursor : XattrsCursor} {allocated : Bool} {name val : Bytes}
    (hentry : (radosGetXattrsNext cursor allocated).1 = .entry name val) (hne : val ≠ []) :
    ∃ copy, (radosGetXattrsNext cursor allocated).2.val = some copy := by
  have hdoes := next_does cursor allocated
  generalize radosGetXattrsNext cursor allocated = result at hentry hdoes
  cases hdoes with
  | ended => cases hentry
  | empty =>
      cases hentry
      exact absurd rfl hne
  | copied => exact ⟨_, rfl⟩
  | noMemory => cases hentry

/-- An iterator asked any number of times. -/
def asked (it : RadosXattrsIter) (allocs : List Bool) : List XattrsNext × XattrsCursor :=
  outputs radosGetXattrsNext { it := it } allocs

/-- However often an iterator is asked, whichever copies fail: a value that is not empty is returned
in memory that is not freed before the next call, and `RadosGetXattrsEnd` leaves no copy. -/
theorem xattr_copies_freed (it : RadosXattrsIter) (allocs : List Bool) :
    (∀ allocated name val,
      (radosGetXattrsNext (asked it allocs).2 allocated).1 = .entry name val → val ≠ [] →
      ∃ copy, (radosGetXattrsNext (asked it allocs).2 allocated).2.val = some copy ∧
        onHandle copy (radosGetXattrsNext (asked it allocs).2 allocated).2.heap =
          [.opened copy]) ∧
    Paired 0 (radosGetXattrsEnd (asked it allocs).2).copies
      (radosGetXattrsEnd (asked it allocs).2).heap := by
  have hheld : (asked it allocs).2.Held :=
    outputs_invariant XattrsCursor.Held (fun _ allocated h => h.next allocated)
      ((held_of_val_none rfl).mpr (Paired.nil 0)) allocs
  refine ⟨fun allocated name val hentry hne => ?_, hheld.freeVal.2⟩
  obtain ⟨copy, hcopy⟩ := val_of_entry hentry hne
  exact ⟨copy, hcopy, (hheld.next allocated).val_live hcopy⟩

/-! ## The entries -/

/-- The entries that are left from where the iterator stands. -/
def XattrsCursor.At (cursor : XattrsCursor) (rest : List (Bytes × Bytes)) : Prop :=
  ∃ n, rest = cursor.it.attrset.entries.drop n ∧ cursor.it.i = rest.head?.map Prod.fst

/-- A call of the iterator is a step of the walk over what is left. -/
theorem XattrsCursor.At.next (cursor : XattrsCursor) (rest : List (Bytes × Bytes))
    (allocated : Bool) (h : cursor.At rest) :
    (radosGetXattrsNext cursor allocated).1 = (walkNext rest allocated).1 ∧
      (radosGetXattrsNext cursor allocated).2.At (walkNext rest allocated).2 := by
  obtain ⟨n, hrest, hi⟩ := h
  cases rest with
  | nil =>
      have hdoes := next_does cursor allocated
      generalize radosGetXattrsNext cursor allocated = result at hdoes
      cases hdoes with
      | ended => exact ⟨rfl, n, by rw [freeVal_it]; exact hrest, by rw [freeVal_it]; exact hi⟩
      | empty hname => rw [hname] at hi; cases hi
      | copied hname => rw [hname] at hi; cases hi
      | noMemory hname => rw [hname] at hi; cases hi
  | cons e rest =>
      have hget : cursor.it.attrset.entries[n]? = some e := by
        rw [← List.head?_drop, ← hrest]
        rfl
      have hbl : cursor.bl e.1 = e.2 := by
        rw [XattrsCursor.bl, cursor.it.attrset.find?_of_getElem? hget]
        rfl
      -- an advanced iterator stands at the entry after `e`
      have hadvance : (cursor.freeVal.advance e.1).At rest := by
        refine ⟨n + 1, ?_, ?_⟩
        · rw [← List.tail_drop]
          show rest = (cursor.freeVal.it.attrset.entries.drop n).tail
          rw [freeVal_it, ← hrest]
          rfl
        · show (cursor.freeVal.it.attrset.entries.find?
            fun e' => decide (e.1 < e'.1)).map Prod.fst = _
          rw [freeVal_it, cursor.it.attrset.find?_gt_eq_next hget fun e' => decide_eq_true_iff,
            ← List.head?_drop, ← List.tail_drop, ← hrest]
          rfl
      have hdoes := next_does cursor allocated
      generalize radosGetXattrsNext cursor allocated = result at hdoes
      have hname : ∀ {name}, cursor.it.i = some name → name = e.1 := by
        intro name hname
        rw [hname] at hi
        exact Option.some.inj hi
      cases hdoes with
      | ended hnone => rw [hnone] at hi; cases hi
      | empty hsome hempty =>
          obtain rfl := hname hsome
          rw [hbl] at hempty
          simp only [walkNext, hempty]
          exact ⟨rfl, hadvance⟩
      | copied hsome hne hallocated =>
          obtain rfl := hname hsome
          simp only [walkNext, hbl, hallocated, Bool.or_true, if_true]
          exact ⟨trivial, hadvance⟩
      | noMemory hsome hne hfailed =>
          obtain rfl := hname hsome
          rw [hbl] at hne
          have hstay : walkNext (e :: rest) allocated = (.noMemory e.1, e :: rest) := by
            simp [walkNext, hne, hfailed]
          rw [hstay]
          exact ⟨rfl, n, by rw [freeVal_it]; exact hrest, by rw [freeVal_it]; exact hi⟩

/-- An iterator at the first entry walks over all of them. -/
theorem walks_of_begin {it : RadosXattrsIter}
    (h : it.i = it.attrset.entries.head?.map Prod.fst) (allocs : List Bool) :
    Walks it.attrset.entries allocs (asked it allocs).1 := by
  have hat : XattrsCursor.At { it := it } it.attrset.entries := ⟨0, rfl, h⟩
  rw [asked, (outputs_refine XattrsCursor.At.next hat allocs).1]
  exact walks_walk it.attrset.entries allocs

/-- An iterator at the end has walked over everything only if there is nothing. -/
theorem walks_of_end {it : RadosXattrsIter} {entries : List (Bytes × Bytes)} (h : it.i = none) :
    (∀ allocs, Walks entries allocs (asked it allocs).1) ↔ entries = [] := by
  constructor
  · intro hwalks
    have hone : (asked it [true]).1 = [.ended] := by
      simp [asked, outputs, radosGetXattrsNext, h]
    have hended := (hwalks [true]).ended
    rw [hone] at hended
    exact (hended (List.mem_singleton_self _)).symm
  · rintro rfl allocs
    have hat : XattrsCursor.At { it := it } [] :=
      ⟨it.attrset.entries.length, by rw [List.drop_length], h⟩
    rw [asked, (outputs_refine XattrsCursor.At.next hat allocs).1]
    exact walks_walk [] allocs

/-! ## The iterators after the callback -/

/-- The context holds the iterator of the last query for all attributes. -/
theorem reqCtx_xattrs (calls : List ReadCall) :
    (build calls).reqCtx.xattrs =
      (last? (fun _ call => call.isGetXattrs) calls).elim none fun x => some x.1 := by
  refine eq_last _ (fun calls => (build calls).reqCtx.xattrs) (fun i _ => some i) ?_ calls
  intro calls call
  rw [build_concat]
  cases call with
  | read offset len buffer bytesRead => cases buffer <;> cases bytesRead <;> rfl
  | _ => rfl

/-- The context holds the iterator of a query that no other follows. -/
theorem reqCtx_xattrs_eq_some_iff {calls : List ReadCall} {i : Nat} {call : ReadCall}
    (hget : calls[i]? = some call) (hcall : call.isGetXattrs = true) :
    (build calls).reqCtx.xattrs = some i ↔
      ∀ j other, i < j → calls[j]? = some other → ¬other.isGetXattrs := by
  rw [reqCtx_xattrs]
  constructor
  · intro hslot
    cases hlast : last? (fun _ call => ReadCall.isGetXattrs call) calls with
    | none =>
        rw [hlast] at hslot
        cases hslot
    | some x =>
        rw [hlast] at hslot
        obtain rfl : x.1 = i := Option.some.inj hslot
        exact (last?_eq_some hlast).2.2
  · intro hlater
    rw [last?_of_forall (p := fun _ call => ReadCall.isGetXattrs call) hget hcall hlater]
    rfl

/-- librados moves no attribute iterator. -/
theorem stored_xattrs_i (outcome : Outcome) (s : Buffers × Memory) (calls : List ReadCall)
    (iter : Address) :
    ((stored outcome s calls).2.xattrsIter iter).i = (s.2.xattrsIter iter).i := by
  induction calls using List.reverseRecOn with
  | nil => rfl
  | append_singleton calls call ih =>
      rw [stored_concat, ← ih]
      generalize stored outcome s calls = s'
      cases call with
      | read offset len buffer bytesRead => cases buffer <;> cases bytesRead <;> rfl
      | getXattrs =>
          show (Function.update s'.2.xattrsIter calls.length _ iter).i = _
          by_cases h : iter = calls.length
          · subst h
            rw [Function.update_self]
          · rw [Function.update_of_ne h]
      | _ => rfl

/-- The attribute iterators after the callback. -/
theorem finish_xattrsIter (reqCtx : ReqContext) (buffers : Buffers) (mem : Memory) :
    (finish reqCtx buffers mem).xattrsIter = (beginXattrs reqCtx mem).xattrsIter := by
  simp only [finish, copyCheckSum, beginOmap, beginXattrs, copyXattr]
  cases reqCtx.checksum.pCheckSum <;> cases reqCtx.omap <;> cases reqCtx.xattrs <;>
    cases reqCtx.xattr <;> rfl

/-- The attribute iterators after a completed op: the results of reads leave them alone. -/
theorem completes_xattrsIter {calls : List ReadCall} {outcome : Outcome} {mem mem' : Memory}
    (h : Completes calls outcome mem mem') (iter : Address) :
    mem'.xattrsIter iter =
      if (build calls).reqCtx.xattrs = some iter then
        { (operate outcome (build calls) mem).2.xattrsIter iter with
          i := ((operate outcome (build calls) mem).2.xattrsIter iter).attrset.entries.head?.map
            Prod.fst }
      else (operate outcome (build calls) mem).2.xattrsIter iter := by
  rw [Completes, readCallback, if_pos rfl] at h
  obtain ⟨mid, hmid, rfl⟩ := Option.map_eq_some_iff.mp h
  obtain ⟨-, -, -, hxattrs, -⟩ := copyResults_frame _ _ _ hmid
  refine (congrFun (finish_xattrsIter _ (operate outcome (build calls) mem).1 mid) iter).trans ?_
  rw [← hxattrs, beginXattrs]
  cases hslot : (build calls).reqCtx.xattrs with
  | none => rfl
  | some own =>
      show Function.update mid.xattrsIter own _ iter = _
      by_cases howner : own = iter
      · subst howner
        rw [Function.update_self, if_pos rfl]
      · rw [Function.update_of_ne (Ne.symm howner), if_neg (by simpa using howner)]

/-- After the completion of an op, whichever copies fail, the iterator of a query for all attributes
returns all of them in order exactly when there are none, or no such query follows it in the op: a
later one takes the only `xattrs` slot of the op, and the completion moves no other iterator to its
first entry. -/
theorem xattrs_walked_iff {calls : List ReadCall} {outcome : Outcome} {mem mem' : Memory} {i : Nat}
    (hget : calls[i]? = some .getXattrs) (hnew : mem.xattrsIter i = {})
    (hcomplete : Completes calls outcome mem mem') :
    (∀ allocs, Walks (outcome.pairs i).entries allocs (asked (mem'.xattrsIter i) allocs).1) ↔
      (outcome.pairs i).entries = [] ∨
        ∀ j, i < j → calls[j]? ≠ some .getXattrs := by
  have hattrset : ((operate outcome (build calls) mem).2.xattrsIter i).attrset =
      outcome.pairs i := stored_attrset outcome ((build calls).buffers, mem) hget
  have hend : ((operate outcome (build calls) mem).2.xattrsIter i).i = none := by
    refine (stored_xattrs_i outcome ((build calls).buffers, mem) calls i).trans ?_
    show (mem.xattrsIter i).i = none
    rw [hnew]
  have hlast : (build calls).reqCtx.xattrs = some i ↔
      ∀ j, i < j → calls[j]? ≠ some .getXattrs := by
    rw [reqCtx_xattrs_eq_some_iff hget rfl]
    constructor
    · intro hlater j hj hother
      exact hlater j _ hj hother rfl
    · intro hlater j other hj hother hkind
      cases other with
      | getXattrs => exact hlater j hj hother
      | _ => cases hkind
  rw [completes_xattrsIter hcomplete, ← hlast]
  by_cases hslot : (build calls).reqCtx.xattrs = some i
  · rw [if_pos hslot, ← hattrset]
    generalize (operate outcome (build calls) mem).2.xattrsIter i = it
    have hwalks : ∀ allocs, Walks it.attrset.entries allocs
        (asked { it with i := it.attrset.entries.head?.map Prod.fst } allocs).1 :=
      @walks_of_begin { it with i := it.attrset.entries.head?.map Prod.fst } rfl
    exact iff_of_true hwalks (.inr hslot)
  · rw [if_neg hslot, walks_of_end hend]
    simp [hslot]

/-- Two attributes, one without a value. -/
def twoAttrs : Outcome where
  bytes := fun _ => []
  pairs := fun _ =>
    (OrdMap.empty.insert (ascii "lock") []).insert (ascii "order") (ascii "22")
  keys := fun _ => OrdMap.empty

/-- A copy fails once: the entry comes with the next call. -/
theorem xattrs_walked_twoAttrs :
    ∃ mem', Completes [.getXattrs] twoAttrs (unread [.getXattrs]) mem' ∧
      (asked (mem'.xattrsIter 0) [true, false, true, true]).1 =
        [.entry (ascii "lock") [], .noMemory (ascii "order"),
          .entry (ascii "order") (ascii "22"), .ended] ∧
      ∀ allocs, Walks (twoAttrs.pairs 0).entries allocs (asked (mem'.xattrsIter 0) allocs).1 := by
  have hcomplete : Completes [.getXattrs] twoAttrs (unread [.getXattrs]) _ := rfl
  refine ⟨_, hcomplete, rfl, (xattrs_walked_iff rfl rfl hcomplete).mpr (.inr ?_)⟩
  intro j hj
  rw [List.getElem?_eq_none (show 1 ≤ j from hj)]
  simp

end GlobalCacheAdaptor.CephProxy.ReadOp
