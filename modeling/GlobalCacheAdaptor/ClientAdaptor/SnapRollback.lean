import Mathlib.Data.List.Basic
import Mathlib.Logic.Function.Basic
import GlobalCacheAdaptor.Lib.Run
import GlobalCacheAdaptor.Lib.Tokens
import GlobalCacheAdaptor.Lib.Wire

/-!
# Rolling an accelerated image back to a snapshot

`SnapshotRollbackRequest` of an accelerated image does not roll objects back itself. It creates
two temporary snapshots, hands their ids to the cache with `rollback_gc_snap`, and removes the
temporary snapshots again when something fails. The create and remove requests of librbd are
answered by the environment: `Honest` says what they promise, and that a generated name is new.

Read `rollback_ends` first: every request comes to its end here, completed with the first error, or
handed over to the refresh of the object map after exactly one accepted call. `rollback_leftovers`
says when a failed request leaves a temporary snapshot behind.
-/

namespace GlobalCacheAdaptor.ClientAdaptor.SnapRollback

open Lib

/-! ## Names of temporary snapshots -/

/-- `GC_SNAP_PREFIX`. -/
def gcSnapPrefix : Bytes := ascii "gc_"

/-- `is_gc_snap`: the first occurrence of the prefix is at the front. -/
def isGcSnap (snapName : Bytes) : Bool := gcSnapPrefix.isPrefixOf snapName

/-- `gen_random_gc_snap`, with the random number and the clock it reads. -/
def genRandomGcSnap (extra : Nat) (timepoint : Int) (snapId num : Nat) : Bytes :=
  gcSnapPrefix ++ ascii (toString extra) ++ ascii "_" ++ ascii (toString snapId) ++ ascii "_" ++
    ascii (toString num) ++ ascii "_" ++ ascii (toString timepoint)

/-- Generated names are recognised. -/
theorem isGcSnap_genRandomGcSnap (extra : Nat) (timepoint : Int) (snapId num : Nat) :
    isGcSnap (genRandomGcSnap extra timepoint snapId num) = true := by
  simp [isGcSnap, genRandomGcSnap, List.isPrefixOf_iff_prefix]

/-- A generated name is not empty. -/
theorem genRandomGcSnap_ne_nil (extra : Nat) (timepoint : Int) (snapId num : Nat) :
    genRandomGcSnap extra timepoint snapId num ≠ [] := by
  simp [genRandomGcSnap, gcSnapPrefix, ascii]

/-- No underscore in a decimal number. -/
theorem underscore_notMem (n : Nat) : (95 : Byte) ∉ ascii (toString n) := by
  intro hmem
  obtain ⟨c, hc, hbyte⟩ := List.mem_map.mp hmem
  have hdigit : c.isDigit = true := by
    refine Nat.isDigit_of_mem_toDigits (b := 10) (n := n) (by decide) (by decide) ?_
    simpa [Nat.repr] using hc
  have hrange : 48 ≤ c.toNat ∧ c.toNat ≤ 57 := by
    simpa [Char.isDigit, UInt32.le_iff_toNat_le] using hdigit
  have hvalue : c.toNat % 256 = 95 := congrArg Fin.val hbyte
  omega

/-- The two names of one request differ, whatever the clock and the random numbers. -/
theorem genRandomGcSnap_ne (extra extra' : Nat) (timepoint timepoint' : Int) (snapId : Nat) :
    genRandomGcSnap extra timepoint snapId 1 ≠ genRandomGcSnap extra' timepoint' snapId 2 := by
  intro heq
  have hbar : ascii "_" = [95] := rfl
  simp only [genRandomGcSnap, hbar, List.append_assoc, List.singleton_append,
    List.append_right_inj] at heq
  -- cut at each underscore: the third field is the number of the snapshot
  obtain ⟨-, heq⟩ := append_sep_inj (underscore_notMem extra) (underscore_notMem extra') heq
  obtain ⟨-, heq⟩ := append_sep_inj (underscore_notMem snapId) (underscore_notMem snapId) heq
  obtain ⟨hnum, -⟩ := append_sep_inj (underscore_notMem 1) (underscore_notMem 2) heq
  exact absurd hnum (by decide)

/-! ## The request -/

/-- `-ELIBACC`, when the plugin is not there. -/
def elibacc : Int := -79

/-- What a request knows of its image and of the snapshot to return to. -/
structure Image where
  mdPoolId : Int
  dataPoolId : Int
  id : Bytes
  snapId : Nat

/-- `RollbackInfo`, the argument of `OpenRollbackSnapshot`. -/
structure RollbackInfo where
  mdPoolId : Int
  dataPoolId : Int
  imageId : Bytes
  numObjs : Nat
  snapId : Nat
  oldHeadSnapId : Nat
  rollbackSnapId : Nat
  snapSeq : Nat
  deriving DecidableEq, Repr

/-- Where a request is: not yet at its first temporary snapshot, waiting for a create or a remove
request, queued for the call of the cache, handed on to `send_refresh_object_map`, completed with
a result, or stopped by its assertion. -/
inductive Phase where
  | start
  | creating (name : Bytes)
  | removing (name : Bytes) (snapId : Nat)
  | queued
  | refreshing
  | completed (result : Int)
  | asserted
  deriving DecidableEq, Repr

/-- The snapshots of the image by name, the fields of the request, and the history of the errors it
was told and of the calls it made with what they returned. -/
structure State where
  snapIds : Bytes → Option Nat
  gcSnapName1 : Bytes := []
  gcSnapName2 : Bytes := []
  retVal : Int := 0
  phase : Phase := .start
  errors : List Int := []
  calls : List (RollbackInfo × Int) := []

/-- A request on an image with these snapshots. -/
def start (snapIds : Bytes → Option Nat) : State := { snapIds }

/-- `save_result` keeps the first error. -/
def State.saveResult (s : State) (result : Int) : State :=
  if s.retVal = 0 ∧ result < 0 then { s with retVal := result } else s

/-- `send_gc_snap_create`. The plugin, when it is loaded, brings the random number and the clock
for the name. -/
def sendGcSnapCreate (image : Image) (num : Nat) (plugin : Option (Nat × Int)) (s : State) :
    State :=
  match plugin with
  | none => { s with phase := .completed elibacc, errors := s.errors ++ [elibacc] }
  | some (extra, timepoint) =>
      let snapName := genRandomGcSnap extra timepoint image.snapId num
      if num = 1 then { s with gcSnapName1 := snapName, phase := .creating snapName }
      else { s with gcSnapName2 := snapName, phase := .creating snapName }

/-- `send_gc_snap_remove` once the name is taken from its field. -/
def removeSnap (snapName : Bytes) (s : State) : State :=
  if snapName = [] then { s with phase := .completed s.retVal }
  else
    match s.snapIds snapName with
    | none => { s with phase := .completed s.retVal }
    | some snapId => { s with phase := .removing snapName snapId }

/-- `send_gc_snap_remove`. -/
def sendGcSnapRemove (s : State) : State :=
  if s.gcSnapName1 ≠ [] then removeSnap s.gcSnapName1 { s with gcSnapName1 := [] }
  else removeSnap s.gcSnapName2 { s with gcSnapName2 := [] }

/-- `handle_send_gc_snap_create`. -/
def handleSendGcSnapCreate (image : Image) (result : Int) (plugin : Option (Nat × Int))
    (s : State) : State :=
  if result < 0 then sendGcSnapRemove (s.saveResult result)
  else if s.gcSnapName2 = [] then sendGcSnapCreate image 2 plugin s
  else { s with phase := .queued }

/-- `handle_send_gc_snap_remove`. -/
def handleSendGcSnapRemove (result : Int) (s : State) : State :=
  if result < 0 then { s with phase := .completed s.retVal } else sendGcSnapRemove s

/-- The end of `handle_send_gc_rollback`. -/
def afterRollback (mgrRet : Int) (s : State) : State :=
  if mgrRet < 0 then sendGcSnapRemove (s.saveResult mgrRet) else { s with phase := .refreshing }

/-- `handle_send_gc_rollback`, with what `rollback_gc_snap` returns if the plugin is loaded. -/
def handleSendGcRollback (image : Image) (numObjs : Nat) (plugin : Option Int) (s : State) :
    State :=
  match s.snapIds s.gcSnapName1, s.snapIds s.gcSnapName2 with
  | some tpSnapId1, some tpSnapId2 =>
      match plugin with
      | none => afterRollback elibacc { s with errors := s.errors ++ [elibacc] }
      | some mgrRet =>
          afterRollback mgrRet
            { s with
              errors := if mgrRet < 0 then s.errors ++ [mgrRet] else s.errors
              calls := s.calls ++
                [({ mdPoolId := image.mdPoolId
                    dataPoolId := image.dataPoolId
                    imageId := image.id
                    numObjs
                    snapId := image.snapId
                    oldHeadSnapId := tpSnapId1
                    rollbackSnapId := tpSnapId2
                    snapSeq := 0 }, mgrRet)] }
  | _, _ => { s with phase := .asserted }

/-- What the request is told next. -/
inductive Event where
  /-- The request reaches the cache branch of `send_rollback_object_map`. -/
  | begin (plugin : Option (Nat × Int))
  /-- A create request ends; it made the snapshot with an id, or did not. -/
  | created (result : Int) (snapId : Option Nat) (plugin : Option (Nat × Int))
  /-- A remove request ends; the snapshot is gone, or is not. -/
  | removed (result : Int) (gone : Bool)
  /-- The work queue runs `handle_send_gc_rollback`. -/
  | rollback (numObjs : Nat) (plugin : Option Int)

/-- A result is an error the request was told. -/
def State.told (s : State) (result : Int) : State :=
  if result < 0 then { s with errors := s.errors ++ [result] } else s

/-- The snapshots after a create request. -/
def withSnap (snapIds : Bytes → Option Nat) (name : Bytes) : Option Nat → Bytes → Option Nat
  | some id => Function.update snapIds name (some id)
  | none => snapIds

/-- One step of the request. -/
def step (image : Image) (s : State) : Event → Option State
  | .begin plugin =>
      match s.phase with
      | .start => some (sendGcSnapCreate image 1 plugin s)
      | _ => none
  | .created result snapId plugin =>
      match s.phase with
      | .creating name =>
          some (handleSendGcSnapCreate image result plugin
            { s.told result with snapIds := withSnap s.snapIds name snapId })
      | _ => none
  | .removed result gone =>
      match s.phase with
      | .removing name _ =>
          let left := if gone then Function.update s.snapIds name none else s.snapIds
          some (handleSendGcSnapRemove result { s.told result with snapIds := left })
      | _ => none
  | .rollback numObjs plugin =>
      match s.phase with
      | .queued => some (handleSendGcRollback image numObjs plugin s)
      | _ => none

/-- The name the next temporary snapshot would get is new. -/
def Fresh (image : Image) (num : Nat) (s : State) (plugin : Option (Nat × Int)) : Prop :=
  ∀ extra timepoint, plugin = some (extra, timepoint) →
    s.snapIds (genRandomGcSnap extra timepoint image.snapId num) = none

/-- What librbd promises: a create request that succeeds made its snapshot, a remove request that
succeeds removed it. A generated name, with its clock and its random number, is new. -/
def Honest (image : Image) (s : State) : Event → Prop
  | .begin plugin => Fresh image 1 s plugin
  | .created result snapId plugin => (0 ≤ result → snapId.isSome) ∧ Fresh image 2 s plugin
  | .removed result gone => 0 ≤ result → gone = true
  | .rollback _ _ => True

/-- The step leaves no temporary snapshot behind: the plugin is still loaded for the second name,
and a remove request that reports an error removed its snapshot and was the last one needed. -/
def Careful (s : State) : Event → Prop
  | .created result _ plugin => 0 ≤ result → s.gcSnapName2 = [] → plugin.isSome
  | .removed result gone =>
      0 ≤ result ∨
        (gone = true ∧ (s.gcSnapName2 = [] ∨ s.snapIds s.gcSnapName2 = none))
  | .begin _ | .rollback _ _ => True

/-! ## Removing what was created -/

variable {image : Image} {table : Bytes → Option Nat} {s t : State} {event : Event}

/-- A name in a field of the request is the name of a temporary snapshot that the image did not
have before. -/
def Temporary (table : Bytes → Option Nat) (name : Bytes) : Prop :=
  name ≠ [] → isGcSnap name = true ∧ table name = none

/-- Outside of the names in the fields the image has the snapshots it had. -/
def Kept (table : Bytes → Option Nat) (s : State) : Prop :=
  ∀ name, (s.gcSnapName1 ≠ [] → name ≠ s.gcSnapName1) →
    (s.gcSnapName2 ≠ [] → name ≠ s.gcSnapName2) → s.snapIds name = table name

/-- The cache was called at most once, and refused. -/
def Refused (calls : List (RollbackInfo × Int)) : Prop :=
  calls.length ≤ 1 ∧ ∀ call ∈ calls, call.2 < 0

/-- The first error is recorded, and the cache did not accept a call. -/
structure Failed (s : State) : Prop where
  negative : s.retVal < 0
  first : s.errors.head? = some s.retVal
  calls : Refused s.calls

/-- What holds whenever `send_gc_snap_remove` is entered. -/
structure Cleaning (table : Bytes → Option Nat) (s : State) : Prop where
  failed : Failed s
  temporary1 : Temporary table s.gcSnapName1
  temporary2 : Temporary table s.gcSnapName2
  distinct : s.gcSnapName1 ≠ [] → s.gcSnapName1 ≠ s.gcSnapName2
  first : s.gcSnapName1 ≠ [] → s.gcSnapName2 ≠ [] → (s.snapIds s.gcSnapName1).isSome
  kept : Kept table s

/-- A remove request is under way: its snapshot is the only one outside of the fields that the
image did not have. -/
structure Removing (table : Bytes → Option Nat) (s : State) (name : Bytes) : Prop where
  failed : Failed s
  field : s.gcSnapName1 = []
  temporary : isGcSnap name = true ∧ table name = none
  temporary2 : Temporary table s.gcSnapName2
  there : (s.snapIds name).isSome
  distinct : name ≠ s.gcSnapName2
  kept : ∀ other, other ≠ name → (s.gcSnapName2 ≠ [] → other ≠ s.gcSnapName2) →
    s.snapIds other = table other

/-- The request is completed with its first error and the image is as it was. -/
structure Restored (table : Bytes → Option Nat) (s : State) : Prop where
  failed : Failed s
  completed : s.phase = .completed s.retVal
  snapIds : s.snapIds = table

/-- Without a snapshot to remove the request is completed. -/
theorem removeSnap_completed {name : Bytes} (h : name = [] ∨ s.snapIds name = none) :
    removeSnap name s = { s with phase := .completed s.retVal } := by
  by_cases hname : name = []
  · simp [removeSnap, hname]
  · simp [removeSnap, hname, h.resolve_left hname]

/-- A snapshot that is there is removed. -/
theorem removeSnap_removing {name : Bytes} {snapId : Nat} (hname : name ≠ [])
    (h : s.snapIds name = some snapId) :
    removeSnap name s = { s with phase := .removing name snapId } := by
  simp [removeSnap, hname, h]

/-- `send_gc_snap_remove` completes the request on an image as it was, or removes one of the
snapshots, after which one name less is left. -/
theorem Cleaning.sendGcSnapRemove (h : Cleaning table s) :
    Restored table (sendGcSnapRemove s) ∨
      ∃ name snapId, (sendGcSnapRemove s).phase = .removing name snapId ∧
        Removing table (sendGcSnapRemove s) name ∧
        (s.gcSnapName1 = [] → (sendGcSnapRemove s).gcSnapName2 = []) := by
  obtain ⟨⟨hneg, hfirst, hcalls⟩, htemp1, htemp2, hdistinct, hthere, hkept⟩ := h
  by_cases hname1 : s.gcSnapName1 = []
  · -- the second field, and no name is left after it
    rw [SnapRollback.sendGcSnapRemove, if_neg (not_not_intro hname1)]
    by_cases hgone : s.gcSnapName2 = [] ∨ s.snapIds s.gcSnapName2 = none
    · rw [removeSnap_completed (s := { s with gcSnapName2 := [] }) hgone]
      refine .inl ⟨⟨hneg, hfirst, hcalls⟩, rfl, funext fun name => ?_⟩
      rcases hgone with hname2 | hid
      · exact hkept name (absurd hname1) (absurd hname2)
      · rcases eq_or_ne name s.gcSnapName2 with rfl | hne
        · by_cases hname2 : s.gcSnapName2 = []
          · exact hkept _ (absurd hname1) (absurd hname2)
          · exact hid.trans (htemp2 hname2).2.symm
        · exact hkept name (absurd hname1) fun _ => hne
    · obtain ⟨hname2, hid⟩ := not_or.mp hgone
      obtain ⟨snapId, hsnapId⟩ := Option.ne_none_iff_exists'.mp hid
      rw [removeSnap_removing (s := { s with gcSnapName2 := [] }) hname2 hsnapId]
      refine .inr ⟨s.gcSnapName2, snapId, rfl, ⟨⟨hneg, hfirst, hcalls⟩, hname1, htemp2 hname2,
        fun hne => absurd rfl hne, by simp [hsnapId], hname2, ?_⟩, fun _ => rfl⟩
      exact fun other hne _ => hkept other (absurd hname1) fun _ => hne
  · -- the first field; if its snapshot is not there, no second one was made
    rw [SnapRollback.sendGcSnapRemove, if_pos hname1]
    cases hid : s.snapIds s.gcSnapName1 with
    | none =>
        rw [removeSnap_completed (s := { s with gcSnapName1 := [] }) (.inr hid)]
        have hname2 : s.gcSnapName2 = [] := by
          by_contra hname2
          simp [hid] at hthere
          exact hname2 (hthere hname1)
        refine .inl ⟨⟨hneg, hfirst, hcalls⟩, rfl, funext fun name => ?_⟩
        rcases eq_or_ne name s.gcSnapName1 with rfl | hne
        · exact hid.trans (htemp1 hname1).2.symm
        · exact hkept name (fun _ => hne) (absurd hname2)
    | some snapId =>
        rw [removeSnap_removing (s := { s with gcSnapName1 := [] }) hname1 hid]
        refine .inr ⟨s.gcSnapName1, snapId, rfl, ⟨⟨hneg, hfirst, hcalls⟩, rfl, htemp1 hname1,
          htemp2, by simp [hid], hdistinct hname1, ?_⟩, fun h => absurd h hname1⟩
        exact fun other hne hne2 => hkept other (fun _ => hne) hne2

/-- After a remove request that did its work the request is as at the entry of
`send_gc_snap_remove`, with one name less. -/
theorem Removing.cleaning {name : Bytes} (h : Removing table s name) :
    Cleaning table { s with snapIds := Function.update s.snapIds name none } := by
  refine ⟨⟨h.failed.1, h.failed.2, h.failed.3⟩, by simp [Temporary, h.field], h.temporary2,
    by simp [h.field], by simp [h.field], ?_⟩
  intro other _ hne2
  rcases eq_or_ne other name with rfl | hne
  · simp [h.temporary.2]
  · simpa [Function.update_of_ne hne] using h.kept other hne hne2

/-! ## Every step -/

/-- The request has been told no error and made no call. -/
structure Fine (s : State) : Prop where
  retVal : s.retVal = 0
  errors : s.errors = []
  calls : s.calls = []

/-- The first snapshot is being created. -/
structure First (image : Image) (table : Bytes → Option Nat) (s : State) (name : Bytes) :
    Prop where
  fine : Fine s
  name1 : s.gcSnapName1 = name
  name2 : s.gcSnapName2 = []
  generated : ∃ extra timepoint, name = genRandomGcSnap extra timepoint image.snapId 1
  new : table name = none
  snapIds : s.snapIds = table

/-- The first snapshot is there and the second one has its name. -/
structure Second (table : Bytes → Option Nat) (s : State) : Prop where
  fine : Fine s
  nonempty1 : s.gcSnapName1 ≠ []
  nonempty2 : s.gcSnapName2 ≠ []
  distinct : s.gcSnapName1 ≠ s.gcSnapName2
  temporary1 : isGcSnap s.gcSnapName1 = true ∧ table s.gcSnapName1 = none
  temporary2 : isGcSnap s.gcSnapName2 = true ∧ table s.gcSnapName2 = none
  there : (s.snapIds s.gcSnapName1).isSome
  kept : Kept table s

/-- The cache accepted the rollback between the two snapshots, which stay. -/
structure Accepted (image : Image) (table : Bytes → Option Nat) (s : State) : Prop where
  kept : Kept table s
  errors : s.errors = []
  call : ∃ numObjs snapId1 snapId2 mgrRet, s.snapIds s.gcSnapName1 = some snapId1 ∧
    s.snapIds s.gcSnapName2 = some snapId2 ∧ 0 ≤ mgrRet ∧
    s.calls = [(⟨image.mdPoolId, image.dataPoolId, image.id, numObjs, image.snapId, snapId1,
      snapId2, 0⟩, mgrRet)]

/-- What holds in each phase of a run without a careless step. -/
def Inv (image : Image) (table : Bytes → Option Nat) (s : State) : Prop :=
  match s.phase with
  | .start => s = start table
  | .creating name => First image table s name ∨ (Second table s ∧ s.gcSnapName2 = name)
  | .queued => Second table s ∧ (s.snapIds s.gcSnapName2).isSome
  | .removing name _ => Removing table s name
  | .refreshing => Accepted image table s
  | .completed result => result < 0 ∧ s.errors.head? = some result ∧ Refused s.calls ∧
      s.snapIds = table
  | .asserted => False

/-- The request is completed with its first error and left a temporary snapshot behind. -/
structure Leftover (table : Bytes → Option Nat) (s : State) : Prop where
  completed : ∃ result, s.phase = .completed result ∧ result < 0 ∧
    s.errors.head? = some result
  calls : Refused s.calls
  left : ∃ name, isGcSnap name = true ∧ table name = none ∧ (s.snapIds name).isSome

/-- `send_gc_snap_remove` keeps the request in order. -/
theorem Cleaning.inv (h : Cleaning table s) :
    Inv image table (SnapRollback.sendGcSnapRemove s) := by
  rcases h.sendGcSnapRemove with ⟨hfailed, hcompleted, hsnapIds⟩ |
    ⟨name, snapId, hphase, hremoving, -⟩
  · simp only [Inv, hcompleted]
    exact ⟨hfailed.negative, hfailed.first, hfailed.calls, hsnapIds⟩
  · simpa only [Inv, hphase] using hremoving

/-- A create request changes nothing under another name. -/
theorem withSnap_of_ne {snapIds : Bytes → Option Nat} {name other : Bytes} (snapId : Option Nat)
    (hne : other ≠ name) : withSnap snapIds name snapId other = snapIds other := by
  cases snapId with
  | none => rfl
  | some id => exact Function.update_of_ne hne _ _

/-- The first error of a request is its result. -/
theorem Fine.saveResult (h : Fine s) {result : Int} (hneg : result < 0)
    (snapIds : Bytes → Option Nat) :
    ({ s.told result with snapIds } : State).saveResult result =
      { s with snapIds, retVal := result, errors := [result] } := by
  simp [State.told, State.saveResult, hneg, h.retVal, h.errors]

/-- An error while the second snapshot has its name starts the clean-up. -/
theorem Second.cleaning (h : Second table s) {snapIds : Bytes → Option Nat}
    (hthere : (snapIds s.gcSnapName1).isSome)
    (hkept : Kept table { s with snapIds }) {result : Int} (hneg : result < 0)
    {calls : List (RollbackInfo × Int)} (hcalls : Refused calls) :
    Cleaning table { s with snapIds, retVal := result, errors := [result], calls } :=
  ⟨⟨hneg, rfl, hcalls⟩, fun _ => h.temporary1, fun _ => h.temporary2, fun _ => h.distinct,
    fun _ _ => hthere, hkept⟩

/-- An error of the first create request starts the clean-up. -/
theorem First.cleaning {name : Bytes} (h : First image table s name) (snapId : Option Nat)
    {result : Int} (hneg : result < 0) :
    Cleaning table
      { s with
        snapIds := withSnap s.snapIds name snapId
        retVal := result
        errors := [result] } := by
  obtain ⟨extra, timepoint, hname⟩ := h.generated
  have hgc : isGcSnap name = true := hname ▸ isGcSnap_genRandomGcSnap _ _ _ _
  refine ⟨⟨hneg, rfl, by simp [Refused, h.fine.calls]⟩, ?_, by simp [Temporary, h.name2], ?_,
    by simp [h.name2], ?_⟩
  · intro _
    simpa only [h.name1] using ⟨hgc, h.new⟩
  · simp [h.name2]
  · intro other hne1 _
    have hne : other ≠ name := by
      intro heq
      refine hne1 ?_ (heq.trans h.name1.symm)
      rw [show s.gcSnapName1 = name from h.name1, hname]
      exact genRandomGcSnap_ne_nil _ _ _ _
    exact (withSnap_of_ne snapId hne).trans (congrFun h.snapIds other)

/-- The first step keeps the request in order. -/
theorem inv_begin {plugin : Option (Nat × Int)} (hfresh : Fresh image 1 (start table) plugin) :
    Inv image table (sendGcSnapCreate image 1 plugin (start table)) := by
  cases plugin with
  | none =>
      simp only [sendGcSnapCreate, Inv]
      exact ⟨by decide, rfl, by simp [Refused, start], rfl⟩
  | some plugin =>
      obtain ⟨extra, timepoint⟩ := plugin
      simp only [sendGcSnapCreate, if_true, Inv]
      exact .inl ⟨⟨rfl, rfl, rfl⟩, rfl, rfl, ⟨extra, timepoint, rfl⟩,
        hfresh extra timepoint rfl, rfl⟩

/-- The end of the first create request. -/
theorem First.created {name : Bytes} (h : First image table s name) {result : Int}
    {snapId : Option Nat} {plugin : Option (Nat × Int)}
    (hhonest : Honest image s (.created result snapId plugin))
    (ht : t = handleSendGcSnapCreate image result plugin
      { s.told result with snapIds := withSnap s.snapIds name snapId }) :
    (Careful s (.created result snapId plugin) → Inv image table t) ∧
      (¬Careful s (.created result snapId plugin) → Leftover table t) := by
  subst ht
  obtain ⟨extra, timepoint, hname⟩ := h.generated
  have hgc : isGcSnap name = true := hname ▸ isGcSnap_genRandomGcSnap _ _ _ _
  have hnil : name ≠ [] := hname ▸ genRandomGcSnap_ne_nil _ _ _ _
  by_cases hneg : result < 0
  · refine ⟨fun _ => ?_, fun hcareless => absurd (fun hle => ?_) hcareless⟩
    · rw [handleSendGcSnapCreate, if_pos hneg, h.fine.saveResult hneg]
      exact (h.cleaning snapId hneg).inv
    · omega
  · obtain ⟨hmade, hfresh⟩ := hhonest
    obtain ⟨id, rfl⟩ := Option.isSome_iff_exists.mp (hmade (Int.not_lt.mp hneg))
    have htold : s.told result = s := if_neg hneg
    rw [htold, handleSendGcSnapCreate, if_neg hneg, if_pos h.name2]
    cases plugin with
    | none =>
        refine ⟨fun hcareful => ?_, fun _ => ⟨⟨elibacc, rfl, by decide, ?_⟩, ?_, name, hgc,
          h.new, by simp [sendGcSnapCreate, withSnap]⟩⟩
        · simpa using hcareful (Int.not_lt.mp hneg) h.name2
        · simp [sendGcSnapCreate, h.fine.errors]
        · simp [Refused, sendGcSnapCreate, h.fine.calls]
    | some plugin =>
        obtain ⟨extra', timepoint'⟩ := plugin
        refine ⟨fun _ => ?_, fun hcareless => absurd (fun _ _ => rfl) hcareless⟩
        have hnew := hfresh extra' timepoint' rfl
        rw [h.snapIds] at hnew
        have hsecond : ¬(2 : Nat) = 1 := by decide
        simp only [sendGcSnapCreate, if_neg hsecond, Inv]
        refine .inr ⟨⟨⟨h.fine.retVal, h.fine.errors, h.fine.calls⟩, ?_,
          genRandomGcSnap_ne_nil _ _ _ _, ?_, ?_, ⟨isGcSnap_genRandomGcSnap _ _ _ _, hnew⟩, ?_, ?_⟩,
          trivial⟩
        · exact h.name1 ▸ hnil
        · show s.gcSnapName1 ≠ _
          rw [h.name1, hname]
          exact genRandomGcSnap_ne _ _ _ _ _
        · show isGcSnap s.gcSnapName1 = true ∧ table s.gcSnapName1 = none
          exact h.name1 ▸ ⟨hgc, h.new⟩
        · show (withSnap s.snapIds name (some id) s.gcSnapName1).isSome
          simp [withSnap, h.name1]
        · intro other hne1 _
          have hne : other ≠ name := by
            rw [← h.name1]
            exact hne1 (h.name1 ▸ hnil)
          exact (withSnap_of_ne (some id) hne).trans (congrFun h.snapIds other)

/-- The end of the second create request. -/
theorem Second.created (h : Second table s) {result : Int} {snapId : Option Nat}
    {plugin : Option (Nat × Int)} (hhonest : Honest image s (.created result snapId plugin))
    (ht : t = handleSendGcSnapCreate image result plugin
      { s.told result with snapIds := withSnap s.snapIds s.gcSnapName2 snapId }) :
    Inv image table t := by
  subst ht
  have hthere : (withSnap s.snapIds s.gcSnapName2 snapId s.gcSnapName1).isSome := by
    rw [withSnap_of_ne snapId h.distinct]
    exact h.there
  have hkept : Kept table { s with snapIds := withSnap s.snapIds s.gcSnapName2 snapId } := by
    intro other hne1 hne2
    exact (withSnap_of_ne snapId (hne2 h.nonempty2)).trans (h.kept other hne1 hne2)
  by_cases hneg : result < 0
  · rw [handleSendGcSnapCreate, if_pos hneg, h.fine.saveResult hneg]
    exact (h.cleaning hthere hkept hneg (by simp [Refused, h.fine.calls])).inv
  · obtain ⟨id, rfl⟩ := Option.isSome_iff_exists.mp (hhonest.1 (Int.not_lt.mp hneg))
    have htold : s.told result = s := if_neg hneg
    rw [htold, handleSendGcSnapCreate, if_neg hneg, if_neg h.nonempty2]
    exact ⟨⟨⟨h.fine.retVal, h.fine.errors, h.fine.calls⟩, h.nonempty1, h.nonempty2, h.distinct,
      h.temporary1, h.temporary2, hthere, hkept⟩, by simp [withSnap]⟩

/-- The call of the cache. -/
theorem Second.rollback (h : Second table s) (hthere : (s.snapIds s.gcSnapName2).isSome)
    (numObjs : Nat) (plugin : Option Int) :
    Inv image table (handleSendGcRollback image numObjs plugin s) := by
  obtain ⟨snapId1, hid1⟩ := Option.isSome_iff_exists.mp h.there
  obtain ⟨snapId2, hid2⟩ := Option.isSome_iff_exists.mp hthere
  have herror {result : Int} (hneg : result < 0) {calls : List (RollbackInfo × Int)}
      (hcalls : Refused calls) :
      Inv image table (afterRollback result { s with errors := s.errors ++ [result], calls }) := by
    have hsave : ({ s with errors := s.errors ++ [result], calls } : State).saveResult result =
        { s with retVal := result, errors := [result], calls } := by
      simp [State.saveResult, h.fine.retVal, h.fine.errors, hneg]
    rw [afterRollback, if_pos hneg, hsave]
    exact (h.cleaning h.there h.kept hneg hcalls).inv
  cases plugin with
  | none =>
      simp only [handleSendGcRollback, hid1, hid2]
      exact herror (by decide) (by simp [Refused, h.fine.calls])
  | some mgrRet =>
      simp only [handleSendGcRollback, hid1, hid2]
      by_cases hneg : mgrRet < 0
      · rw [if_pos hneg]
        exact herror hneg (by simp [Refused, h.fine.calls, hneg])
      · rw [if_neg hneg, afterRollback, if_neg hneg]
        exact ⟨h.kept, h.fine.errors, numObjs, snapId1, snapId2, mgrRet, hid1, hid2,
          Int.not_lt.mp hneg, by simp [h.fine.calls]⟩

/-- A later error does not replace the first one. -/
theorem head?_told {errors : List Int} {first : Int} (h : errors.head? = some first)
    (result : Int) : (errors ++ [result]).head? = some first := by
  rw [List.head?_append_of_ne_nil, h]
  rintro rfl
  cases h

/-- The end of a remove request. -/
theorem Removing.removed {name : Bytes} (h : Removing table s name) {result : Int} {gone : Bool}
    (hhonest : Honest image s (.removed result gone))
    (ht : t = handleSendGcSnapRemove result
      { s.told result with
        snapIds := if gone then Function.update s.snapIds name none else s.snapIds }) :
    (Careful s (.removed result gone) → Inv image table t) ∧
      (¬Careful s (.removed result gone) → Leftover table t) := by
  subst ht
  by_cases hneg : result < 0
  · have htold : s.told result = { s with errors := s.errors ++ [result] } := if_pos hneg
    rw [htold, handleSendGcSnapRemove, if_pos hneg]
    have hfirst := head?_told h.failed.first result
    constructor
    · rintro (hle | ⟨rfl, hsecond⟩)
      · omega
      · refine ⟨h.failed.negative, hfirst, h.failed.calls, funext fun other => ?_⟩
        simp only [if_true]
        rcases eq_or_ne other name with rfl | hne
        · simp [h.temporary.2]
        · rw [Function.update_of_ne hne]
          rcases eq_or_ne other s.gcSnapName2 with rfl | hne2
          · by_cases hnil : s.gcSnapName2 = []
            · exact h.kept _ hne (absurd hnil)
            · exact (hsecond.resolve_left hnil).trans (h.temporary2 hnil).2.symm
          · exact h.kept other hne fun _ => hne2
    · intro hcareless
      refine ⟨⟨s.retVal, rfl, h.failed.negative, hfirst⟩, h.failed.calls, ?_⟩
      cases gone with
      | false => exact ⟨name, h.temporary.1, h.temporary.2, h.there⟩
      | true =>
          have hsecond : ¬(s.gcSnapName2 = [] ∨ s.snapIds s.gcSnapName2 = none) :=
            fun hor => hcareless (.inr ⟨rfl, hor⟩)
          obtain ⟨hnil, hnone⟩ := not_or.mp hsecond
          refine ⟨s.gcSnapName2, (h.temporary2 hnil).1, (h.temporary2 hnil).2, ?_⟩
          show (Function.update s.snapIds name none s.gcSnapName2).isSome
          rw [Function.update_of_ne h.distinct.symm]
          exact Option.isSome_iff_ne_none.mpr hnone
  · have hle : 0 ≤ result := Int.not_lt.mp hneg
    obtain rfl : gone = true := hhonest hle
    have htold : s.told result = s := if_neg hneg
    refine ⟨fun _ => ?_, fun hcareless => absurd (.inl hle) hcareless⟩
    rw [htold, handleSendGcSnapRemove, if_neg hneg]
    exact h.cleaning.inv

/-- Every honest step from a state in order leads to one, unless it is careless. -/
theorem Inv.step (h : Inv image table s) (hhonest : Honest image s event)
    (hstep : step image s event = some t) :
    (Careful s event → Inv image table t) ∧ (¬Careful s event → Leftover table t) := by
  cases event with
  | begin plugin =>
      simp only [SnapRollback.step] at hstep
      split at hstep
      · rename_i hphase
        cases hstep
        simp only [Inv, hphase] at h
        subst h
        exact ⟨fun _ => inv_begin hhonest, fun hcareless => absurd trivial hcareless⟩
      · cases hstep
  | created result snapId plugin =>
      simp only [SnapRollback.step] at hstep
      split at hstep
      · rename_i name hphase
        cases hstep
        simp only [Inv, hphase] at h
        rcases h with hfirst | ⟨hsecond, rfl⟩
        · exact hfirst.created hhonest rfl
        · refine ⟨fun _ => hsecond.created hhonest rfl, fun hcareless => ?_⟩
          exact absurd (fun _ hnil => absurd hnil hsecond.nonempty2) hcareless
      · cases hstep
  | removed result gone =>
      simp only [SnapRollback.step] at hstep
      split at hstep
      · rename_i name snapId hphase
        cases hstep
        simp only [Inv, hphase] at h
        exact h.removed hhonest rfl
      · cases hstep
  | rollback numObjs plugin =>
      simp only [SnapRollback.step] at hstep
      split at hstep
      · rename_i hphase
        cases hstep
        simp only [Inv, hphase] at h
        exact ⟨fun _ => h.1.rollback h.2 numObjs plugin,
          fun hcareless => absurd trivial hcareless⟩
      · cases hstep

/-! ## Whole requests -/

/-- A request is in order, or ended with a temporary snapshot left behind. -/
def Sound (image : Image) (table : Bytes → Option Nat) (s : State) : Prop :=
  Inv image table s ∨ Leftover table s

/-- A completed request makes no step. -/
theorem Leftover.step_none (h : Leftover table s) (event : Event) :
    step image s event = none := by
  obtain ⟨result, hphase, -⟩ := h.completed
  cases event <;> simp [step, hphase]

/-- Every honest step keeps a request sound. -/
theorem Sound.step (h : Sound image table s) (hhonest : Honest image s event)
    (hstep : SnapRollback.step image s event = some t) : Sound image table t := by
  rcases h with hinv | hleft
  · by_cases hcareful : Careful s event
    · exact .inl ((hinv.step hhonest hstep).1 hcareful)
    · exact .inr ((hinv.step hhonest hstep).2 hcareful)
  · rw [hleft.step_none event] at hstep
    cases hstep

/-- The end of a request: the first error, with no rollback accepted by the cache, or the refresh of
the object map after no error and exactly one call, between the two temporary snapshots. -/
def Ended (image : Image) (table : Bytes → Option Nat) (s : State) : Prop :=
  (∃ result, s.phase = .completed result ∧ result < 0 ∧ s.errors.head? = some result ∧
    Refused s.calls) ∨
  (s.phase = .refreshing ∧ Accepted image table s)

/-- The steps a request has left. -/
def State.remaining (s : State) : Nat :=
  match s.phase with
  | .start => 6
  | .creating _ => if s.gcSnapName2 = [] then 5 else 4
  | .queued => 3
  | .removing _ _ => if s.gcSnapName2 = [] then 1 else 2
  | .refreshing | .completed _ | .asserted => 0

/-- A field that still holds a name costs one remove request. -/
def cost (name : Bytes) : Nat := if name = [] then 0 else 1

/-- The clean-up takes one step for each name. -/
theorem remaining_sendGcSnapRemove (s : State) :
    (sendGcSnapRemove s).remaining ≤ cost s.gcSnapName1 + cost s.gcSnapName2 := by
  unfold sendGcSnapRemove removeSnap
  by_cases hname1 : s.gcSnapName1 = []
  · by_cases hname2 : s.gcSnapName2 = []
    · simp [hname1, hname2, State.remaining]
    · cases s.snapIds s.gcSnapName2 <;> simp [hname1, hname2, State.remaining, cost]
  · cases s.snapIds s.gcSnapName1 <;>
      by_cases hname2 : s.gcSnapName2 = [] <;> simp [hname1, hname2, State.remaining, cost]

/-- A name costs at most one step. -/
theorem cost_le (name : Bytes) : cost name ≤ 1 := by
  unfold cost
  split <;> omega

/-- Results change no name. -/
theorem names_told (s : State) (result : Int) :
    (s.told result).gcSnapName1 = s.gcSnapName1 ∧
      (s.told result).gcSnapName2 = s.gcSnapName2 := by
  unfold State.told
  split <;> exact ⟨rfl, rfl⟩

/-- The clean-up takes two steps at most. -/
theorem remaining_sendGcSnapRemove_le (s : State) : (sendGcSnapRemove s).remaining ≤ 2 := by
  have h := remaining_sendGcSnapRemove s
  have h1 := cost_le s.gcSnapName1
  have h2 := cost_le s.gcSnapName2
  omega

/-- What is left after a create request. -/
theorem remaining_handleSendGcSnapCreate (image : Image) (result : Int)
    (plugin : Option (Nat × Int)) (s : State) :
    (handleSendGcSnapCreate image result plugin s).remaining ≤
      if s.gcSnapName2 = [] then 4 else 3 := by
  unfold handleSendGcSnapCreate
  by_cases hneg : result < 0
  · rw [if_pos hneg]
    have hle := remaining_sendGcSnapRemove_le (s.saveResult result)
    split <;> omega
  · rw [if_neg hneg]
    by_cases hname2 : s.gcSnapName2 = []
    · rw [if_pos hname2, if_pos hname2]
      cases plugin with
      | none => simp [State.remaining, sendGcSnapCreate]
      | some plugin => simp [State.remaining, sendGcSnapCreate, genRandomGcSnap_ne_nil]
    · rw [if_neg hname2, if_neg hname2]
      exact le_refl 3

/-- What is left after a remove request. -/
theorem remaining_handleSendGcSnapRemove (result : Int) (s : State) :
    (handleSendGcSnapRemove result s).remaining ≤ cost s.gcSnapName1 + cost s.gcSnapName2 := by
  unfold handleSendGcSnapRemove
  split
  · exact Nat.zero_le _
  · exact remaining_sendGcSnapRemove s

/-- What is left after the call of the cache. -/
theorem remaining_handleSendGcRollback (image : Image) (numObjs : Nat) (plugin : Option Int)
    (s : State) :
    (handleSendGcRollback image numObjs plugin s).remaining ≤ 2 := by
  have hafter (mgrRet : Int) (s : State) : (afterRollback mgrRet s).remaining ≤ 2 := by
    unfold afterRollback
    split
    · exact remaining_sendGcSnapRemove_le _
    · exact Nat.zero_le 2
  unfold handleSendGcRollback
  split
  · split
    · exact hafter _ _
    · exact hafter _ _
  · exact Nat.zero_le 2

/-- Every step brings a request closer to its end. -/
theorem remaining_lt (h : Inv image table s) (hstep : step image s event = some t) :
    t.remaining < s.remaining := by
  cases event with
  | begin plugin =>
      simp only [step] at hstep
      split at hstep
      · rename_i hphase
        cases hstep
        cases plugin with
        | none => simp [State.remaining, sendGcSnapCreate, hphase]
        | some plugin =>
            simp only [State.remaining, sendGcSnapCreate, if_true, hphase]
            split <;> omega
      · cases hstep
  | created result snapId plugin =>
      simp only [step] at hstep
      split at hstep
      · rename_i name hphase
        cases hstep
        have hle := remaining_handleSendGcSnapCreate image result plugin
          { s.told result with snapIds := withSnap s.snapIds name snapId }
        refine Nat.lt_of_le_of_lt hle ?_
        simp only [State.remaining, hphase, (names_told s result).2]
        split <;> omega
      · cases hstep
  | removed result gone =>
      simp only [step] at hstep
      split at hstep
      · rename_i name snapId hphase
        cases hstep
        simp only [Inv, hphase] at h
        have hle := remaining_handleSendGcSnapRemove result { s.told result with
          snapIds := if gone then Function.update s.snapIds name none else s.snapIds }
        refine Nat.lt_of_le_of_lt hle ?_
        simp only [State.remaining, hphase, (names_told s result).1, (names_told s result).2,
          h.field, cost]
        by_cases hname2 : s.gcSnapName2 = [] <;> simp [hname2]
      · cases hstep
  | rollback numObjs plugin =>
      simp only [step] at hstep
      split at hstep
      · rename_i hphase
        cases hstep
        have hle := remaining_handleSendGcRollback image numObjs plugin s
        refine Nat.lt_of_le_of_lt hle ?_
        simp [State.remaining, hphase]
      · cases hstep

/-- Every request comes to its end, whatever the results it is told: with the first error it was
told, or handed over to `send_refresh_object_map` after exactly one call that the cache accepted;
the assertion on the two ids never fails. -/
theorem rollback_ends (image : Image) (table : Bytes → Option Nat) :
    Leads (step image) (Honest image) (Ended image table) (start table) := by
  refine Leads.of_measure (Sound image table) State.remaining ?_ ?_ (.inl rfl)
  · intro s event t hs hhonest hstep
    refine ⟨hs.step hhonest hstep, ?_⟩
    rcases hs with hinv | hleft
    · exact remaining_lt hinv hstep
    · rw [hleft.step_none event] at hstep
      cases hstep
  · intro s hs hgoal
    rcases hs with hinv | hleft
    · cases hphase : s.phase with
      | start =>
          refine ⟨.begin none, _, ?_, by simp only [step, hphase]; rfl⟩
          intro extra timepoint hnone
          cases hnone
      | creating name =>
          refine ⟨.created (-1) none none, _, ⟨by simp, ?_⟩, by simp only [step, hphase]; rfl⟩
          intro extra timepoint hnone
          cases hnone
      | queued => exact ⟨.rollback 0 none, _, trivial, by simp only [step, hphase]; rfl⟩
      | removing name snapId =>
          refine ⟨.removed (-1) false, _, ?_, by simp only [step, hphase]; rfl⟩
          intro hle
          omega
      | refreshing =>
          simp only [Inv, hphase] at hinv
          exact absurd (.inr ⟨hphase, hinv⟩) hgoal
      | completed result =>
          simp only [Inv, hphase] at hinv
          exact absurd (.inl ⟨result, hphase, hinv.1, hinv.2.1, hinv.2.2.1⟩) hgoal
      | asserted =>
          simp only [Inv, hphase] at hinv
    · obtain ⟨result, hphase, hneg, hfirst⟩ := hleft.completed
      exact absurd (.inl ⟨result, hphase, hneg, hfirst, hleft.calls⟩) hgoal

/-- After a run of careful steps the image of a request that failed has exactly the snapshots it
had; one careless step ends the request and leaves a temporary snapshot that nobody removes. -/
theorem rollback_leftovers
    (h : Reach (step image) (fun s event => Honest image s event ∧ Careful s event)
      (start table) s)
    (hhonest : Honest image s event) (hstep : step image s event = some t) :
    (Careful s event → ∀ result, t.phase = .completed result → t.snapIds = table) ∧
      (¬Careful s event → Leftover table t) := by
  have hstart : Inv image table (start table) := rfl
  have hinv : Inv image table s :=
    Reach.invariant (Inv image table) hstart
      (fun s event t hs hok hstep => (hs.step hok.1 hstep).1 hok.2) h
  obtain ⟨hcareful, hcareless⟩ := hinv.step hhonest hstep
  refine ⟨fun hc result hphase => ?_, hcareless⟩
  have ht := hcareful hc
  simp only [Inv, hphase] at ht
  exact ht.2.2.2

/-- An image without snapshots, to be returned to a snapshot with id 4. -/
def smallImage : Image := ⟨1, 2, ascii "a1", 4⟩

/-- The state after the first temporary snapshot was asked for. -/
def firstAsked : State := sendGcSnapCreate smallImage 1 (some (7, 100)) (start fun _ => none)

/-- The state when it was made and the plugin is gone. -/
def pluginLost : State :=
  handleSendGcSnapCreate smallImage 0 none
    { firstAsked with
      snapIds := withSnap firstAsked.snapIds (genRandomGcSnap 7 100 4 1) (some 5) }

/-- Without the plugin for the second name the first snapshot stays. -/
theorem rollback_leftovers_pluginLost : Leftover (fun _ => none) pluginLost := by
  have hbegin : Honest smallImage (start fun _ => none) (.begin (some (7, 100))) :=
    fun _ _ _ => rfl
  have hreach : Reach (step smallImage)
      (fun s event => Honest smallImage s event ∧ Careful s event)
      (start fun _ => none) firstAsked :=
    .next .start ⟨hbegin, trivial⟩ rfl
  have hcreated : Honest smallImage firstAsked (.created 0 (some 5) none) :=
    ⟨fun _ => rfl, fun _ _ hnone => by cases hnone⟩
  have hcareless : ¬Careful firstAsked (.created 0 (some 5) none) := by
    intro hcareful
    have hplugin := hcareful (le_refl 0) rfl
    cases hplugin
  exact (rollback_leftovers hreach hcreated
    (rfl : step smallImage firstAsked (.created 0 (some 5) none) = some pluginLost)).2 hcareless

end GlobalCacheAdaptor.ClientAdaptor.SnapRollback
