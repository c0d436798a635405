import GlobalCacheAdaptor.ClientAdaptor.Objecter
import GlobalCacheAdaptor.ClientAdaptor.SnapRollback

/-!
# Creating and removing a snapshot of an accelerated image

`SnapshotCreateRequest` enters the snapshot into the header of the image and then tells the cache;
if the cache refuses, it takes the entry out of the header again and releases the id of the
snapshot. `create_all_or_nothing` says that a request leaves a whole snapshot or none, as long as
the header entry can be taken out, and `create_dangling` what is left where it cannot.

`snap_remove` asks the cache to remove a snapshot and polls the header until it is gone.
`snap_remove_returns_iff` says when it returns, and with what.
-/

namespace GlobalCacheAdaptor.ClientAdaptor.SnapRequests

open Lib
open SnapRollback (elibacc)

/-! ## `SnapshotCreateRequest` -/

/-- `-ESTALE`. -/
def estale : Int := -116

/-- What a request works on: the name of the snapshot, `check_acc()`, and `m_skip_gc`. -/
structure Request where
  snapName : Bytes
  acc : Bool
  skipGc : Bool := false

/-- What the request waits for: the states of the diagram in its header, and the allocation of the
fake id, which the diagram leaves out. -/
inductive Phase where
  | start
  | suspendRequests
  | appendOpEvent
  | allocateFakeSnapId
  | allocateSnapId
  | createSnap (snapId : Nat)
  | createObjectMap (snapId : Nat)
  | releaseSnap (snapId : Nat)
  | releaseSnapId (snapId : Nat)
  | completed (result : Int)
  | asserted
  deriving DecidableEq, Repr

/-- The snapshots in the header by name, those the cache was told of, the snapshot ids in use, and
the fields of the request. -/
structure State where
  header : Bytes → Option Nat
  gcSnaps : List Nat
  ids : List Nat
  fakeSnapId : Option Nat := none
  retVal : Int := 0
  phase : Phase := .start

/-- `save_result` keeps the first error. -/
def State.saveResult (s : State) (result : Int) : State :=
  if s.retVal = 0 ∧ result < 0 then { s with retVal := result } else s

/-- `send_add_snap_to_gc`, with what `add_snap_to_gc` returns if the plugin is loaded. -/
def sendAddSnapToGc (snapId : Nat) (mgr : Option Int) (s : State) : State :=
  let mgrRet := mgr.getD elibacc
  if mgrRet < 0 then { s.saveResult mgrRet with phase := .releaseSnap snapId }
  else { s with gcSnaps := snapId :: s.gcSnaps, phase := .createObjectMap snapId }

/-- `handle_create_snap`. -/
def handleCreateSnap (request : Request) (snapId : Nat) (result : Int) (mgr : Option Int)
    (s : State) : State :=
  if result = estale then { s with phase := .allocateSnapId }
  else if result < 0 then { s.saveResult result with phase := .releaseSnapId snapId }
  else
    let s := { s with header := Function.update s.header request.snapName (some snapId) }
    if request.acc ∧ ¬request.skipGc then sendAddSnapToGc snapId mgr s
    else { s with phase := .createObjectMap snapId }

/-- What the request is told next. -/
inductive Event where
  /-- `send_op`, on whether the plugin is loaded. -/
  | begin (plugin : Bool)
  | suspended (result : Int)
  | appended (result : Int)
  | fakeAllocated (result : Int) (snapId : Nat)
  | allocated (result : Int) (snapId : Nat)
  | created (result : Int) (mgr : Option Int)
  | objectMapCreated
  /-- The entry is out of the header, or is not. -/
  | snapReleased (gone : Bool)
  /-- The id is free again, or is not. -/
  | idReleased (gone : Bool)

/-- Go on to the next phase, or finish with an error. -/
def State.proceed (s : State) (result : Int) (next : Phase) : State :=
  if result < 0 then { s with phase := .completed result } else { s with phase := next }

/-- One step of the request. -/
def step (request : Request) (s : State) : Event → Option State
  | .begin plugin =>
      match s.phase with
      | .start =>
          some { s with phase := if plugin then .suspendRequests else .completed elibacc }
      | _ => none
  | .suspended result =>
      match s.phase with
      | .suspendRequests => some (s.proceed result .appendOpEvent)
      | _ => none
  | .appended result =>
      match s.phase with
      | .appendOpEvent => some (s.proceed result .allocateFakeSnapId)
      | _ => none
  | .fakeAllocated result snapId =>
      match s.phase with
      | .allocateFakeSnapId =>
          if result < 0 then some { s.saveResult result with phase := .completed result }
          else
            some { s with
              ids := snapId :: s.ids
              fakeSnapId := some snapId
              phase := .allocateSnapId }
      | _ => none
  | .allocated result snapId =>
      match s.phase with
      | .allocateSnapId =>
          if result < 0 then some { s with phase := .completed result }
          else some { s with ids := snapId :: s.ids, phase := .createSnap snapId }
      | _ => none
  | .created result mgr =>
      match s.phase with
      | .createSnap snapId => some (handleCreateSnap request snapId result mgr s)
      | _ => none
  | .objectMapCreated =>
      match s.phase with
      | .createObjectMap _ => some { s with phase := .completed 0 }
      | _ => none
  | .snapReleased gone =>
      match s.phase with
      | .releaseSnap snapId =>
          -- the result of the removal is overwritten with the first error
          if s.retVal < 0 then
            some { s with
              header := if gone then Function.update s.header request.snapName none else s.header
              phase := .releaseSnapId snapId }
          else some { s with phase := .asserted }
      | _ => none
  | .idReleased gone =>
      match s.phase with
      | .releaseSnapId snapId =>
          some { s with
            ids := if gone then s.ids.erase snapId else s.ids
            phase := .completed s.retVal }
      | _ => none

/-- An image with these snapshots, on which a request starts. -/
def start (header : Bytes → Option Nat) (gcSnaps ids : List Nat) : State :=
  { header, gcSnaps, ids }

/-- What Ceph promises: allocated ids are not in use, and a name is entered once. -/
def Honest (request : Request) (s : State) : Event → Prop
  | .fakeAllocated result snapId | .allocated result snapId => 0 ≤ result → snapId ∉ s.ids
  | .created result _ => 0 ≤ result → s.header request.snapName = none
  | _ => True

/-- Besides, the header entry of a refused snapshot can be taken out. -/
def Careful (request : Request) (s : State) : Event → Prop
  | .snapReleased gone => gone = true
  | event => Honest request s event

/-- What Ceph promises is a test of the ids in use and of the header. -/
instance (request : Request) (s : State) : ∀ event, Decidable (Honest request s event)
  | .fakeAllocated result snapId | .allocated result snapId =>
      inferInstanceAs (Decidable (0 ≤ result → snapId ∉ s.ids))
  | .created result _ =>
      inferInstanceAs (Decidable (0 ≤ result → s.header request.snapName = none))
  | .begin _ | .suspended _ | .appended _ | .objectMapCreated | .snapReleased _ | .idReleased _ =>
      inferInstanceAs (Decidable True)

/-- So is what a careful run admits. -/
instance (request : Request) (s : State) : ∀ event, Decidable (Careful request s event)
  | .snapReleased gone => inferInstanceAs (Decidable (gone = true))
  | .fakeAllocated result snapId =>
      inferInstanceAs (Decidable (Honest request s (.fakeAllocated result snapId)))
  | .allocated result snapId =>
      inferInstanceAs (Decidable (Honest request s (.allocated result snapId)))
  | .created result mgr => inferInstanceAs (Decidable (Honest request s (.created result mgr)))
  | .begin _ | .suspended _ | .appended _ | .objectMapCreated | .idReleased _ =>
      inferInstanceAs (Decidable True)

/-! ## A whole snapshot or none -/

section

variable {request : Request} {header : Bytes → Option Nat} {gcSnaps ids : List Nat}
variable {s t : State} {event : Event}

/-- The header with the snapshot in it. -/
def entered (request : Request) (header : Bytes → Option Nat) (snapId : Nat) :
    Bytes → Option Nat :=
  Function.update header request.snapName (some snapId)

/-- The snapshots the cache knows after a request that succeeds. -/
def toldGc (request : Request) (gcSnaps : List Nat) (snapId : Nat) : List Nat :=
  if request.acc ∧ ¬request.skipGc then snapId :: gcSnaps else gcSnaps

/-- The request has changed nothing that others see. -/
def Untouched (header : Bytes → Option Nat) (gcSnaps : List Nat) (s : State) : Prop :=
  s.header = header ∧ s.gcSnaps = gcSnaps

/-- The snapshot is in the header, its id is in use, and the cache knows it if it has to. -/
def Whole (request : Request) (header : Bytes → Option Nat) (gcSnaps : List Nat) (snapId : Nat)
    (s : State) : Prop :=
  s.header = entered request header snapId ∧ snapId ∈ s.ids ∧
    s.gcSnaps = toldGc request gcSnaps snapId

/-- The cache does not know the snapshot, and it is in the header only if `left` admits that an
entry was not taken out. -/
def Undone (left : Prop) (request : Request) (header : Bytes → Option Nat) (gcSnaps : List Nat)
    (s : State) : Prop :=
  s.gcSnaps = gcSnaps ∧
    (s.header = header ∨ left ∧ ∃ snapId, s.header = entered request header snapId)

/-- What holds in each phase. -/
def AtPhase (left : Prop) (request : Request) (header : Bytes → Option Nat) (gcSnaps : List Nat)
    (s : State) : Prop :=
  match s.phase with
  | .start | .suspendRequests | .appendOpEvent | .allocateFakeSnapId =>
      Untouched header gcSnaps s ∧ s.retVal = 0 ∧ s.fakeSnapId = none
  | .allocateSnapId => Untouched header gcSnaps s ∧ s.retVal = 0
  | .createSnap snapId =>
      Untouched header gcSnaps s ∧ s.retVal = 0 ∧ snapId ∈ s.ids ∧ s.fakeSnapId ≠ some snapId
  | .createObjectMap snapId => Whole request header gcSnaps snapId s
  | .releaseSnap snapId =>
      s.header = entered request header snapId ∧ header request.snapName = none ∧
        s.gcSnaps = gcSnaps ∧ s.retVal < 0 ∧ s.fakeSnapId ≠ some snapId
  | .releaseSnapId snapId =>
      Undone left request header gcSnaps s ∧ s.retVal < 0 ∧ s.fakeSnapId ≠ some snapId
  | .completed result =>
      (result = 0 ∧ ∃ snapId, Whole request header gcSnaps snapId s) ∨
        (result < 0 ∧ Undone left request header gcSnaps s)
  | .asserted => False

/-- The ids in use differ, and the fake id is one of them. -/
structure Inv (left : Prop) (request : Request) (header : Bytes → Option Nat)
    (gcSnaps : List Nat) (s : State) : Prop where
  nodup : s.ids.Nodup
  fake : ∀ snapId, s.fakeSnapId = some snapId → snapId ∈ s.ids
  phase : AtPhase left request header gcSnaps s

/-- An untouched image is undone. -/
theorem Untouched.undone {left : Prop} (h : Untouched header gcSnaps s) :
    Undone left request header gcSnaps s :=
  ⟨h.2, .inl h.1⟩

/-- A first error is recorded. -/
theorem saveResult_of_zero {result : Int} (hzero : s.retVal = 0) (hneg : result < 0) :
    s.saveResult result = { s with retVal := result } :=
  if_pos ⟨hzero, hneg⟩

/-- Going on or finishing with an error keeps an untouched image untouched. -/
theorem Inv.proceed {left : Prop} {result : Int} {next : Phase}
    (h : Inv left request header gcSnaps s) (huntouched : Untouched header gcSnaps s)
    (hnext : AtPhase left request header gcSnaps { s with phase := next }) :
    Inv left request header gcSnaps (s.proceed result next) := by
  unfold State.proceed
  split_ifs with hneg
  · exact ⟨h.nodup, h.fake, .inr ⟨hneg, huntouched.undone⟩⟩
  · exact ⟨h.nodup, h.fake, hnext⟩

/-- `handle_create_snap` enters the snapshot and tells the cache, or turns to undoing it. -/
theorem Inv.created {left : Prop} {snapId : Nat} {result : Int} {mgr : Option Int}
    (h : Inv left request header gcSnaps s) (hphase : s.phase = .createSnap snapId)
    (hfree : 0 ≤ result → s.header request.snapName = none) :
    Inv left request header gcSnaps (handleCreateSnap request snapId result mgr s) := by
  obtain ⟨hnodup, hfake, hat⟩ := h
  rw [AtPhase, hphase] at hat
  obtain ⟨⟨hheader, hgc⟩, hzero, hid, hne⟩ := hat
  unfold handleCreateSnap
  by_cases hestale : result = estale
  · rw [if_pos hestale]
    exact ⟨hnodup, hfake, ⟨hheader, hgc⟩, hzero⟩
  rw [if_neg hestale]
  by_cases hneg : result < 0
  · rw [if_pos hneg, saveResult_of_zero hzero hneg]
    exact ⟨hnodup, hfake, ⟨hgc, .inl hheader⟩, hneg, hne⟩
  rw [if_neg hneg]
  by_cases hacc : request.acc = true ∧ ¬request.skipGc = true
  · simp only [if_pos hacc, sendAddSnapToGc]
    by_cases hrefused : mgr.getD elibacc < 0
    · rw [if_pos hrefused, saveResult_of_zero (by exact hzero) hrefused]
      refine ⟨hnodup, hfake, ?_, ?_, hgc, hrefused, hne⟩
      · show Function.update s.header request.snapName (some snapId) = _
        rw [hheader, entered]
      · rw [← hheader]
        exact hfree (not_lt.mp hneg)
    · rw [if_neg hrefused]
      refine ⟨hnodup, hfake, ?_, hid, ?_⟩
      · show Function.update s.header request.snapName (some snapId) = _
        rw [hheader, entered]
      · show snapId :: s.gcSnaps = _
        rw [toldGc, if_pos hacc, hgc]
  · simp only [if_neg hacc]
    refine ⟨hnodup, hfake, ?_, hid, ?_⟩
    · show Function.update s.header request.snapName (some snapId) = _
      rw [hheader, entered]
    · show s.gcSnaps = _
      rw [toldGc, if_neg hacc, hgc]

/-- Taking the entry out of the header undoes the request, unless the entry stays. -/
theorem undone_of_released {left : Prop} {snapId : Nat} {gone : Bool}
    (hheader : s.header = entered request header snapId)
    (hnone : header request.snapName = none) (hleft : left ∨ gone = true) :
    (if gone then Function.update s.header request.snapName none else s.header) = header ∨
      left ∧ ∃ snapId, (if gone then Function.update s.header request.snapName none
        else s.header) = entered request header snapId := by
  cases gone with
  | true =>
      refine .inl ?_
      rw [if_pos rfl, hheader, entered, Function.update_idem, ← hnone, Function.update_eq_self]
  | false =>
      refine .inr ⟨hleft.resolve_right (by simp), snapId, ?_⟩
      rw [if_neg (by simp), hheader]

/-- Every step keeps the invariant. -/
theorem Inv.step {left : Prop} (h : Inv left request header gcSnaps s)
    (hhonest : Honest request s event)
    (hleft : ∀ gone, event = .snapReleased gone → left ∨ gone = true)
    (hstep : SnapRequests.step request s event = some t) : Inv left request header gcSnaps t := by
  have hat := h.phase
  cases event with
  | begin plugin =>
      simp only [SnapRequests.step] at hstep
      split at hstep
      · rename_i hphase
        cases hstep
        rw [AtPhase, hphase] at hat
        refine ⟨h.nodup, h.fake, ?_⟩
        cases plugin with
        | true => exact hat
        | false => exact .inr ⟨by decide, hat.1.undone⟩
      · cases hstep
  | suspended result =>
      simp only [SnapRequests.step] at hstep
      split at hstep
      · rename_i hphase
        cases hstep
        rw [AtPhase, hphase] at hat
        exact h.proceed hat.1 hat
      · cases hstep
  | appended result =>
      simp only [SnapRequests.step] at hstep
      split at hstep
      · rename_i hphase
        cases hstep
        rw [AtPhase, hphase] at hat
        exact h.proceed hat.1 hat
      · cases hstep
  | fakeAllocated result snapId =>
      simp only [SnapRequests.step] at hstep
      split at hstep
      · rename_i hphase
        rw [AtPhase, hphase] at hat
        obtain ⟨huntouched, hzero, hfake⟩ := hat
        by_cases hneg : result < 0
        · rw [if_pos hneg, saveResult_of_zero hzero hneg] at hstep
          cases hstep
          exact ⟨h.nodup, h.fake, .inr ⟨hneg, huntouched.undone⟩⟩
        · rw [if_neg hneg] at hstep
          cases hstep
          refine ⟨List.nodup_cons.mpr ⟨hhonest (not_lt.mp hneg), h.nodup⟩, ?_, huntouched, hzero⟩
          rintro _ ⟨⟩
          exact List.mem_cons_self
      · cases hstep
  | allocated result snapId =>
      simp only [SnapRequests.step] at hstep
      split at hstep
      · rename_i hphase
        rw [AtPhase, hphase] at hat
        obtain ⟨huntouched, hzero⟩ := hat
        by_cases hneg : result < 0
        · rw [if_pos hneg] at hstep
          cases hstep
          exact ⟨h.nodup, h.fake, .inr ⟨hneg, huntouched.undone⟩⟩
        · rw [if_neg hneg] at hstep
          cases hstep
          have hnew := hhonest (not_lt.mp hneg)
          refine ⟨List.nodup_cons.mpr ⟨hnew, h.nodup⟩,
            fun id hid => List.mem_cons_of_mem _ (h.fake id hid), huntouched, hzero,
            List.mem_cons_self, fun hfake => hnew (h.fake snapId hfake)⟩
      · cases hstep
  | created result mgr =>
      simp only [SnapRequests.step] at hstep
      split at hstep
      · rename_i snapId hphase
        cases hstep
        exact h.created hphase hhonest
      · cases hstep
  | objectMapCreated =>
      simp only [SnapRequests.step] at hstep
      split at hstep
      · rename_i snapId hphase
        cases hstep
        rw [AtPhase, hphase] at hat
        exact ⟨h.nodup, h.fake, .inl ⟨rfl, snapId, hat⟩⟩
      · cases hstep
  | snapReleased gone =>
      simp only [SnapRequests.step] at hstep
      split at hstep
      · rename_i snapId hphase
        rw [AtPhase, hphase] at hat
        obtain ⟨hheader, hnone, hgc, hret, hne⟩ := hat
        rw [if_pos hret] at hstep
        cases hstep
        exact ⟨h.nodup, h.fake,
          ⟨hgc, undone_of_released hheader hnone (hleft gone rfl)⟩, hret, hne⟩
      · cases hstep
  | idReleased gone =>
      simp only [SnapRequests.step] at hstep
      split at hstep
      · rename_i snapId hphase
        cases hstep
        rw [AtPhase, hphase] at hat
        obtain ⟨hundone, hret, hne⟩ := hat
        refine ⟨?_, fun id hid => ?_, .inr ⟨hret, hundone⟩⟩
        · show (if gone = true then s.ids.erase snapId else s.ids).Nodup
          split_ifs
          · exact h.nodup.erase _
          · exact h.nodup
        · show id ∈ (if gone = true then s.ids.erase snapId else s.ids)
          split_ifs
          · refine (List.mem_erase_of_ne ?_).mpr (h.fake id hid)
            rintro rfl
            exact hne hid
          · exact h.fake id hid
      · cases hstep

/-- A request on an image satisfies the invariant. -/
theorem inv_start {left : Prop} (hids : ids.Nodup) :
    Inv left request header gcSnaps (start header gcSnaps ids) :=
  ⟨hids, by simp [start], ⟨rfl, rfl⟩, rfl, rfl⟩

/-- In every run in which the header entry of a refused snapshot can be taken out, the request,
whenever it ends (the retries after `-ESTALE` have no bound), ends with a whole snapshot and result
0, or with an error and no trace of the snapshot in the header or the cache; the assertion on the
error never fails. The fake id stays in use. -/
theorem create_all_or_nothing (hids : ids.Nodup) :
    ∀ s, Reach (step request) (Careful request) (start header gcSnaps ids) s →
      s.phase ≠ .asserted ∧ (∀ snapId, s.fakeSnapId = some snapId → snapId ∈ s.ids) ∧
      ∀ result, s.phase = .completed result →
        (result = 0 ∧ ∃ snapId, Whole request header gcSnaps snapId s) ∨
          (result < 0 ∧ Untouched header gcSnaps s) := by
  intro s hs
  have h : Inv False request header gcSnaps s := by
    refine hs.invariant (Inv False request header gcSnaps) (inv_start hids) ?_
    intro s event t hinv hcareful hstep
    refine hinv.step ?_ ?_ hstep
    · cases event <;> first | exact hcareful | trivial
    · rintro gone rfl
      exact .inr hcareful
  have hat := h.phase
  refine ⟨fun hphase => ?_, h.fake, fun result hphase => ?_⟩
  · rw [AtPhase, hphase] at hat
    exact hat
  · rw [AtPhase, hphase] at hat
    refine hat.imp_right fun hfailed => ⟨hfailed.1, ?_⟩
    obtain ⟨-, hgc, hheader | ⟨hfalse, -⟩⟩ := hfailed
    · exact ⟨hheader, hgc⟩
    · exact hfalse.elim

/-- When the cache has refused a snapshot and its header entry stays, the request goes on to
release the id: it ends with an error, and the header lists a snapshot whose id is not in use and
that the cache does not know. -/
theorem create_dangling (hids : ids.Nodup)
    (hs : Reach (step request) (Honest request) (start header gcSnaps ids) s) {snapId : Nat}
    (hphase : s.phase = .releaseSnap snapId) :
    ∃ t u, step request s (.snapReleased false) = some t ∧
      step request t (.idReleased true) = some u ∧ u.phase = .completed s.retVal ∧
      s.retVal < 0 ∧ u.header request.snapName = some snapId ∧ snapId ∉ u.ids ∧
      u.gcSnaps = gcSnaps := by
  have h : Inv True request header gcSnaps s :=
    hs.invariant (Inv True request header gcSnaps) (inv_start hids)
      fun _ _ _ hinv hhonest hstep => hinv.step hhonest (fun _ _ => .inl trivial) hstep
  have hat := h.phase
  rw [AtPhase, hphase] at hat
  obtain ⟨hheader, -, hgc, hret, -⟩ := hat
  refine ⟨{ s with phase := .releaseSnapId snapId },
    { s with ids := s.ids.erase snapId, phase := .completed s.retVal }, ?_, rfl, rfl, hret, ?_, ?_,
    hgc⟩
  · simp [SnapRequests.step, hphase, hret]
  · show s.header request.snapName = some snapId
    rw [hheader, entered, Function.update_self]
  · exact h.nodup.not_mem_erase

end

/-- A request on an accelerated image. -/
def requestA : Request := { snapName := ascii "a", acc := true }

/-- An image without snapshots. -/
def emptyImage : State := start (fun _ => none) [] []

/-- The request enters snapshot 2, with the fake id 1, and the cache answers. -/
def upToGc (mgrRet : Int) : List Event :=
  [.begin true, .suspended 0, .appended 0, .fakeAllocated 0 1, .allocated 0 2,
    .created 0 (some mgrRet)]

/-- The state after these events. -/
def after (events : List Event) : State :=
  (run (step requestA) (Careful requestA) emptyImage events).getD emptyImage

/-- The cache takes the snapshot: the request ends with 0 and a whole snapshot. -/
theorem create_all_or_nothing_taken :
    (after (upToGc 0 ++ [.objectMapCreated])).phase = .completed 0 ∧
      ∃ snapId, Whole requestA (fun _ => none) [] snapId
        (after (upToGc 0 ++ [.objectMapCreated])) := by
  have hreach : Reach (step requestA) (Careful requestA) emptyImage
      (after (upToGc 0 ++ [.objectMapCreated])) :=
    Reach.of_run (upToGc 0 ++ [.objectMapCreated]) rfl
  obtain ⟨-, -, hend⟩ := create_all_or_nothing List.nodup_nil _ hreach
  obtain ⟨-, hwhole⟩ | ⟨hneg, -⟩ := hend 0 rfl
  · exact ⟨rfl, hwhole⟩
  · exact absurd hneg (by decide)

/-- The cache refuses the snapshot and its entry stays: the header lists snapshot 2, whose id is
free. -/
theorem create_dangling_refused :
    ∃ t u, step requestA (after (upToGc (-5))) (.snapReleased false) = some t ∧
      step requestA t (.idReleased true) = some u ∧ u.phase = .completed (-5) ∧
      u.header (ascii "a") = some 2 ∧ 2 ∉ u.ids := by
  have hcareful : Reach (step requestA) (Careful requestA) emptyImage (after (upToGc (-5))) :=
    Reach.of_run (upToGc (-5)) rfl
  have hhonest : Reach (step requestA) (Honest requestA) emptyImage (after (upToGc (-5))) :=
    hcareful.mono fun s event h => by cases event <;> first | exact h | trivial
  obtain ⟨t, u, ht, hu, hphase, -, hheader, hid, -⟩ :=
    create_dangling List.nodup_nil hhonest
      (show (after (upToGc (-5))).phase = .releaseSnap 2 from rfl)
  exact ⟨t, u, ht, hu, hphase, hheader, hid⟩

/-! ## `snap_remove` -/

/-- `-EBUSY`. -/
def ebusy : Int := -16

/-- `-EROFS`. -/
def erofs : Int := -30

/-- What one `snap_exists_with_refresh` meets: the result of the refresh, and whether the header
lists the snapshot then. -/
structure Refresh where
  ret : Int
  listed : Bool

/-- `snap_exists_with_refresh`; a refresh that fails leaves `exist` alone. -/
def snapExistsWithRefresh (refresh : Refresh) (exist : Bool) : Int × Bool :=
  if refresh.ret < 0 then (refresh.ret, exist) else (0, refresh.listed)

/-- The loop of `snap_remove` from refresh `n` on, in at most `fuel` rounds. -/
def pollRemoved (refreshes : Nat → Refresh) : Nat → Nat → Bool → Option Int
  | 0, _, _ => none
  | fuel + 1, n, exist =>
      match snapExistsWithRefresh (refreshes n) exist with
      | (mgrRet, exist) =>
          if exist then pollRemoved refreshes fuel (n + 1) exist else some mgrRet

/-- What `snap_remove` meets on an accelerated image. -/
structure RemoveEnv where
  isProtected : Bool
  operationsDisabled : Bool
  readOnly : Bool
  /-- `get_snap_id`, or none for `CEPH_NOSNAP`. -/
  snapId : Option Nat
  /-- `gc_snap_is_rollbacking` and `remove_snap_from_gc`, if the plugin is loaded. -/
  mgr : Option (Int × Int)
  refreshes : Nat → Refresh

/-- How `snap_remove` ends, and whether it asked the cache to remove the snapshot. -/
inductive Removal where
  | returned (ret : Int) (asked : Bool)
  | asserted
  deriving DecidableEq, Repr

/-- The accelerated branch of `snap_remove`; `none` when the fuel does not suffice. -/
def snapRemove (env : RemoveEnv) (fuel : Nat) : Option Removal :=
  if env.isProtected then some (.returned ebusy false)
  else if env.operationsDisabled ∨ env.readOnly then some (.returned erofs false)
  else
    match env.snapId, env.mgr with
    | none, _ => some .asserted
    | some _, none => some (.returned elibacc false)
    | some _, some (rollbacking, removed) =>
        if rollbacking < 0 then some (.returned rollbacking false)
        else if rollbacking = 1 then some (.returned eagain false)
        else if removed < 0 then some (.returned removed true)
        else (pollRemoved env.refreshes fuel 0 false).map (.returned · true)

/-- The refresh works and does not list the snapshot. -/
def Refresh.Gone (refresh : Refresh) : Prop := 0 ≤ refresh.ret ∧ refresh.listed = false

/-- The cache took the request to remove the snapshot. -/
def RemoveEnv.Accepted (env : RemoveEnv) : Prop :=
  env.isProtected = false ∧ env.operationsDisabled = false ∧ env.readOnly = false ∧
    env.snapId.isSome ∧ ∃ rollbacking removed, env.mgr = some (rollbacking, removed) ∧
      0 ≤ rollbacking ∧ rollbacking ≠ 1 ∧ 0 ≤ removed

variable {refreshes : Nat → Refresh} {ret : Int} {n : Nat} {exist : Bool}

/-- A round whose refresh fails goes on if the snapshot was listed before. -/
theorem pollRemoved_of_failed (h : (refreshes n).ret < 0) (fuel : Nat) :
    pollRemoved refreshes (fuel + 1) n exist =
      if exist then pollRemoved refreshes fuel (n + 1) true else some (refreshes n).ret := by
  cases exist <;> simp [pollRemoved, snapExistsWithRefresh, h]

/-- A round that does not find the snapshot listed is the last one. -/
theorem pollRemoved_of_gone (h : (refreshes n).Gone) (fuel : Nat) :
    pollRemoved refreshes (fuel + 1) n exist = some 0 := by
  simp [pollRemoved, snapExistsWithRefresh, not_lt.mpr h.1, h.2]

/-- A round that finds the snapshot listed goes on. -/
theorem pollRemoved_of_listed (h : 0 ≤ (refreshes n).ret) (hlisted : (refreshes n).listed = true)
    (fuel : Nat) :
    pollRemoved refreshes (fuel + 1) n exist = pollRemoved refreshes fuel (n + 1) true := by
  simp [pollRemoved, snapExistsWithRefresh, not_lt.mpr h, hlisted]

/-- A refresh fails, does not list the snapshot, or lists it. -/
theorem refresh_cases (refresh : Refresh) :
    refresh.ret < 0 ∨ refresh.Gone ∨ (0 ≤ refresh.ret ∧ refresh.listed = true) := by
  by_cases hneg : refresh.ret < 0
  · exact .inl hneg
  · cases hlisted : refresh.listed with
    | true => exact .inr (.inr ⟨not_lt.mp hneg, rfl⟩)
    | false => exact .inr (.inl ⟨not_lt.mp hneg, hlisted⟩)

/-- Once the snapshot was listed, the loop ends at the first refresh that does not list it, and
with 0. -/
theorem pollRemoved_listed_iff :
    (∃ fuel, pollRemoved refreshes fuel n true = some ret) ↔
      ret = 0 ∧ ∃ m, n ≤ m ∧ (refreshes m).Gone := by
  constructor
  · rintro ⟨fuel, h⟩
    induction fuel generalizing n with
    | zero => cases h
    | succ fuel ih =>
        obtain hneg | hgone | ⟨hpos, hlisted⟩ := refresh_cases (refreshes n)
        · rw [pollRemoved_of_failed hneg, if_pos rfl] at h
          obtain ⟨hret, m, hm, hgone⟩ := ih h
          exact ⟨hret, m, by omega, hgone⟩
        · rw [pollRemoved_of_gone hgone] at h
          exact ⟨(Option.some.inj h).symm, n, Nat.le_refl n, hgone⟩
        · rw [pollRemoved_of_listed hpos hlisted] at h
          obtain ⟨hret, m, hm, hgone⟩ := ih h
          exact ⟨hret, m, by omega, hgone⟩
  · rintro ⟨rfl, m, hm, hlast⟩
    -- by induction on the number of refreshes ahead of `m`
    induction hd : m - n generalizing n with
    | zero =>
        obtain rfl : n = m := by omega
        exact ⟨1, pollRemoved_of_gone hlast 0⟩
    | succ d ih =>
        obtain ⟨fuel, h⟩ := ih (n := n + 1) (by omega) (by omega)
        obtain hneg | hgone | ⟨hpos, hlisted⟩ := refresh_cases (refreshes n)
        · exact ⟨fuel + 1, by rw [pollRemoved_of_failed hneg, if_pos rfl, h]⟩
        · exact ⟨1, pollRemoved_of_gone hgone 0⟩
        · exact ⟨fuel + 1, by rw [pollRemoved_of_listed hpos hlisted, h]⟩

/-- The loop ends at once with the error of its first refresh, or with 0 at a refresh that works
and does not list the snapshot. -/
theorem pollRemoved_iff :
    (∃ fuel, pollRemoved refreshes fuel 0 false = some ret) ↔
      ((refreshes 0).ret < 0 ∧ ret = (refreshes 0).ret) ∨
        (ret = 0 ∧ 0 ≤ (refreshes 0).ret ∧ ∃ n, (refreshes n).Gone) := by
  have hshift (P : Option Int → Prop) (hzero : ¬P none) :
      (∃ fuel, P (pollRemoved refreshes fuel 0 false)) ↔
        ∃ fuel, P (pollRemoved refreshes (fuel + 1) 0 false) := by
    constructor
    · rintro ⟨fuel, h⟩
      cases fuel with
      | zero => exact absurd h hzero
      | succ fuel => exact ⟨fuel, h⟩
    · rintro ⟨fuel, h⟩
      exact ⟨fuel + 1, h⟩
  rw [hshift (· = some ret) (by simp)]
  obtain hneg | hgone | ⟨hpos, hlisted⟩ := refresh_cases (refreshes 0)
  · simp only [pollRemoved_of_failed hneg, Bool.false_eq_true, if_false, Option.some.injEq,
      exists_const]
    exact ⟨fun h => .inl ⟨hneg, h.symm⟩, fun h => h.elim (·.2.symm) fun h => by omega⟩
  · simp only [pollRemoved_of_gone hgone, Option.some.injEq, exists_const]
    refine ⟨fun h => .inr ⟨h.symm, hgone.1, 0, hgone⟩, fun h => ?_⟩
    exact h.elim (fun h => absurd hgone.1 (not_le.mpr h.1)) (·.1.symm)
  · simp only [pollRemoved_of_listed hpos hlisted, pollRemoved_listed_iff]
    constructor
    · rintro ⟨hret, m, -, hgone⟩
      exact .inr ⟨hret, hpos, m, hgone⟩
    · rintro (⟨hneg, -⟩ | ⟨hret, -, m, hgone⟩)
      · omega
      · refine ⟨hret, m, ?_, hgone⟩
        rcases Nat.eq_zero_or_pos m with rfl | hm
        · rw [hgone.2] at hlisted
          cases hlisted
        · omega

variable {env : RemoveEnv}

/-- With the request taken by the cache, `snap_remove` is its loop. -/
theorem snapRemove_of_accepted (h : env.Accepted) (fuel : Nat) :
    snapRemove env fuel =
      (pollRemoved env.refreshes fuel 0 false).map (.returned · true) := by
  obtain ⟨hprotected, hdisabled, hreadOnly, hsome, rollbacking, removed, hmgr, hpos, hne,
    htaken⟩ := h
  obtain ⟨snapId, hid⟩ := Option.isSome_iff_exists.mp hsome
  unfold snapRemove
  rw [hprotected, hdisabled, hreadOnly, hid, hmgr]
  simp [not_lt.mpr hpos, hne, not_lt.mpr htaken]

/-- Otherwise it ends without a look at the header, and not with 0. -/
theorem snapRemove_of_not_accepted (h : ¬env.Accepted) :
    ∃ removal, (∀ fuel, snapRemove env fuel = some removal) ∧
      ∀ asked, removal ≠ .returned 0 asked := by
  unfold snapRemove
  by_cases hprotected : env.isProtected = true
  · exact ⟨_, fun _ => if_pos hprotected, by simp [ebusy]⟩
  by_cases hreadOnly : env.operationsDisabled = true ∨ env.readOnly = true
  · exact ⟨_, fun _ => by rw [if_neg hprotected, if_pos hreadOnly], by simp [erofs]⟩
  simp only [if_neg hprotected, if_neg hreadOnly]
  cases hid : env.snapId with
  | none => exact ⟨_, fun _ => rfl, by simp⟩
  | some snapId =>
      cases hmgr : env.mgr with
      | none => exact ⟨_, fun _ => rfl, by simp [elibacc]⟩
      | some results =>
          obtain ⟨rollbacking, removed⟩ := results
          dsimp only
          by_cases hneg : rollbacking < 0
          · refine ⟨_, fun _ => if_pos hneg, ?_⟩
            rintro asked heq
            cases heq
            omega
          by_cases hone : rollbacking = 1
          · refine ⟨_, fun _ => by rw [if_neg hneg, if_pos hone], ?_⟩
            simp [eagain]
          by_cases hrefused : removed < 0
          · refine ⟨_, fun _ => by rw [if_neg hneg, if_neg hone, if_pos hrefused], ?_⟩
            rintro asked heq
            cases heq
            omega
          · simp only [not_or, Bool.not_eq_true] at hprotected hreadOnly
            exact absurd ⟨hprotected, hreadOnly.1, hreadOnly.2, by simp [hid], rollbacking,
              removed, hmgr, not_lt.mp hneg, hone, not_lt.mp hrefused⟩ h

/-- `snap_remove` returns 0 exactly if the cache takes the request, the first refresh works, and
some refresh works and does not list the snapshot any more. It never returns exactly if the cache
takes the request, the first refresh works, and every refresh fails or still lists the snapshot. -/
theorem snap_remove_returns_iff (env : RemoveEnv) :
    ((∃ fuel, snapRemove env fuel = some (.returned 0 true)) ↔
      env.Accepted ∧ 0 ≤ (env.refreshes 0).ret ∧ ∃ n, (env.refreshes n).Gone) ∧
    ((∀ fuel, snapRemove env fuel = none) ↔
      env.Accepted ∧ 0 ≤ (env.refreshes 0).ret ∧ ∀ n, ¬(env.refreshes n).Gone) := by
  by_cases haccepted : env.Accepted
  · simp only [snapRemove_of_accepted haccepted, haccepted, true_and, Option.map_eq_some_iff,
      Removal.returned.injEq, and_true, exists_eq_right, pollRemoved_iff, Option.map_eq_none_iff]
    constructor
    · constructor
      · rintro (⟨hneg, hret⟩ | h)
        · omega
        · exact h
      · exact fun h => .inr h
    · constructor
      · intro h
        have hnone : ∀ ret, ¬∃ fuel, pollRemoved env.refreshes fuel 0 false = some ret := by
          rintro ret ⟨fuel, hsome⟩
          rw [h fuel] at hsome
          cases hsome
        simp only [pollRemoved_iff, not_or] at hnone
        have hpos : 0 ≤ (env.refreshes 0).ret :=
          not_lt.mp fun hneg => (hnone _).1 ⟨hneg, rfl⟩
        exact ⟨hpos, fun n hgone => (hnone 0).2 ⟨rfl, hpos, n, hgone⟩⟩
      · rintro ⟨hpos, hnever⟩ fuel
        rw [Option.eq_none_iff_forall_ne_some]
        intro ret hsome
        rcases pollRemoved_iff.mp ⟨fuel, hsome⟩ with ⟨hneg, -⟩ | ⟨-, -, n, hgone⟩
        · omega
        · exact hnever n hgone
  · obtain ⟨removal, hends, hne⟩ := snapRemove_of_not_accepted haccepted
    refine ⟨iff_of_false ?_ fun h => haccepted h.1, iff_of_false ?_ fun h => haccepted h.1⟩
    · rintro ⟨fuel, h⟩
      rw [hends fuel] at h
      exact hne true (Option.some.inj h)
    · intro h
      have hzero := h 0
      rw [hends 0] at hzero
      cases hzero

/-- A removal whose second refresh fails after the first one still listed the snapshot. -/
def slowRemoval : RemoveEnv where
  isProtected := false
  operationsDisabled := false
  readOnly := false
  snapId := some 2
  mgr := some (0, 0)
  refreshes := fun n => if n = 0 then ⟨0, true⟩ else if n = 1 then ⟨-5, true⟩ else ⟨0, false⟩

/-- It returns 0 after the third refresh: the error in between is forgotten. -/
example : snapRemove slowRemoval 3 = some (.returned 0 true) := by decide

end GlobalCacheAdaptor.ClientAdaptor.SnapRequests
