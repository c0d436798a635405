import GlobalCacheAdaptor.Lib.Wire

/-!
# The reply to a snapshot listing

`EncodeListSnaps` walks the clones of an object by index: all elements but the last are clones, and
the last one is the head. The bounds are computed in 32 bits, so without an element the walk has
2^32 - 1 rounds over an empty array. `listsSnaps_iff` says that this is the only input on which it
goes wrong.
-/

namespace GlobalCacheAdaptor.ServerAdaptor

open Lib

/-! ## The data -/

/-- `CloneInfo`; the arrays have the lengths stated. -/
structure CloneInfo where
  cloneid : BitVec 32
  objSize : BitVec 32
  snapNum : BitVec 32
  snaps : List (BitVec 32)
  overlapNum : BitVec 32
  overlaps : List (BitVec 32 × BitVec 32)
  snaps_length : snaps.length = snapNum.toNat
  overlaps_length : overlaps.length = overlapNum.toNat

/-- `ObjSnaps`; the array has the length stated. -/
structure ObjSnaps where
  seq : BitVec 32
  cloneInfoNum : BitVec 32
  cloneInfos : List CloneInfo
  cloneInfos_length : cloneInfos.length = cloneInfoNum.toNat

/-- `clone_info`. -/
structure ListedClone where
  cloneid : BitVec 64
  snaps : List (BitVec 64) := []
  overlap : List (BitVec 64 × BitVec 64) := []
  size : BitVec 64

/-- `obj_list_snap_response_t`. -/
structure ObjListSnapResponse where
  clones : List ListedClone
  seq : BitVec 64

/-! ## `EncodeListSnaps` -/

/-- `for (; j < bound; j++)` with `left` rounds to go, appending to a list; `none` is a read past
the end of an array, after which nothing is known. -/
def readLoop {β : Type} (read : Nat → Option β) : (left j : Nat) → Option (List β)
  | 0, _ => some []
  | left + 1, j =>
      match read j with
      | none => none
      | some b => (readLoop read left (j + 1)).map (b :: ·)

/-- One round of the walk: the clone with its snapshots and overlaps. -/
def readClone (CI : CloneInfo) : Option ListedClone := do
  let snaps ← readLoop (fun si => CI.snaps[si]?.map (·.setWidth 64)) CI.snapNum.toNat 0
  let overlap ← readLoop
    (fun oi => CI.overlaps[oi]?.map fun o => (o.1.setWidth 64, o.2.setWidth 64))
    CI.overlapNum.toNat 0
  pure { cloneid := CI.cloneid.setWidth 64, snaps, overlap, size := CI.objSize.setWidth 64 }

/-- The `seq` of the response: the id of the last clone. -/
def readSeq (objSnaps : ObjSnaps) : Option (BitVec 64) :=
  if 2 ≤ objSnaps.cloneInfoNum.toNat then
    objSnaps.cloneInfos[(objSnaps.cloneInfoNum - 2).toNat]?.map (·.cloneid.setWidth 64)
  else some 0

/-- The response that `EncodeListSnaps` builds. -/
def listSnapsResponse (objSnaps : ObjSnaps) : Option ObjListSnapResponse := do
  let seq ← readSeq objSnaps
  -- without an element this bound is 2^32 - 1
  let clones ← readLoop (fun j => objSnaps.cloneInfos[j]?.bind readClone)
    (objSnaps.cloneInfoNum - 1).toNat 0
  let head ← objSnaps.cloneInfos[(objSnaps.cloneInfoNum - 1).toNat]?
  pure { clones := clones ++ [{ cloneid := -2, size := head.objSize.setWidth 64 }], seq }

/-- `EncodeListSnaps`, with Ceph's encoding of the response. -/
def encodeListSnaps (encode : ObjListSnapResponse → Bytes) (objSnaps : ObjSnaps)
    (outdata : Bytes) : Option Bytes :=
  (listSnapsResponse objSnaps).map fun resp => outdata ++ encode resp

/-! ## What is listed -/

/-- A clone as a client should see it. -/
def CloneInfo.listed (CI : CloneInfo) : ListedClone where
  cloneid := CI.cloneid.setWidth 64
  snaps := CI.snaps.map (·.setWidth 64)
  overlap := CI.overlaps.map fun o => (o.1.setWidth 64, o.2.setWidth 64)
  size := CI.objSize.setWidth 64

/-- The head, with the size of the last element. -/
def CloneInfo.listedHead (CI : CloneInfo) : ListedClone where
  cloneid := -2
  size := CI.objSize.setWidth 64

/-- The response lists all elements but the last as clones, then the head, and its `seq` is the id
of the last clone, or 0. -/
structure ObjListSnapResponse.Lists (resp : ObjListSnapResponse) (infos : List CloneInfo) :
    Prop where
  clones : resp.clones = infos.dropLast.map CloneInfo.listed ++
    infos.getLast?.toList.map CloneInfo.listedHead
  seq : resp.seq = infos.dropLast.getLast?.elim 0 fun CI => CI.cloneid.setWidth 64

/-- `EncodeListSnaps` reads nothing out of range and leaves the encoding of the right response. -/
def ListsSnaps (objSnaps : ObjSnaps) : Prop :=
  ∃ resp : ObjListSnapResponse, resp.Lists objSnaps.cloneInfos ∧
    ∀ encode outdata, encodeListSnaps encode objSnaps outdata = some (outdata ++ encode resp)

/-! ## The walk -/

/-- A walk over a part of an array reads that part. -/
theorem readLoop_eq {α β : Type} (xs : List α) {read : Nat → Option β} {f : α → β} {left : Nat}
    {j : Nat} (hread : ∀ i x, j ≤ i → i < j + left → xs[i]? = some x → read i = some (f x))
    (h : j + left ≤ xs.length) :
    readLoop read left j = some (((xs.drop j).take left).map f) := by
  induction left generalizing j with
  | zero => simp [readLoop]
  | succ left ih =>
      have hlt : j < xs.length := by omega
      have hx : read j = some (f xs[j]) :=
        hread j xs[j] le_rfl (by omega) (List.getElem?_eq_getElem hlt)
      have hrest : readLoop read left (j + 1) = some (((xs.drop (j + 1)).take left).map f) :=
        ih (fun i x hle hi => hread i x (by omega) (by omega)) (by omega)
      rw [readLoop, hx]
      simp only [hrest, Option.map_some]
      rw [List.drop_eq_getElem_cons hlt, List.take_succ_cons, List.map_cons]

/-- A walk over a whole array. -/
theorem readLoop_all {α β : Type} (xs : List α) (f : α → β) {bound : Nat}
    (h : bound = xs.length) :
    readLoop (fun i => xs[i]?.map f) bound 0 = some (xs.map f) := by
  have hloop : readLoop (fun i => xs[i]?.map f) bound 0 =
      some (((xs.drop 0).take bound).map f) := by
    refine readLoop_eq xs (fun i x _ _ hx => ?_) (by omega)
    rw [hx]
    rfl
  rw [hloop, List.drop_zero, List.take_of_length_le (by omega)]

/-- One round of the walk lists its clone. -/
theorem readClone_eq (CI : CloneInfo) : readClone CI = some CI.listed := by
  rw [readClone, readLoop_all _ _ CI.snaps_length.symm, readLoop_all _ _ CI.overlaps_length.symm]
  rfl

/-- With an element the response lists the clones and the head. -/
theorem listSnapsResponse_eq {objSnaps : ObjSnaps} {infos : List CloneInfo} {last : CloneInfo}
    (h : objSnaps.cloneInfos = infos ++ [last]) :
    listSnapsResponse objSnaps =
      some ⟨infos.map CloneInfo.listed ++ [last.listedHead],
        infos.getLast?.elim 0 fun CI => CI.cloneid.setWidth 64⟩ := by
  have hnum : objSnaps.cloneInfoNum.toNat = infos.length + 1 := by
    rw [← objSnaps.cloneInfos_length, h, List.length_append, List.length_singleton]
  have hlt := objSnaps.cloneInfoNum.isLt
  have hone : (objSnaps.cloneInfoNum - 1).toNat = infos.length := by
    bv_omega
  have hwalk : readLoop (fun j => (objSnaps.cloneInfos[j]?).bind readClone) infos.length 0 =
      some (infos.map CloneInfo.listed) := by
    have hloop : readLoop (fun j => ((infos ++ [last])[j]?).bind readClone) infos.length 0 =
        some ((((infos ++ [last]).drop 0).take infos.length).map CloneInfo.listed) := by
      refine readLoop_eq (infos ++ [last]) (fun i x _ _ hx => ?_) (by simp)
      rw [hx]
      exact readClone_eq x
    rw [h, hloop, List.drop_zero, List.take_left' rfl]
  have hhead : objSnaps.cloneInfos[infos.length]? = some last := by
    rw [h]
    exact List.getElem?_concat_length
  have hseq : readSeq objSnaps =
      some (infos.getLast?.elim 0 fun CI => CI.cloneid.setWidth 64) := by
    rw [readSeq]
    by_cases htwo : 2 ≤ objSnaps.cloneInfoNum.toNat
    · have hsub : (objSnaps.cloneInfoNum - 2).toNat = infos.length - 1 := by
        bv_omega
      have hinfos : infos.length - 1 < infos.length := by omega
      rw [if_pos htwo, hsub, h, List.getElem?_append_left hinfos,
        List.getElem?_eq_getElem hinfos, List.getLast?_eq_getElem?,
        List.getElem?_eq_getElem hinfos]
      rfl
    · obtain rfl : infos = [] := List.eq_nil_of_length_eq_zero (by omega)
      rw [if_neg htwo]
      rfl
  rw [listSnapsResponse]
  simp only [hone, hwalk, hhead, hseq]
  rfl

/-- Without an element the first round already reads past the end. -/
theorem listSnapsResponse_none {objSnaps : ObjSnaps} (h : objSnaps.cloneInfoNum = 0) :
    listSnapsResponse objSnaps = none := by
  have hempty : objSnaps.cloneInfos = [] :=
    List.eq_nil_of_length_eq_zero (by rw [objSnaps.cloneInfos_length, h]; rfl)
  have hwalk : readLoop (fun j => objSnaps.cloneInfos[j]?.bind readClone)
      (objSnaps.cloneInfoNum - 1).toNat 0 = none := by
    rw [h, hempty]
    rfl
  rw [listSnapsResponse]
  simp only [hwalk]
  cases readSeq objSnaps with
  | none => rfl
  | some seq => rfl

/-- `EncodeListSnaps` is right exactly if there is an element. -/
theorem listsSnaps_iff (objSnaps : ObjSnaps) : ListsSnaps objSnaps ↔ objSnaps.cloneInfoNum ≠ 0 := by
  constructor
  · intro h hzero
    obtain ⟨resp, -, hencode⟩ := h
    have hrun := hencode (fun _ => []) []
    rw [encodeListSnaps, listSnapsResponse_none hzero] at hrun
    cases hrun
  · intro h
    have hne : objSnaps.cloneInfos ≠ [] := by
      intro hempty
      apply h
      have hlength := objSnaps.cloneInfos_length
      rw [hempty] at hlength
      exact BitVec.eq_of_toNat_eq hlength.symm
    have hsplit := (List.dropLast_append_getLast hne).symm
    refine ⟨⟨objSnaps.cloneInfos.dropLast.map CloneInfo.listed ++
      [(objSnaps.cloneInfos.getLast hne).listedHead], _⟩, ⟨?_, rfl⟩, fun encode outdata => ?_⟩
    · rw [List.getLast?_eq_some_getLast hne]
      rfl
    · rw [encodeListSnaps, listSnapsResponse_eq hsplit]
      rfl

/-- An object without clones and without a head. -/
def noClones : ObjSnaps where
  seq := 0
  cloneInfoNum := 0
  cloneInfos := []
  cloneInfos_length := rfl

/-- Listing it reads past the end of its array. -/
theorem not_listsSnaps_noClones : ¬ ListsSnaps noClones := by
  intro h
  obtain ⟨resp, -, hencode⟩ := h
  have hnone : encodeListSnaps (fun _ => []) noClones [] = none := by rfl
  have hrun := hencode (fun _ => []) []
  rw [hnone] at hrun
  cases hrun

end GlobalCacheAdaptor.ServerAdaptor
