import Mathlib.Data.List.Range
import Mathlib.Tactic.Common
import Mathlib.Tactic.Ring

/-!
# Ranges cut at object boundaries

A linear range of bytes lies in numbered objects of one size. An `Extent` is a run of bytes
inside one object, and `Tiles` says that a list of extents covers a range from front to back.
`splitObjects` cuts a range greedily at the object boundaries, and `splitObjects_tiles` says its
pieces tile the range.
-/

namespace GlobalCacheAdaptor.Lib

/-- A run of bytes inside one object. -/
structure Extent where
  object : Nat
  offset : Nat
  length : Nat
  deriving DecidableEq, Repr

/-- The places of the bytes of an extent in the linear range. -/
def Extent.places (size : Nat) (extent : Extent) : List Nat :=
  List.range' (extent.object * size + extent.offset) extent.length

/-- The extents cover `len` bytes from `offset` in object `first` on: their objects are
consecutive, each is a nonempty run inside its object, and their bytes in order are the bytes of
the range in order. -/
structure Tiles (size first offset len : Nat) (extents : List Extent) : Prop where
  consecutive : extents.map Extent.object = List.range' first extents.length
  within : ∀ extent ∈ extents, 0 < extent.length ∧ extent.offset + extent.length ≤ size
  covers : extents.flatMap (Extent.places size) = List.range' (first * size + offset) len

variable {size : Nat}

/-- Nothing tiles the empty range. -/
theorem Tiles.nil (first offset : Nat) : Tiles size first offset 0 [] where
  consecutive := rfl
  within := by simp
  covers := rfl

/-- An extent in front of a tiling: it ends its object, or it ends the range. -/
theorem Tiles.cons {first offset length rest : Nat} {extents : List Extent}
    (hpos : 0 < length) (hfits : offset + length ≤ size)
    (hends : offset + length = size ∨ rest = 0) (htail : Tiles size (first + 1) 0 rest extents) :
    Tiles size first offset (length + rest) (⟨first, offset, length⟩ :: extents) where
  consecutive := by
    rw [List.map_cons, htail.consecutive, List.length_cons, List.range'_succ]
  within := by
    intro extent hmem
    obtain rfl | hmem := List.mem_cons.mp hmem
    · exact ⟨hpos, hfits⟩
    · exact htail.within extent hmem
  covers := by
    rw [List.flatMap_cons, htail.covers, Extent.places]
    obtain hfull | rfl := hends
    · have hnext : (first + 1) * size + 0 = first * size + offset + length := by
        rw [Nat.add_zero, Nat.succ_mul, ← hfull, Nat.add_assoc]
      rw [hnext, List.range'_append_1]
    · rw [List.range'_zero, List.append_nil, Nat.add_zero]

/-- Cut `left` bytes at the object boundaries. -/
def splitObjects (size object : Nat) (offset : Fin size) (left : Nat) : List Extent :=
  if left = 0 then []
  else
    let max := min (size - offset) left
    ⟨object, offset, max⟩ :: splitObjects size (object + 1) ⟨0, offset.pos⟩ (left - max)
termination_by left
decreasing_by
  have := offset.isLt
  omega

/-- An empty range has no pieces. -/
theorem splitObjects_zero (object : Nat) (offset : Fin size) :
    splitObjects size object offset 0 = [] := by
  rw [splitObjects.eq_def, if_pos rfl]

/-- The first piece of a nonempty range, and the cut of what is left. -/
theorem splitObjects_pos (object : Nat) (offset : Fin size) {left : Nat} (hleft : 0 < left) :
    splitObjects size object offset left =
      ⟨object, offset, min (size - offset) left⟩ ::
        splitObjects size (object + 1) ⟨0, offset.pos⟩ (left - min (size - offset) left) := by
  rw [splitObjects.eq_def, if_neg (by omega)]

/-- The pieces of a range tile it. -/
theorem splitObjects_tiles (object : Nat) (offset : Fin size) (left : Nat) :
    Tiles size object offset left (splitObjects size object offset left) := by
  induction left using Nat.strongRecOn generalizing object offset with
  | ind left ih =>
      obtain rfl | hleft := Nat.eq_zero_or_pos left
      · rw [splitObjects_zero]
        exact Tiles.nil object offset
      · have hlt := offset.isLt
        have hrest : left = min (size - offset) left + (left - min (size - offset) left) := by
          omega
        rw [splitObjects_pos object offset hleft]
        nth_rewrite 1 [hrest]
        exact Tiles.cons (by omega) (by omega) (by omega)
          (ih _ (by omega) (object + 1) ⟨0, offset.pos⟩)

/-- The objects of a tiling end with the object of the range's last byte. -/
theorem Tiles.object_le {first offset len : Nat} {extents : List Extent}
    (h : Tiles size first offset len extents) {extent : Extent} (hmem : extent ∈ extents) :
    extent.object ≤ (first * size + offset + len - 1) / size := by
  obtain ⟨hpos, hfits⟩ := h.within extent hmem
  have hplace : extent.object * size + extent.offset ∈ extents.flatMap (Extent.places size) := by
    refine List.mem_flatMap.mpr ⟨extent, hmem, ?_⟩
    rw [Extent.places, List.mem_range'_1]
    omega
  rw [h.covers, List.mem_range'_1] at hplace
  exact (Nat.le_div_iff_mul_le (by omega)).mpr (by omega)

end GlobalCacheAdaptor.Lib
