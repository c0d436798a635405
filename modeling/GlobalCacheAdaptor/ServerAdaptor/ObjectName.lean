import Mathlib.Data.List.TakeWhile
import GlobalCacheAdaptor.ServerAdaptor.SaDef

/-!
# Object names

`ProcessOpReq` cuts the object name at its dots and reads numbers from the last sections. The
C library functions it calls are modelled on a 64-bit `unsigned long` in the "C" locale, where
`strtoul` and `strtoull` agree.
-/

namespace GlobalCacheAdaptor.ServerAdaptor

open Lib

/-! ## C strings and numbers -/

/-- The code of an ASCII character. -/
def byteOf (c : Char) : Byte := Fin.ofNat 256 c.toNat

/-- `std::string::c_str` read as a C string: it ends at the first zero byte. -/
def cStr (name : Bytes) : Bytes := name.takeWhile (· ≠ 0)

/-- A text without zero bytes is its own C string. -/
theorem cStr_eq_self {name : Bytes} (h : 0 ∉ name) : cStr name = name := by
  refine List.takeWhile_eq_self_iff.mpr ?_
  intro b hb
  exact decide_eq_true fun h0 => h (h0 ▸ hb)

/-- The sections a `strtok_r` loop with delimiter `"."` returns: the nonempty runs between dots. -/
def strtok (name : Bytes) : List Bytes :=
  ((cStr name).splitOn (byteOf '.')).filter (· ≠ [])

/-- `isspace`: blank, tab, newline, vertical tab, form feed or carriage return. -/
def isSpace (c : Byte) : Bool := c = 32 || (9 ≤ c.val && c.val ≤ 13)

/-- The value of a digit in a base up to 36, or `none` for another byte. -/
def digitValue (c : Byte) : Option Nat :=
  if 48 ≤ c.val ∧ c.val ≤ 57 then some (c.val - 48)
  else if 97 ≤ c.val ∧ c.val ≤ 122 then some (c.val - 87)
  else if 65 ≤ c.val ∧ c.val ≤ 90 then some (c.val - 55)
  else none

/-- The leading digits of a text that are below the base. -/
def digits (base : Nat) : Bytes → List Nat
  | [] => []
  | c :: rest =>
      match digitValue c with
      | some d => if d < base then d :: digits base rest else []
      | none => []

/-- The optional sign in front of a number, and what follows it. -/
def readSign : Bytes → Bool × Bytes
  | [] => (false, [])
  | c :: rest =>
      if c = byteOf '-' then (true, rest)
      else if c = byteOf '+' then (false, rest)
      else (false, c :: rest)

/-- Drop the `0x` that base 16 allows in front of the digits. -/
def skipHexMark : Bytes → Bytes
  | c :: x :: rest =>
      if c = byteOf '0' ∧ (x = byteOf 'x' ∨ x = byteOf 'X') then rest else c :: x :: rest
  | text => text

/-- `strtoul(text, 0, base)`, also `strtoull`: leading blanks and a sign are skipped, the digits
are read up to the first other byte, and a value above `ULONG_MAX` is returned as `ULONG_MAX`. -/
def strtoul (base : Nat) (text : Bytes) : BitVec 64 :=
  let (negative, text) := readSign (text.dropWhile isSpace)
  let text := if base = 16 then skipHexMark text else text
  let value := (digits base text).foldl (fun acc d => acc * base + d) 0
  if 2 ^ 64 ≤ value then BitVec.allOnes 64
  else if negative then -BitVec.ofNat 64 value
  else BitVec.ofNat 64 value

/-! ## RBD data objects -/

/-- The first section is `rbd_data`. -/
def hasRbdMark (sections : List Bytes) : Bool := sections.head? = some (ascii "rbd_data")

/-- The section `k` places before the end of the name. -/
def sectionFromEnd (sections : List Bytes) (k : Nat) : Bytes :=
  sections.getD (sections.length - k) []

/-- The name starts like an RBD data object but has fewer than three sections. -/
def shortRbdName (name : Bytes) : Bool :=
  hasRbdMark (strtok name) && (strtok name).length < 3

/-- The pool number in an RBD data object name of more than three sections. -/
def poolSection (sections : List Bytes) : BitVec 64 := strtoul 10 (sectionFromEnd sections 3)

/-- The name is that of an RBD data object whose pool number does not fit 32 bits. -/
def poolOverflow (name : Bytes) : Bool :=
  hasRbdMark (strtok name) && 3 < (strtok name).length && 0 < poolSection (strtok name) >>> 32

/-- The cache key of an RBD data object, or `none` when its pool number overflows. -/
def rbdObjId (sections : List Bytes) : Option RbdObjid :=
  let imageId := ascii "1" ++ sectionFromEnd sections 2
  let objId : RbdObjid :=
    { head := strtoul 16 imageId
      seq := (strtoul 16 (sectionFromEnd sections 1)).setWidth 40
      version := saVersion
      format := formatUnspecifyMdDatePool
      poolId := 0
      reserve := 0 }
  if 3 < sections.length then
    let poolId := poolSection sections
    if 0 < poolId >>> 32 then none
    else some { objId with
      poolId := poolId.setWidth 32
      format := formatSpecifyMdDatePool }
  else some objId

/-- The key of a full-length RBD name is missing exactly when its pool number overflows. -/
theorem rbdObjId_eq_none_iff {name : Bytes} (hrbd : hasRbdMark (strtok name) = true) :
    rbdObjId (strtok name) = none ↔ poolOverflow name = true := by
  unfold rbdObjId poolOverflow
  by_cases hlen : 3 < (strtok name).length
  · by_cases hpool : 0 < poolSection (strtok name) >>> 32
    · simp only [hlen, hpool, hrbd, if_true, decide_true, Bool.and_self]
    · simp only [hlen, hpool, if_true, if_false, decide_false, Bool.and_false, reduceCtorEq]
  · simp [hlen]

/-- An oversized pool number only occurs in names that are long enough. -/
theorem not_short_of_poolOverflow {name : Bytes} (h : poolOverflow name = true) :
    shortRbdName name = false := by
  unfold poolOverflow at h
  unfold shortRbdName
  simp only [Bool.and_eq_true, decide_eq_true_eq] at h
  simp only [Bool.and_eq_false_iff, decide_eq_false_iff_not]
  omega

end GlobalCacheAdaptor.ServerAdaptor
