import Mathlib.Algebra.Order.BigOperators.Group.List
import Mathlib.Algebra.Order.Ring.Nat
import Mathlib.Data.List.Lex
import Mathlib.Tactic.Common
import Mathlib.Tactic.Ring

/-!
# Byte cursors and wire formats

A `Decoder` reads from the front of the remaining bytes and raises `BufferError` when it runs
past the end. A `Format` bundles a decoder with the encoder it inverts: `decode_iff` says the
decoder accepts exactly the encodings of valid values followed by anything. Formats compose
(`pair`, `list`, `counted`), so a decoder built from them never has to be unfolded: its accepted
inputs are read off the format (`Format.accepts_bind_iff`).
-/

namespace GlobalCacheAdaptor.Lib

/-- One byte. -/
abbrev Byte := Fin 256

/-- There are bytes, so that numbers can be written for them. -/
instance byte_neZero : NeZero 256 := ⟨by decide⟩

/-- A byte string, compared lexicographically by unsigned bytes. -/
abbrev Bytes := List Byte

/-- A C string: it has no zero byte. -/
def CString : Type := { name : Bytes // 0 ∉ name }

/-- The bytes of an ASCII text. -/
def ascii (text : String) : Bytes := text.toList.map fun c => Fin.ofNat 256 c.toNat

/-- The error a cursor raises: a read went past the last byte. -/
inductive BufferError where
  | endOfBuffer
  deriving DecidableEq, Repr

/-- A cursor program: the remaining bytes in, a value and the bytes after it out. -/
def Decoder (α : Type) : Type := Bytes → Except BufferError (α × Bytes)

namespace Decoder

variable {α β : Type}

/-- Return a value without reading. -/
protected def pure (a : α) : Decoder α := fun bs => .ok (a, bs)

/-- Read with `d`, then continue with what it read. -/
protected def bind (d : Decoder α) (f : α → Decoder β) : Decoder β := fun bs =>
  match d bs with
  | .ok (a, rest) => f a rest
  | .error e => .error e

instance : Monad Decoder where
  pure := Decoder.pure
  bind := Decoder.bind

/-- A sequence succeeds exactly when both parts do, the second on what the first left. -/
theorem bind_ok_iff {d : Decoder α} {f : α → Decoder β} {bs rest : Bytes} {b : β} :
    (d >>= f) bs = .ok (b, rest) ↔
      ∃ a middle, d bs = .ok (a, middle) ∧ f a middle = .ok (b, rest) := by
  show Decoder.bind d f bs = _ ↔ _
  unfold Decoder.bind
  cases d bs with
  | error e => simp
  | ok r => simp [Prod.ext_iff, and_assoc]

/-- A pure value reads nothing. -/
theorem pure_ok_iff {a b : α} {bs rest : Bytes} :
    (pure a : Decoder α) bs = .ok (b, rest) ↔ a = b ∧ bs = rest := by
  show Except.ok (a, bs) = _ ↔ _
  simp

/-- The decoder raises no error on `bs`. -/
def Accepts (d : Decoder α) (bs : Bytes) : Prop := ∃ r, d bs = .ok r

/-- A sequence raises no error exactly when its first part returns and the rest accepts what is
left. -/
theorem accepts_bind_iff {d : Decoder α} {f : α → Decoder β} {bs : Bytes} :
    (d >>= f).Accepts bs ↔ ∃ a middle, d bs = .ok (a, middle) ∧ (f a).Accepts middle := by
  constructor
  · intro h
    obtain ⟨⟨b, rest⟩, h⟩ := h
    obtain ⟨a, middle, hd, hf⟩ := bind_ok_iff.mp h
    exact ⟨a, middle, hd, (b, rest), hf⟩
  · intro h
    obtain ⟨a, middle, hd, ⟨b, rest⟩, hf⟩ := h
    exact ⟨(b, rest), bind_ok_iff.mpr ⟨a, middle, hd, hf⟩⟩

/-- A pure value raises no error. -/
theorem accepts_pure (a : α) (bs : Bytes) : (pure a : Decoder α).Accepts bs := ⟨(a, bs), rfl⟩

/-- Read `n` bytes. -/
def copy (n : Nat) : Decoder Bytes := fun bs =>
  if n ≤ bs.length then .ok (bs.take n, bs.drop n) else .error .endOfBuffer

/-- `copy n` succeeds exactly when `n` bytes remain, and returns them. -/
theorem copy_ok_iff {n : Nat} {bs a rest : Bytes} :
    copy n bs = .ok (a, rest) ↔ a.length = n ∧ bs = a ++ rest := by
  unfold copy
  split
  · rename_i h
    simp only [Except.ok.injEq, Prod.mk.injEq]
    constructor
    · intro h
      obtain ⟨rfl, rfl⟩ := h
      exact ⟨by simpa using h, (List.take_append_drop n bs).symm⟩
    · intro h
      obtain ⟨rfl, rfl⟩ := h
      simp
  · rename_i h
    simp only [reduceCtorEq, false_iff]
    intro h
    obtain ⟨rfl, rfl⟩ := h
    simp at h

/-- Reading `n` bytes first needs `n` bytes, and hands the others on. -/
theorem accepts_copy_bind_iff {n : Nat} {f : Bytes → Decoder β} {bs : Bytes} :
    (copy n >>= f).Accepts bs ↔ n ≤ bs.length ∧ (f (bs.take n)).Accepts (bs.drop n) := by
  rw [accepts_bind_iff]
  constructor
  · intro h
    obtain ⟨a, middle, hcopy, hf⟩ := h
    obtain ⟨rfl, rfl⟩ := copy_ok_iff.mp hcopy
    simpa using hf
  · intro h
    obtain ⟨hle, hf⟩ := h
    refine ⟨bs.take n, bs.drop n, ?_, hf⟩
    simp [copy, hle]

/-- Read up to `n` bytes into a destination that outlives the error: the bytes that were there,
and the remaining input unless the read went past the end. -/
def copyAvailable (n : Nat) (bs : Bytes) : Bytes × Option Bytes :=
  (bs.take n, if n ≤ bs.length then some (bs.drop n) else none)

/-- Skip `n` bytes. -/
def advance (n : Nat) : Decoder Unit := do
  let _ ← copy n
  pure ()

/-- `advance n` succeeds exactly when `n` bytes remain, and leaves the others. -/
theorem advance_ok_iff {n : Nat} {bs rest : Bytes} {u : Unit} :
    advance n bs = .ok (u, rest) ↔
      ∃ skipped : Bytes, skipped.length = n ∧ bs = skipped ++ rest := by
  unfold advance
  rw [bind_ok_iff]
  simp only [copy_ok_iff, pure_ok_iff, true_and]
  constructor
  · intro h
    obtain ⟨a, middle, ⟨hlen, rfl⟩, rfl⟩ := h
    exact ⟨a, hlen, rfl⟩
  · intro h
    obtain ⟨skipped, hlen, rfl⟩ := h
    exact ⟨skipped, rest, ⟨hlen, rfl⟩, rfl⟩

/-- Run a decoder `n` times. -/
def repeated (d : Decoder α) : Nat → Decoder (List α)
  | 0 => pure []
  | n + 1 => do
      let a ← d
      let as ← repeated d n
      pure (a :: as)

end Decoder

/-! ## Little-endian integers -/

/-- The natural number with the given little-endian bytes. -/
def leValue : Bytes → Nat
  | [] => 0
  | b :: bs => b.val + 256 * leValue bs

/-- The `w` little-endian bytes of `n`. -/
def leBytes : Nat → Nat → Bytes
  | 0, _ => []
  | w + 1, n => Fin.ofNat 256 n :: leBytes w (n / 256)

@[simp] theorem length_leBytes (w n : Nat) : (leBytes w n).length = w := by
  induction w generalizing n with
  | zero => rfl
  | succ w ih => simp [leBytes, ih]

/-- Reading back the bytes of a number below `256 ^ w` gives the number. -/
theorem leValue_leBytes {w n : Nat} (h : n < 256 ^ w) : leValue (leBytes w n) = n := by
  induction w generalizing n with
  | zero =>
      simp only [pow_zero, Nat.lt_one_iff] at h
      simp [leBytes, leValue, h]
  | succ w ih =>
      have hdiv : n / 256 < 256 ^ w := by
        rw [pow_succ] at h
        exact Nat.div_lt_of_lt_mul (by rwa [Nat.mul_comm] at h)
      simp only [leBytes, leValue, ih hdiv, Fin.val_ofNat]
      omega

/-- `w` bytes hold a number below `256 ^ w`. -/
theorem leValue_lt (bs : Bytes) : leValue bs < 256 ^ bs.length := by
  induction bs with
  | nil => simp [leValue]
  | cons b bs ih =>
      have hb := b.isLt
      simp only [leValue, List.length_cons, pow_succ]
      omega

/-- The bytes of the number read are the bytes that were read. -/
theorem leBytes_leValue (bs : Bytes) : leBytes bs.length (leValue bs) = bs := by
  induction bs with
  | nil => rfl
  | cons b bs ih =>
      have hb := b.isLt
      have hdiv : (b.val + 256 * leValue bs) / 256 = leValue bs := by omega
      simp only [List.length_cons, leBytes, leValue, hdiv, ih, List.cons.injEq, and_true]
      apply Fin.ext
      simp only [Fin.val_ofNat]
      omega

/-! ## Formats -/

/-- A wire format: the values it can carry, their encoding, and a decoder that accepts exactly
the encodings of valid values, each followed by arbitrary bytes. -/
structure Format (α : Type) where
  Valid : α → Prop
  encode : α → Bytes
  decode : Decoder α
  decode_iff : ∀ bs a rest, decode bs = .ok (a, rest) ↔ Valid a ∧ bs = encode a ++ rest

namespace Format

variable {α β : Type}

/-- The input starts with a complete encoding of a valid value. -/
def Starts (f : Format α) (bs : Bytes) : Prop := ∃ a rest, f.Valid a ∧ bs = f.encode a ++ rest

/-- Encodings are prefix-free: an input starts with at most one valid value. -/
theorem encode_unique (f : Format α) {a b : α} {rest rest' : Bytes} (ha : f.Valid a)
    (hb : f.Valid b) (h : f.encode a ++ rest = f.encode b ++ rest') : a = b ∧ rest = rest' := by
  have hda := (f.decode_iff _ a rest).mpr ⟨ha, rfl⟩
  have hdb := (f.decode_iff _ b rest').mpr ⟨hb, h⟩
  rw [hda] at hdb
  simpa using hdb

/-- Reading a value first needs a complete encoding of one. -/
theorem accepts_bind_iff (f : Format α) {k : α → Decoder β} {bs : Bytes} :
    (f.decode >>= k).Accepts bs ↔
      ∃ a rest, f.Valid a ∧ bs = f.encode a ++ rest ∧ (k a).Accepts rest := by
  rw [Decoder.accepts_bind_iff]
  constructor
  · intro h
    obtain ⟨a, rest, hd, hk⟩ := h
    obtain ⟨ha, rfl⟩ := (f.decode_iff _ _ _).mp hd
    exact ⟨a, rest, ha, rfl, hk⟩
  · intro h
    obtain ⟨a, rest, ha, rfl, hk⟩ := h
    exact ⟨a, rest, (f.decode_iff _ _ _).mpr ⟨ha, rfl⟩, hk⟩

/-- A little-endian integer of `w` bytes. -/
def le (w : Nat) : Format Nat where
  Valid n := n < 256 ^ w
  encode := leBytes w
  decode := do
    let bs ← Decoder.copy w
    pure (leValue bs)
  decode_iff bs n rest := by
    rw [Decoder.bind_ok_iff]
    simp only [Decoder.copy_ok_iff, Decoder.pure_ok_iff]
    constructor
    · intro h
      obtain ⟨raw, middle, ⟨rfl, rfl⟩, rfl, rfl⟩ := h
      exact ⟨leValue_lt raw, by rw [leBytes_leValue]⟩
    · intro h
      obtain ⟨hlt, rfl⟩ := h
      exact ⟨leBytes w n, rest, ⟨length_leBytes w n, rfl⟩, leValue_leBytes hlt, rfl⟩

/-- A 32-bit integer. -/
def u32 : Format Nat := le 4

/-- A 64-bit integer. -/
def u64 : Format Nat := le 8

/-- A byte string with a 32-bit length before it. -/
def string : Format Bytes where
  Valid s := s.length < 256 ^ 4
  encode s := leBytes 4 s.length ++ s
  decode := do
    let n ← u32.decode
    Decoder.copy n
  decode_iff bs s rest := by
    rw [Decoder.bind_ok_iff]
    simp only [u32.decode_iff, Decoder.copy_ok_iff]
    constructor
    · intro h
      obtain ⟨n, middle, ⟨hlt, rfl⟩, rfl, rfl⟩ := h
      exact ⟨hlt, by simp [u32, le]⟩
    · intro h
      obtain ⟨hlt, rfl⟩ := h
      exact ⟨s.length, s ++ rest, ⟨hlt, by simp [u32, le]⟩, rfl, rfl⟩

/-- Two values one after the other. -/
def pair (f : Format α) (g : Format β) : Format (α × β) where
  Valid p := f.Valid p.1 ∧ g.Valid p.2
  encode p := f.encode p.1 ++ g.encode p.2
  decode := do
    let a ← f.decode
    let b ← g.decode
    pure (a, b)
  decode_iff bs p rest := by
    rw [Decoder.bind_ok_iff]
    simp only [f.decode_iff, Decoder.bind_ok_iff, g.decode_iff, Decoder.pure_ok_iff]
    constructor
    · intro h
      obtain ⟨a, middle, ⟨ha, rfl⟩, b, last, ⟨hb, rfl⟩, rfl, rfl⟩ := h
      exact ⟨⟨ha, hb⟩, by simp⟩
    · intro h
      obtain ⟨⟨ha, hb⟩, rfl⟩ := h
      exact ⟨p.1, g.encode p.2 ++ rest, ⟨ha, by simp⟩, p.2, rest, ⟨hb, rfl⟩, rfl, rfl⟩

/-- An input starts with a pair when it starts with the first value and goes on with the
second. -/
theorem starts_pair_iff (f : Format α) (g : Format β) (bs : Bytes) :
    (f.pair g).Starts bs ↔ ∃ a rest, f.Valid a ∧ bs = f.encode a ++ rest ∧ g.Starts rest := by
  constructor
  · intro h
    obtain ⟨⟨a, b⟩, rest, ⟨ha, hb⟩, rfl⟩ := h
    exact ⟨a, g.encode b ++ rest, ha, by simp [pair], b, rest, hb, rfl⟩
  · intro h
    obtain ⟨a, _, ha, rfl, b, rest, hb, rfl⟩ := h
    exact ⟨(a, b), rest, ⟨ha, hb⟩, by simp [pair]⟩

/-- An input starts with a `w`-byte integer when it has `w` bytes. -/
theorem starts_le_iff (w : Nat) (bs : Bytes) : (le w).Starts bs ↔ w ≤ bs.length := by
  constructor
  · intro h
    obtain ⟨n, rest, _, rfl⟩ := h
    simp [le]
  · intro h
    refine ⟨leValue (bs.take w), bs.drop w, ?_, ?_⟩
    · have := leValue_lt (bs.take w)
      rwa [List.length_take_of_le h] at this
    · have := leBytes_leValue (bs.take w)
      rw [List.length_take_of_le h] at this
      simp [le, this]

/-- Running a format's decoder `n` times accepts exactly the concatenations of `n` encodings. -/
theorem repeated_iff (f : Format α) {n : Nat} {bs rest : Bytes} {as : List α} :
    Decoder.repeated f.decode n bs = .ok (as, rest) ↔
      as.length = n ∧ (∀ a ∈ as, f.Valid a) ∧ bs = as.flatMap f.encode ++ rest := by
  induction n generalizing bs rest as with
  | zero =>
      rw [Decoder.repeated, Decoder.pure_ok_iff]
      constructor
      · intro h
        obtain ⟨rfl, rfl⟩ := h
        simp
      · intro h
        obtain ⟨hlen, _, rfl⟩ := h
        simp [List.length_eq_zero_iff.mp hlen]
  | succ n ih =>
      simp only [Decoder.repeated, Decoder.bind_ok_iff, f.decode_iff, ih, Decoder.pure_ok_iff]
      constructor
      · intro h
        obtain ⟨a, middle, ⟨ha, rfl⟩, as', last, ⟨rfl, has, rfl⟩, rfl, rfl⟩ := h
        refine ⟨by simp, ?_, by simp⟩
        simpa using ⟨ha, has⟩
      · intro h
        obtain ⟨hlen, hvalid, rfl⟩ := h
        obtain ⟨a, as', rfl⟩ := List.exists_cons_of_length_eq_add_one hlen
        refine ⟨a, as'.flatMap f.encode ++ rest, ⟨hvalid a (by simp), by simp⟩, as', rest,
          ⟨by simpa using hlen, fun b hb => hvalid b (by simp [hb]), rfl⟩, rfl, rfl⟩

/-- A list with a 32-bit element count before it. -/
def counted (f : Format α) : Format (List α) where
  Valid as := as.length < 256 ^ 4 ∧ ∀ a ∈ as, f.Valid a
  encode as := leBytes 4 as.length ++ as.flatMap f.encode
  decode := do
    let n ← u32.decode
    Decoder.repeated f.decode n
  decode_iff bs as rest := by
    rw [Decoder.bind_ok_iff]
    simp only [u32.decode_iff, f.repeated_iff]
    constructor
    · intro h
      obtain ⟨n, middle, ⟨hlt, rfl⟩, rfl, hvalid, rfl⟩ := h
      exact ⟨⟨hlt, hvalid⟩, by simp [u32, le]⟩
    · intro h
      obtain ⟨⟨hlt, hvalid⟩, rfl⟩ := h
      exact ⟨as.length, as.flatMap f.encode ++ rest, ⟨hlt, by simp [u32, le]⟩, rfl, hvalid, rfl⟩

/-! ## Values that fit -/

/-- Every value whose encoding is shorter than 4 GiB is valid: the format loses no value to its
32-bit length fields. -/
def Sized (f : Format α) : Prop := ∀ a, (f.encode a).length < 256 ^ 4 → f.Valid a

/-- Strings are limited by their size only. -/
theorem sized_string : string.Sized := by
  intro s h
  show s.length < 256 ^ 4
  have hle : s.length ≤ (string.encode s).length := by simp [string]
  omega

/-- A pair is limited by its size only, if its parts are. -/
theorem Sized.pair {f : Format α} {g : Format β} (hf : f.Sized) (hg : g.Sized) :
    (f.pair g).Sized := by
  intro p h
  have hlen : (f.encode p.1).length + (g.encode p.2).length < 256 ^ 4 := by
    rw [← List.length_append]
    exact h
  exact ⟨hf p.1 (by omega), hg p.2 (by omega)⟩

/-- A counted list is limited by its size only, if its elements are and take at least a byte. -/
theorem Sized.counted {f : Format α} (hf : f.Sized) (hpos : ∀ a, 0 < (f.encode a).length) :
    f.counted.Sized := by
  intro as h
  have hlen : 4 + (as.flatMap f.encode).length < 256 ^ 4 := by
    simpa [Format.counted] using h
  rw [List.length_flatMap] at hlen
  have hcount : as.length ≤ (as.map fun a => (f.encode a).length).sum := by
    have hle := List.card_nsmul_le_sum (as.map fun a => (f.encode a).length) 1 (by
      intro n hn
      obtain ⟨a, -, rfl⟩ := List.mem_map.mp hn
      exact hpos a)
    simpa using hle
  refine ⟨by omega, ?_⟩
  intro a hmem
  have hle : (f.encode a).length ≤ (as.map fun a => (f.encode a).length).sum :=
    List.single_le_sum (fun _ _ => Nat.zero_le _) _ (List.mem_map_of_mem hmem)
  exact hf a (by omega)

end Format

end GlobalCacheAdaptor.Lib
