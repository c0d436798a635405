import Mathlib.Algebra.BigOperators.Group.List.Basic
import Mathlib.Data.BitVec
import Mathlib.Tactic.Common

/-!
# Totals of weights over a list of parties

`total w xs` adds the weight of every party in `xs`. A step of one party replaces one list
element, so its effect on a total is the difference of two weights (`total_set`). These rules are
what a conservation law over an arbitrary interleaving needs: one equation for the party that
moves, nothing about the others.
-/

namespace GlobalCacheAdaptor.Lib

variable {α : Type*}

/-- The sum of the weights of all parties. -/
def total (w : α → Nat) (xs : List α) : Nat := (xs.map w).sum

@[simp] theorem total_nil (w : α → Nat) : total w [] = 0 := rfl

@[simp] theorem total_cons (w : α → Nat) (x : α) (xs : List α) :
    total w (x :: xs) = w x + total w xs := by
  simp [total]

@[simp] theorem total_append (w : α → Nat) (xs ys : List α) :
    total w (xs ++ ys) = total w xs + total w ys := by
  simp [total]

@[simp] theorem total_replicate (w : α → Nat) (n : Nat) (x : α) :
    total w (List.replicate n x) = n * w x := by
  simp [total]

/-- Replacing the party at `i` exchanges its old weight for its new one. -/
theorem total_set (w : α → Nat) {xs : List α} {i : Nat} {x : α} (h : xs[i]? = some x) (y : α) :
    total w (xs.set i y) + w x = total w xs + w y := by
  induction xs generalizing i with
  | nil => simp at h
  | cons z zs ih =>
      cases i with
      | zero =>
          simp only [List.getElem?_cons_zero, Option.some.injEq] at h
          simp only [List.set_cons_zero, total_cons, h]
          omega
      | succ i =>
          have hrest := ih (by simpa using h)
          simp only [List.set_cons_succ, total_cons]
          omega

/-- What holds of every party holds after one is replaced, if it holds of the new one. -/
theorem forall_getElem?_set {P : Nat → α → Prop} {xs : List α} {i : Nat} {y : α}
    (hxs : ∀ j x, xs[j]? = some x → P j x) (hy : P i y) :
    ∀ j x, (xs.set i y)[j]? = some x → P j x := by
  intro j x hx
  rw [List.getElem?_set] at hx
  split_ifs at hx with hij hlen
  · subst hij
    cases hx
    exact hy
  · exact hxs j x hx

/-- What holds of every element, and of a new one, holds of every element of the longer list. -/
theorem forall_getElem?_append {P : Nat → α → Prop} {xs : List α} {y : α}
    (hxs : ∀ j x, xs[j]? = some x → P j x) (hy : P xs.length y) :
    ∀ j x, (xs ++ [y])[j]? = some x → P j x := by
  intro j x hx
  rw [List.getElem?_append] at hx
  split_ifs at hx with hlt
  · exact hxs j x hx
  · obtain ⟨hj, rfl⟩ := List.getElem?_eq_some_iff.mp hx
    have hlast : j = xs.length := by
      simp only [List.length_cons, List.length_nil] at hj
      omega
    subst hlast
    simpa using hy

/-- A party's weight is part of the total. -/
theorem le_total (w : α → Nat) {xs : List α} {x : α} (h : x ∈ xs) : w x ≤ total w xs := by
  induction xs with
  | nil => simp at h
  | cons z zs ih =>
      rw [total_cons]
      rcases List.mem_cons.mp h with rfl | hz
      · omega
      · have := ih hz
        omega

/-- A total is zero exactly when every weight is. -/
theorem total_eq_zero_iff (w : α → Nat) (xs : List α) : total w xs = 0 ↔ ∀ x ∈ xs, w x = 0 := by
  induction xs with
  | nil => simp
  | cons z zs ih => rw [total_cons, Nat.add_eq_zero_iff, ih, List.forall_mem_cons]

/-- If only one party has weight, the total is its weight. -/
theorem total_eq_of_others_zero {w : α → Nat} {xs : List α} {i : Nat} {x : α}
    (hx : xs[i]? = some x) (hothers : ∀ j y, xs[j]? = some y → j ≠ i → w y = 0) :
    total w xs = w x := by
  induction xs generalizing i with
  | nil => simp at hx
  | cons z zs ih =>
      rw [total_cons]
      cases i with
      | zero =>
          have hrest : total w zs = 0 := by
            rw [total_eq_zero_iff]
            intro y hy
            obtain ⟨j, hj⟩ := List.mem_iff_getElem?.mp hy
            exact hothers (j + 1) y (by simpa using hj) (by simp)
          obtain rfl : z = x := by simpa using hx
          omega
      | succ i =>
          have hz : w z = 0 := hothers 0 z rfl (by simp)
          have hrest := ih (by simpa using hx) fun j y hj hne =>
            hothers (j + 1) y (by simpa using hj) (by simpa using hne)
          omega

/-- Totals are monotone in the weights of the parties present. -/
theorem total_le_total {v w : α → Nat} {xs : List α} (h : ∀ x ∈ xs, v x ≤ w x) :
    total v xs ≤ total w xs := by
  induction xs with
  | nil => simp
  | cons z zs ih =>
      simp only [total_cons]
      have hz := h z (by simp)
      have hzs := ih (fun x hx => h x (by simp [hx]))
      omega

/-- Totals depend only on the weights of the parties present. -/
theorem total_congr {v w : α → Nat} {xs : List α} (h : ∀ x ∈ xs, v x = w x) :
    total v xs = total w xs :=
  Nat.le_antisymm (total_le_total fun x hx => (h x hx).le)
    (total_le_total fun x hx => (h x hx).ge)

/-- A total over an image is a total of the weights of the images. -/
theorem total_map {β : Type*} (w : β → Nat) (f : α → β) (xs : List α) :
    total w (xs.map f) = total (fun x => w (f x)) xs := by
  simp [total, Function.comp_def]

/-- A total over a concatenation is a total of totals. -/
theorem total_flatMap {β : Type*} (w : β → Nat) (f : α → List β) (xs : List α) :
    total w (xs.flatMap f) = total (fun x => total w (f x)) xs := by
  induction xs with
  | nil => rfl
  | cons z zs ih => rw [List.flatMap_cons, total_append, total_cons, ih]

/-- Erasing a party takes its weight away. -/
theorem total_eraseIdx (w : α → Nat) {xs : List α} {i : Nat} {x : α} (h : xs[i]? = some x) :
    total w (xs.eraseIdx i) + w x = total w xs := by
  induction xs generalizing i with
  | nil => simp at h
  | cons z zs ih =>
      cases i with
      | zero =>
          simp only [List.getElem?_cons_zero, Option.some.injEq] at h
          simp only [List.eraseIdx_cons_zero, total_cons, h]
          omega
      | succ i =>
          have hrest := ih (by simpa using h)
          simp only [List.eraseIdx_cons_succ, total_cons]
          omega

/-- The weight that counts the occurrences of one value. -/
def single [DecidableEq α] (a : α) : α → Nat := fun x => if x = a then 1 else 0

@[simp] theorem single_self [DecidableEq α] (a : α) : single a a = 1 := if_pos rfl

theorem single_of_ne [DecidableEq α] {a x : α} (h : x ≠ a) : single a x = 0 := if_neg h

/-- With indicator weights a total is a count. -/
theorem total_indicator (p : α → Bool) (xs : List α) :
    total (fun x => if p x then 1 else 0) xs = xs.countP p := by
  induction xs with
  | nil => rfl
  | cons z zs ih =>
      rw [total_cons, List.countP_cons, ih]
      omega

/-- The total of the weight of one value counts its occurrences. -/
theorem total_single_eq_count [DecidableEq α] (a : α) (xs : List α) :
    total (single a) xs = xs.count a := by
  rw [List.count, ← total_indicator]
  exact total_congr fun x _ => by simp [single]

/-- A list in which every value occurs at most once has no duplicates. -/
theorem nodup_of_total_single_le_one [DecidableEq α] {xs : List α}
    (h : ∀ a, total (single a) xs ≤ 1) : xs.Nodup := by
  refine List.nodup_iff_count_le_one.mpr fun a => ?_
  rw [← total_single_eq_count]
  exact h a

/-- A word that represents `n` represents `m` after adding `c`, when `m` is `n + c`. -/
theorem ofNat_add_of_eq {b : Nat} {n m : Nat} (c : BitVec b) (h : m = n + c.toNat) :
    BitVec.ofNat b n + c = BitVec.ofNat b m := by
  subst h
  simp [BitVec.ofNat_add]

/-- A word that represents `n` represents `m` after subtracting `c`, when `m + c` is `n`. -/
theorem ofNat_sub_of_eq {b : Nat} {n m : Nat} (c : BitVec b) (h : m + c.toNat = n) :
    BitVec.ofNat b n - c = BitVec.ofNat b m := by
  subst h
  simp [BitVec.ofNat_add]

end GlobalCacheAdaptor.Lib
