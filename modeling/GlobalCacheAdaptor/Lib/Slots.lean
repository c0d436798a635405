import Mathlib.Data.List.Basic
import Mathlib.Data.List.Induction
import Mathlib.Tactic.Common

/-!
# Slots

A slot is a piece of state that some steps of a sequence overwrite and the others leave. It holds
what the last of the writing steps left there (`eq_last`). Steps are told apart by their position,
so that a slot can hold something of the step that wrote it.
-/

namespace GlobalCacheAdaptor.Lib

variable {α β : Type*}

/-- The last step at which `p` holds, with its position. -/
def last? (p : Nat → α → Bool) (steps : List α) : Option (Nat × α) :=
  (steps.zipIdx.filterMap fun x => if p x.2 x.1 then some (x.2, x.1) else none).getLast?

/-- What one more step does to the last one. -/
theorem last?_concat (p : Nat → α → Bool) (steps : List α) (a : α) :
    last? p (steps ++ [a]) =
      if p steps.length a then some (steps.length, a) else last? p steps := by
  simp only [last?, List.zipIdx_append, List.filterMap_append, List.zipIdx_singleton, Nat.zero_add]
  by_cases h : p steps.length a
  · simp [h]
  · simp [h]

/-- A slot that the steps with `p` overwrite holds what the last of them left. -/
theorem eq_last (p : Nat → α → Bool) (slot : List α → β) (write : Nat → α → β)
    (hconcat : ∀ steps a, slot (steps ++ [a]) =
      if p steps.length a then write steps.length a else slot steps) (steps : List α) :
    slot steps = (last? p steps).elim (slot []) fun x => write x.1 x.2 := by
  induction steps using List.reverseRecOn with
  | nil => rfl
  | append_singleton steps a ih =>
      rw [hconcat, last?_concat]
      by_cases h : p steps.length a
      · rw [if_pos h, if_pos h]
        rfl
      · rw [if_neg h, if_neg h, ih]

/-- The steps of a sequence with one more step. -/
theorem getElem?_concat_eq_some_iff {steps : List α} {a b : α} {i : Nat} :
    (steps ++ [a])[i]? = some b ↔ steps[i]? = some b ∨ i = steps.length ∧ a = b := by
  by_cases hlt : i < steps.length
  · rw [List.getElem?_append_left hlt]
    simp [Nat.ne_of_lt hlt]
  · rw [List.getElem?_append_right (Nat.le_of_not_lt hlt), List.getElem?_singleton,
      List.getElem?_eq_none (Nat.le_of_not_lt hlt)]
    by_cases heq : i = steps.length
    · simp [heq]
    · simp [heq, show i - steps.length ≠ 0 from by omega]

/-- There is no last step with `p` exactly when no step has it. -/
theorem last?_eq_none_iff {p : Nat → α → Bool} {steps : List α} :
    last? p steps = none ↔ ∀ i a, steps[i]? = some a → ¬p i a := by
  induction steps using List.reverseRecOn with
  | nil => simp [last?]
  | append_singleton steps a ih =>
      simp only [last?_concat, getElem?_concat_eq_some_iff]
      by_cases h : p steps.length a
      · simp only [if_pos h, reduceCtorEq, false_iff, not_forall, not_not]
        exact ⟨steps.length, a, .inr ⟨rfl, rfl⟩, h⟩
      · rw [if_neg h, ih]
        constructor
        · intro hnone i b hi
          cases hi with
          | inl hi => exact hnone i b hi
          | inr hi =>
              obtain ⟨rfl, rfl⟩ := hi
              exact h
        · intro hnone i b hi
          exact hnone i b (.inl hi)

/-- The last step with `p` has none with `p` behind it. -/
theorem last?_eq_some {p : Nat → α → Bool} {steps : List α} {i : Nat} {a : α}
    (h : last? p steps = some (i, a)) :
    steps[i]? = some a ∧ p i a ∧ ∀ j b, i < j → steps[j]? = some b → ¬p j b := by
  induction steps using List.reverseRecOn with
  | nil => cases h
  | append_singleton steps c ih =>
      simp only [getElem?_concat_eq_some_iff]
      rw [last?_concat] at h
      by_cases hc : p steps.length c
      · rw [if_pos hc] at h
        cases h
        refine ⟨.inr ⟨rfl, rfl⟩, hc, fun j b hj hb => ?_⟩
        cases hb with
        | inl hb => exact absurd (List.getElem?_eq_some_iff.mp hb).1 (by omega)
        | inr hb => exact absurd hb.1 (by omega)
      · rw [if_neg hc] at h
        obtain ⟨hget, hp, hlater⟩ := ih h
        refine ⟨.inl hget, hp, fun j b hj hb => ?_⟩
        cases hb with
        | inl hb => exact hlater j b hj hb
        | inr hb =>
            obtain ⟨rfl, rfl⟩ := hb
            exact hc

/-- A step with `p` that has none with `p` behind it is the last one. -/
theorem last?_of_forall {p : Nat → α → Bool} {steps : List α} {i : Nat} {a : α}
    (hget : steps[i]? = some a) (hp : p i a)
    (hlater : ∀ j b, i < j → steps[j]? = some b → ¬p j b) : last? p steps = some (i, a) := by
  cases hlast : last? p steps with
  | none => exact absurd hp (last?_eq_none_iff.mp hlast i a hget)
  | some x =>
      obtain ⟨hx, hpx, hxlater⟩ := last?_eq_some hlast
      have heq : i = x.1 := by
        refine Nat.le_antisymm (Nat.le_of_not_lt fun hlt => ?_) (Nat.le_of_not_lt fun hlt => ?_)
        · exact hxlater i a hlt hget hp
        · exact hlater x.1 x.2 hlt hx hpx
      subst heq
      rw [Option.some.inj (hget.symm.trans hx)]

/-- A slot that the step at one position overwrites if it has `q`, and no other step, holds what
that step left. -/
theorem eq_at (q : α → Bool) (slot : List α → β) (write : Nat → α → β) {i : Nat}
    (hconcat : ∀ steps a, slot (steps ++ [a]) =
      if decide (steps.length = i) && q a then write steps.length a else slot steps)
    {steps : List α} {a : α} (hget : steps[i]? = some a) :
    slot steps = if q a then write i a else slot [] := by
  rw [eq_last (fun j b => decide (j = i) && q b) slot write hconcat steps]
  by_cases h : q a
  · rw [if_pos h, last?_of_forall hget (by simp [h]) fun j b hj _ => by simp [Nat.ne_of_gt hj]]
    rfl
  · rw [if_neg h, last?_eq_none_iff.mpr]
    · rfl
    · intro j b hb hj
      simp only [Bool.and_eq_true, decide_eq_true_eq] at hj
      obtain ⟨rfl, hq⟩ := hj
      rw [Option.some.inj (hget.symm.trans hb)] at h
      exact h hq

end GlobalCacheAdaptor.Lib
