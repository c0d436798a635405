import Mathlib.Data.List.Basic
import Mathlib.Tactic.Common

/-!
# Handles that are opened and closed

A log of opened and closed handles, where every open takes the next number. `Paired n m log` says
that a log opens the handles from `n` to `m` and closes each of them once: it is kept by sequences
(`Paired.append`) and by opening a handle around something paired (`Paired.wrap`).

`Returns` is the matching reading of a program that may stop: from an admitted state it returns, in
a state that is related to the first. `Yields` says what holds of the result if there is one. The
rules of both follow the program's text.
-/

namespace GlobalCacheAdaptor.Lib

/-- A handle is opened or closed. -/
inductive HandleEvent where
  | opened (handle : Nat)
  | closed (handle : Nat)
  deriving DecidableEq

/-- The handle of an event. -/
def HandleEvent.handle : HandleEvent → Nat
  | .opened handle | .closed handle => handle

/-- What happens to one handle. -/
def onHandle (handle : Nat) (log : List HandleEvent) : List HandleEvent :=
  log.filter fun event => event.handle = handle

/-- The handles from `n` to `m` are opened and then closed, once each, and no others. -/
def Paired (n m : Nat) (log : List HandleEvent) : Prop :=
  n ≤ m ∧ ∀ handle, onHandle handle log =
    if n ≤ handle ∧ handle < m then [.opened handle, .closed handle] else []

theorem Paired.nil (n : Nat) : Paired n n [] := by
  refine ⟨Nat.le_refl n, fun handle => ?_⟩
  rw [if_neg (by omega)]
  rfl

/-- One paired log after another. -/
theorem Paired.append {n m k : Nat} {first second : List HandleEvent} (hfirst : Paired n m first)
    (hsecond : Paired m k second) : Paired n k (first ++ second) := by
  refine ⟨Nat.le_trans hfirst.1 hsecond.1, fun handle => ?_⟩
  rw [onHandle, List.filter_append, ← onHandle, ← onHandle, hfirst.2, hsecond.2]
  have hnm := hfirst.1
  have hmk := hsecond.1
  by_cases hbefore : n ≤ handle ∧ handle < m
  · rw [if_pos hbefore, if_neg (by omega), if_pos (by omega), List.append_nil]
  · by_cases hafter : m ≤ handle ∧ handle < k
    · rw [if_neg hbefore, if_pos hafter, if_pos (by omega), List.nil_append]
    · rw [if_neg hbefore, if_neg hafter, if_neg (by omega), List.nil_append]

/-- A handle that is open around something paired. -/
theorem Paired.wrap {n m : Nat} {log : List HandleEvent} (h : Paired (n + 1) m log) :
    Paired n m ([.opened n] ++ (log ++ [.closed n])) := by
  have hle := h.1
  refine ⟨by omega, fun handle => ?_⟩
  rw [onHandle, List.filter_append, List.filter_append, ← onHandle, ← onHandle, ← onHandle, h.2]
  by_cases hhandle : n = handle
  · rw [if_neg (by omega), if_pos (by omega)]
    simp [onHandle, HandleEvent.handle, hhandle]
  · have hrest : ∀ event : HandleEvent, event.handle = n → onHandle handle [event] = [] := by
      intro event hevent
      simp [onHandle, hevent, hhandle]
    rw [hrest _ rfl, hrest _ rfl, List.nil_append, List.append_nil]
    split_ifs <;> first | rfl | omega

/-- Each handle is left alone, or opened once and then closed once. -/
theorem Paired.once {n m : Nat} {log : List HandleEvent} (h : Paired n m log) (handle : Nat) :
    onHandle handle log = [] ∨ onHandle handle log = [.opened handle, .closed handle] := by
  rw [h.2]
  split_ifs
  · exact .inr rfl
  · exact .inl rfl

/-! ## Programs that return -/

variable {σ α β : Type} {E : σ → Prop} {R : σ → σ → Prop}

/-- From a state with `E` the program returns, in a state related by `R`. -/
def Returns (E : σ → Prop) (R : σ → σ → Prop) (program : StateT σ Option α) : Prop :=
  ∀ s, E s → ∃ result t, program s = some (result, t) ∧ R s t

/-- A program goes on from where its first part returned. -/
theorem bind_of_run {program : StateT σ Option α} {next : α → StateT σ Option β} {s t : σ}
    {result : α} (h : program s = some (result, t)) : (program >>= next) s = next result t := by
  show (program s).bind (fun x => next x.1 x.2) = next result t
  rw [h]
  rfl

/-- A program stops where its first part stops. -/
theorem bind_of_stop {program : StateT σ Option α} {next : α → StateT σ Option β} {s : σ}
    (h : program s = none) : (program >>= next) s = none := by
  show (program s).bind (fun x => next x.1 x.2) = none
  rw [h]
  rfl

theorem Returns.pure (hrefl : ∀ s, R s s) (result : α) :
    Returns E R (Pure.pure result : StateT σ Option α) :=
  fun s _ => ⟨result, s, rfl, hrefl s⟩

theorem Returns.bind (htrans : ∀ s t u, R s t → R t u → R s u) (hkeep : ∀ s t, E s → R s t → E t)
    {program : StateT σ Option α} {next : α → StateT σ Option β} (h : Returns E R program)
    (hnext : ∀ result, Returns E R (next result)) : Returns E R (program >>= next) := by
  intro s hs
  obtain ⟨result, t, hrun, hst⟩ := h s hs
  obtain ⟨result', u, hrun', htu⟩ := hnext result t (hkeep s t hs hst)
  exact ⟨result', u, (bind_of_run hrun).trans hrun', htrans s t u hst htu⟩

theorem Returns.ite {c : Prop} [Decidable c] {yes no : StateT σ Option α} (hyes : Returns E R yes)
    (hno : Returns E R no) : Returns E R (if c then yes else no) := by
  split_ifs
  · exact hyes
  · exact hno

/-- Whatever the program returns has `P`. -/
def Yields (P : α → Prop) (program : StateT σ Option α) : Prop :=
  ∀ s result t, program s = some (result, t) → P result

theorem Yields.pure {P : α → Prop} {result : α} (h : P result) :
    Yields P (Pure.pure result : StateT σ Option α) := by
  rintro s _ t ⟨⟩
  exact h

theorem Yields.any (program : StateT σ Option α) : Yields (fun _ => True) program :=
  fun _ _ _ _ => trivial

theorem Yields.bind {P : α → Prop} {Q : β → Prop} {program : StateT σ Option α}
    {next : α → StateT σ Option β} (h : Yields P program)
    (hnext : ∀ result, P result → Yields Q (next result)) : Yields Q (program >>= next) := by
  intro s result u hrun
  cases hfirst : program s with
  | none =>
      rw [bind_of_stop hfirst] at hrun
      cases hrun
  | some first =>
      rw [bind_of_run hfirst] at hrun
      exact hnext first.1 (h s first.1 first.2 hfirst) first.2 result u hrun

theorem Yields.ite {P : α → Prop} {c : Prop} [Decidable c] {yes no : StateT σ Option α}
    (hyes : c → Yields P yes) (hno : ¬ c → Yields P no) : Yields P (if c then yes else no) := by
  split_ifs with hc
  · exact hyes hc
  · exact hno hc

end GlobalCacheAdaptor.Lib
