import Mathlib.Logic.Basic
import Mathlib.Tactic.Common

/-!
# Runs of a labelled step function

A system is a partial step function `step : σ → α → Option σ`; `none` means that the event is
not enabled. An admissibility predicate `ok : σ → α → Prop` restricts which events the
environment may choose in a state. `Reach step ok init` is the set of states reached by admitted
events, and `run` executes a list of events. `Reach.invariant` is the induction rule every
safety result uses, and `Reach.of_run` turns an executed event list into a reachable state.
`Leads step ok goal` holds where every maximal admitted run comes to a goal state; a measure with
progress proves it. `outputs` runs a machine that answers each input, and `outputs_refine`
compares two of them.
-/

namespace GlobalCacheAdaptor.Lib

variable {σ α : Type*}

/-- `Reach step ok init s` says `s` is reached from `init` by events that were each enabled and
admitted in the state they were taken in. -/
inductive Reach (step : σ → α → Option σ) (ok : σ → α → Prop) (init : σ) : σ → Prop where
  | start : Reach step ok init init
  | next {s t : σ} {event : α} :
      Reach step ok init s → ok s event → step s event = some t → Reach step ok init t

/-- No restriction on the environment. -/
def anyEvent : σ → α → Prop := fun _ _ => True

/-- Every event is admitted without a check. -/
instance (s : σ) (event : α) : Decidable (anyEvent s event) :=
  inferInstanceAs (Decidable True)

/-- Execute the events in order, stopping at one that is disabled or not admitted. -/
def run (step : σ → α → Option σ) (ok : σ → α → Prop)
    [∀ s event, Decidable (ok s event)] : σ → List α → Option σ
  | s, [] => some s
  | s, event :: rest =>
      if ok s event then
        match step s event with
        | some t => run step ok t rest
        | none => none
      else none

variable {step : σ → α → Option σ} {ok : σ → α → Prop} {init : σ}

/-- A property that holds initially and is preserved by every admitted step holds in every
reachable state. -/
theorem Reach.invariant (inv : σ → Prop) (hinit : inv init)
    (hstep : ∀ s event t, inv s → ok s event → step s event = some t → inv t)
    {s : σ} (h : Reach step ok init s) : inv s := by
  induction h with
  | start => exact hinit
  | next _ hok hs ih => exact hstep _ _ _ ih hok hs

/-- Weakening the admissibility predicate keeps every reachable state. -/
theorem Reach.mono {ok' : σ → α → Prop} (himp : ∀ s event, ok s event → ok' s event)
    {s : σ} (h : Reach step ok init s) : Reach step ok' init s := by
  induction h with
  | start => exact .start
  | next _ hok hs ih => exact .next ih (himp _ _ hok) hs

/-- Reachability composes. -/
theorem Reach.trans {middle s : σ} (hfirst : Reach step ok init middle)
    (hsecond : Reach step ok middle s) : Reach step ok init s := by
  induction hsecond with
  | start => exact hfirst
  | next _ hok hs ih => exact .next ih hok hs

/-- The final state of a successful execution is reachable. -/
theorem Reach.of_run [∀ s event, Decidable (ok s event)] (events : List α) {s : σ}
    (h : run step ok init events = some s) : Reach step ok init s := by
  induction events generalizing init with
  | nil =>
      cases h
      exact .start
  | cons event rest ih =>
      simp only [run] at h
      split at h
      · rename_i hok
        split at h
        · rename_i t ht
          exact (Reach.next .start hok ht).trans (ih h)
        · cases h
      · cases h

/-- Every admitted run from the state that does not stop early comes to a goal state: whatever
admitted event is taken, and as long as the goal is not reached there is one to take. -/
inductive Leads (step : σ → α → Option σ) (ok : σ → α → Prop) (goal : σ → Prop) : σ → Prop where
  | here {s : σ} : goal s → Leads step ok goal s
  | later {s : σ} :
      (∃ event t, ok s event ∧ step s event = some t) →
      (∀ event t, ok s event → step s event = some t → Leads step ok goal t) →
      Leads step ok goal s

variable {goal : σ → Prop}

/-- A preserved property under which every step lowers a measure, and under which some step is
possible before the goal, leads to the goal. -/
theorem Leads.of_measure (inv : σ → Prop) (measure : σ → Nat)
    (hkeep : ∀ s event t, inv s → ok s event → step s event = some t →
      inv t ∧ measure t < measure s)
    (hlive : ∀ s, inv s → ¬goal s → ∃ event t, ok s event ∧ step s event = some t)
    {s : σ} (h : inv s) : Leads step ok goal s := by
  induction hm : measure s using Nat.strongRecOn generalizing s with
  | ind m ih =>
      by_cases hgoal : goal s
      · exact .here hgoal
      · refine .later (hlive s h hgoal) fun event t hok hs => ?_
        obtain ⟨ht, hlt⟩ := hkeep s event t h hok hs
        exact ih (measure t) (hm ▸ hlt) ht rfl

/-! ## Machines with outputs -/

variable {ι ω τ : Type*}

/-- Feed the inputs one by one: the outputs, and the last state. -/
def outputs (next : σ → ι → ω × σ) : σ → List ι → List ω × σ
  | s, [] => ([], s)
  | s, input :: rest =>
      let later := outputs next (next s input).2 rest
      ((next s input).1 :: later.1, later.2)

/-- Related machines that answer alike, and stay related, give the same outputs. -/
theorem outputs_refine {next : σ → ι → ω × σ} {next' : τ → ι → ω × τ} {R : σ → τ → Prop}
    (hnext : ∀ s t input, R s t →
      (next s input).1 = (next' t input).1 ∧ R (next s input).2 (next' t input).2)
    {s : σ} {t : τ} (h : R s t) (inputs : List ι) :
    (outputs next s inputs).1 = (outputs next' t inputs).1 ∧
      R (outputs next s inputs).2 (outputs next' t inputs).2 := by
  induction inputs generalizing s t with
  | nil => exact ⟨rfl, h⟩
  | cons input rest ih =>
      obtain ⟨hout, hrel⟩ := hnext s t input h
      obtain ⟨houts, hlast⟩ := ih hrel
      refine ⟨?_, hlast⟩
      simp only [outputs]
      rw [hout, houts]

/-- What every answer preserves holds in the last state. -/
theorem outputs_invariant {next : σ → ι → ω × σ} (inv : σ → Prop)
    (hnext : ∀ s input, inv s → inv (next s input).2) {s : σ} (h : inv s) (inputs : List ι) :
    inv (outputs next s inputs).2 := by
  induction inputs generalizing s with
  | nil => exact h
  | cons input rest ih => exact ih (hnext s input h)

end GlobalCacheAdaptor.Lib
