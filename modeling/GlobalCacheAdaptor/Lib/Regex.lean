import Mathlib.Data.List.Basic
import Mathlib.Logic.Function.Basic
import Mathlib.Tactic.Common

/-!
# A backtracking matcher

Regular expressions with capture groups, matched the way ECMAScript prescribes: alternatives from
left to right, repetitions greedily, the first way through that also suits what follows. `exec`
passes on what follows as a continuation. `exec_sound` says that what is consumed is in the language
of the expression and what is captured in that of its group, and `Takes` is the calculus for the
other direction: the first choice of an expression, if what follows accepts it, is the result.
-/

namespace GlobalCacheAdaptor.Lib

/-- A regular expression over symbols, with numbered groups. Repetition is greedy. -/
inductive Regex (σ : Type*) where
  | chr (p : σ → Bool)
  | nil
  | seq (r s : Regex σ)
  | alt (r s : Regex σ)
  | star (r : Regex σ)
  | group (n : Nat) (r : Regex σ)

namespace Regex

variable {σ : Type*}

/-- One or more. -/
def plus (r : Regex σ) : Regex σ := .seq r (.star r)

/-- One or none, one first. -/
def opt (r : Regex σ) : Regex σ := .alt r .nil

/-- A word. -/
def lit [DecidableEq σ] : List σ → Regex σ
  | [] => .nil
  | x :: word => .seq (.chr fun y => decide (y = x)) (lit word)

/-- What each group captured last. -/
abbrev Captures (σ : Type*) := Nat → Option (List σ)

/-- What follows a part of an expression: the rest of the input and the captures go in. -/
abbrev Follow (σ : Type*) := List σ → Captures σ → Option (Captures σ)

/-- Up to `n` rounds of a body, each of which consumes something. -/
def starLoop (body : List σ → Captures σ → Follow σ → Option (Captures σ)) (k : Follow σ) :
    Nat → Follow σ
  | 0, xs, caps => k xs caps
  | n + 1, xs, caps =>
      match body xs caps fun xs' caps' =>
        if xs'.length < xs.length then starLoop body k n xs' caps' else none with
      | some result => some result
      | none => k xs caps

/-- Match a prefix of the input so that what follows accepts the rest. -/
def exec : Regex σ → List σ → Captures σ → Follow σ → Option (Captures σ)
  | .chr p, xs, caps, k =>
      match xs with
      | [] => none
      | x :: rest => if p x then k rest caps else none
  | .nil, xs, caps, k => k xs caps
  | .seq r s, xs, caps, k => r.exec xs caps fun xs caps => s.exec xs caps k
  | .alt r s, xs, caps, k =>
      match r.exec xs caps k with
      | some result => some result
      | none => s.exec xs caps k
  | .star r, xs, caps, k => starLoop r.exec k xs.length xs caps
  | .group n r, xs, caps, k =>
      r.exec xs caps fun rest caps =>
        k rest (Function.update caps n (some (xs.take (xs.length - rest.length))))

/-- `regex_match`: match the whole input. -/
def regexMatch (r : Regex σ) (xs : List σ) : Option (Captures σ) :=
  r.exec xs (fun _ => none) fun rest caps => if rest.isEmpty then some caps else none

section Equations

variable (r s : Regex σ) (xs : List σ) (caps : Captures σ) (k : Follow σ)

theorem exec_chr (p : σ → Bool) (x : σ) :
    (Regex.chr p).exec (x :: xs) caps k = if p x then k xs caps else none := rfl

theorem exec_alt : (Regex.alt r s).exec xs caps k = (r.exec xs caps k).or (s.exec xs caps k) := by
  show (match r.exec xs caps k with
    | some result => some result
    | none => s.exec xs caps k) = _
  cases r.exec xs caps k with
  | none => rfl
  | some result => rfl

theorem exec_star : (Regex.star r).exec xs caps k = starLoop r.exec k xs.length xs caps := rfl

theorem starLoop_succ (body : List σ → Captures σ → Follow σ → Option (Captures σ)) (n : Nat) :
    starLoop body k (n + 1) xs caps =
      (body xs caps fun xs' caps' =>
        if xs'.length < xs.length then starLoop body k n xs' caps' else none).or (k xs caps) := by
  show (match body xs caps fun xs' caps' =>
      if xs'.length < xs.length then starLoop body k n xs' caps' else none with
    | some result => some result
    | none => k xs caps) = _
  cases body xs caps fun xs' caps' =>
      if xs'.length < xs.length then starLoop body k n xs' caps' else none with
  | none => rfl
  | some result => rfl

end Equations

/-! ## Soundness -/

/-- The words of an expression. -/
inductive Accepts : Regex σ → List σ → Prop where
  | chr {p : σ → Bool} {x : σ} (h : p x = true) : Accepts (.chr p) [x]
  | nil : Accepts .nil []
  | seq {r s : Regex σ} {u v : List σ} (hr : Accepts r u) (hs : Accepts s v) :
      Accepts (.seq r s) (u ++ v)
  | left {r s : Regex σ} {w : List σ} (h : Accepts r w) : Accepts (.alt r s) w
  | right {r s : Regex σ} {w : List σ} (h : Accepts s w) : Accepts (.alt r s) w
  | done {r : Regex σ} : Accepts (.star r) []
  | more {r : Regex σ} {u v : List σ} (hr : Accepts r u) (hstar : Accepts (.star r) v) :
      Accepts (.star r) (u ++ v)
  | group {n : Nat} {r : Regex σ} {w : List σ} (h : Accepts r w) : Accepts (.group n r) w

/-- Every group captures words with `Q` only. -/
def CapturesOnly (Q : Nat → List σ → Prop) : Regex σ → Prop
  | .chr _ | .nil => True
  | .seq r s | .alt r s => r.CapturesOnly Q ∧ s.CapturesOnly Q
  | .star r => r.CapturesOnly Q
  | .group n r => r.CapturesOnly Q ∧ ∀ w, r.Accepts w → Q n w

/-- Everything captured has `Q`. -/
def Only (Q : Nat → List σ → Prop) (caps : Captures σ) : Prop := ∀ n, ∀ w ∈ caps n, Q n w

/-- What follows is reached with a rest of the input: what was consumed before it is in the
language, and what was captured has `Q`. -/
def Reaches (Q : Nat → List σ → Prop) (r : Regex σ) (xs : List σ) (k : Follow σ)
    (result : Captures σ) : Prop :=
  ∃ w rest caps, xs = w ++ rest ∧ r.Accepts w ∧ Only Q caps ∧ k rest caps = some result

/-- The rounds of a repetition are sound if its body is. -/
theorem starLoop_sound {Q : Nat → List σ → Prop} {r : Regex σ} {k : Follow σ}
    {result : Captures σ}
    (hbody : ∀ xs caps (k : Follow σ), Only Q caps → r.exec xs caps k = some result →
      Reaches Q r xs k result)
    (n : Nat) (xs : List σ) (caps : Captures σ) (hcaps : Only Q caps)
    (h : starLoop r.exec k n xs caps = some result) : Reaches Q (.star r) xs k result := by
  induction n generalizing xs caps with
  | zero => exact ⟨[], xs, caps, rfl, .done, hcaps, h⟩
  | succ n ih =>
      rw [starLoop_succ, Option.or_eq_some_iff] at h
      obtain hround | ⟨-, hk⟩ := h
      · obtain ⟨u, rest, caps', rfl, hu, hcaps', hnext⟩ := hbody _ _ _ hcaps hround
        beta_reduce at hnext
        split_ifs at hnext
        obtain ⟨v, rest', caps'', rfl, hv, hcaps'', hk⟩ := ih rest caps' hcaps' hnext
        exact ⟨u ++ v, rest', caps'', (List.append_assoc _ _ _).symm, .more hu hv, hcaps'', hk⟩
      · exact ⟨[], xs, caps, rfl, .done, hcaps, hk⟩

/-- The matcher is sound. -/
theorem exec_sound {Q : Nat → List σ → Prop} {r : Regex σ} (hr : r.CapturesOnly Q) {xs : List σ}
    {caps : Captures σ} {k : Follow σ} {result : Captures σ} (hcaps : Only Q caps)
    (h : r.exec xs caps k = some result) : Reaches Q r xs k result := by
  induction r generalizing xs caps k with
  | chr p =>
      cases xs with
      | nil => cases h
      | cons x rest =>
          rw [exec_chr] at h
          split_ifs at h with hx
          exact ⟨[x], rest, caps, rfl, .chr hx, hcaps, h⟩
  | nil => exact ⟨[], xs, caps, rfl, .nil, hcaps, h⟩
  | seq r s ihr ihs =>
      obtain ⟨u, rest, caps', rfl, hu, hcaps', hnext⟩ := ihr hr.1 hcaps h
      obtain ⟨v, rest', caps'', rfl, hv, hcaps'', hk⟩ := ihs hr.2 hcaps' hnext
      exact ⟨u ++ v, rest', caps'', (List.append_assoc _ _ _).symm, .seq hu hv, hcaps'', hk⟩
  | alt r s ihr ihs =>
      rw [exec_alt, Option.or_eq_some_iff] at h
      obtain hleft | ⟨-, hright⟩ := h
      · obtain ⟨w, rest, caps', hxs, hw, hcaps', hk⟩ := ihr hr.1 hcaps hleft
        exact ⟨w, rest, caps', hxs, .left hw, hcaps', hk⟩
      · obtain ⟨w, rest, caps', hxs, hw, hcaps', hk⟩ := ihs hr.2 hcaps hright
        exact ⟨w, rest, caps', hxs, .right hw, hcaps', hk⟩
  | star r ih =>
      exact starLoop_sound (fun xs caps k hcaps hexec => ih hr hcaps hexec) xs.length xs caps
        hcaps h
  | group n r ih =>
      obtain ⟨w, rest, caps', rfl, hw, hcaps', hk⟩ := ih hr.1 hcaps h
      refine ⟨w, rest, _, rfl, .group hw, ?_, hk⟩
      intro m u hu
      by_cases hm : m = n
      · subst hm
        rw [Function.update_self] at hu
        obtain rfl : w = u := by simpa using hu
        exact hr.2 w hw
      · rw [Function.update_of_ne hm] at hu
        exact hcaps' m u hu

/-- What a match captures has `Q`. -/
theorem regexMatch_only {Q : Nat → List σ → Prop} {r : Regex σ} (hr : r.CapturesOnly Q)
    {xs : List σ} {caps : Captures σ} (h : r.regexMatch xs = some caps) : Only Q caps := by
  have hstart : Only Q fun _ : Nat => (none : Option (List σ)) := by
    intro n w hw
    cases hw
  obtain ⟨w, rest, caps', -, -, hcaps', hk⟩ := exec_sound hr hstart h
  beta_reduce at hk
  split_ifs at hk
  cases hk
  exact hcaps'

/-- Nothing is asked of what is captured. -/
theorem capturesOnly_true (r : Regex σ) : r.CapturesOnly fun _ _ => True := by
  induction r with
  | chr | nil => trivial
  | seq r s ihr ihs | alt r s ihr ihs => exact ⟨ihr, ihs⟩
  | star r ih => exact ih
  | group n r ih => exact ⟨ih, fun _ _ => trivial⟩

/-- What is matched is in the language. -/
theorem accepts_of_regexMatch {r : Regex σ} {xs : List σ} {caps : Captures σ}
    (h : r.regexMatch xs = some caps) : r.Accepts xs := by
  obtain ⟨w, rest, caps', rfl, hw, -, hk⟩ :=
    exec_sound (capturesOnly_true r) (fun _ _ _ => trivial) h
  beta_reduce at hk
  split_ifs at hk with hrest
  rw [List.isEmpty_iff.mp hrest, List.append_nil]
  exact hw

/-! ## First choices -/

/-- The first choice of an expression before `rest` is to take `w`: if what follows accepts that,
it is the result. -/
def Takes (r : Regex σ) (w rest : List σ) (caps caps' : Captures σ) : Prop :=
  ∀ (k : Follow σ) (result : Captures σ), k rest caps' = some result →
    r.exec (w ++ rest) caps k = some result

/-- The expression matches no prefix of the input. -/
def Rejects (r : Regex σ) (xs : List σ) : Prop := ∀ caps k, r.exec xs caps k = none

variable {r s : Regex σ} {p : σ → Bool} {u v w xs rest : List σ} {caps caps' caps'' : Captures σ}

/-- A first choice that consumes everything is the match. -/
theorem regexMatch_of_takes (h : Takes r w [] (fun _ => none) caps) :
    r.regexMatch w = some caps := by
  have hmatch := h (fun rest caps => if rest.isEmpty then some caps else none) caps rfl
  rw [List.append_nil] at hmatch
  exact hmatch

theorem takes_chr {x : σ} (hx : p x = true) : Takes (.chr p) [x] rest caps caps := by
  intro k result hk
  rw [List.singleton_append, exec_chr, if_pos hx, hk]

theorem rejects_chr (h : ∀ x ∈ xs.head?, p x = false) : Rejects (.chr p) xs := by
  intro caps k
  cases xs with
  | nil => rfl
  | cons x rest => rw [exec_chr, h x rfl, if_neg Bool.false_ne_true]

theorem takes_nil : Takes (.nil : Regex σ) [] rest caps caps := fun _ _ hk => hk

theorem Takes.seq (hr : Takes r u (v ++ rest) caps caps') (hs : Takes s v rest caps' caps'') :
    Takes (.seq r s) (u ++ v) rest caps caps'' := by
  intro k result hk
  rw [List.append_assoc]
  exact hr _ result (hs k result hk)

theorem Rejects.seq (h : Rejects r xs) : Rejects (.seq r s) xs := fun caps _ => h caps _

theorem Takes.left (h : Takes r w rest caps caps') : Takes (.alt r s) w rest caps caps' := by
  intro k result hk
  rw [exec_alt, h k result hk, Option.some_or]

theorem Takes.right (hr : Rejects r (w ++ rest)) (hs : Takes s w rest caps caps') :
    Takes (.alt r s) w rest caps caps' := by
  intro k result hk
  rw [exec_alt, hr caps k, Option.none_or]
  exact hs k result hk

theorem Rejects.alt (hr : Rejects r xs) (hs : Rejects s xs) : Rejects (.alt r s) xs := by
  intro caps k
  rw [exec_alt, hr caps k, Option.none_or]
  exact hs caps k

theorem Takes.group {n : Nat} (h : Takes r w rest caps caps') :
    Takes (.group n r) w rest caps (Function.update caps' n (some w)) := by
  intro k result hk
  refine h _ result ?_
  simpa using hk

theorem Rejects.group {n : Nat} (h : Rejects r xs) : Rejects (.group n r) xs :=
  fun caps _ => h caps _

/-- A repetition stops where its body matches nothing. -/
theorem Rejects.takes_star (h : Rejects r rest) : Takes (.star r) [] rest caps caps := by
  intro k result hk
  rw [List.nil_append, exec_star]
  cases rest.length with
  | zero => exact hk
  | succ n =>
      rw [starLoop_succ, h, Option.none_or]
      exact hk

/-- Nothing matches before something that accepts nothing. -/
theorem exec_eq_none {k : Follow σ} (hk : ∀ xs caps, k xs caps = none) :
    r.exec xs caps k = none := by
  cases hexec : r.exec xs caps k with
  | none => rfl
  | some result =>
      obtain ⟨w, rest, caps', -, -, -, hrest⟩ :=
        exec_sound (capturesOnly_true r) (fun _ _ _ => trivial) hexec
      rw [hk] at hrest
      cases hrest

/-- More rounds than symbols make no difference. -/
theorem starLoop_eq {k : Follow σ} {n m : Nat} (hn : xs.length ≤ n) (hm : xs.length ≤ m) :
    starLoop r.exec k n xs caps = starLoop r.exec k m xs caps := by
  have hnil : ∀ n caps, starLoop r.exec k n [] caps = k [] caps := by
    intro n caps
    cases n with
    | zero => rfl
    | succ n =>
        rw [starLoop_succ, exec_eq_none, Option.none_or]
        intro xs caps
        simp
  induction n generalizing m xs caps with
  | zero =>
      obtain rfl : xs = [] := List.eq_nil_of_length_eq_zero (by omega)
      rw [hnil, hnil]
  | succ n ih =>
      cases m with
      | zero =>
          obtain rfl : xs = [] := List.eq_nil_of_length_eq_zero (by omega)
          rw [hnil, hnil]
      | succ m =>
          rw [starLoop_succ, starLoop_succ]
          have hfollow : (fun xs' caps' =>
              if xs'.length < xs.length then starLoop r.exec k n xs' caps' else none) =
              fun xs' caps' =>
                if xs'.length < xs.length then starLoop r.exec k m xs' caps' else none := by
            funext xs' caps'
            split_ifs with hshort
            · exact ih (by omega) (by omega)
            · rfl
          rw [hfollow]

/-- A repetition goes on as long as its body matches. -/
theorem Takes.star_cons (hne : u ≠ []) (hr : Takes r u (v ++ rest) caps caps')
    (hstar : Takes (.star r) v rest caps' caps'') :
    Takes (.star r) (u ++ v) rest caps caps'' := by
  intro k result hk
  have hlater := hstar k result hk
  rw [exec_star] at hlater ⊢
  rw [List.append_assoc]
  have hpos : 0 < u.length := List.length_pos_iff.mpr hne
  have hlength : (u ++ (v ++ rest)).length = u.length + (v ++ rest).length := List.length_append
  obtain ⟨n, hn⟩ : ∃ n, (u ++ (v ++ rest)).length = n + 1 :=
    ⟨(u ++ (v ++ rest)).length - 1, by omega⟩
  have hleft : (v ++ rest).length ≤ n := by omega
  rw [hn, starLoop_succ, hr _ result, Option.some_or]
  rw [if_pos (show (v ++ rest).length < (u ++ (v ++ rest)).length by omega),
    starLoop_eq hleft (Nat.le_refl _)]
  exact hlater

/-- A repetition of a class takes all symbols of the class. -/
theorem takes_star_chr (hw : ∀ x ∈ w, p x = true) (hrest : ∀ x ∈ rest.head?, p x = false) :
    Takes (.star (.chr p)) w rest caps caps := by
  induction w with
  | nil => exact (rejects_chr hrest).takes_star
  | cons x w ih =>
      obtain ⟨hx, hw⟩ := List.forall_mem_cons.mp hw
      exact Takes.star_cons (u := [x]) (by simp) (takes_chr hx) (ih hw)

/-- One or more symbols of a class. -/
theorem takes_plus_chr (hne : w ≠ []) (hw : ∀ x ∈ w, p x = true)
    (hrest : ∀ x ∈ rest.head?, p x = false) : Takes (.plus (.chr p)) w rest caps caps := by
  cases w with
  | nil => exact absurd rfl hne
  | cons x w =>
      obtain ⟨hx, hw⟩ := List.forall_mem_cons.mp hw
      exact Takes.seq (u := [x]) (takes_chr hx) (takes_star_chr hw hrest)

/-- A word takes itself. -/
theorem takes_lit [DecidableEq σ] (w : List σ) : Takes (lit w) w rest caps caps := by
  induction w with
  | nil => exact takes_nil
  | cons x w ih => exact Takes.seq (u := [x]) (takes_chr (by simp)) ih

/-- A word rejects an input that does not begin with its first symbol. -/
theorem rejects_lit [DecidableEq σ] {x : σ} (hw : w.head? = some x)
    (h : ∀ y ∈ xs.head?, y ≠ x) : Rejects (lit w) xs := by
  cases w with
  | nil => cases hw
  | cons x' w =>
      cases hw
      exact (rejects_chr fun y hy => by simpa using h y hy).seq

/-- A word rejects another word with another first symbol. -/
theorem rejects_lit_append [DecidableEq σ] {x y : σ} (hw : w.head? = some x)
    (hu : u.head? = some y) (hne : y ≠ x) : Rejects (lit w) (u ++ rest) := by
  refine rejects_lit hw ?_
  intro z hz
  rw [List.head?_append, hu, Option.some_or] at hz
  cases hz
  exact hne

/-- A word accepts itself only. -/
theorem eq_of_accepts_lit [DecidableEq σ] (h : Accepts (lit w) v) : v = w := by
  induction w generalizing v with
  | nil =>
      cases h
      rfl
  | cons x w ih =>
      cases h with
      | seq hr hs =>
          cases hr with
          | chr hx => rw [ih hs, of_decide_eq_true hx, List.singleton_append]

/-- A word captures nothing. -/
theorem capturesOnly_lit [DecidableEq σ] {Q : Nat → List σ → Prop} (w : List σ) :
    (lit w).CapturesOnly Q := by
  induction w with
  | nil => trivial
  | cons x w ih => exact ⟨trivial, ih⟩

/-- The words of a sequence. -/
theorem Accepts.of_seq (h : Accepts (.seq r s) w) :
    ∃ u v, w = u ++ v ∧ r.Accepts u ∧ s.Accepts v := by
  cases h with
  | seq hr hs => exact ⟨_, _, rfl, hr, hs⟩

/-- The words of a group. -/
theorem Accepts.of_group {n : Nat} (h : Accepts (.group n r) w) : r.Accepts w := by
  cases h with
  | group h => exact h

/-- The words of a repetition of a class. -/
theorem Accepts.of_star_chr (h : Accepts (.star (.chr p)) w) : ∀ x ∈ w, p x = true := by
  generalize hstar : Regex.star (.chr p) = r at h
  induction h with
  | done => simp
  | more hr _ _ ih =>
      cases hstar
      cases hr with
      | chr hx => exact List.forall_mem_cons.mpr ⟨hx, ih rfl⟩
  | chr | nil | seq | left | right | group => cases hstar

/-- One or more symbols of a class. -/
theorem Accepts.of_plus_chr (h : Accepts (.plus (.chr p)) w) : w ≠ [] ∧ ∀ x ∈ w, p x = true := by
  obtain ⟨u, v, rfl, hu, hv⟩ := h.of_seq
  cases hu with
  | chr hx => exact ⟨by simp, List.forall_mem_cons.mpr ⟨hx, hv.of_star_chr⟩⟩

/-- The words of an alternative. -/
theorem Accepts.of_alt (h : Accepts (.alt r s) w) : r.Accepts w ∨ s.Accepts w := by
  cases h with
  | left h => exact .inl h
  | right h => exact .inr h

end Regex

end GlobalCacheAdaptor.Lib
