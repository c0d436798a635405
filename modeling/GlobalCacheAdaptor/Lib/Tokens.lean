import Mathlib.Data.List.Basic

/-!
# Tokens of a separated list

The tokens of a list are its nonempty runs between separators, as a loop of `strtok` returns
them. Joining two lists with a separator joins their tokens (`tokens_append`); the other lemmas
read the number of tokens and the first one off the list itself.
-/

namespace GlobalCacheAdaptor.Lib

variable {α : Type} [DecidableEq α] {sep : α}

/-- The nonempty runs between the separators of a list. -/
def tokens (sep : α) (xs : List α) : List (List α) := (xs.splitOn sep).filter (· ≠ [])

/-- A list without separators is one token. -/
theorem tokens_of_notMem {xs : List α} (hne : xs ≠ []) (h : sep ∉ xs) :
    tokens sep xs = [xs] := by
  rw [tokens, List.splitOn_eq_singleton h, List.filter_cons_of_pos (by simpa using hne),
    List.filter_nil]

/-- The tokens of two lists with a separator between them. -/
theorem tokens_append (xs ys : List α) :
    tokens sep (xs ++ sep :: ys) = tokens sep xs ++ tokens sep ys := by
  rw [tokens, List.splitOn_append_cons_self, List.filter_append]
  rfl

/-- A leading separator is skipped. -/
theorem tokens_cons_self (xs : List α) : tokens sep (sep :: xs) = tokens sep xs := by
  show tokens sep ([] ++ sep :: xs) = tokens sep xs
  rw [tokens_append, tokens, List.splitOn_nil]
  rfl

omit [DecidableEq α] in
/-- What stands before the first separator and what stands after it are determined. -/
theorem append_sep_inj {xs xs' ys ys' : List α} (h : sep ∉ xs) (h' : sep ∉ xs')
    (heq : xs ++ sep :: ys = xs' ++ sep :: ys') : xs = xs' ∧ ys = ys' := by
  induction xs generalizing xs' with
  | nil =>
      cases xs' with
      | nil => exact ⟨rfl, (List.cons.inj heq).2⟩
      | cons x rest => exact absurd (List.cons.inj heq).1 (List.ne_of_not_mem_cons h')
  | cons x rest ih =>
      cases xs' with
      | nil => exact absurd (List.cons.inj heq).1.symm (List.ne_of_not_mem_cons h)
      | cons x' rest' =>
          obtain ⟨rfl, htail⟩ := List.cons.inj heq
          obtain ⟨rfl, rfl⟩ := ih (List.not_mem_of_not_mem_cons h)
            (List.not_mem_of_not_mem_cons h') htail
          exact ⟨rfl, rfl⟩

/-- A token in front of a separator is the first one. -/
theorem tokens_token_append {token : List α} (hne : token ≠ []) (h : sep ∉ token)
    (xs : List α) : tokens sep (token ++ sep :: xs) = token :: tokens sep xs := by
  rw [tokens_append, tokens_of_notMem hne h]
  rfl

/-- The tokens of lists joined by separators. -/
theorem tokens_intercalate {lists : List (List α)} (h : ∀ xs ∈ lists, sep ∉ xs) :
    tokens sep ([sep].intercalate lists) = lists.filter (· ≠ []) := by
  cases lists with
  | nil =>
      rw [List.intercalate_nil, tokens, List.splitOn_nil]
      rfl
  | cons xs lists => rw [tokens, List.splitOn_intercalate sep h (List.cons_ne_nil xs lists)]

/-- A list that starts with another element starts with a token, which reaches to the end or to
the first separator. -/
theorem tokens_cons_of_ne {x : α} (hx : x ≠ sep) (xs : List α) :
    ∃ run, sep ∉ x :: run ∧
      ((xs = run ∧ tokens sep (x :: xs) = [x :: run]) ∨
        ∃ rest, xs = run ++ sep :: rest ∧
          tokens sep (x :: xs) = (x :: run) :: tokens sep rest) := by
  by_cases hmem : sep ∈ xs
  · obtain ⟨run, rest, rfl, hrun⟩ := List.eq_append_cons_of_mem hmem
    have htoken : sep ∉ x :: run := List.not_mem_cons_of_ne_of_not_mem hx.symm hrun
    refine ⟨run, htoken, .inr ⟨rest, rfl, ?_⟩⟩
    rw [← List.cons_append, tokens_token_append (List.cons_ne_nil x run) htoken]
  · have htoken : sep ∉ x :: xs := List.not_mem_cons_of_ne_of_not_mem hx.symm hmem
    exact ⟨xs, htoken, .inl ⟨rfl, tokens_of_notMem (List.cons_ne_nil x xs) htoken⟩⟩

/-- There are no tokens exactly if every element is a separator. -/
theorem tokens_eq_nil_iff (xs : List α) : tokens sep xs = [] ↔ ∀ x ∈ xs, x = sep := by
  induction xs with
  | nil => exact iff_of_true rfl (by simp)
  | cons x xs ih =>
      rw [List.forall_mem_cons]
      by_cases hx : x = sep
      · rw [hx, tokens_cons_self, ih]
        simp only [true_and]
      · refine iff_of_false ?_ fun h => hx h.1
        obtain ⟨run, -, ⟨-, htokens⟩ | ⟨rest, -, htokens⟩⟩ := tokens_cons_of_ne hx xs
        · rw [htokens]
          exact List.cons_ne_nil _ _
        · rw [htokens]
          exact List.cons_ne_nil _ _

/-- There are two tokens exactly if some separator has other elements on both sides. -/
theorem two_le_length_tokens_iff (xs : List α) :
    2 ≤ (tokens sep xs).length ↔
      ∃ before after, xs = before ++ sep :: after ∧ (∃ x ∈ before, x ≠ sep) ∧
        ∃ x ∈ after, x ≠ sep := by
  have hpos : ∀ ys : List α, 0 < (tokens sep ys).length ↔ ∃ x ∈ ys, x ≠ sep := by
    intro ys
    rw [List.length_pos_iff, ne_eq, tokens_eq_nil_iff]
    simp only [not_forall, exists_prop, ne_eq]
  constructor
  · intro h
    induction xs with
    | nil =>
        rw [(tokens_eq_nil_iff []).mpr (by simp), List.length_nil] at h
        omega
    | cons x xs ih =>
        by_cases hx : x = sep
        · rw [hx, tokens_cons_self] at h
          obtain ⟨before, after, rfl, ⟨y, hy, hne⟩, hafter⟩ := ih h
          exact ⟨x :: before, after, rfl, ⟨y, List.mem_cons_of_mem x hy, hne⟩, hafter⟩
        · obtain ⟨run, -, ⟨-, htokens⟩ | ⟨rest, rfl, htokens⟩⟩ := tokens_cons_of_ne hx xs
          · rw [htokens, List.length_singleton] at h
            omega
          · rw [htokens, List.length_cons] at h
            exact ⟨x :: run, rest, rfl, ⟨x, List.mem_cons_self, hx⟩, (hpos rest).mp (by omega)⟩
  · intro h
    obtain ⟨before, after, rfl, hbefore, hafter⟩ := h
    have hleft := (hpos before).mpr hbefore
    have hright := (hpos after).mpr hafter
    rw [tokens_append, List.length_append]
    omega

/-- A list that starts with a token has it as its first token exactly if nothing or a separator
follows. -/
theorem head?_tokens_append_iff {token : List α} (hne : token ≠ []) (h : sep ∉ token)
    (xs : List α) :
    (tokens sep (token ++ xs)).head? = some token ↔ xs = [] ∨ xs.head? = some sep := by
  obtain ⟨t, ts, rfl⟩ := List.exists_cons_of_ne_nil hne
  have ht : t ≠ sep := fun heq => h (heq ▸ List.mem_cons_self)
  cases xs with
  | nil =>
      rw [List.append_nil, tokens_of_notMem hne h]
      exact iff_of_true rfl (.inl rfl)
  | cons x xs =>
      by_cases hx : x = sep
      · rw [hx, tokens_token_append hne h]
        exact iff_of_true rfl (.inr rfl)
      · refine iff_of_false ?_ (by simpa using hx)
        -- the first token goes on with `x`
        intro hhead
        obtain ⟨run, hrun, hcases⟩ := tokens_cons_of_ne ht (ts ++ x :: xs)
        have hfirst : t :: run = t :: ts := by
          obtain ⟨-, htokens⟩ | ⟨rest, -, htokens⟩ := hcases <;>
            rw [List.cons_append, htokens] at hhead <;> exact Option.some.inj hhead
        obtain rfl : run = ts := (List.cons.inj hfirst).2
        obtain ⟨happ, -⟩ | ⟨rest, happ, -⟩ := hcases
        · have hlen := congrArg List.length happ
          rw [List.length_append, List.length_cons] at hlen
          omega
        · exact hx (List.cons.inj (List.append_cancel_left happ)).1

end GlobalCacheAdaptor.Lib
