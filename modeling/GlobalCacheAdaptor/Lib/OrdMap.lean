import GlobalCacheAdaptor.Lib.Ledger
import Mathlib.Order.Basic
import Mathlib.Order.Defs.LinearOrder

/-!
# Ordered finite maps

`OrdMap κ β` is a finite map kept as its entry list in strictly increasing key order, the
iteration order of an ordered tree map. The order is a field, so a map with a repeated key cannot
be built. `find?_insert` and `find?_erase` are the lookup laws; `total_insert_new`,
`total_insert_old` and `total_erase` say what an update does to a total over all entries.
-/

namespace GlobalCacheAdaptor.Lib

/-- A finite map, listed in strictly increasing key order. -/
structure OrdMap (κ β : Type*) [LinearOrder κ] where
  entries : List (κ × β)
  sorted : entries.Pairwise fun a b => a.1 < b.1

namespace OrdMap

variable {κ β : Type*} [LinearOrder κ]

/-- The map with no entries. -/
def empty : OrdMap κ β := ⟨[], .nil⟩

/-- The value stored under `k`. -/
def find? (m : OrdMap κ β) (k : κ) : Option β := m.entries.lookup k

/-- The values in key order. -/
def values (m : OrdMap κ β) : List β := m.entries.map Prod.snd

/-- A map without entries is the empty one. -/
theorem eq_empty {m : OrdMap κ β} (h : m.entries = []) : m = empty := by
  obtain ⟨entries, hsorted⟩ := m
  subst h
  rfl

/-- Insertion into a sorted entry list; an entry with the same key is replaced. -/
def insertEntry (k : κ) (v : β) : List (κ × β) → List (κ × β)
  | [] => [(k, v)]
  | e :: rest =>
      if k < e.1 then (k, v) :: e :: rest
      else if e.1 < k then e :: insertEntry k v rest
      else (k, v) :: rest

/-- Insertion adds nothing but the new entry. -/
theorem mem_insertEntry {k : κ} {v : β} {x : κ × β} {l : List (κ × β)}
    (h : x ∈ insertEntry k v l) : x = (k, v) ∨ x ∈ l := by
  induction l with
  | nil => simpa [insertEntry] using h
  | cons e rest ih =>
      simp only [insertEntry] at h
      split_ifs at h
      · simpa using h
      · rcases List.mem_cons.mp h with rfl | hx
        · simp
        · rcases ih hx with rfl | hr
          · simp
          · simp [hr]
      · rcases List.mem_cons.mp h with rfl | hx
        · simp
        · simp [hx]

/-- Insertion keeps the key order. -/
theorem insertEntry_sorted {k : κ} {v : β} {l : List (κ × β)}
    (h : l.Pairwise fun a b => a.1 < b.1) :
    (insertEntry k v l).Pairwise fun a b => a.1 < b.1 := by
  induction l with
  | nil => simp [insertEntry]
  | cons e rest ih =>
      obtain ⟨hhead, hrest⟩ := List.pairwise_cons.mp h
      simp only [insertEntry]
      split_ifs with hlt hgt
      · refine List.pairwise_cons.mpr ⟨fun x hx => ?_, h⟩
        rcases List.mem_cons.mp hx with rfl | hx
        · exact hlt
        · exact hlt.trans (hhead x hx)
      · refine List.pairwise_cons.mpr ⟨fun x hx => ?_, ih hrest⟩
        rcases mem_insertEntry hx with rfl | hx
        · exact hgt
        · exact hhead x hx
      · have heq : k = e.1 := le_antisymm (not_lt.mp hgt) (not_lt.mp hlt)
        exact List.pairwise_cons.mpr ⟨fun x hx => heq ▸ hhead x hx, hrest⟩

/-- `m[k] = v`: store `v` under `k`, replacing what was there. -/
def insert (m : OrdMap κ β) (k : κ) (v : β) : OrdMap κ β :=
  ⟨insertEntry k v m.entries, insertEntry_sorted m.sorted⟩

/-- `m.insert(make_pair(k, v))` or `m.emplace(k, v)`: a key that is there keeps its value. -/
def insertNew (m : OrdMap κ β) (k : κ) (v : β) : OrdMap κ β :=
  if (m.find? k).isSome then m else m.insert k v

/-- Keep the entries that satisfy `p`. -/
def filter (m : OrdMap κ β) (p : κ × β → Bool) : OrdMap κ β :=
  ⟨m.entries.filter p, m.sorted.filter _⟩

/-- Remove the entry under `k`. -/
def erase (m : OrdMap κ β) (k : κ) : OrdMap κ β := m.filter fun e => decide (e.1 ≠ k)

/-! ## Lookup -/

/-- Lookup in a nonempty entry list. -/
theorem lookup_cons_ite (x k : κ) (v : β) (l : List (κ × β)) :
    ((k, v) :: l).lookup x = if x = k then some v else l.lookup x := by
  rw [List.lookup_cons]
  by_cases hx : x = k
  · simp [hx]
  · rw [beq_false_of_ne hx]
    simp [hx]

/-- The entries of a map are pairwise different. -/
theorem nodup_entries (m : OrdMap κ β) : m.entries.Nodup := by
  refine m.sorted.imp ?_
  rintro a b hlt rfl
  exact lt_irrefl _ hlt

@[simp] theorem find?_empty (k : κ) : (empty : OrdMap κ β).find? k = none := rfl

/-- Looking up is being listed. -/
theorem mem_entries_iff (m : OrdMap κ β) {k : κ} {v : β} :
    (k, v) ∈ m.entries ↔ m.find? k = some v := by
  obtain ⟨l, hl⟩ := m
  simp only [find?]
  induction l with
  | nil => simp
  | cons e rest ih =>
      obtain ⟨k', v'⟩ := e
      obtain ⟨hhead, hrest⟩ := List.pairwise_cons.mp hl
      rw [lookup_cons_ite]
      by_cases hk : k = k'
      · subst hk
        have hnot : (k, v) ∉ rest := fun hm => lt_irrefl k (hhead (k, v) hm)
        simp [hnot, eq_comm]
      · simp [hk, ih hrest]

/-- Two maps with the same lookups are equal. -/
theorem ext_find? {m n : OrdMap κ β} (h : ∀ k, m.find? k = n.find? k) : m = n := by
  have hmem : ∀ x, x ∈ m.entries ↔ x ∈ n.entries := by
    intro h
    obtain ⟨k, v⟩ := h
    rw [m.mem_entries_iff, n.mem_entries_iff, h k]
  have hperm : m.entries.Perm n.entries :=
    (List.perm_ext_iff_of_nodup m.nodup_entries n.nodup_entries).mpr hmem
  have hlist : m.entries = n.entries :=
    hperm.eq_of_pairwise (fun a b _ _ hab hba => (lt_asymm hab hba).elim) m.sorted n.sorted
  cases m
  cases n
  congr

/-- Lookup after insertion, on entry lists. -/
theorem lookup_insertEntry (k x : κ) (v : β) (l : List (κ × β))
    (h : l.Pairwise fun a b => a.1 < b.1) :
    (insertEntry k v l).lookup x = if x = k then some v else l.lookup x := by
  induction l with
  | nil => simp [insertEntry, lookup_cons_ite]
  | cons e rest ih =>
      obtain ⟨k', v'⟩ := e
      obtain ⟨hhead, hrest⟩ := List.pairwise_cons.mp h
      rcases lt_trichotomy k k' with hlt | rfl | hgt
      · simp [insertEntry, hlt, lookup_cons_ite]
      · by_cases hx : x = k <;> simp [insertEntry, lookup_cons_ite, hx]
      · simp only [insertEntry, hgt.not_gt, hgt, if_false, if_true, lookup_cons_ite, ih hrest]
        by_cases hx : x = k <;> simp [hx, hgt.ne']

/-- Insertion changes exactly one key. -/
theorem find?_insert (m : OrdMap κ β) (k x : κ) (v : β) :
    (m.insert k v).find? x = if x = k then some v else m.find? x :=
  lookup_insertEntry k x v m.entries m.sorted

/-- Filtering keeps a lookup exactly when its entry passes. -/
theorem find?_filter (m : OrdMap κ β) (p : κ × β → Bool) (x : κ) :
    (m.filter p).find? x = (m.find? x).filter fun v => p (x, v) := by
  rcases hv : m.find? x with _ | v
  · rw [Option.filter_none]
    rcases hx : (m.filter p).find? x with _ | v
    · rfl
    · have hm := (List.mem_filter.mp ((m.filter p).mem_entries_iff.mpr hx)).1
      rw [mem_entries_iff, hv] at hm
      cases hm
  · by_cases hp : p (x, v) = true
    · have hm : (x, v) ∈ (m.filter p).entries :=
        List.mem_filter.mpr ⟨m.mem_entries_iff.mpr hv, hp⟩
      rw [(m.filter p).mem_entries_iff.mp hm, Option.filter_some, if_pos hp]
    · rcases hx : (m.filter p).find? x with _ | v'
      · rw [Option.filter_some, if_neg hp]
      · obtain ⟨hm, hp'⟩ := List.mem_filter.mp ((m.filter p).mem_entries_iff.mpr hx)
        rw [mem_entries_iff, hv] at hm
        cases hm
        exact absurd hp' hp

/-- Erasing changes exactly one key. -/
theorem find?_erase (m : OrdMap κ β) (k x : κ) :
    (m.erase k).find? x = if x = k then none else m.find? x := by
  rw [erase, find?_filter]
  by_cases hx : x = k <;> cases m.find? x <;> simp [hx]

/-! ## Totals over the entries -/

/-- Totals after an insertion, on entry lists. -/
theorem total_insertEntry (w : κ × β → Nat) (k : κ) (v : β) (l : List (κ × β))
    (h : l.Pairwise fun a b => a.1 < b.1) :
    total w (insertEntry k v l) + ((l.lookup k).elim 0 fun u => w (k, u)) =
      total w l + w (k, v) := by
  induction l with
  | nil => simp [insertEntry]
  | cons e rest ih =>
      obtain ⟨k', v'⟩ := e
      obtain ⟨hhead, hrest⟩ := List.pairwise_cons.mp h
      simp only [insertEntry]
      split_ifs with hlt hgt
      · -- the key is below every listed key, so nothing was stored under it
        have hnone : ((k', v') :: rest).lookup k = none := by
          rw [List.lookup_eq_none_iff]
          intro p hp
          rcases List.mem_cons.mp hp with rfl | hp
          · simp [hlt.ne]
          · simp [(hlt.trans (hhead p hp)).ne]
        simp only [hnone, total_cons, Option.elim_none]
        omega
      · have hrec := ih hrest
        have hlook : ((k', v') :: rest).lookup k = rest.lookup k := by
          simp [lookup_cons_ite, hgt.ne']
        simp only [hlook, total_cons]
        omega
      · have heq : k = k' := le_antisymm (not_lt.mp hgt) (not_lt.mp hlt)
        subst heq
        simp only [lookup_cons_ite, if_true, total_cons, Option.elim_some]
        omega

/-- Inserting a new key adds its weight. -/
theorem total_insert_new (w : κ × β → Nat) {m : OrdMap κ β} {k : κ} (h : m.find? k = none) (v : β) :
    total w (m.insert k v).entries = total w m.entries + w (k, v) := by
  have hinsert := total_insertEntry w k v m.entries m.sorted
  rw [show m.entries.lookup k = none from h] at hinsert
  exact hinsert

/-- Overwriting a key exchanges the old weight for the new one. -/
theorem total_insert_old (w : κ × β → Nat) {m : OrdMap κ β} {k : κ} {u : β}
    (h : m.find? k = some u) (v : β) :
    total w (m.insert k v).entries + w (k, u) = total w m.entries + w (k, v) := by
  have hinsert := total_insertEntry w k v m.entries m.sorted
  rw [show m.entries.lookup k = some u from h] at hinsert
  exact hinsert

/-- Erasing a key takes its weight away. -/
theorem total_erase (w : κ × β → Nat) {m : OrdMap κ β} {k : κ} {v : β} (h : m.find? k = some v) :
    total w (m.erase k).entries + w (k, v) = total w m.entries := by
  have hnone : (m.erase k).find? k = none := by simp [find?_erase]
  have hback : (m.erase k).insert k v = m := by
    refine ext_find? fun x => ?_
    rw [find?_insert, find?_erase]
    by_cases hx : x = k <;> simp [hx, h]
  have := total_insert_new w hnone v
  rw [hback] at this
  omega

/-- A filtered map and its complement share out the total. -/
theorem total_filter (w : κ × β → Nat) (m : OrdMap κ β) (p : κ × β → Bool) :
    total w (m.filter p).entries + total w (m.filter fun e => !p e).entries =
      total w m.entries := by
  obtain ⟨l, hl⟩ := m
  simp only [filter]
  clear hl
  induction l with
  | nil => rfl
  | cons e rest ih =>
      cases hp : p e <;> simp [hp] <;> omega

/-! ## Totals over the values -/

/-- A total over the values, entry by entry. -/
theorem total_values (w : β → Nat) (m : OrdMap κ β) :
    total w m.values = total (fun e => w e.2) m.entries :=
  total_map w Prod.snd m.entries

/-- A stored value is listed. -/
theorem mem_values {m : OrdMap κ β} {k : κ} {v : β} (h : m.find? k = some v) : v ∈ m.values :=
  List.mem_map.mpr ⟨(k, v), m.mem_entries_iff.mpr h, rfl⟩

/-- A listed value is stored under some key. -/
theorem exists_find?_of_mem_values {m : OrdMap κ β} {v : β} (h : v ∈ m.values) :
    ∃ k, m.find? k = some v := by
  obtain ⟨⟨k, v'⟩, hmem, rfl⟩ := List.mem_map.mp h
  exact ⟨k, m.mem_entries_iff.mp hmem⟩

/-- Inserting a new key lists its value once more. -/
theorem total_values_insert_new (w : β → Nat) {m : OrdMap κ β} {k : κ} (h : m.find? k = none)
    (v : β) : total w (m.insert k v).values = total w m.values + w v := by
  simp only [total_values, total_insert_new _ h]

/-- Erasing a key lists its value once less. -/
theorem total_values_erase (w : β → Nat) {m : OrdMap κ β} {k : κ} {v : β}
    (h : m.find? k = some v) : total w (m.erase k).values + w v = total w m.values := by
  rw [total_values, total_values]
  exact total_erase (fun e => w e.2) h

/-- A filtered map and its complement share out the values. -/
theorem total_values_filter (w : β → Nat) (m : OrdMap κ β) (p : κ × β → Bool) :
    total w (m.filter p).values + total w (m.filter fun e => !p e).values = total w m.values := by
  simp only [total_values]
  exact total_filter (fun e => w e.2) m p

/-! ## Maps built by insertion -/

/-- Inserting values under distinct keys that are all new lists each of them once. -/
theorem total_foldl_insert {γ : Type*} (w : γ → Nat) (key : γ → κ) (vs : List γ)
    (m : OrdMap κ γ) (hnew : ∀ v ∈ vs, m.find? (key v) = none) (hkeys : (vs.map key).Nodup) :
    total w (vs.foldl (fun m v => m.insert (key v) v) m).values =
      total w m.values + total w vs := by
  induction vs generalizing m with
  | nil => simp
  | cons v rest ih =>
      obtain ⟨hfresh, hrest⟩ := List.nodup_cons.mp hkeys
      have hv : m.find? (key v) = none := hnew v (by simp)
      have hnew' : ∀ u ∈ rest, (m.insert (key v) v).find? (key u) = none := by
        intro u hu
        have hne : key u ≠ key v := fun heq => hfresh (List.mem_map.mpr ⟨u, hu, heq⟩)
        rw [find?_insert, if_neg hne]
        exact hnew u (by simp [hu])
      rw [List.foldl_cons, ih _ hnew' hrest, total_values_insert_new w hv, total_cons]
      omega

/-- A map built by insertion holds the inserted values under their keys, if these are distinct,
and what was there before under the other keys. -/
theorem find?_foldl_insert {γ : Type*} {key : γ → κ} {vs : List γ}
    (hkeys : ∀ u ∈ vs, ∀ v ∈ vs, key u = key v → u = v) (m : OrdMap κ γ) (k : κ) (v : γ) :
    (vs.foldl (fun m v => m.insert (key v) v) m).find? k = some v ↔
      (v ∈ vs ∧ key v = k) ∨ (m.find? k = some v ∧ ∀ u ∈ vs, key u ≠ k) := by
  induction vs generalizing m with
  | nil => simp
  | cons u rest ih =>
      have hrest : ∀ x ∈ rest, ∀ y ∈ rest, key x = key y → x = y := by
        intro x hx y hy
        exact hkeys x (by simp [hx]) y (by simp [hy])
      rw [List.foldl_cons, ih hrest, find?_insert]
      constructor
      · rintro (⟨hv, hk⟩ | ⟨hm, hne⟩)
        · exact .inl ⟨by simp [hv], hk⟩
        · split_ifs at hm with huk
          · cases hm
            exact .inl ⟨by simp, huk.symm⟩
          · exact .inr ⟨hm, List.forall_mem_cons.mpr ⟨fun h => huk h.symm, hne⟩⟩
      · rintro (⟨hv, hk⟩ | ⟨hm, hne⟩)
        · by_cases hvr : v ∈ rest
          · exact .inl ⟨hvr, hk⟩
          · obtain rfl : v = u := by simpa [hvr] using hv
            refine .inr ⟨if_pos hk.symm, fun x hx hxk => ?_⟩
            have heq : x = v := hkeys x (by simp [hx]) v (by simp) (hxk.trans hk.symm)
            exact hvr (heq ▸ hx)
        · obtain ⟨hu, hrest'⟩ := List.forall_mem_cons.mp hne
          exact .inr ⟨by rw [if_neg fun h => hu h.symm]; exact hm, hrest'⟩

/-- A map built by inserting entries under distinct keys holds exactly these entries, and what was
there before under the other keys. -/
theorem find?_foldl_insert_entries {es : List (κ × β)} (hkeys : (es.map Prod.fst).Nodup)
    (m : OrdMap κ β) (k : κ) (v : β) :
    (es.foldl (fun m e => m.insert e.1 e.2) m).find? k = some v ↔
      (k, v) ∈ es ∨ (m.find? k = some v ∧ k ∉ es.map Prod.fst) := by
  induction es generalizing m with
  | nil => simp
  | cons e rest ih =>
      obtain ⟨k', v'⟩ := e
      obtain ⟨hfresh, hrest⟩ := List.nodup_cons.mp hkeys
      rw [List.foldl_cons, ih hrest, find?_insert]
      by_cases hk : k = k'
      · subst hk
        have hnot : (k, v) ∉ rest := fun hmem => hfresh (List.mem_map.mpr ⟨_, hmem, rfl⟩)
        simp only [if_true, List.mem_cons, Prod.mk.injEq, true_and, List.map_cons, not_or,
          not_true_eq_false, false_and, and_false, or_false, hnot, false_or, Option.some.injEq]
        exact ⟨fun h => h.1.symm, fun h => ⟨h.symm, hfresh⟩⟩
      · simp [hk]

/-- Inserting entries where there are none adds at most their weights. -/
theorem total_foldl_insertNew_le (w : κ × β → Nat) (es : List (κ × β)) (m : OrdMap κ β) :
    total w (es.foldl (fun m e => m.insertNew e.1 e.2) m).entries ≤
      total w m.entries + total w es := by
  induction es generalizing m with
  | nil => simp
  | cons e rest ih =>
      obtain ⟨k, v⟩ := e
      have hstep : total w (m.insertNew k v).entries ≤ total w m.entries + w (k, v) := by
        unfold insertNew
        split_ifs with hthere
        · exact Nat.le_add_right _ _
        · exact (total_insert_new w (Option.not_isSome_iff_eq_none.mp hthere) v).le
      rw [List.foldl_cons, total_cons]
      refine Nat.le_trans (ih (m.insertNew k v)) ?_
      omega

/-- Entries under distinct keys that are all new are inserted either way. -/
theorem foldl_insertNew_eq {es : List (κ × β)} (m : OrdMap κ β)
    (hnew : ∀ e ∈ es, m.find? e.1 = none) (hkeys : (es.map Prod.fst).Nodup) :
    es.foldl (fun m e => m.insertNew e.1 e.2) m = es.foldl (fun m e => m.insert e.1 e.2) m := by
  induction es generalizing m with
  | nil => rfl
  | cons e rest ih =>
      obtain ⟨hfresh, hrest⟩ := List.nodup_cons.mp hkeys
      obtain ⟨he, hold⟩ := List.forall_mem_cons.mp hnew
      have hinsert : m.insertNew e.1 e.2 = m.insert e.1 e.2 := by
        rw [insertNew, he]
        rfl
      rw [List.foldl_cons, List.foldl_cons, hinsert]
      refine ih _ ?_ hrest
      intro other hother
      have hne : other.1 ≠ e.1 := fun heq => hfresh (List.mem_map.mpr ⟨other, hother, heq⟩)
      rw [find?_insert, if_neg hne]
      exact hold other hother

/-- Inserting entries under distinct keys that are all new adds their weights. -/
theorem total_foldl_insert_entries (w : κ × β → Nat) (es : List (κ × β)) (m : OrdMap κ β)
    (hnew : ∀ e ∈ es, m.find? e.1 = none) (hkeys : (es.map Prod.fst).Nodup) :
    total w (es.foldl (fun m e => m.insert e.1 e.2) m).entries =
      total w m.entries + total w es := by
  induction es generalizing m with
  | nil => simp
  | cons e rest ih =>
      obtain ⟨k, v⟩ := e
      obtain ⟨hfresh, hrest⟩ := List.nodup_cons.mp hkeys
      have hnew' : ∀ u ∈ rest, (m.insert k v).find? u.1 = none := by
        intro u hu
        have hne : u.1 ≠ k := fun heq => hfresh (List.mem_map.mpr ⟨u, hu, heq⟩)
        rw [find?_insert, if_neg hne]
        exact hnew u (List.mem_cons_of_mem (k, v) hu)
      have hinsert : total w (m.insert k v).entries = total w m.entries + w (k, v) :=
        total_insert_new w (hnew (k, v) List.mem_cons_self) v
      rw [List.foldl_cons, ih (m.insert k v) hnew' hrest, hinsert, total_cons, Nat.add_assoc]

/-- The keys of a map are pairwise different. -/
theorem nodup_keys (m : OrdMap κ β) : (m.entries.map Prod.fst).Nodup :=
  List.pairwise_map.mpr (m.sorted.imp fun hlt => ne_of_lt hlt)

/-- Inserting the entries of a map one by one rebuilds the map. -/
theorem foldl_insert_entries (m : OrdMap κ β) :
    m.entries.foldl (fun m e => m.insert e.1 e.2) empty = m := by
  apply ext_find?
  intro k
  apply Option.ext
  intro v
  rw [find?_foldl_insert_entries m.nodup_keys]
  simp [mem_entries_iff]

/-- The value under the key of the entry at a position. -/
theorem find?_of_getElem? (m : OrdMap κ β) {n : Nat} {e : κ × β} (h : m.entries[n]? = some e) :
    m.find? e.1 = some e.2 :=
  (m.mem_entries_iff).mp (List.mem_of_getElem? h)

/-- The first entry with a greater key is the next one. -/
theorem find?_gt_eq_next (m : OrdMap κ β) {n : Nat} {e : κ × β} (h : m.entries[n]? = some e)
    {p : κ × β → Bool} (hp : ∀ e', p e' = true ↔ e.1 < e'.1) :
    m.entries.find? p = m.entries[n + 1]? := by
  obtain ⟨entries, hsorted⟩ := m
  simp only at h ⊢
  induction entries generalizing n with
  | nil => simp at h
  | cons first rest ih =>
      obtain ⟨hfirst, hrest⟩ := List.pairwise_cons.mp hsorted
      cases n with
      | zero =>
          obtain rfl : first = e := by simpa using h
          rw [List.find?_cons_of_neg (by simp [hp])]
          cases rest with
          | nil => rfl
          | cons second rest =>
              rw [List.find?_cons_of_pos (by simpa [hp] using hfirst second List.mem_cons_self)]
              rfl
      | succ n =>
          have hget : rest[n]? = some e := by simpa using h
          have hlt := hfirst e (List.mem_of_getElem? hget)
          rw [List.find?_cons_of_neg (by simpa [hp] using hlt.le), List.getElem?_cons_succ]
          exact ih hrest hget

end OrdMap

end GlobalCacheAdaptor.Lib
