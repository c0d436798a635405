import GlobalCacheAdaptor.Lib.Ledger
import GlobalCacheAdaptor.Lib.Wire
import Mathlib.Data.List.Basic
import Mathlib.Tactic.Linarith

/-!
# Scatter-gather lists

A scatter-gather list is a chain of nodes with 64 slots each, of which the first `entrySumInSgl`
are in use. The write ops gather a chain into one buffer, and `ReadCallback` scatters a result over
a chain. The two walk a chain with loops of their own: gathering goes on to the next node after
`entrySumInSgl` entries, scattering after 64 slots.

`scatter_iff` says when the scatter stays inside the chain, and `readCallback_gathers_iff` when
what it leaves there is what the gather reads back.
-/

namespace GlobalCacheAdaptor.CephProxy

open Lib

/-! ## Chains -/

/-- `ENTRY_PER_SGL`. -/
def entryPerSgl : Nat := 64

/-- `DEFAULT_SGL_PAGE`. -/
def defaultSglPage : Nat := 4096

/-- `SGL_ENTRY_S`: the memory its pointer points at, and the length it states. -/
structure SglEntry where
  buf : Bytes
  len : Nat
  deriving DecidableEq

/-- `SGL_S`: the slots and how many of them are in use. -/
structure SGL where
  entrys : List SglEntry
  entrySumInSgl : Nat
  entrys_length : entrys.length = entryPerSgl
  one_le_entrySum : 1 ≤ entrySumInSgl
  entrySum_le : entrySumInSgl ≤ entryPerSgl

/-- The entries in use. -/
def SGL.used (node : SGL) : List SglEntry := node.entrys.take node.entrySumInSgl

/-- The entries of a chain, in order. -/
def usedEntries (chain : List SGL) : List SglEntry := chain.flatMap SGL.used

/-- How many bytes of an entry a loop handles at most: a page in release mode, else what the entry
states. -/
def SglEntry.size (entry : SglEntry) (isRelease : Bool) : Nat :=
  if isRelease then defaultSglPage else entry.len

/-- `memcpy` to the buffer of an entry. -/
def SglEntry.write (entry : SglEntry) (data : Bytes) : SglEntry :=
  { entry with buf := data ++ entry.buf.drop data.length }

/-- Assign a slot. -/
def SGL.setEntry (node : SGL) (index : Nat) (entry : SglEntry) : SGL :=
  { node with
    entrys := node.entrys.set index entry
    entrys_length := by rw [List.length_set, node.entrys_length] }

/-! ## The loops -/

/-- The gather loop of `RadosWriteOpWriteSGL` and its siblings, from slot `index` of the first node
on. `none` is an access through the null pointer at the end of the chain. -/
def gatherLoop (isRelease : Bool) (chain : List SGL) (index leftLen : Nat) : Option Bytes :=
  if leftLen = 0 then some []
  else
    match chain with
    | [] => none
    | node :: rest =>
        match node.entrys[index]? with
        | none => none
        | some entry =>
            let size := min (entry.size isRelease) leftLen
            -- the next node follows the last entry in use
            if node.entrySumInSgl ≤ index + 1 then
              (gatherLoop isRelease rest 0 (leftLen - size)).map (entry.buf.take size ++ ·)
            else
              (gatherLoop isRelease (node :: rest) (index + 1) (leftLen - size)).map
                (entry.buf.take size ++ ·)
termination_by (chain.length, entryPerSgl - index)
decreasing_by
  · exact Prod.Lex.left _ _ (by simp)
  · have := node.entrySum_le
    exact Prod.Lex.right _ (by omega)

/-- What a write op takes from a chain: its length is kept in 32 bits. -/
def gather (isRelease : Bool) (chain : List SGL) (len : Nat) : Option Bytes :=
  gatherLoop isRelease chain 0 (len % 2 ^ 32)

/-- The scatter loop of `ReadCallback`, from slot `index` of the first node on: the chain it leaves,
and the slots it touched, by node and index. -/
def scatterLoop (buildType : Bool) (results : Bytes) (chain : List SGL) (index : Nat) :
    Option (List SGL × List (Nat × Nat)) :=
  if results = [] then some (chain, [])
  else
    match chain with
    | [] => none
    | node :: rest =>
        match node.entrys[index]? with
        | none => none
        | some entry =>
            let size := min (entry.size buildType) results.length
            let node' := node.setEntry index (entry.write (results.take size))
            -- the next node follows the last slot, in use or not
            if entryPerSgl ≤ index + 1 then
              (scatterLoop buildType (results.drop size) rest 0).map fun r =>
                (node' :: r.1, (0, index) :: r.2.map fun slot => (slot.1 + 1, slot.2))
            else
              (scatterLoop buildType (results.drop size) (node' :: rest) (index + 1)).map fun r =>
                (r.1, (0, index) :: r.2)
termination_by (chain.length, entryPerSgl - index)
decreasing_by
  · exact Prod.Lex.left _ _ (by simp)
  · exact Prod.Lex.right _ (by omega)

/-- The zeroing loop of `ReadCallback` on one node. -/
def SGL.zeroFill (node : SGL) : SGL :=
  { node with
    entrys := node.used.map (fun entry => entry.write (List.replicate entry.len 0)) ++
      node.entrys.drop node.entrySumInSgl
    entrys_length := by
      have hsum := node.entrySum_le
      simp only [SGL.used, List.length_append, List.length_map, List.length_take,
        List.length_drop, node.entrys_length]
      omega }

/-- `ReadCallback` for a read into a chain that returned 0: a short result zeroes the whole chain
first. -/
def readCallback (buildType : Bool) (chain : List SGL) (len : Nat) (results : Bytes) :
    Option (List SGL × List (Nat × Nat)) :=
  let chain := if results.length ≠ len then chain.map SGL.zeroFill else chain
  scatterLoop buildType results chain 0

/-! ## Gathering -/

/-- The bytes of an entry that a loop handles. -/
def SglEntry.part (entry : SglEntry) (isRelease : Bool) : Bytes :=
  entry.buf.take (entry.size isRelease)

/-- The bytes of a list of entries. -/
def contents (isRelease : Bool) (entries : List SglEntry) : Bytes :=
  entries.flatMap fun entry => entry.part isRelease

/-- The number of bytes a list of entries has room for. -/
def capacity (isRelease : Bool) (entries : List SglEntry) : Nat :=
  total (fun entry => entry.size isRelease) entries

/-- Every entry points at as many bytes as a loop may handle. -/
def Valid (isRelease : Bool) (entries : List SglEntry) : Prop :=
  ∀ entry ∈ entries, entry.size isRelease ≤ entry.buf.length

instance (isRelease : Bool) (entries : List SglEntry) : Decidable (Valid isRelease entries) :=
  inferInstanceAs (Decidable (∀ entry ∈ entries, entry.size isRelease ≤ entry.buf.length))

/-- The contents of valid entries fill their room. -/
theorem length_contents {isRelease : Bool} {entries : List SglEntry}
    (h : Valid isRelease entries) :
    (contents isRelease entries).length = capacity isRelease entries := by
  induction entries with
  | nil => rfl
  | cons entry rest ih =>
      obtain ⟨hentry, hrest⟩ := List.forall_mem_cons.mp h
      have hpart : (entry.part isRelease).length = entry.size isRelease := by
        rw [SglEntry.part, List.length_take]
        exact Nat.min_eq_left hentry
      have hrec := ih hrest
      simp only [contents, capacity] at hrec
      simp only [contents, List.flatMap_cons, List.length_append, hrec, capacity, total_cons, hpart]

/-- Gathering from a list of entries. -/
def gatherEntries (isRelease : Bool) : List SglEntry → Nat → Option Bytes
  | [], leftLen => if leftLen = 0 then some [] else none
  | entry :: rest, leftLen =>
      if leftLen = 0 then some []
      else
        (gatherEntries isRelease rest (leftLen - min (entry.size isRelease) leftLen)).map
          (entry.buf.take (min (entry.size isRelease) leftLen) ++ ·)

theorem length_used (node : SGL) : node.used.length = node.entrySumInSgl := by
  rw [SGL.used, List.length_take, node.entrys_length]
  exact Nat.min_eq_left node.entrySum_le

/-- A slot below `entrySumInSgl` is an entry in use. -/
theorem used_getElem? (node : SGL) {index : Nat} (h : index < node.entrySumInSgl) :
    ∃ entry, node.entrys[index]? = some entry ∧
      node.used.drop index = entry :: node.used.drop (index + 1) := by
  have hlt : index < node.used.length := by rwa [length_used]
  refine ⟨node.used[index], ?_, List.drop_eq_getElem_cons hlt⟩
  have hget : node.used[index]? = node.entrys[index]? := List.getElem?_take_of_lt h
  rw [← hget]
  exact List.getElem?_eq_getElem hlt

/-- Gathering from inside a node goes through the rest of its entries and then the next nodes. -/
theorem gatherLoop_node (isRelease : Bool) (node : SGL) {rest : List SGL}
    (hrest : ∀ leftLen, gatherLoop isRelease rest 0 leftLen =
      gatherEntries isRelease (usedEntries rest) leftLen)
    (left : Nat) {index : Nat} (hindex : index + left + 1 = node.entrySumInSgl) (leftLen : Nat) :
    gatherLoop isRelease (node :: rest) index leftLen =
      gatherEntries isRelease (node.used.drop index ++ usedEntries rest) leftLen := by
  -- `left` is the number of entries of the node after this one
  induction left generalizing index leftLen with
  | zero =>
      obtain ⟨entry, hget, hdrop⟩ := used_getElem? node
        (show index < node.entrySumInSgl from by omega)
      have hlast : node.used.drop (index + 1) = [] :=
        List.drop_eq_nil_of_le (by rw [length_used]; omega)
      rw [gatherLoop, hdrop, hlast]
      simp only [hget, List.cons_append, List.nil_append, gatherEntries,
        if_pos (show node.entrySumInSgl ≤ index + 1 from by omega), hrest]
  | succ left ih =>
      obtain ⟨entry, hget, hdrop⟩ := used_getElem? node
        (show index < node.entrySumInSgl from by omega)
      rw [gatherLoop, hdrop]
      simp only [hget, List.cons_append, gatherEntries,
        if_neg (show ¬node.entrySumInSgl ≤ index + 1 from by omega),
        ih (show index + 1 + left + 1 = node.entrySumInSgl from by omega)]

/-- Gathering from a chain is gathering from its entries. -/
theorem gatherLoop_eq (isRelease : Bool) (chain : List SGL) (leftLen : Nat) :
    gatherLoop isRelease chain 0 leftLen =
      gatherEntries isRelease (usedEntries chain) leftLen := by
  induction chain generalizing leftLen with
  | nil =>
      rw [gatherLoop]
      rfl
  | cons node rest ih =>
      have hpos := node.one_le_entrySum
      have hnode := gatherLoop_node isRelease node ih (node.entrySumInSgl - 1)
        (show 0 + (node.entrySumInSgl - 1) + 1 = node.entrySumInSgl from by omega) leftLen
      simpa [usedEntries] using hnode

/-- Gathering from valid entries with enough room takes the first bytes of their contents. -/
theorem gatherEntries_eq {isRelease : Bool} {entries : List SglEntry}
    (hvalid : Valid isRelease entries) {leftLen : Nat} (h : leftLen ≤ capacity isRelease entries) :
    gatherEntries isRelease entries leftLen = some ((contents isRelease entries).take leftLen) := by
  induction entries generalizing leftLen with
  | nil =>
      obtain rfl : leftLen = 0 := by simpa [capacity] using h
      rfl
  | cons entry rest ih =>
      obtain ⟨hentry, hrest⟩ := List.forall_mem_cons.mp hvalid
      simp only [capacity, total_cons] at h
      by_cases hzero : leftLen = 0
      · simp [gatherEntries, hzero]
      · have hroom : leftLen - min (entry.size isRelease) leftLen ≤ capacity isRelease rest := by
          rw [capacity]
          omega
        have hlen : (entry.part isRelease).length = entry.size isRelease := by
          rw [SglEntry.part, List.length_take]
          omega
        have hleft : leftLen - min (entry.size isRelease) leftLen =
            leftLen - entry.size isRelease := by omega
        simp only [gatherEntries, if_neg hzero, ih hrest hroom, Option.map_some]
        simp only [contents, List.flatMap_cons, List.take_append, hlen, hleft]
        rw [SglEntry.part, List.take_take, Nat.min_comm]

/-- A write op takes the first bytes of a chain, as far as its 32-bit length goes. -/
theorem gather_eq {isRelease : Bool} {chain : List SGL}
    (hvalid : Valid isRelease (usedEntries chain)) {len : Nat}
    (h : len ≤ capacity isRelease (usedEntries chain)) :
    gather isRelease chain len =
      some ((contents isRelease (usedEntries chain)).take (len % 2 ^ 32)) := by
  rw [gather, gatherLoop_eq]
  exact gatherEntries_eq hvalid ((Nat.mod_le _ _).trans h)

/-! ## Scattering -/

/-- The number of bytes that fit before a scatter leaves the entries in use: it goes on to the next
node only after a full one. -/
def reachable (buildType : Bool) : List SGL → Nat
  | [] => 0
  | node :: rest =>
      capacity buildType node.used +
        if node.entrySumInSgl = entryPerSgl then reachable buildType rest else 0

/-- The same from slot `index` of a node on. -/
def reachableFrom (buildType : Bool) (node : SGL) (rest : List SGL) (index : Nat) : Nat :=
  capacity buildType (node.used.drop index) +
    if node.entrySumInSgl = entryPerSgl then reachable buildType rest else 0

/-- Every touched slot is an entry in use of the chain. -/
def Inside (chain : List SGL) (touched : List (Nat × Nat)) : Prop :=
  ∀ slot ∈ touched, ∃ node, chain[slot.1]? = some node ∧ slot.2 < node.entrySumInSgl

/-- Writing a result over a list of entries. -/
def fillEntries (buildType : Bool) : Bytes → List SglEntry → List SglEntry
  | _, [] => []
  | results, entry :: rest =>
      let size := min (entry.size buildType) results.length
      entry.write (results.take size) :: fillEntries buildType (results.drop size) rest

theorem write_nil (entry : SglEntry) : entry.write [] = entry := by
  simp [SglEntry.write]

theorem fillEntries_nil (buildType : Bool) (entries : List SglEntry) :
    fillEntries buildType [] entries = entries := by
  induction entries with
  | nil => rfl
  | cons entry rest ih => simp [fillEntries, ih, write_nil]

/-- Assigning a slot in use assigns that entry. -/
theorem used_setEntry (node : SGL) (index : Nat) (entry : SglEntry) :
    (node.setEntry index entry).used = node.used.set index entry := by
  simp only [SGL.used, SGL.setEntry, List.take_set]

/-- The slots touched from the last slot of a node on. -/
theorem inside_next_iff {index : Nat} {node : SGL} {rest : List SGL} {touched : List (Nat × Nat)} :
    Inside (node :: rest) ((0, index) :: touched.map fun slot => (slot.1 + 1, slot.2)) ↔
      index < node.entrySumInSgl ∧ Inside rest touched := by
  simp only [Inside, List.forall_mem_cons, List.getElem?_cons_zero, Option.some.injEq,
    exists_eq_left', List.forall_mem_map, List.getElem?_cons_succ]

/-- The slots touched from another slot of a node on; assigning a slot does not change what is in
use. -/
theorem inside_same_iff {index i : Nat} {node : SGL} {entry : SglEntry} {rest : List SGL}
    {touched : List (Nat × Nat)} :
    Inside (node :: rest) ((0, index) :: touched) ↔
      index < node.entrySumInSgl ∧ Inside (node.setEntry i entry :: rest) touched := by
  have hsame : Inside (node.setEntry i entry :: rest) touched ↔ Inside (node :: rest) touched := by
    refine forall₂_congr fun slot _ => ?_
    cases slot.1 with
    | zero => simp [SGL.setEntry]
    | succ k => simp
  rw [hsame]
  simp only [Inside, List.forall_mem_cons, List.getElem?_cons_zero, Option.some.injEq,
    exists_eq_left']

/-- The room from an entry in use on. -/
theorem reachableFrom_succ (buildType : Bool) {node : SGL} (rest : List SGL) {index : Nat}
    {entry : SglEntry} (hdrop : node.used.drop index = entry :: node.used.drop (index + 1)) :
    reachableFrom buildType node rest index =
      entry.size buildType + reachableFrom buildType node rest (index + 1) := by
  simp only [reachableFrom, hdrop, capacity, total_cons]
  omega

/-- A scatter that has used up a node with free slots has no room left. -/
theorem reachableFrom_end (buildType : Bool) {node : SGL} (rest : List SGL) {index : Nat}
    (hend : node.entrySumInSgl ≤ index) (hindex : index < entryPerSgl) :
    reachableFrom buildType node rest index = 0 := by
  have hdrop : node.used.drop index = [] := List.drop_eq_nil_of_le (by rw [length_used]; exact hend)
  simp [reachableFrom, hdrop, capacity, show node.entrySumInSgl ≠ entryPerSgl from by omega]

/-- After the last slot of a full node the room is that of the next nodes. -/
theorem reachableFrom_full (buildType : Bool) {node : SGL} (rest : List SGL)
    (hfull : node.entrySumInSgl = entryPerSgl) :
    reachableFrom buildType node rest entryPerSgl = reachable buildType rest := by
  have hdrop : node.used.drop entryPerSgl = [] :=
    List.drop_eq_nil_of_le (by rw [length_used, hfull])
  simp [reachableFrom, hdrop, capacity, hfull]

/-- Assigning an earlier slot does not change the room. -/
theorem reachableFrom_setEntry (buildType : Bool) (node : SGL) (rest : List SGL) {index i : Nat}
    (entry : SglEntry) (h : i < index) :
    reachableFrom buildType (node.setEntry i entry) rest index =
      reachableFrom buildType node rest index := by
  simp only [reachableFrom, used_setEntry, List.drop_set_of_lt h]
  rfl

/-- What the scatter leaves in a chain it has room in. -/
def Scatters (buildType : Bool) (results : Bytes) (chain : List SGL) : Prop :=
  ∃ chain' touched, scatterLoop buildType results chain 0 = some (chain', touched) ∧
    Inside chain touched ∧ usedEntries chain' = fillEntries buildType results (usedEntries chain)

/-- The same from inside a node. -/
def ScattersFrom (buildType : Bool) (results : Bytes) (node : SGL) (rest : List SGL)
    (index : Nat) : Prop :=
  ∃ chain' touched, scatterLoop buildType results (node :: rest) index = some (chain', touched) ∧
    Inside (node :: rest) touched ∧ usedEntries chain' = node.used.take index ++
      fillEntries buildType results (node.used.drop index ++ usedEntries rest)

/-- With nothing to write the loop ends. -/
theorem scatterLoop_nil (buildType : Bool) (chain : List SGL) (index : Nat) :
    scatterLoop buildType [] chain index = some (chain, []) := by
  rw [scatterLoop.eq_def, if_pos rfl]

/-- With nothing to write a scatter does nothing. -/
theorem scattersFrom_nil (buildType : Bool) (node : SGL) (rest : List SGL) (index : Nat) :
    ScattersFrom buildType [] node rest index := by
  refine ⟨node :: rest, [], scatterLoop_nil _ _ _, by simp [Inside], ?_⟩
  rw [fillEntries_nil, ← List.append_assoc, List.take_append_drop]
  rfl

/-- A scatter that has something left to write and room for it stands at an entry in use. -/
theorem exists_entry_of_room {buildType : Bool} {node : SGL} {rest : List SGL} {index : Nat}
    {results : Bytes} (hnil : results ≠ []) (hindex : index < entryPerSgl)
    (hfits : results.length ≤ reachableFrom buildType node rest index) :
    index < node.entrySumInSgl := by
  by_contra hend
  rw [reachableFrom_end buildType rest (not_lt.mp hend) hindex] at hfits
  exact hnil (List.eq_nil_of_length_eq_zero (Nat.le_zero.mp hfits))

/-- After the last slot of a node the scatter goes on in the next one. -/
theorem scattersFrom_last {buildType : Bool} {node : SGL} {rest : List SGL} {index : Nat}
    {results : Bytes} {entry : SglEntry} (hnil : results ≠ []) (hlast : index + 1 = entryPerSgl)
    (hpos : index < node.entrySumInSgl) (hget : node.entrys[index]? = some entry)
    (hdrop : node.used.drop index = entry :: node.used.drop (index + 1))
    (hrest : Scatters buildType (results.drop (min (entry.size buildType) results.length)) rest) :
    ScattersFrom buildType results node rest index := by
  obtain ⟨chain', touched, hloop, hinside, hused⟩ := hrest
  let next := node.setEntry index
    (entry.write (results.take (min (entry.size buildType) results.length)))
  refine ⟨next :: chain', _, ?_, inside_next_iff.mpr ⟨hpos, hinside⟩, ?_⟩
  · rw [scatterLoop, if_neg hnil]
    simp only [hget, if_pos (show entryPerSgl ≤ index + 1 from by omega)]
    rw [hloop, Option.map_some]
  · have hend : node.used.drop (index + 1) = [] := by
      have hle := node.entrySum_le
      exact List.drop_eq_nil_of_le (by rw [length_used]; omega)
    rw [hdrop, hend]
    show next.used ++ usedEntries chain' = _
    rw [used_setEntry, hused, List.set_eq_take_append_cons_drop,
      if_pos (by rw [length_used]; exact hpos), hend]
    simp [fillEntries]

/-- After another slot of a node the scatter goes on in the same one. -/
theorem scattersFrom_next {buildType : Bool} {node : SGL} {rest : List SGL} {index : Nat}
    {results : Bytes} {entry : SglEntry} (hnil : results ≠ []) (hmore : index + 1 < entryPerSgl)
    (hpos : index < node.entrySumInSgl) (hget : node.entrys[index]? = some entry)
    (hdrop : node.used.drop index = entry :: node.used.drop (index + 1))
    (hnext : ScattersFrom buildType (results.drop (min (entry.size buildType) results.length))
      (node.setEntry index
        (entry.write (results.take (min (entry.size buildType) results.length))))
      rest (index + 1)) :
    ScattersFrom buildType results node rest index := by
  obtain ⟨chain', touched, hloop, hinside, hused⟩ := hnext
  refine ⟨chain', _, ?_, inside_same_iff.mpr ⟨hpos, hinside⟩, ?_⟩
  · rw [scatterLoop, if_neg hnil]
    simp only [hget, if_neg (not_le.mpr hmore)]
    rw [hloop, Option.map_some]
  · rw [hused, hdrop, used_setEntry, List.drop_set_of_lt (Nat.lt_succ_self index),
      List.take_add_one, List.take_set_of_le le_rfl]
    simp [fillEntries, length_used, hpos]

/-- A scatter from inside a node that has room. -/
theorem scattersFrom_of_le {buildType : Bool} {rest : List SGL}
    (hrest : ∀ results, results.length ≤ reachable buildType rest →
      Scatters buildType results rest)
    (left : Nat) {node : SGL} {index : Nat} {results : Bytes}
    (hindex : index + left + 1 = entryPerSgl) (hle : index ≤ node.entrySumInSgl)
    (hfits : results.length ≤ reachableFrom buildType node rest index) :
    ScattersFrom buildType results node rest index := by
  -- `left` is the number of slots of the node after this one
  induction left generalizing node index results with
  | zero =>
      by_cases hnil : results = []
      · rw [hnil]
        exact scattersFrom_nil buildType node rest index
      · have hpos := exists_entry_of_room hnil (by omega) hfits
        obtain ⟨entry, hget, hdrop⟩ := used_getElem? node hpos
        have hfull : node.entrySumInSgl = entryPerSgl := by
          have := node.entrySum_le
          omega
        refine scattersFrom_last hnil (by omega) hpos hget hdrop (hrest _ ?_)
        rw [reachableFrom_succ buildType rest hdrop, show index + 1 = entryPerSgl from by omega,
          reachableFrom_full buildType rest hfull] at hfits
        rw [List.length_drop]
        omega
  | succ left ih =>
      by_cases hnil : results = []
      · rw [hnil]
        exact scattersFrom_nil buildType node rest index
      · have hpos := exists_entry_of_room hnil (by omega) hfits
        obtain ⟨entry, hget, hdrop⟩ := used_getElem? node hpos
        refine scattersFrom_next hnil (by omega) hpos hget hdrop (ih (by omega) hpos ?_)
        rw [reachableFrom_succ buildType rest hdrop] at hfits
        rw [reachableFrom_setEntry buildType node rest _ (show index < index + 1 from by omega),
          List.length_drop]
        omega

/-- A scatter from inside a node that stays inside the chain had room. -/
theorem le_of_scatterLoop_node {buildType : Bool} {rest : List SGL}
    (hrest : ∀ results chain' touched, scatterLoop buildType results rest 0 =
      some (chain', touched) → Inside rest touched → results.length ≤ reachable buildType rest)
    (left : Nat) {node : SGL} {index : Nat} {results : Bytes} {chain' : List SGL}
    {touched : List (Nat × Nat)} (hindex : index + left + 1 = entryPerSgl)
    (hloop : scatterLoop buildType results (node :: rest) index = some (chain', touched))
    (hinside : Inside (node :: rest) touched) :
    results.length ≤ reachableFrom buildType node rest index := by
  induction left generalizing node index results chain' touched with
  | zero =>
      by_cases hnil : results = []
      · simp [hnil]
      · rw [scatterLoop, if_neg hnil] at hloop
        cases hget : node.entrys[index]? with
        | none => simp [hget] at hloop
        | some entry =>
            simp only [hget, if_pos (show entryPerSgl ≤ index + 1 from by omega),
              Option.map_eq_some_iff, Prod.mk.injEq] at hloop
            obtain ⟨⟨next, slots⟩, hnext, -, rfl⟩ := hloop
            obtain ⟨hpos, hslots⟩ := inside_next_iff.mp hinside
            have hroom := hrest _ _ _ hnext hslots
            obtain ⟨entry', hget', hdrop⟩ := used_getElem? node hpos
            obtain rfl : entry = entry' := Option.some.inj (hget.symm.trans hget')
            have hfull : node.entrySumInSgl = entryPerSgl := by
              have := node.entrySum_le
              omega
            rw [reachableFrom_succ buildType rest hdrop, show index + 1 = entryPerSgl from by omega,
              reachableFrom_full buildType rest hfull]
            rw [List.length_drop] at hroom
            omega
  | succ left ih =>
      by_cases hnil : results = []
      · simp [hnil]
      · rw [scatterLoop, if_neg hnil] at hloop
        cases hget : node.entrys[index]? with
        | none => simp [hget] at hloop
        | some entry =>
            simp only [hget, if_neg (show ¬entryPerSgl ≤ index + 1 from by omega),
              Option.map_eq_some_iff, Prod.mk.injEq] at hloop
            obtain ⟨⟨next, slots⟩, hnext, -, rfl⟩ := hloop
            obtain ⟨hpos, hslots⟩ := inside_same_iff.mp hinside
            have hroom := ih (show index + 1 + left + 1 = entryPerSgl from by omega) hnext hslots
            obtain ⟨entry', hget', hdrop⟩ := used_getElem? node hpos
            obtain rfl : entry = entry' := Option.some.inj (hget.symm.trans hget')
            rw [reachableFrom_setEntry buildType node rest _ (show index < index + 1 from by omega),
              List.length_drop] at hroom
            rw [reachableFrom_succ buildType rest hdrop]
            omega

/-- A chain's room is the room from its first slot on. -/
theorem reachable_cons (buildType : Bool) (node : SGL) (rest : List SGL) :
    reachable buildType (node :: rest) = reachableFrom buildType node rest 0 := by
  simp [reachable, reachableFrom]

/-- A scatter that has room fills the entries of the chain in order. -/
theorem scatters_of_le {buildType : Bool} {chain : List SGL} {results : Bytes}
    (h : results.length ≤ reachable buildType chain) : Scatters buildType results chain := by
  induction chain generalizing results with
  | nil =>
      obtain rfl : results = [] := List.eq_nil_of_length_eq_zero (Nat.le_zero.mp h)
      exact ⟨[], [], scatterLoop_nil _ _ _, by simp [Inside], rfl⟩
  | cons node rest ih =>
      rw [reachable_cons] at h
      obtain ⟨chain', touched, hloop, hinside, hused⟩ :=
        scattersFrom_of_le (fun results hr => ih hr) 63 (show 0 + 63 + 1 = entryPerSgl from rfl)
          (Nat.zero_le _) h
      exact ⟨chain', touched, hloop, hinside, by simpa [usedEntries] using hused⟩

/-- A scatter stays inside the chain exactly when its result fits in front of the first node that
has a free slot. -/
theorem scatter_iff (buildType : Bool) (chain : List SGL) (results : Bytes) :
    (∃ chain' touched, scatterLoop buildType results chain 0 = some (chain', touched) ∧
      Inside chain touched) ↔ results.length ≤ reachable buildType chain := by
  constructor
  · intro h
    obtain ⟨chain', touched, hloop, hinside⟩ := h
    induction chain generalizing results chain' touched with
    | nil =>
        rw [scatterLoop] at hloop
        split_ifs at hloop with hnil
        simp [hnil]
    | cons node rest ih =>
        rw [reachable_cons]
        exact le_of_scatterLoop_node (fun results chain' touched => ih results chain' touched) 63
          (show 0 + 63 + 1 = entryPerSgl from rfl) hloop hinside
  · intro h
    obtain ⟨chain', touched, hloop, hinside, -⟩ := scatters_of_le h
    exact ⟨chain', touched, hloop, hinside⟩

/-! ## Reading back -/

/-- Writing into an entry leaves its length and the size of its buffer. -/
theorem length_write {entry : SglEntry} {data : Bytes} (h : data.length ≤ entry.buf.length) :
    (entry.write data).buf.length = entry.buf.length := by
  simp only [SglEntry.write, List.length_append, List.length_drop]
  omega

/-- Filling keeps the entries valid and their room. -/
theorem fillEntries_valid {buildType : Bool} {entries : List SglEntry} (h : Valid buildType entries)
    (results : Bytes) :
    Valid buildType (fillEntries buildType results entries) ∧
      capacity buildType (fillEntries buildType results entries) = capacity buildType entries := by
  induction entries generalizing results with
  | nil => exact ⟨h, rfl⟩
  | cons entry rest ih =>
      obtain ⟨hentry, hrest⟩ := List.forall_mem_cons.mp h
      obtain ⟨hvalid, hcap⟩ := ih hrest
        (results.drop (min (entry.size buildType) results.length))
      refine ⟨List.forall_mem_cons.mpr ⟨?_, hvalid⟩, ?_⟩
      · rw [length_write (by rw [List.length_take]; omega)]
        exact hentry
      · simp only [capacity, fillEntries, total_cons] at hcap ⊢
        rw [hcap]
        rfl

/-- Filling overwrites the first bytes of the contents, as far as the entries go. -/
theorem contents_fillEntries {buildType : Bool} {entries : List SglEntry}
    (hvalid : Valid buildType entries) (results : Bytes) :
    contents buildType (fillEntries buildType results entries) =
      results.take (capacity buildType entries) ++
        (contents buildType entries).drop results.length := by
  induction entries generalizing results with
  | nil => simp [fillEntries, contents, capacity]
  | cons entry rest ih =>
      obtain ⟨hentry, hrest⟩ := List.forall_mem_cons.mp hvalid
      have hpart : (entry.part buildType).length = entry.size buildType := by
        rw [SglEntry.part, List.length_take]
        omega
      have hwrite : ∀ data : Bytes, data.length ≤ entry.size buildType →
          (entry.write data).part buildType =
            data ++ (entry.part buildType).drop data.length := by
        intro data hdata
        show (data ++ entry.buf.drop data.length).take (entry.size buildType) = _
        rw [List.take_append, List.take_of_length_le hdata, SglEntry.part, List.drop_take]
      simp only [fillEntries, contents, capacity, total_cons, List.flatMap_cons]
      rw [hwrite _ (by rw [List.length_take]; omega), List.length_take]
      by_cases hlong : entry.size buildType ≤ results.length
      · -- the entry is filled and the rest of the result goes on
        have hrec := ih hrest (results.drop (entry.size buildType))
        rw [contents, contents, List.length_drop, capacity] at hrec
        have hdone : (entry.part buildType).drop (entry.size buildType) = [] :=
          List.drop_eq_nil_of_le (by rw [hpart])
        have hover : (entry.part buildType).drop results.length = [] :=
          List.drop_eq_nil_of_le (by rw [hpart]; exact hlong)
        rw [Nat.min_eq_left hlong, Nat.min_eq_left hlong, hrec, hdone, List.append_nil,
          ← List.append_assoc, ← List.take_add, List.drop_append, hover, hpart,
          List.nil_append]
      · -- the result ends in this entry
        have hshort : results.length ≤ entry.size buildType := by omega
        rw [Nat.min_eq_right hshort, List.take_length, List.drop_length, fillEntries_nil,
          Nat.min_self, List.drop_append, hpart, Nat.sub_eq_zero_of_le hshort, List.drop_zero,
          List.append_assoc, List.take_of_length_le (by omega)]

/-- The zeroing loop writes to the entries in use and leaves their number. -/
theorem used_zeroFill (node : SGL) :
    node.zeroFill.used =
      node.used.map fun entry => entry.write (List.replicate entry.len 0) := by
  show (node.used.map _ ++ node.entrys.drop node.entrySumInSgl).take node.entrySumInSgl = _
  rw [List.take_append_of_le_length (by rw [List.length_map, length_used]), List.take_of_length_le]
  rw [List.length_map, length_used]

/-- Zeroing all entries of a chain. -/
theorem usedEntries_zeroFill (chain : List SGL) :
    usedEntries (chain.map SGL.zeroFill) =
      (usedEntries chain).map fun entry => entry.write (List.replicate entry.len 0) := by
  simp only [usedEntries, List.flatMap_map, List.map_flatMap, used_zeroFill]

/-- Zeroed entries keep their room and hold zeros. -/
theorem zeroed_entries (entries : List SglEntry) :
    capacity false (entries.map fun entry => entry.write (List.replicate entry.len 0)) =
      capacity false entries ∧
    contents false (entries.map fun entry => entry.write (List.replicate entry.len 0)) =
      List.replicate (capacity false entries) 0 := by
  induction entries with
  | nil => exact ⟨rfl, rfl⟩
  | cons entry rest ih =>
      obtain ⟨hcap, hcontents⟩ := ih
      constructor
      · simp only [capacity, List.map_cons, total_cons] at hcap ⊢
        rw [hcap]
        rfl
      · have hpart : (entry.write (List.replicate entry.len 0)).part false =
            List.replicate entry.len 0 := by
          show (List.replicate entry.len 0 ++ _).take entry.len = _
          rw [List.take_append_of_le_length (by rw [List.length_replicate]),
            List.take_of_length_le (by rw [List.length_replicate])]
        rw [List.map_cons, contents, List.flatMap_cons, hpart]
        rw [contents] at hcontents
        rw [hcontents, ← List.replicate_add]
        rfl

/-- Zeroing does not change the room of a scatter. -/
theorem reachable_zeroFill (buildType : Bool) (chain : List SGL) :
    reachable buildType (chain.map SGL.zeroFill) = reachable buildType chain := by
  induction chain with
  | nil => rfl
  | cons node rest ih =>
      have hcap : capacity buildType node.zeroFill.used = capacity buildType node.used := by
        rw [used_zeroFill, capacity, total_map]
        rfl
      simp only [List.map_cons, reachable, ih, hcap]
      rfl

/-- Zeroing does not change which slots are in use. -/
theorem inside_zeroFill {chain : List SGL} {touched : List (Nat × Nat)} :
    Inside (chain.map SGL.zeroFill) touched ↔ Inside chain touched := by
  refine forall₂_congr fun slot _ => ?_
  rw [List.getElem?_map]
  cases chain[slot.1]? with
  | none => simp
  | some node => simp [SGL.zeroFill]

/-- The scatter of a result stays inside the chain, and gathering from the chain gives the result
followed by zeros. -/
def ReadsBack (chain : List SGL) (len : Nat) (results : Bytes) : Prop :=
  ∃ chain' touched, readCallback false chain len results = some (chain', touched) ∧
    Inside chain touched ∧
    gather false chain' len = some (results ++ List.replicate (len - results.length) 0)

/-- The chain that the scatter starts from: zeroed when the result is short. -/
def scatterBase (chain : List SGL) (len : Nat) (results : Bytes) : List SGL :=
  if results.length ≠ len then chain.map SGL.zeroFill else chain

/-- Zeroing keeps entries valid. -/
theorem valid_zeroFill {buildType : Bool} {chain : List SGL}
    (h : Valid buildType (usedEntries chain)) :
    Valid buildType (usedEntries (chain.map SGL.zeroFill)) := by
  rw [usedEntries_zeroFill]
  refine List.forall_mem_map.mpr fun entry hentry => (h entry hentry).trans ?_
  simp only [SglEntry.write, List.length_append, List.length_replicate, List.length_drop]
  omega

/-- What the scatter starts from is valid, has the same room and the same slots in use. -/
theorem scatterBase_room (buildType : Bool) (chain : List SGL) (len : Nat) (results : Bytes) :
    (Valid buildType (usedEntries chain) →
      Valid buildType (usedEntries (scatterBase chain len results))) ∧
    reachable buildType (scatterBase chain len results) = reachable buildType chain ∧
    ∀ touched, Inside (scatterBase chain len results) touched ↔ Inside chain touched := by
  rw [scatterBase]
  split_ifs with hfull
  · exact ⟨valid_zeroFill, reachable_zeroFill buildType chain, fun _ => inside_zeroFill⟩
  · exact ⟨id, rfl, fun _ => Iff.rfl⟩

/-- What the scatter starts from has the same capacity, and zeros where they are wanted. -/
theorem scatterBase_zeros {chain : List SGL} {len : Nat} {results : Bytes}
    (hlen : len ≤ capacity false (usedEntries chain)) (hn : results.length ≤ len) :
    capacity false (usedEntries (scatterBase chain len results)) =
      capacity false (usedEntries chain) ∧
    ((contents false (usedEntries (scatterBase chain len results))).drop results.length).take
      (len - results.length) = List.replicate (len - results.length) 0 := by
  by_cases hfull : results.length = len
  · simp [scatterBase, hfull]
  · obtain ⟨hc, hz⟩ := zeroed_entries (usedEntries chain)
    simp only [scatterBase, ne_eq, hfull, not_false_eq_true, if_true, usedEntries_zeroFill]
    refine ⟨hc, ?_⟩
    rw [hz, List.drop_replicate, List.take_replicate]
    congr 1
    omega

/-- Reading into a chain and gathering it back gives the result and zeros exactly when the length
fits 32 bits and the result fits in front of the first node that has a free slot. -/
theorem readCallback_gathers_iff {chain : List SGL} {len : Nat} {results : Bytes}
    (hvalid : Valid false (usedEntries chain)) (hlen : len ≤ capacity false (usedEntries chain))
    (hn : results.length ≤ len) :
    ReadsBack chain len results ↔ len < 2 ^ 32 ∧ results.length ≤ reachable false chain := by
  obtain ⟨hkeep, hreach, hsame⟩ := scatterBase_room false chain len results
  have hv := hkeep hvalid
  obtain ⟨hcap, hzeros⟩ := scatterBase_zeros hlen hn
  have hread : readCallback false chain len results =
      scatterLoop false results (scatterBase chain len results) 0 := rfl
  -- what gathering reads from a chain that was filled
  have hgather : ∀ chain', usedEntries chain' =
      fillEntries false results (usedEntries (scatterBase chain len results)) →
      gather false chain' len = some ((results ++ (contents false
        (usedEntries (scatterBase chain len results))).drop results.length).take
          (len % 2 ^ 32)) := by
    intro chain' hused
    obtain ⟨hv', hcap'⟩ := fillEntries_valid hv results
    have hfits : results.take (capacity false (usedEntries chain)) = results :=
      List.take_of_length_le (by omega)
    rw [gather_eq (by rw [hused]; exact hv') (by rw [hused, hcap', hcap]; exact hlen), hused,
      contents_fillEntries hv, hcap, hfits]
  constructor
  · intro h
    obtain ⟨chain', touched, hloop, hinside, hback⟩ := h
    have hroom : results.length ≤ reachable false (scatterBase chain len results) :=
      (scatter_iff false _ results).mp ⟨chain', touched, hread ▸ hloop, (hsame _).mpr hinside⟩
    refine ⟨?_, hreach ▸ hroom⟩
    obtain ⟨other, slots, hother, -, hused⟩ := scatters_of_le hroom
    obtain ⟨rfl, rfl⟩ : other = chain' ∧ slots = touched := by
      rw [hread, hother] at hloop
      simpa using hloop
    rw [hgather _ hused, Option.some.injEq] at hback
    have hlength := congrArg List.length hback
    simp only [List.length_take, List.length_append, List.length_replicate] at hlength
    omega
  · intro h
    obtain ⟨hlt, hroom⟩ := h
    obtain ⟨chain', touched, hloop, hinside, hused⟩ := scatters_of_le (hreach ▸ hroom)
    refine ⟨chain', touched, hread ▸ hloop, (hsame _).mp hinside, ?_⟩
    rw [hgather _ hused, Nat.mod_eq_of_lt hlt, List.take_append, List.take_of_length_le hn, hzeros]

/-- An entry of one byte. -/
def byteEntry : SglEntry := ⟨[9], 1⟩

/-- A node with some one-byte entries in use; its free slots hold what an earlier use left there. -/
def byteNode (entrySum : Nat) (hpos : 1 ≤ entrySum) (hle : entrySum ≤ entryPerSgl) : SGL where
  entrys := List.replicate entryPerSgl byteEntry
  entrySumInSgl := entrySum
  entrys_length := List.length_replicate
  one_le_entrySum := hpos
  entrySum_le := hle

/-- A node with one entry in use. -/
def oneNode : SGL := byteNode 1 (by decide) (by decide)

/-- A full node and a node with one entry. -/
def fullThenOne : List SGL := [byteNode 64 (by decide) (by decide), oneNode]

/-- A short result that ends in the second node reads back with a zero behind it. -/
theorem fullThenOne_readsBack : ReadsBack fullThenOne 65 (List.replicate 64 1) := by
  have hvalid : Valid false (usedEntries fullThenOne) := by decide
  exact (readCallback_gathers_iff hvalid (by decide) (by decide)).mpr ⟨by decide, by decide⟩

/-- Two nodes with one entry each. -/
def oneThenOne : List SGL := [oneNode, oneNode]

/-- Two bytes read into two nodes of one entry: the second byte goes to a free slot of the first
node, and gathering gives back what the second node held before. -/
theorem scatter_leaves_chain :
    Valid false (usedEntries oneThenOne) ∧ capacity false (usedEntries oneThenOne) = 2 ∧
    (∃ chain', readCallback false oneThenOne 2 [1, 2] = some (chain', [(0, 0), (0, 1)]) ∧
      gather false chain' 2 = some [1, 9]) ∧ ¬ReadsBack oneThenOne 2 [1, 2] := by
  have hrun : ∃ chain', readCallback false oneThenOne 2 [1, 2] =
      some (chain', [(0, 0), (0, 1)]) ∧ gather false chain' 2 = some [1, 9] := by
    refine ⟨[(oneNode.setEntry 0 ⟨[1], 1⟩).setEntry 1 ⟨[2], 1⟩, oneNode], ?_, ?_⟩
    · show scatterLoop false [1, 2] [oneNode, oneNode] 0 = _
      rw [scatterLoop.eq_def]
      show (scatterLoop false [2] [oneNode.setEntry 0 ⟨[1], 1⟩, oneNode] 1).map _ = _
      rw [scatterLoop.eq_def]
      show ((scatterLoop false [] _ 2).map _).map _ = _
      rw [scatterLoop_nil]
      rfl
    · rw [gather, gatherLoop_eq]
      rfl
  refine ⟨by decide, by decide, hrun, fun h => ?_⟩
  obtain ⟨chain', touched, hloop, hinside, -⟩ := h
  obtain ⟨other, hother, -⟩ := hrun
  rw [hother] at hloop
  obtain ⟨-, rfl⟩ : other = chain' ∧ [(0, 0), (0, 1)] = touched := by simpa using hloop
  obtain ⟨node, hnode, hlt⟩ := hinside (0, 1) (by simp)
  cases hnode
  exact absurd hlt (by decide)

end GlobalCacheAdaptor.CephProxy
