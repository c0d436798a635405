import GlobalCacheAdaptor.CephProxy.Sgl

/-!
# Free slots of a chain

The scatter of `ReadCallback` goes through all 64 slots of a node. Slots behind `entrySumInSgl` are
free: one that takes bytes takes them away from the entries in use, and one that takes none does no
harm. A result gets to the entries in use if it ends before the first free slot that takes bytes
(`readCallback_delivers`), and of the results with one byte more some do not
(`exists_undelivered`).
-/

namespace GlobalCacheAdaptor.CephProxy

open Lib

/-! ## Writing over all slots -/

/-- Nodes with the same slots and the same number in use are the same. -/
theorem SGL.ext_entrys {node node' : SGL} (hentrys : node.entrys = node'.entrys)
    (hsum : node.entrySumInSgl = node'.entrySumInSgl) : node = node' := by
  cases node
  cases node'
  cases hentrys
  cases hsum
  rfl

/-- Filling leaves the number of entries. -/
theorem length_fillEntries (buildType : Bool) (results : Bytes) (entries : List SglEntry) :
    (fillEntries buildType results entries).length = entries.length := by
  induction entries generalizing results with
  | nil => rfl
  | cons entry rest ih => rw [fillEntries, List.length_cons, List.length_cons, ih]

/-- A node with a result written over its slots from `index` on. -/
def SGL.fillFrom (node : SGL) (buildType : Bool) (results : Bytes) (index : Nat) : SGL :=
  { node with
    entrys := node.entrys.take index ++ fillEntries buildType results (node.entrys.drop index)
    entrys_length := by
      rw [List.length_append, length_fillEntries, ← List.length_append, List.take_append_drop,
        node.entrys_length] }

/-- Writing nothing changes nothing. -/
theorem fillFrom_nil (node : SGL) (buildType : Bool) (index : Nat) :
    node.fillFrom buildType [] index = node := by
  refine SGL.ext_entrys ?_ rfl
  show node.entrys.take index ++ fillEntries buildType [] (node.entrys.drop index) = node.entrys
  rw [fillEntries_nil, List.take_append_drop]

/-- What is left of a result after an entry. -/
theorem drop_min (results : Bytes) (size : Nat) :
    results.drop (min size results.length) = results.drop size := by
  by_cases h : size ≤ results.length
  · rw [Nat.min_eq_left h]
  · rw [Nat.min_eq_right (by omega), List.drop_length, List.drop_eq_nil_of_le (by omega)]

/-- Writing from `index` on is writing the slot there and then the slots after it. -/
theorem fillFrom_succ {node : SGL} (buildType : Bool) (results : Bytes) {index : Nat}
    (hlt : index < node.entrys.length) :
    (node.setEntry index (node.entrys[index].write
      (results.take (min (node.entrys[index].size buildType) results.length)))).fillFrom buildType
        (results.drop (min (node.entrys[index].size buildType) results.length)) (index + 1) =
      node.fillFrom buildType results index := by
  refine SGL.ext_entrys ?_ rfl
  show List.take (index + 1) (node.entrys.set index _) ++
      fillEntries buildType _ ((node.entrys.set index _).drop (index + 1)) =
    node.entrys.take index ++ fillEntries buildType results (node.entrys.drop index)
  rw [List.drop_set_of_lt (Nat.lt_succ_self index), List.drop_eq_getElem_cons hlt,
    List.take_add_one, List.take_set_of_le le_rfl, List.getElem?_set_self hlt, List.append_assoc]
  rfl

/-- Behind the last slot there is nothing to write. -/
theorem fillFrom_end {node : SGL} (buildType : Bool) (results : Bytes) {index : Nat}
    (hend : entryPerSgl ≤ index) : node.fillFrom buildType results index = node := by
  have hlength : node.entrys.length ≤ index := by rw [node.entrys_length]; exact hend
  refine SGL.ext_entrys ?_ rfl
  show node.entrys.take index ++ fillEntries buildType results (node.entrys.drop index) = _
  rw [List.drop_eq_nil_of_le hlength, List.take_of_length_le hlength]
  exact List.append_nil _

/-- The room from a slot on is that of the slot and that of the slots after it. -/
theorem capacity_drop {node : SGL} (buildType : Bool) {index : Nat}
    (hlt : index < node.entrys.length) :
    capacity buildType (node.entrys.drop index) =
      node.entrys[index].size buildType +
        capacity buildType (node.entrys.drop (index + 1)) := by
  rw [List.drop_eq_getElem_cons hlt, capacity, capacity, total_cons]

/-- The scatter writes over all slots of a node, in use or not, and then goes on. -/
theorem scatterLoop_slots (buildType : Bool) (rest : List SGL) (left : Nat) {node : SGL}
    {index : Nat} {results : Bytes} (hindex : index + left + 1 = entryPerSgl) :
    (scatterLoop buildType results (node :: rest) index).map Prod.fst =
      (scatterLoop buildType (results.drop (capacity buildType (node.entrys.drop index))) rest
        0).map fun r => node.fillFrom buildType results index :: r.1 := by
  by_cases hnil : results = []
  · simp only [hnil, scatterLoop_nil, List.drop_nil, Option.map_some, fillFrom_nil]
  have hlt : index < node.entrys.length := by rw [node.entrys_length]; omega
  rw [scatterLoop, if_neg hnil, ← fillFrom_succ buildType results hlt,
    capacity_drop buildType hlt, ← List.drop_drop,
    ← drop_min results (node.entrys[index].size buildType)]
  -- `left` is the number of slots of the node after this one
  cases left with
  | zero =>
      have hend : entryPerSgl ≤ index + 1 := by omega
      have hnone : node.entrys.drop (index + 1) = [] :=
        List.drop_eq_nil_of_le (by rw [node.entrys_length]; exact hend)
      simp only [List.getElem?_eq_getElem hlt, if_pos hend, Option.map_map, hnone,
        fillFrom_end _ _ hend, capacity, total_nil, List.drop_zero]
      rfl
  | succ left =>
      simp only [List.getElem?_eq_getElem hlt,
        if_neg (show ¬entryPerSgl ≤ index + 1 from by omega), Option.map_map]
      show (scatterLoop buildType _ _ (index + 1)).map Prod.fst = _
      rw [scatterLoop_slots buildType rest left (by omega)]
      show (scatterLoop buildType (List.drop (capacity buildType
        ((node.entrys.set index _).drop (index + 1))) _) rest 0).map _ = _
      rw [List.drop_set_of_lt (Nat.lt_succ_self index)]

/-! ## The entries in use -/

/-- The slots of a node that are not in use. -/
def SGL.free (node : SGL) : List SglEntry := node.entrys.drop node.entrySumInSgl

/-- The number of bytes that go to entries in use before a scatter comes to a free slot that takes
bytes. -/
def passable (buildType : Bool) : List SGL → Nat
  | [] => 0
  | node :: rest =>
      capacity buildType node.used +
        if capacity buildType node.free = 0 then passable buildType rest else 0

/-- What a scatter leaves in the entries in use. -/
def fillUsed (buildType : Bool) : Bytes → List SGL → List SglEntry
  | _, [] => []
  | results, node :: rest =>
      fillEntries buildType results node.used ++
        fillUsed buildType (results.drop (capacity buildType node.entrys)) rest

/-- The room of a node is that of its entries in use and that of its free slots. -/
theorem capacity_entrys (buildType : Bool) (node : SGL) :
    capacity buildType node.entrys =
      capacity buildType node.used + capacity buildType node.free := by
  rw [capacity, capacity, capacity, ← total_append, SGL.used, SGL.free, List.take_append_drop]

/-- Filling goes from the front. -/
theorem take_fillEntries (buildType : Bool) (results : Bytes) (entries : List SglEntry) (n : Nat) :
    (fillEntries buildType results entries).take n =
      fillEntries buildType results (entries.take n) := by
  induction entries generalizing results n with
  | nil => simp [fillEntries]
  | cons entry rest ih =>
      cases n with
      | zero => rfl
      | succ n => rw [fillEntries, List.take_succ_cons, ih, List.take_succ_cons, fillEntries]

/-- The loop goes over the nodes of a chain one after another. -/
theorem scatterLoop_cons (buildType : Bool) (results : Bytes) (node : SGL) (rest : List SGL) :
    (scatterLoop buildType results (node :: rest) 0).map Prod.fst =
      (scatterLoop buildType (results.drop (capacity buildType node.entrys)) rest 0).map
        fun r => node.fillFrom buildType results 0 :: r.1 :=
  scatterLoop_slots buildType rest 63 (show 0 + 63 + 1 = entryPerSgl from rfl)

/-- The entries in use after a scatter. -/
theorem usedEntries_of_scatterLoop {buildType : Bool} {results : Bytes} {chain chain' : List SGL}
    {touched : List (Nat × Nat)}
    (h : scatterLoop buildType results chain 0 = some (chain', touched)) :
    usedEntries chain' = fillUsed buildType results chain := by
  induction chain generalizing results chain' touched with
  | nil =>
      rw [scatterLoop] at h
      split_ifs at h
      cases h
      rfl
  | cons node rest ih =>
      have hmap := scatterLoop_cons buildType results node rest
      rw [h, Option.map_some] at hmap
      obtain ⟨r, hr, hchain⟩ := Option.map_eq_some_iff.mp hmap.symm
      have hused : (node.fillFrom buildType results 0).used =
          fillEntries buildType results node.used :=
        take_fillEntries buildType results node.entrys node.entrySumInSgl
      show usedEntries (chain', touched).1 = _
      rw [← hchain]
      show (node.fillFrom buildType results 0).used ++ usedEntries r.1 = _
      rw [hused, ih hr]
      rfl

/-- A scatter that meets no free slot that takes bytes ends. -/
theorem exists_scatterLoop {buildType : Bool} {results : Bytes} {chain : List SGL}
    (h : results.length ≤ passable buildType chain) :
    ∃ r, scatterLoop buildType results chain 0 = some r := by
  induction chain generalizing results with
  | nil =>
      obtain rfl : results = [] := List.eq_nil_of_length_eq_zero (Nat.le_zero.mp h)
      exact ⟨_, scatterLoop_nil _ _ _⟩
  | cons node rest ih =>
      have hleft : (results.drop (capacity buildType node.entrys)).length ≤
          passable buildType rest := by
        rw [passable] at h
        rw [List.length_drop, capacity_entrys]
        split_ifs at h <;> omega
      obtain ⟨r, hr⟩ := ih hleft
      have hmap := scatterLoop_cons buildType results node rest
      rw [hr, Option.map_some] at hmap
      obtain ⟨r', hr', -⟩ := Option.map_eq_some_iff.mp hmap
      exact ⟨r', hr'⟩

/-- With nothing to write the entries stay as they are. -/
theorem fillUsed_nil (buildType : Bool) (chain : List SGL) :
    fillUsed buildType [] chain = usedEntries chain := by
  induction chain with
  | nil => rfl
  | cons node rest ih =>
      rw [fillUsed, fillEntries_nil, List.drop_nil, ih]
      rfl

/-- The bytes of two lists of entries. -/
theorem contents_append (buildType : Bool) (xs ys : List SglEntry) :
    contents buildType (xs ++ ys) = contents buildType xs ++ contents buildType ys :=
  List.flatMap_append

/-- The entries in use of the first node. -/
theorem contents_fillUsed_cons {buildType : Bool} {node : SGL} {rest : List SGL}
    (hvalid : Valid buildType node.used) (results : Bytes) :
    contents buildType (fillUsed buildType results (node :: rest)) =
      results.take (capacity buildType node.used) ++
        ((contents buildType node.used).drop results.length ++
          contents buildType (fillUsed buildType
            (results.drop (capacity buildType node.entrys)) rest)) := by
  rw [fillUsed, contents_append, contents_fillEntries hvalid, List.append_assoc]

/-- A result that meets no free slot that takes bytes comes first in the chain. -/
theorem prefix_fillUsed {buildType : Bool} {chain : List SGL} {results : Bytes}
    (hvalid : Valid buildType (usedEntries chain))
    (h : results.length ≤ passable buildType chain) :
    results <+: contents buildType (fillUsed buildType results chain) := by
  induction chain generalizing results with
  | nil =>
      obtain rfl : results = [] := List.eq_nil_of_length_eq_zero (Nat.le_zero.mp h)
      exact List.nil_prefix
  | cons node rest ih =>
      have hsplit := List.forall_mem_append.mp hvalid
      rw [contents_fillUsed_cons hsplit.1]
      by_cases hfits : results.length ≤ capacity buildType node.used
      · rw [List.take_of_length_le hfits]
        exact List.prefix_append _ _
      · rw [passable] at h
        split_ifs at h with hfree
        · -- the rest of the result goes to the next nodes
          have hover : (contents buildType node.used).drop results.length = [] :=
            List.drop_eq_nil_of_le (by rw [length_contents hsplit.1]; omega)
          rw [hover, List.nil_append, capacity_entrys, hfree, Nat.add_zero]
          have hrest := ih hsplit.2
            (show (results.drop (capacity buildType node.used)).length ≤ _ from by
              rw [List.length_drop]
              omega)
          have hjoin := (List.prefix_append_right_inj
            (results.take (capacity buildType node.used))).mpr hrest
          rwa [List.take_append_drop] at hjoin
        · omega

/-- A byte more than that is in its place only if it was there before. -/
theorem prefix_fillUsed_iff {buildType : Bool} {chain : List SGL} {results : Bytes} (b : Byte)
    (hvalid : Valid buildType (usedEntries chain))
    (h : results.length = passable buildType chain) :
    results ++ [b] <+: contents buildType (fillUsed buildType (results ++ [b]) chain) ↔
      [b] <+: (contents buildType (usedEntries chain)).drop (passable buildType chain) := by
  induction chain generalizing results with
  | nil => simp [fillUsed, usedEntries, contents]
  | cons node rest ih =>
      have hsplit := List.forall_mem_append.mp hvalid
      have hlen : (contents buildType node.used).length = capacity buildType node.used :=
        length_contents hsplit.1
      rw [passable] at h
      have hlong : capacity buildType node.used ≤ results.length := by omega
      have hover : (contents buildType node.used).drop (results ++ [b]).length = [] :=
        List.drop_eq_nil_of_le (by rw [hlen, List.length_append]; omega)
      have htake : (results ++ [b]).take (capacity buildType node.used) =
          results.take (capacity buildType node.used) :=
        List.take_append_of_le_length hlong
      have hused : (contents buildType (usedEntries (node :: rest))).drop
          (capacity buildType node.used) = contents buildType (usedEntries rest) := by
        show (contents buildType (node.used ++ usedEntries rest)).drop _ = _
        rw [contents_append, List.drop_left' hlen]
      have hresults : results ++ [b] = results.take (capacity buildType node.used) ++
          (results.drop (capacity buildType node.used) ++ [b]) := by
        rw [← List.append_assoc, List.take_append_drop]
      rw [contents_fillUsed_cons hsplit.1, hover, List.nil_append, htake]
      split_ifs at h with hfree
      · -- nothing is lost between this node and the next one
        have hrest : (results.drop (capacity buildType node.used)).length =
            passable buildType rest := by
          rw [List.length_drop]
          omega
        have hdrop : (results ++ [b]).drop (capacity buildType node.entrys) =
            results.drop (capacity buildType node.used) ++ [b] := by
          rw [capacity_entrys, hfree, Nat.add_zero, List.drop_append_of_le_length hlong]
        rw [hdrop, hresults, List.prefix_append_right_inj, ih hsplit.2 hrest, passable,
          if_pos hfree, ← List.drop_drop, hused]
      · -- the byte goes to a free slot
        have hall : results.drop (capacity buildType node.used) = [] :=
          List.drop_eq_nil_of_le (by omega)
        have hdrop : (results ++ [b]).drop (capacity buildType node.entrys) = [] := by
          refine List.drop_eq_nil_of_le ?_
          rw [capacity_entrys, List.length_append, List.length_singleton]
          omega
        rw [hdrop, fillUsed_nil, hresults, hall, List.nil_append, List.prefix_append_right_inj,
          passable, if_neg hfree, Nat.add_zero, hused]

/-! ## Delivery -/

/-- Zeroing changes neither the sizes of entries nor the free slots. -/
theorem passable_zeroFill (buildType : Bool) (chain : List SGL) :
    passable buildType (chain.map SGL.zeroFill) = passable buildType chain := by
  induction chain with
  | nil => rfl
  | cons node rest ih =>
      have hused : capacity buildType node.zeroFill.used = capacity buildType node.used := by
        rw [used_zeroFill, capacity, total_map]
        rfl
      have hfree : node.zeroFill.free = node.free :=
        List.drop_left' (by rw [List.length_map, length_used]; rfl)
      rw [List.map_cons, passable, passable, ih, hused, hfree]

/-- What the scatter starts from is passable for as many bytes. -/
theorem passable_scatterBase (buildType : Bool) (chain : List SGL) (len : Nat) (results : Bytes) :
    passable buildType (scatterBase chain len results) = passable buildType chain := by
  rw [scatterBase]
  split_ifs
  · exact passable_zeroFill buildType chain
  · rfl

/-- A result that meets no free slot that takes bytes comes first in the chain afterwards. -/
theorem readCallback_delivers {buildType : Bool} {chain : List SGL} (len : Nat) {results : Bytes}
    (hvalid : Valid buildType (usedEntries chain))
    (h : results.length ≤ passable buildType chain) :
    ∃ chain' touched, readCallback buildType chain len results = some (chain', touched) ∧
      results <+: contents buildType (usedEntries chain') := by
  rw [← passable_scatterBase buildType chain len results] at h
  have hv := (scatterBase_room buildType chain len results).1 hvalid
  obtain ⟨⟨chain', touched⟩, hloop⟩ := exists_scatterLoop h
  refine ⟨chain', touched, hloop, ?_⟩
  rw [usedEntries_of_scatterLoop hloop]
  exact prefix_fillUsed hv h

/-- Some byte is not the first one. -/
theorem exists_not_prefix (bytes : Bytes) : ∃ b, ¬[b] <+: bytes := by
  cases bytes with
  | nil => exact ⟨0, by simp⟩
  | cons first rest =>
      by_cases h : first = 0
      · exact ⟨1, by simp [h]⟩
      · exact ⟨0, by simp [Ne.symm h]⟩

/-- Some result with one byte more does not. -/
theorem exists_undelivered {buildType : Bool} {chain : List SGL} (len : Nat)
    (hvalid : Valid buildType (usedEntries chain)) :
    ∃ results : Bytes, results.length = passable buildType chain + 1 ∧
      ∀ chain' touched, readCallback buildType chain len results = some (chain', touched) →
        ¬results <+: contents buildType (usedEntries chain') := by
  -- the scatter starts from the same chain whatever the last byte is
  have hbase : ∀ b b' : Byte, scatterBase chain len
      (List.replicate (passable buildType chain) 0 ++ [b]) =
        scatterBase chain len (List.replicate (passable buildType chain) 0 ++ [b']) := by
    intro b b'
    simp only [scatterBase, List.length_append, List.length_singleton]
  obtain ⟨b, hb⟩ := exists_not_prefix ((contents buildType (usedEntries (scatterBase chain len
    (List.replicate (passable buildType chain) 0 ++ [0])))).drop (passable buildType chain))
  refine ⟨List.replicate (passable buildType chain) 0 ++ [b], by simp, ?_⟩
  intro chain' touched hrun
  have hv := (scatterBase_room buildType chain len
    (List.replicate (passable buildType chain) 0 ++ [b])).1 hvalid
  have hlength := passable_scatterBase buildType chain len
    (List.replicate (passable buildType chain) 0 ++ [b])
  rw [usedEntries_of_scatterLoop hrun]
  show ¬_ <+: contents buildType (fillUsed buildType _ (scatterBase chain len _))
  rw [prefix_fillUsed_iff b hv (by rw [List.length_replicate, hlength]), hlength, hbase b 0]
  exact hb

end GlobalCacheAdaptor.CephProxy
