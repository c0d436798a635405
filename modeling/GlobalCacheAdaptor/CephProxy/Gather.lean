import GlobalCacheAdaptor.CephProxy.RadosWrapper

/-!
# The slots a gather reads

Four write ops gather the first bytes of a chain with the same loop, which goes on to the next node
before it looks at what is left. `gatherTrace` is that loop with the slots it reads. They are the
first slots in use of the chain, each read once, so the loop ends and stays inside the chain.
-/

namespace GlobalCacheAdaptor.CephProxy

open Lib

/-- The gather loop with the slots it reads, by node and index. -/
def gatherTrace (isRelease : Bool) (chain : List SGL) (index leftLen : Nat) :
    Option (Bytes × List (Nat × Nat)) :=
  if leftLen = 0 then some ([], [])
  else
    match chain with
    | [] => none
    | node :: rest =>
        match node.entrys[index]? with
        | none => none
        | some entry =>
            let size := min (entry.size isRelease) leftLen
            if node.entrySumInSgl ≤ index + 1 then
              (gatherTrace isRelease rest 0 (leftLen - size)).map fun r =>
                (entry.buf.take size ++ r.1,
                  (0, index) :: r.2.map fun slot => (slot.1 + 1, slot.2))
            else
              (gatherTrace isRelease (node :: rest) (index + 1) (leftLen - size)).map fun r =>
                (entry.buf.take size ++ r.1, (0, index) :: r.2)
termination_by (chain.length, entryPerSgl - index)
decreasing_by
  · exact Prod.Lex.left _ _ (by simp)
  · have := node.entrySum_le
    exact Prod.Lex.right _ (by omega)

/-- The slots in use of a chain, in order. -/
def usedSlots : List SGL → List (Nat × Nat)
  | [] => []
  | node :: rest =>
      (List.range node.entrySumInSgl).map (fun index => (0, index)) ++
        (usedSlots rest).map fun slot => (slot.1 + 1, slot.2)

/-- The slots in use are inside the chain. -/
theorem inside_usedSlots (chain : List SGL) : Inside chain (usedSlots chain) := by
  induction chain with
  | nil => exact fun slot hslot => by cases hslot
  | cons node rest ih =>
      intro slot hslot
      rcases List.mem_append.mp hslot with hfirst | hlater
      · obtain ⟨index, hindex, rfl⟩ := List.mem_map.mp hfirst
        exact ⟨node, rfl, List.mem_range.mp hindex⟩
      · obtain ⟨inner, hinner, rfl⟩ := List.mem_map.mp hlater
        obtain ⟨found, hfound, hlt⟩ := ih inner hinner
        exact ⟨found, by simpa using hfound, hlt⟩

/-- The slots from one in use on. -/
theorem usedSlots_drop {node : SGL} {rest : List SGL} {index : Nat}
    (h : index < node.entrySumInSgl) :
    (usedSlots (node :: rest)).drop index =
      (0, index) :: (usedSlots (node :: rest)).drop (index + 1) := by
  have hlt : index < (usedSlots (node :: rest)).length := by
    simp only [usedSlots, List.length_append, List.length_map, List.length_range]
    omega
  have hget : (usedSlots (node :: rest))[index] = (0, index) := by
    simp only [usedSlots]
    rw [List.getElem_append_left (by simpa using h)]
    simp
  rw [List.drop_eq_getElem_cons hlt, hget]

/-- The slots behind the last one in use of a node are those of the next nodes. -/
theorem usedSlots_drop_node (node : SGL) (rest : List SGL) :
    (usedSlots (node :: rest)).drop node.entrySumInSgl =
      (usedSlots rest).map fun slot => (slot.1 + 1, slot.2) := by
  simp [usedSlots]

/-- Recording the slots does not change what is gathered. -/
theorem gatherTrace_fst (isRelease : Bool) (chain : List SGL) (index leftLen : Nat) :
    (gatherTrace isRelease chain index leftLen).map Prod.fst =
      gatherLoop isRelease chain index leftLen := by
  fun_induction gatherTrace isRelease chain index leftLen with
  | case1 chain index => rw [gatherLoop.eq_def, if_pos rfl, Option.map_some]
  | case2 index leftLen hleft => simp [gatherLoop, hleft]
  | case3 index leftLen hleft node rest hentry =>
      rw [gatherLoop]
      simp [hleft, hentry]
  | case4 index leftLen hleft node rest entry hentry size hlast ih =>
      rw [gatherLoop]
      simp only [hleft, if_false, hentry, hlast, if_true]
      rw [← ih, Option.map_map, Option.map_map]
      rfl
  | case5 index leftLen hleft node rest entry hentry size hlast ih =>
      rw [gatherLoop]
      simp only [hleft, if_false, hentry, hlast]
      rw [← ih, Option.map_map, Option.map_map]
      rfl

/-- The slots that are read are the first ones in use, each once and in order. -/
theorem gatherTrace_prefix {isRelease : Bool} {chain : List SGL} {index leftLen : Nat}
    (hindex : ∀ node ∈ chain.head?, index < node.entrySumInSgl) :
    ∀ r ∈ gatherTrace isRelease chain index leftLen, r.2 <+: (usedSlots chain).drop index := by
  fun_induction gatherTrace isRelease chain index leftLen with
  | case1 chain index =>
      intro r hr
      cases hr
      exact List.nil_prefix
  | case2 index leftLen hleft => exact nofun
  | case3 index leftLen hleft node rest hentry => exact nofun
  | case4 index leftLen hleft node rest entry hentry size hlast ih =>
      intro r hr
      obtain ⟨later, hlater, rfl⟩ := Option.map_eq_some_iff.mp hr
      have hlt : index < node.entrySumInSgl := hindex node rfl
      have hsum : index + 1 = node.entrySumInSgl := by omega
      have hrest := ih (fun node _ => node.one_le_entrySum) later hlater
      rw [usedSlots_drop hlt, hsum, usedSlots_drop_node]
      exact (List.prefix_cons_inj _).mpr (hrest.map _)
  | case5 index leftLen hleft node rest entry hentry size hlast ih =>
      intro r hr
      obtain ⟨later, hlater, rfl⟩ := Option.map_eq_some_iff.mp hr
      have hlt : index < node.entrySumInSgl := hindex node rfl
      have hnext : ∀ node' ∈ (node :: rest).head?, index + 1 < node'.entrySumInSgl := by
        intro node' hnode'
        cases hnode'
        omega
      rw [usedSlots_drop hlt]
      exact (List.prefix_cons_inj _).mpr (ih hnext later hlater)

/-- Gathering no more than fits ends with the first bytes of the chain, after reading slots in use
of the chain in order. -/
theorem gatherTrace_eq {isRelease : Bool} {chain : List SGL} {len : Nat}
    (h : ValidSgl isRelease chain len) :
    ∃ touched,
      gatherTrace isRelease chain 0 len =
        some ((contents isRelease (usedEntries chain)).take len, touched) ∧
      touched <+: usedSlots chain ∧ Inside chain touched := by
  have hgather : (gatherTrace isRelease chain 0 len).map Prod.fst =
      some ((contents isRelease (usedEntries chain)).take len) := by
    rw [gatherTrace_fst, gatherLoop_eq]
    exact gatherEntries_eq h.1 h.2
  obtain ⟨r, hr, hdata⟩ := Option.map_eq_some_iff.mp hgather
  have hbegins : r.2 <+: usedSlots chain := by
    refine gatherTrace_prefix (fun node _ => ?_) r hr
    exact node.one_le_entrySum
  refine ⟨r.2, ?_, hbegins, fun slot hslot => ?_⟩
  · rw [hr, ← hdata]
  · exact inside_usedSlots chain slot (hbegins.subset hslot)

/-- What an append leaves and what librados gets, when the bufferlist has room. -/
theorem add_of_fits {writeOp : RadosObjectWriteOp} {data : Bytes} (subOp : Bytes → SubOp)
    (hfits : (writeOp.bl ++ data).length < 2 ^ 32) :
    writeOp.add data subOp =
      some ⟨writeOp.bl ++ data, writeOp.op ++ [subOp (writeOp.bl ++ data)]⟩ := by
  rw [List.length_append] at hfits
  rw [RadosObjectWriteOp.add, appendBl, if_pos hfits, Option.map_some]

/-- The bufferlist of `RadosWriteOpWriteSGL` ends in its align prefix, the data and its align
suffix. -/
theorem writeSGL_of_fits {isRelease : Bool} {chain : List SGL} {len off : Nat} {data : Bytes}
    (hgather : gather isRelease chain len = some data) {alignBuffer : Option AlignBuffer}
    {align : AlignBuffer} (halign : align = alignBuffer.getD {})
    (hprev : ValidBuffer align.prevAlignBuffer align.prevAlignLen)
    (hback : ValidBuffer align.backAlignBuffer align.backAlignLen)
    {writeOp : RadosObjectWriteOp} {bl : Bytes}
    (hbl : bl = writeOp.bl ++ ((align.prevAlignBuffer.getD []).take align.prevAlignLen ++ data ++
      (align.backAlignBuffer.getD []).take align.backAlignLen))
    (hfits : bl.length < 2 ^ 32) :
    radosWriteOpWriteSGL writeOp chain len off alignBuffer isRelease =
      some ⟨bl, writeOp.op ++ [.write off bl]⟩ := by
  subst halign hbl
  have hlength := hfits
  simp only [List.length_append] at hlength
  rw [radosWriteOpWriteSGL, hgather, Option.bind_some, alignBytes_eq hprev (by omega),
    alignBytes_eq hback (by omega)]
  exact add_of_fits (.write off) hfits

/-- Each of the four write ops reads slots in use of the chain, in order, and ends. If the
bufferlist then has less than 2^32 bytes, it is what it was with the first `len` bytes of the chain
behind, for `RadosWriteOpWriteSGL` between the align buffers, and it is what librados gets. -/
theorem writeSgl_appends_first {isRelease : Bool} {chain : List SGL} {len : Nat}
    (h : ValidSgl isRelease chain len) (hlen : len < 2 ^ 32) :
    ∃ touched data,
      gatherTrace isRelease chain 0 len = some (data, touched) ∧
      touched <+: usedSlots chain ∧ Inside chain touched ∧
      data = (contents isRelease (usedEntries chain)).take len ∧ data.length = len ∧
      ∀ writeOp : RadosObjectWriteOp,
        (∀ off alignBuffer align bl, align = alignBuffer.getD {} →
          ValidBuffer align.prevAlignBuffer align.prevAlignLen →
          ValidBuffer align.backAlignBuffer align.backAlignLen →
          bl = writeOp.bl ++ ((align.prevAlignBuffer.getD []).take align.prevAlignLen ++ data ++
            (align.backAlignBuffer.getD []).take align.backAlignLen) →
          bl.length < 2 ^ 32 →
            radosWriteOpWriteSGL writeOp chain len off alignBuffer isRelease =
              some ⟨bl, writeOp.op ++ [.write off bl]⟩) ∧
        ∀ bl, bl = writeOp.bl ++ data → bl.length < 2 ^ 32 →
          radosWriteOpWriteFullSGL writeOp chain len isRelease =
            some ⟨bl, writeOp.op ++ [.writeFull bl]⟩ ∧
          (∀ writeLen off, radosWriteOpWriteSameSGL writeOp chain len writeLen off isRelease =
            some ⟨bl, writeOp.op ++ [.writeSame off writeLen bl]⟩) ∧
          radosWriteOpAppendSGL writeOp chain len isRelease =
            some ⟨bl, writeOp.op ++ [.append bl]⟩ := by
  obtain ⟨touched, htrace, hbegins, hinside⟩ := gatherTrace_eq h
  obtain ⟨hgather, hlength⟩ := gather_of_valid h
  rw [Nat.mod_eq_of_lt hlen] at hgather
  refine ⟨touched, _, htrace, hbegins, hinside, rfl, hlength, fun writeOp => ⟨?_, ?_⟩⟩
  · intro off alignBuffer align bl halign hprev hback hbl hfits
    exact writeSGL_of_fits hgather halign hprev hback hbl hfits
  · rintro bl rfl hfits
    refine ⟨?_, fun writeLen off => ?_, ?_⟩
    · rw [radosWriteOpWriteFullSGL, hgather]
      exact add_of_fits .writeFull hfits
    · rw [radosWriteOpWriteSameSGL, hgather]
      exact add_of_fits (.writeSame off writeLen) hfits
    · rw [radosWriteOpAppendSGL, hgather]
      exact add_of_fits .append hfits

/-- Two nodes of one byte each are gathered whole, behind what the bufferlist holds and between
align buffers. -/
theorem writeSgl_appends_oneThenOne :
    radosWriteOpAppendSGL { bl := [1] } oneThenOne 2 false =
        some ⟨[1, 9, 9], [.append [1, 9, 9]]⟩ ∧
      radosWriteOpWriteSGL { bl := [1] } oneThenOne 2 4
          (some { prevAlignBuffer := some [2, 3], prevAlignLen := 1 }) false =
        some ⟨[1, 2, 9, 9], [.write 4 [1, 2, 9, 9]]⟩ := by
  have hvalid : ValidSgl false oneThenOne 2 := ⟨by decide, by decide⟩
  obtain ⟨touched, data, -, -, -, rfl, -, hops⟩ := writeSgl_appends_first hvalid (by decide)
  obtain ⟨hwriteSGL, hothers⟩ := hops { bl := [1] }
  refine ⟨(hothers [1, 9, 9] rfl (by decide)).2.2, hwriteSGL 4 _ _ _ rfl ?_ ?_ rfl (by decide)⟩
  · intro bytes hbytes
    cases hbytes
    decide
  · intro bytes hbytes
    cases hbytes

end GlobalCacheAdaptor.CephProxy
