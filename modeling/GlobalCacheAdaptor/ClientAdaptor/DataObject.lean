import GlobalCacheAdaptor.ClientAdaptor.Objecter
import GlobalCacheAdaptor.ClientAdaptor.Prefetch
import GlobalCacheAdaptor.Lib.Tokens
import GlobalCacheAdaptor.ServerAdaptor.NetworkModule
import Mathlib.Data.Nat.Digits.Lemmas

/-!
# Object names between client and server

The client sends an op to the cache if `filter_msg` takes its name for that of an RBD data object,
and the server cuts the name into sections and makes a cache key from them. `filterAgrees_iff`
says for which names the two agree. For the names librbd gives its data objects,
`dataObjects_keys_distinct` says that the server accepts them all and that different objects get
different keys.
-/

namespace GlobalCacheAdaptor.ClientAdaptor

open Lib ServerAdaptor

/-! ## Names the server accepts -/

/-- Every message with this name whose ops are well formed is converted, each op to one on the
RBD data object with this key. -/
def AcceptsAs (name : Bytes) (key : RbdObjid) : Prop :=
  ∀ op : MOSDOp, op.oid = name → (∀ i ∈ op.ops, i.WellFormed) →
    ∃ opreq, processOpReq op = .ok ⟨0, opreq, []⟩ ∧ opreq.vecOps.length = op.ops.length ∧
      ∀ o ∈ opreq.vecOps, o.isRbd = true ∧ o.rbdObjId = key

/-- The loop of `ProcessOpReq` keeps the key of the name in every op it adds. -/
theorem convertOps_key {name : Bytes} {key : RbdObjid} (hkey : rbdObjId (strtok name) = some key)
    (ops : List OSDOp) (st st' : LoopState)
    (hst : ∀ o ∈ st.vecOps, o.isRbd = true ∧ o.rbdObjId = key)
    (h : convertOps name (strtok name) true ops st = .ok (some st')) :
    st'.vecOps.length = st.vecOps.length + ops.length ∧
      ∀ o ∈ st'.vecOps, o.isRbd = true ∧ o.rbdObjId = key := by
  induction ops generalizing st with
  | nil =>
      rw [convertOps, Except.ok.injEq, Option.some.injEq] at h
      subst h
      exact ⟨rfl, hst⟩
  | cons i rest ih =>
      simp only [convertOps, newOneOp, if_true, hkey] at h
      split at h
      · cases h
      · rename_i converted hconv
        obtain ⟨-, hrbd, hid⟩ := convert_sameObject hconv
        have hnext : ∀ o ∈ st.vecOps ++ [converted.oneOp], o.isRbd = true ∧ o.rbdObjId = key := by
          intro o ho
          rw [List.mem_append, List.mem_singleton] at ho
          obtain ho | rfl := ho
          · exact hst o ho
          · exact ⟨hrbd, hid⟩
        obtain ⟨hlen, hall⟩ := ih _ hnext h
        rw [List.length_append, List.length_singleton] at hlen
        rw [List.length_cons]
        exact ⟨by omega, hall⟩

/-- A name with `rbd_data` in front, three sections and a key is accepted under this key. -/
theorem acceptsAs_of_key {name : Bytes} {key : RbdObjid} (hmark : hasRbdMark (strtok name) = true)
    (hlen : 3 ≤ (strtok name).length) (hkey : rbdObjId (strtok name) = some key) :
    AcceptsAs name key := by
  intro op hoid hops
  subst hoid
  have hpool : poolOverflow op.oid = false := by
    by_contra hne
    rw [Bool.not_eq_false, ← rbdObjId_eq_none_iff hmark, hkey] at hne
    cases hne
  obtain ⟨result, hconv⟩ := (convertOps_ok_iff hpool op.ops {}).mpr hops
  cases result with
  | none => exact absurd hconv (convertOps_ne_none hpool _ _)
  | some st =>
      have hkeys := convertOps_key hkey op.ops {} st (by simp) (by rw [← hconv, hmark])
      refine ⟨completeRequest op st, ?_, ?_, hkeys.2⟩
      · rw [processOpReq, if_neg (by omega), hconv]
      · rw [show (completeRequest op st).vecOps = st.vecOps from rfl, hkeys.1]
        exact Nat.zero_add _

/-- A name whose pool number overflows is not accepted. -/
theorem not_acceptsAs_of_poolOverflow {name : Bytes} (h : poolOverflow name = true)
    (key : RbdObjid) : ¬ AcceptsAs name key := by
  intro haccepts
  obtain ⟨opreq, hret, -⟩ := haccepts { oid := name, ops := [{ op := { op := .read } }] } rfl
    (by simp [OSDOp.WellFormed])
  rw [processOpReq_of_poolOverflow ⟨by simp, h⟩] at hret
  cases hret

/-! ## The routing filter -/

/-- The client's filter and the server's parser agree on a name: if the op is sent to the cache,
the server finds three sections with `rbd_data` in front and accepts the op. -/
def FilterAgrees (name : Bytes) : Prop :=
  filterMsg name = true →
    3 ≤ (strtok name).length ∧ (strtok name).head? = some (ascii "rbd_data") ∧
      ∃ key, AcceptsAs name key

/-- A dot with other bytes on both sides. -/
def HasTwoSections (text : Bytes) : Prop :=
  ∃ before after, text = before ++ byteOf '.' :: after ∧ (∃ x ∈ before, x ≠ byteOf '.') ∧
    ∃ x ∈ after, x ≠ byteOf '.'

/-- The sections of a name without zero bytes. -/
theorem strtok_eq_tokens {name : Bytes} (hnul : 0 ∉ name) :
    strtok name = tokens (byteOf '.') name := by
  rw [strtok, cStr_eq_self hnul]
  rfl

/-- The mark is one section. -/
theorem rbdMark_free : ascii "rbd_data" ≠ [] ∧ byteOf '.' ∉ ascii "rbd_data" := by decide

/-- In a name that the filter lets through, the mark is a section of its own exactly if a dot comes
behind it, and then the other sections are those of the rest. -/
theorem strtok_of_filterMsg {name : Bytes} (hnul : 0 ∉ name) (hfilter : filterMsg name = true) :
    ((strtok name).head? = some (ascii "rbd_data") ↔ name[8]? = some (byteOf '.')) ∧
      (name[8]? = some (byteOf '.') →
        strtok name = ascii "rbd_data" :: tokens (byteOf '.') (name.drop 9)) := by
  have hlong : 27 ≤ name.length ∧ name.take 8 = ascii "rbd_data" := by
    simpa only [filterMsg, Bool.and_eq_true, decide_eq_true_eq] using hfilter
  have hname : name = ascii "rbd_data" ++ name.drop 8 := by
    rw [← hlong.2, List.take_append_drop]
  have htoks : strtok name = tokens (byteOf '.') (ascii "rbd_data" ++ name.drop 8) := by
    rw [strtok_eq_tokens hnul, ← hname]
  constructor
  · have hrest : name.drop 8 ≠ [] := by
      rw [ne_eq, List.drop_eq_nil_iff]
      omega
    rw [htoks, head?_tokens_append_iff rbdMark_free.1 rbdMark_free.2, List.head?_drop]
    simp only [hrest, false_or]
  · intro hdot
    have hdrop : name.drop 8 = byteOf '.' :: name.drop 9 := by
      obtain ⟨hlt, hget⟩ := List.getElem?_eq_some_iff.mp hdot
      rw [List.drop_eq_getElem_cons hlt, hget]
    rw [htoks, hdrop, tokens_token_append rbdMark_free.1 rbdMark_free.2]

/-- The client's filter and the server's parser agree on a name exactly if the filter refuses it,
or the ninth byte is a dot, another dot after it separates two sections, and a pool number in the
name fits 32 bits. -/
theorem filterAgrees_iff {name : Bytes} (hnul : 0 ∉ name) :
    FilterAgrees name ↔
      filterMsg name = false ∨
        (name[8]? = some (byteOf '.') ∧ HasTwoSections (name.drop 9) ∧
          poolOverflow name = false) := by
  cases hfilter : filterMsg name with
  | false => exact iff_of_true (fun h => absurd (hfilter.symm.trans h) (by decide)) (.inl rfl)
  | true =>
      obtain ⟨hmark, hsections⟩ := strtok_of_filterMsg hnul hfilter
      constructor
      · intro h
        obtain ⟨hlen, hhead, key, haccepts⟩ := h hfilter
        have hdot := hmark.mp hhead
        rw [hsections hdot, List.length_cons] at hlen
        refine .inr ⟨hdot, (two_le_length_tokens_iff _).mp (by omega), ?_⟩
        by_contra hpool
        exact not_acceptsAs_of_poolOverflow (by simpa using hpool) key haccepts
      · intro h _
        obtain habsurd | ⟨hdot, htwo, hpool⟩ := h
        · cases habsurd
        · have hlen : 3 ≤ (strtok name).length := by
            have := (two_le_length_tokens_iff _).mpr htwo
            rw [hsections hdot, List.length_cons]
            omega
          have hrbd : hasRbdMark (strtok name) = true := decide_eq_true (hmark.mpr hdot)
          refine ⟨hlen, hmark.mpr hdot, ?_⟩
          cases hkey : rbdObjId (strtok name) with
          | none =>
              rw [(rbdObjId_eq_none_iff hrbd).mp hkey] at hpool
              cases hpool
          | some key => exact ⟨key, acceptsAs_of_key hrbd hlen hkey⟩

/-- A data object of an image with its own data pool is sent to the cache and accepted. -/
theorem filterAgrees_dataObject :
    filterMsg (ascii "rbd_data.7.10226b8b4567.0000000000000001") = true ∧
      FilterAgrees (ascii "rbd_data.7.10226b8b4567.0000000000000001") := by
  refine ⟨by decide, (filterAgrees_iff (by decide)).mpr (.inr ⟨by decide, ?_, by decide⟩)⟩
  exact ⟨ascii "7.10226b8b4567", ascii "0000000000000001", by decide,
    ⟨byteOf '7', by decide, by decide⟩, ⟨byteOf '0', by decide, by decide⟩⟩

/-- A name of two sections is sent to the cache, and the server answers it with `-EINVAL`. -/
theorem not_filterAgrees_twoSections :
    ¬ FilterAgrees (ascii "rbd_data.10226b8b4567_backup") := by
  intro h
  have hlen := (h (by decide)).1
  exact absurd hlen (by decide)

/-! ## The names of librbd -/

/-- A data object of librbd: the metadata pool if the name has one, the digits of the image id and
the object number. -/
structure DataObject where
  pool : Option Nat
  id : List Nat
  number : Nat
  pool_lt : ∀ p ∈ pool, p < 2 ^ 32
  id_lt : ∀ d ∈ id, d < 16
  id_length : 1 ≤ id.length ∧ id.length ≤ 15
  number_lt : number < 2 ^ 40

/-- `<id>.<16 hex digits>`. -/
def DataObject.tail (o : DataObject) : Bytes :=
  o.id.map hexDigit ++ byteOf '.' :: (hexDigits 16 o.number).map hexDigit

/-- `rbd_data.<id>.<16 hex digits>` or `rbd_data.<pool>.<id>.<16 hex digits>`. -/
def DataObject.name (o : DataObject) : Bytes :=
  ascii "rbd_data" ++ byteOf '.' ::
    (match o.pool with
      | none => o.tail
      | some p => toDecimal p ++ byteOf '.' :: o.tail)

/-- The value of digits in a base, the first one being the highest. -/
def digitsValue (base : Nat) (ds : List Nat) : Nat := ds.foldl (fun acc d => acc * base + d) 0

/-- The cache key of a data object. -/
def DataObject.key (o : DataObject) : RbdObjid where
  poolId := BitVec.ofNat 32 (o.pool.getD 0)
  head := BitVec.ofNat 64 (digitsValue 16 (1 :: o.id))
  seq := BitVec.ofNat 40 o.number
  format := if o.pool.isSome then formatSpecifyMdDatePool else formatUnspecifyMdDatePool
  version := saVersion
  reserve := 0

/-- The value in the order Mathlib lists digits. -/
theorem digitsValue_eq_ofDigits (base : Nat) (ds : List Nat) :
    digitsValue base ds = Nat.ofDigits base ds.reverse := by
  rw [Nat.ofDigits_eq_foldr, List.foldr_reverse, digitsValue]
  congr 1
  funext acc d
  show acc * base + d = d + base * acc
  rw [Nat.mul_comm, Nat.add_comm]

/-- Digits are worth less than the base to the power of their number. -/
theorem digitsValue_lt {base : Nat} (hbase : 1 < base) {ds : List Nat} (h : ∀ d ∈ ds, d < base) :
    digitsValue base ds < base ^ ds.length := by
  rw [digitsValue_eq_ofDigits, ← List.length_reverse]
  exact Nat.ofDigits_lt_base_pow_length hbase fun d hd => h d (List.mem_reverse.mp hd)

/-- Behind a leading 1, the digits can be read off their value. -/
theorem digitsValue_one_cons_inj {base : Nat} (hbase : 1 < base) {ds ds' : List Nat}
    (h : ∀ d ∈ ds, d < base) (h' : ∀ d ∈ ds', d < base)
    (heq : digitsValue base (1 :: ds) = digitsValue base (1 :: ds')) : ds = ds' := by
  have hread : ∀ es : List Nat, (∀ d ∈ es, d < base) →
      Nat.digits base (digitsValue base (1 :: es)) = (1 :: es).reverse := by
    intro es hes
    rw [digitsValue_eq_ofDigits]
    refine Nat.digits_ofDigits base hbase _ ?_ ?_
    · intro d hd
      obtain rfl | hd := List.mem_cons.mp (List.mem_reverse.mp hd)
      · exact hbase
      · exact hes d hd
    · intro _
      rw [List.getLast_reverse, List.head_cons]
      decide
  have hrev := (hread ds h).symm.trans ((congrArg (Nat.digits base) heq).trans (hread ds' h'))
  exact (List.cons.inj (List.reverse_injective hrev)).2

/-- A printed pool number is a list of digits with the number as their value. -/
theorem toDecimal_digits (n : Nat) :
    ∃ ds, toDecimal n = ds.map hexDigit ∧ ds ≠ [] ∧ (∀ d ∈ ds, d < 10) ∧ digitsValue 10 ds = n := by
  have hchar : ∀ d < 10, Fin.ofNat 256 (Nat.digitChar d).toNat = hexDigit d := by decide
  rw [toDecimal, ascii, Nat.toList_repr]
  induction n using Nat.strongRecOn with
  | ind n ih =>
      rw [Nat.toDigits_eq_if (by decide)]
      by_cases hn : n < 10
      · rw [if_pos hn]
        refine ⟨[n], ?_, List.cons_ne_nil n [], by simpa using hn, Nat.zero_add n⟩
        rw [List.map_singleton, List.map_singleton, hchar n hn]
      · rw [if_neg hn]
        obtain ⟨ds, hds, hne, hlt, hval⟩ := ih (n / 10) (by omega)
        refine ⟨ds ++ [n % 10], ?_, by simp, ?_, ?_⟩
        · rw [List.map_append, List.map_append, hds, List.map_singleton, List.map_singleton,
            hchar (n % 10) (by omega)]
        · intro d hd
          rw [List.mem_append, List.mem_singleton] at hd
          obtain hd | rfl := hd
          · exact hlt d hd
          · omega
        · rw [digitsValue, List.foldl_append]
          show digitsValue 10 ds * 10 + n % 10 = n
          rw [hval]
          omega

/-- Printed digits contain neither a zero byte nor a dot. -/
theorem plain_map_hexDigit {ds : List Nat} (h : ∀ d ∈ ds, d < 16) :
    0 ∉ ds.map hexDigit ∧ byteOf '.' ∉ ds.map hexDigit := by
  have hall : ∀ d < 16, hexDigit d ≠ 0 ∧ hexDigit d ≠ byteOf '.' := by decide
  refine ⟨?_, ?_⟩ <;> intro hmem <;> obtain ⟨d, hd, heq⟩ := List.mem_map.mp hmem
  · exact (hall d (h d hd)).1 heq
  · exact (hall d (h d hd)).2 heq

/-- A printed pool number is a section without zero bytes. -/
theorem plain_toDecimal (n : Nat) :
    toDecimal n ≠ [] ∧ 0 ∉ toDecimal n ∧ byteOf '.' ∉ toDecimal n := by
  obtain ⟨ds, hds, hne, hlt, -⟩ := toDecimal_digits n
  have hplain := plain_map_hexDigit fun d hd => Nat.lt_trans (hlt d hd) (by decide : 10 < 16)
  rw [hds]
  exact ⟨by simpa using hne, hplain.1, hplain.2⟩

/-- A pool number reads back as the number. -/
theorem strtoul_toDecimal {n : Nat} (hn : n < 2 ^ 64) : (strtoul 10 (toDecimal n)).toNat = n := by
  obtain ⟨ds, hds, -, hlt, hval⟩ := toDecimal_digits n
  have hread := strtoul_map_hexDigit (by decide : 10 ≤ 16) hlt
  rw [← digitsValue, hval] at hread
  rw [hds]
  exact hread hn

/-- The key from three sections. -/
theorem rbdObjId_three (mark id number : Bytes) :
    rbdObjId [mark, id, number] = some
      { poolId := 0
        head := strtoul 16 (ascii "1" ++ id)
        seq := (strtoul 16 number).setWidth 40
        format := formatUnspecifyMdDatePool
        version := saVersion
        reserve := 0 } := rfl

/-- The key from four sections, if the pool number fits. -/
theorem rbdObjId_four (mark : Bytes) {pool : Bytes} (hpool : strtoul 10 pool >>> 32 = 0)
    (id number : Bytes) :
    rbdObjId [mark, pool, id, number] = some
      { poolId := (strtoul 10 pool).setWidth 32
        head := strtoul 16 (ascii "1" ++ id)
        seq := (strtoul 16 number).setWidth 40
        format := formatSpecifyMdDatePool
        version := saVersion
        reserve := 0 } := by
  have hfits : ¬ 0 < poolSection [mark, pool, id, number] >>> 32 := by
    show ¬ 0 < strtoul 10 pool >>> 32
    rw [hpool]
    decide
  unfold rbdObjId
  rw [if_pos (by simp), if_neg hfits]
  rfl

namespace DataObject

variable (o : DataObject)

/-- The number is printed with its sixteen digits. -/
theorem number_plain : (hexDigits 16 o.number).map hexDigit ≠ [] ∧
    0 ∉ (hexDigits 16 o.number).map hexDigit ∧
    byteOf '.' ∉ (hexDigits 16 o.number).map hexDigit := by
  refine ⟨?_, plain_map_hexDigit fun _ => lt_of_mem_hexDigits⟩
  intro hnil
  have hlen := congrArg List.length hnil
  rw [List.length_map, length_hexDigits] at hlen
  cases hlen

/-- The image id is a section without zero bytes. -/
theorem id_plain : o.id.map hexDigit ≠ [] ∧ 0 ∉ o.id.map hexDigit ∧
    byteOf '.' ∉ o.id.map hexDigit := by
  refine ⟨?_, plain_map_hexDigit o.id_lt⟩
  intro hnil
  have hlen := congrArg List.length hnil
  rw [List.length_map, List.length_nil] at hlen
  have := o.id_length.1
  omega

/-- The name holds no zero byte. -/
theorem name_nul : 0 ∉ o.name := by
  have hmark : (0 : Byte) ∉ ascii "rbd_data" ∧ (0 : Byte) ≠ byteOf '.' := by decide
  have htail : 0 ∉ o.tail := by
    simp only [tail, List.mem_append, List.mem_cons, o.id_plain.2.1, o.number_plain.2.1, hmark.2,
      or_self, not_false_eq_true]
  unfold name
  cases o.pool with
  | none =>
      simp only [List.mem_append, List.mem_cons, hmark.1, hmark.2, htail, or_self,
        not_false_eq_true]
  | some p =>
      simp only [List.mem_append, List.mem_cons, hmark.1, hmark.2, htail,
        (plain_toDecimal p).2.1, or_self, not_false_eq_true]

/-- The sections of the name. -/
theorem strtok_name :
    strtok o.name = ascii "rbd_data" :: (o.pool.toList.map toDecimal ++
      [o.id.map hexDigit, (hexDigits 16 o.number).map hexDigit]) := by
  have htail : tokens (byteOf '.') o.tail =
      [o.id.map hexDigit, (hexDigits 16 o.number).map hexDigit] := by
    rw [tail, tokens_token_append o.id_plain.1 o.id_plain.2.2,
      tokens_of_notMem o.number_plain.1 o.number_plain.2.2]
  rw [strtok_eq_tokens o.name_nul, name, tokens_token_append rbdMark_free.1 rbdMark_free.2]
  cases o.pool with
  | none =>
      rw [htail]
      rfl
  | some p =>
      rw [tokens_token_append (plain_toDecimal p).1 (plain_toDecimal p).2.2, htail]
      rfl

/-- The image id behind its leading digit is a list of digits. -/
theorem head_digits : ∀ d ∈ 1 :: o.id, d < 16 :=
  List.forall_mem_cons.mpr ⟨by decide, o.id_lt⟩

/-- The image id behind its leading digit fits 64 bits. -/
theorem head_lt : digitsValue 16 (1 :: o.id) < 2 ^ 64 := by
  refine Nat.lt_of_lt_of_le (digitsValue_lt (by decide) o.head_digits) ?_
  have hlen : (1 :: o.id).length ≤ 16 := by
    have := o.id_length.2
    rw [List.length_cons]
    omega
  exact Nat.pow_le_pow_right (by decide) hlen

/-- The server reads the image id behind its leading digit. -/
theorem strtoul_id :
    strtoul 16 (ascii "1" ++ o.id.map hexDigit) = BitVec.ofNat 64 (digitsValue 16 (1 :: o.id)) := by
  apply BitVec.eq_of_toNat_eq
  rw [BitVec.toNat_ofNat, Nat.mod_eq_of_lt o.head_lt]
  exact strtoul_map_hexDigit (Nat.le_refl 16) o.head_digits o.head_lt

/-- The server reads the object number into its 40 bits. -/
theorem strtoul_number :
    (strtoul 16 ((hexDigits 16 o.number).map hexDigit)).setWidth 40 =
      BitVec.ofNat 40 o.number := by
  have hlt : o.number < 2 ^ 64 := Nat.lt_trans o.number_lt (by decide)
  apply BitVec.eq_of_toNat_eq
  rw [BitVec.toNat_setWidth, strtoul_hexDigits hlt, BitVec.toNat_ofNat]

/-- The server makes the key of the object from its name. -/
theorem rbdObjId_name : rbdObjId (strtok o.name) = some o.key := by
  rw [o.strtok_name, key, ← o.strtoul_id, ← o.strtoul_number]
  cases hpool : o.pool with
  | none => exact rbdObjId_three _ _ _
  | some p =>
      have hp : p < 2 ^ 32 := o.pool_lt p (by rw [hpool]; rfl)
      have hread := strtoul_toDecimal (Nat.lt_trans hp (by decide))
      have hshift : strtoul 10 (toDecimal p) >>> 32 = 0 := by
        apply BitVec.eq_of_toNat_eq
        rw [BitVec.toNat_ushiftRight, hread, Nat.shiftRight_eq_div_pow, Nat.div_eq_of_lt hp]
        rfl
      have hwidth : (strtoul 10 (toDecimal p)).setWidth 32 = BitVec.ofNat 32 p := by
        apply BitVec.eq_of_toNat_eq
        rw [BitVec.toNat_setWidth, hread, BitVec.toNat_ofNat]
      have hkey := rbdObjId_four (ascii "rbd_data") hshift (o.id.map hexDigit)
        ((hexDigits 16 o.number).map hexDigit)
      rw [hwidth] at hkey
      exact hkey

/-- The server accepts the name under the key of the object. -/
theorem acceptsAs_name : AcceptsAs o.name o.key := by
  have htok := o.strtok_name
  refine acceptsAs_of_key ?_ ?_ o.rbdObjId_name
  · rw [htok]
    exact decide_eq_true rfl
  · rw [htok, List.length_cons, List.length_append]
    show 3 ≤ _ + 2 + 1
    omega

end DataObject

/-- Objects with the same key have the same name. -/
theorem name_eq_of_key_eq {a b : DataObject} (hpool : a.key.poolId = b.key.poolId)
    (hhead : a.key.head = b.key.head) (hseq : a.key.seq = b.key.seq)
    (hformat : a.key.format = b.key.format) : a.name = b.name := by
  have hid : a.id = b.id := by
    refine digitsValue_one_cons_inj (by decide) a.id_lt b.id_lt ?_
    have hnat := congrArg BitVec.toNat hhead
    simp only [DataObject.key, BitVec.toNat_ofNat, Nat.mod_eq_of_lt a.head_lt,
      Nat.mod_eq_of_lt b.head_lt] at hnat
    exact hnat
  have hnumber : a.number = b.number := by
    have hnat := congrArg BitVec.toNat hseq
    simp only [DataObject.key, BitVec.toNat_ofNat, Nat.mod_eq_of_lt a.number_lt,
      Nat.mod_eq_of_lt b.number_lt] at hnat
    exact hnat
  have htail : a.tail = b.tail := by rw [DataObject.tail, hid, hnumber, DataObject.tail]
  have hformats : formatUnspecifyMdDatePool ≠ formatSpecifyMdDatePool := by decide
  have hnat := congrArg BitVec.toNat hpool
  have ha := a.pool_lt
  have hb := b.pool_lt
  simp only [DataObject.key] at hnat hformat
  rw [DataObject.name, DataObject.name, htail]
  cases hpa : a.pool with
  | none =>
      cases hpb : b.pool with
      | none => rfl
      | some q =>
          rw [hpa, hpb] at hformat
          exact absurd hformat hformats
  | some p =>
      cases hpb : b.pool with
      | none =>
          rw [hpa, hpb] at hformat
          exact absurd hformat hformats.symm
      | some q =>
          have hp := ha p hpa
          have hq := hb q hpb
          rw [hpa, hpb, Option.getD_some, Option.getD_some, BitVec.toNat_ofNat, BitVec.toNat_ofNat,
            Nat.mod_eq_of_lt hp, Nat.mod_eq_of_lt hq] at hnat
          rw [hnat]

/-- Distinct data objects get distinct cache keys: the server accepts the names of any two data
objects, and if the names differ then the keys differ in pool, head, sequence or format. -/
theorem dataObjects_keys_distinct (a b : DataObject) :
    AcceptsAs a.name a.key ∧ AcceptsAs b.name b.key ∧
      (a.name ≠ b.name →
        (a.key.poolId, a.key.head, a.key.seq, a.key.format) ≠
          (b.key.poolId, b.key.head, b.key.seq, b.key.format)) := by
  refine ⟨a.acceptsAs_name, b.acceptsAs_name, ?_⟩
  intro hne hkeys
  simp only [Prod.mk.injEq] at hkeys
  obtain ⟨hpool, hhead, hseq, hformat⟩ := hkeys
  exact hne (name_eq_of_key_eq hpool hhead hseq hformat)

end GlobalCacheAdaptor.ClientAdaptor
