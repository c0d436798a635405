import GlobalCacheAdaptor.CephProxy.MonText
import GlobalCacheAdaptor.Lib.Tokens

/-!
# The rows of the pool table

`GetPoolStorageUsage` matches every line of the `df` output with one regular expression and
`ParseToRecordInfo` reads a record off its groups. `accepted_iff` says which well-formed rows come
out as what they say: the patterns do not know `PiB`, the suffix `M` is compared with `m`, and the
pool id goes through `atoi`.
-/

namespace GlobalCacheAdaptor.CephProxy

open Lib Regex ServerAdaptor

/-! ## The patterns -/

/-- `poolNamePattern`. -/
def poolNamePattern : Regex Byte :=
  .seq rxSpace.star (.seq (.group 1 rxNonSpace.star) rxSpace.star)

/-- `poolIdPattern`. -/
def poolIdPattern : Regex Byte := .seq (.group 2 rxDigit.plus) rxSpace.plus

/-- `\.?[0-9]*` after some digits. -/
def numberPattern (whole : Regex Byte) : Regex Byte :=
  .seq whole (.seq (rxChar '.').opt rxDigit.star)

/-- `TiB|GiB|MiB|KiB|B` -/
def unitPattern : Regex Byte :=
  .alt (lit (ascii "TiB")) (.alt (lit (ascii "GiB")) (.alt (lit (ascii "MiB"))
    (.alt (lit (ascii "KiB")) (lit (ascii "B")))))

/-- `storedPattern`. -/
def storedPattern : Regex Byte :=
  .seq (.group 3 (numberPattern rxDigit.plus))
    (.seq rxSpace (.seq (Regex.star (.group 4 unitPattern)) rxSpace.star))

/-- `objectsPattern`. -/
def objectsPattern : Regex Byte :=
  .seq (.group 5 (numberPattern rxDigit.plus))
    (.seq (Regex.star (.group 6 (.alt (lit (ascii "k")) (lit (ascii "M"))))) rxSpace.star)

/-- `usedPattern`. -/
def usedPattern : Regex Byte :=
  .seq (.group 7 (numberPattern rxDigit.star))
    (.seq rxSpace (.seq (Regex.star (.group 8 unitPattern)) rxSpace.star))

/-- `usedRatioPattern`. -/
def usedRatioPattern : Regex Byte :=
  .seq (.group 9 (numberPattern rxDigit.star)) rxSpace.star

/-- `availPattern`. -/
def availPattern : Regex Byte :=
  .seq (.group 10 (numberPattern rxDigit.star))
    (.seq rxSpace (.seq (.group 11 unitPattern) rxAny.star))

/-- The pattern of a row. -/
def rowPattern : Regex Byte :=
  .seq poolNamePattern (.seq poolIdPattern (.seq storedPattern (.seq objectsPattern
    (.seq usedPattern (.seq usedRatioPattern availPattern)))))

/-- The lines of the output that match, as `GetPoolStorageUsage` records them in turn. -/
def matchedLines (input : Bytes) : List (Captures Byte) :=
  (tokens (byteOf '\n') (cStr input)).filterMap rowPattern.regexMatch

/-! ## The record -/

/-- `RecordInfo`, as far as a row fills it. `Real` stands for `double`. -/
structure RecordInfo (Real : Type) where
  poolName : Bytes
  poolId : BitVec 32
  storedSize : Real
  storedSizeUnit : BitVec 64
  objectsNum : Real
  numUnit : BitVec 64
  usedSize : Real
  usedSizeUnit : BitVec 64
  useRatio : Real
  maxAvail : Real
  maxAvailUnit : BitVec 64
  profile : Bytes
  isEC : Bool

/-- What `IsECPool` returns, and what it leaves in its two references. -/
structure ECAnswer where
  ret : Int
  ecProfile : Bytes
  isEC : Bool

/-- The multiplier of the object count; the initial 1 stays for a suffix that is not known. -/
def numUnitOf (suffix : Bytes) : BitVec 64 :=
  if suffix.length = 0 then 1
  else if suffix = ascii "k" then 1024
  else if suffix = ascii "m" then 1024 * 1024
  else 1

/-- `ParseToRecordInfo`, or none if it returns -1. `IsECPool` asks the cluster. -/
def parseToRecordInfo {Real : Type} (atof : Bytes → Real) (isECPool : Bytes → ECAnswer)
    (result : Captures Byte) : Option (RecordInfo Real) :=
  let poolName := cStr (str result 1)
  let id := atoi (str result 2)
  if id.toInt < 0 then none
  else
    let answer := isECPool poolName
    if answer.ret ≠ 0 then none
    else some {
      poolName := poolName
      poolId := id
      storedSize := atof (str result 3)
      storedSizeUnit := transStrUnitToNum (str result 4)
      objectsNum := atof (str result 5)
      numUnit := numUnitOf (str result 6)
      usedSize := atof (str result 7)
      usedSizeUnit := transStrUnitToNum (str result 8)
      useRatio := atof (str result 9)
      maxAvail := atof (str result 10)
      maxAvailUnit := transStrUnitToNum (str result 11)
      profile := answer.ecProfile
      isEC := answer.isEC }

/-! ## Well-formed rows -/

/-- The units `TransStrUnitToNum` knows. -/
inductive SizeUnit where
  | b | kib | mib | gib | tib | pib
  deriving DecidableEq

/-- A unit as the table writes it. -/
def SizeUnit.text : SizeUnit → Bytes
  | .b => ascii "B"
  | .kib => ascii "KiB"
  | .mib => ascii "MiB"
  | .gib => ascii "GiB"
  | .tib => ascii "TiB"
  | .pib => ascii "PiB"

/-- The multiplier of a unit. -/
def SizeUnit.num : SizeUnit → BitVec 64
  | .b => 1
  | .kib => kibNum
  | .mib => mibNum
  | .gib => gibNum
  | .tib => tibNum
  | .pib => pibNum

/-- The suffixes of an object count. -/
inductive Suffix where
  | none | k | m
  deriving DecidableEq

/-- A suffix as the table writes it. -/
def Suffix.text : Suffix → Bytes
  | .none => []
  | .k => ascii "k"
  | .m => ascii "M"

/-- The multiplier of a suffix. -/
def Suffix.num : Suffix → BitVec 64
  | .none => 1
  | .k => 1024
  | .m => 1024 * 1024

/-- A decimal number: digits, and maybe a fraction. -/
structure Numeral where
  whole : Bytes
  fraction : Option Bytes
  whole_ne : whole ≠ []
  whole_digits : ∀ c ∈ whole, isDigit c = true
  fraction_digits : ∀ f ∈ fraction, ∀ c ∈ f, isDigit c = true

/-- The digits of the fraction behind its point. -/
def Numeral.point (n : Numeral) : Bytes :=
  match n.fraction with
  | none => []
  | some f => [byteOf '.'] ++ f

/-- The digits, the point and the fraction. -/
def Numeral.text (n : Numeral) : Bytes := n.whole ++ n.point

/-- A blank that does not end the line. -/
def isBlank (c : Byte) : Bool := isSpace c && c ≠ byteOf '\n'

/-- A line of the output: neither the line nor the text ends inside it. -/
def IsLine (line : Bytes) : Prop := ∀ c ∈ line, c ≠ 0 ∧ c ≠ byteOf '\n'

/-- The blanks between two columns. -/
structure Blanks where
  text : Bytes
  ne : text ≠ []
  blank : ∀ c ∈ text, isBlank c = true

/-- A size: a number, one blank and a unit. -/
structure Size where
  numeral : Numeral
  blank : Byte
  unit : SizeUnit
  isBlank_blank : isBlank blank = true

/-- A row of the table. -/
structure Row where
  lead : Bytes
  name : Bytes
  afterName : Blanks
  id : Bytes
  afterId : Blanks
  stored : Size
  afterStored : Blanks
  objects : Numeral
  suffix : Suffix
  afterObjects : Blanks
  used : Size
  afterUsed : Blanks
  ratio : Numeral
  afterRatio : Blanks
  avail : Size
  tail : Bytes
  lead_blank : ∀ c ∈ lead, isBlank c = true
  name_ne : name ≠ []
  name_noBlank : ∀ c ∈ name, isSpace c = false ∧ c ≠ 0
  id_ne : id ≠ []
  id_digits : ∀ c ∈ id, isDigit c = true
  tail_isLine : IsLine tail
  tail_noReturn : byteOf '\r' ∉ tail

/-- The text of a size and of what follows it in its column. -/
def Size.column (size : Size) (after : Bytes) : Bytes :=
  size.numeral.text ++ ([size.blank] ++ (size.unit.text ++ after))

/-- The line of a row. -/
def Row.text (row : Row) : Bytes :=
  (row.lead ++ (row.name ++ row.afterName.text)) ++
    ((row.id ++ row.afterId.text) ++
      (row.stored.column row.afterStored.text ++
        ((row.objects.text ++ (row.suffix.text ++ row.afterObjects.text)) ++
          (row.used.column row.afterUsed.text ++
            ((row.ratio.text ++ row.afterRatio.text) ++ row.avail.column row.tail)))))

/-- The record says what the row says. -/
structure Row.RecordedAs {Real : Type} (atof : Bytes → Real) (row : Row)
    (info : RecordInfo Real) : Prop where
  name : info.poolName = row.name
  id : info.poolId.toNat = decimal row.id
  storedSize : info.storedSize = atof row.stored.numeral.text
  storedSizeUnit : info.storedSizeUnit = row.stored.unit.num
  objectsNum : info.objectsNum = atof row.objects.text
  numUnit : info.numUnit = row.suffix.num
  usedSize : info.usedSize = atof row.used.numeral.text
  usedSizeUnit : info.usedSizeUnit = row.used.unit.num
  useRatio : info.useRatio = atof row.ratio.text
  maxAvail : info.maxAvail = atof row.avail.numeral.text
  maxAvailUnit : info.maxAvailUnit = row.avail.unit.num

/-- An output of these lines. -/
def output (lines : List Bytes) : Bytes := [byteOf '\n'].intercalate lines

/-- Among any other lines the row matches in its place, and its record says what the row says,
whatever the cluster answers about the kind of its pool. -/
def Row.Accepted {Real : Type} (atof : Bytes → Real) (row : Row) : Prop :=
  ∃ result,
    (∀ above below : List Bytes, (∀ line ∈ above ++ below, IsLine line) →
      matchedLines (output (above ++ row.text :: below)) =
        matchedLines (output above) ++ result :: matchedLines (output below)) ∧
    ∀ isECPool : Bytes → ECAnswer, (isECPool row.name).ret = 0 →
      ∃ info, parseToRecordInfo atof isECPool result = some info ∧ row.RecordedAs atof info

/-! ## The lines of an output -/

theorem IsLine.append {u v : Bytes} (hu : IsLine u) (hv : IsLine v) : IsLine (u ++ v) := by
  intro c hc
  rcases List.mem_append.mp hc with hc | hc
  · exact hu c hc
  · exact hv c hc

theorem isLine_of_forall {p : Byte → Bool} (hzero : p 0 = false) (hend : p (byteOf '\n') = false)
    {line : Bytes} (h : ∀ c ∈ line, p c = true) : IsLine line := by
  intro c hc
  constructor
  · rintro rfl
    exact absurd (h 0 hc) (by rw [hzero]; decide)
  · rintro rfl
    exact absurd (h _ hc) (by rw [hend]; decide)

theorem isLine_of_digits {line : Bytes} (h : ∀ c ∈ line, isDigit c = true) : IsLine line :=
  isLine_of_forall rfl rfl h

theorem isLine_of_blanks {line : Bytes} (h : ∀ c ∈ line, isBlank c = true) : IsLine line :=
  isLine_of_forall rfl rfl h

theorem isLine_of_word {line : Bytes} (h : line.all isWord = true) : IsLine line :=
  isLine_of_forall (p := isWord) rfl rfl (List.all_eq_true.mp h)

theorem Blanks.isLine (blanks : Blanks) : IsLine blanks.text := isLine_of_blanks blanks.blank

theorem Numeral.isLine (n : Numeral) : IsLine n.text := by
  refine (isLine_of_digits n.whole_digits).append ?_
  rw [Numeral.point]
  cases hf : n.fraction with
  | none =>
      intro c hc
      cases hc
  | some f =>
      refine IsLine.append ?_ (isLine_of_digits (n.fraction_digits f hf))
      intro c hc
      rw [List.mem_singleton.mp hc]
      decide

theorem Size.isLine (size : Size) {after : Bytes} (hafter : IsLine after) :
    IsLine (size.column after) := by
  have hblank : IsLine [size.blank] := isLine_of_blanks (by simpa using size.isBlank_blank)
  have hunit : IsLine size.unit.text := isLine_of_word (by cases size.unit <;> rfl)
  exact size.numeral.isLine.append (hblank.append (hunit.append hafter))

theorem Row.isLine (row : Row) : IsLine row.text := by
  have hname : IsLine row.name := by
    intro c hc
    obtain ⟨hspace, hzero⟩ := row.name_noBlank c hc
    refine ⟨hzero, ?_⟩
    rintro rfl
    exact absurd hspace (by decide)
  have hsuffix : IsLine row.suffix.text := isLine_of_word (by cases row.suffix <;> rfl)
  refine ((isLine_of_blanks row.lead_blank).append (hname.append row.afterName.isLine)).append ?_
  refine ((isLine_of_digits row.id_digits).append row.afterId.isLine).append ?_
  refine (row.stored.isLine row.afterStored.isLine).append ?_
  refine (row.objects.isLine.append (hsuffix.append row.afterObjects.isLine)).append ?_
  refine (row.used.isLine row.afterUsed.isLine).append ?_
  exact (row.ratio.isLine.append row.afterRatio.isLine).append (row.avail.isLine row.tail_isLine)

/-- The pattern does not match an empty line. -/
theorem regexMatch_nil : rowPattern.regexMatch [] = none := rfl

/-- The text ends at no line of an output. -/
theorem zero_notMem_output {lines : List Bytes} (h : ∀ line ∈ lines, IsLine line) :
    0 ∉ output lines := by
  induction lines with
  | nil => exact List.not_mem_nil
  | cons line lines ih =>
      obtain ⟨hline, hlines⟩ := List.forall_mem_cons.mp h
      intro hzero
      cases lines with
      | nil =>
          rw [output, List.intercalate_singleton] at hzero
          exact (hline 0 hzero).1 rfl
      | cons next lines =>
          rw [output, List.intercalate_cons_cons, List.append_assoc] at hzero
          rcases List.mem_append.mp hzero with hzero | hzero
          · exact (hline 0 hzero).1 rfl
          · rcases List.mem_append.mp hzero with hzero | hzero
            · exact absurd (List.mem_singleton.mp hzero) (by decide)
            · exact ih hlines hzero

/-- What matches in an output is what matches in its lines. -/
theorem matchedLines_output {lines : List Bytes} (h : ∀ line ∈ lines, IsLine line) :
    matchedLines (output lines) = lines.filterMap rowPattern.regexMatch := by
  have hsep : ∀ line ∈ lines, byteOf '\n' ∉ line :=
    fun line hline hmem => (h line hline _ hmem).2 rfl
  rw [matchedLines, cStr_eq_self (zero_notMem_output h), output, tokens_intercalate hsep,
    List.filterMap_filter]
  congr 1
  funext line
  by_cases hline : line = []
  · rw [hline, regexMatch_nil]
    rfl
  · simp [hline]

/-- A row is matched in its place. -/
theorem matchedLines_row (row : Row) {above below : List Bytes}
    (h : ∀ line ∈ above ++ below, IsLine line) :
    matchedLines (output (above ++ row.text :: below)) =
      matchedLines (output above) ++
        ((rowPattern.regexMatch row.text).toList ++ matchedLines (output below)) := by
  obtain ⟨habove, hbelow⟩ := List.forall_mem_append.mp h
  have hall : ∀ line ∈ above ++ row.text :: below, IsLine line :=
    List.forall_mem_append.mpr ⟨habove, List.forall_mem_cons.mpr ⟨row.isLine, hbelow⟩⟩
  rw [matchedLines_output hall, matchedLines_output habove, matchedLines_output hbelow,
    List.filterMap_append]
  cases hmatch : rowPattern.regexMatch row.text with
  | none => rw [List.filterMap_cons_none hmatch]; rfl
  | some result => rw [List.filterMap_cons_some hmatch]; rfl

/-! ## The columns -/

variable {rest : Bytes} {caps : Captures Byte}

theorem isSpace_of_isBlank {c : Byte} (h : isBlank c = true) : isSpace c = true :=
  (Bool.and_eq_true_iff.mp h).1

/-- A class takes blanks up to something else. -/
theorem takes_blanks {text : Bytes} (htext : ∀ c ∈ text, isBlank c = true)
    (hrest : ∀ c ∈ rest.head?, isSpace c = false) : Takes rxSpace.star text rest caps caps :=
  takes_star_chr (fun c hc => isSpace_of_isBlank (htext c hc)) hrest

/-- A word starts at no blank. -/
theorem rejects_lit_blank (h : ∀ c ∈ rest.head?, isBlank c = true) {word : Bytes} {x : Byte}
    (hword : word.head? = some x) (hx : isBlank x = false) : Rejects (lit word) rest := by
  refine rejects_lit hword ?_
  rintro c hc rfl
  rw [h c hc] at hx
  cases hx

/-- Where no unit can start. -/
theorem rejects_unitPattern (h : ∀ c ∈ rest.head?, isBlank c = true) :
    Rejects unitPattern rest := by
  refine .alt (rejects_lit_blank h rfl rfl) (.alt (rejects_lit_blank h rfl rfl) ?_)
  refine .alt (rejects_lit_blank h rfl rfl) (.alt (rejects_lit_blank h rfl rfl) ?_)
  exact rejects_lit_blank h rfl rfl

/-- The units that the pattern knows. -/
theorem takes_unitPattern {unit : SizeUnit} (h : unit ≠ .pib) :
    Takes unitPattern unit.text rest caps caps := by
  have hnot : ∀ {w : Bytes} {x y : Byte}, w.head? = some x → unit.text.head? = some y → y ≠ x →
      Rejects (lit w) (unit.text ++ rest) := fun hw hu hne => rejects_lit_append hw hu hne
  cases unit with
  | tib => exact (takes_lit _).left
  | gib => exact .right (hnot rfl rfl (by decide)) (takes_lit _).left
  | mib =>
      refine .right (hnot rfl rfl (by decide)) (.right (hnot rfl rfl (by decide)) ?_)
      exact (takes_lit _).left
  | kib =>
      refine .right (hnot rfl rfl (by decide)) (.right (hnot rfl rfl (by decide)) ?_)
      exact .right (hnot rfl rfl (by decide)) (takes_lit _).left
  | b =>
      refine .right (hnot rfl rfl (by decide)) (.right (hnot rfl rfl (by decide)) ?_)
      refine .right (hnot rfl rfl (by decide)) (.right (hnot rfl rfl (by decide)) ?_)
      exact takes_lit _
  | pib => exact absurd rfl h

/-- A blank, a suffix or the end is no part of a number. -/
def EndsNumber (rest : Bytes) : Prop := ∀ c ∈ rest.head?, isDigit c = false ∧ c ≠ byteOf '.'

/-- What comes before and after the point, with the digits in front of it taken by `whole`. -/
theorem takes_numberPattern (n : Numeral) (hrest : EndsNumber rest) {whole : Regex Byte}
    (hwhole : ∀ rest, (∀ c ∈ rest.head?, isDigit c = false) →
      Takes whole n.whole rest caps caps) :
    Takes (numberPattern whole) n.text rest caps caps := by
  rw [Numeral.text, Numeral.point]
  cases hf : n.fraction with
  | none =>
      refine (hwhole _ fun c hc => (hrest c hc).1).seq ?_
      refine Takes.seq (u := []) (.right (rejects_chr fun c hc => ?_) takes_nil) ?_
      · exact decide_eq_false (hrest c hc).2
      · exact takes_star_chr (w := []) (by simp) fun c hc => (hrest c hc).1
  | some f =>
      have hpoint : Takes (rxChar '.').opt [byteOf '.'] (f ++ rest) caps caps :=
        (takes_chr (by simp)).left
      refine (hwhole _ ?_).seq (hpoint.seq ?_)
      · intro c hc
        cases hc
        rfl
      · exact takes_star_chr (n.fraction_digits f hf) fun c hc => (hrest c hc).1

/-- What a text that is not empty starts with. -/
theorem forall_head?_append {p : Byte → Prop} {text : Bytes} (hne : text ≠ [])
    (h : ∀ c ∈ text, p c) : ∀ c ∈ (text ++ rest).head?, p c := by
  obtain ⟨x, text, rfl⟩ := List.exists_cons_of_ne_nil hne
  intro c hc
  cases hc
  exact h x List.mem_cons_self

theorem not_isSpace_of_isDigit {c : Byte} (h : isDigit c = true) : isSpace c = false := by
  simp only [isDigit, isSpace, Bool.and_eq_true, decide_eq_true_eq, Bool.or_eq_false_iff,
    Bool.and_eq_false_iff, decide_eq_false_iff_not] at h ⊢
  refine ⟨?_, by omega⟩
  rintro rfl
  exact absurd h.1 (by decide)

theorem not_isDigit_of_isBlank {c : Byte} (h : isBlank c = true) : isDigit c = false := by
  by_contra hdigit
  have hspace := not_isSpace_of_isDigit (Bool.eq_true_of_not_eq_false hdigit)
  rw [isSpace_of_isBlank h] at hspace
  cases hspace

theorem endsNumber_of_isBlank (h : ∀ c ∈ rest.head?, isBlank c = true) : EndsNumber rest := by
  intro c hc
  refine ⟨not_isDigit_of_isBlank (h c hc), ?_⟩
  rintro rfl
  cases h _ hc

/-- A column starts with a digit. -/
theorem head?_column (n : Numeral) : ∀ c ∈ (n.text ++ rest).head?, isSpace c = false := by
  rw [Numeral.text, List.append_assoc]
  exact forall_head?_append n.whole_ne fun c hc => not_isSpace_of_isDigit (n.whole_digits c hc)

/-- The number of a size and the blank behind it, with its unit still to come. -/
theorem takes_sizeStart (size : Size) {n : Nat} {whole unit : Regex Byte} {after : Bytes}
    {caps' : Captures Byte}
    (hwhole : ∀ rest, (∀ c ∈ rest.head?, isDigit c = false) →
      Takes whole size.numeral.whole rest caps caps)
    (hunit : Takes unit (size.unit.text ++ after) rest
      (Function.update caps n (some size.numeral.text)) caps') :
    Takes (.seq (.group n (numberPattern whole)) (.seq rxSpace unit)) (size.column after) rest
      caps caps' := by
  have hblank := size.isBlank_blank
  have hends : EndsNumber ([size.blank] ++ (size.unit.text ++ after) ++ rest) :=
    endsNumber_of_isBlank (by simpa using hblank)
  refine Takes.seq (takes_numberPattern size.numeral hends hwhole).group ?_
  exact (takes_chr (isSpace_of_isBlank hblank)).seq hunit

/-- A size column with blanks behind it. -/
theorem takes_size (size : Size) (after : Blanks) (hunit : size.unit ≠ .pib) {n m : Nat}
    {whole : Regex Byte} (hrest : ∀ c ∈ rest.head?, isSpace c = false)
    (hwhole : ∀ rest, (∀ c ∈ rest.head?, isDigit c = false) →
      Takes whole size.numeral.whole rest caps caps) :
    Takes (.seq (.group n (numberPattern whole))
        (.seq rxSpace (.seq (Regex.star (.group m unitPattern)) rxSpace.star)))
      (size.column after.text) rest caps
      (Function.update (Function.update caps n (some size.numeral.text)) m
        (some size.unit.text)) := by
  have hne : size.unit.text ≠ [] := by cases size.unit <;> decide
  refine takes_sizeStart size hwhole (Takes.seq ?_ (takes_blanks after.blank hrest))
  rw [← List.append_nil size.unit.text]
  refine Takes.star_cons hne ?_ (Rejects.takes_star ?_)
  · rw [List.append_nil]
    exact (takes_unitPattern hunit).group
  · exact (rejects_unitPattern (forall_head?_append after.ne after.blank)).group

/-- What the suffix leaves in its group. -/
def Suffix.captured (suffix : Suffix) (caps : Captures Byte) : Captures Byte :=
  match suffix with
  | .none => caps
  | .k => Function.update caps 6 (some (ascii "k"))
  | .m => Function.update caps 6 (some (ascii "M"))

/-- The suffix, up to a blank. -/
theorem takes_suffix (suffix : Suffix) (hrest : ∀ c ∈ rest.head?, isBlank c = true) :
    Takes (Regex.star (.group 6 (.alt (lit (ascii "k")) (lit (ascii "M"))))) suffix.text rest caps
      (suffix.captured caps) := by
  have hstop : Rejects (.group 6 (.alt (lit (ascii "k")) (lit (ascii "M")))) rest :=
    (Rejects.alt (rejects_lit_blank hrest rfl rfl) (rejects_lit_blank hrest rfl rfl)).group
  cases suffix with
  | none => exact hstop.takes_star
  | k =>
      have hk : Takes (.group 6 (.alt (lit (ascii "k")) (lit (ascii "M")))) (ascii "k") ([] ++ rest)
          caps (Function.update caps 6 (some (ascii "k"))) := (takes_lit _).left.group
      exact hk.star_cons (by decide) hstop.takes_star
  | m =>
      have hm : Takes (.group 6 (.alt (lit (ascii "k")) (lit (ascii "M")))) (ascii "M") ([] ++ rest)
          caps (Function.update caps 6 (some (ascii "M"))) :=
        (Takes.right (rejects_lit_append rfl rfl (by decide)) (takes_lit _)).group
      exact hm.star_cons (by decide) hstop.takes_star

/-- `\s*(\S*)\s*` -/
theorem takes_poolNamePattern {lead name : Bytes} (after : Blanks)
    (hlead : ∀ c ∈ lead, isBlank c = true) (hne : name ≠ [])
    (hname : ∀ c ∈ name, isSpace c = false) (hrest : ∀ c ∈ rest.head?, isSpace c = false) :
    Takes poolNamePattern (lead ++ (name ++ after.text)) rest caps
      (Function.update caps 1 (some name)) := by
  refine Takes.seq (takes_blanks hlead ?_) ?_
  · rw [List.append_assoc]
    exact forall_head?_append hne hname
  · refine Takes.seq (Takes.group (takes_star_chr ?_ ?_)) (takes_blanks after.blank hrest)
    · intro c hc
      rw [hname c hc]
      rfl
    · refine forall_head?_append after.ne fun c hc => ?_
      rw [isSpace_of_isBlank (after.blank c hc)]
      rfl

/-- `(\d+)\s+` -/
theorem takes_poolIdPattern {id : Bytes} (after : Blanks) (hne : id ≠ [])
    (hid : ∀ c ∈ id, isDigit c = true) (hrest : ∀ c ∈ rest.head?, isSpace c = false) :
    Takes poolIdPattern (id ++ after.text) rest caps (Function.update caps 2 (some id)) := by
  have hblank : ∀ c ∈ (after.text ++ rest).head?, isDigit c = false :=
    forall_head?_append after.ne fun c hc => not_isDigit_of_isBlank (after.blank c hc)
  have hspaces : Takes rxSpace.plus after.text rest (Function.update caps 2 (some id))
      (Function.update caps 2 (some id)) :=
    takes_plus_chr after.ne (fun c hc => isSpace_of_isBlank (after.blank c hc)) hrest
  exact Takes.seq (takes_plus_chr hne hid hblank).group hspaces

/-- The digits in front of the point, at least one of them or not. -/
theorem takes_whole (n : Numeral) (h : ∀ c ∈ rest.head?, isDigit c = false) :
    Takes rxDigit.plus n.whole rest caps caps ∧ Takes rxDigit.star n.whole rest caps caps :=
  ⟨takes_plus_chr n.whole_ne n.whole_digits h, takes_star_chr n.whole_digits h⟩

/-- The column of the object count. -/
theorem takes_objectsPattern (n : Numeral) (suffix : Suffix) (after : Blanks)
    (hrest : ∀ c ∈ rest.head?, isSpace c = false) :
    Takes objectsPattern (n.text ++ (suffix.text ++ after.text)) rest caps
      (suffix.captured (Function.update caps 5 (some n.text))) := by
  have hblank : ∀ c ∈ (after.text ++ rest).head?, isBlank c = true :=
    forall_head?_append after.ne after.blank
  have hends : EndsNumber (suffix.text ++ after.text ++ rest) := by
    rw [List.append_assoc]
    cases suffix with
    | none => exact endsNumber_of_isBlank hblank
    | k =>
        intro c hc
        cases hc
        decide
    | m =>
        intro c hc
        cases hc
        decide
  refine Takes.seq (takes_numberPattern n hends fun rest h => (takes_whole n h).1).group ?_
  exact (takes_suffix suffix hblank).seq (takes_blanks after.blank hrest)

/-- The column of the ratio. -/
theorem takes_usedRatioPattern (n : Numeral) (after : Blanks)
    (hrest : ∀ c ∈ rest.head?, isSpace c = false) :
    Takes usedRatioPattern (n.text ++ after.text) rest caps
      (Function.update caps 9 (some n.text)) := by
  have hends : EndsNumber (after.text ++ rest) :=
    endsNumber_of_isBlank (forall_head?_append after.ne after.blank)
  exact Takes.seq (takes_numberPattern n hends fun rest h => (takes_whole n h).2).group
    (takes_blanks after.blank hrest)

/-- The last column, and what comes behind it up to the end of the line. -/
theorem takes_availPattern (size : Size) (hunit : size.unit ≠ .pib) {tail : Bytes}
    (htail : ∀ c ∈ tail, c ≠ byteOf '\n' ∧ c ≠ byteOf '\r') :
    Takes availPattern (size.column tail) [] caps
      (Function.update (Function.update caps 10 (some size.numeral.text)) 11
        (some size.unit.text)) := by
  refine takes_sizeStart size (fun rest h => (takes_whole size.numeral h).2) ?_
  refine Takes.seq (takes_unitPattern hunit).group (takes_star_chr ?_ (by simp))
  intro c hc
  simpa using htail c hc

/-- The row's own columns, as the pattern captures them. -/
def Row.captures (row : Row) : Captures Byte :=
  let name : Captures Byte := Function.update (fun _ => none) 1 (some row.name)
  let id := Function.update name 2 (some row.id)
  let stored := Function.update (Function.update id 3 (some row.stored.numeral.text)) 4
    (some row.stored.unit.text)
  let objects := row.suffix.captured (Function.update stored 5 (some row.objects.text))
  let used := Function.update (Function.update objects 7 (some row.used.numeral.text)) 8
    (some row.used.unit.text)
  let ratio := Function.update used 9 (some row.ratio.text)
  Function.update (Function.update ratio 10 (some row.avail.numeral.text)) 11
    (some row.avail.unit.text)

/-- A row whose units the pattern knows matches with its own columns. -/
theorem regexMatch_row {row : Row} (hstored : row.stored.unit ≠ .pib)
    (hused : row.used.unit ≠ .pib) (havail : row.avail.unit ≠ .pib) :
    rowPattern.regexMatch row.text = some row.captures := by
  have hname : ∀ c ∈ row.name, isSpace c = false := fun c hc => (row.name_noBlank c hc).1
  have hcolumn : ∀ {n : Numeral} {u v w : Bytes}, ∀ c ∈ (n.text ++ u ++ v ++ w).head?,
      isSpace c = false := by
    intro n u v w
    rw [List.append_assoc, List.append_assoc]
    exact head?_column n
  have htail : ∀ c ∈ row.tail, c ≠ byteOf '\n' ∧ c ≠ byteOf '\r' := by
    intro c hc
    refine ⟨(row.tail_isLine c hc).2, ?_⟩
    rintro rfl
    exact row.tail_noReturn hc
  refine regexMatch_of_takes ?_
  refine Takes.seq (takes_poolNamePattern _ row.lead_blank row.name_ne hname ?_) ?_
  · rw [List.append_assoc, List.append_assoc]
    exact forall_head?_append row.id_ne fun c hc => not_isSpace_of_isDigit (row.id_digits c hc)
  refine Takes.seq (takes_poolIdPattern _ row.id_ne row.id_digits hcolumn) ?_
  refine Takes.seq (takes_size row.stored _ hstored hcolumn fun rest h =>
    (takes_whole _ h).1) ?_
  refine Takes.seq (takes_objectsPattern _ _ _ hcolumn) ?_
  refine Takes.seq (takes_size row.used _ hused hcolumn fun rest h => (takes_whole _ h).2) ?_
  refine Takes.seq (takes_usedRatioPattern _ _ ?_) (takes_availPattern row.avail havail htail)
  rw [Size.column, List.append_assoc]
  exact head?_column _

/-! ## The record of a row -/

/-- Digits come after no blank and no sign. -/
theorem readSign_of_digits {text : Bytes} (h : ∀ c ∈ text, isDigit c = true) :
    readSign (text.dropWhile isSpace) = (false, text) := by
  cases text with
  | nil => rfl
  | cons c rest =>
      have hdigit := h c List.mem_cons_self
      have hspace : ¬ isSpace c = true := by
        rw [not_isSpace_of_isDigit hdigit]
        exact Bool.false_ne_true
      have hsign : c ≠ byteOf '-' ∧ c ≠ byteOf '+' := by
        constructor <;> (rintro rfl; cases hdigit)
      rw [List.dropWhile_cons_of_neg hspace, readSign, if_neg hsign.1, if_neg hsign.2]

/-- `atoi` of digits is their number, as far as it fits an `int`. -/
theorem atoi_of_digits {text : Bytes} (h : ∀ c ∈ text, isDigit c = true)
    (hfits : decimal text < 2 ^ 31) : atoi text = BitVec.ofNat 32 (decimal text) := by
  have hmin : min (decimal text : Int) (2 ^ 63 - 1) = decimal text := by omega
  simp only [atoi, readSign_of_digits h, hmin, Bool.false_eq_true, if_false]
  exact BitVec.ofInt_natCast 32 _

/-- A unit is read back as its multiplier. -/
theorem transStrUnitToNum_text (unit : SizeUnit) : transStrUnitToNum unit.text = unit.num := by
  cases unit <;> rfl

/-- A suffix other than `M` is read back as its multiplier. -/
theorem numUnitOf_text {suffix : Suffix} (h : suffix ≠ .m) :
    numUnitOf suffix.text = suffix.num := by
  cases suffix with
  | none | k => rfl
  | m => exact absurd rfl h

theorem Suffix.captured_of_ne (suffix : Suffix) {n : Nat} (hn : n ≠ 6) (caps : Captures Byte) :
    suffix.captured caps n = caps n := by
  cases suffix with
  | none => rfl
  | k | m => exact Function.update_of_ne hn _ _

/-- The texts of the groups are the columns. -/
theorem Row.str_captures (row : Row) :
    str row.captures 1 = row.name ∧ str row.captures 2 = row.id ∧
      (str row.captures 3 = row.stored.numeral.text ∧
        str row.captures 4 = row.stored.unit.text) ∧
      (str row.captures 5 = row.objects.text ∧ str row.captures 6 = row.suffix.text) ∧
      (str row.captures 7 = row.used.numeral.text ∧ str row.captures 8 = row.used.unit.text) ∧
      str row.captures 9 = row.ratio.text ∧
      (str row.captures 10 = row.avail.numeral.text ∧
        str row.captures 11 = row.avail.unit.text) := by
  have hsuffix : str row.captures 6 = row.suffix.text := by
    cases hs : row.suffix <;>
      simp [str, Row.captures, Function.update, hs, Suffix.captured, Suffix.text]
  refine ⟨?_, ?_, ⟨?_, ?_⟩, ⟨?_, hsuffix⟩, ⟨?_, ?_⟩, ?_, ?_, ?_⟩ <;>
    simp [str, Row.captures, Function.update, Suffix.captured_of_ne]

/-- The record of the row's own columns. -/
theorem parseToRecordInfo_captures {Real : Type} (atof : Bytes → Real)
    {isECPool : Bytes → ECAnswer} {row : Row} (hsuffix : row.suffix ≠ .m)
    (hid : decimal row.id < 2 ^ 31) (hanswer : (isECPool row.name).ret = 0) :
    ∃ info, parseToRecordInfo atof isECPool row.captures = some info ∧
      row.RecordedAs atof info := by
  obtain ⟨h1, h2, ⟨h3, h4⟩, ⟨h5, h6⟩, ⟨h7, h8⟩, h9, h10, h11⟩ := row.str_captures
  have hname : cStr row.name = row.name := cStr_eq_self fun h => (row.name_noBlank 0 h).2 rfl
  have hnat : (BitVec.ofNat 32 (decimal row.id)).toNat = decimal row.id := by
    rw [BitVec.toNat_ofNat]
    omega
  have hint : ¬ (BitVec.ofNat 32 (decimal row.id)).toInt < 0 := by
    rw [BitVec.toInt_eq_toNat_cond, hnat]
    omega
  simp only [parseToRecordInfo, h1, h2, h3, h4, h5, h6, h7, h8, h9, h10, h11, hname,
    atoi_of_digits row.id_digits hid, transStrUnitToNum_text, numUnitOf_text hsuffix]
  rw [if_neg hint, if_neg (not_not_intro hanswer)]
  exact ⟨_, rfl, rfl, hnat, rfl, rfl, rfl, rfl, rfl, rfl, rfl, rfl, rfl⟩

/-! ## What no match captures -/

/-- What the groups of a unit and of a suffix do not capture. -/
def KnownCapture (n : Nat) (w : Bytes) : Prop :=
  (n = 4 ∨ n = 8 ∨ n = 11 → transStrUnitToNum w ≠ pibNum) ∧ (n = 6 → numUnitOf w ≠ 1024 * 1024)

/-- The words of the pattern of a unit are the units other than the largest one. -/
theorem eq_of_accepts_unitPattern {w : Bytes} (h : unitPattern.Accepts w) :
    ∃ unit : SizeUnit, unit ≠ .pib ∧ w = unit.text := by
  rcases h.of_alt with h | h
  · exact ⟨.tib, by decide, eq_of_accepts_lit h⟩
  rcases h.of_alt with h | h
  · exact ⟨.gib, by decide, eq_of_accepts_lit h⟩
  rcases h.of_alt with h | h
  · exact ⟨.mib, by decide, eq_of_accepts_lit h⟩
  rcases h.of_alt with h | h
  · exact ⟨.kib, by decide, eq_of_accepts_lit h⟩
  · exact ⟨.b, by decide, eq_of_accepts_lit h⟩

/-- The largest unit has a multiplier of its own. -/
theorem SizeUnit.num_eq_pibNum_iff (unit : SizeUnit) : unit.num = pibNum ↔ unit = .pib := by
  cases unit <;> decide

theorem transStrUnitToNum_of_accepts {w : Bytes} (h : unitPattern.Accepts w) :
    transStrUnitToNum w ≠ pibNum := by
  obtain ⟨unit, hne, rfl⟩ := eq_of_accepts_unitPattern h
  rw [transStrUnitToNum_text]
  exact fun hnum => hne (unit.num_eq_pibNum_iff.mp hnum)

theorem capturesOnly_unitPattern {Q : Nat → Bytes → Prop} : unitPattern.CapturesOnly Q := by
  simp only [unitPattern, CapturesOnly, capturesOnly_lit, and_self]

theorem capturesOnly_numberPattern {Q : Nat → Bytes → Prop} {whole : Regex Byte}
    (h : whole.CapturesOnly Q) : (numberPattern whole).CapturesOnly Q :=
  ⟨h, ⟨trivial, trivial⟩, trivial⟩

theorem capturesOnly_rowPattern : rowPattern.CapturesOnly KnownCapture := by
  have hnumber : ∀ n, n ∉ [4, 6, 8, 11] → ∀ {r : Regex Byte}, r.CapturesOnly KnownCapture →
      (Regex.group n r).CapturesOnly KnownCapture := by
    intro n hn r hr
    simp only [List.mem_cons, List.not_mem_nil, not_or] at hn
    exact ⟨hr, fun w _ => ⟨fun h => by omega, fun h => by omega⟩⟩
  have hunit : ∀ n, n ≠ 6 → (Regex.group n unitPattern).CapturesOnly KnownCapture := by
    intro n hn
    refine ⟨capturesOnly_unitPattern, fun w hw => ⟨fun _ => transStrUnitToNum_of_accepts hw, ?_⟩⟩
    exact fun h => absurd h hn
  have hsuffix : (Regex.group 6 (.alt (lit (ascii "k")) (lit (ascii "M")))).CapturesOnly
      KnownCapture := by
    refine ⟨⟨capturesOnly_lit _, capturesOnly_lit _⟩, fun w hw => ⟨fun h => by omega, fun _ => ?_⟩⟩
    rcases hw.of_alt with hw | hw
    · rw [eq_of_accepts_lit hw]
      decide
    · rw [eq_of_accepts_lit hw]
      decide
  have hplus : (numberPattern rxDigit.plus).CapturesOnly KnownCapture :=
    capturesOnly_numberPattern ⟨trivial, trivial⟩
  have hstar : (numberPattern rxDigit.star).CapturesOnly KnownCapture :=
    capturesOnly_numberPattern trivial
  have hname : poolNamePattern.CapturesOnly KnownCapture :=
    ⟨trivial, hnumber 1 (by decide) trivial, trivial⟩
  have hid : poolIdPattern.CapturesOnly KnownCapture :=
    ⟨hnumber 2 (by decide) ⟨trivial, trivial⟩, trivial, trivial⟩
  have hstored : storedPattern.CapturesOnly KnownCapture :=
    ⟨hnumber 3 (by decide) hplus, trivial, hunit 4 (by decide), trivial⟩
  have hobjects : objectsPattern.CapturesOnly KnownCapture :=
    ⟨hnumber 5 (by decide) hplus, hsuffix, trivial⟩
  have hused : usedPattern.CapturesOnly KnownCapture :=
    ⟨hnumber 7 (by decide) hstar, trivial, hunit 8 (by decide), trivial⟩
  have hratio : usedRatioPattern.CapturesOnly KnownCapture :=
    ⟨hnumber 9 (by decide) hstar, trivial⟩
  have havail : availPattern.CapturesOnly KnownCapture :=
    ⟨hnumber 10 (by decide) hstar, trivial, hunit 11 (by decide), trivial⟩
  exact ⟨hname, hid, hstored, hobjects, hused, hratio, havail⟩

/-- The record of any match has no `PiB`, no multiplier of a suffix `M` and no id from 2^31 on. -/
theorem parseToRecordInfo_bounds {Real : Type} {atof : Bytes → Real}
    {isECPool : Bytes → ECAnswer} {result : Captures Byte} (hresult : Only KnownCapture result)
    {info : RecordInfo Real} (h : parseToRecordInfo atof isECPool result = some info) :
    info.poolId.toNat < 2 ^ 31 ∧ info.numUnit ≠ 1024 * 1024 ∧ info.storedSizeUnit ≠ pibNum ∧
      info.usedSizeUnit ≠ pibNum ∧ info.maxAvailUnit ≠ pibNum := by
  have hunit : ∀ n, n = 4 ∨ n = 8 ∨ n = 11 → transStrUnitToNum (str result n) ≠ pibNum := by
    intro n hn
    rw [str]
    cases hcap : result n with
    | none => decide
    | some w => exact (hresult n w hcap).1 hn
  have hsuffix : numUnitOf (str result 6) ≠ 1024 * 1024 := by
    rw [str]
    cases hcap : result 6 with
    | none => decide
    | some w => exact (hresult 6 w hcap).2 rfl
  simp only [parseToRecordInfo] at h
  split_ifs at h with hid hanswer
  cases h
  refine ⟨?_, hsuffix, hunit 4 (by omega), hunit 8 (by omega), hunit 11 (by omega)⟩
  rw [BitVec.toInt_eq_toNat_cond] at hid
  dsimp only
  have hlt := (atoi (str result 2)).isLt
  omega

/-- A row that is recorded as what it says has units the pattern knows, no suffix `M` and an id
that is an `int`. -/
theorem Row.Accepted.known {Real : Type} {atof : Bytes → Real} {row : Row}
    (h : row.Accepted atof) :
    row.stored.unit ≠ .pib ∧ row.used.unit ≠ .pib ∧ row.avail.unit ≠ .pib ∧ row.suffix ≠ .m ∧
      decimal row.id < 2 ^ 31 := by
  obtain ⟨result, hlines, hparse⟩ := h
  have hmatch : rowPattern.regexMatch row.text = some result := by
    have hrow := hlines [] [] (by simp)
    rw [matchedLines_row row (by simp)] at hrow
    have hlist : (rowPattern.regexMatch row.text).toList = [result] :=
      List.append_cancel_right (List.append_cancel_left hrow)
    exact Option.mem_toList.mp (by rw [hlist]; exact List.mem_singleton_self result)
  obtain ⟨info, hinfo, hrow⟩ := hparse (fun _ => ⟨0, [], false⟩) rfl
  obtain ⟨hid, hsuffix, hstored, hused, havail⟩ :=
    parseToRecordInfo_bounds (regexMatch_only capturesOnly_rowPattern hmatch) hinfo
  rw [hrow.id] at hid
  rw [hrow.numUnit] at hsuffix
  rw [hrow.storedSizeUnit] at hstored
  rw [hrow.usedSizeUnit] at hused
  rw [hrow.maxAvailUnit] at havail
  refine ⟨?_, ?_, ?_, ?_, hid⟩
  · exact fun h => hstored ((SizeUnit.num_eq_pibNum_iff _).mpr h)
  · exact fun h => hused ((SizeUnit.num_eq_pibNum_iff _).mpr h)
  · exact fun h => havail ((SizeUnit.num_eq_pibNum_iff _).mpr h)
  · exact fun h => hsuffix (by rw [h]; rfl)

/-- The row is recorded as what it says exactly if its units are known to the pattern, the suffix
is not `M` and the id is an `int`. -/
theorem accepted_iff {Real : Type} (atof : Bytes → Real) (row : Row) :
    row.Accepted atof ↔
      row.stored.unit ≠ .pib ∧ row.used.unit ≠ .pib ∧ row.avail.unit ≠ .pib ∧
        row.suffix ≠ .m ∧ decimal row.id < 2 ^ 31 := by
  constructor
  · exact Row.Accepted.known
  · rintro ⟨hstored, hused, havail, hsuffix, hid⟩
    refine ⟨row.captures, ?_, fun isECPool => parseToRecordInfo_captures atof hsuffix hid⟩
    intro above below hlines
    rw [matchedLines_row row hlines, regexMatch_row hstored hused havail]
    rfl

/-- One blank. -/
def oneBlank : Blanks := ⟨[32], by simp, by simp; rfl⟩

/-- The numeral `1`. -/
def numeralOne : Numeral := ⟨ascii "1", none, by decide, by simp [ascii]; rfl, by simp⟩

/-- A size of one unit. -/
def sizeOne (unit : SizeUnit) : Size := ⟨numeralOne, 32, unit, rfl⟩

/-- `a 1 1 PiB 1 1 B 1 1 B` -/
def pebibyteRow : Row where
  lead := []
  name := ascii "a"
  afterName := oneBlank
  id := ascii "1"
  afterId := oneBlank
  stored := sizeOne .pib
  afterStored := oneBlank
  objects := numeralOne
  suffix := .none
  afterObjects := oneBlank
  used := sizeOne .b
  afterUsed := oneBlank
  ratio := numeralOne
  afterRatio := oneBlank
  avail := sizeOne .b
  tail := []
  lead_blank := by simp
  name_ne := by decide
  name_noBlank := by simp [ascii]; decide
  id_ne := by decide
  id_digits := numeralOne.whole_digits
  tail_isLine := by simp [IsLine]
  tail_noReturn := by simp

/-- A pool of one pebibyte is not recorded. -/
theorem not_accepted_pebibyte : ¬ pebibyteRow.Accepted fun text : Bytes => text :=
  fun h => h.known.1 rfl

end GlobalCacheAdaptor.CephProxy
