import GlobalCacheAdaptor.Lib.Regex
import GlobalCacheAdaptor.ServerAdaptor.ObjectName

/-!
# Numbers in the texts of the monitor

The helpers of `RadosMonitor.cc` that turn words of a reply into numbers, and the character classes
of its regular expressions, in the "C" locale.
-/

namespace GlobalCacheAdaptor.CephProxy

open Lib ServerAdaptor

/-! ## Character classes -/

/-- `isdigit`. -/
def isDigit (c : Byte) : Bool := 48 ≤ c.val && c.val ≤ 57

/-- `isalnum`, and the underscore. -/
def isWord (c : Byte) : Bool :=
  isDigit c || (65 ≤ c.val && c.val ≤ 90) || (97 ≤ c.val && c.val ≤ 122) || c = byteOf '_'

/-- `\d`, also `[0-9]`. -/
def rxDigit : Regex Byte := .chr isDigit

/-- `\s`. -/
def rxSpace : Regex Byte := .chr isSpace

/-- `\S`. -/
def rxNonSpace : Regex Byte := .chr fun c => !isSpace c

/-- `\w`. -/
def rxWord : Regex Byte := .chr isWord

/-- `.`: anything but the end of a line. -/
def rxAny : Regex Byte := .chr fun c => c ≠ byteOf '\n' && c ≠ byteOf '\r'

/-- One character of a pattern. -/
def rxChar (c : Char) : Regex Byte := .chr fun x => x = byteOf c

/-- `result[n].str()`: empty for a group that did not take part. -/
def str (result : Regex.Captures Byte) (n : Nat) : Bytes := (result n).getD []

/-! ## Numbers -/

/-- `KIB_NUM`. -/
def kibNum : BitVec 64 := 1024

/-- `MIB_NUM`. -/
def mibNum : BitVec 64 := kibNum * 1024

/-- `GIB_NUM`. -/
def gibNum : BitVec 64 := mibNum * 1024

/-- `TIB_NUM`. -/
def tibNum : BitVec 64 := gibNum * 1024

/-- `PIB_NUM`. -/
def pibNum : BitVec 64 := tibNum * 1024

/-- `TransStrUnitToNum`. -/
def transStrUnitToNum (strUnit : Bytes) : BitVec 64 :=
  if strUnit = ascii "PiB" then pibNum
  else if strUnit = ascii "TiB" then tibNum
  else if strUnit = ascii "GiB" ∨ strUnit = ascii "G" then gibNum
  else if strUnit = ascii "MiB" ∨ strUnit = ascii "M" then mibNum
  else if strUnit = ascii "KiB" ∨ strUnit = ascii "K" then kibNum
  else if strUnit = ascii "B" then 1
  else 1

/-- The number the leading digits of a text write. -/
def decimal (text : Bytes) : Nat := (digits 10 text).foldl (fun acc d => acc * 10 + d) 0

/-- `atoi`: `strtol` in base 10, which stops at the limits of `long`, cut to an `int`. -/
def atoi (text : Bytes) : BitVec 32 :=
  let (negative, text) := readSign (text.dropWhile isSpace)
  let value : Int := decimal text
  BitVec.ofInt 32 (if negative then max (-value) (-2 ^ 63) else min value (2 ^ 63 - 1))

/-- `(\d+)\s?(\w+)?` -/
def numPattern : Regex Byte :=
  .seq (.group 1 rxDigit.plus) (.seq rxSpace.opt (Regex.opt (.group 2 rxWord.plus)))

/-- `TransStrToNum`: the number is left alone if the text does not match. -/
def transStrToNum (strNum : Bytes) (num : BitVec 64) : BitVec 64 :=
  match numPattern.regexMatch strNum with
  | some result => (atoi (str result 1)).setWidth 64 * transStrUnitToNum (str result 2)
  | none => num

end GlobalCacheAdaptor.CephProxy
