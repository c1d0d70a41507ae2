import TranscriptForm.Library.Utf8
import TranscriptForm.Kotlin.Lowercase

-- Swift strings, as the UTF-16 units that Kotlin gets of them.
namespace Swift

open Kotlin

def ofScalars (chars : List Char) : KString := chars.flatMap fun c => encode c.toNat

/-- `String(validatingUTF8:)` of bytes that end at the first zero byte -/
def validatingUTF8 (bytes : List UInt8) : Option KString :=
  ((Utf8.decode (bytes.takeWhile (· ≠ 0))).mapM id).map ofScalars

/-- `String(cString:)`, which replaces what is no character. -/
def cString (bytes : List UInt8) : KString :=
  ofScalars ((Utf8.decode (bytes.takeWhile (· ≠ 0))).map fun char => char.getD (Char.ofNat 0xFFFD))

theorem validatingUTF8_encodeAll {chars : List Char} (nonzero : 0 ∉ Utf8.encodeAll chars) :
    validatingUTF8 (Utf8.encodeAll chars) = some (ofScalars chars) := by
  have whole : (Utf8.encodeAll chars).takeWhile (· ≠ 0) = Utf8.encodeAll chars := by
    rw [List.takeWhile_eq_self_iff]
    intro byte member
    simpa using ne_of_mem_of_not_mem member nonzero
  have valid (read : List Char) : (read.map some).mapM id = some read := by
    induction read with
    | nil => rfl
    | cons char read ih =>
      rw [List.map_cons, List.mapM_cons, ih]
      rfl
  rw [validatingUTF8, whole, Utf8.decode_encodeAll, valid]
  rfl

/-- `CharacterSet.whitespacesAndNewlines` -/
def isWhitespaceOrNewline (code : Nat) : Bool :=
  (0x09 ≤ code && code ≤ 0x0D) || code == 0x20 || code == 0x85 || code == 0xA0 || code == 0x1680 ||
    (0x2000 ≤ code && code ≤ 0x200A) || code == 0x2028 || code == 0x2029 || code == 0x202F || code == 0x205F ||
    code == 0x3000

def trimmingCharacters (s : KString) : KString := trimBy (fun c => isWhitespaceOrNewline c.toNat) s

/-- The number of characters that a reader sees in a string rests on tables of the platform. -/
class Characters where
  count : KString → Nat
  count_empty : count [] = 0

end Swift
