import TranscriptForm.Kotlin.Platform

namespace Kotlin

/-- `%0wd` with ASCII digits -/
def zeroPadded (width : Nat) (value : Int) : KString :=
  let sign := if value < 0 then txt "-" else []
  let digits := (Nat.toDigits 10 value.natAbs).map ch
  sign ++ (List.replicate (width - sign.length - digits.length) (ch '0') ++ digits)

/-- The value of a digit. The digits beyond ASCII are the platform's own. -/
class DigitTable where
  digitOf : KChar → Option Nat
  digitOf_ascii : ∀ c, c.toNat < 0x80 → digitOf c = if isAsciiDigit c.toNat then some (c.toNat - 0x30) else none

@[reducible] def asciiDigits : DigitTable where
  digitOf c := if isAsciiDigit c.toNat then some (c.toNat - 0x30) else none
  digitOf_ascii _ _ := rfl

section Reading

variable [DigitTable]

def digitsValue (s : KString) : Option Nat :=
  s.foldlM (fun value c => (DigitTable.digitOf c).map fun digit => 10 * value + digit) 0

def toIntOrNull (s : KString) : Option Int :=
  let number : Option Int := match s with
    | [] => none
    | first :: rest =>
      if first < ch '0' then
        if rest.isEmpty then none
        else if first = ch '-' then (digitsValue rest).map fun value : Nat => -(value : Int)
        else if first = ch '+' then (digitsValue rest).map fun value : Nat => (value : Int)
        else none
      else (digitsValue (first :: rest)).map fun value : Nat => (value : Int)
  number.filter fun value => Int32.minValue.toInt ≤ value && value ≤ Int32.maxValue.toInt

end Reading

theorem ch_toNat {c : Char} (small : c.toNat < 0x10000) : (ch c).toNat = c.toNat :=
  UInt16.toNat_ofNat_of_lt' small

theorem isDigit_bounds {c : Char} (digit : c.isDigit = true) : 0x30 ≤ c.toNat ∧ c.toNat ≤ 0x39 := by
  rw [Char.isDigit, Bool.and_eq_true, decide_eq_true_eq, decide_eq_true_eq] at digit
  exact digit

theorem isAsciiDigit_ch {c : Char} (digit : c.isDigit = true) : isAsciiDigit (ch c).toNat = true := by
  have bounds := isDigit_bounds digit
  rw [ch_toNat (by omega), isAsciiDigit, Bool.and_eq_true, decide_eq_true_eq, decide_eq_true_eq]
  exact bounds

theorem digitsValue_map [DigitTable] {digits : List Char} (all : ∀ c ∈ digits, c.isDigit = true) :
    digitsValue (digits.map ch) = some (Nat.ofDigitChars 10 digits 0) := by
  have from' (value : Nat) : (digits.map ch).foldlM
      (fun value c => (DigitTable.digitOf c).map fun digit => 10 * value + digit) value =
        some (Nat.ofDigitChars 10 digits value) := by
    induction digits generalizing value with
    | nil => rfl
    | cons c digits ih =>
      obtain ⟨here, later⟩ := List.forall_mem_cons.mp all
      have bounds := isDigit_bounds here
      have code : (ch c).toNat = c.toNat := ch_toNat (by omega)
      have digit : DigitTable.digitOf (ch c) = some (c.toNat - 0x30) := by
        rw [DigitTable.digitOf_ascii (ch c) (by omega), if_pos (isAsciiDigit_ch here), code]
      rw [List.map_cons, List.foldlM_cons, digit, Nat.ofDigitChars_cons]
      exact ih later _
  exact from' 0

section Padding

def paddedChars (width n : Nat) : List Char :=
  List.replicate (width - (Nat.toDigits 10 n).length) '0' ++ Nat.toDigits 10 n

theorem zeroPadded_natCast (width n : Nat) : zeroPadded width n = (paddedChars width n).map ch := by
  have positive : ¬ ((n : Int) < 0) := by omega
  simp [zeroPadded, paddedChars, positive]

theorem isDigit_paddedChars {width n : Nat} : ∀ c ∈ paddedChars width n, c.isDigit = true := by
  intro c member
  rcases List.mem_append.mp member with zero | digit
  · rw [(List.mem_replicate.mp zero).2]
    rfl
  · exact Nat.isDigit_of_mem_toDigits (by omega) (by omega) digit

theorem isAsciiDigit_zeroPadded {width n : Nat} : ∀ c ∈ zeroPadded width n, isAsciiDigit c.toNat = true := by
  rw [zeroPadded_natCast]
  intro c member
  obtain ⟨char, inside, rfl⟩ := List.mem_map.mp member
  exact isAsciiDigit_ch (isDigit_paddedChars char inside)

theorem length_zeroPadded {width n : Nat} (some : 0 < width) (fits : n < 10 ^ width) :
    (zeroPadded width n).length = width := by
  have short : (Nat.toDigits 10 n).length ≤ width := (Nat.length_toDigits_le_iff (by omega) some).mpr fits
  rw [zeroPadded_natCast, List.length_map, paddedChars, List.length_append, List.length_replicate]
  omega

theorem toIntOrNull_zeroPadded [DigitTable] {width n : Nat} (fits : n ≤ 0x7FFFFFFF) :
    toIntOrNull (zeroPadded width n) = some (n : Int) := by
  have value : digitsValue (zeroPadded width n) = some n := by
    rw [zeroPadded_natCast, digitsValue_map isDigit_paddedChars, paddedChars, Nat.ofDigitChars_append,
      Nat.ofDigitChars_replicate_zero, Nat.mul_zero, Nat.ofDigitChars_ten_toDigits]
  have nonempty : zeroPadded width n ≠ [] := by
    rw [zeroPadded_natCast, paddedChars]
    simp
  obtain ⟨first, rest, shape⟩ := List.exists_cons_of_ne_nil nonempty
  have digit := isAsciiDigit_zeroPadded first (by rw [shape]; exact List.mem_cons_self)
  rw [isAsciiDigit, Bool.and_eq_true, decide_eq_true_eq, decide_eq_true_eq] at digit
  have unsigned : ¬ first < ch '0' := by
    rw [UInt16.lt_iff_toNat_lt]
    have zero : (ch '0').toNat = 0x30 := rfl
    omega
  have least : Int32.minValue.toInt = -0x80000000 := rfl
  have most : Int32.maxValue.toInt = 0x7FFFFFFF := rfl
  rw [shape] at value ⊢
  simp only [toIntOrNull, if_neg unsigned, value, Option.map_some, Option.filter_some]
  apply if_pos
  rw [least, most, Bool.and_eq_true, decide_eq_true_eq, decide_eq_true_eq]
  omega

end Padding

end Kotlin
