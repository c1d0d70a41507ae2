import TranscriptForm.Kotlin.Text

namespace Kotlin

/-- ASCII and the German letters ä, ö, ü, Ä, Ö, Ü, ß. -/
def isBasic (code : Nat) : Bool :=
  code < 0x80 || code == 0xC4 || code == 0xD6 || code == 0xDC || code == 0xDF ||
    code == 0xE4 || code == 0xF6 || code == 0xFC

def isAsciiUpper (code : Nat) : Bool := 0x41 ≤ code && code ≤ 0x5A

def isAsciiLower (code : Nat) : Bool := 0x61 ≤ code && code ≤ 0x7A

def isAsciiLetter (code : Nat) : Bool := isAsciiUpper code || isAsciiLower code

def isAsciiDigit (code : Nat) : Bool := 0x30 ≤ code && code ≤ 0x39

def isSurrogate (code : Nat) : Bool := 0xD800 ≤ code && code ≤ 0xDFFF

theorem whitespace_plain {c : KChar} (space : isWhitespace c = true) : isSurrogate c.toNat = false := by
  simp only [isWhitespace, isWhitespaceCode, Bool.or_eq_true, Bool.and_eq_true, decide_eq_true_eq,
    beq_iff_eq] at space
  simp only [isSurrogate, Bool.and_eq_false_iff, decide_eq_false_iff_not]
  omega

def lowerBasic (code : Nat) : Nat :=
  if isAsciiUpper code || code == 0xC4 || code == 0xD6 || code == 0xDC then code + 0x20 else code

def upperBasic (c : KChar) : KString :=
  if isAsciiLower c.toNat || c == ch 'ä' || c == ch 'ö' || c == ch 'ü' then [c - 0x20]
  else if c == ch 'ß' then txt "SS" else [c]

/-- The character data of the platform (JVM, Android, Kotlin/Native) and the
    classes of its regular expressions. The tables are the platform's own. Only
    what the Unicode standard and the platforms document alike is assumed. -/
class Platform where
  /-- The lower case of one code point, `Σ` and `İ` apart. -/
  lowerCode : Nat → Nat
  uppercase : KChar → KString
  isCased : Nat → Bool
  isCaseIgnorable : Nat → Bool
  /-- `\p{L}` -/
  isLetter : Nat → Bool
  /-- `\s` -/
  isSpace : Nat → Bool
  /-- `\d` -/
  isDigit : Nat → Bool
  /-- The characters `\b` takes for parts of a word. -/
  isWord : Nat → Bool
  /-- The characters that end a line for `.`, `^` and `$`. -/
  isLineEnd : Nat → Bool
  /-- Equality of two characters under `(?i)`. -/
  eqIgnoreCase : Nat → Nat → Bool
  lowerCode_basic : ∀ code, isBasic code = true → lowerCode code = lowerBasic code
  lowerCode_whitespace : ∀ code, isWhitespaceCode code = true → lowerCode code = code
  lowerCode_surrogate : ∀ code, isSurrogate code = true → lowerCode code = code
  lowerCode_supplementary : ∀ code, 0x10000 ≤ code → 0x10000 ≤ lowerCode code
  uppercase_basic : ∀ c, isBasic c.toNat = true → uppercase c = upperBasic c
  isLetter_basic : ∀ code, isBasic code = true → (isLetter code = true ↔ isAsciiLetter code = true ∨ 0x80 ≤ code)
  isLetter_surrogate : ∀ code, isSurrogate code = true → isLetter code = false
  isSpace_ascii : ∀ code, code < 0x80 → (isSpace code = true ↔ 0x09 ≤ code ∧ code ≤ 0x0D ∨ code = 0x20)
  isSpace_whitespace : ∀ code, isSpace code = true → isWhitespaceCode code = true ∨ code = 0x85
  isDigit_ascii : ∀ code, code < 0x80 → isDigit code = isAsciiDigit code
  isWord_ascii : ∀ code, code < 0x80 → isWord code = (isAsciiLetter code || isAsciiDigit code || code == 0x5F)
  isLineEnd_ascii : ∀ code, code < 0x80 → isLineEnd code = true → 0x0A ≤ code ∧ code ≤ 0x0D
  isLineEnd_newline : isLineEnd 0x0A = true ∧ isLineEnd 0x0D = true
  eqIgnoreCase_refl : ∀ code, eqIgnoreCase code code = true
  eqIgnoreCase_ascii : ∀ a b, a < 0x80 → b < 0x80 → eqIgnoreCase a b = (lowerBasic a == lowerBasic b)
  eqIgnoreCase_caseless : ∀ a b, b < 0x80 → isAsciiLetter b = false → eqIgnoreCase a b = true → a = b

/-- The platform's tables cut down to the basic characters. -/
@[reducible] def basicPlatform : Platform where
  lowerCode := lowerBasic
  uppercase := upperBasic
  isCased code := isBasic code && (isAsciiLetter code || 0x80 ≤ code)
  isCaseIgnorable code := code == 0x27 || code == 0x2E || code == 0x3A
  isLetter code := isBasic code && (isAsciiLetter code || 0x80 ≤ code)
  isSpace code := (0x09 ≤ code && code ≤ 0x0D) || code == 0x20
  isDigit := isAsciiDigit
  isWord code := isAsciiLetter code || isAsciiDigit code || code == 0x5F
  isLineEnd code := code == 0x0A || code == 0x0D
  eqIgnoreCase a b := lowerBasic a == lowerBasic b
  lowerCode_basic _ _ := rfl
  lowerCode_whitespace := by
    intro code space
    simp only [isWhitespaceCode, Bool.or_eq_true, Bool.and_eq_true, decide_eq_true_eq, beq_iff_eq] at space
    have lower : (isAsciiUpper code || code == 0xC4 || code == 0xD6 || code == 0xDC) = false := by
      simp only [isAsciiUpper, Bool.or_eq_false_iff, Bool.and_eq_false_iff, decide_eq_false_iff_not, beq_eq_false_iff_ne]
      omega
    simp [lowerBasic, lower]
  lowerCode_surrogate := by
    intro code surrogate
    simp only [isSurrogate, Bool.and_eq_true, decide_eq_true_eq] at surrogate
    have lower : (isAsciiUpper code || code == 0xC4 || code == 0xD6 || code == 0xDC) = false := by
      simp only [isAsciiUpper, Bool.or_eq_false_iff, Bool.and_eq_false_iff, decide_eq_false_iff_not, beq_eq_false_iff_ne]
      omega
    simp [lowerBasic, lower]
  lowerCode_supplementary := by
    intro code high
    unfold lowerBasic
    split <;> omega
  uppercase_basic _ _ := rfl
  isLetter_basic := by
    intro code basic
    simp [basic]
  isLetter_surrogate := by
    intro code surrogate
    simp only [isSurrogate, Bool.and_eq_true, decide_eq_true_eq] at surrogate
    have basic : isBasic code = false := by
      simp only [isBasic, Bool.or_eq_false_iff, decide_eq_false_iff_not, beq_eq_false_iff_ne]
      omega
    simp [basic]
  isSpace_ascii := by simp
  isSpace_whitespace := by
    intro code space
    left
    simp only [Bool.or_eq_true, Bool.and_eq_true, decide_eq_true_eq, beq_iff_eq] at space
    simp only [isWhitespaceCode, Bool.or_eq_true, Bool.and_eq_true, decide_eq_true_eq, beq_iff_eq]
    omega
  isDigit_ascii _ _ := rfl
  isWord_ascii _ _ := rfl
  isLineEnd_ascii := by
    intro code _ ends
    simp only [Bool.or_eq_true, beq_iff_eq] at ends
    omega
  isLineEnd_newline := by decide
  eqIgnoreCase_refl := by simp
  eqIgnoreCase_ascii _ _ _ _ := rfl
  eqIgnoreCase_caseless := by
    intro a b ascii caseless same
    simp only [isAsciiLetter, isAsciiUpper, isAsciiLower, Bool.or_eq_false_iff, Bool.and_eq_false_iff,
      decide_eq_false_iff_not] at caseless
    simp only [lowerBasic, isAsciiUpper, beq_iff_eq, Bool.or_eq_true, Bool.and_eq_true,
      decide_eq_true_eq] at same
    by_cases upper : ((65 ≤ a ∧ a ≤ 90 ∨ a = 196) ∨ a = 214) ∨ a = 220
    · rw [if_pos upper, if_neg (by omega)] at same
      omega
    · rw [if_neg upper, if_neg (by omega)] at same
      exact same

end Kotlin
