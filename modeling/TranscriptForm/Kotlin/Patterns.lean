import TranscriptForm.Kotlin.Lowercase
import TranscriptForm.Library.Regex.Edits
import TranscriptForm.Library.Regex.Runs

namespace Kotlin

def readCodePoint : KString → Option (Nat × KString × KString)
  | [] => none
  | [c] => some (c.toNat, [c], [])
  | c :: d :: s => if isPair c d then some (pairCode c d, [c, d], s) else some (c.toNat, [c], d :: s)

/-- Regular expressions read code points, strings are stored in UTF-16 units. -/
def utf16 : Regex.Reader KChar Nat where
  next := readCodePoint
  next_split := by
    intro text char read rest next
    match text with
    | [] => cases next
    | [c] =>
      simp only [readCodePoint, Option.some.injEq, Prod.mk.injEq] at next
      obtain ⟨_, rfl, rfl⟩ := next
      simp
    | c :: d :: s =>
      simp only [readCodePoint] at next
      split at next <;> simp only [Option.some.injEq, Prod.mk.injEq] at next <;>
        obtain ⟨_, rfl, rfl⟩ := next <;> simp

abbrev Pattern := Regex.Pattern KChar Nat

namespace Pattern

def inClass (chars : String) (code : Nat) : Bool := (txt chars).any fun c => c.toNat == code

/-- `[chars]` -/
def oneOf (chars : String) : Pattern := .set (inClass chars)

/-- `[^chars]` -/
def noneOf (chars : String) : Pattern := .set fun code => !inClass chars code

/-- `[^a-z0-9]` -/
def isNotKeyCode (code : Nat) : Bool := !(isAsciiLower code || isAsciiDigit code)

/-- `[\s\S]` -/
def anything : Pattern := .set fun _ => true

def concat (parts : List Pattern) : Pattern := parts.foldr .seq .empty

def either (parts : List Pattern) : Pattern :=
  match parts with
  | [] => .set fun _ => false
  | [part] => part
  | part :: parts => .alt part (either parts)

def star (body : Pattern) : Pattern := .loop true 0 none body

def plus (body : Pattern) : Pattern := .loop true 1 none body

def optional (body : Pattern) : Pattern := .loop true 0 (some 1) body

def lazyStar (body : Pattern) : Pattern := .loop false 0 none body

def between (least most : Nat) (body : Pattern) : Pattern := .loop true least (some most) body

def lit (literal : String) : Pattern :=
  concat ((txt literal).map fun c => .set fun code => code == c.toNat)

/-- `^` -/
def textStart : Pattern := .look fun before _ => before.isEmpty

/-- `(?<=[chars])` -/
def precededBy (chars : String) : Pattern :=
  .look fun before _ => before.head?.any fun c => inClass chars c.toNat

variable [Platform]

/-- A literal under `(?i)`. -/
def textIgnoreCase (literal : KString) : Pattern :=
  concat ((codePoints literal).map fun wanted => .set (Platform.eqIgnoreCase wanted))

def litIgnoreCase (literal : String) : Pattern := textIgnoreCase (txt literal)

/-- `\s` -/
def space : Pattern := .set Platform.isSpace

/-- `\d` -/
def digit : Pattern := .set Platform.isDigit

/-- `.` -/
def anyChar : Pattern := .set fun code => !Platform.isLineEnd code

def isLineEndChar (c : KChar) : Bool := Platform.isLineEnd c.toNat

/-- The position between `\r` and `\n` belongs to no line. -/
def insideNewline (before rest : KString) : Bool :=
  before.head? == some (ch '\r') && rest.head? == some (ch '\n')

/-- `$`: the end of the text or of its last line. -/
def textEnd : Pattern := .look fun before rest =>
  rest.isEmpty ||
    ((rest.length == 1 && rest.head?.any isLineEndChar || rest == txt "\r\n") && !insideNewline before rest)

/-- `(?m)^` -/
def lineStart : Pattern := .look fun before rest =>
  before.isEmpty || (before.head?.any isLineEndChar && !rest.isEmpty && !insideNewline before rest)

/-- `(?m)$` -/
def lineEnd : Pattern := .look fun before rest =>
  rest.isEmpty || (rest.head?.any isLineEndChar && !insideNewline before rest)

def lastCode : KString → Option Nat
  | [] => none
  | [c] => some c.toNat
  | low :: high :: _ => if isPair high low then some (pairCode high low) else some low.toNat

/-- `\b` -/
def wordBoundary : Pattern := .look fun before rest =>
  (lastCode before).any Platform.isWord != ((readCodePoint rest).map Prod.fst).any Platform.isWord

end Pattern

def find (pattern : Pattern) (s : KString) : Option (Regex.Match KChar) := Regex.find utf16 pattern s

def findAll (pattern : Pattern) (s : KString) : List (Regex.Match KChar) := Regex.findAll utf16 pattern s

def replace (pattern : Pattern) (replacement s : KString) : KString :=
  Regex.replace utf16 pattern replacement s

def split (pattern : Pattern) (s : KString) : List KString := Regex.split utf16 pattern s

def matchesWhole (pattern : Pattern) (s : KString) : Bool := Regex.matchesWhole utf16 pattern s

/-- `groupValues[index]`, empty for a group that took no part. -/
def groupValue (found : Regex.Match KChar) (index : Nat) : KString := (found.group index).getD []

theorem groupValue_part {pattern : Pattern} {s : KString} {found : Regex.Match KChar} (search : find pattern s = some found)
    (index : Nat) : groupValue found index <:+: s := by
  unfold groupValue
  cases group : found.group index with
  | none => exact List.nil_infix
  | some captured => exact Regex.find_group_part search group

theorem readCodePoint_cons (c : KChar) (s : KString) : ∃ char read rest,
    readCodePoint (c :: s) = some (char, read, rest) ∧
      ((char = c.toNat ∧ read = [c] ∧ rest = s) ∨
        ∃ d, isPair c d = true ∧ char = pairCode c d ∧ read = [c, d] ∧ s = d :: rest) := by
  cases s with
  | nil => exact ⟨_, _, _, rfl, Or.inl ⟨rfl, rfl, rfl⟩⟩
  | cons d s =>
    by_cases pair : isPair c d = true
    · exact ⟨_, _, _, by rw [readCodePoint, if_pos pair], Or.inr ⟨d, pair, rfl, rfl, rfl⟩⟩
    · exact ⟨_, _, _, by rw [readCodePoint, if_neg pair], Or.inl ⟨rfl, rfl, rfl⟩⟩

theorem unitWise_of_uniform (member : Nat → Bool) (other : Bool)
    (uniform : ∀ code, isSurrogate code = true ∨ 0x10000 ≤ code → member code = other) :
    Regex.UnitWise utf16 member fun c => member c.toNat = true where
  total := by
    intro c s
    obtain ⟨char, read, rest, found, _⟩ := readCodePoint_cons c s
    change readCodePoint (c :: s) ≠ none
    simp [found]
  agrees := by
    intro text char read rest next unit inside
    change readCodePoint text = some (char, read, rest) at next
    cases text with
    | nil => cases next
    | cons c s =>
      obtain ⟨char', read', rest', found, shape⟩ := readCodePoint_cons c s
      rw [found] at next
      cases next
      rcases shape with ⟨single, units, _⟩ | ⟨d, pair, double, units, _⟩
      · rw [units] at inside
        rw [List.mem_singleton.mp inside, single]
      · have surrogates := isPair_surrogates pair
        have code := uniform _ (Or.inr (pairCode_supplementary c d))
        rw [units] at inside
        rw [double, code]
        rcases List.mem_cons.mp inside with rfl | inside
        · rw [uniform _ (Or.inl surrogates.1)]
        · rw [List.mem_singleton.mp inside, uniform _ (Or.inl surrogates.2)]

theorem isNotKeyCode_uniform (code : Nat) (far : isSurrogate code = true ∨ 0x10000 ≤ code) :
    Pattern.isNotKeyCode code = true := by
  have large : 0x80 ≤ code := by
    rcases far with far | far
    · simp only [isSurrogate, Bool.and_eq_true, decide_eq_true_eq] at far
      omega
    · omega
  simp only [Pattern.isNotKeyCode, isAsciiLower, isAsciiDigit, Bool.not_eq_true', Bool.or_eq_false_iff,
    Bool.and_eq_false_iff, decide_eq_false_iff_not]
  omega

theorem notKey_unitWise :
    Regex.UnitWise utf16 Pattern.isNotKeyCode fun c => Pattern.isNotKeyCode c.toNat = true :=
  unitWise_of_uniform _ true isNotKeyCode_uniform

theorem isSpace_uniform [Platform] (code : Nat) (far : isSurrogate code = true ∨ 0x10000 ≤ code) :
    Platform.isSpace code = false := by
  by_contra space
  have cases := Platform.isSpace_whitespace code (by simpa using space)
  simp only [isWhitespaceCode, isSurrogate, Bool.or_eq_true, Bool.and_eq_true, decide_eq_true_eq,
    beq_iff_eq] at cases far
  omega

theorem isSpace_other [Platform] {code : Nat} (ascii : code < 0x80)
    (other : ¬ (0x09 ≤ code ∧ code ≤ 0x0D ∨ code = 0x20)) : Platform.isSpace code = false := by
  rw [Bool.eq_false_iff]
  intro space
  exact other ((Platform.isSpace_ascii code ascii).mp space)

theorem space_unitWise [Platform] :
    Regex.UnitWise utf16 Platform.isSpace fun c => Platform.isSpace c.toNat = true :=
  unitWise_of_uniform _ false isSpace_uniform

theorem within_plain {good : KChar → Prop} {member : Nat → Bool}
    (plain : ∀ code, member code = true → code < 0x10000)
    (inside : ∀ c : KChar, member c.toNat = true → good c) :
    Regex.Within utf16 good (.set member : Pattern) := by
  intro text char read rest next accepted unit unitMember
  change readCodePoint text = some (char, read, rest) at next
  cases text with
  | nil => cases next
  | cons c s =>
    obtain ⟨char', read', rest', found, shape⟩ := readCodePoint_cons c s
    rw [found] at next
    cases next
    rcases shape with ⟨single, units, _⟩ | ⟨d, _, double, _, _⟩
    · rw [units] at unitMember
      rw [List.mem_singleton.mp unitMember]
      rw [single] at accepted
      exact inside c accepted
    · have small := plain char accepted
      have large := pairCode_supplementary c d
      omega

theorem inClass_iff (chars : String) (c : KChar) : Pattern.inClass chars c.toNat = true ↔ c ∈ txt chars := by
  simp only [Pattern.inClass, List.any_eq_true, beq_iff_eq]
  constructor
  · rintro ⟨other, member, same⟩
    rwa [UInt16.toNat_inj.mp same] at member
  · intro member
    exact ⟨c, member, rfl⟩

theorem within_oneOf {good : KChar → Prop} (chars : String) (inside : ∀ c ∈ txt chars, good c) :
    Regex.Within utf16 good (Pattern.oneOf chars) := by
  apply within_plain
  · intro code member
    simp only [Pattern.inClass, List.any_eq_true, beq_iff_eq] at member
    obtain ⟨c, _, same⟩ := member
    rw [← same]
    exact c.toNat_lt
  · intro c member
    exact inside c ((inClass_iff chars c).mp member)

theorem within_space [Platform] {good : KChar → Prop}
    (inside : ∀ c : KChar, Platform.isSpace c.toNat = true → good c) : Regex.Within utf16 good Pattern.space := by
  apply within_plain
  · intro code space
    rcases Platform.isSpace_whitespace code space with white | next
    · simp only [isWhitespaceCode, Bool.or_eq_true, Bool.and_eq_true, decide_eq_true_eq, beq_iff_eq] at white
      omega
    · omega
  · exact inside

theorem textStart_anchored (parts : List Pattern) :
    Regex.Anchored utf16 (Pattern.concat (Pattern.textStart :: parts)) := by
  intro before rest later
  have refused : before.isEmpty = false := by simpa using later
  simp [Pattern.concat, Pattern.textStart, Regex.firstAt, Regex.results, refused]

end Kotlin
