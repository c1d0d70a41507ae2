import TranscriptForm.Form.Balanced
import TranscriptForm.Form.Fences

namespace Form

open Kotlin OnDeviceLlm Blocks

section Grammar

def Spaces (s : KString) : Prop := ∀ c ∈ s, isJsonSpace c = true

def Digits (s : KString) : Prop := s ≠ [] ∧ ∀ c ∈ s, isAsciiDigit c.toNat = true

def isHexDigit (c : KChar) : Bool :=
  isAsciiDigit c.toNat || (0x41 ≤ c.toNat && c.toNat ≤ 0x46) || (0x61 ≤ c.toNat && c.toNat ≤ 0x66)

inductive StringChars : KString → Prop
  | nil : StringChars []
  | plain {c : KChar} {s : KString} (visible : 0x20 ≤ c.toNat) (quote : c ≠ ch '"') (escape : c ≠ ch '\\')
      (later : StringChars s) : StringChars (c :: s)
  | escaped {c : KChar} {s : KString} (letter : c ∈ txt "\"\\/bfnrt") (later : StringChars s) :
      StringChars (ch '\\' :: c :: s)
  | unicode {hex s : KString} (four : hex.length = 4) (digits : ∀ c ∈ hex, isHexDigit c = true)
      (later : StringChars s) : StringChars (ch '\\' :: ch 'u' :: (hex ++ s))

def StringText (s : KString) : Prop := ∃ chars, StringChars chars ∧ s = ch '"' :: chars ++ [ch '"']

/-- `[ minus ] int [ frac ] [ exp ]` -/
structure NumberText (minus whole fraction exponent : KString) : Prop where
  minus : minus = [] ∨ minus = txt "-"
  whole : Digits whole ∧ (whole = txt "0" ∨ whole.head? ≠ some (ch '0'))
  fraction : fraction = [] ∨ ∃ digits, Digits digits ∧ fraction = ch '.' :: digits
  exponent : exponent = [] ∨ ∃ mark sign digits, (mark = ch 'e' ∨ mark = ch 'E') ∧
    (sign = [] ∨ sign = txt "+" ∨ sign = txt "-") ∧ Digits digits ∧ exponent = mark :: (sign ++ digits)

inductive JsonPart
  | value
  | object
  | array
  | member
  | members
  | element
  | elements

/-- The JSON grammar, spaces apart where it puts them. An object goes from its first brace to its last. -/
inductive JsonText : JsonPart → KString → Prop
  | ofObject {s : KString} (object : JsonText .object s) : JsonText .value s
  | ofArray {s : KString} (array : JsonText .array s) : JsonText .value s
  | string {s : KString} (text : StringText s) : JsonText .value s
  | number {minus whole fraction exponent : KString} (text : NumberText minus whole fraction exponent) :
      JsonText .value (minus ++ whole ++ fraction ++ exponent)
  | literal {s : KString} (name : s = txt "true" ∨ s = txt "false" ∨ s = txt "null") : JsonText .value s
  | emptyObject {space : KString} (spaces : Spaces space) : JsonText .object (ch '{' :: space ++ [ch '}'])
  | object {s : KString} (members : JsonText .members s) : JsonText .object (ch '{' :: s ++ [ch '}'])
  | emptyArray {space : KString} (spaces : Spaces space) : JsonText .array (ch '[' :: space ++ [ch ']'])
  | array {s : KString} (elements : JsonText .elements s) : JsonText .array (ch '[' :: s ++ [ch ']'])
  | member {left key right s : KString} (leftSpaces : Spaces left) (keyText : StringText key)
      (rightSpaces : Spaces right) (element : JsonText .element s) :
      JsonText .member (left ++ key ++ right ++ ch ':' :: s)
  | lastMember {s : KString} (member : JsonText .member s) : JsonText .members s
  | moreMembers {s rest : KString} (member : JsonText .member s) (members : JsonText .members rest) :
      JsonText .members (s ++ ch ',' :: rest)
  | element {left s right : KString} (leftSpaces : Spaces left) (value : JsonText .value s)
      (rightSpaces : Spaces right) : JsonText .element (left ++ s ++ right)
  | lastElement {s : KString} (element : JsonText .element s) : JsonText .elements s
  | moreElements {s rest : KString} (element : JsonText .element s) (elements : JsonText .elements rest) :
      JsonText .elements (s ++ ch ',' :: rest)

end Grammar

section Scan

variable {s : KString}

theorem Spaces.neutral (spaces : Spaces s) : Neutral braceMark s := by
  refine Neutral.of_plain fun c member => ?_
  rcases isJsonSpace_cases (spaces c member) with rfl | rfl | rfl | rfl <;> decide

theorem digit_plain {c : KChar} (digit : isAsciiDigit c.toNat = true) : braceMark c = .other := by
  apply braceMark_other <;> rintro rfl <;> exact absurd digit (by decide)

theorem Digits.neutral (digits : Digits s) : Neutral braceMark s :=
  Neutral.of_plain fun c member => .inl (digit_plain (digits.2 c member))

theorem hexDigit_plain {c : KChar} (digit : isHexDigit c = true) : c ≠ ch '"' ∧ c ≠ ch '\\' := by
  constructor <;> rintro rfl <;> exact absurd digit (by decide)

theorem quoted_cons {c : KChar} (quote : c ≠ ch '"') (escape : c ≠ ch '\\') (later : Quoted braceMark s) :
    Quoted braceMark (c :: s) := by
  refine Quoted.plain ?_ ?_ later <;> simp only [braceMark, markBy] <;> split_ifs <;> simp_all

theorem StringChars.quoted (chars : StringChars s) : Quoted braceMark s := by
  induction chars with
  | nil => exact .nil
  | plain visible quote escape later ih => exact quoted_cons quote escape ih
  | escaped letter later ih => exact Quoted.pair (by decide) ih
  | @unicode hex more four digits later ih =>
    have digitsQuoted : Quoted braceMark (hex ++ more) := by
      clear four
      induction hex with
      | nil => exact ih
      | cons c hex rest =>
        obtain ⟨here, others⟩ := List.forall_mem_cons.mp digits
        obtain ⟨quote, escape⟩ := hexDigit_plain here
        exact quoted_cons quote escape (rest others)
    exact Quoted.pair (by decide) digitsQuoted

theorem StringText.neutral (text : StringText s) : Neutral braceMark s := by
  obtain ⟨chars, inner, rfl⟩ := text
  exact inner.quoted.neutral (by decide) (by decide)

theorem neutral_cons {c : KChar} (plain : braceMark c = .other) (rest : Neutral braceMark s) :
    Neutral braceMark (c :: s) :=
  (Neutral.single (.inl plain)).append rest

theorem neutral_all (plain : (s.all fun c => braceMark c = .other) = true) : Neutral braceMark s :=
  Neutral.of_plain fun c member => .inl (by simpa using List.all_eq_true.mp plain c member)

theorem NumberText.neutral {minus whole fraction exponent : KString}
    (text : NumberText minus whole fraction exponent) :
    Neutral braceMark (minus ++ whole ++ fraction ++ exponent) := by
  have minusNeutral : Neutral braceMark minus := by
    rcases text.minus with rfl | rfl <;> exact neutral_all (by decide)
  have fractionNeutral : Neutral braceMark fraction := by
    rcases text.fraction with rfl | ⟨digits, some, rfl⟩
    · exact .nil
    · exact neutral_cons (by decide) some.neutral
  have exponentNeutral : Neutral braceMark exponent := by
    rcases text.exponent with rfl | ⟨mark, sign, digits, isMark, isSign, some, rfl⟩
    · exact .nil
    · have signNeutral : Neutral braceMark sign := by
        rcases isSign with rfl | rfl | rfl <;> exact neutral_all (by decide)
      refine neutral_cons ?_ (signNeutral.append some.neutral)
      rcases isMark with rfl | rfl <;> decide
  exact ((minusNeutral.append text.whole.1.neutral).append fractionNeutral).append exponentNeutral

theorem JsonText.neutral {part : JsonPart} (text : JsonText part s) : Neutral braceMark s := by
  induction text with
  | ofObject _ ih | ofArray _ ih | lastMember _ ih | lastElement _ ih => exact ih
  | string text => exact text.neutral
  | number text => exact text.neutral
  | literal name => rcases name with rfl | rfl | rfl <;> exact neutral_all (by decide)
  | emptyObject spaces => exact spaces.neutral.braces (by decide) (by decide)
  | object _ ih => exact ih.braces (by decide) (by decide)
  | emptyArray spaces => exact neutral_cons (by decide) (spaces.neutral.append (neutral_all (by decide)))
  | array _ ih => exact neutral_cons (by decide) (ih.append (neutral_all (by decide)))
  | member leftSpaces keyText rightSpaces _ ih =>
    exact ((leftSpaces.neutral.append keyText.neutral).append rightSpaces.neutral).append
      (neutral_cons (by decide) ih)
  | element leftSpaces _ rightSpaces ih => exact (leftSpaces.neutral.append ih).append rightSpaces.neutral
  | moreMembers _ _ first rest | moreElements _ _ first rest =>
    exact first.append (neutral_cons (by decide) rest)

theorem JsonText.object_braces (object : JsonText .object s) :
    ∃ body, s = ch '{' :: body ++ [ch '}'] ∧ Neutral braceMark body := by
  cases object with
  | emptyObject spaces => exact ⟨_, rfl, spaces.neutral⟩
  | object members => exact ⟨_, rfl, members.neutral⟩

end Scan

def IsSeparator (s : KString) : Prop := ch '{' ∉ s ∧ ch '}' ∉ s ∧ ch '"' ∉ s

theorem IsSeparator.plain {s : KString} (separator : IsSeparator s) :
    ∀ c ∈ s, braceMark c = .other ∨ braceMark c = .escape := by
  obtain ⟨opens, closes, quote⟩ := separator
  intro c member
  exact braceMark_plain (fun same => quote (same ▸ member)) (fun same => opens (same ▸ member))
    fun same => closes (same ▸ member)

theorem extractBalancedJsonObjects_separated {first : KString} {parts : List (KString × KString)}
    (start : IsSeparator first) (parsed : ∀ part ∈ parts, JsonText .object part.1 ∧ IsSeparator part.2) :
    extractBalancedJsonObjects (first ++ parts.flatMap fun part => part.1 ++ part.2) = parts.map Prod.fst := by
  rw [extractBalancedJsonObjects_eq_blocks, blocks_separator start.plain]
  refine blocks_separated (fun part member => ?_) fun part member => (parsed part member).2.plain
  obtain ⟨body, shape, inner⟩ := (parsed part member).1.object_braces
  exact ⟨ch '{', body, ch '}', shape, by decide, by decide, inner⟩

section Sample

theorem sample_object : JsonText .object (txt "\x7b\"k\":\"\x7d\\\\\"\x7d") := by
  have key : StringText (txt "\"k\"") :=
    ⟨txt "k", .plain (by decide) (by decide) (by decide) .nil, by decide⟩
  have chars : StringChars (txt "\x7d\\\\") :=
    .plain (by decide) (by decide) (by decide) (.escaped (by decide) .nil)
  have value : JsonText .value (txt "\"\x7d\\\\\"") := .string ⟨_, chars, by decide⟩
  have none : Spaces [] := by simp [Spaces]
  exact .object (.lastMember (.member none key none (.element none value none)))

theorem extractBalancedJsonObjects_separated_sample :
    extractBalancedJsonObjects (txt "a \x7b\"k\":\"\x7d\\\\\"\x7d\\, \x7b\x7d") =
      [txt "\x7b\"k\":\"\x7d\\\\\"\x7d", txt "\x7b\x7d"] := by
  have empty : JsonText .object (txt "\x7b\x7d") := @JsonText.emptyObject [] (by simp [Spaces])
  exact @extractBalancedJsonObjects_separated (txt "a ")
    [(txt "\x7b\"k\":\"\x7d\\\\\"\x7d", txt "\\, "), (txt "\x7b\x7d", [])]
    (by unfold IsSeparator; decide)
    (by
      intro part member
      rcases List.mem_pair.mp member with rfl | rfl
      · exact ⟨sample_object, by unfold IsSeparator; decide⟩
      · exact ⟨empty, by unfold IsSeparator; decide⟩)

end Sample

end Form
