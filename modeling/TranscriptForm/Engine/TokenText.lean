import TranscriptForm.Library.Buffering
import TranscriptForm.Library.PartialText
import TranscriptForm.Engine.AiChat
import TranscriptForm.Engine.DirectOutput
import TranscriptForm.Engine.IosLlama

-- Both checks for whole characters, on the bytes of tokens that may end within one.
namespace Engine

open Kotlin

/-- Text as a C string can hold it -/
structure PlainText (bytes : Bytes) : Prop where
  utf8 : Utf8.IsUtf8 bytes
  nonzero : 0 ∉ bytes

theorem plainText_texts : Buffering.Texts PlainText where
  nil := ⟨.nil, by simp⟩
  append left right := ⟨left.utf8.append right.utf8, by simp [left.nonzero, right.nonzero]⟩
  rest := by
    intro first second left whole
    obtain ⟨chars, rfl⟩ := left.utf8
    have nonzero : 0 ∉ second := fun member => whole.nonzero (List.mem_append_right _ member)
    refine ⟨?_, nonzero⟩
    have valid := whole.utf8
    clear whole left
    induction chars with
    | nil => exact valid
    | cons char chars ih =>
      rw [Utf8.encodeAll_cons, List.append_assoc] at valid
      exact ih valid.after_char

variable {τ : Type}

def tokenPieces (vocab : Vocab τ) (sampled : Nat → τ) (i count : Nat) : List Bytes :=
  (List.range' i count).map fun index => vocab.tokenToPiece (sampled index)

theorem tokenPieces_succ (vocab : Vocab τ) (sampled : Nat → τ) (i count : Nat) :
    tokenPieces vocab sampled i (count + 1) = vocab.tokenToPiece (sampled i) :: tokenPieces vocab sampled (i + 1) count :=
  rfl

theorem tokenPieces_flatten (vocab : Vocab τ) (sampled : Nat → τ) (i count : Nat) :
    (tokenPieces vocab sampled i count).flatten = pieces vocab sampled i count := by
  rw [tokenPieces, pieces, List.flatMap_def]

section Masks

variable {byte : UInt8}

theorem mask_lead (n : Nat) (small : n < 0x100) :
    ((UInt8.ofNat n &&& 0x80 = 0 ↔ n < 0x80) ∧ (UInt8.ofNat n &&& 0xE0 = 0xC0 ↔ 0xC0 ≤ n ∧ n < 0xE0)) ∧
      (UInt8.ofNat n &&& 0xF0 = 0xE0 ↔ 0xE0 ≤ n ∧ n < 0xF0) ∧ (UInt8.ofNat n &&& 0xF8 = 0xF0 ↔ 0xF0 ≤ n ∧ n < 0xF8) := by
  revert n
  decide +kernel

theorem mask_continues (n : Nat) (small : n < 0x100) : UInt8.ofNat n &&& 0xC0 = 0x80 ↔ 0x80 ≤ n ∧ n ≤ 0xBF := by
  revert n
  decide +kernel

theorem continues_iff : byte &&& 0xC0 = 0x80 ↔ Utf8.Continues byte := by
  have masked := mask_continues byte.toNat byte.toNat_lt
  rw [UInt8.ofNat_toNat] at masked
  exact masked

end Masks

section Valid

variable {bytes rest : Bytes} {begun : Utf8.Pending}

theorem isValidUtf8From_ascii {byte : UInt8} (ascii : byte.toNat < 0x80) (nonzero : byte ≠ 0) :
    isValidUtf8From 0 (byte :: rest) = isValidUtf8From 0 rest := by
  have masked := (mask_lead byte.toNat byte.toNat_lt).1.1
  rw [UInt8.ofNat_toNat] at masked
  rw [isValidUtf8From, if_neg nonzero, if_pos (masked.mpr ascii)]

theorem isValidUtf8From_lead {byte : UInt8} (lead : Utf8.leadByte byte.toNat = some begun) :
    isValidUtf8From 0 (byte :: rest) = isValidUtf8From (begun.owed + 1) rest := by
  have range := (Utf8.leadByte_range lead).1
  have nonzero : byte ≠ 0 := by
    rintro rfl
    exact absurd range (by decide)
  have masked := mask_lead byte.toNat byte.toNat_lt
  rw [UInt8.ofNat_toNat] at masked
  obtain ⟨⟨ascii, two⟩, three, four⟩ := masked
  rw [isValidUtf8From, if_neg nonzero]
  simp only [ascii, two, three, four]
  rw [if_neg (by omega)]
  unfold Utf8.leadByte at lead
  split_ifs at lead <;> cases lead
  · rw [if_pos (by omega)]
  all_goals first
    | rw [if_neg (by omega), if_pos (by omega)]
    | rw [if_neg (by omega), if_neg (by omega), if_pos (by omega)]

theorem isValidUtf8From_continues {tail : Bytes} (continues : ∀ byte ∈ tail, Utf8.Continues byte) :
    isValidUtf8From tail.length (tail ++ rest) = isValidUtf8From 0 rest := by
  induction tail with
  | nil => rfl
  | cons byte tail ih =>
    obtain ⟨here, later⟩ := List.forall_mem_cons.mp continues
    rw [List.length_cons, List.cons_append, isValidUtf8From, if_pos (continues_iff.mpr here), ih later]

theorem isValidUtf8From_short {num : Nat} (short : bytes.length < num) : isValidUtf8From num bytes = false := by
  induction bytes generalizing num with
  | nil =>
    cases num with
    | zero => exact absurd short (Nat.not_lt_zero _)
    | succ num => rfl
  | cons byte bytes ih =>
    rw [List.length_cons] at short
    cases num with
    | zero => omega
    | succ num =>
      rw [isValidUtf8From, ih (by omega), ite_self]

theorem isValidUtf8From_char {char : Char} (nonzero : 0 ∉ String.utf8EncodeChar char) :
    isValidUtf8From 0 (String.utf8EncodeChar char ++ rest) = isValidUtf8From 0 rest := by
  by_cases ascii : char.toNat < 0x80
  · have spelled := Utf8.utf8EncodeChar_ascii ascii
    rw [spelled] at nonzero ⊢
    have small : (UInt8.ofNat char.toNat).toNat = char.toNat := Utf8.toNat_byte (by omega)
    apply isValidUtf8From_ascii
    · omega
    · intro zero
      exact nonzero (by simp [zero])
  · obtain ⟨lead, tail, begun, shape, spelled⟩ := Utf8.utf8EncodeChar_spelled (Nat.le_of_not_lt ascii)
    rw [shape, List.cons_append, isValidUtf8From_lead spelled.lead, ← spelled.length,
      isValidUtf8From_continues spelled.tail]

theorem isValidUtf8From_encodeAll {chars : List Char} (nonzero : 0 ∉ Utf8.encodeAll chars) :
    isValidUtf8From 0 (Utf8.encodeAll chars ++ rest) = isValidUtf8From 0 rest := by
  induction chars with
  | nil => rfl
  | cons char chars ih =>
    rw [Utf8.encodeAll_cons, List.mem_append, not_or] at nonzero
    rw [Utf8.encodeAll_cons, List.append_assoc, isValidUtf8From_char nonzero.1, ih nonzero.2]

theorem isValidUtf8_part {char : Char} {part : Bytes} (isPart : Utf8.Part char part) :
    isValidUtf8From 0 part = false := by
  obtain ⟨lead, tail, begun, rfl, leads, short, _⟩ := isPart.spelled
  rw [isValidUtf8From_lead leads]
  apply isValidUtf8From_short
  omega

/-- `is_valid_utf8` takes more than UTF-8, but not of a text that is cut. -/
theorem isValidUtf8_tells : Buffering.Tells isValidUtf8 PlainText := by
  intro first rest whole
  have nonzero : 0 ∉ first := fun member => whole.nonzero (List.mem_append_left _ member)
  rcases Utf8.cut_cases whole.utf8 with valid | ⟨chars, char, part, rfl, isPart⟩
  · refine ⟨fun _ => ⟨valid, nonzero⟩, fun _ => ?_⟩
    obtain ⟨chars, rfl⟩ := valid
    have checked := @isValidUtf8From_encodeAll [] chars nonzero
    rw [List.append_nil] at checked
    exact checked
  · have start : 0 ∉ Utf8.encodeAll chars := fun member => nonzero (List.mem_append_left _ member)
    have refused : isValidUtf8 (Utf8.encodeAll chars ++ part) = false := by
      rw [isValidUtf8, isValidUtf8From_encodeAll start, isValidUtf8_part isPart]
    rw [refused]
    refine ⟨fun wrong => ?_, fun valid => absurd valid.utf8 (Utf8.part_not_isUtf8 isPart)⟩
    cases wrong

end Valid

section Swift

variable {bytes rest : Bytes}

theorem takeWhile_nonzero (nonzero : 0 ∉ bytes) : bytes.takeWhile (· ≠ 0) = bytes := by
  rw [List.takeWhile_eq_self_iff]
  intro byte member
  simpa using ne_of_mem_of_not_mem member nonzero

theorem validatingUTF8_none (nonzero : 0 ∉ bytes) (broken : none ∈ Utf8.decode bytes) :
    Swift.validatingUTF8 bytes = none := by
  have refused (read : List (Option Char)) (member : none ∈ read) : read.mapM id = none := by
    induction read with
    | nil => cases member
    | cons char read ih =>
      rw [List.mapM_cons]
      cases char with
      | none => rfl
      | some char =>
        rw [ih (by simpa using member)]
        rfl
  rw [Swift.validatingUTF8, takeWhile_nonzero nonzero, refused _ broken]
  rfl

theorem newTokenStr_cut (whole : PlainText (bytes ++ rest)) :
    PlainText bytes ∧ LlamaContext.newTokenStr bytes = (Swift.cString bytes, []) ∨
      ¬ PlainText bytes ∧ LlamaContext.newTokenStr bytes = ([], bytes) := by
  have nonzero : 0 ∉ bytes := fun member => whole.nonzero (List.mem_append_left _ member)
  rcases Utf8.cut_cases whole.utf8 with valid | ⟨chars, char, part, rfl, isPart⟩
  · refine .inl ⟨⟨valid, nonzero⟩, ?_⟩
    obtain ⟨chars, rfl⟩ := valid
    rw [newTokenStr_encodeAll nonzero, Swift.cString, takeWhile_nonzero nonzero, Utf8.decode_encodeAll]
    simp
  · refine .inr ⟨fun valid => absurd valid.utf8 (Utf8.part_not_isUtf8 isPart), ?_⟩
    have broken {last : Bytes} (isLast : last <:+ Utf8.encodeAll chars ++ part) (some : last ≠ []) :
        Swift.validatingUTF8 last = none :=
      validatingUTF8_none (fun member => nonzero (isLast.subset member)) (Utf8.none_mem_decode_part isPart isLast some)
    have nonempty : Utf8.encodeAll chars ++ part ≠ [] := by
      simp [isPart.some]
    rw [LlamaContext.newTokenStr, broken (List.suffix_refl _) nonempty]
    dsimp only
    rw [if_neg]
    rw [List.any_eq_true]
    rintro ⟨count, inside, found⟩
    rw [Bool.and_eq_true, decide_eq_true_eq] at found
    rw [List.mem_range] at inside
    rw [broken (List.drop_suffix _ _)] at found
    · exact absurd found.2 Bool.false_ne_true
    · rw [← List.length_pos_iff, List.length_drop]
      omega

end Swift

section Sample

/-- Two tokens that share a character, and then the end. -/
def halvesVocab : Vocab Nat where
  isEog token := 2 ≤ token
  tokenToPiece token := if token = 0 then [0xC3] else if token = 1 then [0xA9] else []

theorem pieces_halves (count : Nat) : ∃ rest, PlainText (pieces halvesVocab id 0 count ++ rest) := by
  have whole : PlainText [0xC3, 0xA9] := ⟨⟨['é'], by decide⟩, by decide⟩
  have none (i count : Nat) : pieces halvesVocab id (i + 2) count = [] := by
    induction count generalizing i with
    | zero => rfl
    | succ count ih =>
      rw [pieces_succ, show i + 2 + 1 = i + 1 + 2 by omega, ih]
      rfl
  match count with
  | 0 => exact ⟨[], .nil, by simp [pieces]⟩
  | 1 => exact ⟨[0xA9], whole⟩
  | count + 2 =>
    refine ⟨[], ?_⟩
    rw [pieces_succ, pieces_succ, none 0]
    exact whole

end Sample

end Engine
