import Mathlib.Tactic.Linarith
import TranscriptForm.Transcription.WaveLayout

namespace Transcription

open Kotlin Form

section Fallible

variable {α β ε : Type}

theorem bind_computes {compute : Except ε α} {next : α → Except ε β} {good : β → Prop}
    (computes : ∃ value, compute = .ok value) (continues : ∀ value, ∃ result, next value = .ok result ∧ good result) :
    ∃ result, (compute >>= next) = .ok result ∧ good result := by
  obtain ⟨value, rfl⟩ := computes
  exact continues value

theorem mapM_ok {compute : α → Except ε β} {good : β → Prop} {items : List α} {size : ℕ} (sized : items.length = size)
    (each : ∀ item ∈ items, ∃ value, compute item = .ok value ∧ good value) :
    ∃ values, items.mapM compute = .ok values ∧ values.length = size ∧ ∀ value ∈ values, good value := by
  induction items generalizing size with
  | nil => exact ⟨[], rfl, sized, by simp⟩
  | cons item items ih =>
    obtain ⟨value, computed, isGood⟩ := each item List.mem_cons_self
    obtain ⟨values, rest, length, areGood⟩ := ih rfl fun later member => each later (List.mem_cons_of_mem _ member)
    refine ⟨value :: values, ?_, by simpa [length] using sized, List.forall_mem_cons.mpr ⟨isGood, areGood⟩⟩
    rw [List.mapM_cons, computed, rest]
    rfl

theorem foldlM_ok {step : β → α → Except ε β} {items : List α}
    (each : ∀ item ∈ items, ∀ state, ∃ next, step state item = .ok next) (start : β) :
    ∃ final, items.foldlM step start = .ok final := by
  induction items generalizing start with
  | nil => exact ⟨start, rfl⟩
  | cons item items ih =>
    obtain ⟨next, stepped⟩ := each item List.mem_cons_self start
    obtain ⟨final, rest⟩ := ih (fun later member => each later (List.mem_cons_of_mem _ member)) next
    refine ⟨final, ?_⟩
    rw [List.foldlM_cons, stepped]
    exact rest

end Fallible

def InUnit (value : ℚ) : Prop := -1 ≤ value ∧ value ≤ 1

theorem coerceInUnit_inUnit (value : ℚ) : InUnit (coerceInUnit value) :=
  ⟨le_max_left _ _, max_le (by norm_num) (min_le_right _ _)⟩

theorem between_inUnit {a b frac : ℚ} (unitA : InUnit a) (unitB : InUnit b) (nonneg : 0 ≤ frac) (small : frac ≤ 1) :
    InUnit (a + (b - a) * frac) := by
  have mix : a + (b - a) * frac = a * (1 - frac) + b * frac := by ring
  have rest : 0 ≤ 1 - frac := sub_nonneg.mpr small
  rw [mix]
  constructor
  · have lowA := mul_le_mul_of_nonneg_right unitA.1 rest
    have lowB := mul_le_mul_of_nonneg_right unitB.1 nonneg
    linarith
  · have highA := mul_le_mul_of_nonneg_right unitA.2 rest
    have highB := mul_le_mul_of_nonneg_right unitB.2 nonneg
    linarith

def monoFrames (wave : DecodedPcm) : ℕ :=
  if wave.channels ≤ 1 then wave.pcm16.length else ((wave.pcm16.length : ℤ) / wave.channels).toNat

def resampledLength (frames : ℕ) (rate : ℤ) : ℕ :=
  if 0 < frames ∧ 0 < rate ∧ rate ≠ 16000 then max 1 ⌊toDouble (frames * toDouble (16000 / rate))⌋.toNat else frames

/-- The length in exact arithmetic, or one sample less where the quotient comes out even. -/
def NearQuotient (frames : ℕ) (rate : ℤ) (length : ℕ) : Prop :=
  if 0 < frames ∧ 0 < rate ∧ rate ≠ 16000 then
    length = max 1 (frames * 16000 / rate.toNat) ∨
      rate.toNat ∣ frames * 16000 ∧ length = max 1 (frames * 16000 / rate.toNat - 1)
  else length = frames

theorem frame_inside {size frame c : ℕ} {channels : ℤ} (positive : 0 < channels)
    (inFrames : frame < ((size : ℤ) / channels).toNat) (inChannels : c < channels.toNat) :
    0 ≤ frame * channels + c ∧ frame * channels + c < size := by
  have whole : (frame : ℤ) + 1 ≤ size / channels := by omega
  have last : ((frame : ℤ) + 1) * channels ≤ size :=
    (mul_le_mul_of_nonneg_right whole positive.le).trans (Int.ediv_mul_le _ positive.ne')
  have first : 0 ≤ (frame : ℤ) * channels := mul_nonneg (by omega) positive.le
  rw [add_mul, one_mul] at last
  omega

theorem pcm16ToMonoFloat_ok (wave : DecodedPcm) :
    ∃ mono, pcm16ToMonoFloat wave.pcm16 wave.channels = .ok mono ∧ mono.length = monoFrames wave ∧
      ∀ sample ∈ mono, InUnit sample := by
  unfold pcm16ToMonoFloat monoFrames
  by_cases empty : wave.pcm16 = []
  · exact ⟨[], by simp [empty]⟩
  · rw [if_neg (by simpa using empty)]
    by_cases single : wave.channels ≤ 1
    · rw [if_pos single, if_pos single]
      refine mapM_ok List.length_range fun idx inside => ?_
      rw [arrayGet_inside (List.mem_range.mp inside)]
      exact ⟨_, rfl, coerceInUnit_inUnit _⟩
    · rw [if_neg single, if_neg single]
      refine mapM_ok List.length_range fun frame inFrames => ?_
      refine bind_computes (foldlM_ok (fun c inChannels sum => ?_) 0) fun sum => ⟨_, rfl, coerceInUnit_inUnit _⟩
      obtain ⟨low, high⟩ := frame_inside (by omega) (List.mem_range.mp inFrames) (List.mem_range.mp inChannels)
      obtain ⟨sample, -, read⟩ := arrayGet_int low high
      rw [read]
      exact ⟨_, rfl⟩

theorem doubleToInt_of_int {n : ℤ} (low : -2 ^ 31 ≤ n) (high : n < 2 ^ 31) : doubleToInt n = n := by
  rw [doubleToInt, Int.ceil_intCast, Int.floor_intCast, ite_self]
  omega

theorem doubleToInt_of_nonneg {value : ℚ} (nonneg : 0 ≤ value) (high : ⌊value⌋ < 2 ^ 31) : doubleToInt value = ⌊value⌋ := by
  have low : 0 ≤ ⌊value⌋ := Int.floor_nonneg.mpr nonneg
  rw [doubleToInt, if_neg nonneg.not_gt]
  omega

theorem toDouble_nonneg {value : ℚ} (nonneg : 0 ≤ value) : 0 ≤ toDouble value := Rounding.roundTo_nonneg 53 nonneg

theorem toDouble_le {value : ℚ} (nonneg : 0 ≤ value) : toDouble value ≤ value * (1 + 1 / 2 ^ 53) :=
  Rounding.roundTo_le_mul 53 nonneg

theorem le_toDouble {value : ℚ} (nonneg : 0 ≤ value) : value * (1 - 1 / 2 ^ 53) ≤ toDouble value :=
  Rounding.mul_le_roundTo 53 nonneg

theorem toFloat_toDouble_unit {value : ℚ} (nonneg : 0 ≤ value) (small : value ≤ 1) :
    0 ≤ toFloat (toDouble value) ∧ toFloat (toDouble value) ≤ 1 := by
  have doubled : toDouble value ≤ 2 ^ (0 : ℤ) := Rounding.roundTo_le_zpow (by decide) nonneg (by simpa using small)
  have positive := toDouble_nonneg nonneg
  have floated : toFloat (toDouble value) ≤ 2 ^ (0 : ℤ) := Rounding.roundTo_le_zpow (by decide) positive doubled
  exact ⟨Rounding.roundTo_nonneg 24 positive, by simpa using floated⟩

section Length

variable {frames rate : ℕ}

theorem resampled_close (sized : frames < 2 ^ 31) (positive : 0 < rate) :
    frames * 16000 - 1 < toDouble (frames * toDouble (16000 / rate)) * rate ∧
      toDouble (frames * toDouble (16000 / rate)) * rate < frames * 16000 + 1 := by
  have ratePos : (0 : ℚ) < rate := Nat.cast_pos.mpr positive
  have small : (frames : ℚ) < 2 ^ 31 := by exact_mod_cast sized
  have filled : (0 : ℚ) ≤ frames := Nat.cast_nonneg _
  have ratioNonneg : (0 : ℚ) ≤ 16000 / rate := by positivity
  have sizeNonneg : 0 ≤ frames * toDouble (16000 / rate) := mul_nonneg filled (toDouble_nonneg ratioNonneg)
  have ratioHigh := mul_le_mul_of_nonneg_left (toDouble_le ratioNonneg) filled
  have ratioLow := mul_le_mul_of_nonneg_left (le_toDouble ratioNonneg) filled
  have high := toDouble_le sizeNonneg
  have low := le_toDouble sizeNonneg
  generalize toDouble (frames * toDouble (16000 / rate)) = length at high low ⊢
  generalize frames * toDouble (16000 / rate) = size at sizeNonneg ratioHigh ratioLow high low
  have whole (factor : ℚ) : frames * (16000 / rate * factor) = frames * 16000 / rate * factor := by ring
  rw [whole] at ratioHigh ratioLow
  have product : (frames : ℚ) * 16000 / rate * rate = frames * 16000 := div_mul_cancel₀ _ ratePos.ne'
  generalize (frames : ℚ) * 16000 / rate = quotient at ratioHigh ratioLow product ⊢
  have scaledHigh := mul_le_mul_of_nonneg_right ratioHigh ratePos.le
  have scaledLow := mul_le_mul_of_nonneg_right ratioLow ratePos.le
  have doubleHigh := mul_le_mul_of_nonneg_right high ratePos.le
  have doubleLow := mul_le_mul_of_nonneg_right low ratePos.le
  constructor <;> linarith

theorem floor_of_close {length : ℚ} (positive : 0 < rate) (low : frames * 16000 - 1 < length * rate)
    (high : length * rate < frames * 16000 + 1) :
    ⌊length⌋ = (frames * 16000 / rate : ℕ) ∨ rate ∣ frames * 16000 ∧ ⌊length⌋ = (frames * 16000 / rate : ℕ) - 1 := by
  have atLeastOne : (1 : ℚ) ≤ rate := by exact_mod_cast positive
  have division : ((rate * (frames * 16000 / rate) + frames * 16000 % rate : ℕ) : ℚ) = (frames * 16000 : ℕ) :=
    congrArg _ (Nat.div_add_mod _ _)
  have remainder : ((frames * 16000 % rate : ℕ) : ℚ) + 1 ≤ rate := by exact_mod_cast Nat.mod_lt (frames * 16000) positive
  rw [Nat.dvd_iff_mod_eq_zero]
  generalize frames * 16000 % rate = rest at division remainder ⊢
  generalize frames * 16000 / rate = quotient at division ⊢
  push_cast at division
  have upper : ⌊length⌋ < (quotient : ℤ) + 1 := by
    rw [Int.floor_lt]
    push_cast
    by_contra above
    nlinarith
  rcases Nat.eq_zero_or_pos rest with rfl | some
  · have lower : (quotient : ℤ) - 1 ≤ ⌊length⌋ := by
      rw [Int.le_floor]
      push_cast at division ⊢
      by_contra below
      nlinarith
    omega
  · have someRest : (1 : ℚ) ≤ rest := by exact_mod_cast some
    have lower : (quotient : ℤ) ≤ ⌊length⌋ := by
      rw [Int.le_floor]
      push_cast
      by_contra below
      nlinarith
    omega

/-- The length in `Double` arithmetic is the exact one, or one less where the quotient comes out even. -/
theorem resampledLength_near (sized : frames < 2 ^ 31) (rate : ℤ) :
    NearQuotient frames rate (resampledLength frames rate) := by
  unfold NearQuotient resampledLength
  split
  case isFalse same => rfl
  case isTrue other =>
    obtain ⟨rate, rfl⟩ := Int.eq_ofNat_of_zero_le other.2.1.le
    have positive : 0 < rate := by omega
    obtain ⟨low, high⟩ := resampled_close sized positive
    rw [Int.toNat_natCast, Int.cast_natCast]
    rcases floor_of_close positive low high with exact | ⟨even, less⟩
    · exact .inl (by rw [exact, Int.toNat_natCast])
    · exact .inr ⟨even, by omega⟩

end Length

/-- A position in the output lies over the input, whether the ratio is above or below one: the roundings move it by less
    than the step of one sample. -/
theorem position_inside {ratio : ℚ} {size i : ℕ} (positive : 0 < ratio) (bounded : ratio ≤ 16001) (filled : 0 < size)
    (sized : size < 2 ^ 31) (inOutput : (i : ℤ) < max 1 ⌊toDouble (size * ratio)⌋) :
    0 ≤ toDouble (i / ratio) ∧ toDouble (i / ratio) < size := by
  have nonneg : (0 : ℚ) ≤ i / ratio := div_nonneg (Nat.cast_nonneg i) positive.le
  refine ⟨toDouble_nonneg nonneg, (toDouble_le nonneg).trans_lt ?_⟩
  rcases lt_max_iff.mp inOutput with first | below
  · have zero : i = 0 := by omega
    rw [zero, Nat.cast_zero, zero_div, zero_mul]
    exact Nat.cast_pos.mpr filled
  · have next : ((i : ℤ) : ℚ) + 1 ≤ toDouble (size * ratio) := by exact_mod_cast Int.le_floor.mp (Int.add_one_le_of_lt below)
    have rounded := next.trans (toDouble_le (mul_nonneg (Nat.cast_nonneg size) positive.le))
    have step : 1 / 16001 ≤ 1 / ratio := one_div_le_one_div_of_le positive bounded
    have divided : i / ratio + 1 / ratio ≤ size * (1 + 1 / 2 ^ 53) := by
      rw [← add_div, div_le_iff₀ positive]
      calc (i : ℚ) + 1 ≤ size * ratio * (1 + 1 / 2 ^ 53) := by exact_mod_cast rounded
        _ = size * (1 + 1 / 2 ^ 53) * ratio := by ring
    have small : (size : ℚ) < 2 ^ 31 := by exact_mod_cast sized
    linarith

theorem resampleLinear_ok {input : List ℚ} {rate : ℤ} (sized : input.length < 2 ^ 31)
    (fits : resampledLength input.length rate < 2 ^ 31) (unit : ∀ sample ∈ input, InUnit sample) :
    ∃ output, resampleLinear input rate 16000 = .ok output ∧ output.length = resampledLength input.length rate ∧
      ∀ sample ∈ output, InUnit sample := by
  unfold resampleLinear
  by_cases filled : 0 < input.length
  · have nonempty : ¬ input.isEmpty := by simpa [List.isEmpty_iff] using List.ne_nil_of_length_pos filled
    rw [if_neg nonempty]
    by_cases same : rate ≤ 0 ∨ rate = 16000
    · rw [if_pos same]
      refine ⟨input, rfl, ?_, unit⟩
      rw [resampledLength, if_neg (by omega)]
    · rw [if_neg same]
      obtain ⟨rate, rfl⟩ := Int.eq_ofNat_of_zero_le (by omega : 0 ≤ rate)
      have ratePos : (1 : ℚ) ≤ (rate : ℤ) := by exact_mod_cast (by omega : 1 ≤ rate)
      have ratioLow : (0 : ℚ) ≤ (16000 : ℤ) / (rate : ℤ) := div_nonneg (by norm_num) (by linarith)
      have ratioHigh : ((16000 : ℤ) : ℚ) / (rate : ℤ) ≤ 16000 := by
        rw [div_le_iff₀ (by linarith)]
        push_cast at ratePos ⊢
        linarith
      have ratioPos : 0 < toDouble ((16000 : ℤ) / (rate : ℤ)) := by
        have divided : (0 : ℚ) < (16000 : ℤ) / (rate : ℤ) := div_pos (by norm_num) (by linarith)
        have lower := le_toDouble ratioLow
        linarith
      have ratioBound : toDouble ((16000 : ℤ) / (rate : ℤ)) ≤ 16001 := by
        have upper := toDouble_le ratioLow
        linarith
      have resampled : resampledLength input.length rate =
          max 1 ⌊toDouble (input.length * toDouble ((16000 : ℤ) / (rate : ℤ)))⌋.toNat := by
        rw [resampledLength, if_pos (by omega), Int.cast_ofNat]
      rw [resampled] at fits ⊢
      generalize toDouble ((16000 : ℤ) / (rate : ℤ)) = ratio at ratioPos ratioBound fits ⊢
      have outputSize : doubleToInt (toDouble (input.length * ratio)) = ⌊toDouble (input.length * ratio)⌋ :=
        doubleToInt_of_nonneg (toDouble_nonneg (mul_nonneg (Nat.cast_nonneg _) ratioPos.le)) (by omega)
      refine mapM_ok (by rw [List.length_range, outputSize]; omega) fun i inOutput => ?_
      have inside : (i : ℤ) < max 1 ⌊toDouble (input.length * ratio)⌋ := by
        rw [List.mem_range, outputSize] at inOutput
        omega
      obtain ⟨first, last⟩ := position_inside ratioPos ratioBound filled sized inside
      generalize toDouble (i / ratio) = srcPos at first last
      have left : 0 ≤ ⌊srcPos⌋ := Int.floor_nonneg.mpr first
      have below : ⌊srcPos⌋ < input.length := Int.floor_lt.mpr last
      have exact : doubleToInt (⌊srcPos⌋ : ℤ) = ⌊srcPos⌋ := doubleToInt_of_int (by omega) (by omega)
      obtain ⟨leftValue, leftMember, leftRead⟩ := arrayGet_int left below
      have rightLow : 0 ≤ min (⌊srcPos⌋ + 1) ((input.length : ℤ) - 1) := by omega
      have rightHigh : min (⌊srcPos⌋ + 1) ((input.length : ℤ) - 1) < input.length := by omega
      obtain ⟨rightValue, rightMember, rightRead⟩ := arrayGet_int rightLow rightHigh
      simp only [exact, leftRead, rightRead]
      obtain ⟨fracLow, fracHigh⟩ :=
        toFloat_toDouble_unit (Int.fract_nonneg srcPos) (Int.fract_lt_one srcPos).le
      exact ⟨_, rfl, between_inUnit (unit _ leftMember) (unit _ rightMember) fracLow fracHigh⟩
  · have empty : input = [] := List.eq_nil_of_length_eq_zero (by omega)
    exact ⟨[], by simp [empty], by simp [empty, resampledLength], by simp⟩

theorem monoFrames_le (wave : DecodedPcm) : monoFrames wave ≤ wave.pcm16.length := by
  unfold monoFrames
  split
  · exact le_rfl
  · have quotient : (wave.pcm16.length : ℤ) / wave.channels ≤ wave.pcm16.length :=
      Int.ediv_le_self _ (Int.natCast_nonneg _)
    omega

/-- No array access of the decoding fails, whatever channel count and rate the header names. -/
theorem decodeWaveToFloatArray_safe (bytes : List Int8) (pathForError : KString) (sized : bytes.length < 2 ^ 31)
    (long : 44 < bytes.length) (riff : asciiText (bytes.take 4) = txt "RIFF")
    (sixteen : ∃ bitsPerSample, littleEndianShort bytes 34 = .ok bitsPerSample ∧ bitsPerSample.toInt = 16)
    (fits : ∀ wave, readWave bytes pathForError = .ok wave →
      resampledLength (monoFrames wave) wave.sampleRate < 2 ^ 31) :
    ∃ wave mono output, readWave bytes pathForError = .ok wave ∧
      pcm16ToMonoFloat wave.pcm16 wave.channels = .ok mono ∧ mono.length = monoFrames wave ∧
      decodeWaveToFloatArray bytes pathForError = .ok output ∧
      output.length = resampledLength (monoFrames wave) wave.sampleRate ∧
      NearQuotient (monoFrames wave) wave.sampleRate output.length ∧ ∀ sample ∈ output, InUnit sample := by
  obtain ⟨channels, readChannels⟩ := littleEndianShort_inside (by omega : 22 + 1 < bytes.length)
  obtain ⟨rate, readRate⟩ := littleEndianInt_inside (by omega : 24 + 3 < bytes.length)
  have read : readWave bytes pathForError = .ok ⟨samplesOf (bytes.drop 44), rate.toInt, max channels.toInt 1⟩ :=
    (readWave_ok_iff _ _ _).mpr
      ⟨long, riff, sixteen, rfl, ⟨channels, readChannels, rfl⟩, ⟨rate, readRate, rfl⟩⟩
  have small := fits _ read
  generalize waveIs : (⟨samplesOf (bytes.drop 44), rate.toInt, max channels.toInt 1⟩ : DecodedPcm) = wave at read small
  have size : wave.pcm16.length = (bytes.length - 44) / 2 := by
    rw [← waveIs, samplesOf_length, List.length_drop]
  obtain ⟨mono, mixed, frames, monoUnit⟩ := pcm16ToMonoFloat_ok wave
  have monoSized : mono.length < 2 ^ 31 := by
    have bound := monoFrames_le wave
    omega
  rw [← frames] at small
  obtain ⟨output, resampled, length, unit⟩ := resampleLinear_ok monoSized small monoUnit
  have near := resampledLength_near monoSized wave.sampleRate
  rw [← length, frames] at near
  refine ⟨wave, mono, output, read, mixed, frames, ?_, frames ▸ length, near, unit⟩
  rw [decodeWaveToFloatArray, read]
  simp only [bind, Except.bind, mixed]
  exact resampled

def stereo : WaveFile where
  channels := 2
  sampleRate := 8000
  byteRate := 32000
  blockAlign := 4
  extension := []
  samples := [1000, -1000, -32768, -32768, 32767, 5, 7]
  beforeFormat := []
  beforeData := []
  afterData := []
  channels_pos := by decide
  sampleRate_pos := by decide
  samples_filled := by decide
  others := by simp

theorem decodeWaveToFloatArray_safe_stereo :
    ∃ wave mono output, readWave stereo.bytes [] = .ok wave ∧
      pcm16ToMonoFloat wave.pcm16 wave.channels = .ok mono ∧ mono.length = monoFrames wave ∧
      decodeWaveToFloatArray stereo.bytes [] = .ok output ∧
      output.length = resampledLength (monoFrames wave) wave.sampleRate ∧
      NearQuotient (monoFrames wave) wave.sampleRate output.length ∧ ∀ sample ∈ output, InUnit sample := by
  have plain : stereo.Plain := ⟨rfl, rfl, rfl, rfl⟩
  obtain ⟨long, riff, sixteen, -⟩ := (readWave_ok_iff _ _ _).mp (plain.read [])
  refine decodeWaveToFloatArray_safe stereo.bytes [] ?_ long riff sixteen fun wave read => ?_
  · rw [WaveFile.bytes_length]
    decide
  · rw [plain.read] at read
    cases read
    decide +kernel

/-- 49 frames at 12250 Hz, where the exact quotient is 64 and the rounded one just below it. -/
def evenQuotient : WaveFile where
  channels := 1
  sampleRate := 12250
  byteRate := 24500
  blockAlign := 2
  extension := []
  samples := List.replicate 49 100
  beforeFormat := []
  beforeData := []
  afterData := []
  channels_pos := Nat.one_pos
  sampleRate_pos := by decide
  samples_filled := List.cons_ne_nil 100 (List.replicate 48 100)
  others := by simp

theorem decodeWaveToFloatArray_one_less :
    ∃ wave output, readWave evenQuotient.bytes [] = .ok wave ∧ monoFrames wave = 49 ∧ wave.sampleRate = 12250 ∧
      decodeWaveToFloatArray evenQuotient.bytes [] = .ok output ∧ output.length = 63 ∧
      max 1 (49 * 16000 / 12250) = 64 := by
  have plain : evenQuotient.Plain := ⟨rfl, rfl, rfl, rfl⟩
  obtain ⟨wave, read, frames, rate⟩ : ∃ wave, readWave evenQuotient.bytes [] = .ok wave ∧ monoFrames wave = 49 ∧
      wave.sampleRate = 12250 := ⟨_, plain.read [], by decide +kernel, by decide +kernel⟩
  have less : resampledLength 49 12250 = 63 := by decide +kernel
  obtain ⟨mono, mixed, length, unit⟩ := pcm16ToMonoFloat_ok wave
  rw [frames] at length
  have fits : resampledLength mono.length wave.sampleRate = 63 := by rw [length, rate, less]
  have small : resampledLength mono.length wave.sampleRate < 2 ^ 31 := by omega
  obtain ⟨output, resampled, short, -⟩ := resampleLinear_ok (by omega) small unit
  refine ⟨wave, output, read, frames, rate, ?_, short.trans fits, by decide⟩
  rw [decodeWaveToFloatArray, read]
  simp only [bind, Except.bind, mixed]
  exact resampled

end Transcription
