import Mathlib.Algebra.Order.Floor.Ring
import Mathlib.Algebra.Order.Field.Rat
import Mathlib.Data.Rat.Floor
import Mathlib.Tactic.IntervalCases
import TranscriptForm.Library.Rounding
import TranscriptForm.Transcription.OnDeviceWhisper

namespace Transcription

open Kotlin Form

def arrayGet {α : Type} (array : List α) (index : ℤ) : Except Throwable α :=
  match if index < 0 then none else array[index.toNat]? with
  | some value => .ok value
  | none => .error ⟨some (txt "length=" ++ txt (toString array.length) ++ txt "; index=" ++ txt (toString index))⟩

def arraySet {α : Type} (array : List α) (index : ℕ) (value : α) : Except Throwable (List α) :=
  (arrayGet array index).map fun _ => array.set index value

def copyOf (array : List Int16) (newSize : ℕ) : List Int16 :=
  array.take newSize ++ List.replicate (newSize - array.length) 0

/-- `String(bytes, Charsets.US_ASCII)` -/
def asciiText (bytes : List Int8) : KString :=
  bytes.map fun byte => if byte < 0 then 0xFFFD else byte.toUInt8.toUInt16

/-- `toInt() and 0xFF` -/
def unsigned (byte : Int8) : Int32 := byte.toInt32 &&& 0xFF

def littleEndianShort (bytes : List Int8) (offset : ℕ) : Except Throwable Int16 := do
  let lo := unsigned (← arrayGet bytes offset)
  let hi := (← arrayGet bytes (offset + 1 : ℕ)).toInt32 <<< 8
  return (hi ||| lo).toInt16

def littleEndianInt (bytes : List Int8) (offset : ℕ) : Except Throwable Int32 := do
  let b0 := unsigned (← arrayGet bytes offset)
  let b1 := unsigned (← arrayGet bytes (offset + 1 : ℕ)) <<< 8
  let b2 := unsigned (← arrayGet bytes (offset + 2 : ℕ)) <<< 16
  let b3 := unsigned (← arrayGet bytes (offset + 3 : ℕ)) <<< 24
  return b0 ||| b1 ||| b2 ||| b3

theorem arrayGet_inside {α : Type} {array : List α} {i : ℕ} (inside : i < array.length) :
    arrayGet array i = .ok array[i] := by
  have found : (if (i : ℤ) < 0 then none else array[(i : ℤ).toNat]?) = some array[i] := by simp [inside]
  rw [arrayGet, found]

theorem arrayGet_int {α : Type} {array : List α} {i : ℤ} (positive : 0 ≤ i) (inside : i < array.length) :
    ∃ value ∈ array, arrayGet array i = .ok value := by
  obtain ⟨i, rfl⟩ := Int.eq_ofNat_of_zero_le positive
  have bound : i < array.length := by exact_mod_cast inside
  exact ⟨array[i], List.getElem_mem bound, arrayGet_inside bound⟩

theorem arrayGet_append {α : Type} (front : List α) (value : α) (back : List α) :
    arrayGet (front ++ value :: back) front.length = .ok value := by
  rw [arrayGet_inside (by simp)]
  simp

theorem arraySet_append {α : Type} (front : List α) (old value : α) (back : List α) :
    arraySet (front ++ old :: back) front.length value = .ok (front ++ value :: back) := by
  rw [arraySet, arrayGet_append]
  simp [Except.map]

theorem littleEndianShort_append (front : List Int8) (lo hi : Int8) (back : List Int8) :
    littleEndianShort (front ++ lo :: hi :: back) front.length = .ok (hi.toInt32 <<< 8 ||| unsigned lo).toInt16 := by
  have second := arrayGet_append (front ++ [lo]) hi back
  rw [List.append_assoc, List.length_append, List.singleton_append] at second
  unfold littleEndianShort
  rw [arrayGet_append]
  simp only [List.length_singleton] at second
  simp only [bind, Except.bind, second]
  rfl

theorem littleEndianInt_append (front : List Int8) (a b c d : Int8) (back : List Int8) :
    littleEndianInt (front ++ a :: b :: c :: d :: back) front.length =
      .ok (unsigned a ||| unsigned b <<< 8 ||| unsigned c <<< 16 ||| unsigned d <<< 24) := by
  have second := arrayGet_append (front ++ [a]) b (c :: d :: back)
  have third := arrayGet_append (front ++ [a, b]) c (d :: back)
  have fourth := arrayGet_append (front ++ [a, b, c]) d back
  simp only [List.append_assoc, List.cons_append, List.nil_append, List.length_append, List.length_cons,
    List.length_nil] at second third fourth
  unfold littleEndianInt
  rw [arrayGet_append]
  simp only [bind, Except.bind, second, third, fourth]
  rfl

theorem littleEndianShort_inside {bytes : List Int8} {offset : ℕ} (inside : offset + 1 < bytes.length) :
    ∃ value, littleEndianShort bytes offset = .ok value := by
  unfold littleEndianShort
  rw [arrayGet_inside (Nat.lt_of_succ_lt inside), arrayGet_inside inside]
  exact ⟨_, rfl⟩

theorem littleEndianInt_inside {bytes : List Int8} {offset : ℕ} (inside : offset + 3 < bytes.length) :
    ∃ value, littleEndianInt bytes offset = .ok value := by
  unfold littleEndianInt
  rw [arrayGet_inside (by omega : offset < bytes.length), arrayGet_inside (by omega : offset + 1 < bytes.length),
    arrayGet_inside (by omega : offset + 2 < bytes.length), arrayGet_inside inside]
  exact ⟨_, rfl⟩

def samplesOf : List Int8 → List Int16
  | lo :: hi :: rest => (hi.toInt32 <<< 8 ||| unsigned lo).toInt16 :: samplesOf rest
  | _ => []

theorem samplesOf_length (bytes : List Int8) : (samplesOf bytes).length = bytes.length / 2 := by
  induction bytes using samplesOf.induct with
  | case1 lo hi rest ih =>
    simp only [samplesOf, List.length_cons, ih]
    omega
  | case2 bytes short =>
    match bytes with
    | [] => simp [samplesOf]
    | [_] => simp [samplesOf]
    | lo :: hi :: rest => exact absurd rfl (short lo hi rest)

structure DecodedPcm where
  pcm16 : List Int16
  sampleRate : ℤ
  channels : ℤ
  deriving DecidableEq

/-- The loop that reads the samples, with `src` and `i`. -/
def fillPcm (bytes : List Int8) (totalSamples : ℕ) (pcm : List Int16) (src i : ℕ) :
    Except Throwable (List Int16 × ℕ) :=
  if src + 1 < bytes.length ∧ i < totalSamples then
    match littleEndianShort bytes src with
    | .error thrown => .error thrown
    | .ok sample =>
      match arraySet pcm i sample with
      | .error thrown => .error thrown
      | .ok pcm => fillPcm bytes totalSamples pcm (src + 2) (i + 1)
  else .ok (pcm, i)
termination_by totalSamples - i

theorem fillPcm_reads (front rest : List Int8) (read slots : List Int16)
    (room : slots.length = (samplesOf rest).length) :
    fillPcm (front ++ rest) (read.length + slots.length) (read ++ slots) front.length read.length =
      .ok (read ++ samplesOf rest, read.length + slots.length) := by
  induction rest using samplesOf.induct generalizing front read slots with
  | case1 lo hi rest ih =>
    cases slots with
    | nil => cases room
    | cons slot slots =>
      have later := ih (front ++ [lo, hi]) (read ++ [(hi.toInt32 <<< 8 ||| unsigned lo).toInt16]) slots
        (Nat.succ.inj room)
      simp only [List.append_assoc, List.cons_append, List.nil_append, List.length_append, List.length_cons,
        List.length_nil] at later
      have total : read.length + (slots.length + 1) = read.length + (0 + 1) + slots.length := by omega
      have more : front.length + 1 < (front ++ lo :: hi :: rest).length ∧ read.length < read.length + (slots.length + 1) := by
        simp
      unfold fillPcm
      rw [List.length_cons, if_pos more, littleEndianShort_append]
      dsimp only
      rw [arraySet_append]
      dsimp only
      rw [total, samplesOf]
      exact later
  | case2 rest short =>
    have few : rest.length < 2 := by
      match rest with
      | [] => exact Nat.two_pos
      | [_] => exact Nat.one_lt_two
      | lo :: hi :: rest => exact absurd rfl (short lo hi rest)
    have none : samplesOf rest = [] := by
      rw [← List.length_eq_zero_iff, samplesOf_length]
      omega
    have full : slots = [] := by
      rw [none] at room
      exact List.length_eq_zero_iff.mp room
    unfold fillPcm
    rw [if_neg (by rw [List.length_append]; omega), none, full]
    rfl

def dataStart : ℕ := 44

/-- What `decodeWaveToFloatArray` takes from the file. -/
def readWave (bytes : List Int8) (pathForError : KString) : Except Throwable DecodedPcm := do
  require (44 < bytes.length) (txt "Ungueltige WAV-Datei: " ++ pathForError)
  require (asciiText (bytes.take 4) = txt "RIFF") (txt "Nur WAV/RIFF wird fuer On-Device-Transkription unterstuetzt")
  let channels := max (← littleEndianShort bytes 22).toInt 1
  let bitsPerSample := (← littleEndianShort bytes 34).toInt
  let sampleRate ← littleEndianInt bytes 24
  require (bitsPerSample = 16)
    (txt "Erwartet PCM16 WAV, erhalten: " ++ txt (toString bitsPerSample) ++ txt " bit")
  let totalSamples := (bytes.length - dataStart) / 2
  let (pcm, i) ← fillPcm bytes totalSamples (List.replicate totalSamples 0) dataStart 0
  return { pcm16 := copyOf pcm i, sampleRate := sampleRate.toInt, channels := channels }

theorem fillPcm_all {bytes : List Int8} (long : dataStart < bytes.length) :
    fillPcm bytes ((bytes.length - dataStart) / 2) (List.replicate ((bytes.length - dataStart) / 2) 0) dataStart 0 =
      .ok (samplesOf (bytes.drop dataStart), (bytes.length - dataStart) / 2) := by
  have front : (bytes.take dataStart).length = dataStart := by
    rw [List.length_take]
    omega
  have room : (List.replicate ((bytes.length - dataStart) / 2) (0 : Int16)).length =
      (samplesOf (bytes.drop dataStart)).length := by
    rw [List.length_replicate, samplesOf_length, List.length_drop]
  have reads := fillPcm_reads (bytes.take dataStart) (bytes.drop dataStart) [] _ room
  rw [List.take_append_drop, front, List.length_replicate] at reads
  simpa using reads

theorem copyOf_all {array : List Int16} {size : ℕ} (whole : array.length = size) : copyOf array size = array := by
  rw [copyOf, whole, Nat.sub_self, List.replicate_zero, List.append_nil, ← whole, List.take_length]

theorem readWave_ok_iff (bytes : List Int8) (pathForError : KString) (wave : DecodedPcm) :
    readWave bytes pathForError = .ok wave ↔
      44 < bytes.length ∧ asciiText (bytes.take 4) = txt "RIFF" ∧
        (∃ bitsPerSample, littleEndianShort bytes 34 = .ok bitsPerSample ∧ bitsPerSample.toInt = 16) ∧
        wave.pcm16 = samplesOf (bytes.drop 44) ∧
        (∃ channels, littleEndianShort bytes 22 = .ok channels ∧ wave.channels = max channels.toInt 1) ∧
        ∃ sampleRate, littleEndianInt bytes 24 = .ok sampleRate ∧ wave.sampleRate = sampleRate.toInt := by
  unfold readWave require
  by_cases long : 44 < bytes.length
  · by_cases riff : asciiText (bytes.take 4) = txt "RIFF"
    · obtain ⟨channels, readChannels⟩ := littleEndianShort_inside (by omega : 22 + 1 < bytes.length)
      obtain ⟨bits, readBits⟩ := littleEndianShort_inside (by omega : 34 + 1 < bytes.length)
      obtain ⟨rate, readRate⟩ := littleEndianInt_inside (by omega : 24 + 3 < bytes.length)
      have filled := fillPcm_all long
      have kept : copyOf (samplesOf (bytes.drop dataStart)) ((bytes.length - dataStart) / 2) =
          samplesOf (bytes.drop dataStart) := by
        apply copyOf_all
        rw [samplesOf_length, List.length_drop]
      obtain ⟨pcm16, sampleRate, channelCount⟩ := wave
      by_cases sixteen : bits.toInt = 16
      · simp only [long, riff, readChannels, readBits, readRate, sixteen, filled, kept, decide_true, if_true, bind,
          Except.bind, pure, Except.pure, Except.ok.injEq, DecodedPcm.mk.injEq, true_and, exists_eq_left',
          eq_comm (b := pcm16), eq_comm (b := sampleRate), eq_comm (b := channelCount)]
        rw [and_comm (b := channelCount = _)]
        rfl
      · simp [long, riff, readChannels, readBits, readRate, sixteen, bind, Except.bind]
    · simp [long, riff, bind, Except.bind]
  · simp [long, bind, Except.bind]

/-- `coerceIn(-1.0f, 1.0f)` -/
def coerceInUnit (value : ℚ) : ℚ := max (-1) (min value 1)

/-- A result of `Double` arithmetic. No exponent of the resampling leaves its range. -/
def toDouble (value : ℚ) : ℚ := Rounding.roundTo 53 value

def toFloat (value : ℚ) : ℚ := Rounding.roundTo 24 value

def doubleToInt (value : ℚ) : ℤ :=
  max (-2 ^ 31) (min (2 ^ 31 - 1) (if value < 0 then ⌈value⌉ else ⌊value⌋))

def pcm16ToMonoFloat (pcm16 : List Int16) (channels : ℤ) : Except Throwable (List ℚ) :=
  if pcm16.isEmpty then .ok []
  else if channels ≤ 1 then
    (List.range pcm16.length).mapM fun (idx : ℕ) => do
      let sample ← arrayGet pcm16 idx
      return coerceInUnit (sample.toInt / 32767)
  else
    let monoCount := (pcm16.length : ℤ) / channels
    (List.range monoCount.toNat).mapM fun (frame : ℕ) => do
      let sum ← (List.range channels.toNat).foldlM (fun sum (c : ℕ) => do
        let sample ← arrayGet pcm16 (frame * channels + c)
        return sum + (sample.toInt / 32767 : ℚ)) 0
      return coerceInUnit (sum / channels)

def resampleLinear (input : List ℚ) (inputRate targetRate : ℤ) : Except Throwable (List ℚ) :=
  if input.isEmpty then .ok input
  else if inputRate ≤ 0 ∨ inputRate = targetRate then .ok input
  else
    let ratio := toDouble (targetRate / inputRate)
    let outputSize := max 1 (doubleToInt (toDouble (input.length * ratio)))
    let lastIndex := (input.length : ℤ) - 1
    (List.range outputSize.toNat).mapM fun (i : ℕ) => do
      let srcPos := toDouble (i / ratio)
      let left := doubleToInt ⌊srcPos⌋
      let right := min (left + 1) lastIndex
      let frac := toFloat (toDouble (srcPos - left))
      let leftValue ← arrayGet input left
      let rightValue ← arrayGet input right
      return leftValue + (rightValue - leftValue) * frac

def decodeWaveToFloatArray (bytes : List Int8) (pathForError : KString) : Except Throwable (List ℚ) := do
  let wave ← readWave bytes pathForError
  let mono ← pcm16ToMonoFloat wave.pcm16 wave.channels
  resampleLinear mono wave.sampleRate 16000

/-- The decoder, where Android's media codecs read whatever is no RIFF file. -/
def decodeAudioToMono16kFloatArray (decodeCompressedAudioToPcm : KString → Except Throwable DecodedPcm)
    (absolutePath : KString) (bytes : List Int8) : Except Throwable (List ℚ) :=
  if 12 < bytes.length && asciiText (bytes.take 4) = txt "RIFF" then decodeWaveToFloatArray bytes absolutePath
  else do
    let decoded ← decodeCompressedAudioToPcm absolutePath
    let mono ← pcm16ToMonoFloat decoded.pcm16 decoded.channels
    resampleLinear mono decoded.sampleRate 16000

end Transcription
