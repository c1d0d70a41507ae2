import TranscriptForm.Transcription.Wave

namespace Transcription

open Kotlin Form

def ascii (text : String) : List Int8 := text.toList.map fun c => Int8.ofNat c.toNat

def le16 (value : BitVec 16) : List Int8 :=
  [Int8.ofBitVec (value.extractLsb' 0 8), Int8.ofBitVec (value.extractLsb' 8 8)]

def le32 (value : BitVec 32) : List Int8 :=
  [Int8.ofBitVec (value.extractLsb' 0 8), Int8.ofBitVec (value.extractLsb' 8 8),
    Int8.ofBitVec (value.extractLsb' 16 8), Int8.ofBitVec (value.extractLsb' 24 8)]

theorem short_of_le16 (value : BitVec 16) :
    ((Int8.ofBitVec (value.extractLsb' 8 8)).toInt32 <<< 8 ||| unsigned (Int8.ofBitVec (value.extractLsb' 0 8))).toInt16 =
      Int16.ofBitVec value := by
  apply Int16.toBitVec_inj.mp
  ext i bound
  interval_cases i <;> simp [unsigned, BitVec.getElem_signExtend]

theorem int_of_le32 (value : BitVec 32) :
    unsigned (Int8.ofBitVec (value.extractLsb' 0 8)) ||| unsigned (Int8.ofBitVec (value.extractLsb' 8 8)) <<< 8 |||
        unsigned (Int8.ofBitVec (value.extractLsb' 16 8)) <<< 16 |||
        unsigned (Int8.ofBitVec (value.extractLsb' 24 8)) <<< 24 = Int32.ofBitVec value := by
  apply Int32.toBitVec_inj.mp
  ext i bound
  interval_cases i <;> simp [unsigned, BitVec.getElem_signExtend]

@[simp] theorem le16_length (value : BitVec 16) : (le16 value).length = 2 := rfl

@[simp] theorem le32_length (value : BitVec 32) : (le32 value).length = 4 := rfl

theorem littleEndianShort_le16 {front : List Int8} {offset : ℕ} (place : front.length = offset) (value : BitVec 16)
    (back : List Int8) : littleEndianShort (front ++ (le16 value ++ back)) offset = .ok (Int16.ofBitVec value) := by
  rw [← place, ← short_of_le16]
  exact littleEndianShort_append front _ _ back

theorem littleEndianInt_le32 {front : List Int8} {offset : ℕ} (place : front.length = offset) (value : BitVec 32)
    (back : List Int8) : littleEndianInt (front ++ (le32 value ++ back)) offset = .ok (Int32.ofBitVec value) := by
  rw [← place, ← int_of_le32]
  exact littleEndianInt_append front _ _ _ _ back

theorem samplesOf_le16 (samples : List Int16) : samplesOf (samples.flatMap fun sample => le16 sample.toBitVec) = samples := by
  induction samples with
  | nil => simp [samplesOf]
  | cons sample samples ih =>
    rw [List.flatMap_cons, le16, List.cons_append, List.cons_append, List.nil_append, samplesOf, ih, short_of_le16]
    rfl

/-- A chunk of a RIFF file. One of odd length is followed by a zero. -/
structure Chunk where
  id : List Int8
  body : List Int8
  id_length : id.length = 4

def Chunk.bytes (chunk : Chunk) : List Int8 :=
  chunk.id ++ le32 (.ofNat 32 chunk.body.length) ++ chunk.body ++ (if chunk.body.length % 2 = 1 then [0] else [])

theorem Chunk.bytes_length (chunk : Chunk) :
    chunk.bytes.length = 8 + chunk.body.length + chunk.body.length % 2 := by
  have pad : (if chunk.body.length % 2 = 1 then [(0 : Int8)] else []).length = chunk.body.length % 2 := by
    split
    · simp [*]
    · rw [List.length_nil]
      omega
  simp only [Chunk.bytes, List.length_append, chunk.id_length, pad, le32, List.length_cons, List.length_nil]

theorem chunks_length (chunks : List Chunk) : 8 * chunks.length ≤ (chunks.flatMap Chunk.bytes).length := by
  induction chunks with
  | nil => simp
  | cons chunk chunks ih =>
    rw [List.flatMap_cons, List.length_append, chunk.bytes_length, List.length_cons]
    omega

/-- A RIFF/WAVE file of 16-bit PCM samples, with the chunks a reader has to pass over. -/
structure WaveFile where
  channels : UInt16
  sampleRate : UInt32
  byteRate : UInt32
  blockAlign : UInt16
  /-- What an extended format chunk has after its first sixteen bytes. -/
  extension : List Int8
  samples : List Int16
  beforeFormat : List Chunk
  beforeData : List Chunk
  afterData : List Chunk
  channels_pos : 0 < channels.toNat
  sampleRate_pos : 0 < sampleRate.toNat
  samples_filled : samples ≠ []
  others : ∀ chunk ∈ beforeFormat ++ beforeData ++ afterData, chunk.id ≠ ascii "fmt " ∧ chunk.id ≠ ascii "data"

namespace WaveFile

variable (file : WaveFile)

def format : Chunk where
  id := ascii "fmt "
  body := le16 1 ++ le16 file.channels.toBitVec ++ le32 file.sampleRate.toBitVec ++ le32 file.byteRate.toBitVec ++
    le16 file.blockAlign.toBitVec ++ le16 16 ++ file.extension
  id_length := by decide

def data : Chunk where
  id := ascii "data"
  body := file.samples.flatMap fun sample => le16 sample.toBitVec
  id_length := by decide

def chunks : List Chunk :=
  file.beforeFormat ++ file.format :: (file.beforeData ++ file.data :: file.afterData)

def form : List Int8 := ascii "WAVE" ++ file.chunks.flatMap Chunk.bytes

def bytes : List Int8 := ascii "RIFF" ++ le32 (.ofNat 32 file.form.length) ++ file.form

def wave : DecodedPcm where
  pcm16 := file.samples
  sampleRate := file.sampleRate.toNat
  channels := file.channels.toNat

/-- A format chunk of sixteen bytes, the data right behind it, and nothing else. -/
structure Plain : Prop where
  extension : file.extension = []
  beforeFormat : file.beforeFormat = []
  beforeData : file.beforeData = []
  afterData : file.afterData = []

variable {file}

theorem data_length (file : WaveFile) : file.data.body.length = 2 * file.samples.length := by
  simp [data, le16, Nat.mul_comm]

theorem format_length (file : WaveFile) : file.format.body.length = 16 + file.extension.length := by
  simp only [format, le16, le32, List.length_append, List.length_cons, List.length_nil]

theorem chunks_bytes_length (file : WaveFile) : (file.chunks.flatMap Chunk.bytes).length =
    (file.beforeFormat.flatMap Chunk.bytes).length + file.format.bytes.length +
      (file.beforeData.flatMap Chunk.bytes).length + file.data.bytes.length +
      (file.afterData.flatMap Chunk.bytes).length := by
  simp only [chunks, List.flatMap_append, List.flatMap_cons, List.length_append]
  omega

theorem bytes_length (file : WaveFile) : file.bytes.length = 12 + (file.chunks.flatMap Chunk.bytes).length := by
  have riff : (ascii "RIFF").length = 4 := by decide
  have wave : (ascii "WAVE").length = 4 := by decide
  simp only [bytes, form, le32, List.length_append, riff, wave, List.length_cons, List.length_nil]
  omega

theorem plain_of_length (same : (file.bytes.length - 44) / 2 = file.samples.length) : file.Plain := by
  have whole := bytes_length file
  have parts := chunks_bytes_length file
  rw [file.format.bytes_length, file.data.bytes_length, format_length, data_length] at parts
  have before := chunks_length file.beforeFormat
  have between := chunks_length file.beforeData
  have after := chunks_length file.afterData
  refine ⟨?_, ?_, ?_, ?_⟩ <;> apply List.length_eq_zero_iff.mp <;> omega

section PlainLayout

variable (plain : file.Plain)

def start (file : WaveFile) : List Int8 :=
  ascii "RIFF" ++ le32 (.ofNat 32 file.form.length) ++ ascii "WAVE" ++ ascii "fmt " ++ le32 16 ++ le16 1

def rates (file : WaveFile) : List Int8 := le32 file.byteRate.toBitVec ++ le16 file.blockAlign.toBitVec

def dataHeader (file : WaveFile) : List Int8 := ascii "data" ++ le32 (.ofNat 32 (2 * file.samples.length))

theorem start_length (file : WaveFile) : file.start.length = 22 := by
  have tags : (ascii "RIFF").length = 4 ∧ (ascii "WAVE").length = 4 ∧ (ascii "fmt ").length = 4 := by decide
  simp only [start, List.length_append, tags, le32_length, le16_length]

theorem rates_length (file : WaveFile) : file.rates.length = 6 := by
  simp only [rates, List.length_append, le32_length, le16_length]

theorem dataHeader_length (file : WaveFile) : file.dataHeader.length = 8 := by
  have tag : (ascii "data").length = 4 := by decide
  simp only [dataHeader, List.length_append, tag, le32_length]

include plain

theorem Plain.bytes_eq : file.bytes = file.start ++ (le16 file.channels.toBitVec ++ (le32 file.sampleRate.toBitVec ++
    (file.rates ++ (le16 16 ++ (file.dataHeader ++ file.data.body))))) := by
  have format : file.format.bytes = ascii "fmt " ++ (le32 16 ++ (le16 1 ++ (le16 file.channels.toBitVec ++
      (le32 file.sampleRate.toBitVec ++ (file.rates ++ le16 16))))) := by
    have size : file.format.body.length = 16 := by rw [format_length, plain.extension, List.length_nil]
    rw [Chunk.bytes, size, if_neg (by decide), List.append_nil]
    simp only [WaveFile.format, plain.extension, rates, List.append_nil, List.append_assoc]
    rfl
  have data : file.data.bytes = file.dataHeader ++ file.data.body := by
    rw [Chunk.bytes, data_length, if_neg (by omega), List.append_nil]
    rfl
  have chunks : file.chunks.flatMap Chunk.bytes = file.format.bytes ++ file.data.bytes := by
    simp [WaveFile.chunks, plain.beforeFormat, plain.beforeData, plain.afterData]
  rw [bytes, start]
  generalize le32 (.ofNat 32 file.form.length) = size
  rw [form, chunks, format, data]
  simp only [List.append_assoc]

theorem Plain.read (pathForError : KString) : readWave file.bytes pathForError = .ok
    { pcm16 := file.samples, sampleRate := (Int32.ofBitVec file.sampleRate.toBitVec).toInt
      channels := max (Int16.ofBitVec file.channels.toBitVec).toInt 1 } := by
  have startSize := file.start_length
  have ratesSize := file.rates_length
  have headerSize := file.dataHeader_length
  have filled : 0 < file.data.body.length := by
    rw [file.data_length]
    exact Nat.mul_pos Nat.two_pos (List.length_pos_iff.mpr file.samples_filled)
  rw [readWave_ok_iff]
  refine ⟨?_, ?_, ⟨16, ?_, by decide⟩, ?_, ⟨_, ?_, rfl⟩, ⟨_, ?_, rfl⟩⟩
  · simp only [plain.bytes_eq, List.length_append, startSize, ratesSize, headerSize, le16_length, le32_length]
    omega
  · have riff : (ascii "RIFF").length = 4 := by decide
    rw [plain.bytes_eq, start]
    simp only [List.append_assoc]
    rw [List.take_left' riff]
    decide
  · have shape : file.bytes = (file.start ++ le16 file.channels.toBitVec ++ le32 file.sampleRate.toBitVec ++ file.rates) ++
        (le16 16 ++ (file.dataHeader ++ file.data.body)) := by
      simp only [plain.bytes_eq, List.append_assoc]
    rw [shape]
    exact littleEndianShort_le16 (by simp [startSize, ratesSize]) 16 _
  · have shape : file.bytes = (file.start ++ le16 file.channels.toBitVec ++ le32 file.sampleRate.toBitVec ++ file.rates ++
        le16 16 ++ file.dataHeader) ++ file.data.body := by
      simp only [plain.bytes_eq, List.append_assoc]
    rw [shape, List.drop_left' (by simp [startSize, ratesSize, headerSize])]
    exact (samplesOf_le16 file.samples).symm
  · rw [plain.bytes_eq]
    exact littleEndianShort_le16 startSize _ _
  · rw [plain.bytes_eq, ← List.append_assoc]
    exact littleEndianInt_le32 (by simp [startSize]) _ _

end PlainLayout

theorem channels_iff (file : WaveFile) :
    max (Int16.ofBitVec file.channels.toBitVec).toInt 1 = file.channels.toNat ↔ file.channels.toNat < 2 ^ 15 := by
  have positive := file.channels_pos
  have bound : file.channels.toNat < 2 ^ 16 := file.channels.toNat_lt
  have value : (Int16.ofBitVec file.channels.toBitVec).toInt =
      if 2 * file.channels.toNat < 2 ^ 16 then (file.channels.toNat : ℤ) else file.channels.toNat - (2 ^ 16 : ℕ) :=
    BitVec.toInt_eq_toNat_cond _
  rw [value]
  split <;> omega

theorem sampleRate_iff (file : WaveFile) :
    (Int32.ofBitVec file.sampleRate.toBitVec).toInt = file.sampleRate.toNat ↔ file.sampleRate.toNat < 2 ^ 31 := by
  have bound : file.sampleRate.toNat < 2 ^ 32 := file.sampleRate.toNat_lt
  have value : (Int32.ofBitVec file.sampleRate.toBitVec).toInt =
      if 2 * file.sampleRate.toNat < 2 ^ 32 then (file.sampleRate.toNat : ℤ) else file.sampleRate.toNat - (2 ^ 32 : ℕ) :=
    BitVec.toInt_eq_toNat_cond _
  rw [value]
  split <;> omega

/-- The decoder reads a file as it was written exactly if the file has the plain layout
    and its channel count and rate are no negative numbers to it. -/
theorem read_as_written_iff (file : WaveFile) (pathForError : KString) :
    readWave file.bytes pathForError = .ok file.wave ↔
      (file.extension = [] ∧ file.beforeFormat = [] ∧ file.beforeData = [] ∧ file.afterData = []) ∧
        file.channels.toNat < 2 ^ 15 ∧ file.sampleRate.toNat < 2 ^ 31 := by
  rw [← channels_iff, ← sampleRate_iff]
  constructor
  · intro read
    have samples := ((readWave_ok_iff _ _ _).mp read).2.2.2.1
    have counted := congrArg List.length samples
    rw [samplesOf_length, List.length_drop] at counted
    have plain := plain_of_length counted.symm
    rw [plain.read] at read
    have same := Except.ok.inj read
    exact ⟨⟨plain.extension, plain.beforeFormat, plain.beforeData, plain.afterData⟩,
      congrArg DecodedPcm.channels same, congrArg DecodedPcm.sampleRate same⟩
  · rintro ⟨⟨extension, beforeFormat, beforeData, afterData⟩, channels, sampleRate⟩
    have plain : file.Plain := ⟨extension, beforeFormat, beforeData, afterData⟩
    rw [plain.read, channels, sampleRate]
    rfl

def tagged : WaveFile where
  channels := 1
  sampleRate := 16000
  byteRate := 32000
  blockAlign := 2
  extension := []
  samples := [1000, -1000]
  beforeFormat := []
  beforeData := [⟨ascii "LIST", ascii "INFOIART" ++ le32 4 ++ ascii "Anna", by decide⟩]
  afterData := []
  channels_pos := by decide
  sampleRate_pos := by decide
  samples_filled := by decide
  others := List.forall_mem_singleton.mpr (by decide)

theorem tagged_misread :
    ¬ ∃ pathForError, readWave tagged.bytes pathForError = .ok tagged.wave := by
  rintro ⟨pathForError, read⟩
  have samples := ((readWave_ok_iff _ _ _).mp read).2.2.2.1
  revert samples
  decide +kernel

end WaveFile

end Transcription
