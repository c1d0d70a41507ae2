import TranscriptForm.Transcription.Resampling

namespace Transcription

open Kotlin Form

/-- A `MediaFormat`, where a key may be missing. -/
structure MediaFormat where
  mime : Option KString := none
  sampleRate : Option ℤ := none
  channelCount : Option ℤ := none
  deriving DecidableEq

def getIntOrDefault (value : Option ℤ) (defaultValue : ℤ) : ℤ := value.getD defaultValue

structure MediaSample where
  data : List Int8
  sampleTime : ℤ
  deriving DecidableEq

structure MediaTrack where
  format : MediaFormat
  samples : List MediaSample

structure BufferInfo where
  offset : ℤ
  size : ℤ
  flags : Int32

/-- `BUFFER_FLAG_END_OF_STREAM` -/
def endOfStreamFlag : Int32 := 4

/-- `INFO_OUTPUT_FORMAT_CHANGED` -/
def outputFormatChanged : ℤ := -2

def BufferInfo.endsStream (info : BufferInfo) : Bool := info.flags &&& endOfStreamFlag ≠ 0

/-- Android's `MediaCodec`, whose calls may fail. An input buffer is as good as its capacity, an output buffer is its
    content. -/
structure MediaCodec (σ : Type) where
  createDecoderByType : KString → Except Throwable σ
  configure : MediaFormat → σ → Except Throwable σ
  start : σ → Except Throwable σ
  dequeueInputBuffer : σ → Except Throwable (ℤ × σ)
  getInputBuffer : ℤ → σ → Except Throwable (Option ℕ × σ)
  queueInputBuffer : ℤ → List Int8 → ℤ → Int32 → σ → Except Throwable σ
  dequeueOutputBuffer : σ → Except Throwable (ℤ × BufferInfo × σ)
  getOutputBuffer : ℤ → σ → Except Throwable (Option (List Int8) × σ)
  releaseOutputBuffer : ℤ → σ → Except Throwable σ
  outputFormat : σ → Except Throwable MediaFormat

variable {σ : Type}

structure Decoding (σ : Type) where
  codec : σ
  /-- The samples that the extractor has not advanced over. -/
  extractor : List MediaSample
  outputSampleRate : ℤ
  outputChannels : ℤ
  pcmBytes : List Int8 := []
  inputEos : Bool := false
  outputEos : Bool := false

/-- `readSampleData(inputBuffer, 0)` of a sample, which has to find room in the buffer. -/
def readSampleData (capacity : ℕ) (sample : MediaSample) : Except Throwable Unit :=
  if sample.data.length ≤ capacity then .ok () else .error ⟨none⟩

/-- `position`, `limit` and `get(chunk)` of an output buffer. -/
def readChunk (outputBuffer : List Int8) (info : BufferInfo) : Except Throwable (List Int8) :=
  if 0 ≤ info.offset ∧ info.offset + info.size ≤ outputBuffer.length then
    .ok ((outputBuffer.drop info.offset.toNat).take info.size.toNat)
  else .error ⟨none⟩

def chunkOf (outputBuffer : Option (List Int8)) (info : BufferInfo) : Except Throwable (List Int8) :=
  match outputBuffer with
  | some outputBuffer => if 0 < info.size then readChunk outputBuffer info else .ok []
  | none => .ok []

namespace Decoding

/-- The part of a round that feeds the codec. -/
def feedInput (codec : MediaCodec σ) (d : Decoding σ) : Except Throwable (Decoding σ) :=
  if d.inputEos then return d
  else do
    let (inputIndex, state) ← codec.dequeueInputBuffer d.codec
    if inputIndex < 0 then return { d with codec := state }
    else do
      let (inputBuffer, state) ← codec.getInputBuffer inputIndex state
      match inputBuffer, d.extractor with
      | none, _ => return { d with codec := state }
      | some _, [] =>
        let state ← codec.queueInputBuffer inputIndex [] 0 endOfStreamFlag state
        return { d with codec := state, inputEos := true }
      | some capacity, sample :: rest =>
        readSampleData capacity sample
        let state ← codec.queueInputBuffer inputIndex sample.data sample.sampleTime 0 state
        return { d with codec := state, extractor := rest }

/-- The part of a round that takes what the codec has decoded. -/
def drainOutput (codec : MediaCodec σ) (d : Decoding σ) : Except Throwable (Decoding σ) := do
  let (outputIndex, info, state) ← codec.dequeueOutputBuffer d.codec
  if 0 ≤ outputIndex then
    let (outputBuffer, state) ← codec.getOutputBuffer outputIndex state
    let chunk ← chunkOf outputBuffer info
    let state ← codec.releaseOutputBuffer outputIndex state
    return { d with codec := state, pcmBytes := d.pcmBytes ++ chunk, outputEos := d.outputEos || info.endsStream }
  else if outputIndex = outputFormatChanged then
    let out ← codec.outputFormat state
    return { d with
      codec := state
      outputSampleRate := getIntOrDefault out.sampleRate d.outputSampleRate
      outputChannels := max 1 (getIntOrDefault out.channelCount d.outputChannels) }
  else return { d with codec := state }

def round (codec : MediaCodec σ) (d : Decoding σ) : Except Throwable (Decoding σ) :=
  feedInput codec d >>= drainOutput codec

/-- `while (!outputEos)`, with the rounds it is given; none where these do not suffice. -/
def loop (codec : MediaCodec σ) : ℕ → Decoding σ → Option (Except Throwable (Decoding σ))
  | rounds, d =>
    if d.outputEos then some (.ok d)
    else
      match rounds with
      | 0 => none
      | rounds + 1 =>
        match round codec d with
        | .error thrown => some (.error thrown)
        | .ok d => loop codec rounds d

end Decoding

def isAudio (track : MediaTrack) : Bool := startsWith (track.format.mime.getD []) (txt "audio/")

/-- What comes before the loop: the first audio track is selected and the codec is started. -/
def startDecoding (codec : MediaCodec σ) (setDataSource : KString → Except Throwable (List MediaTrack)) (path : KString) :
    Except Throwable (Decoding σ) := do
  let tracks ← setDataSource path
  match tracks.find? isAudio with
  | none => .error ⟨some (txt "Kein Audio-Track gefunden: " ++ path)⟩
  | some track =>
    let mime := track.format.mime.getD []
    require (isNotBlank mime) (txt "Audio-MIME fehlt: " ++ path)
    let state ← codec.createDecoderByType mime
    let state ← codec.configure track.format state
    let state ← codec.start state
    return {
      codec := state
      extractor := track.samples
      outputSampleRate := getIntOrDefault track.format.sampleRate 16000
      outputChannels := max 1 (getIntOrDefault track.format.channelCount 1) }

def finishDecoding (d : Decoding σ) : Except Throwable DecodedPcm := do
  let pcmByteArray := d.pcmBytes
  require (!pcmByteArray.isEmpty) (txt "Audio-Dekodierung ergab keine PCM-Daten")
  let sampleCount := pcmByteArray.length / 2
  let (pcm16, index) ← fillPcm pcmByteArray sampleCount (List.replicate sampleCount 0) 0 0
  return { pcm16 := copyOf pcm16 index, sampleRate := d.outputSampleRate, channels := d.outputChannels }

def decodeCompressedAudioToPcm (codec : MediaCodec σ) (setDataSource : KString → Except Throwable (List MediaTrack))
    (rounds : ℕ) (path : KString) : Option (Except Throwable DecodedPcm) :=
  match startDecoding codec setDataSource path with
  | .error thrown => some (.error thrown)
  | .ok d =>
    (Decoding.loop codec rounds d).map fun decoded => decoded >>= finishDecoding

/-- What was given to a codec so far, and what it gave. -/
structure Stage where
  queued : List MediaSample := []
  ended : Bool := false
  bytes : List Int8 := []
  formats : List MediaFormat := []

namespace Stage

def queue (stage : Stage) (sample : MediaSample) : Stage := { stage with queued := stage.queued ++ [sample] }

def close (stage : Stage) : Stage := { stage with ended := true }

def give (stage : Stage) (chunk : List Int8) : Stage := { stage with bytes := stage.bytes ++ chunk }

def report (stage : Stage) (format : MediaFormat) : Stage := { stage with formats := stage.formats ++ [format] }

end Stage

/-- What a caller may rely on who queues samples and an end, and takes what is shown to him: the codec lends buffers, does
    not stall for ever, and when it ends the stream it has decoded what was queued. How it cuts its output, when it
    reports a format and when it fails is up to the codec. -/
structure Conforms (codec : MediaCodec σ) (Decodes : List MediaSample → List Int8 → List MediaFormat → Prop) where
  Holds : σ → Stage → Prop
  /-- The input buffer of this number is lent. -/
  Lends : σ → ℤ → Stage → Prop
  /-- The output buffer of this number is shown, with what it adds. -/
  Shows : σ → ℤ → BufferInfo → Stage → Prop
  /-- How much is left to be done before the codec waits for input. -/
  pending : σ → ℕ
  /-- How much a sample adds to it; the end is queued with no data. -/
  perSample : List Int8 → ℕ
  started : ∀ {mime format created configured running}, codec.createDecoderByType mime = .ok created →
    codec.configure format created = .ok configured → codec.start configured = .ok running → Holds running {}
  busy : ∀ {s stage}, Holds s stage → stage.ended = true → 0 < pending s
  dequeuesInput : ∀ {s s' stage index}, Holds s stage → stage.ended = false →
    codec.dequeueInputBuffer s = .ok (index, s') →
    pending s' ≤ pending s ∧ if index < 0 then 0 < pending s ∧ Holds s' stage else Lends s' index stage
  lends : ∀ {s s' stage index buffer}, Lends s index stage → codec.getInputBuffer index s = .ok (buffer, s') →
    pending s' ≤ pending s ∧ buffer.isSome = true ∧ Lends s' index stage
  queues : ∀ {s s' stage index sample}, Lends s index stage →
    codec.queueInputBuffer index sample.data sample.sampleTime 0 s = .ok s' →
    pending s' ≤ pending s + perSample sample.data ∧ Holds s' (stage.queue sample)
  closes : ∀ {s s' stage index}, Lends s index stage →
    codec.queueInputBuffer index [] 0 endOfStreamFlag s = .ok s' →
    pending s' ≤ pending s + perSample [] ∧ Holds s' stage.close
  dequeuesOutput : ∀ {s s' stage index info}, Holds s stage → codec.dequeueOutputBuffer s = .ok (index, info, s') →
    pending s' ≤ pending s - 1 ∧
      if 0 ≤ index then Shows s' index info stage
      else if index = outputFormatChanged then ∀ format, codec.outputFormat s' = .ok format → Holds s' (stage.report format)
      else Holds s' stage
  shows : ∀ {s s' stage index info buffer}, Shows s index info stage → codec.getOutputBuffer index s = .ok (buffer, s') →
    pending s' ≤ pending s ∧ 0 ≤ info.offset ∧ 0 ≤ info.size ∧
      ∃ content, buffer = some content ∧ info.offset + info.size ≤ content.length ∧
        ∀ s'', codec.releaseOutputBuffer index s' = .ok s'' → pending s'' ≤ pending s' ∧
          let given := stage.give ((content.drop info.offset.toNat).take info.size.toNat)
          if info.endsStream then given.ended = true ∧ Decodes given.queued given.bytes given.formats else Holds s'' given

inductive MediaCodec.Fails (codec : MediaCodec σ) (track : MediaTrack) (thrown : Throwable) : Prop
  | creating {mime : KString} (fails : codec.createDecoderByType mime = .error thrown)
  | configuring {format : MediaFormat} {s : σ} (fails : codec.configure format s = .error thrown)
  | starting {s : σ} (fails : codec.start s = .error thrown)
  | dequeuingInput {s : σ} (fails : codec.dequeueInputBuffer s = .error thrown)
  | gettingInput {index : ℤ} {s : σ} (fails : codec.getInputBuffer index s = .error thrown)
  | queuing {index time : ℤ} {data : List Int8} {flags : Int32} {s : σ}
      (fails : codec.queueInputBuffer index data time flags s = .error thrown)
  | dequeuingOutput {s : σ} (fails : codec.dequeueOutputBuffer s = .error thrown)
  | gettingOutput {index : ℤ} {s : σ} (fails : codec.getOutputBuffer index s = .error thrown)
  | releasing {index : ℤ} {s : σ} (fails : codec.releaseOutputBuffer index s = .error thrown)
  | readingFormat {s : σ} (fails : codec.outputFormat s = .error thrown)
  | tooLarge {index : ℤ} {s s' : σ} {capacity : ℕ} {sample : MediaSample} (member : sample ∈ track.samples)
      (lent : codec.getInputBuffer index s = .ok (some capacity, s')) (fails : readSampleData capacity sample = .error thrown)

section Ends

variable {α β ε : Type} {bad : ε → Prop} {good : β → Prop}

def Ends (bad : ε → Prop) (good : β → Prop) : Except ε β → Prop
  | .error thrown => bad thrown
  | .ok value => good value

theorem Ends.bind {compute : Except ε α} {next : α → Except ε β} (fails : ∀ thrown, compute = .error thrown → bad thrown)
    (continues : ∀ value, compute = .ok value → Ends bad good (next value)) : Ends bad good (compute >>= next) := by
  cases compute with
  | error thrown => exact fails thrown rfl
  | ok value => exact continues value rfl

theorem Ends.mono {worse : ε → Prop} {better : β → Prop} {result : Except ε β} (ends : Ends bad good result)
    (fails : ∀ thrown, bad thrown → worse thrown) (succeeds : ∀ value, good value → better value) :
    Ends worse better result := by
  cases result with
  | error thrown => exact fails thrown ends
  | ok value => exact succeeds value ends

end Ends

def toldRate (track : MediaTrack) (formats : List MediaFormat) : ℤ :=
  formats.foldl (fun rate format => getIntOrDefault format.sampleRate rate)
    (getIntOrDefault track.format.sampleRate 16000)

def toldChannels (track : MediaTrack) (formats : List MediaFormat) : ℤ :=
  formats.foldl (fun channels format => max 1 (getIntOrDefault format.channelCount channels))
    (max 1 (getIntOrDefault track.format.channelCount 1))

structure KeepsTrack (track : MediaTrack) (d : Decoding σ) (stage : Stage) : Prop where
  samples : stage.queued ++ d.extractor = track.samples
  ended : stage.ended = d.inputEos
  all : d.inputEos = true → d.extractor = []
  bytes : d.pcmBytes = stage.bytes
  rate : d.outputSampleRate = toldRate track stage.formats
  channels : d.outputChannels = toldChannels track stage.formats

section Rounds

variable {codec : MediaCodec σ} {Decodes : List MediaSample → List Int8 → List MediaFormat → Prop} {track : MediaTrack}
  {d : Decoding σ} {stage : Stage}

namespace KeepsTrack

theorem queue {sample : MediaSample} {rest : List MediaSample} {state : σ} (tracks : KeepsTrack track d stage)
    (isOpen : d.inputEos = false) (next : d.extractor = sample :: rest) :
    KeepsTrack track { d with codec := state, extractor := rest } (stage.queue sample) where
  samples := by
    rw [← tracks.samples, next, Stage.queue, List.append_assoc, List.singleton_append]
  ended := tracks.ended
  all ended := absurd (isOpen.symm.trans ended) Bool.false_ne_true
  bytes := tracks.bytes
  rate := tracks.rate
  channels := tracks.channels

theorem close {state : σ} (tracks : KeepsTrack track d stage) (next : d.extractor = []) :
    KeepsTrack track { d with codec := state, inputEos := true } stage.close where
  samples := tracks.samples
  ended := rfl
  all _ := next
  bytes := tracks.bytes
  rate := tracks.rate
  channels := tracks.channels

theorem give {state : σ} {chunk : List Int8} {outputEos : Bool} (tracks : KeepsTrack track d stage) :
    KeepsTrack track { d with codec := state, pcmBytes := d.pcmBytes ++ chunk, outputEos := outputEos }
      (stage.give chunk) where
  samples := tracks.samples
  ended := tracks.ended
  all := tracks.all
  bytes := congrArg (· ++ chunk) tracks.bytes
  rate := tracks.rate
  channels := tracks.channels

theorem report {state : σ} {format : MediaFormat} (tracks : KeepsTrack track d stage) :
    KeepsTrack track { d with
      codec := state
      outputSampleRate := getIntOrDefault format.sampleRate d.outputSampleRate
      outputChannels := max 1 (getIntOrDefault format.channelCount d.outputChannels) } (stage.report format) where
  samples := tracks.samples
  ended := tracks.ended
  all := tracks.all
  bytes := tracks.bytes
  rate := by rw [toldRate, Stage.report, List.foldl_concat, ← toldRate, tracks.rate]
  channels := by rw [toldChannels, Stage.report, List.foldl_concat, ← toldChannels, tracks.channels]

theorem wait {state : σ} (tracks : KeepsTrack track d stage) : KeepsTrack track { d with codec := state } stage :=
  ⟨tracks.samples, tracks.ended, tracks.all, tracks.bytes, tracks.rate, tracks.channels⟩

end KeepsTrack

theorem chunkOf_content {content : List Int8} {info : BufferInfo} (offset : 0 ≤ info.offset)
    (inside : info.offset + info.size ≤ content.length) :
    chunkOf (some content) info = .ok ((content.drop info.offset.toNat).take info.size.toNat) := by
  unfold chunkOf
  dsimp only
  split
  · rw [readChunk, if_pos ⟨offset, inside⟩]
  · have zero : info.size.toNat = 0 := by omega
    rw [zero, List.take_zero]

def Conforms.toQueue (conforms : Conforms codec Decodes) (d : Decoding σ) : ℕ :=
  (d.extractor.map fun sample => conforms.perSample sample.data + 1).sum +
    if d.inputEos then 0 else conforms.perSample [] + 1

def Conforms.work (conforms : Conforms codec Decodes) (d : Decoding σ) : ℕ :=
  conforms.toQueue d + conforms.pending d.codec

structure InProgress (conforms : Conforms codec Decodes) (track : MediaTrack) (d : Decoding σ) (stage : Stage) : Prop where
  holds : conforms.Holds d.codec stage
  tracks : KeepsTrack track d stage
  goesOn : d.outputEos = false

structure Finished (Decodes : List MediaSample → List Int8 → List MediaFormat → Prop) (track : MediaTrack)
    (d : Decoding σ) (stage : Stage) : Prop where
  tracks : KeepsTrack track d stage
  decodes : Decodes track.samples stage.bytes stage.formats
  ends : d.outputEos = true

theorem feedInput_ends {conforms : Conforms codec Decodes} (progress : InProgress conforms track d stage) :
    Ends (codec.Fails track)
      (fun fed => (∃ stage, InProgress conforms track fed stage) ∧
        conforms.toQueue fed + (conforms.pending fed.codec - 1) < conforms.work d)
      (d.feedInput codec) := by
  unfold Decoding.feedInput
  obtain ⟨holds, tracks, goesOn⟩ := progress
  by_cases closed : d.inputEos = true
  · rw [if_pos closed]
    have busy := conforms.busy holds (tracks.ended.trans closed)
    refine ⟨⟨stage, holds, tracks, goesOn⟩, ?_⟩
    rw [Conforms.work]
    omega
  · have ended : d.inputEos = false := Bool.eq_false_iff.mpr closed
    rw [if_neg closed]
    refine .bind (fun thrown fails => .dequeuingInput fails) fun dequeued outcome => ?_
    obtain ⟨inputIndex, state⟩ := dequeued
    obtain ⟨calm, input⟩ := conforms.dequeuesInput holds (tracks.ended.trans ended) outcome
    dsimp only
    by_cases none : inputIndex < 0
    · rw [if_pos none] at input ⊢
      refine ⟨⟨stage, input.2, tracks.wait, goesOn⟩, ?_⟩
      have same : conforms.toQueue { d with codec := state } = conforms.toQueue d := rfl
      rw [same, Conforms.work]
      dsimp only
      omega
    · rw [if_neg none] at input ⊢
      refine .bind (fun thrown fails => .gettingInput fails) fun lent outcome => ?_
      obtain ⟨inputBuffer, lending⟩ := lent
      obtain ⟨calmer, filled, lends⟩ := conforms.lends input outcome
      obtain ⟨capacity, rfl⟩ := Option.isSome_iff_exists.mp filled
      cases next : d.extractor with
      | nil =>
        refine .bind (fun thrown fails => .queuing fails) fun after outcome => ?_
        obtain ⟨more, holds⟩ := conforms.closes lends outcome
        have closing := @KeepsTrack.close _ _ _ _ after tracks next
        rw [next] at closing
        refine ⟨⟨stage.close, holds, closing, goesOn⟩, ?_⟩
        have before : conforms.toQueue d = 0 + (conforms.perSample [] + 1) := by
          rw [Conforms.toQueue, next, ended]
          rfl
        rw [Conforms.work, before]
        change 0 + (conforms.pending after - 1) < _
        omega
      | cons sample rest =>
        have member : sample ∈ track.samples := by
          rw [← tracks.samples, next]
          exact List.mem_append_right _ List.mem_cons_self
        refine .bind (fun thrown fails => .tooLarge member outcome fails) fun _ _ => ?_
        refine .bind (fun thrown fails => .queuing fails) fun after outcome => ?_
        obtain ⟨more, holds⟩ := conforms.queues lends outcome
        refine ⟨⟨stage.queue sample, holds, tracks.queue ended next, goesOn⟩, ?_⟩
        have before : conforms.toQueue d =
            conforms.perSample sample.data + 1 + conforms.toQueue { d with codec := after, extractor := rest } := by
          rw [Conforms.toQueue, next, List.map_cons, List.sum_cons, Nat.add_assoc]
          rfl
        rw [Conforms.work, before]
        dsimp only
        omega

theorem drainOutput_ends {conforms : Conforms codec Decodes} (progress : InProgress conforms track d stage) :
    Ends (codec.Fails track)
      (fun drained => ((∃ stage, InProgress conforms track drained stage) ∨ ∃ stage, Finished Decodes track drained stage) ∧
        conforms.work drained ≤ conforms.toQueue d + (conforms.pending d.codec - 1))
      (d.drainOutput codec) := by
  obtain ⟨holds, tracks, goesOn⟩ := progress
  unfold Decoding.drainOutput
  refine .bind (fun thrown fails => .dequeuingOutput fails) fun dequeued outcome => ?_
  obtain ⟨outputIndex, info, state⟩ := dequeued
  obtain ⟨calm, output⟩ := conforms.dequeuesOutput holds outcome
  dsimp only
  by_cases shown : 0 ≤ outputIndex
  · rw [if_pos shown] at output ⊢
    refine .bind (fun thrown fails => .gettingOutput fails) fun gotten outcome => ?_
    obtain ⟨outputBuffer, showing⟩ := gotten
    obtain ⟨calmer, offset, size, content, rfl, inside, releases⟩ := conforms.shows output outcome
    dsimp only
    rw [chunkOf_content offset inside]
    refine .bind (fun thrown fails => nomatch fails) fun taken isTaken => ?_
    cases isTaken
    refine .bind (fun thrown fails => .releasing fails) fun after outcome => ?_
    obtain ⟨calmest, given⟩ := releases after outcome
    refine ⟨?_, Nat.add_le_add_left (calmest.trans (calmer.trans calm)) _⟩
    cases ends : info.endsStream with
    | true =>
      rw [if_pos ends] at given
      obtain ⟨ended, decodes⟩ := given
      refine .inr ⟨_, tracks.give, ?_, by rw [goesOn]; rfl⟩
      have all := tracks.all (tracks.ended.symm.trans ended)
      have queued := tracks.samples
      rw [all, List.append_nil] at queued
      rwa [← queued]
    | false =>
      rw [if_neg (by rw [ends]; exact Bool.false_ne_true)] at given
      exact .inl ⟨_, given, tracks.give, by rw [goesOn]; rfl⟩
  · rw [if_neg shown] at output ⊢
    by_cases changed : outputIndex = outputFormatChanged
    · rw [if_pos changed] at output ⊢
      refine .bind (fun thrown fails => .readingFormat fails) fun out outcome => ?_
      exact ⟨.inl ⟨_, output out outcome, tracks.report, goesOn⟩, Nat.add_le_add_left calm _⟩
    · rw [if_neg changed] at output ⊢
      exact ⟨.inl ⟨_, output, tracks.wait, goesOn⟩, Nat.add_le_add_left calm _⟩

theorem round_ends {conforms : Conforms codec Decodes} (progress : InProgress conforms track d stage) :
    Ends (codec.Fails track)
      (fun after => ((∃ stage, InProgress conforms track after stage) ∨ ∃ stage, Finished Decodes track after stage) ∧
        conforms.work after < conforms.work d)
      (d.round codec) := by
  have feeds := feedInput_ends progress
  refine .bind (fun thrown fails => ?_) fun fed outcome => ?_
  · rw [fails] at feeds
    exact feeds
  · rw [outcome] at feeds
    obtain ⟨⟨stage, progress⟩, less⟩ := feeds
    exact (drainOutput_ends progress).mono (fun _ fails => fails) fun after drained =>
      ⟨drained.1, Nat.lt_of_le_of_lt drained.2 less⟩

/-- The loop ends: every round leaves less to be done. -/
theorem loop_ends {conforms : Conforms codec Decodes} {rounds : ℕ} (enough : conforms.work d < rounds)
    (progress : InProgress conforms track d stage) :
    ∃ result, Decoding.loop codec rounds d = some result ∧
      Ends (codec.Fails track) (fun after => ∃ stage, Finished Decodes track after stage) result := by
  induction rounds generalizing d stage with
  | zero => exact absurd enough (Nat.not_lt_zero _)
  | succ rounds ih =>
    have ends := round_ends progress
    rw [Decoding.loop, if_neg (by rw [progress.goesOn]; exact Bool.false_ne_true)]
    cases outcome : d.round codec with
    | error thrown =>
      rw [outcome] at ends
      exact ⟨_, rfl, ends⟩
    | ok after =>
      rw [outcome] at ends
      obtain ⟨⟨stage, progress⟩ | ⟨stage, finished⟩, less⟩ := ends
      · exact ih (by omega) progress
      · refine ⟨.ok after, ?_, stage, finished⟩
        dsimp only
        unfold Decoding.loop
        rw [if_pos finished.ends]

variable {setDataSource : KString → Except Throwable (List MediaTrack)} {path : KString} {tracks : List MediaTrack}

theorem isNotBlank_of_isAudio (audio : isAudio track = true) : isNotBlank (track.format.mime.getD []) = true := by
  obtain ⟨rest, name⟩ := List.isPrefixOf_iff_prefix.mp audio
  rw [isNotBlank, Bool.not_eq_true', ← Bool.not_eq_true, isBlank_iff, ← name]
  intro blank
  have first : isWhitespace (ch 'a') = true := blank (ch 'a') (List.mem_append_left _ (by decide))
  exact absurd first (by decide)

theorem startDecoding_ends (conforms : Conforms codec Decodes) (opened : setDataSource path = .ok tracks)
    (found : tracks.find? isAudio = some track) :
    Ends (codec.Fails track) (fun d => InProgress conforms track d {}) (startDecoding codec setDataSource path) := by
  have audio : isAudio track = true := List.find?_some found
  unfold startDecoding
  rw [opened]
  refine .bind (fun thrown fails => nomatch fails) fun read isRead => ?_
  cases isRead
  rw [found]
  dsimp only
  rw [isNotBlank_of_isAudio audio]
  refine .bind (fun thrown fails => nomatch fails) fun _ _ => ?_
  refine .bind (fun thrown fails => .creating fails) fun created creating => ?_
  refine .bind (fun thrown fails => .configuring fails) fun configured configuring => ?_
  refine .bind (fun thrown fails => .starting fails) fun running starting => ?_
  exact ⟨conforms.started creating configuring starting, ⟨rfl, rfl, (nomatch ·), rfl, rfl, rfl⟩, rfl⟩

theorem finishDecoding_finished (finished : Finished Decodes track d stage) :
    finishDecoding d =
      if stage.bytes = [] then .error ⟨some (txt "Audio-Dekodierung ergab keine PCM-Daten")⟩
      else .ok ⟨samplesOf stage.bytes, toldRate track stage.formats, toldChannels track stage.formats⟩ := by
  unfold finishDecoding
  rw [finished.tracks.bytes, finished.tracks.rate, finished.tracks.channels]
  by_cases empty : stage.bytes = []
  · rw [if_pos empty, empty]
    rfl
  · have filled : (!stage.bytes.isEmpty) = true := by simpa using empty
    have room : (List.replicate (stage.bytes.length / 2) (0 : Int16)).length = (samplesOf stage.bytes).length := by
      rw [List.length_replicate, samplesOf_length]
    have read := fillPcm_reads [] stage.bytes [] _ room
    simp only [List.nil_append, List.length_nil, Nat.zero_add, List.length_replicate] at read
    dsimp only
    rw [if_neg empty, filled]
    simp only [require, if_true, bind, Except.bind, read]
    rw [copyOf_all (samplesOf_length _)]
    rfl

/-- How the decoding of a file ends: with what the codec made of all samples of the first audio track, or with one of
    the failures that are not the loop's. -/
inductive CompressedAudio (codec : MediaCodec σ) (Decodes : List MediaSample → List Int8 → List MediaFormat → Prop)
    (tracks : List MediaTrack) (path : KString) : Except Throwable DecodedPcm → Prop
  | noTrack (none : ∀ track ∈ tracks, isAudio track = false) :
      CompressedAudio codec Decodes tracks path (.error ⟨some (txt "Kein Audio-Track gefunden: " ++ path)⟩)
  | failed {track : MediaTrack} {thrown : Throwable} (found : tracks.find? isAudio = some track)
      (fails : codec.Fails track thrown) : CompressedAudio codec Decodes tracks path (.error thrown)
  | silent {track : MediaTrack} {formats : List MediaFormat} (found : tracks.find? isAudio = some track)
      (decodes : Decodes track.samples [] formats) :
      CompressedAudio codec Decodes tracks path (.error ⟨some (txt "Audio-Dekodierung ergab keine PCM-Daten")⟩)
  | decoded {track : MediaTrack} {bytes : List Int8} {formats : List MediaFormat}
      (found : tracks.find? isAudio = some track) (decodes : Decodes track.samples bytes formats) (filled : bytes ≠ []) :
      CompressedAudio codec Decodes tracks path
        (.ok ⟨samplesOf bytes, toldRate track formats, toldChannels track formats⟩)

theorem decodeCompressedAudioToPcm_decodes (conforms : Conforms codec Decodes) (opened : setDataSource path = .ok tracks) :
    ∃ enough, ∀ rounds, enough ≤ rounds →
      ∃ result, decodeCompressedAudioToPcm codec setDataSource rounds path = some result ∧
        CompressedAudio codec Decodes tracks path result := by
  unfold decodeCompressedAudioToPcm
  cases found : tracks.find? isAudio with
  | none =>
    refine ⟨0, fun rounds _ => ⟨_, ?_, .noTrack ?_⟩⟩
    · unfold startDecoding
      rw [opened]
      simp only [bind, Except.bind, found]
    · intro track member
      simpa using List.find?_eq_none.mp found track member
  | some track =>
    have ends := startDecoding_ends conforms opened found
    cases started : startDecoding codec setDataSource path with
    | error thrown =>
      rw [started] at ends
      exact ⟨0, fun rounds _ => ⟨_, rfl, .failed found ends⟩⟩
    | ok d =>
      rw [started] at ends
      refine ⟨conforms.work d + 1, fun rounds enough => ?_⟩
      obtain ⟨result, looped, ends⟩ := loop_ends enough ends
      refine ⟨_, congrArg (Option.map fun decoded => decoded >>= finishDecoding) looped, ?_⟩
      cases result with
      | error thrown => exact .failed found ends
      | ok after =>
        obtain ⟨stage, finished⟩ := ends
        have finish := finishDecoding_finished finished
        have decodes := finished.decodes
        change CompressedAudio codec Decodes tracks path (finishDecoding after)
        by_cases empty : stage.bytes = []
        · rw [if_pos empty] at finish
          rw [finish]
          rw [empty] at decodes
          exact .silent found decodes
        · rw [if_neg empty] at finish
          rw [finish]
          exact .decoded found decodes empty

/-- A file that is no RIFF file becomes samples in the unit range, of the length that its rate and channels make, unless
    its decoding fails. -/
theorem decodeAudioToMono16kFloatArray_compressed {bytes : List Int8} (conforms : Conforms codec Decodes)
    (opened : setDataSource path = .ok tracks) (noRiff : ¬ (12 < bytes.length ∧ asciiText (bytes.take 4) = txt "RIFF"))
    (sized : ∀ track ∈ tracks, ∀ pcmBytes formats, Decodes track.samples pcmBytes formats → pcmBytes.length < 2 ^ 31 ∧
      resampledLength (monoFrames ⟨samplesOf pcmBytes, toldRate track formats, toldChannels track formats⟩)
        (toldRate track formats) < 2 ^ 31) :
    ∃ enough, ∀ rounds, enough ≤ rounds →
      ∃ decoded, decodeCompressedAudioToPcm codec setDataSource rounds path = some decoded ∧
        CompressedAudio codec Decodes tracks path decoded ∧
        Ends (fun thrown => decoded = .error thrown)
          (fun output => ∃ wave, decoded = .ok wave ∧ output.length = resampledLength (monoFrames wave) wave.sampleRate ∧
            NearQuotient (monoFrames wave) wave.sampleRate output.length ∧ ∀ sample ∈ output, InUnit sample)
          (decodeAudioToMono16kFloatArray (fun _ => decoded) path bytes) := by
  obtain ⟨enough, decodes⟩ := decodeCompressedAudioToPcm_decodes conforms opened
  refine ⟨enough, fun rounds more => ?_⟩
  obtain ⟨decoded, terminates, outcome⟩ := decodes rounds more
  refine ⟨decoded, terminates, outcome, ?_⟩
  unfold decodeAudioToMono16kFloatArray
  rw [if_neg (by simpa using noRiff)]
  cases outcome with
  | noTrack none => rfl
  | failed found fails => rfl
  | silent found decodes => rfl
  | @decoded track pcmBytes formats found decodes filled =>
    obtain ⟨short, fits⟩ := sized track (List.mem_of_find?_eq_some found) pcmBytes formats decodes
    generalize waveIs : (⟨samplesOf pcmBytes, toldRate track formats, toldChannels track formats⟩ : DecodedPcm) = wave at fits ⊢
    obtain ⟨mono, mixed, frames, monoUnit⟩ := pcm16ToMonoFloat_ok wave
    have rate : toldRate track formats = wave.sampleRate := congrArg DecodedPcm.sampleRate waveIs
    have monoSized : mono.length < 2 ^ 31 := by
      have bound := monoFrames_le wave
      have size : wave.pcm16.length = pcmBytes.length / 2 := by rw [← waveIs, samplesOf_length]
      omega
    rw [rate, ← frames] at fits
    obtain ⟨output, resampled, length, unit⟩ := resampleLinear_ok monoSized fits monoUnit
    have near := resampledLength_near monoSized wave.sampleRate
    rw [← length, frames] at near
    simp only [bind, Except.bind, mixed, resampled]
    exact ⟨wave, rfl, frames ▸ length, near, unit⟩

end Rounds

section Raw

/-- A decoder of raw audio: it gives what it is given, three bytes at a time. -/
structure RawDecoder where
  told : Bool := false
  queued : List Int8 := []
  ended : Bool := false
  shown : List Int8 := []

def stereoFormat : MediaFormat where
  channelCount := some 2

def rawCodec : MediaCodec RawDecoder where
  createDecoderByType _ := .ok {}
  configure _ s := .ok s
  start s := .ok s
  dequeueInputBuffer s := .ok (0, s)
  getInputBuffer _ s := .ok (some 64, s)
  queueInputBuffer _ data _ flags s := .ok { s with queued := s.queued ++ data, ended := flags == endOfStreamFlag }
  dequeueOutputBuffer s :=
    if !s.told then .ok (outputFormatChanged, ⟨0, 0, 0⟩, { s with told := true })
    else if !s.queued.isEmpty then
      .ok (0, ⟨1, (s.queued.take 3).length, 0⟩, { s with shown := s.queued.take 3, queued := s.queued.drop 3 })
    else if s.ended then .ok (0, ⟨1, 0, endOfStreamFlag⟩, { s with shown := [], ended := false })
    else .ok (-1, ⟨0, 0, 0⟩, s)
  getOutputBuffer _ s := .ok (some (0 :: s.shown), s)
  releaseOutputBuffer _ s := .ok s
  outputFormat _ := .ok stereoFormat

def DecodesRaw (samples : List MediaSample) (bytes : List Int8) (formats : List MediaFormat) : Prop :=
  bytes = samples.flatMap MediaSample.data ∧ formats = [stereoFormat]

structure HoldsRaw (s : RawDecoder) (stage : Stage) : Prop where
  queued : stage.queued.flatMap MediaSample.data = stage.bytes ++ s.queued
  ended : s.ended = stage.ended
  formats : stage.formats = if s.told then [stereoFormat] else []

structure ShowsRaw (s : RawDecoder) (info : BufferInfo) (stage : Stage) : Prop where
  queued : stage.queued.flatMap MediaSample.data = stage.bytes ++ s.shown ++ s.queued
  told : s.told = true
  formats : stage.formats = [stereoFormat]
  offset : info.offset = 1
  size : info.size = s.shown.length
  ended : if info.endsStream then stage.ended = true ∧ s.queued = [] else s.ended = stage.ended

def rawCodec_conforms : Conforms rawCodec DecodesRaw where
  Holds := HoldsRaw
  Lends s _ stage := HoldsRaw s stage ∧ stage.ended = false
  Shows s _ info stage := ShowsRaw s info stage
  pending s := (!s.told).toNat + s.queued.length + s.ended.toNat
  perSample data := data.length + 1
  started creating configuring starting := by
    cases creating
    cases configuring
    cases starting
    exact ⟨rfl, rfl, rfl⟩
  busy holds ended := by
    rw [holds.ended, ended]
    exact Nat.succ_pos _
  dequeuesInput holds isOpen dequeued := by
    cases dequeued
    exact ⟨Nat.le_refl _, holds, isOpen⟩
  lends lends gotten := by
    cases gotten
    exact ⟨Nat.le_refl _, rfl, lends⟩
  queues := by
    intro s s' stage index sample lends queued
    cases queued
    obtain ⟨holds, isOpen⟩ := lends
    refine ⟨?_, ?_, ?_, holds.formats⟩
    · have added := Bool.toNat_le (0 == endOfStreamFlag)
      simp only [List.length_append]
      omega
    · rw [Stage.queue, List.flatMap_append, holds.queued, List.flatMap_singleton, List.append_assoc]
    · exact isOpen.symm
  closes := by
    intro s s' stage index lends queued
    cases queued
    obtain ⟨holds, isOpen⟩ := lends
    refine ⟨?_, ?_, rfl, holds.formats⟩
    · have added := Bool.toNat_le (endOfStreamFlag == endOfStreamFlag)
      simp only [List.append_nil, List.length_nil]
      omega
    · rw [List.append_nil]
      exact holds.queued
  dequeuesOutput := by
    intro s s' stage index info holds dequeued
    obtain ⟨told, queued, ended, shown⟩ := s
    obtain ⟨all, same, formats⟩ := holds
    cases told with
    | false =>
      cases dequeued
      refine ⟨by simp; omega, ?_⟩
      intro format reported
      cases reported
      exact ⟨all, same, by rw [Stage.report, formats]; rfl⟩
    | true =>
      cases queued with
      | cons first rest =>
        cases dequeued
        refine ⟨by simp, ?_⟩
        have goesOn (size : ℤ) : (BufferInfo.mk 1 size 0).endsStream = false := by simp [BufferInfo.endsStream]
        refine ⟨?_, rfl, formats, rfl, rfl, by rw [goesOn]; exact same⟩
        rw [List.append_assoc, List.take_append_drop]
        exact all
      | nil =>
        cases ended with
        | true =>
          cases dequeued
          exact ⟨by simp, by rw [all]; simp, rfl, formats, rfl, rfl, same.symm, rfl⟩
        | false =>
          cases dequeued
          exact ⟨by simp, all, same, formats⟩
  shows := by
    intro s s' stage index info buffer shows gotten
    cases gotten
    obtain ⟨all, told, formats, offset, size, ended⟩ := shows
    rw [offset, size]
    refine ⟨Nat.le_refl _, by decide, Int.natCast_nonneg _, _, rfl, by simp; omega, ?_⟩
    intro s'' released
    cases released
    refine ⟨Nat.le_refl _, ?_⟩
    have chunk : ((0 :: s.shown).drop (1 : ℤ).toNat).take (s.shown.length : ℤ).toNat = s.shown := by simp
    rw [chunk]
    dsimp only
    split at ended
    · rename_i ends
      rw [if_pos ends]
      refine ⟨ended.1, ?_, formats⟩
      rw [Stage.give, all, ended.2, List.append_nil]
    · rename_i goesOn
      rw [if_neg goesOn]
      exact ⟨all, ended, by rw [told]; exact formats⟩

def recorded : List MediaTrack := [
  { format := { mime := some (txt "video/avc") }, samples := [] },
  { format := { mime := some (txt "audio/raw"), sampleRate := some 8000 },
    samples := [⟨[1, 0, 2, 0], 0⟩, ⟨[3], 250⟩] }]

theorem decodeAudioToMono16kFloatArray_compressed_raw :
    ∃ enough, ∀ rounds, enough ≤ rounds →
      ∃ decoded, decodeCompressedAudioToPcm rawCodec (fun _ => .ok recorded) rounds [] = some decoded ∧
        CompressedAudio rawCodec DecodesRaw recorded [] decoded ∧
        Ends (fun thrown => decoded = .error thrown)
          (fun output => ∃ wave, decoded = .ok wave ∧ output.length = resampledLength (monoFrames wave) wave.sampleRate ∧
            NearQuotient (monoFrames wave) wave.sampleRate output.length ∧ ∀ sample ∈ output, InUnit sample)
          (decodeAudioToMono16kFloatArray (fun _ => decoded) [] []) := by
  refine decodeAudioToMono16kFloatArray_compressed rawCodec_conforms rfl (by decide) ?_
  intro track member pcmBytes formats decodes
  obtain ⟨rfl, rfl⟩ := decodes
  simp only [recorded, List.mem_cons, List.not_mem_nil, or_false] at member
  rcases member with rfl | rfl <;> decide +kernel

end Raw

end Transcription
