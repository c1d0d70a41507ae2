import TranscriptForm.Transcription.WhisperLines

namespace Transcription

open Kotlin Form

def require (condition : Bool) (message : KString) : Except Throwable Unit :=
  if condition then .ok () else .error ⟨some message⟩

/-- `segments.joinToString(" ") { it.text.trim() }.trim()` -/
def joinedText (segments : List TranscriptSegment) : KString :=
  trim (joinToString (txt " ") (segments.map fun segment => trim segment.text))

/-- What a call of the Android repository finds on its device, and what whisper.cpp hears in the samples. -/
structure AndroidDevice where
  /-- `exists() && isFile && canRead()` -/
  isReadable : KString → Bool
  absolutePath : KString → KString
  /-- `parentFile?.let { File(it, name) }` -/
  inSameFolder : KString → KString → Option KString
  decodeAudioToMono16kFloatArray : KString → Except Throwable (List ℚ)
  /-- Whether `initContext` gives a context. -/
  initContext : KString → Bool
  heard : List WhisperSegment

namespace Android

def resolveReadableModelFile (device : AndroidDevice) (modelPath : KString) : Except Throwable KString :=
  if device.isReadable modelPath then .ok modelPath
  else
    match device.inSameFolder modelPath (txt "ggml-base.bin") with
    | some fallback =>
      if device.isReadable fallback then .ok fallback
      else .error ⟨some (txt "Whisper model file nicht lesbar: " ++ device.absolutePath modelPath ++ txt ", " ++
        device.absolutePath fallback)⟩
    | none => .error ⟨some (txt "Whisper model file nicht lesbar: " ++ device.absolutePath modelPath)⟩

def createContextFromFile (device : AndroidDevice) (filePath : KString) : Except Throwable Unit :=
  require (device.initContext filePath) (txt "Couldn't create context with path " ++ filePath)

variable [Platform] [DigitTable]

def responseOf (samples : List ℚ) (transcribed : KString) : TranscriptionResponse :=
  let raw := trim transcribed
  let segments := parseWhisperSegments raw
  let plainText := if !segments.isEmpty then joinedText segments else raw
  { text := plainText, language := txt "de", duration := samples.length / 16000, segments := segments, words := [] }

/-- `transcribe` of a call that is not cancelled. -/
def transcribe (device : AndroidDevice) (modelPath audioFilePath : KString) : AppResult TranscriptionResponse :=
  runCatchingResult do
    let modelFile ← resolveReadableModelFile device modelPath
    require (device.isReadable audioFilePath) (txt "Audio-Datei nicht lesbar: " ++ audioFilePath)
    let samples ← device.decodeAudioToMono16kFloatArray audioFilePath
    require (!samples.isEmpty) (txt "Audio-Datei enthaelt keine Samples")
    createContextFromFile device (device.absolutePath modelFile)
    return responseOf samples (WhisperContext.transcribeData device.heard)

end Android

structure IosWhisperBridge where
  transcribe : KString → KString → KString → KString
  lastErrorMessage : KString

namespace Ios

variable [Platform] [DigitTable]

def responseOf (language raw : KString) : TranscriptionResponse :=
  let segments := parseWhisperSegments raw
  let normalizedSegments : List TranscriptSegment :=
    if !segments.isEmpty then segments else [{ id := 0, text := raw, speaker := txt "SPEAKER_00" }]
  { text := joinedText normalizedSegments
    language := language
    duration := (normalizedSegments.map TranscriptSegment.endSeconds).max?.getD 0
    segments := normalizedSegments
    words := [] }

def transcribe (bridge : IosWhisperBridge) (modelPath language audioFilePath : KString) :
    AppResult TranscriptionResponse :=
  runCatchingResult do
    require (isNotBlank audioFilePath) (txt "Audio-Datei-Pfad ist leer")
    let raw := trim (bridge.transcribe modelPath audioFilePath language)
    let bridgeError := trim bridge.lastErrorMessage
    require (isNotBlank raw)
      (if isNotBlank bridgeError then txt "Lokale Whisper-Transkription lieferte keine Ausgabe: " ++ bridgeError
      else txt "Lokale Whisper-Transkription lieferte keine Ausgabe")
    return responseOf language raw

end Ios

def spokenText (segments : List WhisperSegment) : KString :=
  joinToString (txt " ") ((segments.filter fun segment => isNotBlank segment.text).map fun segment => trim segment.text)

/-- The text of a response is what was said, and blank where nothing was. -/
structure SpeechOnly (segments : List WhisperSegment) (response : TranscriptionResponse) : Prop where
  text : response.text = spokenText segments
  blank : (∀ segment ∈ segments, isBlank segment.text = true) → isBlank response.text = true

section Joined

theorem spokenFrom_texts (n : Nat) (segments : List WhisperSegment) :
    ((spokenFrom n segments).map fun segment => trim segment.text) =
      (segments.filter fun segment => isNotBlank segment.text).map fun segment => trim segment.text := by
  rw [spokenFrom]
  generalize segments.filter (fun segment => isNotBlank segment.text) = spoken
  induction spoken generalizing n with
  | nil => rfl
  | cons segment spoken ih =>
    rw [List.zipIdx_cons, List.map_cons, List.map_cons, List.map_cons, ih, trim_trim]

theorem joinedText_spoken (segments : List WhisperSegment) : joinedText (spokenSegments segments) = spokenText segments := by
  rw [joinedText, spokenSegments, spokenFrom_texts, ← spokenText]
  by_cases none : (segments.filter fun segment => isNotBlank segment.text) = []
  · rw [spokenText, none]
    rfl
  · have edged : Edged isWhitespace (spokenText segments) := by
      apply Edged.join (by simpa using none)
      intro part member
      obtain ⟨segment, kept, rfl⟩ := List.mem_map.mp member
      exact .of_trim (List.mem_filter.mp kept).2
    exact trimBy_id edged.first edged.last

theorem spokenSegments_nil {segments : List WhisperSegment} (silent : ∀ segment ∈ segments, isBlank segment.text = true) :
    spokenSegments segments = [] ∧ spokenText segments = [] := by
  have none : (segments.filter fun segment => isNotBlank segment.text) = [] := by
    rw [List.filter_eq_nil_iff]
    intro segment member
    simp [isNotBlank, silent segment member]
  exact ⟨by rw [spokenSegments, spokenFrom, none]; rfl, by rw [spokenText, none]; rfl⟩

theorem spokenSegments_ne_nil {segments : List WhisperSegment}
    (spoken : ∃ segment ∈ segments, isNotBlank segment.text = true) : spokenSegments segments ≠ [] := by
  obtain ⟨segment, member, text⟩ := spoken
  have kept : segment ∈ segments.filter fun segment => isNotBlank segment.text := List.mem_filter.mpr ⟨member, text⟩
  simp only [spokenSegments, spokenFrom, ne_eq, List.map_eq_nil_iff, List.zipIdx_eq_nil_iff]
  exact List.ne_nil_of_mem kept

end Joined

section Responses

theorem transcribeData_ne_blank (segments : List WhisperSegment) (some : segments ≠ []) :
    trim (WhisperContext.transcribeData segments) ≠ [] := by
  obtain ⟨segment, segments, rfl⟩ := List.exists_cons_of_ne_nil some
  intro empty
  have blank : isBlank (WhisperContext.transcribeData (segment :: segments)) = true := by
    rw [← isBlank_trim, empty]
    rfl
  have bracket : isWhitespace (ch '[') = true := (isBlank_iff _).mp blank (ch '[') List.mem_cons_self
  exact absurd bracket (by decide)

theorem bind_ok {α β : Type} {block : Except Throwable α} {next : α → Except Throwable β} {result : β}
    (returned : block >>= next = .ok result) : ∃ value, block = .ok value ∧ next value = .ok result := by
  cases block with
  | error thrown => cases returned
  | ok value => exact ⟨value, rfl, returned⟩

theorem runCatchingResult_success {α : Type} {block : Except Throwable α} {data : α}
    (success : runCatchingResult block = .success data) : block = .ok data := by
  cases block with
  | error thrown => cases success
  | ok value =>
    cases success
    rfl

variable [Platform] [DigitTable] {response : TranscriptionResponse}

theorem Android.transcribe_success {device : AndroidDevice} {modelPath audioFilePath : KString}
    (success : Android.transcribe device modelPath audioFilePath = .success response) :
    ∃ samples, device.decodeAudioToMono16kFloatArray audioFilePath = .ok samples ∧
      response = Android.responseOf samples (WhisperContext.transcribeData device.heard) := by
  obtain ⟨modelFile, _, later⟩ := bind_ok (runCatchingResult_success success)
  obtain ⟨_, _, later⟩ := bind_ok later
  obtain ⟨samples, decoded, later⟩ := bind_ok later
  obtain ⟨_, _, later⟩ := bind_ok later
  obtain ⟨_, _, later⟩ := bind_ok later
  cases later
  exact ⟨samples, decoded, rfl⟩

theorem Ios.transcribe_success {bridge : IosWhisperBridge} {modelPath language audioFilePath : KString}
    (success : Ios.transcribe bridge modelPath language audioFilePath = .success response) :
    isNotBlank (trim (bridge.transcribe modelPath audioFilePath language)) = true ∧
      response = Ios.responseOf language (trim (bridge.transcribe modelPath audioFilePath language)) := by
  obtain ⟨_, _, later⟩ := bind_ok (runCatchingResult_success success)
  obtain ⟨_, nonblank, later⟩ := bind_ok later
  cases later
  refine ⟨?_, rfl⟩
  by_contra blank
  rw [require, if_neg blank] at nonblank
  cases nonblank

variable {segments : List WhisperSegment}

theorem Android.responseOf_text (renderable : ∀ segment ∈ segments, Renderable segment) (samples : List ℚ) :
    (Android.responseOf samples (WhisperContext.transcribeData segments)).text =
      if spokenSegments segments ≠ [] then spokenText segments else trim (WhisperContext.transcribeData segments) := by
  have parsed : Android.parseWhisperSegments (trim (WhisperContext.transcribeData segments)) = spokenSegments segments :=
    android_parse_transcribed renderable (trimmedLines_trim _)
  simp only [Android.responseOf, parsed]
  by_cases silent : spokenSegments segments = []
  · rw [silent]
    rfl
  · rw [if_pos silent, if_pos (by simpa using silent), joinedText_spoken]

/-- Exactly when no time is taken for speech: something was said, or nothing was heard. -/
theorem transcribe_speechOnly_iff {device : AndroidDevice} {modelPath audioFilePath : KString}
    (success : Android.transcribe device modelPath audioFilePath = .success response)
    (renderable : ∀ segment ∈ device.heard, Renderable segment) :
    SpeechOnly device.heard response ↔
      device.heard = [] ∨ ∃ segment ∈ device.heard, isNotBlank segment.text = true := by
  obtain ⟨samples, _, rfl⟩ := Android.transcribe_success success
  have text := Android.responseOf_text renderable samples
  constructor
  · intro speech
    by_contra neither
    push Not at neither
    obtain ⟨heard, silent⟩ := neither
    have blank : ∀ segment ∈ device.heard, isBlank segment.text = true := by
      intro segment member
      simpa [isNotBlank] using silent segment member
    obtain ⟨none, nothing⟩ := spokenSegments_nil blank
    rw [none, if_neg (not_not_intro rfl), speech.text, nothing] at text
    exact transcribeData_ne_blank device.heard heard text.symm
  · intro either
    have spoken : (Android.responseOf samples (WhisperContext.transcribeData device.heard)).text =
        spokenText device.heard := by
      rcases either with none | spoken
      · rw [text, none]
        rfl
      · rw [text, if_pos (spokenSegments_ne_nil spoken)]
    refine ⟨spoken, fun blank => ?_⟩
    rw [spoken, (spokenSegments_nil blank).2]
    rfl

/-- The iOS bridge leaves such segments out, up to texts of control characters that only Kotlin trims. -/
theorem Ios.transcribe_text_iff {bridge : IosWhisperBridge} {modelPath language audioFilePath : KString}
    (success : Ios.transcribe bridge modelPath language audioFilePath = .success response)
    (bridged : bridge.transcribe modelPath audioFilePath language =
      IOSWhisperBridge.transcribeWithWhisperModule segments)
    (renderable : ∀ segment ∈ segments, Renderable segment) :
    response.text = spokenText segments ↔ ∃ segment ∈ segments, isNotBlank segment.text = true := by
  obtain ⟨nonblank, rfl⟩ := Ios.transcribe_success success
  rw [bridged] at nonblank ⊢
  have parsed : Ios.parseWhisperSegments (trim (IOSWhisperBridge.transcribeWithWhisperModule segments)) =
      spokenSegments segments := ios_parse_bridged renderable (trimmedLines_trim _)
  simp only [Ios.responseOf, parsed]
  constructor
  · intro text
    by_contra none
    push Not at none
    have blank : ∀ segment ∈ segments, isBlank segment.text = true := by
      intro segment member
      simpa [isNotBlank] using none segment member
    obtain ⟨silent, nothing⟩ := spokenSegments_nil blank
    rw [silent, nothing] at text
    simp only [List.isEmpty_nil, Bool.not_true, Bool.false_eq_true, if_false, joinedText, List.map_cons, List.map_nil,
      joinToString_single, trim_trim] at text
    rw [text] at nonblank
    cases nonblank
  · intro spoken
    have some := spokenSegments_ne_nil spoken
    rw [if_pos (by simpa using some), joinedText_spoken]

end Responses

section Sample

def sampleDevice (heard : List WhisperSegment) : AndroidDevice where
  isReadable _ := true
  absolutePath path := path
  inSameFolder _ name := some name
  decodeAudioToMono16kFloatArray _ := .ok [0]
  initContext _ := true
  heard := heard

def silentSegments : List WhisperSegment := [⟨0, 100, txt " "⟩]

theorem transcribe_speechOnly_sample :
    letI := basicPlatform
    letI := asciiDigits
    SpeechOnly sampleSegments (Android.responseOf [0] (WhisperContext.transcribeData sampleSegments)) := by
  let _ := basicPlatform
  let _ := asciiDigits
  have success : Android.transcribe (sampleDevice sampleSegments) (txt "ggml-base.bin") (txt "a.wav") =
      .success (Android.responseOf [0] (WhisperContext.transcribeData sampleSegments)) := rfl
  exact (transcribe_speechOnly_iff success (renderable_of_all (by decide) (by decide))).mpr
    (Or.inr ⟨⟨359999, 360001, txt "Anna"⟩, by simp [sampleDevice, sampleSegments], by decide⟩)

theorem times_transcribed :
    letI := basicPlatform
    letI := asciiDigits
    ∃ response, Android.transcribe (sampleDevice silentSegments) (txt "ggml-base.bin") (txt "a.wav") = .success response ∧
      (∀ segment ∈ silentSegments, Renderable segment) ∧
      response.text = txt "[00:00:00.000 --> 00:00:01.000]:" ∧ ¬ SpeechOnly silentSegments response := by
  let _ := basicPlatform
  let _ := asciiDigits
  have renderable : ∀ segment ∈ silentSegments, Renderable segment := renderable_of_all (by decide) (by decide)
  have blank : ∀ segment ∈ silentSegments, isBlank segment.text = true := by
    intro segment member
    rw [List.mem_singleton.mp member]
    rfl
  have text := Android.responseOf_text renderable [0]
  rw [(spokenSegments_nil blank).1, if_neg (not_not_intro rfl)] at text
  have times : trim (WhisperContext.transcribeData silentSegments) = txt "[00:00:00.000 --> 00:00:01.000]:" := by decide
  rw [times] at text
  refine ⟨Android.responseOf [0] (WhisperContext.transcribeData silentSegments), rfl, renderable, text, ?_⟩
  intro speech
  rw [speech.text, (spokenSegments_nil blank).2] at text
  exact absurd text (by decide)

end Sample

end Transcription
