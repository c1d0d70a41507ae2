import TranscriptForm.Form.Grounding
import TranscriptForm.Form.WithoutLlm
import TranscriptForm.Transcription.OnDeviceWhisper
import TranscriptForm.ViewModel.FormCore

-- What reaches the form of what was heard, if the language model gives nothing.
namespace Form

open Kotlin OnDeviceLlm

variable [Platform]

namespace Ios

section Cleaning

variable {source : KString}

theorem normalizeCandidateForField_excerpt (basic : IsBasicText source) (field : FieldSpec) :
    Excerpt source (normalizeCandidateForField field source) := by
  have trimmed : Excerpt source (trim source) := .of_part basic (trim_part source)
  unfold normalizeCandidateForField
  split
  · exact trimmed
  · cases extracted : extractNameFromText source with
    | none => exact trimmed
    | some name =>
      change extractNameWith (cleanupNameUnless fun _ => false) _ = some name at extracted
      exact extractName_excerpt basic extracted

end Cleaning

def NoLlmAnswer (repository : OnDeviceLlmFormMappingRepository) (response : TranscriptionResponse) : Prop :=
  ∀ llm, llmOutcome repository response = .ok llm → sanitizedFor response llm = .empty

variable {repository : OnDeviceLlmFormMappingRepository} {response : TranscriptionResponse} {value : KString}
  (basic : BasicResponse response)
include basic

theorem answer_transcribed
    (keyword : repository.fallbackRepository = OnDeviceKeyword.mapTranscript repository.definition)
    (noLlm : NoLlmAnswer repository response) {data : TranscriptMappingResult}
    (success : mapTranscript repository response = .success data) {id : KString}
    (found : data.fieldAnswers.get? id = some value) : Android.Transcribed response value := by
  rcases mapTranscript_answers success with searched | ⟨llm, called, merged⟩
  · rw [searched, keyword] at found
    exact .inr (.inr (Android.searched_transcribed basic found).2)
  · have cuts : ∀ field source, IsBasicText source →
        Excerpt source (mergeRules.normalizeCandidateForField field source) := by
      intro field source own
      rw [mergeRules_normalize]
      exact normalizeCandidateForField_excerpt own field
    rw [merged, noLlm llm called, keyword] at found
    exact Android.merged_transcribed basic cuts (fun _ => false) found

theorem answers_transcribed
    (keyword : repository.fallbackRepository = OnDeviceKeyword.mapTranscript repository.definition)
    (noLlm : NoLlmAnswer repository response) {data : TranscriptMappingResult}
    (success : mapTranscript repository response = .success data) {id : KString}
    (found : data.fieldAnswers.get? id = some value) : Android.Transcribed response value :=
  answer_transcribed basic keyword noLlm success found

end Ios

section Response

open Transcription

variable {heard : List WhisperSegment} {response : TranscriptionResponse} {value : KString}

/-- Something was heard, in ASCII characters and German letters, and in lines that the bridges can render. -/
structure HeardWell (heard : List WhisperSegment) : Prop where
  renderable : ∀ segment ∈ heard, Renderable segment
  basic : ∀ segment ∈ heard, IsBasicText segment.text
  spoken : ∃ segment ∈ heard, isNotBlank segment.text = true

structure ResponseTo (heard : List WhisperSegment) (response : TranscriptionResponse) : Prop where
  text : response.text = spokenText heard
  segments : response.segments = spokenSegments heard
  words : response.words = []

/-- The key of the one label and of the text in it, and of the text again: all that a keyword search can read. -/
def heardKey (heard : List WhisperSegment) : KString :=
  txt "speaker00" ++ normalizeKey (spokenText heard) ++ normalizeKey (spokenText heard)

def FromHeard (heard : List WhisperSegment) (value : KString) : Prop := normalizeKey value <:+: heardKey heard

omit [Platform] in
theorem spokenSegments_members (heard : List WhisperSegment) : ∀ segment ∈ spokenSegments heard,
    segment.speaker = txt "SPEAKER_00" ∧ ∃ told ∈ heard, segment.text = trim told.text := by
  intro segment member
  obtain ⟨⟨told, index⟩, listed, rfl⟩ := List.mem_map.mp member
  exact ⟨rfl, told, (List.mem_filter.mp (List.fst_mem_of_mem_zipIdx listed)).1, rfl⟩

omit [Platform] in
theorem blocksFrom_one {speaker : KString} {lastEnd blockStart : ℚ} {segments : List TranscriptSegment}
    {texts : List KString} (some : texts ≠ []) (one : ∀ segment ∈ segments, segment.speaker = speaker) :
    TranscriptToFormMapper.blocksFrom lastEnd speaker texts blockStart segments =
      [⟨speaker, trim (joinToString (txt " ") (texts ++ segments.map fun segment => trim segment.text)), blockStart,
        lastEnd⟩] := by
  induction segments generalizing texts with
  | nil =>
    rw [TranscriptToFormMapper.blocksFrom, if_neg (by simpa using some), List.map_nil, List.append_nil]
  | cons segment segments ih =>
    obtain ⟨here, later⟩ := List.forall_mem_cons.mp one
    rw [TranscriptToFormMapper.blocksFrom, if_neg (not_not_intro here), ih (by simp) later, List.map_cons,
      List.append_assoc]
    rfl

theorem blocks_heard (made : ResponseTo heard response) (well : HeardWell heard) : ∃ startSeconds endSeconds,
    TranscriptToFormMapper.buildSpeakerBlocks response =
      [⟨txt "SPEAKER_00", spokenText heard, startSeconds, endSeconds⟩] := by
  have members := spokenSegments_members heard
  have joined := joinedText_spoken heard
  obtain ⟨first, rest, segments⟩ := List.exists_cons_of_ne_nil (spokenSegments_ne_nil well.spoken)
  unfold TranscriptToFormMapper.buildSpeakerBlocks
  rw [made.segments]
  rw [segments] at members joined ⊢
  obtain ⟨here, later⟩ := List.forall_mem_cons.mp members
  dsimp only
  rw [TranscriptToFormMapper.blocksFrom, if_neg (by simp),
    blocksFrom_one (by simp) fun segment member => ((later segment member).1).trans here.1.symm, ← joined, here.1]
  exact ⟨_, _, rfl⟩

theorem spokenText_basic (well : HeardWell heard) : IsBasicText (spokenText heard) := by
  apply basic_join
  · decide
  · intro part member
    obtain ⟨segment, kept, rfl⟩ := List.mem_map.mp member
    exact basic_part (well.basic segment (List.mem_filter.mp kept).1) (trim_part segment.text)

theorem ResponseTo.basic (made : ResponseTo heard response) (well : HeardWell heard) : BasicResponse response where
  text := made.text ▸ spokenText_basic well
  segments := by
    intro segment member
    rw [made.segments] at member
    obtain ⟨speaker, told, listed, text⟩ := spokenSegments_members heard segment member
    rw [speaker, text]
    exact ⟨basic_part (well.basic told listed) (trim_part told.text), by decide⟩
  words := by
    rw [made.words]
    simp

omit [Platform] in
theorem plain_heard (made : ResponseTo heard response) (said : isNotBlank (spokenText heard) = true) :
    transcriptTextPlain response (TranscriptToFormMapper.buildSpeakerBlocks response) = spokenText heard := by
  have notBlank : isBlank (spokenText heard) = false := by simpa [isNotBlank] using said
  simp only [transcriptTextPlain, made.text, ifBlank, notBlank, Bool.false_eq_true, if_false]

theorem spokenText_notBlank (well : HeardWell heard) : isNotBlank (spokenText heard) = true := by
  obtain ⟨segment, member, spoken⟩ := well.spoken
  have kept : segment ∈ heard.filter fun segment => isNotBlank segment.text := List.mem_filter.mpr ⟨member, spoken⟩
  have edged : Edged isWhitespace (spokenText heard) := by
    apply Edged.join (by simpa using List.ne_nil_of_mem kept)
    intro part listed
    obtain ⟨told, toldKept, rfl⟩ := List.mem_map.mp listed
    exact .of_trim (List.mem_filter.mp toldKept).2
  obtain ⟨c, rest, shape⟩ := List.exists_cons_of_ne_nil edged.nonempty
  have first := edged.first c (by rw [shape, List.head?_cons])
  rw [isNotBlank, Bool.not_eq_true', shape, isBlank, List.all_cons, first, Bool.false_and]

theorem keywordTranscript_heard (made : ResponseTo heard response) (well : HeardWell heard) :
    normalizeKey (OnDeviceKeyword.keywordTranscript response) <:+: heardKey heard := by
  obtain ⟨startSeconds, endSeconds, blocks⟩ := blocks_heard made well
  have said := spokenText_notBlank well
  have basic := spokenText_basic well
  have notBlank : isBlank response.text = false := by
    rw [made.text]
    simpa [isNotBlank] using said
  have speaker : ifBlank (txt "SPEAKER_00") (txt "Sprecher") = txt "SPEAKER_00" := by decide
  have read : OnDeviceKeyword.keywordTranscript response =
      txt "[SPEAKER_00]: " ++ spokenText heard ++ txt "\n" ++ spokenText heard := by
    rw [OnDeviceKeyword.keywordTranscript, if_neg (by simp [notBlank]), blocks, made.text, transcriptTextWithSpeakers,
      List.map_singleton, joinToString_single, labelledBlock]
    dsimp only
    rw [speaker]
    exact if_neg (by simp [txt])
  have label : IsBasicText (txt "[SPEAKER_00]: ") ∧ (txt "[SPEAKER_00]: ").flatMap keyPart = txt "speaker00" := by
    decide
  have newline : IsBasicText (txt "\n") ∧ (txt "\n").flatMap keyPart = [] := by decide
  rw [read, normalizeKey_keyParts (basic_append (basic_append (basic_append label.1 basic) newline.1) basic)]
  simp only [List.flatMap_append, label.2, newline.2, List.append_nil, ← normalizeKey_keyParts basic]
  exact List.infix_rfl

theorem transcribed_heard (made : ResponseTo heard response) (well : HeardWell heard)
    (transcribed : Android.Transcribed response value) : FromHeard heard value := by
  have spoken : normalizeKey (spokenText heard) <:+: heardKey heard := (List.suffix_append _ _).isInfix
  rcases transcribed with plain | ⟨block, member, text⟩ | keyword
  · rw [plain_heard made (spokenText_notBlank well)] at plain
    exact plain.trans spoken
  · obtain ⟨startSeconds, endSeconds, blocks⟩ := blocks_heard made well
    rw [blocks] at member
    rw [List.mem_singleton.mp member] at text
    exact text.trans spoken
  · exact keyword.trans (keywordTranscript_heard made well)

end Response

section Form

open Transcription

variable [DigitTable] {heard : List WhisperSegment} {response : TranscriptionResponse}

theorem android_responseTo {device : AndroidDevice} {modelPath audioFilePath : KString}
    (success : Transcription.Android.transcribe device modelPath audioFilePath = .success response)
    (well : HeardWell device.heard) : ResponseTo device.heard response := by
  obtain ⟨samples, _, rfl⟩ := Transcription.Android.transcribe_success success
  have parsed : Transcription.Android.parseWhisperSegments (trim (WhisperContext.transcribeData device.heard)) =
      spokenSegments device.heard := android_parse_transcribed well.renderable (trimmedLines_trim _)
  refine ⟨?_, ?_, rfl⟩
  · rw [Transcription.Android.responseOf_text well.renderable, if_pos (spokenSegments_ne_nil well.spoken)]
  · exact parsed

theorem ios_responseTo {bridge : IosWhisperBridge} {modelPath language audioFilePath : KString}
    (success : Transcription.Ios.transcribe bridge modelPath language audioFilePath = .success response)
    (bridged : bridge.transcribe modelPath audioFilePath language = IOSWhisperBridge.transcribeWithWhisperModule heard)
    (well : HeardWell heard) : ResponseTo heard response := by
  have text := (Transcription.Ios.transcribe_text_iff success bridged well.renderable).mpr well.spoken
  obtain ⟨_, rfl⟩ := Transcription.Ios.transcribe_success success
  have parsed : Transcription.Ios.parseWhisperSegments (trim (IOSWhisperBridge.transcribeWithWhisperModule heard)) =
      spokenSegments heard := ios_parse_bridged well.renderable (trimmedLines_trim _)
  refine ⟨text, ?_, rfl⟩
  have some := spokenSegments_ne_nil well.spoken
  rw [bridged]
  simp only [Transcription.Ios.responseOf, parsed]
  rw [if_pos (by simpa using some)]

omit [Platform] [DigitTable] in
theorem completeMapping_entries (job : MappingJob) (result : AppResult TranscriptMappingResult) (durationMs : Nat)
    (s : FormSystem) {entry : FormEntry}
    (member : entry ∈ (FormViewModel.completeMapping job result durationMs s).uiState.entries) :
    entry ∈ s.uiState.entries ∨ ∃ data, result = .success data ∧
      data.fieldAnswers.get? entry.question.id = some entry.answer.value := by
  have core := congrArg FormCore.entries (completeMapping_core job result durationMs s)
  change (FormViewModel.completeMapping job result durationMs s).uiState.entries = _ at core
  rw [core] at member
  cases result with
  | error message cause => exact .inl member
  | success data =>
    obtain ⟨before, listed, rfl⟩ := List.mem_map.mp member
    unfold FormViewModel.prefill
    split
    · rename_i prefilled found
      split
      · exact .inr ⟨data, rfl, found⟩
      · exact .inl listed
    · exact .inl listed

/-- From the recording into the form: without an answer of the language model, whatever whisper.cpp heard, each entry is
    left as it was or holds a part of what was heard. -/
theorem android_entries_heard {repository : OnDeviceLlmFormMappingRepository} {device : AndroidDevice}
    {modelPath audioFilePath : KString}
    (success : Transcription.Android.transcribe device modelPath audioFilePath = .success response)
    (well : HeardWell device.heard)
    (keyword : repository.fallbackRepository = OnDeviceKeyword.mapTranscript repository.definition)
    (noLlm : Android.NoLlmAnswer repository response) (job : MappingJob) (durationMs : Nat) (s : FormSystem) :
    ∀ entry ∈ (FormViewModel.completeMapping job (Android.mapTranscript repository response) durationMs s).uiState.entries,
      entry ∈ s.uiState.entries ∨ FromHeard device.heard entry.answer.value := by
  intro entry member
  have made := android_responseTo success well
  rcases completeMapping_entries job _ durationMs s member with kept | ⟨data, mapped, found⟩
  · exact .inl kept
  · exact .inr (transcribed_heard made well (Android.answer_transcribed (made.basic well) keyword noLlm mapped found))

theorem ios_entries_heard {repository : OnDeviceLlmFormMappingRepository} {bridge : IosWhisperBridge}
    {modelPath language audioFilePath : KString}
    (success : Transcription.Ios.transcribe bridge modelPath language audioFilePath = .success response)
    (bridged : bridge.transcribe modelPath audioFilePath language = IOSWhisperBridge.transcribeWithWhisperModule heard)
    (well : HeardWell heard)
    (keyword : repository.fallbackRepository = OnDeviceKeyword.mapTranscript repository.definition)
    (noLlm : Ios.NoLlmAnswer repository response) (job : MappingJob) (durationMs : Nat) (s : FormSystem) :
    ∀ entry ∈ (FormViewModel.completeMapping job (Ios.mapTranscript repository response) durationMs s).uiState.entries,
      entry ∈ s.uiState.entries ∨ FromHeard heard entry.answer.value := by
  intro entry member
  have made := ios_responseTo success bridged well
  rcases completeMapping_entries job _ durationMs s member with kept | ⟨data, mapped, found⟩
  · exact .inl kept
  · exact .inr (transcribed_heard made well (Ios.answer_transcribed (made.basic well) keyword noLlm mapped found))

end Form

section Sample

open Transcription

omit [Platform]

def heardSample : List WhisperSegment :=
  [⟨0, 300, txt " Ich heiße Jürgen. Der Akku war leer."⟩, ⟨300, 500, txt " "⟩, ⟨500, 700, txt " Ich habe viel gelernt."⟩]

theorem heardSample_well : letI := basicPlatform
    HeardWell heardSample := by
  let := basicPlatform
  refine ⟨renderable_of_all (by decide) (by decide), ?_, ⟨_, List.mem_cons_self, by decide⟩⟩
  intro segment member
  simp only [heardSample, List.mem_cons, List.not_mem_nil, or_false] at member
  rcases member with rfl | rfl | rfl <;> decide +kernel

def sampleBridge : IosWhisperBridge where
  transcribe _ _ _ := IOSWhisperBridge.transcribeWithWhisperModule heardSample
  lastErrorMessage := []

def sampleSystem : FormSystem :=
  FormViewModel.create ⟨DefaultFormDefinitionProvider.questions, some ⟨true, true⟩⟩ ⟨true, true, false⟩

def sampleJob : MappingJob := ⟨0, {}, .onDevice, 0, none⟩

def formHeard (mapTranscript : FormMappingRepository) : AppResult TranscriptionResponse → FormSystem
  | .success response => FormViewModel.completeMapping sampleJob (mapTranscript response) 0 sampleSystem
  | .error _ _ => sampleSystem

theorem android_entries_heard_sample : letI := basicPlatform
    letI := asciiDigits
    ∃ response, Transcription.Android.transcribe (sampleDevice heardSample) (txt "ggml-base.bin") (txt "a.wav") =
        .success response ∧
      (∀ entry ∈ (FormViewModel.completeMapping sampleJob (Android.mapTranscript Android.engineless response) 0
        sampleSystem).uiState.entries, entry ∈ sampleSystem.uiState.entries ∨ FromHeard heardSample entry.answer.value) ∧
      (FormViewModel.completeMapping sampleJob (Android.mapTranscript Android.engineless response) 0
        sampleSystem).uiState.entries.map (fun entry => entry.answer.value) =
          [txt "Jürgen", txt "SPEAKER_00]: Ich heiße Jürgen.", txt "Ich habe viel gelernt."] := by
  let := basicPlatform
  let := asciiDigits
  have filled : (formHeard (Android.mapTranscript Android.engineless) (Transcription.Android.transcribe
      (sampleDevice heardSample) (txt "ggml-base.bin") (txt "a.wav"))).uiState.entries.map
        (fun entry => entry.answer.value) =
          [txt "Jürgen", txt "SPEAKER_00]: Ich heiße Jürgen.", txt "Ich habe viel gelernt."] := by decide +kernel
  obtain ⟨response, success⟩ : ∃ response, Transcription.Android.transcribe (sampleDevice heardSample)
      (txt "ggml-base.bin") (txt "a.wav") = .success response := ⟨_, rfl⟩
  have noLlm : Android.NoLlmAnswer Android.engineless response := by
    intro llm outcome
    cases outcome
    rfl
  rw [success] at filled
  exact ⟨response, success, android_entries_heard success heardSample_well rfl noLlm sampleJob 0 sampleSystem, filled⟩

theorem ios_entries_heard_sample : letI := basicPlatform
    letI := asciiDigits
    ∃ response, Transcription.Ios.transcribe sampleBridge (txt "ggml-base.bin") (txt "de") (txt "a.wav") =
        .success response ∧
      (∀ entry ∈ (FormViewModel.completeMapping sampleJob (Ios.mapTranscript Android.engineless response) 0
        sampleSystem).uiState.entries, entry ∈ sampleSystem.uiState.entries ∨ FromHeard heardSample entry.answer.value) ∧
      (FormViewModel.completeMapping sampleJob (Ios.mapTranscript Android.engineless response) 0
        sampleSystem).uiState.entries.map (fun entry => entry.answer.value) =
          [txt "Jürgen", txt "[SPEAKER_00]: Ich heiße Jürgen.", txt "Ich habe viel gelernt."] := by
  let := basicPlatform
  let := asciiDigits
  have filled : (formHeard (Ios.mapTranscript Android.engineless) (Transcription.Ios.transcribe
      sampleBridge (txt "ggml-base.bin") (txt "de") (txt "a.wav"))).uiState.entries.map
        (fun entry => entry.answer.value) =
          [txt "Jürgen", txt "[SPEAKER_00]: Ich heiße Jürgen.", txt "Ich habe viel gelernt."] := by decide +kernel
  have path : isNotBlank (txt "a.wav") = true := by decide
  have told : isNotBlank (trim (IOSWhisperBridge.transcribeWithWhisperModule heardSample)) = true := by decide +kernel
  obtain ⟨response, success⟩ : ∃ response, Transcription.Ios.transcribe sampleBridge (txt "ggml-base.bin") (txt "de")
      (txt "a.wav") = .success response := by
    simp only [Transcription.Ios.transcribe, sampleBridge, require, path, told, if_true]
    exact ⟨_, rfl⟩
  have noLlm : Ios.NoLlmAnswer Android.engineless response := by
    intro llm outcome
    cases outcome
    rfl
  rw [success] at filled
  exact ⟨response, success, ios_entries_heard success rfl heardSample_well rfl noLlm sampleJob 0 sampleSystem, filled⟩

theorem answers_transcribed_spoken : letI := basicPlatform
    ∃ data, Ios.mapTranscript Android.engineless Android.spokenResponse = .success data ∧
      ∀ id value, data.fieldAnswers.get? id = some value → Android.Transcribed Android.spokenResponse value := by
  let := basicPlatform
  have noLlm : Ios.NoLlmAnswer Android.engineless Android.spokenResponse := by
    intro llm outcome
    cases outcome
    rfl
  have learned : (answersOf (Ios.mapTranscript Android.engineless Android.spokenResponse)).get? (txt "learning") =
      some (txt "Ich habe viel gelernt.") := by decide +kernel
  cases result : Ios.mapTranscript Android.engineless Android.spokenResponse with
  | error message cause =>
    rw [result] at learned
    cases learned
  | success data => exact ⟨data, rfl, fun id value found => Ios.answers_transcribed Android.spokenResponse_basic rfl noLlm result found⟩

end Sample

end Form
