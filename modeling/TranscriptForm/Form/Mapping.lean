import TranscriptForm.Form.Evidence
import TranscriptForm.Form.Keyword
import TranscriptForm.Form.LlmAnswers
import TranscriptForm.Form.Prompt

namespace Form

open Kotlin

/-- What the engine returns or throws, call by call. -/
abbrev OnDeviceLlmEngine := Nat → PromptBundle → Except Throwable KString

structure OnDeviceLlmFormMappingRepository where
  definition : FormDefinition
  json : JsonParser
  llmEngine : Option OnDeviceLlmEngine
  fallbackRepository : FormMappingRepository
  orthographyCorrectionEnabled : Bool := true

structure LlmOutcome where
  llmAnswers : Answers := .empty
  llmFailureReason : Option KString := none
  llmAttempted : Bool := false

namespace OnDeviceLlm

def transcriptTextPlain (response : TranscriptionResponse) (speakerBlocks : List SpeakerBlock) : KString :=
  let transcriptTextFromSegments := trim (joinToString (txt " ") (response.segments.map fun segment => trim segment.text))
  let transcriptTextFromWords := trim (joinToString (txt " ") (response.words.map fun word => trim word.word))
  ifBlank response.text
    (if isNotBlank transcriptTextFromSegments then transcriptTextFromSegments
      else if !speakerBlocks.isEmpty then trim (joinToString (txt " ") (speakerBlocks.map fun block => trim block.text))
      else transcriptTextFromWords)

def transcriptForHeuristics (response : TranscriptionResponse) : KString :=
  let speakerBlocks := TranscriptToFormMapper.buildSpeakerBlocks response
  let plain := transcriptTextPlain response speakerBlocks
  if isNotBlank plain then plain else transcriptTextWithSpeakers speakerBlocks

def transcriptForLlmSource (response : TranscriptionResponse) : KString :=
  let speakerBlocks := TranscriptToFormMapper.buildSpeakerBlocks response
  let withSpeakers := transcriptTextWithSpeakers speakerBlocks
  if isNotBlank withSpeakers then withSpeakers else transcriptTextPlain response speakerBlocks

def noEngine : LlmOutcome where
  llmFailureReason := some (txt "Keine On-Device-LLM-Engine verfuegbar (Bridge/Modell nicht initialisiert).")

def callFailed (thrown : Throwable) : KString :=
  txt "LLM-Aufruf fehlgeschlagen: " ++ thrown.message.getD (txt "unbekannter Fehler")

def noSchema : KString := txt "LLM-Antwort war leer oder nicht im erwarteten JSON-Schema."

def answersOf (result : AppResult TranscriptMappingResult) : Answers :=
  match result with
  | .success data => data.fieldAnswers
  | .error _ _ => .empty

def effectiveLlmFailureReason (mappingStrategy : MappingStrategy) (llmFailureReason : Option KString) :
    Option KString :=
  match mappingStrategy with
  | .onDeviceLlm | .mixed | .cloudLlm => none
  | .heuristicFallback | .unknown => llmFailureReason

/-- The result a merge is reported as. `discarded` is the reason given when answers
    came but none of them was kept. -/
def reportMerge (speakerBlocks : List SpeakerBlock) (llm : LlmOutcome) (sanitizedLlmAnswers : Answers)
    (discarded : KString) (outcome : MergeOutcome) : TranscriptMappingResult :=
  let llmFailureReason :=
    if !llm.llmAnswers.isEmpty && sanitizedLlmAnswers.isEmpty && isNullOrBlank llm.llmFailureReason then some discarded
    else llm.llmFailureReason
  let mappingStrategy := mappingStrategyOf outcome.usedSources
  { speakerBlocks := speakerBlocks
    fieldAnswers := outcome.answers
    mappingStrategy := mappingStrategy
    llmFailureReason := effectiveLlmFailureReason mappingStrategy llmFailureReason
    llmAttempted := llm.llmAttempted
    llmReturnedAnswers := !sanitizedLlmAnswers.isEmpty }

end OnDeviceLlm

section Said

open OnDeviceLlm

def NothingSaid (response : TranscriptionResponse) : Prop :=
  isBlank (transcriptTextPlain response (TranscriptToFormMapper.buildSpeakerBlocks response)) = true ∧
    isBlank (transcriptTextWithSpeakers (TranscriptToFormMapper.buildSpeakerBlocks response)) = true

theorem nothingSaid_iff {response : TranscriptionResponse} : NothingSaid response ↔
    (isBlank (transcriptTextPlain response (TranscriptToFormMapper.buildSpeakerBlocks response)) &&
      isBlank (transcriptTextWithSpeakers (TranscriptToFormMapper.buildSpeakerBlocks response))) = true := by
  rw [Bool.and_eq_true]
  exact Iff.rfl

end Said

variable [Platform]

namespace Android

open OnDeviceLlm

def heuristicAnswersFor (definition : FormDefinition) (response : TranscriptionResponse) : Answers :=
  extractHeuristicAnswers extractNameFromText (fieldSpecs definition) (transcriptForHeuristics response)
    (TranscriptToFormMapper.buildSpeakerBlocks response)

def chunkPrompt (repository : OnDeviceLlmFormMappingRepository) (response : TranscriptionResponse)
    (questions : List FormQuestion) : PromptBundle :=
  let focusedTranscript := buildFocusedTranscript repository.definition questions (transcriptForLlmSource response)
    (heuristicAnswersFor repository.definition response)
  buildCompactPrompt questions focusedTranscript repository.orthographyCorrectionEnabled

def chunkStep (repository : OnDeviceLlmFormMappingRepository) (engine : OnDeviceLlmEngine)
    (response : TranscriptionResponse) (llm : LlmOutcome) (chunk : List FormQuestion × Nat) :
    Except Throwable LlmOutcome :=
  match engine chunk.2 (chunkPrompt repository response chunk.1) with
  | .error thrown => .ok { llm with llmFailureReason := some (callFailed thrown), llmAttempted := true }
  | .ok raw =>
    match extractAnswers repository.json repository.definition raw with
    | .error thrown => .error thrown
    | .ok extracted =>
      if extracted.isEmpty then
        let llmFailureReason := if isNullOrBlank llm.llmFailureReason then some noSchema else llm.llmFailureReason
        .ok { llm with llmFailureReason := llmFailureReason, llmAttempted := true }
      else .ok { llm with llmAnswers := llm.llmAnswers.putAll extracted.entries, llmAttempted := true }

def llmOutcome (repository : OnDeviceLlmFormMappingRepository) (response : TranscriptionResponse) :
    Except Throwable LlmOutcome :=
  match repository.llmEngine with
  | none => .ok noEngine
  | some engine =>
    (buildQuestionGroups repository.definition).zipIdx.foldlM (chunkStep repository engine response) {}

def primaryMapping (repository : OnDeviceLlmFormMappingRepository) (response : TranscriptionResponse) :
    Except Throwable TranscriptMappingResult :=
  let speakerBlocks := TranscriptToFormMapper.buildSpeakerBlocks response
  let withSpeakers := transcriptTextWithSpeakers speakerBlocks
  let plain := transcriptTextPlain response speakerBlocks
  if isBlank plain && isBlank withSpeakers then
    match repository.fallbackRepository response with
    | .success data => .ok data
    | .error _ _ => .ok { speakerBlocks := speakerBlocks, fieldAnswers := .empty }
  else
    let heuristicAnswers := heuristicAnswersFor repository.definition response
    let fallbackAnswers := answersOf (repository.fallbackRepository response)
    match llmOutcome repository response with
    | .error thrown => .error thrown
    | .ok llm =>
      let sanitizedLlmAnswers := sanitizeLlmAnswers llm.llmAnswers
      .ok (reportMerge speakerBlocks llm sanitizedLlmAnswers (txt "LLM-Antwort wurde als unbrauchbar verworfen.")
        (mergeAnswersPerField repository.definition ⟨sanitizedLlmAnswers, heuristicAnswers, fallbackAnswers⟩))

def mapTranscript (repository : OnDeviceLlmFormMappingRepository) : FormMappingRepository := fun response =>
  match runCatchingResult (primaryMapping repository response) with
  | .success data => .success data
  | .error message cause =>
    match repository.fallbackRepository response with
    | .success data =>
      if data.fieldAnswers.isEmpty then .error message cause
      else .success { data with llmFailureReason := some message }
    | .error _ _ => .error message cause

/-- What a mapping was made of: the fallback where there was nothing to read or reading an answer threw, or a merge. -/
theorem mapTranscript_cases {repository : OnDeviceLlmFormMappingRepository} {response : TranscriptionResponse}
    {data : TranscriptMappingResult} (success : mapTranscript repository response = .success data) :
    (∃ thrown found, ¬ NothingSaid response ∧ llmOutcome repository response = .error thrown ∧
      repository.fallbackRepository response = .success found ∧ ∃ reason, data = { found with llmFailureReason := some reason }) ∨
    (NothingSaid response ∧ (repository.fallbackRepository response = .success data ∨
      ∃ message cause, repository.fallbackRepository response = .error message cause ∧
        data = { speakerBlocks := TranscriptToFormMapper.buildSpeakerBlocks response, fieldAnswers := .empty })) ∨
    ∃ llm, ¬ NothingSaid response ∧ llmOutcome repository response = .ok llm ∧
      data = reportMerge (TranscriptToFormMapper.buildSpeakerBlocks response) llm (sanitizeLlmAnswers llm.llmAnswers)
        (txt "LLM-Antwort wurde als unbrauchbar verworfen.") (mergeAnswersPerField repository.definition
          ⟨sanitizeLlmAnswers llm.llmAnswers, heuristicAnswersFor repository.definition response,
            answersOf (repository.fallbackRepository response)⟩) := by
  unfold mapTranscript at success
  cases outcome : primaryMapping repository response with
  | error thrown =>
    unfold primaryMapping at outcome
    dsimp only at outcome
    split at outcome
    · split at outcome <;> cases outcome
    · rename_i spoken
      split at outcome
      · rename_i failed called
        have threw : primaryMapping repository response = .error failed := by
          unfold primaryMapping
          dsimp only
          rw [if_neg spoken, called]
        rw [threw] at success
        left
        cases searched : repository.fallbackRepository response with
        | error message cause =>
          rw [searched] at success
          cases success
        | success found =>
          simp only [runCatchingResult, searched] at success
          split at success
          · cases success
          · cases success
            exact ⟨failed, found, mt nothingSaid_iff.mp spoken, called, rfl, _, rfl⟩
      · cases outcome
  | ok primary =>
    rw [outcome] at success
    cases success
    unfold primaryMapping at outcome
    dsimp only at outcome
    split at outcome
    · rename_i nothing
      right
      left
      refine ⟨nothingSaid_iff.mpr nothing, ?_⟩
      cases searched : repository.fallbackRepository response with
      | error message cause =>
        rw [searched] at outcome
        cases outcome
        exact .inr ⟨message, cause, rfl, rfl⟩
      | success found =>
        rw [searched] at outcome
        cases outcome
        exact .inl rfl
    · rename_i spoken
      split at outcome
      · cases outcome
      · rename_i llm called
        cases outcome
        exact .inr (.inr ⟨llm, mt nothingSaid_iff.mp spoken, called, rfl⟩)

theorem mapTranscript_answers {repository : OnDeviceLlmFormMappingRepository} {response : TranscriptionResponse}
    {data : TranscriptMappingResult} (success : mapTranscript repository response = .success data) :
    data.fieldAnswers = answersOf (repository.fallbackRepository response) ∨
      ∃ llm, llmOutcome repository response = .ok llm ∧ data.fieldAnswers = (mergeAnswersPerField repository.definition
        ⟨sanitizeLlmAnswers llm.llmAnswers, heuristicAnswersFor repository.definition response,
          answersOf (repository.fallbackRepository response)⟩).answers := by
  rcases mapTranscript_cases success with ⟨_, found, _, _, searched, _, rfl⟩ |
    ⟨_, searched | ⟨_, _, searched, rfl⟩⟩ | ⟨llm, _, called, rfl⟩
  · exact .inl (by rw [searched]; rfl)
  · exact .inl (by rw [searched]; rfl)
  · exact .inl (by rw [searched]; rfl)
  · exact .inr ⟨llm, called, rfl⟩

end Android

namespace Ios

open OnDeviceLlm

def emptyTranscript : Throwable := ⟨some (txt "Transkript ist leer (kein text/segments/words)")⟩

def heuristicAnswersFor (definition : FormDefinition) (response : TranscriptionResponse) : Answers :=
  extractHeuristicAnswers extractNameFromText (fieldSpecs definition) (transcriptForHeuristics response)
    (TranscriptToFormMapper.buildSpeakerBlocks response)

def llmOutcome (repository : OnDeviceLlmFormMappingRepository) (response : TranscriptionResponse) :
    Except Throwable LlmOutcome :=
  match repository.llmEngine with
  | none => .ok noEngine
  | some engine =>
    let prompt := buildPrompt repository.definition (transcriptForLlmSource response)
      repository.orthographyCorrectionEnabled
    match engine 0 prompt with
    | .error thrown => .ok { llmFailureReason := some (callFailed thrown), llmAttempted := true }
    | .ok raw =>
      match extractAnswers repository.json repository.definition raw with
      | .error thrown => .error thrown
      | .ok extracted =>
        .ok { llmAnswers := extracted, llmFailureReason := if extracted.isEmpty then some noSchema else none
              llmAttempted := true }

def primaryMapping (repository : OnDeviceLlmFormMappingRepository) (response : TranscriptionResponse) :
    Except Throwable TranscriptMappingResult :=
  let speakerBlocks := TranscriptToFormMapper.buildSpeakerBlocks response
  let withSpeakers := transcriptTextWithSpeakers speakerBlocks
  let plain := transcriptTextPlain response speakerBlocks
  if isBlank plain && isBlank withSpeakers then
    match repository.fallbackRepository response with
    | .success data => if data.fieldAnswers.isEmpty then .error emptyTranscript else .ok data
    | .error _ _ => .error emptyTranscript
  else
    let transcriptEvidenceText := if isNotBlank plain then plain else withSpeakers
    let heuristicAnswers := heuristicAnswersFor repository.definition response
    match llmOutcome repository response with
    | .error thrown => .error thrown
    | .ok llm =>
      let fallbackAnswers := answersOf (repository.fallbackRepository response)
      let sanitizedLlmAnswers :=
        filterLlmAnswersByTranscriptEvidence (sanitizeLlmAnswers llm.llmAnswers) transcriptEvidenceText
      .ok (reportMerge speakerBlocks llm sanitizedLlmAnswers
        (txt "LLM-Antwort enthielt Inhalte, die im Transkript nicht belegbar waren.")
        (mergeAnswersPerField repository.definition ⟨sanitizedLlmAnswers, heuristicAnswers, fallbackAnswers⟩))

def mapTranscript (repository : OnDeviceLlmFormMappingRepository) : FormMappingRepository := fun response =>
  match runCatchingResult (primaryMapping repository response) with
  | .success data => .success data
  | .error message cause =>
    match repository.fallbackRepository response with
    | .success data => if data.fieldAnswers.isEmpty then .error message cause else .success data
    | .error _ _ => .error message cause

def sanitizedFor (response : TranscriptionResponse) (llm : LlmOutcome) : Answers :=
  filterLlmAnswersByTranscriptEvidence (sanitizeLlmAnswers llm.llmAnswers) (transcriptForHeuristics response)

theorem mapTranscript_cases {repository : OnDeviceLlmFormMappingRepository} {response : TranscriptionResponse}
    {data : TranscriptMappingResult} (success : mapTranscript repository response = .success data) :
    (repository.fallbackRepository response = .success data ∧ (NothingSaid response ∨
      ¬ NothingSaid response ∧ ∃ thrown, llmOutcome repository response = .error thrown)) ∨
    ∃ llm, ¬ NothingSaid response ∧ llmOutcome repository response = .ok llm ∧
      data = reportMerge (TranscriptToFormMapper.buildSpeakerBlocks response) llm (sanitizedFor response llm)
        (txt "LLM-Antwort enthielt Inhalte, die im Transkript nicht belegbar waren.")
        (mergeAnswersPerField repository.definition
          ⟨sanitizedFor response llm, heuristicAnswersFor repository.definition response,
            answersOf (repository.fallbackRepository response)⟩) := by
  unfold mapTranscript at success
  cases outcome : primaryMapping repository response with
  | error thrown =>
    have why : NothingSaid response ∨ ¬ NothingSaid response ∧ ∃ thrown, llmOutcome repository response = .error thrown := by
      unfold primaryMapping at outcome
      dsimp only at outcome
      split at outcome
      · rename_i nothing
        exact .inl (nothingSaid_iff.mpr nothing)
      · rename_i spoken
        split at outcome
        · rename_i failed called
          exact .inr ⟨mt nothingSaid_iff.mp spoken, failed, called⟩
        · cases outcome
    rw [outcome] at success
    left
    cases searched : repository.fallbackRepository response with
    | error message cause =>
      rw [searched] at success
      cases success
    | success found =>
      simp only [runCatchingResult, searched] at success
      split at success
      · cases success
      · cases success
        exact ⟨rfl, why⟩
  | ok primary =>
    rw [outcome] at success
    cases success
    unfold primaryMapping at outcome
    dsimp only at outcome
    split at outcome
    · rename_i nothing
      left
      cases searched : repository.fallbackRepository response with
      | error message cause =>
        rw [searched] at outcome
        cases outcome
      | success found =>
        simp only [searched] at outcome
        split at outcome
        · cases outcome
        · cases outcome
          exact ⟨rfl, .inl (nothingSaid_iff.mpr nothing)⟩
    · rename_i spoken
      split at outcome
      · cases outcome
      · rename_i llm called
        cases outcome
        exact .inr ⟨llm, mt nothingSaid_iff.mp spoken, called, rfl⟩

theorem mapTranscript_answers {repository : OnDeviceLlmFormMappingRepository} {response : TranscriptionResponse}
    {data : TranscriptMappingResult} (success : mapTranscript repository response = .success data) :
    data.fieldAnswers = answersOf (repository.fallbackRepository response) ∨
      ∃ llm, llmOutcome repository response = .ok llm ∧ data.fieldAnswers = (mergeAnswersPerField repository.definition
        ⟨sanitizedFor response llm, heuristicAnswersFor repository.definition response,
          answersOf (repository.fallbackRepository response)⟩).answers := by
  rcases mapTranscript_cases success with ⟨searched, _⟩ | ⟨llm, _, called, rfl⟩
  · exact .inl (by rw [searched]; rfl)
  · exact .inr ⟨llm, called, rfl⟩

end Ios

end Form
