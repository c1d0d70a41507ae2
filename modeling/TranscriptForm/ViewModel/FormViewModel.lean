import TranscriptForm.Form.Models
import TranscriptForm.Library.Runs

namespace Form

open Kotlin

structure FormUiState where
  entries : List FormEntry := []
  speakerBlocks : List SpeakerBlock := []
  isMappingLoading : Bool := false
  mappingError : Option KString := none
  mappingSourceError : Option KString := none
  mappingLogs : List KString := []
  automationMode : FormAutomationMode := .cloud
  supportsOnDeviceMapping : Bool := false
  isOnDeviceLlmModelConfigured : Bool := false
  isOnDeviceLlmModelReady : Bool := false
  isOnDeviceLlmModelLoading : Bool := false
  isLlmTestRunning : Bool := false
  llmTestSuccess : Option Bool := none
  onDeviceOrthographyCorrectionEnabled : Bool := true
  isSubmitting : Bool := false
  submitError : Option KString := none
  isSubmitted : Bool := false
  deriving DecidableEq

def FormUiState.isValid (state : FormUiState) : Bool :=
  state.entries.all fun entry => !entry.question.required || isNotBlank entry.answer.value

/-- The optional interfaces the on-device repository implements. -/
structure OnDeviceRepository where
  isConfigurable : Bool
  isModelStatusProvider : Bool
  deriving DecidableEq

structure Wiring where
  definition : FormDefinition
  onDeviceMappingRepository : Option OnDeviceRepository
  deriving DecidableEq

structure ModelStatus where
  configured : Bool
  ready : Bool
  loading : Bool
  deriving DecidableEq

/-- What the worker decided: the repository it took the transcript to, and the
    orthography setting that repository had when its `mapTranscript` read it. -/
structure MappingRoute where
  repository : FormAutomationMode
  orthographyCorrection : Bool
  deriving DecidableEq

/-- A launched mapping: what it captured on the main thread, how many resets came
    before it, and its route once the worker has chosen one. -/
structure MappingJob where
  id : Nat
  transcript : TranscriptionResponse
  mode : FormAutomationMode
  resets : Nat
  route : Option MappingRoute := none
  deriving DecidableEq

/-- What happened so far, for statements about runs. No operation reads it. -/
structure FormHistory where
  delivered : Option TranscriptionResponse := none
  lastMapping : Option MappingJob := none
  submitted : Option (List FormAnswer) := none
  resets : Nat := 0
  logged : List KString := []
  deriving DecidableEq

/-- The view model, its running coroutines and the repository settings it writes. -/
structure FormSystem where
  wiring : Wiring
  modelStatus : ModelStatus
  uiState : FormUiState := {}
  lastTranscript : Option TranscriptionResponse := none
  repositoryOrthography : Bool := true
  modeCallbacks : List FormAutomationMode := []
  mappings : List MappingJob := []
  llmTests : List Nat := []
  warmups : List Nat := []
  nextMapping : Nat := 0
  nextLlmTest : Nat := 0
  nextWarmup : Nat := 0
  history : FormHistory := {}
  deriving DecidableEq

namespace FormViewModel

def maxLogEntries : Nat := 16

def number (n : Nat) : KString := txt (toString n)

def update (s : FormSystem) (f : FormUiState → FormUiState) : FormSystem := { s with uiState := f s.uiState }

def takeLast {α : Type} (n : Nat) (l : List α) : List α := l.drop (l.length - n)

def appendLog (message : KString) (s : FormSystem) : FormSystem :=
  { s with
    uiState := { s.uiState with mappingLogs := takeLast maxLogEntries (s.uiState.mappingLogs ++ [message]) }
    history := { s.history with logged := s.history.logged ++ [message] } }

def hasModelStatusProvider (s : FormSystem) : Bool :=
  s.wiring.onDeviceMappingRepository.any OnDeviceRepository.isModelStatusProvider

def isOnDeviceLlmModelReady (s : FormSystem) : Bool := hasModelStatusProvider s && s.modelStatus.ready

def isOnDeviceLlmModelConfigured (s : FormSystem) : Bool :=
  hasModelStatusProvider s && s.modelStatus.configured

def isOnDeviceLlmModelLoading (s : FormSystem) : Bool := hasModelStatusProvider s && s.modelStatus.loading

def refreshOnDeviceLlmModelReady (s : FormSystem) : FormSystem :=
  update s fun current => { current with
    isOnDeviceLlmModelConfigured := isOnDeviceLlmModelConfigured s
    isOnDeviceLlmModelReady := isOnDeviceLlmModelReady s
    isOnDeviceLlmModelLoading := isOnDeviceLlmModelLoading s }

def warmupOnDeviceModelIfNeeded (s : FormSystem) : FormSystem :=
  if !hasModelStatusProvider s then s
  else if !isOnDeviceLlmModelConfigured s then s
  else if s.modelStatus.ready then s
  else
    { s with
      uiState := { s.uiState with isOnDeviceLlmModelLoading := true }
      warmups := s.warmups ++ [s.nextWarmup]
      nextWarmup := s.nextWarmup + 1 }

/-- `onDeviceConfigurableRepository?.setOrthographyCorrectionEnabled(enabled)` -/
def configureRepository (enabled : Bool) (s : FormSystem) : FormSystem :=
  if s.wiring.onDeviceMappingRepository.any OnDeviceRepository.isConfigurable then
    { s with repositoryOrthography := enabled }
  else s

def onAutomationModeChanged (mode : FormAutomationMode) (s : FormSystem) : FormSystem :=
  { s with modeCallbacks := s.modeCallbacks ++ [mode] }

def transcriptDebug (response : TranscriptionResponse) : KString :=
  let nonBlankSegmentCount := response.segments.countP fun segment => isNotBlank segment.text
  let nonBlankWordCount := response.words.countP fun word => isNotBlank word.word
  txt "Transkript-Debug: textLen=" ++ number (trim response.text).length ++
    txt ", segments=" ++ number response.segments.length ++ txt ", segText=" ++
    number nonBlankSegmentCount ++ txt ", words=" ++ number nonBlankWordCount

def announceMapping (response : TranscriptionResponse) (s : FormSystem) : FormSystem :=
  let mode := s.uiState.automationMode
  let s := appendLog (txt "Mapping-Start: mode=" ++ mode.name) s
  let s := if mode = .onDevice then refreshOnDeviceLlmModelReady s else s
  let s := appendLog (transcriptDebug response) s
  appendLog
    (if s.uiState.automationMode = .onDevice then txt "Starte On-Device-Mapping..."
      else txt "Starte Cloud-Mapping...") s

/-- The mapping leaves the main thread with the mode it captured. -/
def beginMapping (response : TranscriptionResponse) (mode : FormAutomationMode) (s : FormSystem) : FormSystem :=
  let job : MappingJob := ⟨s.nextMapping, response, mode, s.history.resets, none⟩
  { s with
    uiState := { s.uiState with
      isMappingLoading := true
      mappingError := none
      mappingSourceError := none
      isSubmitting := false
      submitError := none
      isSubmitted := false }
    mappings := s.mappings ++ [job]
    nextMapping := s.nextMapping + 1
    history := { s.history with lastMapping := some job } }

/-- The launched block up to `withContext`. -/
def launchMapping (response : TranscriptionResponse) (s : FormSystem) : FormSystem :=
  beginMapping response s.uiState.automationMode (announceMapping response s)

def applyTranscript (response : TranscriptionResponse) (s : FormSystem) : FormSystem :=
  if s.uiState.isMappingLoading then s
  else launchMapping response { s with lastTranscript := some response }

/-- `lastTranscript?.let { applyTranscript(it) }` -/
def applyLastTranscript (s : FormSystem) : FormSystem :=
  match s.lastTranscript with
  | some response => applyTranscript response s
  | none => s

def activeRepository (s : FormSystem) : FormAutomationMode :=
  match s.uiState.automationMode with
  | .cloud => .cloud
  | .onDevice => if s.wiring.onDeviceMappingRepository.isSome then .onDevice else .cloud

/-- The worker takes the repository of the mode it reads now, and the repository
    reads its own setting first thing. -/
def routeMapping (id : Nat) (s : FormSystem) : FormSystem :=
  let route : MappingRoute := ⟨activeRepository s, s.repositoryOrthography⟩
  let send (job : MappingJob) : MappingJob := if job.id = id then { job with route := some route } else job
  { s with
    mappings := s.mappings.map send
    history := { s.history with lastMapping := s.history.lastMapping.map send } }

def isFallbackStrategy (strategy : MappingStrategy) : Bool :=
  strategy == .heuristicFallback || strategy == .unknown

def mappingSource : MappingStrategy → KString
  | .cloudLlm => txt "Mapping-Quelle: LLM-Mapping (Cloud)"
  | .onDeviceLlm => txt "Mapping-Quelle: LLM-Mapping (On Device)"
  | .mixed => txt "Mapping-Quelle: LLM + Heuristik/Fallback"
  | .heuristicFallback => txt "Mapping-Quelle: Heuristik/Fallback"
  | .unknown => txt "Mapping-Quelle: Unbekannt"

def onDeviceStatusMessage (result : TranscriptMappingResult) : KString :=
  let llmReasonSuffix :=
    if isNullOrBlank result.llmFailureReason then [] else txt ": " ++ result.llmFailureReason.getD []
  if !result.llmAttempted && !isNullOrBlank result.llmFailureReason then
    txt "On-Device: LLM nicht gestartet" ++ llmReasonSuffix
  else if !result.llmAttempted then txt "On-Device: LLM nicht gestartet"
  else if result.llmReturnedAnswers && result.mappingStrategy == .onDeviceLlm then
    txt "On-Device: LLM aufgerufen und genutzt"
  else if result.llmReturnedAnswers && result.mappingStrategy == .mixed then
    txt "On-Device: LLM aufgerufen, Antwort mit Fallback/Heuristik gemerged"
  else if result.llmReturnedAnswers && isFallbackStrategy result.mappingStrategy then
    txt "On-Device: LLM aufgerufen, Antwort verworfen" ++ llmReasonSuffix
  else if result.llmAttempted && !result.llmReturnedAnswers then
    txt "On-Device: LLM aufgerufen, aber keine nutzbare Antwort" ++ llmReasonSuffix
  else txt "On-Device: Status unklar"

def logOnDeviceStatus (result : TranscriptMappingResult) (s : FormSystem) : FormSystem :=
  let s := appendLog
    (if result.mappingStrategy = .cloudLlm then txt "On-Device: Cloud-LLM Rueckfall"
      else onDeviceStatusMessage result) s
  if result.llmAttempted && isFallbackStrategy result.mappingStrategy then
    appendLog (txt "On-Device: Finale Zuordnung aus Fallback/Heuristik") s
  else s

def sourceErrorMessage (mode : FormAutomationMode) (result : TranscriptMappingResult) : Option KString :=
  if mode = .onDevice ∧ isFallbackStrategy result.mappingStrategy ∧ !isNullOrBlank result.llmFailureReason then
    some (txt "LLM-Mapping nicht moeglich: " ++ result.llmFailureReason.getD [])
  else none

/-- A non-blank answer of the mapping replaces the entry's, any other leaves it. -/
def prefill (fieldAnswers : Answers) (entry : FormEntry) : FormEntry :=
  match fieldAnswers.get? entry.question.id with
  | some prefilled =>
    if isNotBlank prefilled then { entry with answer := { entry.answer with value := prefilled } } else entry
  | none => entry

def logSuccess (mode : FormAutomationMode) (durationMs : Nat) (result : TranscriptMappingResult)
    (s : FormSystem) : FormSystem :=
  let s := appendLog (txt "Transkript-Debug: speakerBlocks=" ++ number result.speakerBlocks.length) s
  let s := appendLog (mappingSource result.mappingStrategy) s
  let s := if mode = .onDevice then logOnDeviceStatus result s else s
  let sourceError := sourceErrorMessage mode result
  let s := if isNullOrBlank sourceError then s else appendLog (sourceError.getD []) s
  let s := appendLog
    (if result.fieldAnswers.isEmpty then
        txt "Mapping abgeschlossen: keine automatische Feldzuordnung erkannt"
      else txt "Mapping abgeschlossen: " ++ number result.fieldAnswers.size ++ txt " Feld(er) befuellt") s
  appendLog (txt "Mapping-Ende: " ++ number durationMs ++ txt "ms") s

def mappingSucceeded (mode : FormAutomationMode) (durationMs : Nat) (result : TranscriptMappingResult)
    (s : FormSystem) : FormSystem :=
  update (logSuccess mode durationMs result s) fun current => { current with
    isMappingLoading := false
    mappingError := none
    mappingSourceError := sourceErrorMessage mode result
    speakerBlocks := result.speakerBlocks
    entries := current.entries.map (prefill result.fieldAnswers) }

/-- The ASCII letter a character equals when case is ignored: `ſ`, the Kelvin
    sign and the dotted and dotless i count too. -/
def ignoreCase (c : KChar) : KChar :=
  if ch 'A' ≤ c ∧ c ≤ ch 'Z' then c + 32
  else if c = 0x17F then ch 's'
  else if c = 0x212A then ch 'k'
  else if c = 0x130 ∨ c = 0x131 then ch 'i'
  else c

def mappingFailed (durationMs : Nat) (message : KString) (s : FormSystem) : FormSystem :=
  let s := appendLog (txt "Mapping fehlgeschlagen: " ++ message) s
  let s := appendLog (txt "Mapping-Ende (Fehler): " ++ number durationMs ++ txt "ms") s
  let uiMessage :=
    if contains (message.map ignoreCase) (txt "transkript ist leer") then
      txt "Kein Transkriptinhalt erkannt. Bitte Aufnahme und On-Device-Transkription pruefen."
    else txt "Mapping fehlgeschlagen: " ++ message
  update s fun current => { current with
    isMappingLoading := false
    mappingError := some uiMessage
    mappingSourceError := none }

/-- The launched block after `withContext`, back on the main thread. -/
def completeMapping (job : MappingJob) (result : AppResult TranscriptMappingResult) (durationMs : Nat)
    (s : FormSystem) : FormSystem :=
  let s := { s with mappings := s.mappings.eraseP fun other => other.id == job.id }
  match result with
  | .success data => mappingSucceeded job.mode durationMs data s
  | .error message _ => mappingFailed durationMs message s

/-- What `setAutomationMode` does first for the on-device mode. -/
def prepareOnDevice (s : FormSystem) : FormSystem :=
  let s := warmupOnDeviceModelIfNeeded (refreshOnDeviceLlmModelReady s)
  configureRepository s.uiState.onDeviceOrthographyCorrectionEnabled s

def setAutomationMode (mode : FormAutomationMode) (s : FormSystem) : FormSystem :=
  if s.uiState.automationMode = mode then s
  else if mode = .onDevice ∧ s.wiring.onDeviceMappingRepository.isNone then s
  else
    let s := appendLog
      (if mode = .onDevice then txt "Automatisierung: On Device" else txt "Automatisierung: Cloud") s
    let s := if mode = .onDevice then prepareOnDevice s else s
    let s := update s fun current => { current with
      automationMode := mode
      mappingError := none
      mappingSourceError := none
      isLlmTestRunning := false
      llmTestSuccess := none }
    applyLastTranscript (onAutomationModeChanged mode s)

def setAnswer (questionId value : KString) (entry : FormEntry) : FormEntry :=
  if entry.question.id = questionId then { entry with answer := { entry.answer with value := value } } else entry

def updateAnswer (questionId value : KString) (s : FormSystem) : FormSystem :=
  update s fun current => { current with
    entries := current.entries.map (setAnswer questionId value)
    submitError := none
    isSubmitted := false }

def canSubmit (s : FormSystem) : Bool := s.uiState.isValid && !s.uiState.isSubmitting

def submitForm (s : FormSystem) : FormSystem :=
  if !canSubmit s then s
  else
    let s := update s fun current => { current with isSubmitting := true, submitError := none }
    let s := update s fun current => { current with
      isSubmitting := false, isSubmitted := true, submitError := none }
    appendLog (txt "Formular abgesendet")
      { s with history := { s.history with submitted := some (s.uiState.entries.map FormEntry.answer) } }

def runOnDeviceLlmTest (s : FormSystem) : FormSystem :=
  if !hasModelStatusProvider s then s
  else if s.uiState.automationMode ≠ .onDevice then s
  else if !s.uiState.supportsOnDeviceMapping then s
  else if s.uiState.isLlmTestRunning then s
  else
    let s := appendLog (txt "LLM-Test gestartet") s
    { s with
      uiState := { s.uiState with isLlmTestRunning := true, llmTestSuccess := none }
      llmTests := s.llmTests ++ [s.nextLlmTest]
      nextLlmTest := s.nextLlmTest + 1 }

def completeLlmTest (id : Nat) (result : AppResult Unit) (s : FormSystem) : FormSystem :=
  let s := { s with llmTests := s.llmTests.erase id }
  match result with
  | .success _ =>
    update (appendLog (txt "LLM-Test erfolgreich") s) fun current => { current with
      isLlmTestRunning := false, llmTestSuccess := some true }
  | .error message _ =>
    update (appendLog (txt "LLM-Test fehlgeschlagen: " ++ message) s) fun current => { current with
      isLlmTestRunning := false, llmTestSuccess := some false }

def completeWarmup (id : Nat) (result : AppResult Unit) (s : FormSystem) : FormSystem :=
  let s := { s with warmups := s.warmups.erase id }
  let s := appendLog
    (match result with
      | .success _ => txt "LLM-Model geladen und bereit"
      | .error message _ => txt "LLM-Model laden fehlgeschlagen: " ++ message) s
  refreshOnDeviceLlmModelReady s

def setOnDeviceOrthographyCorrectionEnabled (enabled : Bool) (s : FormSystem) : FormSystem :=
  let s := update s fun current => { current with
    onDeviceOrthographyCorrectionEnabled := enabled
    mappingError := none
    mappingSourceError := none }
  let s := appendLog
    (if enabled then txt "On-Device Rechtschreibkorrektur: AN" else txt "On-Device Rechtschreibkorrektur: AUS") s
  let s := configureRepository enabled s
  if s.uiState.automationMode = .onDevice then applyLastTranscript s else s

def clearAnswer (entry : FormEntry) : FormEntry := { entry with answer := { entry.answer with value := [] } }

def reset (s : FormSystem) : FormSystem :=
  let s := { s with
    uiState := { s.uiState with
      entries := s.uiState.entries.map clearAnswer
      speakerBlocks := []
      isMappingLoading := false
      mappingError := none
      mappingSourceError := none
      mappingLogs := []
      automationMode := .cloud
      isOnDeviceLlmModelReady := isOnDeviceLlmModelReady s
      isOnDeviceLlmModelLoading := false
      isLlmTestRunning := false
      llmTestSuccess := none
      onDeviceOrthographyCorrectionEnabled := true
      isSubmitting := false
      submitError := none
      isSubmitted := false }
    history := { s.history with resets := s.history.resets + 1, logged := [] } }
  let s := onAutomationModeChanged .cloud s
  { s with lastTranscript := none }

/-- The constructor with its `init` block. -/
def create (wiring : Wiring) (modelStatus : ModelStatus) : FormSystem :=
  let s : FormSystem := { wiring := wiring, modelStatus := modelStatus }
  let s := update s fun _ =>
    { entries := wiring.definition.map fun question => ⟨question, ⟨question.id, []⟩⟩
      supportsOnDeviceMapping := wiring.onDeviceMappingRepository.isSome
      isOnDeviceLlmModelConfigured := isOnDeviceLlmModelConfigured s
      isOnDeviceLlmModelReady := isOnDeviceLlmModelReady s
      isOnDeviceLlmModelLoading := isOnDeviceLlmModelLoading s }
  if wiring.onDeviceMappingRepository.isSome then
    warmupOnDeviceModelIfNeeded (refreshOnDeviceLlmModelReady s)
  else s

end FormViewModel

/-- The public operations, each one piece on the main thread, and what happens
    around them: the steps of launched coroutines and changes of the model's status. -/
inductive FormEvent
  | applyTranscript (response : TranscriptionResponse)
  | setAutomationMode (mode : FormAutomationMode)
  | updateAnswer (questionId value : KString)
  | submitForm
  | runOnDeviceLlmTest
  | setOnDeviceOrthographyCorrectionEnabled (enabled : Bool)
  | reset
  | mappingRouted (id : Nat)
  | mappingCompleted (id : Nat) (result : AppResult TranscriptMappingResult) (durationMs : Nat)
  | llmTestCompleted (id : Nat) (result : AppResult Unit)
  | warmupCompleted (id : Nat) (result : AppResult Unit)
  | modelStatusChanged (status : ModelStatus)
  deriving DecidableEq

open FormViewModel in
/-- One event. A coroutine step happens only for a coroutine that is at that point. -/
def FormSystem.step (s : FormSystem) : FormEvent → Option FormSystem
  | .applyTranscript response =>
    some (FormViewModel.applyTranscript response
      { s with history := { s.history with delivered := some response } })
  | .setAutomationMode mode => some (FormViewModel.setAutomationMode mode s)
  | .updateAnswer questionId value => some (FormViewModel.updateAnswer questionId value s)
  | .submitForm => some (FormViewModel.submitForm s)
  | .runOnDeviceLlmTest => some (FormViewModel.runOnDeviceLlmTest s)
  | .setOnDeviceOrthographyCorrectionEnabled enabled =>
    some (FormViewModel.setOnDeviceOrthographyCorrectionEnabled enabled s)
  | .reset => some (FormViewModel.reset s)
  | .mappingRouted id =>
    if s.mappings.any fun job => job.id == id && job.route.isNone then some (routeMapping id s) else none
  | .mappingCompleted id result durationMs =>
    match s.mappings.find? fun job => job.id == id && job.route.isSome with
    | some job => some (completeMapping job result durationMs s)
    | none => none
  | .llmTestCompleted id result => if id ∈ s.llmTests then some (completeLlmTest id result s) else none
  | .warmupCompleted id result => if id ∈ s.warmups then some (completeWarmup id result s) else none
  | .modelStatusChanged status => some { s with modelStatus := status }

abbrev FormRun (wiring : Wiring) (status : ModelStatus) :=
  Transition.Run FormSystem.step (FormViewModel.create wiring status)

end Form
