import TranscriptForm.ViewModel.FormViewModel

namespace Form

open Kotlin

/-- The view model without its logs, messages and model status: the form, the
    settings a mapping depends on, and the mappings under way. -/
structure FormCore where
  hasOnDevice : Bool
  isConfigurable : Bool
  entries : List FormEntry
  speakerBlocks : List SpeakerBlock
  loading : Bool
  mode : FormAutomationMode
  orthography : Bool
  repositoryOrthography : Bool
  submitting : Bool
  submitted : Bool
  lastTranscript : Option TranscriptionResponse
  mappings : List MappingJob
  nextMapping : Nat
  delivered : Option TranscriptionResponse
  lastMapping : Option MappingJob
  submittedAnswers : Option (List FormAnswer)
  resets : Nat

def FormSystem.core (s : FormSystem) : FormCore where
  hasOnDevice := s.wiring.onDeviceMappingRepository.isSome
  isConfigurable := s.wiring.onDeviceMappingRepository.any OnDeviceRepository.isConfigurable
  entries := s.uiState.entries
  speakerBlocks := s.uiState.speakerBlocks
  loading := s.uiState.isMappingLoading
  mode := s.uiState.automationMode
  orthography := s.uiState.onDeviceOrthographyCorrectionEnabled
  repositoryOrthography := s.repositoryOrthography
  submitting := s.uiState.isSubmitting
  submitted := s.uiState.isSubmitted
  lastTranscript := s.lastTranscript
  mappings := s.mappings
  nextMapping := s.nextMapping
  delivered := s.history.delivered
  lastMapping := s.history.lastMapping
  submittedAnswers := s.history.submitted
  resets := s.history.resets

namespace FormCore

def initial (wiring : Wiring) : FormCore where
  hasOnDevice := wiring.onDeviceMappingRepository.isSome
  isConfigurable := wiring.onDeviceMappingRepository.any OnDeviceRepository.isConfigurable
  entries := wiring.definition.map fun question => ⟨question, ⟨question.id, []⟩⟩
  speakerBlocks := []
  loading := false
  mode := .cloud
  orthography := true
  repositoryOrthography := true
  submitting := false
  submitted := false
  lastTranscript := none
  mappings := []
  nextMapping := 0
  delivered := none
  lastMapping := none
  submittedAnswers := none
  resets := 0

def start (response : TranscriptionResponse) (c : FormCore) : FormCore :=
  let job : MappingJob := ⟨c.nextMapping, response, c.mode, c.resets, none⟩
  { c with
    loading := true, submitting := false, submitted := false
    mappings := c.mappings ++ [job], nextMapping := c.nextMapping + 1, lastMapping := some job }

def apply (response : TranscriptionResponse) (c : FormCore) : FormCore :=
  if c.loading then c else { c with lastTranscript := some response }.start response

def remap (c : FormCore) : FormCore :=
  match c.lastTranscript with
  | some response => c.apply response
  | none => c

def configure (enabled : Bool) (c : FormCore) : FormCore :=
  if c.isConfigurable then { c with repositoryOrthography := enabled } else c

def setMode (mode : FormAutomationMode) (c : FormCore) : FormCore :=
  if c.mode = mode then c
  else if mode = .onDevice ∧ c.hasOnDevice = false then c
  else
    let c := if mode = .onDevice then c.configure c.orthography else c
    { c with mode := mode }.remap

def setOrthography (enabled : Bool) (c : FormCore) : FormCore :=
  let c := { c with orthography := enabled }.configure enabled
  if c.mode = .onDevice then c.remap else c

def isValid (c : FormCore) : Bool :=
  c.entries.all fun entry => !entry.question.required || isNotBlank entry.answer.value

def submit (c : FormCore) : FormCore :=
  if c.isValid && !c.submitting then
    { c with submitting := false, submitted := true, submittedAnswers := some (c.entries.map FormEntry.answer) }
  else c

def repository (c : FormCore) : FormAutomationMode :=
  match c.mode with
  | .cloud => .cloud
  | .onDevice => if c.hasOnDevice then .onDevice else .cloud

def route (id : Nat) (c : FormCore) : FormCore :=
  let send (job : MappingJob) : MappingJob :=
    if job.id = id then { job with route := some ⟨c.repository, c.repositoryOrthography⟩ } else job
  { c with mappings := c.mappings.map send, lastMapping := c.lastMapping.map send }

def complete (job : MappingJob) (result : AppResult TranscriptMappingResult) (c : FormCore) : FormCore :=
  let c := { c with loading := false, mappings := c.mappings.eraseP fun other => other.id == job.id }
  match result with
  | .success data =>
    { c with
      speakerBlocks := data.speakerBlocks
      entries := c.entries.map (FormViewModel.prefill data.fieldAnswers) }
  | .error _ _ => c

def clear (c : FormCore) : FormCore :=
  { c with
    entries := c.entries.map FormViewModel.clearAnswer, speakerBlocks := [], loading := false
    mode := .cloud, orthography := true, submitting := false, submitted := false
    lastTranscript := none, resets := c.resets + 1 }

def step (c : FormCore) : FormEvent → Option FormCore
  | .applyTranscript response => some ({ c with delivered := some response }.apply response)
  | .setAutomationMode mode => some (c.setMode mode)
  | .updateAnswer questionId value =>
    some { c with entries := c.entries.map (FormViewModel.setAnswer questionId value), submitted := false }
  | .submitForm => some c.submit
  | .setOnDeviceOrthographyCorrectionEnabled enabled => some (c.setOrthography enabled)
  | .reset => some c.clear
  | .mappingRouted id =>
    if c.mappings.any fun job => job.id == id && job.route.isNone then some (c.route id) else none
  | .mappingCompleted id result _ =>
    match c.mappings.find? fun job => job.id == id && job.route.isSome with
    | some job => some (c.complete job result)
    | none => none
  | .runOnDeviceLlmTest | .llmTestCompleted _ _ | .warmupCompleted _ _ | .modelStatusChanged _ => some c

theorem apply_cases (response : TranscriptionResponse) (c : FormCore) :
    (c.loading = true ∧ c.apply response = c) ∨
      (c.loading = false ∧ c.apply response = { c with lastTranscript := some response }.start response) := by
  unfold apply
  cases loading : c.loading with
  | true => exact Or.inl ⟨rfl, rfl⟩
  | false => exact Or.inr ⟨rfl, rfl⟩

theorem remap_cases (c : FormCore) :
    ((c.loading = true ∨ c.lastTranscript = none) ∧ c.remap = c) ∨
      (∃ response, c.lastTranscript = some response ∧ c.loading = false ∧ c.remap = c.start response) := by
  unfold remap
  cases last : c.lastTranscript with
  | none => exact Or.inl ⟨Or.inr rfl, rfl⟩
  | some response =>
    rcases apply_cases response c with ⟨loading, same⟩ | ⟨loading, started⟩
    · exact Or.inl ⟨Or.inl loading, same⟩
    · have kept : { c with lastTranscript := some response } = c := by
        rw [← last]
      rw [kept] at started
      exact Or.inr ⟨response, rfl, loading, started⟩

theorem configure_eq (enabled : Bool) (c : FormCore) :
    ∃ setting, (c.isConfigurable = true → setting = enabled) ∧
      c.configure enabled = { c with repositoryOrthography := setting } := by
  unfold configure
  by_cases configurable : c.isConfigurable = true
  · exact ⟨enabled, fun _ => rfl, if_pos configurable⟩
  · exact ⟨c.repositoryOrthography, fun other => absurd other configurable, if_neg configurable⟩

theorem setMode_cases (mode : FormAutomationMode) (c : FormCore) :
    ((c.mode = mode ∨ mode = .onDevice ∧ c.hasOnDevice = false) ∧ c.setMode mode = c) ∨
      (c.mode ≠ mode ∧ (mode = .onDevice → c.hasOnDevice = true) ∧
        ∃ setting, (mode = .onDevice → c.isConfigurable = true → setting = c.orthography) ∧
          c.setMode mode = { c with mode := mode, repositoryOrthography := setting }.remap) := by
  unfold setMode
  by_cases same : c.mode = mode
  · exact Or.inl ⟨Or.inl same, if_pos same⟩
  · by_cases refused : mode = .onDevice ∧ c.hasOnDevice = false
    · exact Or.inl ⟨Or.inr refused, by rw [if_neg same, if_pos refused]⟩
    · refine Or.inr ⟨same, by simpa using refused, ?_⟩
      rw [if_neg same, if_neg refused]
      by_cases onDevice : mode = .onDevice
      · obtain ⟨setting, configured, eq⟩ := configure_eq c.orthography c
        exact ⟨setting, fun _ => configured, by rw [if_pos onDevice, eq]⟩
      · exact ⟨c.repositoryOrthography, fun other => absurd other onDevice, by rw [if_neg onDevice]⟩

theorem setOrthography_cases (enabled : Bool) (c : FormCore) :
    ∃ setting, (c.isConfigurable = true → setting = enabled) ∧
      ((c.mode = .onDevice ∧ c.setOrthography enabled =
          { c with orthography := enabled, repositoryOrthography := setting }.remap) ∨
        (c.mode ≠ .onDevice ∧ c.setOrthography enabled =
          { c with orthography := enabled, repositoryOrthography := setting })) := by
  obtain ⟨setting, configured, eq⟩ := configure_eq enabled { c with orthography := enabled }
  refine ⟨setting, configured, ?_⟩
  unfold setOrthography
  rw [eq]
  by_cases onDevice : c.mode = .onDevice
  · exact Or.inl ⟨onDevice, if_pos onDevice⟩
  · exact Or.inr ⟨onDevice, if_neg onDevice⟩

theorem submit_cases (c : FormCore) :
    c.submit = c ∨ c.submit =
      { c with submitting := false, submitted := true, submittedAnswers := some (c.entries.map FormEntry.answer) } := by
  unfold submit
  split
  · exact Or.inr rfl
  · exact Or.inl rfl

theorem step_routed {c after : FormCore} {id : Nat} (taken : c.step (.mappingRouted id) = some after) :
    (∃ job ∈ c.mappings, job.id = id) ∧ after = c.route id := by
  simp only [step, Option.ite_none_right_eq_some, Option.some.injEq, List.any_eq_true, Bool.and_eq_true,
    beq_iff_eq] at taken
  obtain ⟨⟨job, member, same, _⟩, rfl⟩ := taken
  exact ⟨⟨job, member, same⟩, rfl⟩

theorem step_completed {c after : FormCore} {id durationMs : Nat} {result : AppResult TranscriptMappingResult}
    (taken : c.step (.mappingCompleted id result durationMs) = some after) :
    ∃ job ∈ c.mappings, job.id = id ∧ job.route.isSome = true ∧ after = c.complete job result := by
  simp only [step] at taken
  split at taken
  · rename_i job found
    cases taken
    have meets := List.find?_some found
    simp only [Bool.and_eq_true, beq_iff_eq] at meets
    exact ⟨job, List.mem_of_find?_eq_some found, meets.1, meets.2, rfl⟩
  · cases taken

def adjust (c : FormCore) (mode : FormAutomationMode) (orthography repositoryOrthography : Bool)
    (lastTranscript delivered : Option TranscriptionResponse) : FormCore :=
  { c with
    mode := mode, orthography := orthography, repositoryOrthography := repositoryOrthography
    lastTranscript := lastTranscript, delivered := delivered }

def rewrite : FormEvent → FormEntry → FormEntry
  | .updateAnswer questionId value => FormViewModel.setAnswer questionId value
  | .reset => FormViewModel.clearAnswer
  | .mappingCompleted _ (.success data) _ => FormViewModel.prefill data.fieldAnswers
  | _ => id

inductive Step (c : FormCore) : FormEvent → FormCore → Prop
  | adjusted {event : FormEvent} (keeps : rewrite event = id) {mode : FormAutomationMode}
      {orthography repositoryOrthography : Bool} {lastTranscript delivered : Option TranscriptionResponse} :
      Step c event (c.adjust mode orthography repositoryOrthography lastTranscript delivered)
  | started {event : FormEvent} (keeps : rewrite event = id) (idle : c.loading = false) {mode : FormAutomationMode}
      {orthography repositoryOrthography : Bool} {lastTranscript delivered : Option TranscriptionResponse}
      (response : TranscriptionResponse) :
      Step c event ((c.adjust mode orthography repositoryOrthography lastTranscript delivered).start response)
  | answered {questionId value : KString} :
      Step c (.updateAnswer questionId value)
        { c with entries := c.entries.map (FormViewModel.setAnswer questionId value), submitted := false }
  | submitted (valid : c.isValid = true) :
      Step c .submitForm
        { c with submitting := false, submitted := true, submittedAnswers := some (c.entries.map FormEntry.answer) }
  | cleared : Step c .reset c.clear
  | routed {id : Nat} (waiting : ∃ job ∈ c.mappings, job.id = id) : Step c (.mappingRouted id) (c.route id)
  | completed {id durationMs : Nat} {result : AppResult TranscriptMappingResult} {job : MappingJob}
      (member : job ∈ c.mappings) (same : job.id = id) (routed : job.route.isSome = true) :
      Step c (.mappingCompleted id result durationMs) (c.complete job result)

theorem Step.unchanged {c : FormCore} {event : FormEvent} (keeps : rewrite event = id) : c.Step event c := by
  have step : c.Step event (c.adjust c.mode c.orthography c.repositoryOrthography c.lastTranscript c.delivered) :=
    .adjusted keeps
  exact step

theorem Step.applied {c : FormCore} {event : FormEvent} (keeps : rewrite event = id)
    (response : TranscriptionResponse) (delivered : Option TranscriptionResponse) :
    c.Step event ({ c with delivered := delivered }.apply response) := by
  rcases apply_cases response { c with delivered := delivered } with ⟨_, same⟩ | ⟨idle, started⟩
  · rw [same]
    exact .adjusted keeps
  · rw [started]
    exact .started (c := c) keeps idle response

theorem Step.remapped {c : FormCore} {event : FormEvent} (keeps : rewrite event = id) (mode : FormAutomationMode)
    (orthography repositoryOrthography : Bool) :
    c.Step event { c with
      mode := mode, orthography := orthography, repositoryOrthography := repositoryOrthography }.remap := by
  rcases remap_cases { c with
      mode := mode, orthography := orthography, repositoryOrthography := repositoryOrthography } with
    ⟨_, same⟩ | ⟨response, _, idle, started⟩
  · rw [same]
    exact .adjusted keeps
  · rw [started]
    exact .started (c := c) keeps idle response

theorem step_cases {c after : FormCore} {event : FormEvent} (taken : c.step event = some after) :
    c.Step event after := by
  cases event with
  | applyTranscript response =>
    cases taken
    exact .applied rfl response _
  | setAutomationMode mode =>
    cases taken
    rcases setMode_cases mode c with ⟨_, same⟩ | ⟨_, _, setting, _, remapped⟩
    · rw [same]
      exact .unchanged rfl
    · rw [remapped]
      exact .remapped rfl mode c.orthography setting
  | updateAnswer questionId value =>
    cases taken
    exact .answered
  | submitForm =>
    cases taken
    unfold submit
    split
    · rename_i ready
      exact .submitted (Bool.and_eq_true_iff.mp ready).1
    · exact .unchanged rfl
  | setOnDeviceOrthographyCorrectionEnabled enabled =>
    cases taken
    obtain ⟨setting, _, ⟨_, remapped⟩ | ⟨_, changed⟩⟩ := setOrthography_cases enabled c
    · rw [remapped]
      exact .remapped rfl c.mode enabled setting
    · rw [changed]
      exact .adjusted rfl
  | reset =>
    cases taken
    exact .cleared
  | mappingRouted id =>
    obtain ⟨waiting, rfl⟩ := step_routed taken
    exact .routed waiting
  | mappingCompleted id result durationMs =>
    obtain ⟨job, member, same, routed, rfl⟩ := step_completed taken
    exact .completed member same routed
  | runOnDeviceLlmTest =>
    cases taken
    exact .unchanged rfl
  | llmTestCompleted id result =>
    cases taken
    exact .unchanged rfl
  | warmupCompleted id result =>
    cases taken
    exact .unchanged rfl
  | modelStatusChanged status =>
    cases taken
    exact .unchanged rfl

/-- The mode an event switches to, if it is one that takes effect. -/
def switchesTo (c : FormCore) : FormEvent → Option FormAutomationMode
  | .setAutomationMode mode =>
    if c.mode = mode ∨ mode = .onDevice ∧ c.hasOnDevice = false then none else some mode
  | .reset => some .cloud
  | _ => none

theorem apply_mode (response : TranscriptionResponse) (c : FormCore) : (c.apply response).mode = c.mode := by
  rcases apply_cases response c with ⟨_, same⟩ | ⟨_, started⟩
  · rw [same]
  · rw [started]
    rfl

theorem remap_mode (c : FormCore) : c.remap.mode = c.mode := by
  rcases remap_cases c with ⟨_, same⟩ | ⟨response, _, _, started⟩
  · rw [same]
  · rw [started]
    rfl

theorem setMode_mode (mode : FormAutomationMode) (c : FormCore) :
    (c.setMode mode).mode = (c.switchesTo (.setAutomationMode mode)).getD c.mode := by
  simp only [switchesTo]
  rcases setMode_cases mode c with ⟨refused, same⟩ | ⟨differs, supported, setting, _, remapped⟩
  · rw [same, if_pos refused]
    rfl
  · have effective : ¬ (c.mode = mode ∨ mode = .onDevice ∧ c.hasOnDevice = false) := by
      rintro (same | ⟨onDevice, missing⟩)
      · exact differs same
      · rw [supported onDevice] at missing
        cases missing
    rw [remapped, remap_mode, if_neg effective]
    rfl

theorem setOrthography_mode (enabled : Bool) (c : FormCore) : (c.setOrthography enabled).mode = c.mode := by
  obtain ⟨setting, _, ⟨_, remapped⟩ | ⟨_, changed⟩⟩ := setOrthography_cases enabled c
  · rw [remapped, remap_mode]
  · rw [changed]

theorem submit_mode (c : FormCore) : c.submit.mode = c.mode := by
  rcases submit_cases c with same | submitted
  · rw [same]
  · rw [submitted]

theorem complete_mode (job : MappingJob) (result : AppResult TranscriptMappingResult) (c : FormCore) :
    (c.complete job result).mode = c.mode := by
  cases result with
  | success data => rfl
  | error message cause => rfl

theorem step_mode {c after : FormCore} {event : FormEvent} (taken : c.step event = some after) :
    after.mode = (c.switchesTo event).getD c.mode := by
  cases event with
  | applyTranscript response =>
    cases taken
    exact apply_mode response _
  | setAutomationMode mode =>
    cases taken
    exact setMode_mode mode c
  | setOnDeviceOrthographyCorrectionEnabled enabled =>
    cases taken
    exact setOrthography_mode enabled c
  | submitForm =>
    cases taken
    exact submit_mode c
  | mappingRouted id =>
    obtain ⟨_, rfl⟩ := step_routed taken
    rfl
  | mappingCompleted id result durationMs =>
    obtain ⟨job, _, _, _, rfl⟩ := step_completed taken
    exact complete_mode job result c
  | updateAnswer questionId value =>
    cases taken
    rfl
  | reset =>
    cases taken
    rfl
  | runOnDeviceLlmTest =>
    cases taken
    rfl
  | llmTestCompleted id result =>
    cases taken
    rfl
  | warmupCompleted id result =>
    cases taken
    rfl
  | modelStatusChanged status =>
    cases taken
    rfl

end FormCore

section Refinement

open FormViewModel

@[simp] theorem appendLog_core (message : KString) (s : FormSystem) :
    (appendLog message s).core = s.core := by
  simp only [FormSystem.core, appendLog]

@[simp] theorem refreshOnDeviceLlmModelReady_core (s : FormSystem) :
    (refreshOnDeviceLlmModelReady s).core = s.core := by
  simp only [FormSystem.core, refreshOnDeviceLlmModelReady, update]

@[simp] theorem onAutomationModeChanged_core (mode : FormAutomationMode) (s : FormSystem) :
    (onAutomationModeChanged mode s).core = s.core := by
  simp only [FormSystem.core, onAutomationModeChanged]

@[simp] theorem warmupOnDeviceModelIfNeeded_core (s : FormSystem) :
    (warmupOnDeviceModelIfNeeded s).core = s.core := by
  unfold warmupOnDeviceModelIfNeeded
  split
  · rfl
  · split
    · rfl
    · split
      · rfl
      · simp only [FormSystem.core]

@[simp] theorem configureRepository_core (enabled : Bool) (s : FormSystem) :
    (configureRepository enabled s).core = s.core.configure enabled := by
  have flag : s.core.isConfigurable =
      s.wiring.onDeviceMappingRepository.any OnDeviceRepository.isConfigurable := rfl
  unfold configureRepository FormCore.configure
  rw [flag]
  split
  · simp only [FormSystem.core]
  · rfl

@[simp] theorem announceMapping_core (response : TranscriptionResponse) (s : FormSystem) :
    (announceMapping response s).core = s.core := by
  unfold announceMapping
  dsimp only
  rw [appendLog_core, appendLog_core]
  split
  · rw [refreshOnDeviceLlmModelReady_core, appendLog_core]
  · rw [appendLog_core]

theorem beginMapping_core (response : TranscriptionResponse) (s : FormSystem) :
    (beginMapping response s.uiState.automationMode s).core = s.core.start response := by
  simp only [FormSystem.core, beginMapping, FormCore.start]

theorem announceMapping_mode (response : TranscriptionResponse) (s : FormSystem) :
    (announceMapping response s).uiState.automationMode = s.uiState.automationMode :=
  congrArg FormCore.mode (announceMapping_core response s)

theorem launchMapping_core (response : TranscriptionResponse) (s : FormSystem) :
    (launchMapping response s).core = s.core.start response := by
  rw [launchMapping, ← announceMapping_mode response s, beginMapping_core, announceMapping_core]

@[simp] theorem applyTranscript_core (response : TranscriptionResponse) (s : FormSystem) :
    (applyTranscript response s).core = s.core.apply response := by
  have flag : s.core.loading = s.uiState.isMappingLoading := rfl
  unfold applyTranscript FormCore.apply
  rw [flag]
  split
  · rfl
  · rw [launchMapping_core]
    simp only [FormSystem.core]

@[simp] theorem applyLastTranscript_core (s : FormSystem) :
    (applyLastTranscript s).core = s.core.remap := by
  have last : s.core.lastTranscript = s.lastTranscript := rfl
  unfold applyLastTranscript FormCore.remap
  rw [last]
  cases s.lastTranscript with
  | some response => exact applyTranscript_core response s
  | none => rfl

theorem prepareOnDevice_core (s : FormSystem) :
    (prepareOnDevice s).core = s.core.configure s.core.orthography := by
  have unchanged := (warmupOnDeviceModelIfNeeded_core (refreshOnDeviceLlmModelReady s)).trans
    (refreshOnDeviceLlmModelReady_core s)
  have setting : (warmupOnDeviceModelIfNeeded (refreshOnDeviceLlmModelReady s)).uiState.onDeviceOrthographyCorrectionEnabled =
      s.core.orthography := congrArg FormCore.orthography unchanged
  unfold prepareOnDevice
  dsimp only
  rw [setting, configureRepository_core, unchanged]

theorem setAutomationMode_core (mode : FormAutomationMode) (s : FormSystem) :
    (setAutomationMode mode s).core = s.core.setMode mode := by
  have current : s.core.mode = s.uiState.automationMode := rfl
  have supported : s.core.hasOnDevice = s.wiring.onDeviceMappingRepository.isSome := rfl
  have switched : ∀ t : FormSystem, (update t fun current => { current with
      automationMode := mode
      mappingError := none
      mappingSourceError := none
      isLlmTestRunning := false
      llmTestSuccess := none }).core = { t.core with mode := mode } := by
    intro t
    simp only [FormSystem.core, update]
  unfold setAutomationMode FormCore.setMode
  rw [current, supported]
  by_cases same : s.uiState.automationMode = mode
  · rw [if_pos same, if_pos same]
  · rw [if_neg same, if_neg same]
    by_cases refused : mode = .onDevice ∧ s.wiring.onDeviceMappingRepository.isNone = true
    · have refusedCore : mode = .onDevice ∧ s.wiring.onDeviceMappingRepository.isSome = false := by
        simpa using refused
      rw [if_pos refused, if_pos refusedCore]
    · have acceptedCore : ¬ (mode = .onDevice ∧ s.wiring.onDeviceMappingRepository.isSome = false) := by
        simpa using refused
      rw [if_neg refused, if_neg acceptedCore]
      dsimp only
      rw [applyLastTranscript_core, onAutomationModeChanged_core, switched]
      by_cases onDevice : mode = .onDevice
      · simp only [if_pos onDevice, prepareOnDevice_core, appendLog_core]
      · simp only [if_neg onDevice, appendLog_core]

theorem setOnDeviceOrthographyCorrectionEnabled_core (enabled : Bool) (s : FormSystem) :
    (setOnDeviceOrthographyCorrectionEnabled enabled s).core = s.core.setOrthography enabled := by
  have switched : (update s fun current => { current with
      onDeviceOrthographyCorrectionEnabled := enabled
      mappingError := none
      mappingSourceError := none }).core = { s.core with orthography := enabled } := by
    simp only [FormSystem.core, update]
  have remapped : ∀ t : FormSystem,
      (if t.uiState.automationMode = .onDevice then applyLastTranscript t else t).core =
        if t.core.mode = .onDevice then t.core.remap else t.core := by
    intro t
    change _ = if t.uiState.automationMode = .onDevice then t.core.remap else t.core
    split
    · exact applyLastTranscript_core t
    · rfl
  unfold setOnDeviceOrthographyCorrectionEnabled FormCore.setOrthography
  dsimp only
  rw [remapped, configureRepository_core, appendLog_core, switched]

theorem updateAnswer_core (questionId value : KString) (s : FormSystem) :
    (updateAnswer questionId value s).core =
      { s.core with entries := s.core.entries.map (setAnswer questionId value), submitted := false } := by
  simp only [FormSystem.core, updateAnswer, update]

theorem submitForm_core (s : FormSystem) : (submitForm s).core = s.core.submit := by
  have guard : (s.core.isValid && !s.core.submitting) = canSubmit s := rfl
  unfold submitForm FormCore.submit
  rw [guard]
  by_cases ready : canSubmit s = true
  · simp only [ready, Bool.not_true, Bool.false_eq_true, if_false, if_true, appendLog_core]
    simp only [FormSystem.core, update]
  · simp only [ready, Bool.not_false, Bool.false_eq_true, if_false, if_true]

theorem runOnDeviceLlmTest_core (s : FormSystem) : (runOnDeviceLlmTest s).core = s.core := by
  unfold runOnDeviceLlmTest
  split
  · rfl
  · split
    · rfl
    · split
      · rfl
      · split
        · rfl
        · exact appendLog_core _ s

theorem completeLlmTest_core (id : Nat) (result : AppResult Unit) (s : FormSystem) :
    (completeLlmTest id result s).core = s.core := by
  cases result with
  | success => exact appendLog_core _ { s with llmTests := s.llmTests.erase id }
  | error => exact appendLog_core _ { s with llmTests := s.llmTests.erase id }

theorem completeWarmup_core (id : Nat) (result : AppResult Unit) (s : FormSystem) :
    (completeWarmup id result s).core = s.core := by
  unfold completeWarmup
  rw [refreshOnDeviceLlmModelReady_core, appendLog_core]
  rfl

theorem reset_core (s : FormSystem) : (reset s).core = s.core.clear := by
  simp only [FormSystem.core, reset, FormCore.clear, onAutomationModeChanged]

theorem activeRepository_core (s : FormSystem) : activeRepository s = s.core.repository := rfl

theorem routeMapping_core (id : Nat) (s : FormSystem) : (routeMapping id s).core = s.core.route id := by
  unfold FormCore.route
  rw [← activeRepository_core]
  rfl

theorem logOnDeviceStatus_core (result : TranscriptMappingResult) (s : FormSystem) :
    (logOnDeviceStatus result s).core = s.core := by
  unfold logOnDeviceStatus
  dsimp only
  split <;> simp only [appendLog_core]

theorem logSuccess_core (mode : FormAutomationMode) (durationMs : Nat) (result : TranscriptMappingResult)
    (s : FormSystem) : (logSuccess mode durationMs result s).core = s.core := by
  have status : ∀ t : FormSystem,
      (if mode = .onDevice then logOnDeviceStatus result t else t).core = t.core := by
    intro t
    split
    · exact logOnDeviceStatus_core result t
    · rfl
  have source : ∀ t : FormSystem, (if isNullOrBlank (sourceErrorMessage mode result) then t
      else appendLog ((sourceErrorMessage mode result).getD []) t).core = t.core := by
    intro t
    split
    · rfl
    · exact appendLog_core _ t
  unfold logSuccess
  dsimp only
  rw [appendLog_core, appendLog_core, source, status, appendLog_core, appendLog_core]

theorem completeMapping_core (job : MappingJob) (result : AppResult TranscriptMappingResult)
    (durationMs : Nat) (s : FormSystem) :
    (completeMapping job result durationMs s).core = s.core.complete job result := by
  let taken := { s with mappings := s.mappings.eraseP fun other => other.id == job.id }
  cases result with
  | success data =>
    have filled : ∀ t : FormSystem, (update t fun current => { current with
        isMappingLoading := false
        mappingError := none
        mappingSourceError := sourceErrorMessage job.mode data
        speakerBlocks := data.speakerBlocks
        entries := current.entries.map (prefill data.fieldAnswers) }).core =
        { t.core with
          loading := false
          speakerBlocks := data.speakerBlocks
          entries := t.core.entries.map (prefill data.fieldAnswers) } := by
      intro t
      simp only [FormSystem.core, update]
    have logged := logSuccess_core job.mode durationMs data taken
    change (mappingSucceeded job.mode durationMs data taken).core = _
    rw [mappingSucceeded, filled, logged]
    rfl
  | error message cause =>
    have failed : ∀ t : FormSystem, ∀ uiMessage : KString, (update t fun current => { current with
        isMappingLoading := false
        mappingError := some uiMessage
        mappingSourceError := none }).core = { t.core with loading := false } := by
      intro t uiMessage
      simp only [FormSystem.core, update]
    change (mappingFailed durationMs message taken).core = _
    unfold mappingFailed
    dsimp only
    rw [failed, appendLog_core, appendLog_core]
    rfl

theorem core_step {s after : FormSystem} {event : FormEvent} (taken : s.step event = some after) :
    s.core.step event = some after.core := by
  cases event with
  | applyTranscript response =>
    cases taken
    rw [applyTranscript_core]
    rfl
  | setAutomationMode mode =>
    cases taken
    rw [setAutomationMode_core]
    rfl
  | updateAnswer questionId value =>
    cases taken
    rw [updateAnswer_core]
    rfl
  | submitForm =>
    cases taken
    rw [submitForm_core]
    rfl
  | runOnDeviceLlmTest =>
    cases taken
    rw [runOnDeviceLlmTest_core]
    rfl
  | setOnDeviceOrthographyCorrectionEnabled enabled =>
    cases taken
    rw [setOnDeviceOrthographyCorrectionEnabled_core]
    rfl
  | reset =>
    cases taken
    rw [reset_core]
    rfl
  | mappingRouted id =>
    simp only [FormSystem.step, Option.ite_none_right_eq_some, Option.some.injEq] at taken
    obtain ⟨waiting, rfl⟩ := taken
    rw [routeMapping_core]
    exact if_pos waiting
  | mappingCompleted id result durationMs =>
    simp only [FormSystem.step] at taken
    split at taken
    · rename_i job found
      cases taken
      rw [completeMapping_core]
      have inCore : s.core.mappings.find? (fun job => job.id == id && job.route.isSome) = some job := found
      simp only [FormCore.step, inCore]
    · cases taken
  | llmTestCompleted id result =>
    simp only [FormSystem.step, Option.ite_none_right_eq_some, Option.some.injEq] at taken
    obtain ⟨_, rfl⟩ := taken
    rw [completeLlmTest_core]
    rfl
  | warmupCompleted id result =>
    simp only [FormSystem.step, Option.ite_none_right_eq_some, Option.some.injEq] at taken
    obtain ⟨_, rfl⟩ := taken
    rw [completeWarmup_core]
    rfl
  | modelStatusChanged status =>
    cases taken
    rfl

theorem create_core (wiring : Wiring) (status : ModelStatus) :
    (create wiring status).core = FormCore.initial wiring := by
  unfold create
  dsimp only
  split
  · rw [warmupOnDeviceModelIfNeeded_core, refreshOnDeviceLlmModelReady_core]
    simp only [FormSystem.core, update, FormCore.initial]
  · simp only [FormSystem.core, update, FormCore.initial]

abbrev FormCore.Run (wiring : Wiring) := Transition.Run FormCore.step (FormCore.initial wiring)

theorem FormRun.core {wiring : Wiring} {status : ModelStatus} {history : List (FormSystem × FormEvent)}
    {final : FormSystem} (run : FormRun wiring status history final) :
    FormCore.Run wiring (Transition.image FormSystem.core history) final.core := by
  have seen := run.image FormSystem.core fun _ _ _ taken => core_step taken
  rwa [create_core] at seen

end Refinement

end Form
