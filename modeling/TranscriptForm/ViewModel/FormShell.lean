import TranscriptForm.ViewModel.FormCore

namespace Form

open Kotlin

/-- What the core leaves out and other objects depend on: the self-test and the
    mode changes reported to the app. -/
structure FormShell where
  llmTestRunning : Bool
  llmTestSuccess : Option Bool
  llmTests : List Nat
  nextLlmTest : Nat
  modeCallbacks : List FormAutomationMode

def FormSystem.shell (s : FormSystem) : FormShell where
  llmTestRunning := s.uiState.isLlmTestRunning
  llmTestSuccess := s.uiState.llmTestSuccess
  llmTests := s.llmTests
  nextLlmTest := s.nextLlmTest
  modeCallbacks := s.modeCallbacks

def AppResult.isSuccess {α : Type} : AppResult α → Bool
  | .success _ => true
  | .error _ _ => false

namespace FormShell

def initial : FormShell := ⟨false, none, [], 0, []⟩

/-- A change of mode gives the self-test up and is reported. -/
def switch (mode : FormAutomationMode) (shell : FormShell) : FormShell :=
  { shell with llmTestRunning := false, llmTestSuccess := none, modeCallbacks := shell.modeCallbacks ++ [mode] }

def startTest (shell : FormShell) : FormShell :=
  { shell with
    llmTestRunning := true, llmTestSuccess := none
    llmTests := shell.llmTests ++ [shell.nextLlmTest], nextLlmTest := shell.nextLlmTest + 1 }

def completeTest (id : Nat) (result : AppResult Unit) (shell : FormShell) : FormShell :=
  { shell with
    llmTestRunning := false, llmTestSuccess := some result.isSuccess, llmTests := shell.llmTests.erase id }

end FormShell

def FormSystem.switchesTo (s : FormSystem) (event : FormEvent) : Option FormAutomationMode := s.core.switchesTo event

open FormViewModel

@[simp] theorem appendLog_shell (message : KString) (s : FormSystem) : (appendLog message s).shell = s.shell := by
  simp only [FormSystem.shell, appendLog]

@[simp] theorem refreshOnDeviceLlmModelReady_shell (s : FormSystem) :
    (refreshOnDeviceLlmModelReady s).shell = s.shell := by
  simp only [FormSystem.shell, refreshOnDeviceLlmModelReady, update]

@[simp] theorem warmupOnDeviceModelIfNeeded_shell (s : FormSystem) :
    (warmupOnDeviceModelIfNeeded s).shell = s.shell := by
  unfold warmupOnDeviceModelIfNeeded
  split
  · rfl
  · split
    · rfl
    · split
      · rfl
      · simp only [FormSystem.shell]

@[simp] theorem configureRepository_shell (enabled : Bool) (s : FormSystem) :
    (configureRepository enabled s).shell = s.shell := by
  unfold configureRepository
  split
  · simp only [FormSystem.shell]
  · rfl

@[simp] theorem announceMapping_shell (response : TranscriptionResponse) (s : FormSystem) :
    (announceMapping response s).shell = s.shell := by
  unfold announceMapping
  dsimp only
  rw [appendLog_shell, appendLog_shell]
  split
  · rw [refreshOnDeviceLlmModelReady_shell, appendLog_shell]
  · rw [appendLog_shell]

theorem launchMapping_shell (response : TranscriptionResponse) (s : FormSystem) :
    (launchMapping response s).shell = s.shell := by
  have begun : ∀ mode t, (beginMapping response mode t).shell = t.shell := by
    intro mode t
    simp only [FormSystem.shell, beginMapping]
  rw [launchMapping, begun, announceMapping_shell]

theorem applyTranscript_shell (response : TranscriptionResponse) (s : FormSystem) :
    (applyTranscript response s).shell = s.shell := by
  unfold applyTranscript
  split
  · rfl
  · rw [launchMapping_shell]
    simp only [FormSystem.shell]

@[simp] theorem applyLastTranscript_shell (s : FormSystem) : (applyLastTranscript s).shell = s.shell := by
  unfold applyLastTranscript
  split
  · exact applyTranscript_shell _ s
  · rfl

theorem prepareOnDevice_shell (s : FormSystem) : (prepareOnDevice s).shell = s.shell := by
  simp only [prepareOnDevice, configureRepository_shell, warmupOnDeviceModelIfNeeded_shell,
    refreshOnDeviceLlmModelReady_shell]

theorem setAutomationMode_shell (mode : FormAutomationMode) (s : FormSystem) :
    (setAutomationMode mode s).shell =
      if s.core.mode = mode ∨ mode = .onDevice ∧ s.core.hasOnDevice = false then s.shell
      else s.shell.switch mode := by
  have switched : ∀ t : FormSystem, (onAutomationModeChanged mode (update t fun current => { current with
      automationMode := mode
      mappingError := none
      mappingSourceError := none
      isLlmTestRunning := false
      llmTestSuccess := none })).shell = t.shell.switch mode := by
    intro t
    simp only [FormSystem.shell, onAutomationModeChanged, update, FormShell.switch]
  have prepared : ∀ t : FormSystem, (if mode = .onDevice then prepareOnDevice t else t).shell = t.shell := by
    intro t
    split
    · exact prepareOnDevice_shell t
    · rfl
  unfold setAutomationMode
  by_cases same : s.uiState.automationMode = mode
  · have refused : s.core.mode = mode ∨ mode = .onDevice ∧ s.core.hasOnDevice = false := Or.inl same
    rw [if_pos same, if_pos refused]
  · by_cases absent : mode = .onDevice ∧ s.wiring.onDeviceMappingRepository.isNone = true
    · have refused : s.core.mode = mode ∨ mode = .onDevice ∧ s.core.hasOnDevice = false :=
        Or.inr ⟨absent.1, by simpa [FormSystem.core] using absent.2⟩
      rw [if_neg same, if_pos absent, if_pos refused]
    · have effective : ¬ (s.core.mode = mode ∨ mode = .onDevice ∧ s.core.hasOnDevice = false) := by
        rintro (unchanged | ⟨onDevice, missing⟩)
        · exact same unchanged
        · exact absent ⟨onDevice, by simpa [FormSystem.core] using missing⟩
      rw [if_neg same, if_neg absent, if_neg effective]
      dsimp only
      rw [applyLastTranscript_shell, switched, prepared, appendLog_shell]

theorem setOnDeviceOrthographyCorrectionEnabled_shell (enabled : Bool) (s : FormSystem) :
    (setOnDeviceOrthographyCorrectionEnabled enabled s).shell = s.shell := by
  have changed : (update s fun current => { current with
      onDeviceOrthographyCorrectionEnabled := enabled
      mappingError := none
      mappingSourceError := none }).shell = s.shell := by
    simp only [FormSystem.shell, update]
  have remapped : ∀ t : FormSystem,
      (if t.uiState.automationMode = .onDevice then applyLastTranscript t else t).shell = t.shell := by
    intro t
    split
    · exact applyLastTranscript_shell t
    · rfl
  unfold setOnDeviceOrthographyCorrectionEnabled
  dsimp only
  rw [remapped, configureRepository_shell, appendLog_shell, changed]

theorem submitForm_shell (s : FormSystem) : (submitForm s).shell = s.shell := by
  unfold submitForm
  split
  · rfl
  · dsimp only
    rw [appendLog_shell]
    simp only [FormSystem.shell, update]

theorem runOnDeviceLlmTest_shell (s : FormSystem) :
    (runOnDeviceLlmTest s).shell = s.shell ∨
      s.shell.llmTestRunning = false ∧ (runOnDeviceLlmTest s).shell = s.shell.startTest := by
  unfold runOnDeviceLlmTest
  split
  · exact Or.inl rfl
  · split
    · exact Or.inl rfl
    · split
      · exact Or.inl rfl
      · split
        · exact Or.inl rfl
        · rename_i idle
          right
          refine ⟨by simpa [FormSystem.shell] using idle, ?_⟩
          simp only [FormSystem.shell, appendLog, FormShell.startTest]

theorem completeLlmTest_shell (id : Nat) (result : AppResult Unit) (s : FormSystem) :
    (completeLlmTest id result s).shell = s.shell.completeTest id result := by
  cases result with
  | success => simp only [FormSystem.shell, completeLlmTest, update, appendLog, FormShell.completeTest, AppResult.isSuccess]
  | error => simp only [FormSystem.shell, completeLlmTest, update, appendLog, FormShell.completeTest, AppResult.isSuccess]

theorem completeWarmup_shell (id : Nat) (result : AppResult Unit) (s : FormSystem) :
    (completeWarmup id result s).shell = s.shell := by
  unfold completeWarmup
  rw [refreshOnDeviceLlmModelReady_shell, appendLog_shell]
  simp only [FormSystem.shell]

theorem reset_shell (s : FormSystem) : (reset s).shell = s.shell.switch .cloud := by
  simp only [FormSystem.shell, reset, onAutomationModeChanged, FormShell.switch]

theorem logSuccess_shell (mode : FormAutomationMode) (durationMs : Nat) (result : TranscriptMappingResult)
    (s : FormSystem) : (logSuccess mode durationMs result s).shell = s.shell := by
  have status : ∀ t : FormSystem,
      (if mode = .onDevice then logOnDeviceStatus result t else t).shell = t.shell := by
    intro t
    split
    · unfold logOnDeviceStatus
      dsimp only
      split <;> simp only [appendLog_shell]
    · rfl
  have source : ∀ t : FormSystem, (if isNullOrBlank (sourceErrorMessage mode result) then t
      else appendLog ((sourceErrorMessage mode result).getD []) t).shell = t.shell := by
    intro t
    split
    · rfl
    · exact appendLog_shell _ t
  unfold logSuccess
  dsimp only
  rw [appendLog_shell, appendLog_shell, source, status, appendLog_shell, appendLog_shell]

theorem completeMapping_shell (job : MappingJob) (result : AppResult TranscriptMappingResult) (durationMs : Nat)
    (s : FormSystem) : (completeMapping job result durationMs s).shell = s.shell := by
  have taken : ∀ mappings, { s with mappings := mappings }.shell = s.shell := by
    intro mappings
    simp only [FormSystem.shell]
  have written : ∀ (t : FormSystem) (f : FormUiState → FormUiState),
      (∀ state, (f state).isLlmTestRunning = state.isLlmTestRunning ∧ (f state).llmTestSuccess = state.llmTestSuccess) →
      (update t f).shell = t.shell := by
    intro t f keeps
    simp only [FormSystem.shell, update, (keeps t.uiState).1, (keeps t.uiState).2]
  cases result with
  | success data =>
    change (mappingSucceeded job.mode durationMs data _).shell = _
    refine Eq.trans (written _ _ ?_) ?_
    · intro state
      exact ⟨rfl, rfl⟩
    · rw [logSuccess_shell, taken]
  | error message cause =>
    change (mappingFailed durationMs message _).shell = _
    refine Eq.trans (written _ _ ?_) ?_
    · intro state
      exact ⟨rfl, rfl⟩
    · rw [appendLog_shell, appendLog_shell, taken]

theorem create_shell (wiring : Wiring) (status : ModelStatus) : (create wiring status).shell = .initial := by
  unfold create
  dsimp only
  split
  · rw [warmupOnDeviceModelIfNeeded_shell, refreshOnDeviceLlmModelReady_shell]
    simp only [FormSystem.shell, update, FormShell.initial]
  · simp only [FormSystem.shell, update, FormShell.initial]

inductive FormShell.Step (s : FormSystem) : FormEvent → FormShell → Prop
  | keeps {event : FormEvent} : s.switchesTo event = none → FormShell.Step s event s.shell
  | switched {event : FormEvent} {mode : FormAutomationMode} : s.switchesTo event = some mode →
      FormShell.Step s event (s.shell.switch mode)
  | started : s.shell.llmTestRunning = false → FormShell.Step s .runOnDeviceLlmTest s.shell.startTest
  | completed {id : Nat} {result : AppResult Unit} : id ∈ s.shell.llmTests →
      FormShell.Step s (.llmTestCompleted id result) (s.shell.completeTest id result)

theorem shell_step {s after : FormSystem} {event : FormEvent} (taken : s.step event = some after) :
    FormShell.Step s event after.shell := by
  have unchanged : after.shell = s.shell → s.switchesTo event = none → FormShell.Step s event after.shell := by
    intro same quiet
    rw [same]
    exact .keeps quiet
  cases event with
  | applyTranscript response =>
    cases taken
    apply unchanged _ rfl
    rw [applyTranscript_shell]
    simp only [FormSystem.shell]
  | setAutomationMode mode =>
    cases taken
    by_cases refused : s.core.mode = mode ∨ mode = .onDevice ∧ s.core.hasOnDevice = false
    · exact unchanged (by rw [setAutomationMode_shell, if_pos refused]) (if_pos refused)
    · rw [setAutomationMode_shell, if_neg refused]
      exact .switched (if_neg refused)
  | updateAnswer questionId value =>
    cases taken
    apply unchanged _ rfl
    simp only [FormSystem.shell, updateAnswer, update]
  | submitForm =>
    cases taken
    exact unchanged (submitForm_shell s) rfl
  | runOnDeviceLlmTest =>
    cases taken
    rcases runOnDeviceLlmTest_shell s with same | ⟨idle, started⟩
    · exact unchanged same rfl
    · rw [started]
      exact .started idle
  | setOnDeviceOrthographyCorrectionEnabled enabled =>
    cases taken
    exact unchanged (setOnDeviceOrthographyCorrectionEnabled_shell enabled s) rfl
  | reset =>
    cases taken
    rw [reset_shell]
    exact .switched rfl
  | mappingRouted id =>
    simp only [FormSystem.step, Option.ite_none_right_eq_some, Option.some.injEq] at taken
    obtain ⟨_, rfl⟩ := taken
    apply unchanged _ rfl
    simp only [FormSystem.shell, routeMapping]
  | mappingCompleted id result durationMs =>
    simp only [FormSystem.step] at taken
    split at taken
    · cases taken
      exact unchanged (completeMapping_shell _ result durationMs s) rfl
    · cases taken
  | llmTestCompleted id result =>
    simp only [FormSystem.step, Option.ite_none_right_eq_some, Option.some.injEq] at taken
    obtain ⟨running, rfl⟩ := taken
    rw [completeLlmTest_shell]
    exact .completed running
  | warmupCompleted id result =>
    simp only [FormSystem.step, Option.ite_none_right_eq_some, Option.some.injEq] at taken
    obtain ⟨_, rfl⟩ := taken
    exact unchanged (completeWarmup_shell id result s) rfl
  | modelStatusChanged status =>
    cases taken
    exact unchanged rfl rfl

end Form
