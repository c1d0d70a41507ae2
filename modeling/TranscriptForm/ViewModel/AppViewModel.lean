import TranscriptForm.ViewModel.FormShell
import TranscriptForm.ViewModel.Settings
import TranscriptForm.ViewModel.SingleFlight
import TranscriptForm.ViewModel.TranscriptionViewModel

namespace Form

open Kotlin Transition

/-- The app: the form and the transcription, which the form's callback sets the mode of. -/
structure AppSystem where
  form : FormSystem
  transcription : TranscriptionSystem
  deriving DecidableEq

namespace AppViewModel

/-- The callback `init` gives the form. -/
def onAutomationModeChanged (transcription : TranscriptionSystem) (mode : FormAutomationMode) : TranscriptionSystem :=
  let transcriptionMode :=
    if mode = .onDevice ∧ transcription.supportsOnDevice = true then mode else .cloud
  TranscriptionViewModel.setAutomationMode transcriptionMode transcription

def create (wiring : Wiring) (status : ModelStatus) (supportsOnDeviceTranscription : Bool) : AppSystem where
  form := FormViewModel.create wiring status
  transcription := { supportsOnDevice := supportsOnDeviceTranscription }

end AppViewModel

namespace AppSystem

def step (s : AppSystem) (event : FormEvent) : Option AppSystem :=
  (s.form.step event).map fun form =>
    { form := form
      transcription := (form.modeCallbacks.drop s.form.modeCallbacks.length).foldl
        AppViewModel.onAutomationModeChanged s.transcription }

end AppSystem

theorem step_callbacks {s after : FormSystem} {event : FormEvent} (taken : s.step event = some after) :
    after.modeCallbacks = s.modeCallbacks ++ (s.switchesTo event).toList := by
  generalize shape : after.shell = shell
  have step := shell_step taken
  have callbacks : after.modeCallbacks = shell.modeCallbacks := congrArg FormShell.modeCallbacks shape
  rw [shape] at step
  rw [callbacks]
  cases step with
  | keeps quiet =>
    rw [quiet]
    exact (List.append_nil _).symm
  | switched effective =>
    rw [effective]
    rfl
  | started _ => exact (List.append_nil _).symm
  | completed _ => exact (List.append_nil _).symm

namespace AppSystem

structure Coherent (s : AppSystem) : Prop where
  transcription : s.transcription.automationMode = .onDevice ↔
    s.form.uiState.automationMode = .onDevice ∧ s.transcription.supportsOnDevice = true
  repository : s.form.uiState.automationMode = .onDevice → s.form.wiring.onDeviceMappingRepository.isSome = true
  orthography : s.form.uiState.automationMode = .onDevice →
    s.form.wiring.onDeviceMappingRepository.any OnDeviceRepository.isConfigurable = true →
    s.form.repositoryOrthography = s.form.uiState.onDeviceOrthographyCorrectionEnabled

theorem Coherent.settled {s : AppSystem} (coherent : s.Coherent) : s.form.core.Settled :=
  fun onDevice => ⟨coherent.repository onDevice, coherent.orthography onDevice⟩

theorem setAutomationMode_mode (mode : FormAutomationMode) (t : TranscriptionSystem) :
    (TranscriptionViewModel.setAutomationMode mode t).automationMode = mode ∧
      (TranscriptionViewModel.setAutomationMode mode t).supportsOnDevice = t.supportsOnDevice := by
  unfold TranscriptionViewModel.setAutomationMode
  split
  · rename_i same
    exact ⟨same.symm, rfl⟩
  · exact ⟨rfl, rfl⟩

theorem callback_mode (t : TranscriptionSystem) (mode : FormAutomationMode) :
    ((AppViewModel.onAutomationModeChanged t mode).automationMode = .onDevice ↔
      mode = .onDevice ∧ t.supportsOnDevice = true) ∧
    (AppViewModel.onAutomationModeChanged t mode).supportsOnDevice = t.supportsOnDevice := by
  unfold AppViewModel.onAutomationModeChanged
  dsimp only
  obtain ⟨set, kept⟩ := setAutomationMode_mode
    (if mode = .onDevice ∧ t.supportsOnDevice = true then mode else .cloud) t
  refine ⟨?_, kept⟩
  rw [set]
  by_cases both : mode = .onDevice ∧ t.supportsOnDevice = true
  · rw [if_pos both]
    exact ⟨fun _ => both, fun _ => both.1⟩
  · rw [if_neg both]
    constructor
    · intro cloud
      cases cloud
    · intro other
      exact absurd other both

theorem Coherent.step {s after : AppSystem} {event : FormEvent} (coherent : s.Coherent)
    (taken : s.step event = some after) : after.Coherent := by
  obtain ⟨form, stepped, rfl⟩ := Option.map_eq_some_iff.mp taken
  have settled := coherent.settled.step (core_step stepped)
  refine ⟨?_, fun onDevice => (settled onDevice).1, fun onDevice => (settled onDevice).2⟩
  have mode : form.uiState.automationMode = (s.form.switchesTo event).getD s.form.uiState.automationMode :=
    FormCore.step_mode (core_step stepped)
  have made : form.modeCallbacks.drop s.form.modeCallbacks.length = (s.form.switchesTo event).toList := by
    rw [step_callbacks stepped, List.drop_left]
  dsimp only
  rw [made, mode]
  cases s.form.switchesTo event with
  | none => exact coherent.transcription
  | some mode =>
    obtain ⟨set, kept⟩ := callback_mode s.transcription mode
    simp only [Option.toList_some, List.foldl_cons, List.foldl_nil, Option.getD_some]
    rw [kept]
    exact set

theorem create_coherent (wiring : Wiring) (status : ModelStatus) (supportsOnDeviceTranscription : Bool) :
    (AppViewModel.create wiring status supportsOnDeviceTranscription).Coherent := by
  have mode : (FormViewModel.create wiring status).uiState.automationMode = .cloud :=
    congrArg FormCore.mode (create_core wiring status)
  refine ⟨?_, ?_, ?_⟩
  · simp [AppViewModel.create, mode]
  · simp [AppViewModel.create, mode]
  · simp [AppViewModel.create, mode]

end AppSystem

abbrev AppRun (wiring : Wiring) (status : ModelStatus) (supportsOnDeviceTranscription : Bool) :=
  Run AppSystem.step (AppViewModel.create wiring status supportsOnDeviceTranscription)

theorem settings_coherent {wiring : Wiring} {status : ModelStatus} {supportsOnDeviceTranscription : Bool}
    {history : List (AppSystem × FormEvent)} {final : AppSystem}
    (run : AppRun wiring status supportsOnDeviceTranscription history final) :
    Always AppSystem.Coherent history final :=
  run.always (AppSystem.create_coherent wiring status supportsOnDeviceTranscription)
    fun _ _ _ coherent taken => coherent.step taken

def switchedAndReset : List FormEvent :=
  [.setAutomationMode .onDevice, .setOnDeviceOrthographyCorrectionEnabled false, .applyTranscript sampleTranscript,
    .mappingRouted 0, .mappingCompleted 0 staleResult 5, .reset, .setAutomationMode .onDevice]

theorem settings_coherent_switched : ∃ final,
    follow AppSystem.step (AppViewModel.create sampleWiring sampleStatus true) switchedAndReset = some final ∧
    Always AppSystem.Coherent
      (trace AppSystem.step (AppViewModel.create sampleWiring sampleStatus true) switchedAndReset) final ∧
    final.form.modeCallbacks = [.onDevice, .cloud, .onDevice] ∧ final.transcription.automationMode = .onDevice ∧
    final.form.repositoryOrthography = true := by
  obtain ⟨final, followed, observed⟩ : ∃ final,
      follow AppSystem.step (AppViewModel.create sampleWiring sampleStatus true) switchedAndReset = some final ∧
      final.form.modeCallbacks = [.onDevice, .cloud, .onDevice] ∧
      final.transcription.automationMode = .onDevice ∧ final.form.repositoryOrthography = true :=
    follow_reaches (by decide +kernel)
  exact ⟨final, followed, settings_coherent (.of_follow followed), observed⟩

end Form
