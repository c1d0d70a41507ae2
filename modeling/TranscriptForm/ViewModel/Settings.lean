import TranscriptForm.ViewModel.FormCore

namespace Form

open Kotlin

namespace FormCore

def Settled (c : FormCore) : Prop :=
  c.mode = .onDevice → c.hasOnDevice = true ∧ (c.isConfigurable = true → c.repositoryOrthography = c.orthography)

theorem Settled.start {c : FormCore} (settled : c.Settled) (response : TranscriptionResponse) :
    (c.start response).Settled := settled

theorem Settled.apply {c : FormCore} (settled : c.Settled) (response : TranscriptionResponse) :
    (c.apply response).Settled := by
  rcases apply_cases response c with ⟨_, same⟩ | ⟨_, started⟩
  · rw [same]
    exact settled
  · rw [started]
    exact settled

theorem Settled.remap {c : FormCore} (settled : c.Settled) : c.remap.Settled := by
  rcases remap_cases c with ⟨_, same⟩ | ⟨response, _, _, started⟩
  · rw [same]
    exact settled
  · rw [started]
    exact settled

theorem Settled.setMode {c : FormCore} (settled : c.Settled) (mode : FormAutomationMode) :
    (c.setMode mode).Settled := by
  rcases setMode_cases mode c with ⟨_, same⟩ | ⟨_, supported, setting, configured, remapped⟩
  · rw [same]
    exact settled
  · rw [remapped]
    apply Settled.remap
    intro onDevice
    exact ⟨supported onDevice, configured onDevice⟩

theorem Settled.setOrthography {c : FormCore} (settled : c.Settled) (enabled : Bool) :
    (c.setOrthography enabled).Settled := by
  obtain ⟨setting, configured, changed⟩ := setOrthography_cases enabled c
  have kept : { c with orthography := enabled, repositoryOrthography := setting }.Settled := by
    intro onDevice
    exact ⟨(settled onDevice).1, configured⟩
  rcases changed with ⟨_, remapped⟩ | ⟨_, changed⟩
  · rw [remapped]
    exact kept.remap
  · rw [changed]
    exact kept

theorem Settled.step {c after : FormCore} {event : FormEvent} (settled : c.Settled)
    (taken : c.step event = some after) : after.Settled := by
  cases event with
  | applyTranscript response =>
    cases taken
    have kept : { c with delivered := some response }.Settled := settled
    exact kept.apply response
  | setAutomationMode mode =>
    cases taken
    exact settled.setMode mode
  | updateAnswer questionId value =>
    cases taken
    exact settled
  | submitForm =>
    cases taken
    rcases submit_cases c with same | submitted
    · rw [same]
      exact settled
    · rw [submitted]
      exact settled
  | setOnDeviceOrthographyCorrectionEnabled enabled =>
    cases taken
    exact settled.setOrthography enabled
  | reset =>
    cases taken
    intro onDevice
    cases onDevice
  | mappingRouted id =>
    obtain ⟨_, rfl⟩ := step_routed taken
    exact settled
  | mappingCompleted id result durationMs =>
    obtain ⟨job, _, _, _, rfl⟩ := step_completed taken
    cases result with
    | success data => exact settled
    | error message cause => exact settled
  | runOnDeviceLlmTest =>
    cases taken
    exact settled
  | llmTestCompleted id result =>
    cases taken
    exact settled
  | warmupCompleted id result =>
    cases taken
    exact settled
  | modelStatusChanged status =>
    cases taken
    exact settled

end FormCore

end Form
