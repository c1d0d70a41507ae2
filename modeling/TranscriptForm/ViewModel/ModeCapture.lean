import TranscriptForm.ViewModel.Settings
import TranscriptForm.ViewModel.SingleFlight

namespace Form

open Kotlin Transition

namespace FormCore

/-- Every mapping that has its repository has the one of the mode it captured. -/
def OneMode (c : FormCore) : Prop :=
  ∀ job ∈ c.mappings, ∀ route, job.route = some route → route.repository = job.mode

def RoutedUnderMode (c : FormCore) (event : FormEvent) : Prop :=
  ∀ id, event = .mappingRouted id → ∀ job ∈ c.mappings, job.id = id → c.mode = job.mode

instance (c : FormCore) : (event : FormEvent) → Decidable (c.RoutedUnderMode event)
  | .mappingRouted id =>
    decidable_of_iff (∀ job ∈ c.mappings, job.id = id → c.mode = job.mode)
      ⟨by rintro captured _ ⟨⟩; exact captured, fun routed => routed id rfl⟩
  | .applyTranscript _ | .setAutomationMode _ | .updateAnswer _ _ | .submitForm | .runOnDeviceLlmTest
  | .setOnDeviceOrthographyCorrectionEnabled _ | .reset | .mappingCompleted _ _ _ | .llmTestCompleted _ _
  | .warmupCompleted _ _ | .modelStatusChanged _ => .isTrue (by rintro _ ⟨⟩)

theorem OneMode.congr {c after : FormCore} (one : c.OneMode) (same : after.mappings = c.mappings) : after.OneMode := by
  unfold OneMode
  rw [same]
  exact one

theorem OneMode.start {c : FormCore} (one : c.OneMode) (response : TranscriptionResponse) :
    (c.start response).OneMode := by
  intro job member route routed
  simp only [FormCore.start, List.mem_append, List.mem_singleton] at member
  rcases member with member | started
  · exact one job member route routed
  · rw [started] at routed
    cases routed

theorem Settled.repository {c : FormCore} (settled : c.Settled) : c.repository = c.mode := by
  unfold FormCore.repository
  cases mode : c.mode with
  | cloud => rfl
  | onDevice =>
    have present := (settled mode).1
    simp [present]

theorem OneMode.route {c : FormCore} (one : c.OneMode) (settled : c.Settled) {id : Nat}
    (captured : c.RoutedUnderMode (.mappingRouted id)) : (c.route id).OneMode := by
  intro job member route routed
  simp only [FormCore.route, List.mem_map] at member
  obtain ⟨before, waiting, rfl⟩ := member
  by_cases same : before.id = id
  · rw [if_pos same] at routed ⊢
    cases routed
    exact settled.repository.trans (captured id rfl before waiting same)
  · rw [if_neg same] at routed ⊢
    exact one before waiting route routed

theorem OneMode.complete {c : FormCore} (one : c.OneMode) (job : MappingJob)
    (result : AppResult TranscriptMappingResult) : (c.complete job result).OneMode := by
  obtain ⟨_, mappings⟩ := complete_flight job result c
  intro other member
  rw [mappings] at member
  exact one other (List.mem_of_mem_eraseP member)

theorem OneMode.step {c after : FormCore} {event : FormEvent} (one : c.OneMode) (settled : c.Settled)
    (captured : c.RoutedUnderMode event) (taken : c.step event = some after) : after.OneMode := by
  cases step_cases taken with
  | adjusted keeps => exact one.congr rfl
  | started keeps free response =>
    apply OneMode.start
    exact one.congr rfl
  | answered => exact one.congr rfl
  | submitted valid => exact one.congr rfl
  | cleared => exact one.congr rfl
  | routed waiting => exact one.route settled captured
  | completed member same routed => exact one.complete _ _

theorem routed_elsewhere {c after : FormCore} {event : FormEvent} (settled : c.Settled)
    (outside : ¬ c.RoutedUnderMode event) (taken : c.step event = some after) : ¬ after.OneMode := by
  simp only [RoutedUnderMode, not_forall] at outside
  obtain ⟨id, rfl, job, waiting, same, differs⟩ := outside
  obtain ⟨_, rfl⟩ := step_routed taken
  intro one
  have sent : { job with route := some ⟨c.repository, c.repositoryOrthography⟩ } ∈ (c.route id).mappings := by
    simp only [FormCore.route, List.mem_map]
    exact ⟨job, waiting, if_pos same⟩
  have chosen := one _ sent _ rfl
  exact differs (settled.repository.symm.trans chosen)

theorem initial_oneMode (wiring : Wiring) : (initial wiring).OneMode ∧ (initial wiring).Settled := by
  constructor
  · intro job member
    cases member
  · intro onDevice
    cases onDevice

end FormCore

theorem oneMode_iff {wiring : Wiring} {status : ModelStatus} {history : List (FormSystem × FormEvent)}
    {final : FormSystem} (run : FormRun wiring status history final) :
    Always (fun s => s.core.OneMode) history final ↔
      Guarded (fun s event => s.core.RoutedUnderMode event) history := by
  have keep : ∀ (c : FormCore) (event : FormEvent) (after : FormCore), c.OneMode ∧ c.Settled →
      c.RoutedUnderMode event → c.step event = some after → after.OneMode ∧ after.Settled :=
    fun _ _ _ inv captured taken => ⟨inv.1.step inv.2 captured taken, inv.2.step taken⟩
  have breaks : ∀ (c : FormCore) (event : FormEvent) (after : FormCore), c.OneMode ∧ c.Settled →
      ¬ c.RoutedUnderMode event → c.step event = some after → ¬ after.OneMode :=
    fun _ _ _ inv outside taken => FormCore.routed_elsewhere inv.2 outside taken
  rw [← always_image, ← guarded_image]
  refine run.core.always_iff_guarded ?_ keep (fun _ inv => inv.1) breaks
  exact FormCore.initial_oneMode wiring

section SwitchBeforeRoute

def routedInMode : List FormEvent :=
  [.applyTranscript sampleTranscript, .mappingRouted 0, .mappingCompleted 0 staleResult 5,
    .setAutomationMode .onDevice, .mappingRouted 1]

theorem oneMode_iff_routedInMode : ∃ final,
    follow FormSystem.step (FormViewModel.create sampleWiring sampleStatus) routedInMode = some final ∧
    Always (fun s => s.core.OneMode)
      (trace FormSystem.step (FormViewModel.create sampleWiring sampleStatus) routedInMode) final ∧
    final.core.mappings = [⟨1, sampleTranscript, .onDevice, 0, some ⟨.onDevice, true⟩⟩] := by
  obtain ⟨final, followed, mappings⟩ : ∃ final,
      follow FormSystem.step (FormViewModel.create sampleWiring sampleStatus) routedInMode = some final ∧
      final.core.mappings = [⟨1, sampleTranscript, .onDevice, 0, some ⟨.onDevice, true⟩⟩] :=
    follow_reaches (by decide +kernel)
  have captured : Guarded (fun (s : FormSystem) event => s.core.RoutedUnderMode event)
      (trace FormSystem.step (FormViewModel.create sampleWiring sampleStatus) routedInMode) := by decide +kernel
  exact ⟨final, followed, (oneMode_iff (.of_follow followed)).mpr captured, mappings⟩

def switchBeforeRoute : List FormEvent :=
  [.setAutomationMode .onDevice, .applyTranscript sampleTranscript, .setAutomationMode .cloud, .mappingRouted 0]

theorem on_device_sent_to_cloud : ∃ history final, FormRun sampleWiring sampleStatus history final ∧
    follow FormSystem.step (FormViewModel.create sampleWiring sampleStatus) switchBeforeRoute = some final ∧
    ¬ final.core.OneMode := by
  obtain ⟨final, followed, mappings⟩ : ∃ final,
      follow FormSystem.step (FormViewModel.create sampleWiring sampleStatus) switchBeforeRoute = some final ∧
      final.core.mappings = [⟨0, sampleTranscript, .onDevice, 0, some ⟨.cloud, true⟩⟩] :=
    follow_reaches (by decide +kernel)
  refine ⟨_, final, Run.of_follow followed, followed, ?_⟩
  intro one
  have chosen := one ⟨0, sampleTranscript, .onDevice, 0, some ⟨.cloud, true⟩⟩ (by rw [mappings]; simp) _ rfl
  cases chosen

end SwitchBeforeRoute

end Form
