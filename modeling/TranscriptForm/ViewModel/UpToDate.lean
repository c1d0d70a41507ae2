import TranscriptForm.ViewModel.SingleFlight

namespace Form

open Kotlin Transition

namespace FormCore

def IsFor (c : FormCore) (response : TranscriptionResponse) (job : MappingJob) : Prop :=
  job.transcript = response ∧ job.mode = c.mode ∧
    ∀ route, job.route = some route →
      route.repository = c.mode ∧
      (c.mode = .onDevice → c.isConfigurable = true → route.orthographyCorrection = c.orthography)

/-- With no mapping in flight, the last one was for what was delivered last, as things stand now. -/
def UpToDate (c : FormCore) : Prop :=
  c.mappings = [] → ∀ response, c.delivered = some response →
    ∃ job, c.lastMapping = some job ∧ job.route.isSome = true ∧ c.IsFor response job

/-- While a mapping is in flight, nothing it depends on changes, and there is no reset. -/
def KeepsUp (c : FormCore) : FormEvent → Prop
  | .applyTranscript response => c.mappings ≠ [] → c.delivered = some response
  | .setAutomationMode mode => c.mappings ≠ [] → mode = c.mode ∨ mode = .onDevice ∧ c.hasOnDevice = false
  | .setOnDeviceOrthographyCorrectionEnabled enabled =>
    c.mappings ≠ [] → c.mode = .onDevice → enabled = c.orthography
  | .reset => False
  | _ => True

instance (c : FormCore) : (event : FormEvent) → Decidable (c.KeepsUp event)
  | .applyTranscript response => inferInstanceAs (Decidable (c.mappings ≠ [] → c.delivered = some response))
  | .setAutomationMode mode =>
    inferInstanceAs (Decidable (c.mappings ≠ [] → mode = c.mode ∨ mode = .onDevice ∧ c.hasOnDevice = false))
  | .setOnDeviceOrthographyCorrectionEnabled enabled =>
    inferInstanceAs (Decidable (c.mappings ≠ [] → c.mode = .onDevice → enabled = c.orthography))
  | .reset => .isFalse id
  | .updateAnswer _ _ | .submitForm | .runOnDeviceLlmTest | .mappingRouted _ | .mappingCompleted _ _ _
  | .llmTestCompleted _ _ | .warmupCompleted _ _ | .modelStatusChanged _ => .isTrue True.intro

/-- The mapping in flight, if there is one, is the last one; every delivered transcript
    was accepted; and the repository has the setting the form shows. -/
structure Current (c : FormCore) : Prop where
  one : c.OneMapping
  flight : ∀ job ∈ c.mappings, c.lastMapping = some job
  accepted : c.lastTranscript = c.delivered
  supported : c.mode = .onDevice → c.hasOnDevice = true
  setting : c.mode = .onDevice → c.isConfigurable = true → c.repositoryOrthography = c.orthography
  last : ∀ response, c.delivered = some response → ∃ job, c.lastMapping = some job ∧ c.IsFor response job ∧
    (job.route.isSome = true ∨ job ∈ c.mappings)

theorem Current.upToDate {c : FormCore} (current : c.Current) : c.UpToDate := by
  intro idle response delivered
  obtain ⟨job, last, isFor, routed | member⟩ := current.last response delivered
  · exact ⟨job, last, routed, isFor⟩
  · rw [idle] at member
    cases member

theorem Current.start {c : FormCore} (idle : c.mappings = []) {response : TranscriptionResponse}
    (accepted : c.lastTranscript = c.delivered) (delivered : c.delivered = some response)
    (supported : c.mode = .onDevice → c.hasOnDevice = true)
    (setting : c.mode = .onDevice → c.isConfigurable = true → c.repositoryOrthography = c.orthography) :
    (c.start response).Current where
  one := by simp [FormCore.start, OneMapping, idle]
  flight := by simp [FormCore.start, idle]
  accepted := accepted
  supported := supported
  setting := setting
  last := by
    intro other same
    have isResponse : response = other := by
      have both : some response = some other := delivered.symm.trans same
      simpa using both
    refine ⟨_, rfl, ⟨isResponse, rfl, ?_⟩, Or.inr ?_⟩
    · intro route routed
      cases routed
    · simp [FormCore.start]

theorem Current.deliver {c : FormCore} (current : c.Current) (response : TranscriptionResponse)
    (keeps : c.KeepsUp (.applyTranscript response)) :
    ({ c with delivered := some response }.apply response).Current := by
  rcases apply_cases response { c with delivered := some response } with ⟨loading, same⟩ | ⟨loading, started⟩
  · have delivered := keeps (current.one.2.mp loading)
    have unchanged : { c with delivered := some response } = c := by
      rw [← delivered]
    rw [same, unchanged]
    exact current
  · rw [started]
    have idle := current.one.idle loading
    exact Current.start (c := { c with delivered := some response, lastTranscript := some response })
      idle rfl rfl current.supported current.setting

theorem Current.remap {c : FormCore} (idle : c.mappings = []) (loading : c.loading = false)
    (accepted : c.lastTranscript = c.delivered)
    (supported : c.mode = .onDevice → c.hasOnDevice = true)
    (setting : c.mode = .onDevice → c.isConfigurable = true → c.repositoryOrthography = c.orthography) :
    c.remap.Current := by
  rcases remap_cases c with ⟨busy | none, same⟩ | ⟨response, last, _, started⟩
  · rw [loading] at busy
    cases busy
  · rw [same]
    refine ⟨?_, ?_, accepted, supported, setting, ?_⟩
    · simp [OneMapping, idle, loading]
    · simp [idle]
    · intro response delivered
      rw [← accepted, none] at delivered
      cases delivered
  · rw [started]
    exact .start idle accepted (accepted.symm.trans last) supported setting

theorem OneMapping.loading_of_running {c : FormCore} (one : c.OneMapping) (running : c.mappings ≠ []) :
    c.loading = true := one.2.mpr running

theorem OneMapping.loading_of_idle {c : FormCore} (one : c.OneMapping) (idle : c.mappings = []) :
    c.loading = false := by
  cases loading : c.loading with
  | false => rfl
  | true => exact absurd idle (one.2.mp loading)

theorem Current.setMode {c : FormCore} (current : c.Current) (mode : FormAutomationMode)
    (keeps : c.KeepsUp (.setAutomationMode mode)) : (c.setMode mode).Current := by
  rcases setMode_cases mode c with ⟨_, same⟩ | ⟨differs, supported, setting, configured, remapped⟩
  · rw [same]
    exact current
  · have idle : c.mappings = [] := by
      by_contra running
      rcases keeps running with same | ⟨onDevice, missing⟩
      · exact differs same.symm
      · rw [supported onDevice] at missing
        cases missing
    rw [remapped]
    exact .remap idle (current.one.loading_of_idle idle) current.accepted supported configured

theorem Current.setOrthography {c : FormCore} (current : c.Current) (enabled : Bool)
    (keeps : c.KeepsUp (.setOnDeviceOrthographyCorrectionEnabled enabled)) :
    (c.setOrthography enabled).Current := by
  obtain ⟨setting, configured, ⟨onDevice, remapped⟩ | ⟨cloud, changed⟩⟩ := setOrthography_cases enabled c
  · rw [remapped]
    by_cases idle : c.mappings = []
    · exact .remap idle (current.one.loading_of_idle idle) current.accepted current.supported
        fun _ => configured
    · have same := keeps idle onDevice
      have loading := current.one.loading_of_running idle
      rcases remap_cases { c with orthography := enabled, repositoryOrthography := setting } with
        ⟨_, kept⟩ | ⟨_, _, free, _⟩
      · rw [kept, same]
        exact ⟨current.one, current.flight, current.accepted, current.supported,
          fun _ configurable => (configured configurable).trans same, current.last⟩
      · rw [loading] at free
        cases free
  · rw [changed]
    refine ⟨current.one, current.flight, current.accepted, current.supported, ?_, ?_⟩
    · intro onDevice
      exact absurd onDevice cloud
    · intro response delivered
      obtain ⟨job, last, ⟨transcript, mode, route⟩, running⟩ := current.last response delivered
      refine ⟨job, last, ⟨transcript, mode, ?_⟩, running⟩
      intro taken routed
      exact ⟨(route taken routed).1, fun onDevice => absurd onDevice cloud⟩

theorem Current.route {c : FormCore} (current : c.Current) {id : Nat} (waiting : ∃ job ∈ c.mappings, job.id = id) :
    (c.route id).Current := by
  have repository : c.repository = c.mode := by
    unfold FormCore.repository
    cases mode : c.mode with
    | cloud => rfl
    | onDevice => simp [current.supported mode]
  obtain ⟨job, member, same⟩ := waiting
  have last := current.flight job member
  refine ⟨?_, ?_, current.accepted, current.supported, current.setting, ?_⟩
  · simpa [OneMapping, FormCore.route] using current.one
  · intro sent sentMember
    simp only [FormCore.route, List.mem_map] at sentMember ⊢
    obtain ⟨before, beforeMember, rfl⟩ := sentMember
    rw [current.flight before beforeMember]
    rfl
  · intro response delivered
    obtain ⟨found, foundLast, ⟨transcript, mode, _⟩, _⟩ := current.last response delivered
    have isJob : found = job := by
      rw [last] at foundLast
      simpa using foundLast.symm
    subst isJob
    refine ⟨{ found with route := some ⟨c.mode, c.repositoryOrthography⟩ }, ?_, ⟨transcript, mode, ?_⟩, Or.inl rfl⟩
    · simp only [FormCore.route, last, Option.map_some, if_pos same, repository]
    · intro route routed
      cases routed
      exact ⟨rfl, current.setting⟩

theorem Current.complete {c : FormCore} (current : c.Current) {job : MappingJob} (member : job ∈ c.mappings)
    (routed : job.route.isSome = true) (result : AppResult TranscriptMappingResult) :
    (c.complete job result).Current := by
  have last := current.flight job member
  have none := current.one.taken member
  have finished : ∀ after : FormCore, after.loading = false → after.mappings = [] →
      after.lastMapping = c.lastMapping → after.lastTranscript = c.lastTranscript →
      after.delivered = c.delivered → after.mode = c.mode → after.hasOnDevice = c.hasOnDevice →
      after.isConfigurable = c.isConfigurable → after.orthography = c.orthography →
      after.repositoryOrthography = c.repositoryOrthography → after.Current := by
    intro after loading idle lastMapping lastTranscript delivered mode hasOnDevice configurable orthography setting
    refine ⟨?_, ?_, ?_, ?_, ?_, ?_⟩
    · simp [OneMapping, loading, idle]
    · simp [idle]
    · rw [lastTranscript, delivered]
      exact current.accepted
    · rw [mode, hasOnDevice]
      exact current.supported
    · rw [mode, configurable, orthography, setting]
      exact current.setting
    · intro response arrived
      rw [delivered] at arrived
      obtain ⟨found, foundLast, isFor, _⟩ := current.last response arrived
      have isJob : found = job := by
        rw [last] at foundLast
        simpa using foundLast.symm
      subst isJob
      refine ⟨found, lastMapping.trans last, ?_, Or.inl routed⟩
      unfold IsFor
      rw [mode, configurable, orthography]
      exact isFor
  cases result with
  | success data => exact finished _ rfl none rfl rfl rfl rfl rfl rfl rfl rfl
  | error message cause => exact finished _ rfl none rfl rfl rfl rfl rfl rfl rfl rfl

theorem Current.step {c after : FormCore} {event : FormEvent} (current : c.Current) (keeps : c.KeepsUp event)
    (taken : c.step event = some after) : after.Current := by
  cases event with
  | applyTranscript response =>
    cases taken
    exact current.deliver response keeps
  | setAutomationMode mode =>
    cases taken
    exact current.setMode mode keeps
  | updateAnswer questionId value =>
    cases taken
    exact ⟨current.one, current.flight, current.accepted, current.supported, current.setting, current.last⟩
  | submitForm =>
    cases taken
    rcases submit_cases c with same | submitted
    · rw [same]
      exact current
    · rw [submitted]
      exact ⟨current.one, current.flight, current.accepted, current.supported, current.setting, current.last⟩
  | setOnDeviceOrthographyCorrectionEnabled enabled =>
    cases taken
    exact current.setOrthography enabled keeps
  | reset => cases keeps
  | mappingRouted id =>
    obtain ⟨waiting, rfl⟩ := step_routed taken
    exact current.route waiting
  | mappingCompleted id result durationMs =>
    obtain ⟨job, member, _, routed, rfl⟩ := step_completed taken
    exact current.complete member routed result
  | runOnDeviceLlmTest =>
    cases taken
    exact current
  | llmTestCompleted id result =>
    cases taken
    exact current
  | warmupCompleted id result =>
    cases taken
    exact current
  | modelStatusChanged status =>
    cases taken
    exact current

theorem initial_current (wiring : Wiring) : (initial wiring).Current := by
  refine ⟨?_, ?_, rfl, ?_, fun _ _ => rfl, ?_⟩
  · simp [initial, OneMapping]
  · simp [initial]
  · simp [initial]
  · simp [initial]

end FormCore

theorem upToDate_of_keepsUp {wiring : Wiring} {status : ModelStatus} {history : List (FormSystem × FormEvent)}
    {final : FormSystem} (run : FormRun wiring status history final)
    (keeps : Guarded (fun s event => s.core.KeepsUp event) history) :
    Always (fun s => s.core.UpToDate) history final := by
  rw [← always_image]
  rw [← guarded_image] at keeps
  have always := run.core.always_of_guarded (FormCore.initial_current wiring)
    (fun _ _ _ current keeps taken => current.step keeps taken) keeps
  exact always.mono fun _ current => current.upToDate

section ModeChangeUnderMapping

def mappedInTurn : List FormEvent :=
  [.applyTranscript sampleTranscript, .mappingRouted 0, .updateAnswer (txt "name") (txt "Ben"),
    .mappingCompleted 0 staleResult 5, .setAutomationMode .onDevice, .mappingRouted 1,
    .mappingCompleted 1 (.error (txt "Timeout") none) 7, .setOnDeviceOrthographyCorrectionEnabled false,
    .mappingRouted 2, .mappingCompleted 2 staleResult 9]

theorem upToDate_mappedInTurn : ∃ final,
    follow FormSystem.step (FormViewModel.create sampleWiring sampleStatus) mappedInTurn = some final ∧
    Always (fun s => s.core.UpToDate)
      (trace FormSystem.step (FormViewModel.create sampleWiring sampleStatus) mappedInTurn) final ∧
    final.core.mappings = [] ∧ final.core.delivered = some sampleTranscript ∧ final.core.mode = .onDevice ∧
    final.core.lastMapping = some ⟨2, sampleTranscript, .onDevice, 0, some ⟨.onDevice, false⟩⟩ := by
  obtain ⟨final, followed, observed⟩ : ∃ final,
      follow FormSystem.step (FormViewModel.create sampleWiring sampleStatus) mappedInTurn = some final ∧
      final.core.mappings = [] ∧ final.core.delivered = some sampleTranscript ∧ final.core.mode = .onDevice ∧
      final.core.lastMapping = some ⟨2, sampleTranscript, .onDevice, 0, some ⟨.onDevice, false⟩⟩ :=
    follow_reaches (by decide +kernel)
  have keeps : Guarded (fun (s : FormSystem) event => s.core.KeepsUp event)
      (trace FormSystem.step (FormViewModel.create sampleWiring sampleStatus) mappedInTurn) := by decide +kernel
  exact ⟨final, followed, upToDate_of_keepsUp (.of_follow followed) keeps, observed⟩

def modeChangeUnderMapping : List FormEvent :=
  [.applyTranscript sampleTranscript, .mappingRouted 0, .setAutomationMode .onDevice,
    .mappingCompleted 0 (.error (txt "Timeout") none) 5]

theorem mode_change_lost : ∃ history final, FormRun sampleWiring sampleStatus history final ∧
    follow FormSystem.step (FormViewModel.create sampleWiring sampleStatus) modeChangeUnderMapping = some final ∧
    ¬ final.core.UpToDate := by
  obtain ⟨final, followed, idle, delivered, mode, last⟩ : ∃ final,
      follow FormSystem.step (FormViewModel.create sampleWiring sampleStatus) modeChangeUnderMapping = some final ∧
      final.core.mappings = [] ∧ final.core.delivered = some sampleTranscript ∧ final.core.mode = .onDevice ∧
      final.core.lastMapping = some ⟨0, sampleTranscript, .cloud, 0, some ⟨.cloud, true⟩⟩ :=
    follow_reaches (by decide +kernel)
  refine ⟨_, final, Run.of_follow followed, followed, ?_⟩
  intro upToDate
  obtain ⟨job, isLast, _, _, sameMode, _⟩ := upToDate idle sampleTranscript delivered
  rw [last, Option.some.injEq] at isLast
  rw [← isLast, mode] at sameMode
  cases sameMode

end ModeChangeUnderMapping

end Form
