import TranscriptForm.ViewModel.FormCore

namespace Form

open Kotlin Transition

namespace FormCore

def OneMapping (c : FormCore) : Prop :=
  c.mappings.length ≤ 1 ∧ (c.loading = true ↔ c.mappings ≠ [])

/-- A mapping from before a reset changes nothing of the form when it comes back. -/
def StaleIgnored (c : FormCore) : Prop :=
  ∀ id result durationMs job after,
    c.mappings.find? (fun job => job.id == id && job.route.isSome) = some job → job.resets < c.resets →
    c.step (.mappingCompleted id result durationMs) = some after →
    after.entries = c.entries ∧ after.speakerBlocks = c.speakerBlocks

def SingleFlight (c : FormCore) : Prop := c.OneMapping ∧ c.StaleIgnored

def ResetsIdle (c : FormCore) (event : FormEvent) : Prop := event = .reset → c.mappings = []

instance (c : FormCore) (event : FormEvent) : Decidable (c.ResetsIdle event) :=
  inferInstanceAs (Decidable (event = .reset → c.mappings = []))

/-- What single flight rests on: no mapping in flight is older than the last reset. -/
def Fresh (c : FormCore) : Prop :=
  c.OneMapping ∧ ∀ job ∈ c.mappings, job.resets = c.resets

theorem Fresh.congr {c after : FormCore} (fresh : c.Fresh) (mappings : after.mappings = c.mappings)
    (loading : after.loading = c.loading) (resets : after.resets = c.resets) : after.Fresh := by
  unfold Fresh OneMapping
  rw [mappings, loading, resets]
  exact fresh

theorem OneMapping.idle {c : FormCore} (one : c.OneMapping) (loading : c.loading = false) : c.mappings = [] := by
  have none : ¬ c.mappings ≠ [] := by
    rw [← one.2, loading]
    decide
  exact not_not.mp none

theorem Fresh.start {c : FormCore} (fresh : c.Fresh) (loading : c.loading = false)
    (response : TranscriptionResponse) : (c.start response).Fresh := by
  have idle := fresh.1.idle loading
  simp [FormCore.start, Fresh, OneMapping, idle]

theorem Fresh.route {c : FormCore} (fresh : c.Fresh) (id : Nat) : (c.route id).Fresh := by
  have sent : ∀ job : MappingJob, ∀ route,
      (if job.id = id then { job with route := some route } else job).resets = job.resets := by
    intro job route
    split <;> rfl
  obtain ⟨⟨atMost, loading⟩, resets⟩ := fresh
  refine ⟨⟨?_, ?_⟩, ?_⟩
  · simpa [FormCore.route] using atMost
  · simpa [FormCore.route] using loading
  · intro job member
    simp only [FormCore.route, List.mem_map] at member
    obtain ⟨before, member, rfl⟩ := member
    rw [sent]
    exact resets before member

theorem OneMapping.taken {c : FormCore} (one : c.OneMapping) {job : MappingJob} (member : job ∈ c.mappings) :
    (c.mappings.eraseP fun other => other.id == job.id) = [] := by
  have removed := List.length_eraseP_of_mem (p := fun other : MappingJob => other.id == job.id) member (by simp)
  have atMost := one.1
  apply List.length_eq_zero_iff.mp
  omega

theorem complete_flight (job : MappingJob) (result : AppResult TranscriptMappingResult) (c : FormCore) :
    (c.complete job result).loading = false ∧
      (c.complete job result).mappings = c.mappings.eraseP (fun other => other.id == job.id) := by
  cases result with
  | success data => exact ⟨rfl, rfl⟩
  | error message cause => exact ⟨rfl, rfl⟩

theorem Fresh.complete {c : FormCore} (fresh : c.Fresh) {job : MappingJob} (member : job ∈ c.mappings)
    (result : AppResult TranscriptMappingResult) : (c.complete job result).Fresh := by
  obtain ⟨loading, mappings⟩ := complete_flight job result c
  rw [fresh.1.taken member] at mappings
  simp [Fresh, OneMapping, loading, mappings]

theorem Fresh.step {c after : FormCore} {event : FormEvent} (fresh : c.Fresh) (idle : c.ResetsIdle event)
    (taken : c.step event = some after) : after.Fresh := by
  cases step_cases taken with
  | adjusted keeps => exact fresh.congr rfl rfl rfl
  | started keeps free response =>
    apply Fresh.start
    · exact fresh.congr rfl rfl rfl
    · exact free
  | answered => exact fresh.congr rfl rfl rfl
  | submitted valid => exact fresh.congr rfl rfl rfl
  | cleared =>
    have none := idle rfl
    simp [clear, Fresh, OneMapping, none]
  | routed waiting => exact fresh.route _
  | completed member same routed => exact fresh.complete member _

theorem Fresh.singleFlight {c : FormCore} (fresh : c.Fresh) : c.SingleFlight := by
  refine ⟨fresh.1, ?_⟩
  intro id result durationMs job after found stale _
  have current := fresh.2 job (List.mem_of_find?_eq_some found)
  omega

theorem initial_fresh (wiring : Wiring) : (initial wiring).Fresh := by
  simp [initial, Fresh, OneMapping]

theorem reset_loses_lock {c after : FormCore} {event : FormEvent} (outside : ¬ c.ResetsIdle event)
    (taken : c.step event = some after) : ¬ after.SingleFlight := by
  obtain ⟨isReset, running⟩ := Classical.not_imp.mp outside
  rw [isReset] at taken
  cases taken
  intro single
  have loading : c.clear.loading = true := single.1.2.mpr running
  exact absurd loading (by simp [clear])

end FormCore

theorem singleFlight_iff {wiring : Wiring} {status : ModelStatus} {history : List (FormSystem × FormEvent)}
    {final : FormSystem} (run : FormRun wiring status history final) :
    Always (fun s => s.core.SingleFlight) history final ↔
      Guarded (fun s event => s.core.ResetsIdle event) history := by
  rw [← always_image, ← guarded_image]
  exact run.core.always_iff_guarded (FormCore.initial_fresh wiring)
    (fun _ _ _ fresh idle taken => fresh.step idle taken)
    (fun _ fresh => fresh.singleFlight)
    (fun _ _ _ _ outside taken => FormCore.reset_loses_lock outside taken)

section ResetUnderMapping

def sampleWiring : Wiring := ⟨DefaultFormDefinitionProvider.questions, some ⟨true, true⟩⟩

def sampleStatus : ModelStatus := ⟨true, true, false⟩

def sampleTranscript : TranscriptionResponse := { text := txt "Ich bin Anna." }

def staleResult : AppResult TranscriptMappingResult :=
  .success { speakerBlocks := [], fieldAnswers := .ofPairs [(txt "name", txt "Anna")] }

def mappedTwice : List FormEvent :=
  [.applyTranscript sampleTranscript, .mappingRouted 0, .mappingCompleted 0 staleResult 5,
    .setAutomationMode .onDevice, .mappingRouted 1, .mappingCompleted 1 (.error (txt "Timeout") none) 7, .reset]

theorem singleFlight_iff_mappedTwice : ∃ final,
    follow FormSystem.step (FormViewModel.create sampleWiring sampleStatus) mappedTwice = some final ∧
    Always (fun s => s.core.SingleFlight)
      (trace FormSystem.step (FormViewModel.create sampleWiring sampleStatus) mappedTwice) final ∧
    final.core.nextMapping = 2 ∧ final.core.resets = 1 := by
  obtain ⟨final, followed, observed⟩ : ∃ final,
      follow FormSystem.step (FormViewModel.create sampleWiring sampleStatus) mappedTwice = some final ∧
      final.core.nextMapping = 2 ∧ final.core.resets = 1 := follow_reaches (by decide +kernel)
  have idle : Guarded (fun (s : FormSystem) event => s.core.ResetsIdle event)
      (trace FormSystem.step (FormViewModel.create sampleWiring sampleStatus) mappedTwice) := by decide +kernel
  exact ⟨final, followed, (singleFlight_iff (.of_follow followed)).mpr idle, observed⟩

def resetUnderMapping : List FormEvent := [.applyTranscript sampleTranscript, .mappingRouted 0, .reset]

def staleJob : MappingJob := ⟨0, sampleTranscript, .cloud, 0, some ⟨.cloud, true⟩⟩

/-- The mapping outlives the reset: the form counts as idle, and its result fills the emptied form. -/
theorem reset_not_final : ∃ history final, FormRun sampleWiring sampleStatus history final ∧
    follow FormSystem.step (FormViewModel.create sampleWiring sampleStatus) resetUnderMapping = some final ∧
    ¬ final.core.OneMapping ∧ ¬ final.core.StaleIgnored := by
  obtain ⟨final, followed, idle, running, found, resets, changed⟩ : ∃ final,
      follow FormSystem.step (FormViewModel.create sampleWiring sampleStatus) resetUnderMapping = some final ∧
      final.core.loading = false ∧ final.core.mappings ≠ [] ∧
      final.core.mappings.find? (fun job => job.id == 0 && job.route.isSome) = some staleJob ∧ final.core.resets = 1 ∧
      (final.core.complete staleJob staleResult).entries ≠ final.core.entries := follow_reaches (by decide +kernel)
  refine ⟨_, final, Run.of_follow followed, followed, ?_, ?_⟩
  · intro one
    have loading := one.2.mpr running
    rw [idle] at loading
    cases loading
  · intro ignored
    have stale : staleJob.resets < final.core.resets := by
      rw [resets]
      decide
    have taken : final.core.step (.mappingCompleted 0 staleResult 5) =
        some (final.core.complete staleJob staleResult) := by
      simp only [FormCore.step, found]
    have kept := ignored 0 staleResult 5 staleJob _ found stale taken
    exact changed kept.1

end ResetUnderMapping

end Form
