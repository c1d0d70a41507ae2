import TranscriptForm.ViewModel.SingleFlight

namespace Form

open Kotlin Transition

namespace FormCore

def answers (c : FormCore) : List FormAnswer := c.entries.map FormEntry.answer

def SubmittedAsShown (c : FormCore) : Prop := c.submitted = true → c.submittedAnswers = some c.answers

def Agrees (fieldAnswers : Answers) (entry : FormEntry) : Prop :=
  ∀ value, fieldAnswers.get? entry.question.id = some value → isNotBlank value = true → value = entry.answer.value

instance (fieldAnswers : Answers) (entry : FormEntry) : Decidable (Agrees fieldAnswers entry) :=
  inferInstanceAs (Decidable (∀ value ∈ fieldAnswers.get? entry.question.id,
    isNotBlank value = true → value = entry.answer.value))

def CompletesUnsubmitted (c : FormCore) (event : FormEvent) : Prop :=
  ∀ id data durationMs, event = .mappingCompleted id (.success data) durationMs → c.submitted = true →
    ∀ entry ∈ c.entries, Agrees data.fieldAnswers entry

instance (c : FormCore) : (event : FormEvent) → Decidable (c.CompletesUnsubmitted event)
  | .mappingCompleted id (.success data) durationMs =>
    decidable_of_iff (c.submitted = true → ∀ entry ∈ c.entries, Agrees data.fieldAnswers entry)
      ⟨by rintro agrees _ _ _ ⟨⟩; exact agrees, fun completes => completes id data durationMs rfl⟩
  | .mappingCompleted _ (.error _ _) _ | .applyTranscript _ | .setAutomationMode _ | .updateAnswer _ _ | .submitForm
  | .runOnDeviceLlmTest | .setOnDeviceOrthographyCorrectionEnabled _ | .reset | .mappingRouted _
  | .llmTestCompleted _ _ | .warmupCompleted _ _ | .modelStatusChanged _ => .isTrue (by rintro _ _ _ ⟨⟩)

theorem prefill_answer_iff (fieldAnswers : Answers) (entry : FormEntry) :
    (FormViewModel.prefill fieldAnswers entry).answer = entry.answer ↔ Agrees fieldAnswers entry := by
  unfold FormViewModel.prefill Agrees
  cases found : fieldAnswers.get? entry.question.id with
  | none => simp
  | some value =>
    obtain ⟨question, ⟨questionId, shown⟩⟩ := entry
    by_cases filled : isNotBlank value = true
    · simp [filled]
    · simp [filled]

theorem prefill_answers_iff (fieldAnswers : Answers) (entries : List FormEntry) :
    (entries.map (FormViewModel.prefill fieldAnswers)).map FormEntry.answer = entries.map FormEntry.answer ↔
      ∀ entry ∈ entries, Agrees fieldAnswers entry := by
  rw [List.map_map, List.map_inj_left]
  exact forall₂_congr fun entry _ => prefill_answer_iff fieldAnswers entry

theorem SubmittedAsShown.congr {c after : FormCore} (shown : c.SubmittedAsShown)
    (submitted : after.submitted = c.submitted) (submittedAnswers : after.submittedAnswers = c.submittedAnswers)
    (entries : after.entries = c.entries) : after.SubmittedAsShown := by
  unfold SubmittedAsShown answers
  rw [submitted, submittedAnswers, entries]
  exact shown

theorem SubmittedAsShown.of_withdrawn {c : FormCore} (withdrawn : c.submitted = false) : c.SubmittedAsShown := by
  intro submitted
  rw [withdrawn] at submitted
  cases submitted

theorem complete_shown_iff (job : MappingJob) (data : TranscriptMappingResult) (c : FormCore)
    (shown : c.SubmittedAsShown) : (c.complete job (.success data)).SubmittedAsShown ↔
      (c.submitted = true → ∀ entry ∈ c.entries, Agrees data.fieldAnswers entry) := by
  change (c.submitted = true → c.submittedAnswers =
    some ((c.entries.map (FormViewModel.prefill data.fieldAnswers)).map FormEntry.answer)) ↔ _
  apply forall_congr'
  intro submitted
  rw [shown submitted, Option.some.injEq, answers, eq_comm, prefill_answers_iff]

theorem SubmittedAsShown.step {c after : FormCore} {event : FormEvent} (shown : c.SubmittedAsShown)
    (unsubmitted : c.CompletesUnsubmitted event) (taken : c.step event = some after) : after.SubmittedAsShown := by
  cases step_cases taken with
  | adjusted keeps => exact shown.congr rfl rfl rfl
  | started keeps free response => exact .of_withdrawn rfl
  | answered => exact .of_withdrawn rfl
  | submitted valid => exact fun _ => rfl
  | cleared => exact .of_withdrawn rfl
  | routed waiting => exact shown.congr rfl rfl rfl
  | @completed id durationMs result job member same routed =>
    cases result with
    | success data => exact (complete_shown_iff job data c shown).mpr (unsubmitted id data durationMs rfl)
    | error message cause => exact shown.congr rfl rfl rfl

theorem completion_changes_submitted {c after : FormCore} {event : FormEvent} (shown : c.SubmittedAsShown)
    (outside : ¬ c.CompletesUnsubmitted event) (taken : c.step event = some after) :
    ¬ after.SubmittedAsShown := by
  intro still
  apply outside
  intro id data durationMs completed
  rw [completed] at taken
  obtain ⟨job, _, _, _, rfl⟩ := step_completed taken
  exact (complete_shown_iff job data c shown).mp still

end FormCore

theorem submittedAsShown_iff {wiring : Wiring} {status : ModelStatus} {history : List (FormSystem × FormEvent)}
    {final : FormSystem} (run : FormRun wiring status history final) :
    Always (fun s => s.core.SubmittedAsShown) history final ↔
      Guarded (fun s event => s.core.CompletesUnsubmitted event) history := by
  rw [← always_image, ← guarded_image]
  have fresh : (FormCore.initial wiring).SubmittedAsShown := .of_withdrawn rfl
  exact run.core.always_iff_guarded fresh
    (fun _ _ _ shown unsubmitted taken => shown.step unsubmitted taken)
    (fun _ shown => shown)
    (fun _ _ _ shown outside taken => FormCore.completion_changes_submitted shown outside taken)

section SubmitUnderMapping

def submitAsMapped : List FormEvent :=
  [.applyTranscript sampleTranscript, .mappingRouted 0, .updateAnswer (txt "name") (txt "Anna"),
    .updateAnswer (txt "problem") (txt "Der Akku"), .submitForm, .mappingCompleted 0 staleResult 5]

theorem submittedAsShown_iff_submitAsMapped : ∃ final,
    follow FormSystem.step (FormViewModel.create sampleWiring sampleStatus) submitAsMapped = some final ∧
    Always (fun s => s.core.SubmittedAsShown)
      (trace FormSystem.step (FormViewModel.create sampleWiring sampleStatus) submitAsMapped) final ∧
    final.core.submitted = true ∧ final.core.mappings = [] ∧
    ⟨txt "problem", txt "Der Akku"⟩ ∈ final.core.answers := by
  obtain ⟨final, followed, observed⟩ : ∃ final,
      follow FormSystem.step (FormViewModel.create sampleWiring sampleStatus) submitAsMapped = some final ∧
      final.core.submitted = true ∧ final.core.mappings = [] ∧ ⟨txt "problem", txt "Der Akku"⟩ ∈ final.core.answers :=
    follow_reaches (by decide +kernel)
  have agrees : Guarded (fun (s : FormSystem) event => s.core.CompletesUnsubmitted event)
      (trace FormSystem.step (FormViewModel.create sampleWiring sampleStatus) submitAsMapped) := by decide +kernel
  exact ⟨final, followed, (submittedAsShown_iff (.of_follow followed)).mpr agrees, observed⟩

def submitUnderMapping : List FormEvent :=
  [.applyTranscript sampleTranscript, .mappingRouted 0, .updateAnswer (txt "name") (txt "Ben"),
    .updateAnswer (txt "problem") (txt "Der Akku"), .submitForm, .mappingCompleted 0 staleResult 5]

theorem submission_overwritten : ∃ history final, FormRun sampleWiring sampleStatus history final ∧
    follow FormSystem.step (FormViewModel.create sampleWiring sampleStatus) submitUnderMapping = some final ∧
    ¬ final.core.SubmittedAsShown := by
  obtain ⟨final, followed, submitted, changed⟩ : ∃ final,
      follow FormSystem.step (FormViewModel.create sampleWiring sampleStatus) submitUnderMapping = some final ∧
      final.core.submitted = true ∧ final.core.submittedAnswers ≠ some final.core.answers :=
    follow_reaches (by decide +kernel)
  exact ⟨_, final, Run.of_follow followed, followed, fun shown => changed (shown submitted)⟩

end SubmitUnderMapping

end Form
