import TranscriptForm.ViewModel.SingleFlight

namespace Form

open Kotlin Transition

theorem rewrite_question (event : FormEvent) (entry : FormEntry) :
    (FormCore.rewrite event entry).question = entry.question ∧
      (FormCore.rewrite event entry).answer.questionId = entry.answer.questionId := by
  cases event with
  | updateAnswer questionId value =>
    simp only [FormCore.rewrite, FormViewModel.setAnswer]
    split <;> exact ⟨rfl, rfl⟩
  | mappingCompleted id result durationMs =>
    cases result with
    | success data =>
      simp only [FormCore.rewrite, FormViewModel.prefill]
      split
      · split <;> exact ⟨rfl, rfl⟩
      · exact ⟨rfl, rfl⟩
    | error message cause => exact ⟨rfl, rfl⟩
  | _ => exact ⟨rfl, rfl⟩

def FormEvent.Answers (questionId value : KString) : FormEvent → Prop
  | .updateAnswer id entered => id = questionId ∧ value = entered
  | .reset => value = []
  | .mappingCompleted _ (.success data) _ => data.fieldAnswers.get? questionId = some value ∧ isNotBlank value = true
  | _ => False

theorem rewrite_answer (event : FormEvent) (entry : FormEntry) :
    FormCore.rewrite event entry = entry ∨
      event.Answers entry.question.id (FormCore.rewrite event entry).answer.value := by
  cases event with
  | updateAnswer questionId value =>
    by_cases own : entry.question.id = questionId
    · simp [FormCore.rewrite, FormViewModel.setAnswer, FormEvent.Answers, own]
    · simp [FormCore.rewrite, FormViewModel.setAnswer, own]
  | reset => exact Or.inr rfl
  | mappingCompleted id result durationMs =>
    cases result with
    | success data =>
      simp only [FormCore.rewrite, FormViewModel.prefill, FormEvent.Answers]
      cases found : data.fieldAnswers.get? entry.question.id with
      | none => exact Or.inl rfl
      | some value =>
        by_cases filled : isNotBlank value = true
        · simp [filled]
        · simp [filled]
    | error message cause => exact Or.inl rfl
  | _ => exact Or.inl rfl

namespace FormCore

theorem step_entries {c after : FormCore} {event : FormEvent} (taken : c.step event = some after) :
    after.entries = c.entries.map (rewrite event) := by
  have kept : rewrite event = id → c.entries = c.entries.map (rewrite event) := by
    intro keeps
    rw [keeps, List.map_id]
  cases step_cases taken with
  | adjusted keeps => exact kept keeps
  | started keeps free response => exact kept keeps
  | answered => rfl
  | submitted valid => exact kept rfl
  | cleared => rfl
  | routed waiting => exact kept rfl
  | @completed id durationMs result job member same routed =>
    cases result with
    | success data => rfl
    | error message cause => exact kept rfl

structure WellFormed (definition : FormDefinition) (c : FormCore) : Prop where
  questions : c.entries.map FormEntry.question = definition
  own : ∀ entry ∈ c.entries, entry.answer.questionId = entry.question.id
  submitted : c.submitted = true → c.isValid = true

theorem complete_valid {job : MappingJob} {result : AppResult TranscriptMappingResult} {c : FormCore}
    (valid : c.isValid = true) : (c.complete job result).isValid = true := by
  cases result with
  | error message cause => exact valid
  | success data =>
    simp only [isValid, complete, List.all_eq_true, List.forall_mem_map] at valid ⊢
    intro entry member
    have before := valid entry member
    unfold FormViewModel.prefill
    split
    · split
      · rename_i filled
        simp [filled]
      · exact before
    · exact before

theorem WellFormed.step {definition : FormDefinition} {c after : FormCore} {event : FormEvent}
    (formed : c.WellFormed definition) (taken : c.step event = some after) : after.WellFormed definition := by
  refine ⟨?_, ?_, ?_⟩
  · have questions : FormEntry.question ∘ rewrite event = FormEntry.question := by
      funext entry
      exact (rewrite_question event entry).1
    rw [step_entries taken, List.map_map, questions]
    exact formed.questions
  · rw [step_entries taken]
    intro entry member
    obtain ⟨before, beforeMember, rfl⟩ := List.mem_map.mp member
    obtain ⟨question, questionId⟩ := rewrite_question event before
    rw [question, questionId]
    exact formed.own before beforeMember
  · intro submitted
    cases step_cases taken with
    | adjusted keeps => exact formed.submitted submitted
    | started keeps free response => cases submitted
    | answered => cases submitted
    | submitted valid => exact valid
    | cleared => cases submitted
    | routed waiting => exact formed.submitted submitted
    | @completed id durationMs result job member same routed =>
      have before : c.submitted = true := by
        cases result with
        | success data => exact submitted
        | error message cause => exact submitted
      exact complete_valid (formed.submitted before)

theorem initial_wellFormed (wiring : Wiring) : (initial wiring).WellFormed wiring.definition := by
  refine ⟨?_, ?_, ?_⟩
  · have questions : (FormEntry.question ∘ fun question => (⟨question, ⟨question.id, []⟩⟩ : FormEntry)) = id := rfl
    rw [initial, List.map_map, questions, List.map_id]
  · intro entry member
    obtain ⟨question, _, rfl⟩ := List.mem_map.mp member
    rfl
  · intro submitted
    cases submitted

theorem step_answer {definition : FormDefinition} (distinct : (definition.map FormQuestion.id).Nodup)
    {c after : FormCore} {event : FormEvent} (formed : c.WellFormed definition)
    (taken : c.step event = some after) {entry later : FormEntry} (member : entry ∈ c.entries)
    (laterMember : later ∈ after.entries) (same : later.question.id = entry.question.id) :
    later.answer = entry.answer ∨ event.Answers entry.question.id later.answer.value := by
  rw [step_entries taken] at laterMember
  obtain ⟨before, beforeMember, rfl⟩ := List.mem_map.mp laterMember
  rw [(rewrite_question event before).1] at same
  have ids : (c.entries.map fun entry => entry.question.id).Nodup := by
    rw [← formed.questions, List.map_map] at distinct
    exact distinct
  have isEntry : before = entry := List.inj_on_of_nodup_map ids beforeMember member same
  subst isEntry
  rcases rewrite_answer event before with kept | given
  · exact Or.inl (congrArg FormEntry.answer kept)
  · exact Or.inr given

end FormCore

section Logs

open FormViewModel

theorem takeLast_append {α : Type} (n : Nat) (earlier : List α) (last : α) :
    takeLast n (takeLast n earlier ++ [last]) = takeLast n (earlier ++ [last]) := by
  unfold takeLast
  rw [List.length_append, List.length_append, List.length_drop, List.length_singleton]
  by_cases short : earlier.length ≤ n
  · have all : earlier.length - n = 0 := by omega
    rw [all]
    rfl
  · have whole : earlier.drop (earlier.length - n) ++ [last] = (earlier ++ [last]).drop (earlier.length - n) := by
      rw [List.drop_append_of_le_length (by omega)]
    rw [whole, List.drop_drop]
    congr 1
    omega

theorem length_takeLast {α : Type} (n : Nat) (l : List α) : (takeLast n l).length ≤ n := by
  rw [takeLast, List.length_drop]
  omega

def FormSystem.Logged (s : FormSystem) : Prop :=
  s.uiState.mappingLogs = takeLast maxLogEntries s.history.logged

namespace FormSystem.Logged

variable {s : FormSystem}

theorem appendLog (logged : s.Logged) (message : KString) : (FormViewModel.appendLog message s).Logged := by
  show takeLast maxLogEntries (s.uiState.mappingLogs ++ [message]) =
    takeLast maxLogEntries (s.history.logged ++ [message])
  rw [logged]
  exact takeLast_append _ _ _

theorem refresh (logged : s.Logged) : (refreshOnDeviceLlmModelReady s).Logged := logged

theorem warmup (logged : s.Logged) : (warmupOnDeviceModelIfNeeded s).Logged := by
  unfold warmupOnDeviceModelIfNeeded
  split
  · exact logged
  · split
    · exact logged
    · split
      · exact logged
      · exact logged

theorem configure (logged : s.Logged) (enabled : Bool) : (configureRepository enabled s).Logged := by
  unfold configureRepository
  split
  · exact logged
  · exact logged

theorem launch (logged : s.Logged) (response : TranscriptionResponse) : (launchMapping response s).Logged := by
  have announced : (announceMapping response s).Logged := by
    unfold announceMapping
    dsimp only
    apply appendLog
    apply appendLog
    split
    · exact (logged.appendLog _).refresh
    · exact logged.appendLog _
  exact announced

theorem apply (logged : s.Logged) (response : TranscriptionResponse) : (applyTranscript response s).Logged := by
  unfold applyTranscript
  split
  · exact logged
  · have kept : { s with lastTranscript := some response }.Logged := logged
    exact kept.launch response

theorem applyLast (logged : s.Logged) : (applyLastTranscript s).Logged := by
  unfold applyLastTranscript
  split
  · exact logged.apply _
  · exact logged

theorem prepare (logged : s.Logged) : (prepareOnDevice s).Logged := by
  unfold prepareOnDevice
  exact logged.refresh.warmup.configure _

theorem setMode (logged : s.Logged) (mode : FormAutomationMode) : (setAutomationMode mode s).Logged := by
  unfold setAutomationMode
  split
  · exact logged
  · split
    · exact logged
    · dsimp only
      apply applyLast
      split
      · exact (logged.appendLog _).prepare
      · exact logged.appendLog _

theorem submit (logged : s.Logged) : (submitForm s).Logged := by
  unfold submitForm
  split
  · exact logged
  · apply appendLog
    exact logged

theorem runTest (logged : s.Logged) : (runOnDeviceLlmTest s).Logged := by
  unfold runOnDeviceLlmTest
  split
  · exact logged
  · split
    · exact logged
    · split
      · exact logged
      · split
        · exact logged
        · exact logged.appendLog _

theorem completeTest (logged : s.Logged) (id : Nat) (result : AppResult Unit) :
    (completeLlmTest id result s).Logged := by
  have taken : { s with llmTests := s.llmTests.erase id }.Logged := logged
  cases result with
  | success => exact taken.appendLog _
  | error => exact taken.appendLog _

theorem completeWarmup (logged : s.Logged) (id : Nat) (result : AppResult Unit) :
    (FormViewModel.completeWarmup id result s).Logged := by
  have taken : { s with warmups := s.warmups.erase id }.Logged := logged
  exact (taken.appendLog _).refresh

theorem setOrthography (logged : s.Logged) (enabled : Bool) :
    (setOnDeviceOrthographyCorrectionEnabled enabled s).Logged := by
  have switched : (update s fun current => { current with
      onDeviceOrthographyCorrectionEnabled := enabled
      mappingError := none
      mappingSourceError := none }).Logged := logged
  have remapped : ∀ t : FormSystem, t.Logged →
      (if t.uiState.automationMode = .onDevice then applyLastTranscript t else t).Logged := by
    intro t logged
    split
    · exact logged.applyLast
    · exact logged
  exact remapped _ ((switched.appendLog _).configure enabled)

theorem logStatus (logged : s.Logged) (result : TranscriptMappingResult) : (logOnDeviceStatus result s).Logged := by
  unfold logOnDeviceStatus
  dsimp only
  split
  · exact (logged.appendLog _).appendLog _
  · exact logged.appendLog _

theorem logSuccess (logged : s.Logged) (mode : FormAutomationMode) (durationMs : Nat)
    (result : TranscriptMappingResult) : (FormViewModel.logSuccess mode durationMs result s).Logged := by
  have status : ∀ t : FormSystem, t.Logged → (if mode = .onDevice then logOnDeviceStatus result t else t).Logged := by
    intro t logged
    split
    · exact logged.logStatus result
    · exact logged
  have source : ∀ t : FormSystem, t.Logged → (if isNullOrBlank (sourceErrorMessage mode result) then t
      else FormViewModel.appendLog ((sourceErrorMessage mode result).getD []) t).Logged := by
    intro t logged
    split
    · exact logged
    · exact logged.appendLog _
  unfold FormViewModel.logSuccess
  dsimp only
  apply appendLog
  apply appendLog
  apply source
  apply status
  exact (logged.appendLog _).appendLog _

theorem complete (logged : s.Logged) (job : MappingJob) (result : AppResult TranscriptMappingResult)
    (durationMs : Nat) : (completeMapping job result durationMs s).Logged := by
  have taken : { s with mappings := s.mappings.eraseP fun other => other.id == job.id }.Logged := logged
  have failed : ∀ t : FormSystem, t.Logged → ∀ message, (mappingFailed durationMs message t).Logged := by
    intro t logged message
    have twice := (logged.appendLog (txt "Mapping fehlgeschlagen: " ++ message)).appendLog
      (txt "Mapping-Ende (Fehler): " ++ number durationMs ++ txt "ms")
    exact twice
  cases result with
  | success data => exact taken.logSuccess job.mode durationMs data
  | error message cause =>
    show (mappingFailed durationMs message _).Logged
    exact failed _ taken _

theorem step {after : FormSystem} {event : FormEvent} (logged : s.Logged)
    (taken : s.step event = some after) : after.Logged := by
  cases event with
  | applyTranscript response =>
    cases taken
    have delivered : { s with history := { s.history with delivered := some response } }.Logged := logged
    exact delivered.apply response
  | setAutomationMode mode =>
    cases taken
    exact logged.setMode mode
  | updateAnswer questionId value =>
    cases taken
    exact logged
  | submitForm =>
    cases taken
    exact logged.submit
  | runOnDeviceLlmTest =>
    cases taken
    exact logged.runTest
  | setOnDeviceOrthographyCorrectionEnabled enabled =>
    cases taken
    exact logged.setOrthography enabled
  | reset =>
    cases taken
    rfl
  | mappingRouted id =>
    simp only [FormSystem.step, Option.ite_none_right_eq_some, Option.some.injEq] at taken
    obtain ⟨_, rfl⟩ := taken
    exact logged
  | mappingCompleted id result durationMs =>
    simp only [FormSystem.step] at taken
    split at taken
    · cases taken
      exact logged.complete _ result durationMs
    · cases taken
  | llmTestCompleted id result =>
    simp only [FormSystem.step, Option.ite_none_right_eq_some, Option.some.injEq] at taken
    obtain ⟨_, rfl⟩ := taken
    exact logged.completeTest id result
  | warmupCompleted id result =>
    simp only [FormSystem.step, Option.ite_none_right_eq_some, Option.some.injEq] at taken
    obtain ⟨_, rfl⟩ := taken
    exact logged.completeWarmup id result
  | modelStatusChanged status =>
    cases taken
    exact logged

end FormSystem.Logged

theorem create_logged (wiring : Wiring) (status : ModelStatus) : (create wiring status).Logged := by
  unfold create
  dsimp only
  split
  · apply FormSystem.Logged.warmup
    rfl
  · rfl

end Logs

structure FormSystem.Structured (definition : FormDefinition) (s : FormSystem) : Prop where
  questions : s.uiState.entries.map FormEntry.question = definition
  own : ∀ entry ∈ s.uiState.entries, entry.answer.questionId = entry.question.id
  submitted : s.uiState.isSubmitted = true → s.uiState.isValid = true
  logs : s.uiState.mappingLogs = FormViewModel.takeLast FormViewModel.maxLogEntries s.history.logged
  window : s.uiState.mappingLogs.length ≤ 16

theorem FormSystem.structured {definition : FormDefinition} {s : FormSystem} (formed : s.core.WellFormed definition)
    (logged : s.Logged) : s.Structured definition where
  questions := formed.questions
  own := formed.own
  submitted := formed.submitted
  logs := logged
  window := by
    rw [logged]
    exact length_takeLast FormViewModel.maxLogEntries s.history.logged

theorem FormEvent.Answers.notBlank {event : FormEvent} {questionId value : KString}
    (given : event.Answers questionId value) (notEntered : ∀ id entered, event ≠ .updateAnswer id entered)
    (notReset : event ≠ .reset) : isNotBlank value = true := by
  cases event with
  | updateAnswer id entered => exact absurd rfl (notEntered id entered)
  | reset => exact absurd rfl notReset
  | mappingCompleted id result durationMs =>
    cases result with
    | success data => exact given.2
    | error message cause => exact given.elim
  | _ => exact given.elim

/-- Every state of a run is structured, and from it every step changes an answer only to
    one that the step gives to its question, by a mapping never to a blank one. -/
theorem form_structure {wiring : Wiring} {status : ModelStatus} {history : List (FormSystem × FormEvent)}
    {final : FormSystem} (distinct : (wiring.definition.map FormQuestion.id).Nodup)
    (run : FormRun wiring status history final) :
    Always (FormSystem.Structured wiring.definition) history final ∧
      ∀ event after, final.step event = some after → ∀ entry ∈ final.uiState.entries,
        ∀ later ∈ after.uiState.entries, later.question.id = entry.question.id →
          (later.answer = entry.answer ∨ event.Answers entry.question.id later.answer.value) ∧
          ((∀ id entered, event ≠ .updateAnswer id entered) → event ≠ .reset →
            isNotBlank entry.answer.value = true → isNotBlank later.answer.value = true) := by
  have formed : Always (fun s => s.core.WellFormed wiring.definition) history final := by
    rw [← always_image]
    exact run.core.always (FormCore.initial_wellFormed wiring) fun _ _ _ formed taken => formed.step taken
  have logged : Always FormSystem.Logged history final :=
    run.always (create_logged wiring status) fun _ _ _ logged taken => logged.step taken
  refine ⟨⟨?_, ?_⟩, ?_⟩
  · intro taken member
    exact FormSystem.structured (formed.1 taken member) (logged.1 taken member)
  · exact FormSystem.structured formed.2 logged.2
  · intro event after taken entry member later laterMember same
    have answer := FormCore.step_answer distinct formed.2 (core_step taken) member laterMember same
    refine ⟨answer, ?_⟩
    intro notEntered notReset filled
    rcases answer with kept | given
    · rw [kept]
      exact filled
    · exact given.notBlank notEntered notReset

def filledIn : List FormEvent :=
  [.applyTranscript sampleTranscript, .mappingRouted 0, .mappingCompleted 0 staleResult 5, .reset,
    .updateAnswer (txt "problem") (txt "Der Akku"), .applyTranscript sampleTranscript, .mappingRouted 1,
    .mappingCompleted 1 staleResult 9, .setAutomationMode .onDevice, .mappingRouted 2,
    .mappingCompleted 2 (.error (txt "Timeout") none) 7, .applyTranscript sampleTranscript, .mappingRouted 3,
    .mappingCompleted 3 staleResult 8, .submitForm]

theorem form_structure_filledIn : ∃ final,
    follow FormSystem.step (FormViewModel.create sampleWiring sampleStatus) filledIn = some final ∧
    (Always (FormSystem.Structured sampleWiring.definition)
        (trace FormSystem.step (FormViewModel.create sampleWiring sampleStatus) filledIn) final ∧
      ∀ event after, final.step event = some after → ∀ entry ∈ final.uiState.entries,
        ∀ later ∈ after.uiState.entries, later.question.id = entry.question.id →
          (later.answer = entry.answer ∨ event.Answers entry.question.id later.answer.value) ∧
          ((∀ id entered, event ≠ .updateAnswer id entered) → event ≠ .reset →
            isNotBlank entry.answer.value = true → isNotBlank later.answer.value = true)) ∧
    ⟨txt "name", txt "Anna"⟩ ∈ final.core.entries.map FormEntry.answer ∧ final.uiState.isSubmitted = true ∧
    final.uiState.mappingLogs.length = 16 ∧ 16 < final.history.logged.length := by
  obtain ⟨final, followed, observed⟩ : ∃ final,
      follow FormSystem.step (FormViewModel.create sampleWiring sampleStatus) filledIn = some final ∧
      ⟨txt "name", txt "Anna"⟩ ∈ final.core.entries.map FormEntry.answer ∧ final.uiState.isSubmitted = true ∧
      final.uiState.mappingLogs.length = 16 ∧ 16 < final.history.logged.length := follow_reaches (by decide +kernel)
  exact ⟨final, followed, form_structure (by decide +kernel) (.of_follow followed), observed⟩

end Form
