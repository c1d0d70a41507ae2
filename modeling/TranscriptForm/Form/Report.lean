import TranscriptForm.Form.FieldChoice
import TranscriptForm.Form.QuestionGroups
import TranscriptForm.ViewModel.FormViewModel

-- What a mapping reports of the language model, and what the form tells its user of it.
namespace Form

open Kotlin OnDeviceLlm

/-- A report on the language model that agrees with itself. -/
structure Coherent (data : TranscriptMappingResult) : Prop where
  onDevice : data.mappingStrategy ≠ .cloudLlm
  used : data.mappingStrategy = .onDeviceLlm ∨ data.mappingStrategy = .mixed → data.llmReturnedAnswers = true ∧
    data.llmFailureReason = none ∧ data.fieldAnswers ≠ .empty
  returned : data.llmReturnedAnswers = true → data.llmAttempted = true
  explained : data.llmAttempted = true → data.llmReturnedAnswers = false → isNullOrBlank data.llmFailureReason = false

theorem isEmpty_false_iff (answers : Answers) : answers.isEmpty = false ↔ answers ≠ .empty := by
  rw [← Bool.not_eq_true, LinkedMap.isEmpty_iff]

section Reasons

theorem filled_append {front : KString} (filled : isNotBlank front = true) (rest : KString) :
    isNullOrBlank (some (front ++ rest)) = false := by
  unfold isNotBlank isBlank at filled
  rw [Bool.not_eq_true'] at filled
  simp only [isNullOrBlank, Option.all_some, isBlank, List.all_append, filled, Bool.false_and]

theorem callFailed_filled (thrown : Throwable) : isNullOrBlank (some (callFailed thrown)) = false :=
  filled_append (by decide) _

theorem noSchema_filled : isNullOrBlank (some noSchema) = false := by decide

end Reasons

/-- An outcome of the calls that says whether there were any, and why none of them yielded answers. -/
structure Accounted (llm : LlmOutcome) : Prop where
  answered : llm.llmAnswers ≠ .empty → llm.llmAttempted = true
  explained : llm.llmAttempted = true → llm.llmAnswers = .empty → isNullOrBlank llm.llmFailureReason = false

theorem accounted_noEngine : Accounted noEngine where
  answered := fun answers => absurd rfl answers
  explained := by
    intro attempted
    cases attempted

section Merge

variable [Platform] {rules : MergeRules} {sources : AnswerSources}

structure Sourced (sources : AnswerSources) (state : MergeState) : Prop where
  llm : .llm ∈ state.outcome.usedSources → sources.llmAnswers ≠ .empty
  filled : state.outcome.usedSources ≠ [] → state.outcome.answers ≠ .empty

omit [Platform] in
theorem candidate_llm {field : FieldSpec} {answer : KString} (member : (CandidateSource.llm, answer) ∈ candidatesFor rules sources field) :
    sources.llmAnswers ≠ .empty := by
  obtain ⟨stored, _, ⟨_, found⟩ | ⟨other, _⟩ | ⟨other, _⟩⟩ := candidate_origin member
  · intro none
    rw [none] at found
    cases found
  · cases other
  · cases other

theorem mergeStep_sourced {state : MergeState} (sourced : Sourced sources state) (field : FieldSpec) :
    Sourced sources (mergeStep rules sources state field) := by
  unfold mergeStep
  split
  · rename_i source answer picked
    split
    · refine ⟨?_, ?_⟩
      · intro used
        rcases List.mem_insert_iff.mp used with rfl | earlier
        · exact candidate_llm (List.mem_of_find?_eq_some picked)
        · exact sourced.llm earlier
      · intro _ none
        have empty := LinkedMap.isEmpty_put state.outcome.answers field.id answer
        dsimp only at none
        rw [none] at empty
        cases empty
    · exact sourced
  · exact sourced

theorem merge_sourced (specs : List FieldSpec) :
    Sourced sources { outcome := OnDeviceLlm.mergeAnswersPerField rules specs sources } := by
  have steps (state : MergeState) (sourced : Sourced sources state) :
      Sourced sources (specs.foldl (mergeStep rules sources) state) := by
    induction specs generalizing state with
    | nil => exact sourced
    | cons field specs ih => exact ih _ (mergeStep_sourced sourced field)
  have start : Sourced sources {} := { llm := fun used => absurd used List.not_mem_nil, filled := fun used => absurd rfl used }
  exact ⟨(steps {} start).llm, (steps {} start).filled⟩

end Merge

section Strategy

variable {usedSources : List CandidateSource}

theorem mappingStrategyOf_onDevice : mappingStrategyOf usedSources ≠ .cloudLlm := by
  unfold mappingStrategyOf
  split_ifs <;> simp

theorem mappingStrategyOf_llm (used : mappingStrategyOf usedSources = .onDeviceLlm ∨ mappingStrategyOf usedSources = .mixed) :
    .llm ∈ usedSources := by
  unfold mappingStrategyOf at used
  split at used
  · rename_i only
    rw [Bool.and_eq_true] at only
    exact List.contains_iff_mem.mp only.1
  · split at used
    · rename_i among
      exact List.contains_iff_mem.mp among
    · split at used <;> rcases used with wrong | wrong <;> cases wrong

theorem effectiveLlmFailureReason_fallback {strategy : MappingStrategy} {reason : Option KString}
    (onDevice : strategy ≠ .cloudLlm) (fallback : ¬ (strategy = .onDeviceLlm ∨ strategy = .mixed)) :
    effectiveLlmFailureReason strategy reason = reason := by
  cases strategy with
  | cloudLlm => exact absurd rfl onDevice
  | onDeviceLlm => exact absurd (.inl rfl) fallback
  | mixed => exact absurd (.inr rfl) fallback
  | heuristicFallback => rfl
  | unknown => rfl

end Strategy

theorem sanitizeLlmAnswers_cases [Platform] (llmAnswers : Answers) :
    sanitizeLlmAnswers llmAnswers = .empty ∨ sanitizeLlmAnswers llmAnswers = llmAnswers := by
  unfold sanitizeLlmAnswers
  split
  · exact .inl rfl
  · dsimp only
    split
    · exact .inl rfl
    · exact .inr rfl

section Report

variable {speakerBlocks : List SpeakerBlock} {llm : LlmOutcome} {sanitized : Answers} {discarded : KString}
  {outcome : MergeOutcome}

theorem reportMerge_coherent (accounted : Accounted llm) (kept : sanitized ≠ .empty → llm.llmAnswers ≠ .empty)
    (filled : isNullOrBlank (some discarded) = false) (used : .llm ∈ outcome.usedSources → sanitized ≠ .empty)
    (answers : outcome.usedSources ≠ [] → outcome.answers ≠ .empty) :
    Coherent (reportMerge speakerBlocks llm sanitized discarded outcome) where
  onDevice := mappingStrategyOf_onDevice
  used := by
    intro strategy
    have member := mappingStrategyOf_llm strategy
    refine ⟨?_, ?_, answers (List.ne_nil_of_mem member)⟩
    · have some := used member
      rw [← isEmpty_false_iff] at some
      simp only [reportMerge, some, Bool.not_false]
    · change mappingStrategyOf outcome.usedSources = _ ∨ mappingStrategyOf outcome.usedSources = _ at strategy
      simp only [reportMerge]
      rcases strategy with same | same <;> rw [same] <;> rfl
  returned := by
    intro returned
    apply accounted.answered
    apply kept
    intro none
    subst none
    cases returned
  explained := by
    intro attempted notReturned
    have none : sanitized.isEmpty = true := by simpa [reportMerge] using notReturned
    have fallback : ¬ (mappingStrategyOf outcome.usedSources = .onDeviceLlm ∨
        mappingStrategyOf outcome.usedSources = .mixed) := by
      intro strategy
      exact used (mappingStrategyOf_llm strategy) ((LinkedMap.isEmpty_iff _).mp none)
    simp only [reportMerge, effectiveLlmFailureReason_fallback mappingStrategyOf_onDevice fallback, none, Bool.and_true]
    split
    · exact filled
    · rename_i unexplained
      by_cases answered : llm.llmAnswers = .empty
      · exact accounted.explained attempted answered
      · rw [← Ne.eq_def, ← isEmpty_false_iff] at answered
        rw [answered, Bool.not_false, Bool.true_and, Bool.not_eq_true] at unexplained
        exact unexplained

end Report

section Told

def Explained (data : TranscriptMappingResult) : Prop := ∃ reason, isNotBlank reason = true ∧
  FormViewModel.onDeviceStatusMessage data = txt "On-Device: LLM aufgerufen, aber keine nutzbare Antwort: " ++ reason ∧
  FormViewModel.sourceErrorMessage .onDevice data = some (txt "LLM-Mapping nicht moeglich: " ++ reason)

structure Told (data : TranscriptMappingResult) : Prop where
  clear : FormViewModel.onDeviceStatusMessage data ≠ txt "On-Device: Status unklar"
  used : FormViewModel.onDeviceStatusMessage data = txt "On-Device: LLM aufgerufen und genutzt" ↔
    data.mappingStrategy = .onDeviceLlm
  merged : FormViewModel.onDeviceStatusMessage data =
    txt "On-Device: LLM aufgerufen, Antwort mit Fallback/Heuristik gemerged" ↔ data.mappingStrategy = .mixed
  useless : data.llmAttempted = true → data.llmReturnedAnswers = false → Explained data

theorem append_ne {front rest other : KString} (n : Nat) (short : n ≤ front.length) (differs : front.take n ≠ other.take n) :
    front ++ rest ≠ other := by
  rintro rfl
  rw [List.take_append_of_le_length short] at differs
  exact differs rfl

variable {data : TranscriptMappingResult}

def FromFallback (data : TranscriptMappingResult) : Prop :=
  data.mappingStrategy = .heuristicFallback ∨ data.mappingStrategy = .unknown

theorem FromFallback.strategy (fallback : FromFallback data) :
    data.mappingStrategy ≠ .onDeviceLlm ∧ data.mappingStrategy ≠ .mixed := by
  rcases fallback with same | same <;> rw [same] <;> exact ⟨by decide, by decide⟩

theorem Coherent.strategy_cases (coherent : Coherent data) : data.mappingStrategy = .onDeviceLlm ∨
    data.mappingStrategy = .mixed ∨ FromFallback data := by
  cases strategy : data.mappingStrategy with
  | cloudLlm => exact absurd strategy coherent.onDevice
  | onDeviceLlm => exact .inl rfl
  | mixed => exact .inr (.inl rfl)
  | heuristicFallback => exact .inr (.inr (.inl strategy))
  | unknown => exact .inr (.inr (.inr strategy))

structure TellsApart (front : KString) (n : Nat) : Prop where
  short : n ≤ front.length
  clear : front.take n ≠ (txt "On-Device: Status unklar").take n
  used : front.take n ≠ (txt "On-Device: LLM aufgerufen und genutzt").take n
  merged : front.take n ≠ (txt "On-Device: LLM aufgerufen, Antwort mit Fallback/Heuristik gemerged").take n

theorem notStarted_apart : TellsApart (txt "On-Device: LLM nicht gestartet") 16 := by
  refine ⟨?_, ?_, ?_, ?_⟩ <;> decide

theorem discarded_apart : TellsApart (txt "On-Device: LLM aufgerufen, Antwort verworfen") 36 := by
  refine ⟨?_, ?_, ?_, ?_⟩ <;> decide

theorem useless_apart : TellsApart (txt "On-Device: LLM aufgerufen, aber keine nutzbare Antwort") 30 := by
  refine ⟨?_, ?_, ?_, ?_⟩ <;> decide

theorem told_fallback {front rest : KString} {n : Nat} (fallback : FromFallback data) (apart : TellsApart front n)
    (message : FormViewModel.onDeviceStatusMessage data = front ++ rest)
    (useless : data.llmAttempted = true → data.llmReturnedAnswers = false → Explained data) : Told data := by
  obtain ⟨notUsed, notMerged⟩ := fallback.strategy
  refine ⟨?_, ⟨?_, fun used => absurd used notUsed⟩, ⟨?_, fun merged => absurd merged notMerged⟩, useless⟩
  · rw [message]
    exact append_ne n apart.short apart.clear
  · intro same
    rw [message] at same
    exact absurd same (append_ne n apart.short apart.used)
  · intro same
    rw [message] at same
    exact absurd same (append_ne n apart.short apart.merged)

theorem isFallbackStrategy_eq (fallback : FromFallback data) :
    FormViewModel.isFallbackStrategy data.mappingStrategy = true := by
  rcases fallback with same | same <;> rw [same] <;> rfl

theorem Coherent.fallback (coherent : Coherent data) (notReturned : data.llmReturnedAnswers = false) : FromFallback data := by
  rcases coherent.strategy_cases with used | merged | fallback
  · rw [(coherent.used (.inl used)).1] at notReturned
    cases notReturned
  · rw [(coherent.used (.inr merged)).1] at notReturned
    cases notReturned
  · exact fallback

theorem Coherent.told_notStarted (coherent : Coherent data) (notAttempted : data.llmAttempted = false) : Told data := by
  have notReturned : data.llmReturnedAnswers = false := by
    by_contra returned
    have called := coherent.returned (by simpa using returned)
    rw [notAttempted] at called
    cases called
  have fallback := coherent.fallback notReturned
  have message : ∃ rest, FormViewModel.onDeviceStatusMessage data = txt "On-Device: LLM nicht gestartet" ++ rest := by
    simp only [FormViewModel.onDeviceStatusMessage, notAttempted, Bool.not_false, Bool.true_and, if_true]
    split
    · exact ⟨_, rfl⟩
    · exact ⟨[], rfl⟩
  obtain ⟨rest, message⟩ := message
  apply told_fallback fallback notStarted_apart message
  intro attempted
  rw [notAttempted] at attempted
  cases attempted

theorem Coherent.told_returned (coherent : Coherent data) (returned : data.llmReturnedAnswers = true) : Told data := by
  have attempted := coherent.returned returned
  have useless (notReturned : data.llmReturnedAnswers = false) : Explained data := by
    rw [returned] at notReturned
    cases notReturned
  rcases coherent.strategy_cases with used | merged | fallback
  · have message : FormViewModel.onDeviceStatusMessage data = txt "On-Device: LLM aufgerufen und genutzt" := by
      simp [FormViewModel.onDeviceStatusMessage, attempted, returned, used]
    refine ⟨?_, ⟨fun _ => used, fun _ => message⟩, ?_, fun _ => useless⟩
    · rw [message]
      decide
    · rw [message, used]
      exact ⟨fun same => absurd same (by decide), fun same => absurd same (by decide)⟩
  · have message : FormViewModel.onDeviceStatusMessage data =
        txt "On-Device: LLM aufgerufen, Antwort mit Fallback/Heuristik gemerged" := by
      simp [FormViewModel.onDeviceStatusMessage, attempted, returned, merged]
    refine ⟨?_, ?_, ⟨fun _ => merged, fun _ => message⟩, fun _ => useless⟩
    · rw [message]
      decide
    · rw [message, merged]
      exact ⟨fun same => absurd same (by decide), fun same => absurd same (by decide)⟩
  · have message : ∃ rest, FormViewModel.onDeviceStatusMessage data =
        txt "On-Device: LLM aufgerufen, Antwort verworfen" ++ rest := by
      obtain ⟨notUsed, notMerged⟩ := fallback.strategy
      simp [FormViewModel.onDeviceStatusMessage, attempted, returned, notUsed, notMerged, isFallbackStrategy_eq fallback]
    obtain ⟨rest, message⟩ := message
    exact told_fallback fallback discarded_apart message fun _ => useless

theorem Coherent.told_useless (coherent : Coherent data) (attempted : data.llmAttempted = true)
    (notReturned : data.llmReturnedAnswers = false) : Told data := by
  have explained := coherent.explained attempted notReturned
  have fallback := coherent.fallback notReturned
  obtain ⟨reason, given, filled⟩ : ∃ reason, data.llmFailureReason = some reason ∧ isBlank reason = false := by
    cases given : data.llmFailureReason with
    | none =>
      rw [given] at explained
      cases explained
    | some reason =>
      rw [given] at explained
      exact ⟨reason, rfl, by simpa [isNullOrBlank] using explained⟩
  have message : FormViewModel.onDeviceStatusMessage data =
      txt "On-Device: LLM aufgerufen, aber keine nutzbare Antwort" ++ (txt ": " ++ reason) := by
    simp [FormViewModel.onDeviceStatusMessage, attempted, notReturned, given, isNullOrBlank, filled]
  have error : FormViewModel.sourceErrorMessage .onDevice data = some (txt "LLM-Mapping nicht moeglich: " ++ reason) := by
    simp [FormViewModel.sourceErrorMessage, isFallbackStrategy_eq fallback, given, isNullOrBlank, filled]
  apply told_fallback fallback useless_apart message
  intro _ _
  refine ⟨reason, by simp [isNotBlank, filled], ?_, error⟩
  rw [message, ← List.append_assoc]
  rfl

theorem Coherent.told (coherent : Coherent data) : Told data := by
  cases attempted : data.llmAttempted with
  | false => exact coherent.told_notStarted attempted
  | true =>
    cases returned : data.llmReturnedAnswers with
    | true => exact coherent.told_returned returned
    | false => exact coherent.told_useless attempted returned

end Told

section Keyword

variable [Platform] {definition : FormDefinition} {response : TranscriptionResponse} {data : TranscriptMappingResult}

theorem keyword_coherent (reason : Option KString)
    (success : OnDeviceKeyword.mapTranscript definition response = .success data) :
    Coherent { data with llmFailureReason := reason } ∧ data.llmAttempted = false := by
  cases success
  refine ⟨⟨by simp, ?_, ?_, ?_⟩, rfl⟩
  · rintro (wrong | wrong) <;> cases wrong
  · intro wrong
    cases wrong
  · intro wrong
    cases wrong

theorem keyword_plain (success : OnDeviceKeyword.mapTranscript definition response = .success data) : Coherent data := by
  have coherent := (keyword_coherent none success).1
  cases success
  exact coherent

end Keyword

section Mapping

variable [Platform] {data : TranscriptMappingResult} {llm : LlmOutcome}

structure Called (nothingAsked : Prop) (llm : LlmOutcome) : Prop where
  accounted : Accounted llm
  skipped : llm.llmAttempted = false → llm = noEngine ∨ nothingAsked

theorem Called.report {nothingAsked : Prop} (called : Called nothingAsked llm) {sanitized : Answers} {sources : AnswerSources}
    {speakerBlocks : List SpeakerBlock} {discarded : KString} {rules : MergeRules} {specs : List FieldSpec}
    (kept : sanitized ≠ .empty → llm.llmAnswers ≠ .empty) (filled : isNullOrBlank (some discarded) = false)
    (given : sources.llmAnswers = sanitized)
    (reported : data = reportMerge speakerBlocks llm sanitized discarded
      (OnDeviceLlm.mergeAnswersPerField rules specs sources)) :
    Coherent data ∧ (data.llmAttempted = false → data.llmFailureReason = none → nothingAsked) := by
  have sourced := @merge_sourced _ rules sources specs
  have coherent : Coherent data := by
    rw [reported]
    exact reportMerge_coherent called.accounted kept filled (fun used => given ▸ sourced.llm used) sourced.filled
  refine ⟨coherent, ?_⟩
  intro notAttempted unexplained
  rw [reported] at notAttempted unexplained
  rcases called.skipped notAttempted with same | nothing
  · subst same
    have none : sanitized = .empty := by
      by_contra some
      exact kept some rfl
    have fallback : ¬ (mappingStrategyOf (OnDeviceLlm.mergeAnswersPerField rules specs sources).usedSources = .onDeviceLlm ∨
        mappingStrategyOf (OnDeviceLlm.mergeAnswersPerField rules specs sources).usedSources = .mixed) :=
      fun strategy => sourced.llm (mappingStrategyOf_llm strategy) (given.trans none)
    simp only [reportMerge, effectiveLlmFailureReason_fallback mappingStrategyOf_onDevice fallback, noEngine] at unexplained
    cases unexplained
  · exact nothing

theorem sanitized_kept {llmAnswers : Answers} (some : sanitizeLlmAnswers llmAnswers ≠ .empty) : llmAnswers ≠ .empty := by
  intro none
  rcases sanitizeLlmAnswers_cases llmAnswers with empty | same
  · exact some empty
  · exact some (same.trans none)

end Mapping

namespace Android

variable [Platform] {repository : OnDeviceLlmFormMappingRepository} {response : TranscriptionResponse}
  {data : TranscriptMappingResult} {llm after : LlmOutcome}

theorem chunkStep_accounted {engine : OnDeviceLlmEngine} {chunk : List FormQuestion × Nat}
    (step : chunkStep repository engine response llm chunk = .ok after) :
    Accounted after ∧ after.llmAttempted = true := by
  unfold chunkStep at step
  split at step
  · rename_i thrown _
    cases step
    exact ⟨⟨fun _ => rfl, fun _ _ => callFailed_filled thrown⟩, rfl⟩
  · split at step
    · cases step
    · rename_i extracted _
      by_cases empty : extracted.isEmpty = true
      · rw [if_pos empty] at step
        cases step
        refine ⟨⟨fun _ => rfl, fun _ _ => ?_⟩, rfl⟩
        dsimp only
        split
        · exact noSchema_filled
        · rename_i explained
          exact Bool.eq_false_iff.mpr explained
      · rw [if_neg empty] at step
        cases step
        refine ⟨⟨fun _ => rfl, fun _ none => ?_⟩, rfl⟩
        have filled : (llm.llmAnswers.putAll extracted.entries).isEmpty = false := by
          rw [LinkedMap.isEmpty_putAll]
          have some : extracted.entries.isEmpty = false := Bool.eq_false_iff.mpr empty
          rw [some, Bool.and_false]
        dsimp only at none
        rw [none] at filled
        cases filled

theorem chunks_accounted {engine : OnDeviceLlmEngine} {chunks : List (List FormQuestion × Nat)} (accounted : Accounted llm)
    (outcome : chunks.foldlM (chunkStep repository engine response) llm = .ok after) :
    Accounted after ∧ (after.llmAttempted = false → chunks = [] ∧ llm.llmAttempted = false) := by
  induction chunks generalizing llm with
  | nil =>
    cases outcome
    exact ⟨accounted, fun skipped => ⟨rfl, skipped⟩⟩
  | cons chunk chunks ih =>
    rw [List.foldlM_cons] at outcome
    cases step : chunkStep repository engine response llm chunk with
    | error thrown =>
      rw [step] at outcome
      cases outcome
    | ok next =>
      rw [step] at outcome
      obtain ⟨nextAccounted, called⟩ := chunkStep_accounted step
      obtain ⟨afterAccounted, skipped⟩ := ih nextAccounted outcome
      refine ⟨afterAccounted, fun notAttempted => ?_⟩
      rw [(skipped notAttempted).2] at called
      cases called

theorem llmOutcome_called (outcome : llmOutcome repository response = .ok llm) :
    Called (repository.definition = []) llm := by
  unfold llmOutcome at outcome
  split at outcome
  · cases outcome
    exact ⟨accounted_noEngine, fun _ => .inl rfl⟩
  · have start : Accounted {} := ⟨fun some => absurd rfl some, fun wrong => by cases wrong⟩
    obtain ⟨accounted, skipped⟩ := chunks_accounted start outcome
    refine ⟨accounted, fun notAttempted => .inr ?_⟩
    have none := (skipped notAttempted).1
    rw [List.zipIdx_eq_nil_iff] at none
    have perm := buildQuestionGroups_perm repository.definition
    rw [none] at perm
    exact perm.nil_eq.symm

theorem llmAttempted_iff (outcome : llmOutcome repository response = .ok llm) :
    llm.llmAttempted = true ↔ repository.llmEngine ≠ none ∧ repository.definition ≠ [] := by
  have called := llmOutcome_called outcome
  unfold llmOutcome at outcome
  split at outcome
  · rename_i none
    cases outcome
    simp [none, noEngine]
  · rename_i engine some
    simp only [some, ne_eq, reduceCtorEq, not_false_eq_true, true_and]
    constructor
    · rintro attempted empty
      have nothing : buildQuestionGroups repository.definition = [] := by
        rw [empty]
        rfl
      rw [nothing] at outcome
      cases outcome
      cases attempted
    · intro asked
      by_contra notAttempted
      rcases called.skipped (by simpa using notAttempted) with same | empty
      · have start : Accounted {} := ⟨fun some => absurd rfl some, fun wrong => by cases wrong⟩
        have none := ((chunks_accounted start outcome).2 (by simpa using notAttempted)).1
        rw [none] at outcome
        cases outcome
        cases congrArg LlmOutcome.llmFailureReason same
      · exact asked empty

/-- The language model was asked, and no answer made the reading throw. -/
def AnswersRead (repository : OnDeviceLlmFormMappingRepository) (response : TranscriptionResponse) : Prop :=
  repository.llmEngine ≠ none ∧ repository.definition ≠ [] ∧ ¬ NothingSaid response ∧
    ∃ llm, llmOutcome repository response = .ok llm

/-- The report of a mapping agrees with itself, and so does what the form says of it. It has the language model called
    exactly where no answer made the reading throw: such an exception becomes the reason why none was called. -/
theorem mapTranscript_told (keyword : repository.fallbackRepository = OnDeviceKeyword.mapTranscript repository.definition)
    (success : mapTranscript repository response = .success data) :
    Coherent data ∧ Told data ∧ (data.llmAttempted = true ↔ AnswersRead repository response) ∧
      (data.llmAttempted = false → data.llmFailureReason = none → repository.definition = [] ∨ NothingSaid response) := by
  suffices facts : Coherent data ∧ (data.llmAttempted = true ↔ AnswersRead repository response) ∧
      (data.llmAttempted = false → data.llmFailureReason = none →
        repository.definition = [] ∨ NothingSaid response) from ⟨facts.1, facts.1.told, facts.2⟩
  rcases mapTranscript_cases success with ⟨thrown, found, _, called, searched, reason, rfl⟩ | ⟨nothing, searched⟩ |
    ⟨llm, said, called, reported⟩
  · rw [keyword] at searched
    obtain ⟨coherent, notAttempted⟩ := keyword_coherent (some reason) searched
    refine ⟨coherent, ⟨fun attempted => ?_, ?_⟩, fun _ unexplained => by cases unexplained⟩
    · have wrong := notAttempted.symm.trans attempted
      cases wrong
    · rintro ⟨_, _, _, llm, ok⟩
      rw [called] at ok
      cases ok
  · rw [keyword] at searched
    have found : OnDeviceKeyword.mapTranscript repository.definition response = .success data := by
      rcases searched with found | ⟨_, _, wrong, _⟩
      · exact found
      · cases wrong
    have notAttempted := (keyword_coherent none found).2
    refine ⟨keyword_plain found, ⟨fun attempted => ?_, fun read => absurd nothing read.2.2.1⟩, fun _ _ => .inr nothing⟩
    have wrong := notAttempted.symm.trans attempted
    cases wrong
  · have report := (llmOutcome_called called).report sanitized_kept (by decide) rfl reported
    have attempted : data.llmAttempted = llm.llmAttempted := by rw [reported]; rfl
    refine ⟨report.1, ?_, fun skipped unexplained => .inl (report.2 skipped unexplained)⟩
    rw [attempted, llmAttempted_iff called]
    exact ⟨fun asked => ⟨asked.1, asked.2, said, llm, called⟩, fun read => ⟨read.1, read.2.1⟩⟩

def reportedMessage : AppResult TranscriptMappingResult → Option KString
  | .success data => some (FormViewModel.onDeviceStatusMessage data)
  | .error _ _ => none

-- The engine was called here, and its answer made the reading throw.
omit [Platform] in
example :
    letI := basicPlatform
    reportedMessage (mapTranscript strayRepository strayResponse) =
      some (txt "On-Device: LLM nicht gestartet: Element is not a JsonObject") := by decide +kernel

def reportedStrategy : AppResult TranscriptMappingResult → Option MappingStrategy
  | .success data => some data.mappingStrategy
  | .error _ _ => none

omit [Platform] in
theorem mapTranscript_told_talkative :
    letI := basicPlatform
    ∃ data, mapTranscript talkativeRepository talkativeResponse = .success data ∧ Told data ∧
      data.mappingStrategy = .onDeviceLlm := by
  let := basicPlatform
  have strategy : reportedStrategy (mapTranscript talkativeRepository talkativeResponse) = some .onDeviceLlm := by
    decide +kernel
  cases result : mapTranscript talkativeRepository talkativeResponse with
  | error message cause =>
    rw [result] at strategy
    cases strategy
  | success data =>
    rw [result] at strategy
    exact ⟨data, rfl, (mapTranscript_told rfl result).2.1, Option.some.inj strategy⟩

end Android

namespace Ios

variable [Platform] {repository : OnDeviceLlmFormMappingRepository} {response : TranscriptionResponse}
  {data : TranscriptMappingResult} {llm after : LlmOutcome}

theorem llmOutcome_called (outcome : llmOutcome repository response = .ok llm) : Called False llm := by
  unfold llmOutcome at outcome
  split at outcome
  · cases outcome
    exact ⟨accounted_noEngine, fun _ => .inl rfl⟩
  · dsimp only at outcome
    split at outcome
    · rename_i thrown _
      cases outcome
      exact ⟨⟨fun _ => rfl, fun _ _ => callFailed_filled thrown⟩, fun wrong => by cases wrong⟩
    · split at outcome
      · cases outcome
      · cases outcome
        refine ⟨⟨fun _ => rfl, ?_⟩, fun wrong => by cases wrong⟩
        intro _ none
        dsimp only at none ⊢
        rw [none]
        exact noSchema_filled

theorem filter_kept {llmAnswers : Answers} {transcriptText : KString}
    (some : filterLlmAnswersByTranscriptEvidence (sanitizeLlmAnswers llmAnswers) transcriptText ≠ .empty) :
    llmAnswers ≠ .empty := by
  apply sanitized_kept
  intro none
  rw [none] at some
  exact some rfl

theorem llmAttempted_iff (outcome : llmOutcome repository response = .ok llm) :
    llm.llmAttempted = true ↔ repository.llmEngine ≠ none := by
  unfold llmOutcome at outcome
  split at outcome
  · rename_i none
    cases outcome
    simp [none, noEngine]
  · rename_i engine some
    dsimp only at outcome
    split at outcome
    · cases outcome
      simp [some]
    · split at outcome
      · cases outcome
      · cases outcome
        simp [some]

def AnswersRead (repository : OnDeviceLlmFormMappingRepository) (response : TranscriptionResponse) : Prop :=
  repository.llmEngine ≠ none ∧ ¬ NothingSaid response ∧ ∃ llm, llmOutcome repository response = .ok llm

/-- The same on iOS, where such an exception leaves no reason behind. -/
theorem mapTranscript_told_unless_thrown (keyword : repository.fallbackRepository = OnDeviceKeyword.mapTranscript repository.definition)
    (success : mapTranscript repository response = .success data) :
    Coherent data ∧ Told data ∧ (data.llmAttempted = true ↔ AnswersRead repository response) ∧
      (data.llmAttempted = false → data.llmFailureReason = none →
        NothingSaid response ∨ ∃ thrown, llmOutcome repository response = .error thrown) := by
  suffices facts : Coherent data ∧ (data.llmAttempted = true ↔ AnswersRead repository response) ∧
      (data.llmAttempted = false → data.llmFailureReason = none →
        NothingSaid response ∨ ∃ thrown, llmOutcome repository response = .error thrown) from
    ⟨facts.1, facts.1.told, facts.2⟩
  rcases mapTranscript_cases success with ⟨searched, why⟩ | ⟨llm, said, called, reported⟩
  · rw [keyword] at searched
    have notAttempted := (keyword_coherent none searched).2
    refine ⟨keyword_plain searched, ⟨fun attempted => ?_, ?_⟩, fun _ _ => why.imp_right And.right⟩
    · have wrong := notAttempted.symm.trans attempted
      cases wrong
    · rintro ⟨_, said, llm, ok⟩
      obtain ⟨thrown, failed⟩ := (why.resolve_left said).2
      rw [failed] at ok
      cases ok
  · have report := (llmOutcome_called called).report filter_kept (by decide) rfl reported
    have attempted : data.llmAttempted = llm.llmAttempted := by rw [reported]; rfl
    refine ⟨report.1, ?_, fun skipped unexplained => absurd (report.2 skipped unexplained) id⟩
    rw [attempted, llmAttempted_iff called]
    exact ⟨fun asked => ⟨asked, said, llm, called⟩, fun read => read.1⟩

omit [Platform] in
example :
    letI := basicPlatform
    Android.reportedMessage (mapTranscript Android.strayRepository Android.strayResponse) =
      some (txt "On-Device: LLM nicht gestartet") := by decide +kernel

omit [Platform] in
theorem mapTranscript_told_unless_thrown_talkative :
    letI := basicPlatform
    ∃ data, mapTranscript Android.talkativeRepository Android.talkativeResponse = .success data ∧ Told data := by
  let := basicPlatform
  have filled : (answersOf (mapTranscript Android.talkativeRepository Android.talkativeResponse)).get? (txt "name") =
      some (txt "Anna") := by decide +kernel
  cases result : mapTranscript Android.talkativeRepository Android.talkativeResponse with
  | error message cause =>
    rw [result] at filled
    cases filled
  | success data => exact ⟨data, rfl, (mapTranscript_told_unless_thrown rfl result).2.1⟩

end Ios

end Form
