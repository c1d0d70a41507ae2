import TranscriptForm.Form.Mapping

namespace Form

open Kotlin OnDeviceLlm

theorem firstAnswers_throws_iff {parse : KString → Except Throwable Answers} (candidates : List KString) :
    (∃ thrown, firstAnswers parse candidates = .error thrown) ↔
      ∃ before candidate after, candidates = before ++ candidate :: after ∧
        (∀ earlier ∈ before, parse earlier = .ok .empty) ∧ ∃ thrown, parse candidate = .error thrown := by
  induction candidates with
  | nil => simp [firstAnswers]
  | cons candidate rest ih =>
    rw [firstAnswers]
    cases result : parse candidate with
    | error thrown =>
      constructor
      · intro _
        exact ⟨[], candidate, rest, rfl, by simp, thrown, result⟩
      · intro _
        exact ⟨thrown, rfl⟩
    | ok parsed =>
      by_cases empty : parsed.isEmpty = true
      · have none := (LinkedMap.isEmpty_iff parsed).mp empty
        simp only [empty, if_true]
        rw [ih]
        constructor
        · rintro ⟨before, stray, after, rfl, silent, throws⟩
          refine ⟨candidate :: before, stray, after, rfl, ?_, throws⟩
          intro earlier member
          rcases List.mem_cons.mp member with same | member
          · rw [same, result, none]
          · exact silent earlier member
        · rintro ⟨before, stray, after, split, silent, throws⟩
          cases before with
          | nil =>
            obtain ⟨rfl, _⟩ := List.cons.inj split
            obtain ⟨thrown, throws⟩ := throws
            rw [result] at throws
            cases throws
          | cons head before =>
            obtain ⟨rfl, tail⟩ := List.cons.inj split
            exact ⟨before, stray, after, tail, fun earlier member => silent earlier (List.mem_cons_of_mem _ member),
              throws⟩
      · simp only [empty]
        constructor
        · rintro ⟨thrown, throws⟩
          cases throws
        · rintro ⟨before, stray, after, split, silent, throws⟩
          cases before with
          | nil =>
            obtain ⟨rfl, _⟩ := List.cons.inj split
            obtain ⟨thrown, throws⟩ := throws
            rw [result] at throws
            cases throws
          | cons head before =>
            obtain ⟨rfl, _⟩ := List.cons.inj split
            have yields := silent candidate List.mem_cons_self
            rw [result] at yields
            exact absurd ((LinkedMap.isEmpty_iff parsed).mpr (Except.ok.inj yields)) empty

variable [Platform]

namespace Android

/-- The text parses as an object with an `answers` member that is no object. -/
def HasStrayAnswers (json : JsonParser) (candidate : KString) : Prop :=
  isBlank (trim candidate) = false ∧ json.decodeFromString (trim candidate) = none ∧
    ∃ members value, json.parseToJsonElement (trim candidate) = some (.object members) ∧
      members.lookup (txt "answers") = some value ∧ value.isObject = false

/-- One of the candidates has stray answers, and those before it yield nothing. -/
def ReachesStrayAnswers (json : JsonParser) (definition : FormDefinition) (raw : KString) : Prop :=
  ∃ before candidate after, buildJsonCandidates raw = before ++ candidate :: after ∧
    (∀ earlier ∈ before, parseAnswersCandidate json definition earlier = .ok .empty) ∧
    HasStrayAnswers json candidate

section Throws

variable {json : JsonParser} {definition : FormDefinition}

theorem parse_throws_iff (candidate : KString) :
    (∃ thrown, parseAnswersCandidate json definition candidate = .error thrown) ↔ HasStrayAnswers json candidate := by
  unfold parseAnswersCandidate parseCandidateWith HasStrayAnswers
  dsimp only
  cases blank : isBlank (trim candidate) with
  | true => simp
  | false =>
    cases decoded : json.decodeFromString (trim candidate) with
    | some answers => simp
    | none =>
      cases parsed : json.parseToJsonElement (trim candidate) with
      | none => simp
      | some element =>
        cases element with
        | object members =>
          cases found : members.lookup (txt "answers") with
          | none => simp [found]
          | some value => cases value <;> simp [found, JsonElement.isObject]
        | null => simp
        | primitive content => simp
        | array items => simp

theorem extractAnswers_throws_iff (raw : KString) :
    (∃ thrown, extractAnswers json definition raw = .error thrown) ↔ ReachesStrayAnswers json definition raw := by
  unfold extractAnswers ReachesStrayAnswers
  rw [firstAnswers_throws_iff]
  simp only [parse_throws_iff]

theorem extractAnswers_returns_iff (raw : KString) :
    (∃ answers, extractAnswers json definition raw = .ok answers) ↔ ¬ ReachesStrayAnswers json definition raw := by
  rw [← extractAnswers_throws_iff]
  cases extractAnswers json definition raw with
  | error thrown => simp
  | ok answers => simp

end Throws

section Chunks

variable (repository : OnDeviceLlmFormMappingRepository) (engine : OnDeviceLlmEngine) (response : TranscriptionResponse)

def chunkOutcomes : List (Except Throwable KString) :=
  (buildQuestionGroups repository.definition).zipIdx.map fun chunk =>
    engine chunk.2 (chunkPrompt repository response chunk.1)

def yieldsAnswers (raw : KString) : Bool :=
  match extractAnswers repository.json repository.definition raw with
  | .ok answers => !answers.isEmpty
  | .error _ => false

/-- The engine that throws wherever the other one's output yields no answers. -/
def failingInstead : OnDeviceLlmEngine := fun index prompt =>
  match engine index prompt with
  | .ok raw => if yieldsAnswers repository raw then .ok raw else .error ⟨none⟩
  | .error thrown => .error thrown

/-- Every output of the engine is read without throwing, and the form is filled as if
    the engine had thrown where its output yields no answers. -/
def MalformedIsFailed : Prop :=
  (∀ raw, .ok raw ∈ chunkOutcomes repository engine response →
    ∃ answers, extractAnswers repository.json repository.definition raw = .ok answers) ∧
  ∃ data reference, mapTranscript { repository with llmEngine := some engine } response = .success data ∧
    mapTranscript { repository with llmEngine := some (failingInstead repository engine) } response =
      .success reference ∧
    data.fieldAnswers = reference.fieldAnswers

def NoStrayAnswers : Prop :=
  ∀ raw, .ok raw ∈ chunkOutcomes repository engine response →
    ¬ ReachesStrayAnswers repository.json repository.definition raw

variable {repository engine response}

theorem chunkStep_failing (chunk : List FormQuestion × Nat) {llm reference : LlmOutcome}
    (same : llm.llmAnswers = reference.llmAnswers)
    (returns : ∀ raw, engine chunk.2 (chunkPrompt repository response chunk.1) = .ok raw →
      ∃ answers, extractAnswers repository.json repository.definition raw = .ok answers) :
    ∃ next nextReference, chunkStep repository engine response llm chunk = .ok next ∧
      chunkStep repository (failingInstead repository engine) response reference chunk = .ok nextReference ∧
      next.llmAnswers = nextReference.llmAnswers := by
  unfold chunkStep failingInstead
  cases outcome : engine chunk.2 (chunkPrompt repository response chunk.1) with
  | error thrown => exact ⟨_, _, rfl, rfl, same⟩
  | ok raw =>
    obtain ⟨answers, extracted⟩ := returns raw outcome
    by_cases empty : answers.isEmpty = true
    · have silent : yieldsAnswers repository raw = false := by
        simp [yieldsAnswers, extracted, empty]
      simp only [extracted, empty, silent, if_true, Bool.false_eq_true, if_false]
      exact ⟨_, _, rfl, rfl, same⟩
    · have yields : yieldsAnswers repository raw = true := by
        simp [yieldsAnswers, extracted, empty]
      simp only [extracted, empty, yields, if_true, Bool.false_eq_true, if_false]
      exact ⟨_, _, rfl, rfl, by rw [same]⟩

theorem chunks_failing (chunks : List (List FormQuestion × Nat)) {llm reference : LlmOutcome}
    (same : llm.llmAnswers = reference.llmAnswers)
    (returns : ∀ chunk ∈ chunks, ∀ raw, engine chunk.2 (chunkPrompt repository response chunk.1) = .ok raw →
      ∃ answers, extractAnswers repository.json repository.definition raw = .ok answers) :
    ∃ last lastReference, chunks.foldlM (chunkStep repository engine response) llm = .ok last ∧
      chunks.foldlM (chunkStep repository (failingInstead repository engine) response) reference =
        .ok lastReference ∧
      last.llmAnswers = lastReference.llmAnswers := by
  induction chunks generalizing llm reference with
  | nil => exact ⟨llm, reference, rfl, rfl, same⟩
  | cons chunk chunks ih =>
    obtain ⟨next, nextReference, taken, takenReference, sameNext⟩ :=
      chunkStep_failing chunk same (returns chunk List.mem_cons_self)
    obtain ⟨last, lastReference, later, laterReference, sameLast⟩ :=
      ih sameNext fun other member => returns other (List.mem_cons_of_mem _ member)
    refine ⟨last, lastReference, ?_, ?_, sameLast⟩
    · rw [List.foldlM_cons, taken]
      exact later
    · rw [List.foldlM_cons, takenReference]
      exact laterReference

theorem llmOutcome_failing
    (returns : ∀ raw, .ok raw ∈ chunkOutcomes repository engine response →
      ∃ answers, extractAnswers repository.json repository.definition raw = .ok answers) :
    ∃ llm reference, llmOutcome { repository with llmEngine := some engine } response = .ok llm ∧
      llmOutcome { repository with llmEngine := some (failingInstead repository engine) } response =
        .ok reference ∧
      llm.llmAnswers = reference.llmAnswers := by
  apply chunks_failing (buildQuestionGroups repository.definition).zipIdx rfl
  intro chunk member raw outcome
  apply returns raw
  rw [← outcome]
  exact List.mem_map.mpr ⟨chunk, member, rfl⟩

theorem mapTranscript_of_llmOutcome (spoken : isNotBlank response.text = true)
    {llm : LlmOutcome} (outcome : llmOutcome repository response = .ok llm) :
    ∃ data, mapTranscript repository response = .success data ∧
      data.fieldAnswers = (mergeAnswersPerField repository.definition
        ⟨sanitizeLlmAnswers llm.llmAnswers, heuristicAnswersFor repository.definition response,
          answersOf (repository.fallbackRepository response)⟩).answers := by
  have notBlank : isBlank response.text = false := by simpa [isNotBlank] using spoken
  have plain : ∀ speakerBlocks, isBlank (transcriptTextPlain response speakerBlocks) = false := by
    intro speakerBlocks
    simp [transcriptTextPlain, ifBlank, notBlank]
  unfold mapTranscript primaryMapping
  dsimp only
  rw [plain, Bool.false_and, if_neg (by decide), outcome]
  exact ⟨_, rfl, rfl⟩

theorem malformedIsFailed_iff (spoken : isNotBlank response.text = true) :
    MalformedIsFailed repository engine response ↔ NoStrayAnswers repository engine response := by
  constructor
  · intro failed raw member
    rw [← extractAnswers_returns_iff]
    exact failed.1 raw member
  · intro clean
    have returns : ∀ raw, .ok raw ∈ chunkOutcomes repository engine response →
        ∃ answers, extractAnswers repository.json repository.definition raw = .ok answers := by
      intro raw member
      rw [extractAnswers_returns_iff]
      exact clean raw member
    obtain ⟨llm, reference, outcome, outcomeReference, same⟩ := llmOutcome_failing returns
    obtain ⟨data, success, filled⟩ := mapTranscript_of_llmOutcome spoken outcome
    obtain ⟨dataReference, successReference, filledReference⟩ := mapTranscript_of_llmOutcome spoken outcomeReference
    refine ⟨returns, data, dataReference, success, successReference, ?_⟩
    rw [filled, filledReference, same]

end Chunks

section Sample

omit [Platform]

def strayText : KString := txt "\x7b\"answers\":[]\x7d"

/-- A JSON library on the texts of the sample: the one object has an array for its answers. -/
def strayJson : JsonParser where
  decodeFromString _ := none
  parseToJsonElement text :=
    if text = strayText then some (.object [(txt "answers", .array [])]) else none
  notAnObject _ := ⟨some (txt "Element is not a JsonObject")⟩

def strayEngine : OnDeviceLlmEngine := fun _ _ => .ok strayText

def strayRepository : OnDeviceLlmFormMappingRepository :=
  letI := basicPlatform
  { definition := DefaultFormDefinitionProvider.questions
    json := strayJson
    llmEngine := some strayEngine
    fallbackRepository := OnDeviceKeyword.mapTranscript DefaultFormDefinitionProvider.questions }

def strayResponse : TranscriptionResponse := { text := txt "Name: Anna" }

theorem malformedIsFailed_iff_stray :
    letI := basicPlatform
    MalformedIsFailed strayRepository strayEngine strayResponse ↔
      NoStrayAnswers strayRepository strayEngine strayResponse :=
  letI := basicPlatform
  malformedIsFailed_iff (by decide +kernel)

theorem stray_answers_throw :
    letI := basicPlatform
    ¬ MalformedIsFailed strayRepository strayEngine strayResponse := by
  let characters := basicPlatform
  have throws : (match extractAnswers strayJson DefaultFormDefinitionProvider.questions strayText with
      | .ok _ => false
      | .error _ => true) = true := by decide +kernel
  have called : (.ok strayText : Except Throwable KString) ∈
      chunkOutcomes strayRepository strayEngine strayResponse := List.mem_cons_self
  intro failed
  obtain ⟨answers, returned⟩ := failed.1 strayText called
  change extractAnswers strayJson DefaultFormDefinitionProvider.questions strayText = .ok answers at returned
  rw [returned] at throws
  cases throws

end Sample

end Android

end Form
