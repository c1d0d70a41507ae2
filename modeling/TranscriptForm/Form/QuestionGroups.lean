import TranscriptForm.Form.MalformedAnswers

namespace Form

open Kotlin OnDeviceLlm

/-- The answers of the chunks one after the other, later ones over earlier ones. -/
def collect (collected : Answers) : List (Except Throwable Answers) → Except Throwable Answers
  | [] => .ok collected
  | .error thrown :: _ => .error thrown
  | .ok answers :: rest => collect (collected.putAll answers.entries) rest

/-- What chunk `i` answers for a field. -/
def answerAt (chunks : List (Except Throwable Answers)) (i : ℕ) (key : KString) : Option KString :=
  match chunks[i]? with
  | some (.ok answers) => answers.get? key
  | _ => none

def LastWord (chunks : List (Except Throwable Answers)) (key value : KString) : Prop :=
  ∃ j, answerAt chunks j key = some value ∧ ∀ k > j, answerAt chunks k key = none

theorem lastWord_cons {answers : Answers} {chunks : List (Except Throwable Answers)} {key value : KString} :
    LastWord (.ok answers :: chunks) key value ↔
      LastWord chunks key value ∨ (answers.get? key = some value ∧ ∀ k, answerAt chunks k key = none) := by
  constructor
  · rintro ⟨j, yields, silent⟩
    cases j with
    | zero => exact Or.inr ⟨yields, fun k => silent (k + 1) (Nat.succ_pos k)⟩
    | succ j => exact Or.inl ⟨j, yields, fun k later => silent (k + 1) (Nat.succ_lt_succ later)⟩
  · rintro (⟨j, yields, silent⟩ | ⟨own, silent⟩)
    · refine ⟨j + 1, yields, ?_⟩
      intro k later
      obtain ⟨k, rfl⟩ := Nat.exists_eq_add_of_lt later
      exact silent _ (by omega)
    · refine ⟨0, own, ?_⟩
      intro k later
      obtain ⟨k, rfl⟩ := Nat.exists_eq_succ_of_ne_zero (Nat.ne_of_gt later)
      exact silent k

theorem collect_returns_iff (collected : Answers) (chunks : List (Except Throwable Answers)) :
    (∃ answers, collect collected chunks = .ok answers) ↔ ∀ chunk ∈ chunks, ∃ answers, chunk = .ok answers := by
  induction chunks generalizing collected with
  | nil => simp [collect]
  | cons chunk chunks ih =>
    cases chunk with
    | error thrown => simp [collect]
    | ok answers => simp [collect, ih]

theorem collect_get?_iff {collected answers : Answers} {chunks : List (Except Throwable Answers)} {key value : KString}
    (returned : collect collected chunks = .ok answers) :
    answers.get? key = some value ↔
      LastWord chunks key value ∨ (collected.get? key = some value ∧ ∀ k, answerAt chunks k key = none) := by
  induction chunks generalizing collected with
  | nil =>
    cases returned
    simp [LastWord, answerAt]
  | cons chunk chunks ih =>
    cases chunk with
    | error thrown => cases returned
    | ok own =>
      rw [ih returned, lastWord_cons, LinkedMap.get?_putAll_entries, or_assoc]
      apply or_congr_right
      have first : (∀ k, answerAt (.ok own :: chunks) k key = none) ↔
          own.get? key = none ∧ ∀ k, answerAt chunks k key = none := by
        constructor
        · intro silent
          exact ⟨silent 0, fun k => silent (k + 1)⟩
        · rintro ⟨here, later⟩ k
          cases k with
          | zero => exact here
          | succ k => exact later k
      rw [first]
      cases own.get? key with
      | none => simp
      | some stored => simp

theorem LastWord.later {chunks : List (Except Throwable Answers)} {key value own : KString} {i : ℕ}
    (answered : answerAt chunks i key = some own) :
    LastWord chunks key value ↔
      ∃ j ≥ i, answerAt chunks j key = some value ∧ ∀ k > j, answerAt chunks k key = none := by
  constructor
  · rintro ⟨j, yields, silent⟩
    refine ⟨j, ?_, yields, silent⟩
    by_contra earlier
    rw [silent i (Nat.lt_of_not_le earlier)] at answered
    cases answered
  · rintro ⟨j, _, yields, silent⟩
    exact ⟨j, yields, silent⟩

variable [Platform]

namespace Android

section Groups

theorem buildQuestionGroups_filled (questions : FormDefinition) : ∀ group ∈ buildQuestionGroups questions, group ≠ [] := by
  intro group member
  unfold buildQuestionGroups at member
  split at member
  · cases member
  · rename_i nonempty
    split at member
    · rw [List.mem_singleton.mp member]
      simpa using nonempty
    · dsimp only at member
      rcases List.mem_append.mp member with names | others
      · split at names
        · cases names
        · rename_i some
          rw [List.mem_singleton.mp names]
          intro none
          exact some (List.isEmpty_iff.mpr none)
      · obtain ⟨question, _, rfl⟩ := List.mem_map.mp others
        exact List.cons_ne_nil question []

omit [Platform] in
theorem one_group_perm (chosen : FormQuestion → Bool) (questions : List FormQuestion) :
    ((if (questions.filter chosen).isEmpty then [] else [questions.filter chosen]) ++
      (questions.filter fun q => !(questions.filter chosen).contains q).map fun q => [q]).flatten.Perm questions := by
  have front : (if (questions.filter chosen).isEmpty then [] else [questions.filter chosen]).flatten =
      questions.filter chosen := by
    split
    · rename_i none
      rw [List.isEmpty_iff.mp none]
      rfl
    · simp
  have others : (questions.filter fun q => !(questions.filter chosen).contains q) =
      questions.filter fun q => !chosen q := by
    apply List.filter_congr
    intro q member
    simp [List.contains_eq_mem, List.mem_filter, member]
  rw [List.flatten_append, front, others, ← List.flatMap_def, List.flatMap_singleton']
  exact List.filter_append_perm chosen questions

theorem buildQuestionGroups_perm (questions : FormDefinition) :
    (buildQuestionGroups questions).flatten.Perm questions := by
  unfold buildQuestionGroups
  split
  · rename_i none
    rw [List.isEmpty_iff.mp none]
    exact .nil
  · split
    · simp
    · exact one_group_perm _ questions

end Groups

section Chunks

variable {repository : OnDeviceLlmFormMappingRepository} {engine : OnDeviceLlmEngine} {response : TranscriptionResponse}

def readOutcome (repository : OnDeviceLlmFormMappingRepository) : Except Throwable KString → Except Throwable Answers
  | .error _ => .ok .empty
  | .ok raw => extractAnswers repository.json repository.definition raw

variable (repository engine response) in
def chunkAnswers : List (Except Throwable Answers) :=
  (chunkOutcomes repository engine response).map (readOutcome repository)

variable (repository engine response) in
theorem chunkStep_collects (llm : LlmOutcome) (chunk : List FormQuestion × Nat) :
    (chunkStep repository engine response llm chunk).map LlmOutcome.llmAnswers =
      (readOutcome repository (engine chunk.2 (chunkPrompt repository response chunk.1))).map fun answers =>
        llm.llmAnswers.putAll answers.entries := by
  unfold chunkStep readOutcome
  cases engine chunk.2 (chunkPrompt repository response chunk.1) with
  | error thrown => rfl
  | ok raw =>
    dsimp only
    cases extractAnswers repository.json repository.definition raw with
    | error thrown => rfl
    | ok extracted =>
      by_cases empty : extracted.isEmpty = true
      · rw [(LinkedMap.isEmpty_iff extracted).mp empty]
        rfl
      · simp only [empty]
        rfl

theorem chunks_collect (chunks : List (List FormQuestion × Nat)) (llm : LlmOutcome) :
    (chunks.foldlM (chunkStep repository engine response) llm).map LlmOutcome.llmAnswers =
      collect llm.llmAnswers (chunks.map fun chunk =>
        readOutcome repository (engine chunk.2 (chunkPrompt repository response chunk.1))) := by
  induction chunks generalizing llm with
  | nil => rfl
  | cons chunk chunks ih =>
    have step := chunkStep_collects repository engine response llm chunk
    rw [List.foldlM_cons, List.map_cons]
    cases read : readOutcome repository (engine chunk.2 (chunkPrompt repository response chunk.1)) with
    | error thrown =>
      rw [read] at step
      cases taken : chunkStep repository engine response llm chunk with
      | error other =>
        rw [taken] at step
        cases step
        rfl
      | ok next =>
        rw [taken] at step
        cases step
    | ok answers =>
      rw [read] at step
      cases taken : chunkStep repository engine response llm chunk with
      | error other =>
        rw [taken] at step
        cases step
      | ok next =>
        rw [taken] at step
        have collected : next.llmAnswers = llm.llmAnswers.putAll answers.entries := Except.ok.inj step
        rw [collect, ← collected]
        exact ih next

variable (repository engine response) in
theorem llmOutcome_collects :
    (llmOutcome { repository with llmEngine := some engine } response).map LlmOutcome.llmAnswers =
      collect .empty (chunkAnswers repository engine response) := by
  unfold chunkAnswers chunkOutcomes
  rw [List.map_map]
  exact chunks_collect (buildQuestionGroups repository.definition).zipIdx {}

theorem chunkAnswers_return_iff :
    (∀ chunk ∈ chunkAnswers repository engine response, ∃ answers, chunk = .ok answers) ↔
      NoStrayAnswers repository engine response := by
  unfold NoStrayAnswers chunkAnswers
  rw [List.forall_mem_map]
  constructor
  · intro returned raw member
    rw [← extractAnswers_returns_iff]
    exact returned _ member
  · intro clean outcome member
    cases outcome with
    | error thrown => exact ⟨.empty, rfl⟩
    | ok raw => exact (extractAnswers_returns_iff raw).mpr (clean raw member)

theorem collected_iff (key value : KString) :
    (∃ llm, llmOutcome { repository with llmEngine := some engine } response = .ok llm ∧
        llm.llmAnswers.get? key = some value) ↔
      NoStrayAnswers repository engine response ∧ LastWord (chunkAnswers repository engine response) key value := by
  have collects := llmOutcome_collects repository engine response
  rw [← chunkAnswers_return_iff, ← collect_returns_iff .empty]
  constructor
  · rintro ⟨llm, ran, stored⟩
    rw [ran] at collects
    refine ⟨⟨llm.llmAnswers, collects.symm⟩, ?_⟩
    exact ((collect_get?_iff collects.symm).mp stored).resolve_right fun initial => by cases initial.1
  · rintro ⟨⟨answers, collected⟩, word⟩
    rw [collected] at collects
    cases ran : llmOutcome { repository with llmEngine := some engine } response with
    | error thrown =>
      rw [ran] at collects
      cases collects
    | ok llm =>
      rw [ran] at collects
      have same : llm.llmAnswers = answers := Except.ok.inj collects
      exact ⟨llm, rfl, by rw [same]; exact (collect_get?_iff collected).mpr (Or.inl word)⟩

/-- Every question stands in one group, and the answer of its own chunk is collected exactly if no
    response is misread and none to a later group has another last word. -/
theorem ownAnswer_collected_iff (distinct : (repository.definition.map FormQuestion.id).Nodup) :
    let groups := buildQuestionGroups repository.definition
    let chunks := chunkAnswers repository engine response
    (∀ group ∈ groups, group ≠ []) ∧ groups.flatten.Perm repository.definition ∧
      (∀ question ∈ repository.definition, groups.flatten.count question = 1) ∧
      ∀ i group, groups[i]? = some group → ∀ f ∈ group, ∀ value, answerAt chunks i f.id = some value →
        ((∃ llm, llmOutcome { repository with llmEngine := some engine } response = .ok llm ∧
            llm.llmAnswers.get? f.id = some value) ↔
          NoStrayAnswers repository engine response ∧
            ∃ j ≥ i, answerAt chunks j f.id = some value ∧ ∀ k > j, answerAt chunks k f.id = none) := by
  intro groups chunks
  have permuted := buildQuestionGroups_perm repository.definition
  refine ⟨buildQuestionGroups_filled repository.definition, permuted, ?_, ?_⟩
  · intro question member
    rw [permuted.count_eq]
    exact List.count_eq_one_of_mem distinct.of_map member
  · intro i group _ f _ value answered
    rw [collected_iff, LastWord.later answered]

end Chunks

section TalkativeModel

omit [Platform]

def fiveQuestions : FormDefinition :=
  [⟨txt "name", txt "Wie heißt du?", true⟩,
    ⟨txt "problem", txt "Was war das Problem?", true⟩,
    ⟨txt "learning", txt "Was hast du gelernt?", false⟩,
    ⟨txt "datum", txt "Wann war das?", false⟩,
    ⟨txt "ort", txt "Wo war das?", false⟩]

def askedText : KString := txt "\x7b\"answers\":\x7b\"name\":\"Anna\"\x7d\x7d"

def unaskedText : KString := txt "\x7b\"answers\":\x7b\"problem\":\"Der Akku war leer\",\"name\":\"Max\"\x7d\x7d"

def talkativeEngine : OnDeviceLlmEngine := fun index _ =>
  match index with
  | 0 => .ok askedText
  | 1 => .ok unaskedText
  | _ => .error ⟨none⟩

def talkativeJson : JsonParser where
  decodeFromString text :=
    if text = askedText then some (.ofPairs [(txt "name", txt "Anna")])
    else if text = unaskedText then some (.ofPairs [(txt "problem", txt "Der Akku war leer"), (txt "name", txt "Max")])
    else none
  parseToJsonElement text :=
    if text = askedText then some (.object [(txt "answers", .object [(txt "name", .primitive (txt "Anna"))])])
    else if text = unaskedText then some (.object [(txt "answers", .object
      [(txt "problem", .primitive (txt "Der Akku war leer")), (txt "name", .primitive (txt "Max"))])])
    else none
  notAnObject _ := ⟨some (txt "Element is not a JsonObject")⟩

def talkativeRepository : OnDeviceLlmFormMappingRepository :=
  letI := basicPlatform
  { definition := fiveQuestions
    json := talkativeJson
    llmEngine := some talkativeEngine
    fallbackRepository := OnDeviceKeyword.mapTranscript fiveQuestions }

def talkativeResponse : TranscriptionResponse := { text := txt "Ich heiße Anna. Der Akku war leer." }

def collectedValue (outcome : Except Throwable LlmOutcome) (key : KString) : Option KString :=
  match outcome with
  | .ok llm => llm.llmAnswers.get? key
  | .error _ => none

theorem ownAnswer_collected_iff_talkative :
    letI := basicPlatform
    let groups := buildQuestionGroups talkativeRepository.definition
    let chunks := chunkAnswers talkativeRepository talkativeEngine talkativeResponse
    (∀ group ∈ groups, group ≠ []) ∧ groups.flatten.Perm talkativeRepository.definition ∧
      (∀ question ∈ talkativeRepository.definition, groups.flatten.count question = 1) ∧
      ∀ i group, groups[i]? = some group → ∀ f ∈ group, ∀ value, answerAt chunks i f.id = some value →
        ((∃ llm, llmOutcome { talkativeRepository with llmEngine := some talkativeEngine } talkativeResponse = .ok llm ∧
            llm.llmAnswers.get? f.id = some value) ↔
          NoStrayAnswers talkativeRepository talkativeEngine talkativeResponse ∧
            ∃ j ≥ i, answerAt chunks j f.id = some value ∧ ∀ k > j, answerAt chunks k f.id = none) :=
  letI := basicPlatform
  ownAnswer_collected_iff (by decide +kernel)

theorem later_chunk_overwrites :
    letI := basicPlatform
    (talkativeRepository.definition.map FormQuestion.id).Nodup ∧
      (buildQuestionGroups talkativeRepository.definition)[0]? = some [⟨txt "name", txt "Wie heißt du?", true⟩] ∧
      answerAt (chunkAnswers talkativeRepository talkativeEngine talkativeResponse) 0 (txt "name") = some (txt "Anna") ∧
      ¬ ∃ llm, llmOutcome { talkativeRepository with llmEngine := some talkativeEngine } talkativeResponse = .ok llm ∧
        llm.llmAnswers.get? (txt "name") = some (txt "Anna") := by
  let characters := basicPlatform
  have overwritten : collectedValue (llmOutcome { talkativeRepository with llmEngine := some talkativeEngine }
      talkativeResponse) (txt "name") = some (txt "Max") := by decide +kernel
  have different : some (txt "Max") ≠ some (txt "Anna") := by decide +kernel
  refine ⟨by decide +kernel, by decide +kernel, by decide +kernel, ?_⟩
  rintro ⟨llm, ran, stored⟩
  rw [ran, collectedValue, stored] at overwritten
  exact different overwritten.symm

end TalkativeModel

end Android

end Form
