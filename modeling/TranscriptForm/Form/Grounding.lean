import TranscriptForm.Form.EvidenceWords
import TranscriptForm.Form.FieldChoice
import TranscriptForm.Form.Mapping

namespace Form.Ios

open Kotlin OnDeviceLlm Selection Words

section Kept

variable [Platform]

def Grounded (transcriptText answer : KString) : Prop :=
  ∀ token ∈ tokenizeForEvidence answer, token ∈ tokenizeForEvidence transcriptText

def KeptGrounded (llmAnswers : Answers) (transcriptText : KString) : Prop :=
  ∀ id answer, (filterLlmAnswersByTranscriptEvidence llmAnswers transcriptText).get? id = some answer →
    Grounded transcriptText answer

def OccursAsPhrase (transcriptText answer : KString) : Prop :=
  isBlank transcriptText = false ∧ isBlank (trim answer) = false ∧
    3 ≤ (normalizeTextForEvidence (trim answer)).length ∧
    contains (normalizeTextForEvidence transcriptText) (normalizeTextForEvidence (trim answer)) = true

def outerWords (answer : KString) : List KString :=
  let words := splitChar (ch ' ') (normalizeTextForEvidence (trim answer))
  words.head?.toList ++ words.getLast?.toList

/-- Where an answer passes as a phrase, its outer words say nothing or are words of the transcript. -/
def OuterWordsSpoken (llmAnswers : Answers) (transcriptText : KString) : Prop :=
  ∀ id answer, llmAnswers.get? id = some answer → OccursAsPhrase transcriptText answer →
    ∀ word ∈ outerWords answer, isContent word = true → word ∈ tokenizeForEvidence transcriptText

variable {llmAnswers : Answers} {transcriptText answer : KString}

theorem mem_tokens {value word : KString} : word ∈ tokenizeForEvidence value ↔
    word ∈ splitChar (ch ' ') (normalizeTextForEvidence value) ∧ isContent word = true := by
  unfold tokenizeForEvidence isContent
  dsimp only
  rw [evidence_pieces, List.mem_filter, List.mem_filter, Bool.and_eq_true, and_assoc]

theorem kept_iff {id : KString} :
    (filterLlmAnswersByTranscriptEvidence llmAnswers transcriptText).get? id = some answer ↔
      llmAnswers.get? id = some answer ∧ isBlank transcriptText = false ∧
        isAnswerGroundedInTranscript answer (normalizeTextForEvidence transcriptText)
          (tokenizeForEvidence transcriptText) = true := by
  unfold filterLlmAnswersByTranscriptEvidence
  split
  · rename_i empty
    have absent : llmAnswers.get? id = none := by
      rw [(LinkedMap.isEmpty_iff llmAnswers).mp empty]
      rfl
    rw [absent]
    simp
  · split
    · rename_i blank
      simp [blank]
    · rename_i spoken
      have notBlank : isBlank transcriptText = false := by simpa using spoken
      rw [LinkedMap.get?_filterValues_some]
      simp [notBlank]

theorem phrase_passes (phrase : OccursAsPhrase transcriptText answer) :
    isAnswerGroundedInTranscript answer (normalizeTextForEvidence transcriptText)
      (tokenizeForEvidence transcriptText) = true := by
  obtain ⟨_, notBlank, long, inside⟩ := phrase
  simp [isAnswerGroundedInTranscript, notBlank, inside, Nat.not_lt.mpr long]

theorem passed_cases (spoken : isBlank transcriptText = false)
    (passed : isAnswerGroundedInTranscript answer (normalizeTextForEvidence transcriptText)
      (tokenizeForEvidence transcriptText) = true) :
    OccursAsPhrase transcriptText answer ∨ Grounded transcriptText answer := by
  unfold isAnswerGroundedInTranscript at passed
  dsimp only at passed
  split at passed
  · cases passed
  · rename_i notBlank
    split at passed
    · cases passed
    · rename_i long
      split at passed
      · rename_i inside
        exact Or.inl ⟨spoken, by simpa using notBlank, by omega, inside⟩
      · split at passed
        · cases passed
        · right
          intro token member
          rw [← tokens_trim] at member
          simpa using List.all_eq_true.mp passed token member

/-- A content word of a part of a text is one of the whole, but for the first and the last word of the part. -/
theorem tokens_interior {part text token : KString}
    (inside : normalizeTextForEvidence (trim part) <:+: normalizeTextForEvidence text)
    (member : token ∈ tokenizeForEvidence part) : token ∈ outerWords part ∨ token ∈ tokenizeForEvidence text := by
  rw [← tokens_trim] at member
  obtain ⟨piece, content⟩ := mem_tokens.mp member
  rcases splitChar_interior inside piece with first | last | whole
  · exact Or.inl (by simp [outerWords, first])
  · exact Or.inl (by simp [outerWords, last])
  · exact Or.inr (mem_tokens.mpr ⟨whole, content⟩)

theorem phrase_grounded (phrase : OccursAsPhrase transcriptText answer)
    (outer : ∀ word ∈ outerWords answer, isContent word = true → word ∈ tokenizeForEvidence transcriptText) :
    Grounded transcriptText answer := by
  intro token member
  rcases tokens_interior ((contains_iff _ _).mp phrase.2.2.2) member with edge | spoken
  · exact outer token edge (mem_tokens.mp member).2
  · exact spoken

theorem outerWords_tokens {word : KString} (outer : word ∈ outerWords answer) (content : isContent word = true) :
    word ∈ tokenizeForEvidence answer := by
  rw [← tokens_trim, mem_tokens]
  refine ⟨?_, content⟩
  simp only [outerWords, List.mem_append, Option.mem_toList] at outer
  rcases outer with first | last
  · exact List.mem_of_mem_head? first
  · exact List.mem_of_getLast? last

theorem keptGrounded_iff (llmAnswers : Answers) (transcriptText : KString) :
    KeptGrounded llmAnswers transcriptText ↔ OuterWordsSpoken llmAnswers transcriptText := by
  constructor
  · intro grounded id answer stored phrase word outer content
    have kept := kept_iff.mpr ⟨stored, phrase.1, phrase_passes phrase⟩
    exact grounded id answer kept word (outerWords_tokens outer content)
  · intro spoken id answer kept
    obtain ⟨stored, notBlank, passed⟩ := kept_iff.mp kept
    rcases passed_cases notBlank passed with phrase | grounded
    · exact phrase_grounded phrase (spoken id answer stored phrase)
    · exact grounded

end Kept

section Mapped

variable [Platform]

def mergeSources (repository : OnDeviceLlmFormMappingRepository) (response : TranscriptionResponse)
    (llm : LlmOutcome) : AnswerSources :=
  ⟨sanitizedFor response llm, heuristicAnswersFor repository.definition response,
    answersOf (repository.fallbackRepository response)⟩

variable (repository : OnDeviceLlmFormMappingRepository) (response : TranscriptionResponse)

def LlmSourced (field : FieldSpec) (value : KString) : Prop :=
  ∃ llm data, llmOutcome repository response = .ok llm ∧ mapTranscript repository response = .success data ∧
    data.fieldAnswers = (mergeAnswersPerField repository.definition (mergeSources repository response llm)).answers ∧
    (field, CandidateSource.llm, value) ∈ formPicks mergeRules (mergeSources repository response llm) repository.definition

/-- What the language model adds, kept or filled in, has its content words in the transcript. -/
def NoHallucination : Prop :=
  (∀ llm, llmOutcome repository response = .ok llm →
    KeptGrounded (sanitizeLlmAnswers llm.llmAnswers) (transcriptForHeuristics response)) ∧
  ∀ field value, LlmSourced repository response field value → Grounded (transcriptForHeuristics response) value

/-- What of a captured name is left when marks and an article are cut off. -/
def bareName (raw : KString) : KString := replace leadingArticle [] (trimChars (txt ".,;:!?") (trim raw))

def nameParts (raw : KString) : List KString := (splitChar (ch ' ') (tidyName raw)).filter isNotBlank

/-- The part is somewhere in the text where it begins and ends with words of the text. -/
def StandsWhole (part text : KString) : Prop :=
  ∃ left right, text = left ++ part ++ right ∧
    tokenizeForEvidence text = tokenizeForEvidence left ++ tokenizeForEvidence part ++ tokenizeForEvidence right

/-- A name pattern captures `raw` in a kept answer to a name field, and the field can be filled with it. -/
structure NameCut (llm : LlmOutcome) (field : FieldSpec) (answer raw : KString) : Prop where
  listed : field ∈ fieldSpecs repository.definition
  isName : isNameField field = true
  kept : (sanitizedFor response llm).get? field.id = some answer
  captured : ∃ pattern ∈ namePatterns, ∃ found, find pattern (trim answer) = some found ∧ groupValue found 1 = raw
  usable : ∃ name, extractNameFromText (trim answer) = some name ∧ cleanupName raw = some name ∧
    isUsableFieldAnswer field name [] = true

/-- A word that the cut makes, by going through a longer word or by its capital letters, is one of the transcript. -/
def CutWordsSpoken (llm : LlmOutcome) : Prop :=
  ∀ field answer raw, NameCut repository response llm field answer raw →
    ∀ part ∈ nameParts raw, ∀ token ∈ tokenizeForEvidence (capitalise part),
      token ∉ tokenizeForEvidence (bareName raw) ∨
        token ∈ outerWords (bareName raw) ∧ ¬ StandsWhole (bareName raw) (trim answer) →
      token ∈ tokenizeForEvidence (transcriptForHeuristics response)

/-- The names are cut out between words, and capital letters leave their words as they are. -/
def NamesWhole (llm : LlmOutcome) : Prop :=
  ∀ field answer raw, NameCut repository response llm field answer raw →
    StandsWhole (bareName raw) (trim answer) ∧
      ∀ part ∈ nameParts raw, ∀ token ∈ tokenizeForEvidence (capitalise part), token ∈ tokenizeForEvidence (bareName raw)

variable {repository response}

theorem mapTranscript_of_llmOutcome (spoken : isBlank (transcriptForHeuristics response) = false) {llm : LlmOutcome}
    (outcome : llmOutcome repository response = .ok llm) :
    ∃ data, mapTranscript repository response = .success data ∧
      data.fieldAnswers =
        (mergeAnswersPerField repository.definition (mergeSources repository response llm)).answers := by
  have filled : (isBlank (transcriptTextPlain response (TranscriptToFormMapper.buildSpeakerBlocks response)) &&
      isBlank (transcriptTextWithSpeakers (TranscriptToFormMapper.buildSpeakerBlocks response))) = false := by
    unfold transcriptForHeuristics isNotBlank at spoken
    dsimp only at spoken
    split at spoken
    · rename_i plain
      rw [Bool.not_eq_true'] at plain
      rw [plain, Bool.false_and]
    · rw [spoken, Bool.and_false]
  unfold mapTranscript primaryMapping
  dsimp only
  rw [filled, if_neg (by decide), outcome]
  exact ⟨_, rfl, rfl⟩

theorem sourced_answer {field : FieldSpec} {value : KString} (sourced : LlmSourced repository response field value) :
    ∃ llm answer, llmOutcome repository response = .ok llm ∧ field ∈ fieldSpecs repository.definition ∧
      (sanitizedFor response llm).get? field.id = some answer ∧
      value = normalizeCandidateForField field (trim answer) ∧ ∃ used, isUsableFieldAnswer field value used = true := by
  obtain ⟨llm, _, outcome, _, _, pick⟩ := sourced
  obtain ⟨before, after, _, chosen⟩ := mem_picks_iff.mp pick
  have usable := picked_usable chosen
  obtain ⟨answer, same, origin⟩ := candidate_origin (List.mem_of_find?_eq_some chosen)
  rw [mergeRules_normalize] at same
  rw [mergeRules_usable] at usable
  rcases origin with ⟨_, stored⟩ | ⟨other, _⟩ | ⟨other, _⟩
  · exact ⟨llm, answer, outcome, item_of_mem_picks pick, stored, same, _, usable⟩
  · cases other
  · cases other

omit repository response in
theorem bareName_part (raw : KString) : bareName raw <:+: raw := by
  have bare : trimChars (txt ".,;:!?") (trim raw) <:+: raw := (trimBy_part _).trans (trim_part raw)
  exact (textStart_anchored _).replace_nil _ |>.isInfix.trans bare

omit repository response in
theorem cleanupName_parts {raw name : KString} (cleaned : cleanupName raw = some name) :
    name = joinToString (txt " ") ((nameParts raw).map capitalise) := by
  unfold cleanupName cleanupNameUnless at cleaned
  dsimp only at cleaned
  split_ifs at cleaned
  exact (Option.some.inj cleaned).symm

omit repository response in
theorem name_tokens {raw name : KString} (cleaned : cleanupName raw = some name) (token : KString) :
    token ∈ tokenizeForEvidence name ↔ ∃ part ∈ nameParts raw, token ∈ tokenizeForEvidence (capitalise part) := by
  rw [cleanupName_parts cleaned, tokens_join, List.flatMap_map, List.mem_flatMap]

omit repository response in
theorem extracted_captured {text name : KString} (extracted : extractNameFromText text = some name) :
    ∃ pattern ∈ namePatterns, ∃ found, find pattern text = some found ∧ cleanupName (groupValue found 1) = some name := by
  unfold extractNameFromText extractNameWith at extracted
  split at extracted
  · cases extracted
  · obtain ⟨pattern, listed, cut⟩ := List.exists_of_findSome?_eq_some extracted
    obtain ⟨found, search, cleaned⟩ := Option.bind_eq_some_iff.mp cut
    exact ⟨pattern, listed, found, search, (Option.filter_eq_some_iff.mp cleaned).1⟩

theorem NameCut.sourced {llm : LlmOutcome} {field : FieldSpec} {answer raw name : KString}
    (cut : NameCut repository response llm field answer raw) (outcome : llmOutcome repository response = .ok llm)
    (cleaned : cleanupName raw = some name) : LlmSourced repository response field name := by
  obtain ⟨taken, extracted, same, usable⟩ := cut.usable
  rw [Option.some.inj (same.symm.trans cleaned)] at extracted usable
  have spoken := (kept_iff.mp cut.kept).2.1
  obtain ⟨data, success, filled⟩ := mapTranscript_of_llmOutcome spoken outcome
  refine ⟨llm, data, outcome, success, filled, ?_⟩
  have normal : mergeRules.normalizeCandidateForField field (trim answer) = name := by
    rw [mergeRules_normalize, normalizeCandidateForField, cut.isName, extracted]
    rfl
  obtain ⟨before, after, split⟩ := List.append_of_mem cut.listed
  refine mem_picks_iff.mpr ⟨before, after, split, ?_⟩
  rw [← normal]
  apply picked_llm cut.kept
  rw [normal, mergeRules_usable, isUsableFieldAnswer, usable_name cut.isName]
  exact usable

theorem NameCut.grounded {llm : LlmOutcome} {field : FieldSpec} {answer raw name : KString}
    (cut : NameCut repository response llm field answer raw) (cleaned : cleanupName raw = some name)
    (grounded : Grounded (transcriptForHeuristics response) answer) (cutSpoken : CutWordsSpoken repository response llm) :
    Grounded (transcriptForHeuristics response) name := by
  intro token member
  obtain ⟨part, listed, inside⟩ := (name_tokens cleaned token).mp member
  by_contra unspoken
  have old := not_or.mp fun new => unspoken (cutSpoken field answer raw cut part listed token inside new)
  have bare : token ∈ tokenizeForEvidence (bareName raw) := not_not.mp old.1
  have answered : token ∈ tokenizeForEvidence (trim answer) := by
    obtain ⟨pattern, _, found, search, capture⟩ := cut.captured
    have placed : bareName raw <:+: trim answer := (bareName_part raw).trans (capture ▸ groupValue_part search 1)
    have normal : normalizeTextForEvidence (trim (bareName raw)) <:+: normalizeTextForEvidence (trim answer) := by
      rw [normalizeTextForEvidence_trim]
      exact normalizeTextForEvidence_part placed
    rcases tokens_interior normal bare with outer | whole
    · obtain ⟨left, right, _, words⟩ : StandsWhole (bareName raw) (trim answer) :=
        not_not.mp fun torn => old.2 ⟨outer, torn⟩
      rw [words]
      exact List.mem_append_left _ (List.mem_append_right _ bare)
    · exact whole
  rw [tokens_trim] at answered
  exact unspoken (grounded token answered)

theorem noHallucination_iff (repository : OnDeviceLlmFormMappingRepository) (response : TranscriptionResponse) :
    NoHallucination repository response ↔ ∀ llm, llmOutcome repository response = .ok llm →
      OuterWordsSpoken (sanitizeLlmAnswers llm.llmAnswers) (transcriptForHeuristics response) ∧
        CutWordsSpoken repository response llm := by
  constructor
  · rintro ⟨kept, filled⟩ llm outcome
    refine ⟨(keptGrounded_iff _ _).mp (kept llm outcome), ?_⟩
    intro field answer raw cut part listed token inside _
    obtain ⟨name, _, cleaned, _⟩ := cut.usable
    exact filled field name (cut.sourced outcome cleaned) token ((name_tokens cleaned token).mpr ⟨part, listed, inside⟩)
  · intro condition
    have kept : ∀ llm, llmOutcome repository response = .ok llm →
        KeptGrounded (sanitizeLlmAnswers llm.llmAnswers) (transcriptForHeuristics response) :=
      fun llm outcome => (keptGrounded_iff _ _).mpr (condition llm outcome).1
    refine ⟨kept, ?_⟩
    intro field value sourced
    obtain ⟨llm, answer, outcome, listed, stored, same, used, usable⟩ := sourced_answer sourced
    have grounded : Grounded (transcriptForHeuristics response) answer := kept llm outcome field.id answer stored
    have whole : Grounded (transcriptForHeuristics response) (trim (trim answer)) := by
      intro token member
      rw [tokens_trim, tokens_trim] at member
      exact grounded token member
    rw [normalizeCandidateForField] at same
    split at same
    · rw [same]
      exact whole
    · rename_i isName
      cases extracted : extractNameFromText (trim answer) with
      | none =>
        rw [extracted] at same
        rw [same]
        exact whole
      | some name =>
        rw [extracted, Option.getD_some] at same
        subst same
        have name : isNameField field = true := by simpa using isName
        rw [isUsableFieldAnswer, usable_name name] at usable
        obtain ⟨pattern, among, found, search, cleaned⟩ := extracted_captured extracted
        have cut : NameCut repository response llm field answer (groupValue found 1) :=
          ⟨listed, name, stored, ⟨pattern, among, found, search, rfl⟩, value, extracted, cleaned, usable⟩
        exact cut.grounded cleaned grounded (condition llm outcome).2

theorem NamesWhole.spoken {llm : LlmOutcome} (whole : NamesWhole repository response llm) :
    CutWordsSpoken repository response llm := by
  intro field answer raw cut part listed token inside new
  obtain ⟨stands, same⟩ := whole field answer raw cut
  rcases new with changed | ⟨_, torn⟩
  · exact absurd (same part listed token inside) changed
  · exact absurd stands torn

/-- The evidence filter keeps to the transcript exactly if no answer passes as a phrase
    whose outer words are content words cut out of longer ones. So does the mapping where the
    name patterns cut between words. Where they cut through one, its pieces have to be spoken too. -/
theorem evidence_iff :
    (∀ (llmAnswers : Answers) (transcriptText : KString),
      KeptGrounded llmAnswers transcriptText ↔ OuterWordsSpoken llmAnswers transcriptText) ∧
    ∀ (repository : OnDeviceLlmFormMappingRepository) (response : TranscriptionResponse),
      (NoHallucination repository response ↔ ∀ llm, llmOutcome repository response = .ok llm →
        OuterWordsSpoken (sanitizeLlmAnswers llm.llmAnswers) (transcriptForHeuristics response) ∧
          CutWordsSpoken repository response llm) ∧
      ((∀ llm, llmOutcome repository response = .ok llm → NamesWhole repository response llm) →
        (NoHallucination repository response ↔ ∀ llm, llmOutcome repository response = .ok llm →
          OuterWordsSpoken (sanitizeLlmAnswers llm.llmAnswers) (transcriptForHeuristics response))) := by
  refine ⟨keptGrounded_iff, fun repository response => ⟨noHallucination_iff repository response, ?_⟩⟩
  intro names
  rw [noHallucination_iff]
  constructor
  · exact fun spoken llm outcome => (spoken llm outcome).1
  · exact fun spoken llm outcome => ⟨spoken llm outcome, (names llm outcome).spoken⟩

end Mapped

section Sample

def introductionText : KString := txt "\x7b\"answers\":\x7b\"name\":\"Ich heiße Anna\"\x7d\x7d"

def introductionJson : JsonParser where
  decodeFromString text := if text = introductionText then some (.ofPairs [(txt "name", txt "Ich heiße Anna")]) else none
  parseToJsonElement text :=
    if text = introductionText then
      some (.object [(txt "answers", .object [(txt "name", .primitive (txt "Ich heiße Anna"))])])
    else none
  notAnObject _ := ⟨none⟩

def introductionRepository : OnDeviceLlmFormMappingRepository :=
  letI := basicPlatform
  { definition := DefaultFormDefinitionProvider.questions
    json := introductionJson
    llmEngine := some fun _ _ => .ok introductionText
    fallbackRepository := OnDeviceKeyword.mapTranscript DefaultFormDefinitionProvider.questions }

def introductionResponse : TranscriptionResponse := { text := txt "Also, ich heiße Anna. Der Akku war leer." }

def answersIn (outcome : Except Throwable LlmOutcome) : Answers :=
  match outcome with
  | .ok llm => llm.llmAnswers
  | .error _ => .empty

theorem evidence_iff_introduction :
    letI := basicPlatform
    NoHallucination introductionRepository introductionResponse := by
  let characters := basicPlatform
  have returned : answersIn (llmOutcome introductionRepository introductionResponse) =
      .ofPairs [(txt "name", txt "Ich heiße Anna")] := by decide +kernel
  have said : ∀ llm, llmOutcome introductionRepository introductionResponse = .ok llm →
      llm.llmAnswers = .ofPairs [(txt "name", txt "Ich heiße Anna")] := by
    intro llm outcome
    exact (congrArg answersIn outcome).symm.trans returned
  have whole : ∀ id answer, (sanitizeLlmAnswers (.ofPairs [(txt "name", txt "Ich heiße Anna")])).get? id = some answer →
      answer = txt "Ich heiße Anna" := by
    have entries : ∀ entry ∈ (sanitizeLlmAnswers (.ofPairs [(txt "name", txt "Ich heiße Anna")])).entries,
        entry.2 = txt "Ich heiße Anna" := by decide +kernel
    intro id answer stored
    exact entries _ ((LinkedMap.get?_eq_some_iff _).mp stored)
  refine ((evidence_iff.2 introductionRepository introductionResponse).2 ?_).mpr ?_
  · intro llm outcome field answer raw cut
    have stored := (kept_iff.mp cut.kept).1
    rw [said llm outcome] at stored
    obtain rfl := whole field.id answer stored
    obtain ⟨pattern, listed, found, search, rfl⟩ := cut.captured
    have captures : ∀ pattern ∈ namePatterns, ∀ found, find pattern (trim (txt "Ich heiße Anna")) = some found →
        groupValue found 1 = txt "Anna" := by
      have each : ∀ pattern ∈ namePatterns,
          ((find pattern (trim (txt "Ich heiße Anna"))).all fun found => groupValue found 1 == txt "Anna") = true := by
        decide +kernel
      intro pattern listed found search
      have value := each pattern listed
      rw [search] at value
      simpa using value
    rw [captures pattern listed found search]
    exact ⟨⟨txt "Ich heiße ", [], by decide +kernel, by decide +kernel⟩, by decide +kernel⟩
  · intro llm outcome id answer stored _
    rw [said llm outcome] at stored
    obtain rfl := whole id answer stored
    have spoken : ∀ word ∈ outerWords (txt "Ich heiße Anna"), isContent word = true →
        word ∈ tokenizeForEvidence (transcriptForHeuristics introductionResponse) := by decide +kernel
    exact spoken

theorem part_of_word_kept :
    letI := basicPlatform
    ¬ KeptGrounded (.ofPairs [(txt "problem", txt "möglich")]) (txt "Der Start war unmöglich.") := by
  let characters := basicPlatform
  have kept : (filterLlmAnswersByTranscriptEvidence (.ofPairs [(txt "problem", txt "möglich")])
      (txt "Der Start war unmöglich.")).get? (txt "problem") = some (txt "möglich") := by decide +kernel
  have content : txt "moeglich" ∈ tokenizeForEvidence (txt "möglich") := by decide +kernel
  have unspoken : txt "moeglich" ∉ tokenizeForEvidence (txt "Der Start war unmöglich.") := by decide +kernel
  intro grounded
  exact unspoken (grounded _ _ kept _ content)

end Sample

end Form.Ios
