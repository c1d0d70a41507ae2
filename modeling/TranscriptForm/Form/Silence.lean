import TranscriptForm.Form.Mapping
import TranscriptForm.Form.Mentions
import TranscriptForm.Form.SpeakerBlocks

namespace Form

open Kotlin OnDeviceLlm

/-- A response in which nobody says anything, whatever its speaker labels are. -/
structure Silent (response : TranscriptionResponse) : Prop where
  text : isBlank response.text = true
  segments : ∀ segment ∈ response.segments, isBlank segment.text = true
  words : ∀ word ∈ response.words, isBlank word.word = true

def labelLines (response : TranscriptionResponse) : KString :=
  transcriptTextWithSpeakers (TranscriptToFormMapper.buildSpeakerBlocks response)

def FillsNothing (result : AppResult TranscriptMappingResult) : Prop :=
  ∀ data, result = .success data → data.fieldAnswers = .empty

theorem labelLines_notBlank {response : TranscriptionResponse} (segments : response.segments ≠ []) :
    isBlank (labelLines response) = false :=
  labelled_notBlank fun none => segments ((speakerBlocks_eq_nil_iff response).mp none)

section Blank

variable {response : TranscriptionResponse} (silent : Silent response)
include silent

theorem speakerBlocks_blank : ∀ block ∈ TranscriptToFormMapper.buildSpeakerBlocks response,
    isBlank block.text = true := by
  intro block member
  have trims : ∀ text, isBlank text = true → isBlank (trim text) = true := by
    intro text blank
    rw [isBlank_trim]
    exact blank
  have joins : ∀ texts : List KString, (∀ text ∈ texts, isBlank text = true) →
      isBlank (joinToString (txt " ") texts) = true := fun _ => join_blank (by decide)
  exact (speakerBlocks_members trims joins silent.segments block member).1

theorem transcriptTextPlain_blank :
    isBlank (transcriptTextPlain response (TranscriptToFormMapper.buildSpeakerBlocks response)) = true := by
  have joined : ∀ texts : List KString, (∀ text ∈ texts, isBlank text = true) →
      isBlank (trim (joinToString (txt " ") (texts.map trim))) = true := by
    intro texts all
    rw [isBlank_trim]
    apply join_blank (by decide)
    intro part member
    obtain ⟨text, listed, rfl⟩ := List.mem_map.mp member
    rw [isBlank_trim]
    exact all text listed
  have segments := joined (response.segments.map TranscriptSegment.text) (by simpa using silent.segments)
  have blocks := joined ((TranscriptToFormMapper.buildSpeakerBlocks response).map SpeakerBlock.text)
    (by simpa using speakerBlocks_blank silent)
  have words := joined (response.words.map TranscriptWord.word) (by simpa using silent.words)
  rw [List.map_map] at segments blocks words
  unfold transcriptTextPlain ifBlank
  dsimp only
  rw [silent.text, if_pos rfl]
  split
  · exact segments
  · split
    · exact blocks
    · exact words

theorem transcriptForHeuristics_silent : transcriptForHeuristics response = labelLines response := by
  simp only [transcriptForHeuristics, isNotBlank, transcriptTextPlain_blank silent, labelLines, Bool.not_true,
    Bool.false_eq_true, if_false]

theorem keywordTranscript_silent : OnDeviceKeyword.keywordTranscript response = labelLines response := by
  simp only [OnDeviceKeyword.keywordTranscript, silent.text, if_true, labelLines]

end Blank

variable [Platform]

section Search

variable {response : TranscriptionResponse}

theorem questionTransition_blank (field : FieldSpec) {blocks : List SpeakerBlock}
    (blank : ∀ block ∈ blocks, isBlank block.text = true) : extractAnswerFromQuestionTransition field blocks = none := by
  induction blocks with
  | nil => rfl
  | cons currentBlock blocks ih =>
    have later := ih fun block member => blank block (List.mem_cons_of_mem _ member)
    have own := blank currentBlock List.mem_cons_self
    rw [← isBlank_trim] at own
    cases blocks with
    | nil => rfl
    | cons nextBlock rest =>
      have silent : transitionAnswer field currentBlock nextBlock rest.head? = none := by
        simp [transitionAnswer, own]
      rw [extractAnswerFromQuestionTransition, silent]
      exact later

theorem heuristicAnswers_blank (extractName : KString → Option KString) (specs : List FieldSpec)
    (transcriptText : KString) {blocks : List SpeakerBlock} (blank : ∀ block ∈ blocks, isBlank block.text = true) :
    extractHeuristicAnswers extractName specs transcriptText blocks =
      extractHeuristicAnswers extractName specs transcriptText [] := by
  have step : heuristicStep transcriptText blocks = heuristicStep transcriptText [] := by
    funext answers field
    have none := questionTransition_blank field blank
    simp only [heuristicStep, pickHeuristic, none, extractAnswerFromQuestionTransition]
  rw [extractHeuristicAnswers, extractHeuristicAnswers, step]

theorem heuristicAnswers_silent (silent : Silent response) (extractName : KString → Option KString)
    (specs : List FieldSpec) :
    extractHeuristicAnswers extractName specs (transcriptForHeuristics response)
        (TranscriptToFormMapper.buildSpeakerBlocks response) =
      extractHeuristicAnswers extractName specs (labelLines response) [] := by
  rw [transcriptForHeuristics_silent silent]
  exact heuristicAnswers_blank extractName specs _ (speakerBlocks_blank silent)

def labelSources (extractName : KString → Option KString) (definition : FormDefinition)
    (response : TranscriptionResponse) : AnswerSources :=
  ⟨.empty, extractHeuristicAnswers extractName (fieldSpecs definition) (labelLines response) [],
    OnDeviceKeyword.keywordAnswers definition (labelLines response)⟩

def LabelsUnusable (rules : MergeRules) (extractName : KString → Option KString) (definition : FormDefinition)
    (response : TranscriptionResponse) : Prop :=
  ∀ field ∈ fieldSpecs definition, ∀ candidate ∈ candidatesFor rules (labelSources extractName definition response) field,
    rules.isUsableFieldAnswer field candidate.2 [] = false

/-- The text says nothing that the searches could take for an answer to the field. -/
structure SaysNothing (rules : MergeRules) (extractName : KString → Option KString) (definition : FormDefinition)
    (text : KString) (field : FieldSpec) : Prop where
  unmentioned : Unmentioned field text
  noProblem : field.id ≠ txt "problem"
  noName : field.id = txt "name" → find introduction text = none
  noLearning : field.id = txt "learning" → OnDeviceKeyword.NothingLearned text
  nameless : isNameField field = true → extractName text = none
  marked : isNameField field = true → ∀ sentence ∈ sentencesOf text, sentence.length ≤ 40 →
    ∃ mark ∈ txt "?.:", mark ∈ rules.normalizeCandidateForField field sentence
  named : isNameField field = true → ∀ other ∈ fieldSpecs definition, other.id = field.id → isNameField other = true

instance {rules : MergeRules} {extractName : KString → Option KString} {definition : FormDefinition} {text : KString}
    {field : FieldSpec} : Decidable (SaysNothing rules extractName definition text field) :=
  decidable_of_iff (Unmentioned field text ∧ field.id ≠ txt "problem" ∧
    (field.id = txt "name" → find introduction text = none) ∧
    (field.id = txt "learning" → OnDeviceKeyword.NothingLearned text) ∧
    (isNameField field = true → extractName text = none) ∧
    (isNameField field = true → ∀ sentence ∈ sentencesOf text, sentence.length ≤ 40 →
      ∃ mark ∈ txt "?.:", mark ∈ rules.normalizeCandidateForField field sentence) ∧
    (isNameField field = true → ∀ other ∈ fieldSpecs definition, other.id = field.id → isNameField other = true))
    ⟨fun all => ⟨all.1, all.2.1, all.2.2.1, all.2.2.2.1, all.2.2.2.2.1, all.2.2.2.2.2.1, all.2.2.2.2.2.2⟩,
      fun quiet => ⟨quiet.unmentioned, quiet.noProblem, quiet.noName, quiet.noLearning, quiet.nameless, quiet.marked, quiet.named⟩⟩

/-- The labels of the speakers have nothing to do with the form. -/
def LabelsSayNothing (rules : MergeRules) (extractName : KString → Option KString) (definition : FormDefinition)
    (response : TranscriptionResponse) : Prop :=
  ∀ field ∈ fieldSpecs definition, SaysNothing rules extractName definition (labelLines response) field

theorem marked_unusable {isPlaceholder : KString → Bool} {field : FieldSpec} {answer : KString}
    (name : isNameField field = true) (marked : ∃ mark ∈ txt "?.:", mark ∈ answer) :
    isUsableFieldAnswerUnless isPlaceholder field answer [] = false := by
  obtain ⟨mark, listed, inside⟩ := marked
  have visible : (txt "?.:").all (fun c => !isWhitespace c) = true := by decide
  have clean : isWhitespace mark = false := by simpa using List.all_eq_true.mp visible mark listed
  have kept : contains (trim answer) [mark] = true := by
    obtain ⟨before, after, rfl⟩ := List.append_of_mem inside
    rw [contains_iff]
    exact trimBy_keeps (List.forall_mem_singleton.mpr clean) ⟨before, after, by simp⟩
  have refused : (contains (trim answer) (txt "?") || contains (trim answer) (txt ".") || contains (trim answer) (txt ":")) = true := by
    simp only [Bool.or_eq_true, or_assoc]
    rcases List.mem_cons.mp listed with rfl | listed
    · exact Or.inl kept
    · rcases List.mem_cons.mp listed with rfl | listed
      · exact Or.inr (Or.inl kept)
      · rw [List.mem_singleton.mp listed] at kept
        exact Or.inr (Or.inr kept)
  unfold isUsableFieldAnswerUnless
  dsimp only
  simp only [name, refused, if_true]
  split_ifs <;> rfl

theorem labelsUnusable {rules : MergeRules} {extractName : KString → Option KString} {definition : FormDefinition}
    (refused : ∀ field answer, isNameField field = true → (∃ mark ∈ txt "?.:", mark ∈ answer) →
      rules.isUsableFieldAnswer field answer [] = false)
    (silent : LabelsSayNothing rules extractName definition response) :
    LabelsUnusable rules extractName definition response := by
  intro field listed candidate member
  have own := silent field listed
  obtain ⟨answer, value, origin⟩ := candidate_origin member
  rcases origin with ⟨_, none⟩ | ⟨_, searched⟩ | ⟨_, found⟩
  · cases none
  · obtain ⟨source, among, sameId, name, sentence, short⟩ := heuristicAnswers_unmentioned
      (fun other listed => (silent other listed).unmentioned) (fun other listed => (silent other listed).nameless) searched
    obtain ⟨piece, _, rfl⟩ := List.mem_map.mp (List.mem_filter.mp sentence).1
    have isName : isNameField field = true := (silent source among).named name field listed sameId.symm
    rw [value, trim_trim]
    exact refused field _ isName (own.marked isName _ sentence short)
  · have unspoken : (OnDeviceKeyword.keywordAnswers definition (labelLines response)).get? field.id = none :=
      OnDeviceKeyword.keywordAnswers_unspoken own.noProblem own.noName own.noLearning
    have absent := unspoken.symm.trans found
    cases absent

theorem merged_nothing_iff {rules : MergeRules} {extractName : KString → Option KString} {definition : FormDefinition}
    (notBlank : ∀ field answer used, rules.isUsableFieldAnswer field answer used = true → isNotBlank answer = true)
    {result : AppResult TranscriptMappingResult} {data : TranscriptMappingResult} (success : result = .success data)
    (filled : data.fieldAnswers = (OnDeviceLlm.mergeAnswersPerField rules (fieldSpecs definition)
      (labelSources extractName definition response)).answers) :
    FillsNothing result ↔ LabelsUnusable rules extractName definition response := by
  rw [LabelsUnusable, ← merge_empty_iff notBlank, ← filled]
  constructor
  · intro nothing
    exact nothing data success
  · intro empty other same
    rw [success] at same
    cases same
    exact empty

theorem fillsNothing_iff_labels {rules : MergeRules} {extractName : KString → Option KString}
    {definition : FormDefinition}
    (notBlank : ∀ field answer used, rules.isUsableFieldAnswer field answer used = true → isNotBlank answer = true)
    {result : AppResult TranscriptMappingResult} (without : response.segments = [] → FillsNothing result)
    (labelled : response.segments ≠ [] → ∃ data, result = .success data ∧ data.fieldAnswers =
      (OnDeviceLlm.mergeAnswersPerField rules (fieldSpecs definition)
        (labelSources extractName definition response)).answers) :
    FillsNothing result ↔ response.segments = [] ∨ LabelsUnusable rules extractName definition response := by
  by_cases segments : response.segments = []
  · exact ⟨fun _ => Or.inl segments, fun _ => without segments⟩
  · obtain ⟨data, success, filled⟩ := labelled segments
    rw [merged_nothing_iff notBlank success filled]
    exact ⟨Or.inr, fun either => either.resolve_left segments⟩

theorem keywordAnswers_nil (definition : FormDefinition) : OnDeviceKeyword.keywordAnswers definition [] = .empty := by
  have none : ∀ id, OnDeviceKeyword.extractForQuestion id [] = [] := fun _ => rfl
  have nothing : (definition.filterMap fun question =>
      let value := OnDeviceKeyword.extractForQuestion question.id []
      if isBlank value then Option.none else some (question.id, value)) = [] := by
    apply List.filterMap_eq_nil_iff.mpr
    intro question _
    simp [none]
  rw [OnDeviceKeyword.keywordAnswers, nothing]
  rfl

end Search

section Mapped

variable {repository : OnDeviceLlmFormMappingRepository} {response : TranscriptionResponse}
  (noEngine : repository.llmEngine = none)
  (keyword : repository.fallbackRepository = OnDeviceKeyword.mapTranscript repository.definition)
  (silent : Silent response)
include keyword silent

theorem fallback_silent : repository.fallbackRepository response =
    .success { speakerBlocks := TranscriptToFormMapper.buildSpeakerBlocks response
               fieldAnswers := OnDeviceKeyword.keywordAnswers repository.definition (labelLines response)
               mappingStrategy := .heuristicFallback } := by
  rw [keyword, OnDeviceKeyword.mapTranscript, keywordTranscript_silent silent]
  rfl

theorem fallback_empty (none : response.segments = []) : repository.fallbackRepository response =
    .success { speakerBlocks := [], fieldAnswers := .empty, mappingStrategy := .heuristicFallback } := by
  have blocks := (speakerBlocks_eq_nil_iff response).mpr none
  have lines : labelLines response = [] := by
    rw [labelLines, blocks]
    rfl
  rw [fallback_silent keyword silent, lines, keywordAnswers_nil, blocks]

include noEngine

namespace Android

theorem mapTranscript_labels (segments : response.segments ≠ []) :
    ∃ data, mapTranscript repository response = .success data ∧ data.fieldAnswers =
      (mergeAnswersPerField repository.definition
        (labelSources extractNameFromText repository.definition response)).answers := by
  have labelled := labelLines_notBlank segments
  unfold labelLines at labelled
  unfold mapTranscript primaryMapping llmOutcome heuristicAnswersFor
  dsimp only
  rw [labelled, Bool.and_false, if_neg (by decide), noEngine, heuristicAnswers_silent silent,
    fallback_silent keyword silent]
  exact ⟨_, rfl, rfl⟩

omit noEngine in
theorem mapTranscript_without (segments : response.segments = []) :
    FillsNothing (mapTranscript repository response) := by
  intro data success
  have plain := transcriptTextPlain_blank silent
  have blocks := (speakerBlocks_eq_nil_iff response).mpr segments
  rw [blocks] at plain
  unfold mapTranscript primaryMapping at success
  dsimp only at success
  rw [blocks, plain, fallback_empty keyword silent segments] at success
  cases success
  rfl

theorem fillsNothing_iff : FillsNothing (mapTranscript repository response) ↔
    response.segments = [] ∨ LabelsUnusable mergeRules extractNameFromText repository.definition response :=
  fillsNothing_iff_labels usable_filled (mapTranscript_without keyword silent)
    (mapTranscript_labels noEngine keyword silent)

end Android

namespace Ios

theorem mapTranscript_labels (segments : response.segments ≠ []) :
    ∃ data, mapTranscript repository response = .success data ∧ data.fieldAnswers =
      (mergeAnswersPerField repository.definition
        (labelSources extractNameFromText repository.definition response)).answers := by
  have labelled := labelLines_notBlank segments
  unfold labelLines at labelled
  unfold mapTranscript primaryMapping llmOutcome heuristicAnswersFor
  dsimp only
  rw [labelled, Bool.and_false, if_neg (by decide), noEngine, heuristicAnswers_silent silent,
    fallback_silent keyword silent]
  exact ⟨_, rfl, rfl⟩

omit noEngine in
theorem mapTranscript_without (segments : response.segments = []) :
    FillsNothing (mapTranscript repository response) := by
  intro data success
  have plain := transcriptTextPlain_blank silent
  have blocks := (speakerBlocks_eq_nil_iff response).mpr segments
  rw [blocks] at plain
  unfold mapTranscript primaryMapping at success
  dsimp only at success
  rw [blocks, plain, fallback_empty keyword silent segments] at success
  cases success

theorem fillsNothing_iff : FillsNothing (mapTranscript repository response) ↔
    response.segments = [] ∨ LabelsUnusable mergeRules extractNameFromText repository.definition response :=
  fillsNothing_iff_labels usable_filled (mapTranscript_without keyword silent)
    (mapTranscript_labels noEngine keyword silent)

end Ios

/-- Silence fills no field of a form that the speaker labels have nothing to do with. Beyond that it fills one
    exactly where the searches cut a usable answer out of the labels. -/
theorem silence_fills_nothing :
    (response.segments = [] ∨
        LabelsSayNothing Android.mergeRules Android.extractNameFromText repository.definition response →
      FillsNothing (Android.mapTranscript repository response)) ∧
    (response.segments = [] ∨ LabelsSayNothing Ios.mergeRules Ios.extractNameFromText repository.definition response →
      FillsNothing (Ios.mapTranscript repository response)) ∧
    (FillsNothing (Android.mapTranscript repository response) ↔ response.segments = [] ∨
      LabelsUnusable Android.mergeRules Android.extractNameFromText repository.definition response) ∧
    (FillsNothing (Ios.mapTranscript repository response) ↔ response.segments = [] ∨
      LabelsUnusable Ios.mergeRules Ios.extractNameFromText repository.definition response) := by
  have android := Android.fillsNothing_iff noEngine keyword silent
  have ios := Ios.fillsNothing_iff noEngine keyword silent
  refine ⟨fun unrelated => android.mpr (unrelated.imp_right (labelsUnusable ?_)),
    fun unrelated => ios.mpr (unrelated.imp_right (labelsUnusable ?_)), android, ios⟩
  · intro field answer name marked
    rw [Android.mergeRules_usable]
    exact marked_unusable name marked
  · intro field answer name marked
    rw [Ios.mergeRules_usable]
    exact marked_unusable name marked

end Mapped

section Sample

omit [Platform]

def silentResponse : TranscriptionResponse where
  segments := [⟨0, txt " ", 0, 1, txt "SPEAKER_00"⟩]

def silentRepository : OnDeviceLlmFormMappingRepository :=
  letI := basicPlatform
  { definition := DefaultFormDefinitionProvider.questions
    json := ⟨fun _ => none, fun _ => none, fun _ => ⟨none⟩⟩
    llmEngine := none
    fallbackRepository := OnDeviceKeyword.mapTranscript DefaultFormDefinitionProvider.questions }

theorem silentResponse_silent : Silent silentResponse := by
  refine ⟨by decide, ?_, ?_⟩
  · intro segment member
    rw [List.mem_singleton.mp member]
    decide
  · intro word member
    cases member

def nameAndLearning : FormDefinition :=
  DefaultFormDefinitionProvider.questions.filter fun question => question.id ≠ txt "problem"

theorem silentResponse_unrelated :
    letI := basicPlatform
    LabelsSayNothing Android.mergeRules Android.extractNameFromText nameAndLearning silentResponse ∧
      LabelsSayNothing Ios.mergeRules Ios.extractNameFromText nameAndLearning silentResponse := by
  unfold LabelsSayNothing
  decide +kernel

theorem silence_fills_nothing_unasked :
    letI := basicPlatform
    let repository := { silentRepository with
      definition := nameAndLearning, fallbackRepository := OnDeviceKeyword.mapTranscript nameAndLearning }
    FillsNothing (Android.mapTranscript repository silentResponse) ∧
      FillsNothing (Ios.mapTranscript repository silentResponse) :=
  letI := basicPlatform
  let repository := { silentRepository with
    definition := nameAndLearning, fallbackRepository := OnDeviceKeyword.mapTranscript nameAndLearning }
  have labels := @silence_fills_nothing _ repository _ rfl rfl silentResponse_silent
  ⟨labels.1 (Or.inr silentResponse_unrelated.1), labels.2.1 (Or.inr silentResponse_unrelated.2)⟩

theorem label_fills_problem :
    letI := basicPlatform
    ¬ FillsNothing (Android.mapTranscript silentRepository silentResponse) ∧
      ¬ FillsNothing (Ios.mapTranscript silentRepository silentResponse) := by
  let characters := basicPlatform
  have filled : ∀ result : AppResult TranscriptMappingResult, (answersOf result).isEmpty = false →
      ¬ FillsNothing result := by
    intro result answered nothing
    cases result with
    | error message cause => cases answered
    | success data =>
      rw [answersOf, nothing data rfl] at answered
      cases answered
  exact ⟨filled _ (by decide +kernel), filled _ (by decide +kernel)⟩

end Sample

end Form
