import TranscriptForm.Form.Excerpt
import TranscriptForm.Form.FieldChoice
import TranscriptForm.Form.Mapping
import TranscriptForm.Form.SpeakerBlocks

namespace Form

open Kotlin OnDeviceLlm

structure BasicResponse (response : TranscriptionResponse) : Prop where
  text : IsBasicText response.text
  segments : ∀ segment ∈ response.segments, IsBasicText segment.text ∧ IsBasicText segment.speaker
  words : ∀ word ∈ response.words, IsBasicText word.word

section Texts

variable {response : TranscriptionResponse} (basic : BasicResponse response)
include basic

theorem speakerBlocks_basic : ∀ block ∈ TranscriptToFormMapper.buildSpeakerBlocks response,
    IsBasicText block.text ∧ IsBasicText block.speaker := by
  have trims : ∀ text, IsBasicText text → IsBasicText (trim text) := fun text own => basic_part own (trim_part text)
  have joins : ∀ texts : List KString, (∀ text ∈ texts, IsBasicText text) →
      IsBasicText (joinToString (txt " ") texts) := fun _ => basic_join (by decide)
  intro block member
  obtain ⟨text, segment, listed, same⟩ :=
    speakerBlocks_members trims joins (fun segment listed => (basic.segments segment listed).1) block member
  rw [same]
  exact ⟨text, (basic.segments segment listed).2⟩

theorem labelled_basic :
    IsBasicText (transcriptTextWithSpeakers (TranscriptToFormMapper.buildSpeakerBlocks response)) := by
  apply basic_join
  · decide
  · intro part member
    obtain ⟨block, listed, rfl⟩ := List.mem_map.mp member
    have own := speakerBlocks_basic basic block listed
    have speaker : IsBasicText (ifBlank block.speaker (txt "Sprecher")) := by
      unfold ifBlank
      split
      · decide
      · exact own.2
    unfold labelledBlock
    refine basic_append (basic_append (basic_append ?_ speaker) ?_) own.1 <;> decide

theorem keywordTranscript_basic : IsBasicText (OnDeviceKeyword.keywordTranscript response) := by
  have labelled := labelled_basic basic
  unfold OnDeviceKeyword.keywordTranscript
  dsimp only
  split
  · exact labelled
  · split
    · exact basic.text
    · refine basic_append (basic_append labelled ?_) basic.text
      decide

theorem transcriptTextPlain_basic :
    IsBasicText (transcriptTextPlain response (TranscriptToFormMapper.buildSpeakerBlocks response)) := by
  have space : IsBasicText (txt " ") := by decide
  have joined : ∀ texts : List KString, (∀ text ∈ texts, IsBasicText text) →
      IsBasicText (trim (joinToString (txt " ") (texts.map trim))) := by
    intro texts all
    refine basic_part (basic_join space ?_) (trim_part _)
    intro part member
    obtain ⟨text, listed, rfl⟩ := List.mem_map.mp member
    exact basic_part (all text listed) (trim_part text)
  have segments := joined (response.segments.map TranscriptSegment.text) (by
    simpa using fun segment member => (basic.segments segment member).1)
  have blocks := joined ((TranscriptToFormMapper.buildSpeakerBlocks response).map SpeakerBlock.text) (by
    simpa using fun block member => (speakerBlocks_basic basic block member).1)
  have words := joined (response.words.map TranscriptWord.word) (by simpa using basic.words)
  rw [List.map_map] at segments blocks words
  unfold transcriptTextPlain ifBlank
  dsimp only
  split
  · split
    · exact segments
    · split
      · exact blocks
      · exact words
  · exact basic.text

end Texts

theorem transcriptForHeuristics_cases (response : TranscriptionResponse) :
    transcriptForHeuristics response =
        transcriptTextPlain response (TranscriptToFormMapper.buildSpeakerBlocks response) ∨
      transcriptForHeuristics response = OnDeviceKeyword.keywordTranscript response := by
  by_cases spoken : isBlank response.text = true
  · unfold transcriptForHeuristics
    dsimp only
    split
    · exact Or.inl rfl
    · right
      rw [OnDeviceKeyword.keywordTranscript]
      simp only [spoken, if_true]
  · left
    have plain : transcriptTextPlain response (TranscriptToFormMapper.buildSpeakerBlocks response) = response.text := by
      simp only [transcriptTextPlain, ifBlank, if_neg spoken]
    have said : isNotBlank response.text = true := by simpa [isNotBlank] using spoken
    simp only [transcriptForHeuristics, plain, said, if_true]

variable [Platform]

namespace Android

open Pattern

section Cleaning

variable {source value : KString}

theorem edgeArtifacts_keyless :
    ∀ artifact ∈ edgeArtifacts, Regex.Within utf16 (fun c => keyPart c = []) artifact := by
  have marks : ∀ chars : String, (txt chars).flatMap keyPart = [] →
      Regex.Within utf16 (fun c => keyPart c = []) (oneOf chars) :=
    fun chars keyless => within_oneOf chars (List.flatMap_eq_nil_iff.mp keyless)
  have spaces : Regex.Within utf16 (fun c => keyPart c = []) (star space) := within_space fun _ => keyPart_space
  have quotes := marks "\"'" (by decide)
  have ends := marks ",;" (by decide)
  intro artifact member
  simp only [edgeArtifacts, List.mem_cons, List.not_mem_nil, or_false] at member
  rcases member with rfl | rfl | rfl | rfl
  · exact ⟨True.intro, marks "[\x7b(" (by decide), spaces, quotes, spaces, True.intro⟩
  · exact ⟨quotes, spaces, ends, spaces, True.intro, True.intro⟩
  · exact ⟨ends, spaces, quotes, spaces, True.intro, True.intro⟩
  · exact ⟨spaces, marks "\"']\x7d)" (by decide), spaces, True.intro, True.intro⟩

theorem trimLlmEdgeArtifacts_excerpt (basic : IsBasicText source) : Excerpt source (trimLlmEdgeArtifacts source) := by
  have trimmed : Excerpt source (trim source) := .of_part basic (trim_part source)
  unfold trimLlmEdgeArtifacts
  dsimp only
  split
  · exact trimmed
  · have folded : ∀ (artifacts : List Pattern) (text : KString),
        (∀ artifact ∈ artifacts, Regex.Within utf16 (fun c => keyPart c = []) artifact) → IsBasicText text →
        Excerpt text (artifacts.foldl (fun cleaned artifact => replace artifact [] cleaned) text) := by
      intro artifacts
      induction artifacts with
      | nil => exact fun text _ basic => .of_part basic List.infix_rfl
      | cons artifact artifacts ih =>
        intro text keyless basic
        have first : Excerpt text (replace artifact [] text) :=
          replace_excerpt (keyless artifact List.mem_cons_self) (by decide) rfl basic
        exact first.trans (ih _ (fun other member => keyless other (List.mem_cons_of_mem _ member)) first.1)
    exact (trimmed.trans (folded edgeArtifacts _ edgeArtifacts_keyless trimmed.1)).part (trim_part _)

theorem clause_part {candidate clause : KString} (member : clause ∈ clausesOf candidate) : clause <:+: candidate := by
  obtain ⟨piece, split, rfl⟩ := List.mem_map.mp (List.mem_filter.mp member).1
  exact ((trimBy_part _).trans (trim_part piece)).trans (Regex.split_piece_part split)

theorem trimIrrelevantTailForField_part (field : FieldSpec) (candidate : KString) :
    trimIrrelevantTailForField field candidate <:+: candidate := by
  unfold trimIrrelevantTailForField
  split
  · exact List.infix_rfl
  · split
    · exact List.infix_rfl
    · dsimp only
      split
      · exact List.infix_rfl
      · split
        · exact List.infix_rfl
        · rename_i best found
          obtain ⟨clause, member, rfl⟩ := List.mem_map.mp (mem_of_maxByOrNull found)
          split
          · exact clause_part member
          · exact List.infix_rfl

theorem normalizeCandidateForField_excerpt (basic : IsBasicText source) (field : FieldSpec) :
    Excerpt source (normalizeCandidateForField field source) := by
  have cleaned := trimLlmEdgeArtifacts_excerpt basic
  unfold normalizeCandidateForField
  dsimp only
  split
  · exact cleaned.part (trimIrrelevantTailForField_part field _)
  · cases extracted : extractNameFromText (trimLlmEdgeArtifacts source) with
    | none => exact cleaned
    | some name =>
      change extractNameWith (cleanupNameUnless isSpeakerPlaceholderLike) _ = some name at extracted
      exact cleaned.trans (extractName_excerpt cleaned.1 extracted)

end Cleaning

def NoLlmAnswer (repository : OnDeviceLlmFormMappingRepository) (response : TranscriptionResponse) : Prop :=
  ∀ llm, llmOutcome repository response = .ok llm → sanitizeLlmAnswers llm.llmAnswers = .empty

/-- The key of the value is a part of the key of the plain text, of what one speaker
    says, or of the text the keyword search reads. -/
def Transcribed (response : TranscriptionResponse) (value : KString) : Prop :=
  let speakerBlocks := TranscriptToFormMapper.buildSpeakerBlocks response
  normalizeKey value <:+: normalizeKey (transcriptTextPlain response speakerBlocks) ∨
    (∃ block ∈ speakerBlocks, normalizeKey value <:+: normalizeKey block.text) ∨
    normalizeKey value <:+: normalizeKey (OnDeviceKeyword.keywordTranscript response)

section Transcribed

variable {repository : OnDeviceLlmFormMappingRepository} {response : TranscriptionResponse} {value : KString}

theorem transcribed_of_spoken
    (spoken : Spoken (transcriptForHeuristics response) (TranscriptToFormMapper.buildSpeakerBlocks response) value) :
    Transcribed response value := by
  rcases spoken with text | ⟨block, member, text⟩
  · rcases transcriptForHeuristics_cases response with plain | keyword
    · rw [plain] at text
      exact Or.inl text.2
    · rw [keyword] at text
      exact Or.inr (Or.inr text.2)
  · exact Or.inr (Or.inl ⟨block, member, text.2⟩)

variable (basic : BasicResponse response)
include basic

omit [Platform] in
theorem transcriptForHeuristics_basic : IsBasicText (transcriptForHeuristics response) := by
  rcases transcriptForHeuristics_cases response with plain | keyword
  · rw [plain]
    exact transcriptTextPlain_basic basic
  · rw [keyword]
    exact keywordTranscript_basic basic

theorem searched_transcribed {definition : FormDefinition} {id : KString}
    (found : (answersOf (OnDeviceKeyword.mapTranscript definition response)).get? id = some value) :
    Excerpt (OnDeviceKeyword.keywordTranscript response) value :=
  keywordAnswers_excerpt (keywordTranscript_basic basic) definition found

theorem merged_transcribed {rules : MergeRules}
    (cuts : ∀ field source, IsBasicText source → Excerpt source (rules.normalizeCandidateForField field source))
    (isPlaceholder : KString → Bool) {definition : FormDefinition} {id : KString}
    (found : (OnDeviceLlm.mergeAnswersPerField rules (fieldSpecs definition)
      ⟨.empty, extractHeuristicAnswers (extractNameWith (cleanupNameUnless isPlaceholder)) (fieldSpecs definition)
          (transcriptForHeuristics response) (TranscriptToFormMapper.buildSpeakerBlocks response),
        answersOf (OnDeviceKeyword.mapTranscript definition response)⟩).answers.get? id = some value) :
    Transcribed response value := by
  have spoken := @heuristicAnswers_spoken _ _ _ (transcriptForHeuristics_basic basic)
    (fun block member => (speakerBlocks_basic basic block member).1) isPlaceholder (fieldSpecs definition)
  obtain ⟨field, _, _, candidate, member, rfl, _⟩ := merged_candidate found
  obtain ⟨answer, same, origin⟩ := candidate_origin member
  rw [same]
  rcases origin with ⟨_, llm⟩ | ⟨_, heuristic⟩ | ⟨_, fallback⟩
  · cases llm
  · have cut := (spoken field.id answer heuristic).part (trim_part answer)
    exact transcribed_of_spoken (cut.trans (cuts field _ cut.basic))
  · have cut := (searched_transcribed basic fallback).part (trim_part answer)
    exact Or.inr (Or.inr (cut.trans (cuts field _ cut.1)).2)

theorem answer_transcribed
    (keyword : repository.fallbackRepository = OnDeviceKeyword.mapTranscript repository.definition)
    (noLlm : NoLlmAnswer repository response) {data : TranscriptMappingResult}
    (success : mapTranscript repository response = .success data) {id : KString}
    (found : data.fieldAnswers.get? id = some value) : Transcribed response value := by
  rcases mapTranscript_answers success with searched | ⟨llm, called, merged⟩
  · rw [searched, keyword] at found
    exact .inr (.inr (searched_transcribed basic found).2)
  · have cuts : ∀ field source, IsBasicText source →
        Excerpt source (mergeRules.normalizeCandidateForField field source) := by
      intro field source own
      rw [mergeRules_normalize]
      exact normalizeCandidateForField_excerpt own field
    rw [merged, noLlm llm called, keyword] at found
    exact merged_transcribed basic cuts isSpeakerPlaceholderLike found

/-- Without an answer of the language model every answer is cut out of the transcript,
    and the fixed sentence of the keyword search is never given. -/
theorem mapTranscript_transcribed
    (keyword : repository.fallbackRepository = OnDeviceKeyword.mapTranscript repository.definition)
    (noLlm : NoLlmAnswer repository response) :
    (∀ data, mapTranscript repository response = .success data →
      ∀ id value, data.fieldAnswers.get? id = some value → Transcribed response value) ∧
    (OnDeviceKeyword.extractForQuestion (txt "learning") (OnDeviceKeyword.keywordTranscript response) = [] ∨
      ∃ sentence ∈ sentencesOf (OnDeviceKeyword.keywordTranscript response),
        OnDeviceKeyword.extractForQuestion (txt "learning") (OnDeviceKeyword.keywordTranscript response) =
          sentence.take 220) := by
  refine ⟨?_, learning_cut (keywordTranscript_basic basic)⟩
  intro data success id value found
  exact answer_transcribed basic keyword noLlm success found

end Transcribed

section Sample

omit [Platform]

def spokenResponse : TranscriptionResponse where
  text := txt "Ich heiße Jürgen. Der Akku war leer. Ich habe viel gelernt."
  segments := [⟨0, txt "Ich heiße Jürgen.", 0, 2, txt "SPEAKER_00"⟩]

def engineless : OnDeviceLlmFormMappingRepository :=
  letI := basicPlatform
  { definition := DefaultFormDefinitionProvider.questions
    json := ⟨fun _ => none, fun _ => none, fun _ => ⟨none⟩⟩
    llmEngine := none
    fallbackRepository := OnDeviceKeyword.mapTranscript DefaultFormDefinitionProvider.questions }

theorem spokenResponse_basic : BasicResponse spokenResponse := by
  refine ⟨by decide +kernel, ?_, ?_⟩
  · intro segment member
    rw [List.mem_singleton.mp member]
    exact ⟨by decide +kernel, by decide +kernel⟩
  · intro word member
    cases member

theorem mapTranscript_transcribed_spoken :
    letI := basicPlatform
    Transcribed spokenResponse (txt "Ich habe viel gelernt.") := by
  let characters := basicPlatform
  have noLlm : NoLlmAnswer engineless spokenResponse := by
    intro llm outcome
    cases outcome
    rfl
  have learned : (answersOf (mapTranscript engineless spokenResponse)).get? (txt "learning") =
      some (txt "Ich habe viel gelernt.") := by decide +kernel
  have cut := (mapTranscript_transcribed spokenResponse_basic rfl noLlm).1
  cases result : mapTranscript engineless spokenResponse with
  | error message cause =>
    rw [result] at learned
    cases learned
  | success data =>
    rw [result] at learned
    exact cut data result _ _ learned

end Sample

end Android

end Form
