import TranscriptForm.Form.LlmAnswers
import TranscriptForm.Kotlin.Recasing

namespace Form

open Kotlin OnDeviceLlm

variable [Platform]

def normalizedNames (question : FormQuestion) : List KString :=
  [normalizeKey question.id, normalizeKey question.label]

/-- A key spells the id or the label of a question, whatever its letter case, punctuation and umlauts. -/
def Names (question : FormQuestion) (key : KString) : Prop := normalizeKey key ∈ normalizedNames question

theorem names_id (question : FormQuestion) : Names question question.id := by
  simp [Names, normalizedNames]

def Unshared (definition : FormDefinition) : Prop :=
  ∀ question ∈ definition, ∀ other ∈ definition, ∀ image ∈ normalizedNames question, image ∈ normalizedNames other →
    question = other

theorem normalizedKeyToFieldId_pairs (definition : FormDefinition) (key id : KString) :
    ((key, id) ∈ definition.flatMap fun question =>
        [(normalizeKey question.id, question.id), (normalizeKey question.label, question.id)]) ↔
      ∃ question ∈ definition, question.id = id ∧ key ∈ normalizedNames question := by
  rw [List.mem_flatMap]
  constructor
  · rintro ⟨question, member, listed⟩
    simp only [List.mem_cons, Prod.mk.injEq, List.not_mem_nil, or_false] at listed
    refine ⟨question, member, ?_⟩
    rcases listed with ⟨spelled, rfl⟩ | ⟨spelled, rfl⟩
    · exact ⟨rfl, by simp [normalizedNames, spelled]⟩
    · exact ⟨rfl, by simp [normalizedNames, spelled]⟩
  · rintro ⟨question, member, rfl, spelled⟩
    refine ⟨question, member, ?_⟩
    simpa [normalizedNames] using spelled

section Resolution

variable {definition : FormDefinition} (lowercased : ∀ text, lowercase (lowercase text) = lowercase text)

include lowercased

theorem normalizeKey_lowercase (text : KString) : normalizeKey (lowercase text) = normalizeKey text := by
  rw [normalizeKey_eq, normalizeKey_eq, lowercased]

theorem mappedId_names {key id : KString} (mapped : mappedId definition key = some id) :
    ∃ question ∈ definition, question.id = id ∧ Names question key := by
  unfold mappedId at mapped
  dsimp only at mapped
  split at mapped
  · rename_i known
    obtain ⟨question, member, same⟩ := List.mem_map.mp (List.contains_iff_mem.mp known)
    refine ⟨question, member, same.trans (Option.some.inj mapped), ?_⟩
    have spelled := names_id question
    rwa [same, Names, normalizeKey_trim] at spelled
  · split at mapped
    · rename_i known
      obtain ⟨question, member, same⟩ := List.mem_map.mp (List.contains_iff_mem.mp known)
      refine ⟨question, member, same.trans (Option.some.inj mapped), ?_⟩
      have spelled := names_id question
      rwa [same, Names, normalizeKey_lowercase lowercased, normalizeKey_trim] at spelled
    · obtain ⟨question, member, same, spelled⟩ :=
        (normalizedKeyToFieldId_pairs definition _ id).mp (LinkedMap.mem_of_get?_ofPairs mapped)
      rw [normalizeKey_trim] at spelled
      exact ⟨question, member, same, spelled⟩

theorem mappedId_of_names (unshared : Unshared definition) {question : FormQuestion} {key : KString}
    (member : question ∈ definition) (named : Names question key) : mappedId definition key = some question.id := by
  have found : ∃ id, mappedId definition key = some id := by
    unfold mappedId
    dsimp only
    split
    · exact ⟨_, rfl⟩
    · split
      · exact ⟨_, rfl⟩
      · refine ⟨question.id, LinkedMap.get?_ofPairs_single ?_ ?_⟩
        · rw [normalizedKeyToFieldId_pairs, normalizeKey_trim]
          exact ⟨question, member, rfl, named⟩
        · intro id listed
          rw [normalizedKeyToFieldId_pairs, normalizeKey_trim] at listed
          obtain ⟨other, among, same, spelled⟩ := listed
          rw [← same, unshared question member other among _ named spelled]
  obtain ⟨id, mapped⟩ := found
  obtain ⟨other, among, same, spelled⟩ := mappedId_names lowercased mapped
  rw [mapped, ← same, unshared question member other among _ named spelled]

end Resolution

theorem normalizeAnswersWith_pairs (clean : KString → KString) (definition : FormDefinition) (rawAnswers : Answers)
    (id value : KString) :
    ((id, value) ∈ rawAnswers.entries.filterMap fun entry =>
        let value := clean entry.2
        if isBlank value then none else (mappedId definition entry.1).map fun id => (id, value)) ↔
      ∃ key raw, rawAnswers.get? key = some raw ∧ mappedId definition key = some id ∧ clean raw = value ∧
        isBlank value = false := by
  rw [List.mem_filterMap]
  constructor
  · rintro ⟨⟨key, raw⟩, member, kept⟩
    dsimp only at kept
    split at kept
    · cases kept
    · rename_i filled
      obtain ⟨found, mapped, same⟩ := Option.map_eq_some_iff.mp kept
      cases same
      exact ⟨key, raw, (LinkedMap.get?_eq_some_iff _).mpr member, mapped, rfl, by simpa using filled⟩
  · rintro ⟨key, raw, found, mapped, rfl, filled⟩
    refine ⟨(key, raw), (LinkedMap.get?_eq_some_iff _).mp found, ?_⟩
    simp [filled, mapped]

theorem normalizeAnswersWith_get? (clean : KString → KString) (definition : FormDefinition) (rawAnswers : Answers) :
    normalizeAnswersWith clean definition rawAnswers =
      .ofPairs (rawAnswers.entries.filterMap fun entry =>
        let value := clean entry.2
        if isBlank value then none else (mappedId definition entry.1).map fun id => (id, value)) := by
  unfold normalizeAnswersWith
  split
  · rename_i none
    rw [(LinkedMap.isEmpty_iff rawAnswers).mp none]
    rfl
  · rfl

def OneKeyEach (definition : FormDefinition) (rawAnswers : Answers) : Prop :=
  ∀ question ∈ definition, ∀ key ∈ rawAnswers.keys, ∀ other ∈ rawAnswers.keys,
    mappedId definition key = some question.id → mappedId definition other = some question.id → key = other

theorem normalizeAnswers_resolves {definition : FormDefinition} {rawAnswers : Answers}
    (lowercased : ∀ text, lowercase (lowercase text) = lowercase text) (unshared : Unshared definition)
    (oneKeyEach : OneKeyEach definition rawAnswers) :
    (∀ question ∈ definition, ∀ key raw, rawAnswers.get? key = some raw → Names question key →
      isBlank (Android.trimLlmEdgeArtifacts raw) = false →
        (Android.normalizeAnswers definition rawAnswers).get? question.id = some (Android.trimLlmEdgeArtifacts raw)) ∧
    ∀ id value, (Android.normalizeAnswers definition rawAnswers).get? id = some value →
      isBlank value = false ∧ ∃ question ∈ definition, question.id = id ∧
        ∃ key raw, rawAnswers.get? key = some raw ∧ Names question key ∧
          value = Android.trimLlmEdgeArtifacts raw := by
  unfold Android.normalizeAnswers
  rw [normalizeAnswersWith_get?]
  constructor
  · intro question member key raw found named filled
    have mapped := mappedId_of_names lowercased unshared member named
    apply LinkedMap.get?_ofPairs_single
    · rw [normalizeAnswersWith_pairs]
      exact ⟨key, raw, found, mapped, rfl, filled⟩
    · intro other listed
      rw [normalizeAnswersWith_pairs] at listed
      obtain ⟨otherKey, otherRaw, otherFound, otherMapped, rfl, _⟩ := listed
      have same : otherKey = key :=
        oneKeyEach question member otherKey (LinkedMap.mem_keys_of_get? otherFound) key (LinkedMap.mem_keys_of_get? found)
          otherMapped mapped
      rw [same, found] at otherFound
      rw [Option.some.inj otherFound]
  · intro id value found
    have listed := LinkedMap.mem_of_get?_ofPairs found
    rw [normalizeAnswersWith_pairs] at listed
    obtain ⟨key, raw, rawFound, mapped, cleaned, filled⟩ := listed
    obtain ⟨question, member, same, named⟩ := mappedId_names lowercased mapped
    exact ⟨filled, question, member, same, key, raw, rawFound, named, cleaned.symm⟩

section Default

omit [Platform]

def spokenAnswers : Answers :=
  .ofPairs [(txt " NAME:", txt "Anna"), (txt "was hast du GELERNT", txt "[\"Git\","), (txt "alter", txt "30")]

theorem normalizeAnswers_resolves_default :
    letI := basicPlatform
    (Android.normalizeAnswers DefaultFormDefinitionProvider.questions spokenAnswers).get? (txt "learning") =
      some (Android.trimLlmEdgeArtifacts (txt "[\"Git\",")) := by
  let characters := basicPlatform
  have unshared : Unshared DefaultFormDefinitionProvider.questions := by
    unfold Unshared
    decide +kernel
  have oneKeyEach : OneKeyEach DefaultFormDefinitionProvider.questions spokenAnswers := by
    unfold OneKeyEach
    decide +kernel
  have learning : ⟨txt "learning", txt "Was hast du gelernt?", false⟩ ∈ DefaultFormDefinitionProvider.questions := by
    decide +kernel
  have named : Names ⟨txt "learning", txt "Was hast du gelernt?", false⟩ (txt "was hast du GELERNT") := by
    unfold Names
    decide +kernel
  exact (normalizeAnswers_resolves lowercase_lowercase_basicPlatform unshared oneKeyEach).1 _ learning _ _
    (by decide +kernel) named (by decide +kernel)

end Default

end Form
