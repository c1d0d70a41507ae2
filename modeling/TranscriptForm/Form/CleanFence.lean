import TranscriptForm.Form.Truncation

namespace Form

open Kotlin Regex OnDeviceLlm Pattern

namespace Android

variable [Platform] {json : JsonParser} {definition : FormDefinition} {answers : Answers} {s text : KString}
  {valueOf : Regex.Match KChar → KString} {matched : List (Regex.Match KChar)} {found : Regex.Match KChar}

structure KeptValues (answers : Answers) : Prop where
  filled : ∀ value ∈ answers.values, isBlank value = false
  kept : ∀ value ∈ answers.values, trimLlmEdgeArtifacts value = value

def Fills (definition : FormDefinition) (valueOf : Regex.Match KChar → KString) (found : Regex.Match KChar) : Prop :=
  isBlank (valueOf found) = false ∧ (mappedId definition (keyOf found)).isSome = true

/-- A match that starts at a member of the answers and takes its key, with a value that needs no escape. -/
def TakesMember (definition : FormDefinition) (answers : Answers) (found : Regex.Match KChar) : Prop :=
  ∃ key left right whole post, found.value ++ found.after = memberText key left right whole post ∧
    (∀ c ∈ left, isJsonSpace c = true) ∧ (∀ c ∈ right, isJsonSpace c = true) ∧ ch '"' ∉ key ∧ ch '"' ∉ whole ∧
    ch '\\' ∉ whole ∧ groupValue found 1 = key ∧ mappedId definition (keyOf found) = some key ∧
    answers.get? key = some whole

structure TakesMembers (definition : FormDefinition) (answers : Answers) (text : KString) : Prop where
  members : ∀ found ∈ findAll (inlineAnswer definition) text, Fills definition inlineValue found →
    TakesMember definition answers found
  all : ∀ key ∈ answers.keys, ∃ found ∈ findAll (inlineAnswer definition) text,
    Fills definition inlineValue found ∧ mappedId definition (keyOf found) = some key

structure FenceIsClean (definition : FormDefinition) (answers : Answers) (wrapped : KString) : Prop where
  keys : ∀ key ∈ answers.keys, mappedId definition key = some key
  lines : ∀ found ∈ findAll (lineAnswer definition) wrapped, ¬ Counts definition lineValue found
  inline : (∀ found ∈ findAll (lineAnswer definition) wrapped, isBlank (lineValue found) = true) →
    (∀ found ∈ findAll (inlineAnswer definition) wrapped, ¬ Counts definition inlineValue found) ∨
      TakesMembers definition answers wrapped

theorem collected_nothing (nothing : ∀ found ∈ matched, ¬ Counts definition valueOf found) :
    (normalizeAnswers definition (collectAnswers valueOf matched)).isEmpty = true := by
  refine (LinkedMap.isEmpty_iff _).mpr (LinkedMap.eq_empty fun key value stored => ?_)
  obtain ⟨reading, member, cleaned, filled, mapped⟩ := mem_collected stored
  exact nothing reading member ⟨by rw [cleaned]; exact filled, by rw [mapped]; rfl⟩

theorem TakesMember.value (values : KeptValues answers) (takes : TakesMember definition answers found)
    (member : found ∈ findAll (inlineAnswer definition) text) :
    ∃ id whole, mappedId definition (keyOf found) = some id ∧ answers.get? id = some whole ∧
      trimLlmEdgeArtifacts (inlineValue found) = whole ∧ isBlank whole = false := by
  obtain ⟨key, left, right, whole, post, memberAt, leftSpace, rightSpace, keyClean, noQuote, noBackslash, named, id,
    stored⟩ := takes
  have among : whole ∈ answers.values := List.mem_map_of_mem ((LinkedMap.get?_eq_some_iff answers).mp stored)
  have filled := values.filled whole among
  have chosen : inlineValue found = trim whole :=
    inlineValue_member member memberAt named leftSpace rightSpace keyClean noQuote noBackslash filled
  refine ⟨key, whole, id, stored, ?_, filled⟩
  rw [chosen, trimLlmEdgeArtifacts_trim, values.kept whole among]

theorem Counts.fills (counts : Counts definition valueOf found) : Fills definition valueOf found := by
  refine ⟨?_, counts.2⟩
  by_contra blank
  rw [Bool.not_eq_false] at blank
  have cleaned : trimLlmEdgeArtifacts (valueOf found) = trim (valueOf found) := by
    unfold trimLlmEdgeArtifacts
    dsimp only
    rw [isBlank_trim, if_pos blank]
  have remains := counts.1
  rw [cleaned, isBlank_trim, blank] at remains
  cases remains

theorem collected_found (member : found ∈ matched) (fills : Fills definition valueOf found) :
    ∃ reading ∈ matched, Fills definition valueOf reading ∧ keyOf reading = keyOf found ∧
      (collectAnswers valueOf matched).get? (keyOf found) = some (valueOf reading) := by
  have listed : (keyOf found, valueOf found) ∈
      (matched.map fun found => (keyOf found, valueOf found)).filter fun entry => isNotBlank entry.2 :=
    List.mem_filter.mpr ⟨List.mem_map_of_mem member, by simp [isNotBlank, fills.1]⟩
  obtain ⟨value, stored⟩ := Option.ne_none_iff_exists'.mp (LinkedMap.get?_ofPairs_ne_none listed)
  obtain ⟨taken, notBlank⟩ := List.mem_filter.mp (LinkedMap.mem_of_get?_ofPairs stored)
  obtain ⟨reading, readingMember, pair⟩ := List.mem_map.mp taken
  obtain ⟨sameKey, rfl⟩ := Prod.mk.inj pair
  exact ⟨reading, readingMember, ⟨by simpa [isNotBlank] using notBlank, by rw [sameKey]; exact fills.2⟩, sameKey, stored⟩

theorem normalized_found {rawAnswers : Answers} {rawKey value id : KString}
    (stored : rawAnswers.get? rawKey = some value) (remains : isBlank (trimLlmEdgeArtifacts value) = false)
    (mapped : mappedId definition rawKey = some id) : (normalizeAnswers definition rawAnswers).get? id ≠ none := by
  have listed : (rawKey, value) ∈ rawAnswers.entries := (LinkedMap.get?_eq_some_iff _).mp stored
  have nonempty : rawAnswers.isEmpty = false := by
    rw [LinkedMap.isEmpty, List.isEmpty_eq_false_iff]
    exact List.ne_nil_of_mem listed
  unfold normalizeAnswers normalizeAnswersWith
  rw [nonempty, if_neg (by simp)]
  refine @LinkedMap.get?_ofPairs_ne_none _ _ _ _ _ (trimLlmEdgeArtifacts value)
    (List.mem_filterMap.mpr ⟨_, listed, ?_⟩)
  simp only [remains, Bool.false_eq_true, if_false, mapped, Option.map_some]

theorem collected_members (values : KeptValues answers) (takes : TakesMembers definition answers text) :
    SameAnswers (normalizeAnswers definition (collectAnswers inlineValue (findAll (inlineAnswer definition) text)))
      answers := by
  let search := findAll (inlineAnswer definition) text
  have agree : ∀ key value, (normalizeAnswers definition (collectAnswers inlineValue search)).get? key = some value →
      answers.get? key = some value := by
    intro key value stored
    obtain ⟨reading, member, cleaned, filled, mapped⟩ := mem_collected stored
    have counts : Counts definition inlineValue reading := ⟨by rw [cleaned]; exact filled, by rw [mapped]; rfl⟩
    obtain ⟨id, whole, same, kept, uncut, _⟩ := (takes.members reading member counts.fills).value values member
    rw [mapped] at same
    rw [Option.some.inj same, kept, ← uncut, cleaned]
  have complete : ∀ key ∈ answers.keys, (normalizeAnswers definition (collectAnswers inlineValue search)).get? key ≠ none := by
    intro key listed
    obtain ⟨found, member, fills, mapped⟩ := takes.all key listed
    obtain ⟨reading, readingMember, readingFills, sameKey, stored⟩ := collected_found member fills
    obtain ⟨_, _, _, _, uncut, filled⟩ := (takes.members reading readingMember readingFills).value values readingMember
    exact normalized_found stored (by rw [uncut]; exact filled) mapped
  intro key
  cases result : (normalizeAnswers definition (collectAnswers inlineValue search)).get? key with
  | some value => exact (agree key value result).symm
  | none =>
    cases stored : answers.get? key with
    | none => rfl
    | some value => exact absurd result (complete key (LinkedMap.mem_keys_of_get? stored))

/-- A fence changes nothing where the key-value search of the wrapped text finds nothing that counts in its
    lines, and between them nothing that counts or the members of the object. -/
theorem fence_harmless (reads : ReadsObjects json) (values : KeptValues answers) (encodes : Encodes json answers s)
    (clean : ch '`' ∉ s) (tagged : Bool) (fenceClean : FenceIsClean definition answers (fence tagged s)) :
    FenceChangesNothing json definition answers s (fence tagged s) := by
  have kept : normalizeAnswers definition answers = answers :=
    normalizeAnswers_kept fenceClean.keys values.filled values.kept
  refine (fence_iff reads encodes clean tagged).mpr ⟨by rw [kept]; exact fun _ => rfl, ?_⟩
  unfold parseKeyValueFallback
  split
  · exact .inl rfl
  · dsimp only
    split
    · exact .inl (collected_nothing fenceClean.lines)
    · rename_i noLines
      rcases fenceClean.inline (collectAnswers_isEmpty (by simpa using noLines)) with nothing | takes
      · exact .inl (collected_nothing nothing)
      · exact .inr (collected_members values takes)

section TwoMembers

omit [Platform]

def compactPair : KString := txt "\x7b\"answers\":\x7b\"name\":\"Anna\",\"problem\": \"Der Akku war leer.\"\x7d\x7d"

def annaAkku : Answers := .ofPairs [(txt "name", txt "Anna"), (txt "problem", txt "Der Akku war leer.")]

theorem compactPair_object : IsObjectText compactPair where
  braces := ⟨(compactPair.drop 1).dropLast, by decide +kernel⟩
  balanced := by decide +kernel

theorem annaAkku_keptValues :
    letI := basicPlatform
    KeptValues annaAkku := by
  let characters := basicPlatform
  constructor
  · exact of_decide_eq_true (by decide +kernel)
  · exact of_decide_eq_true (by decide +kernel)

theorem compactPair_takesMembers :
    letI := basicPlatform
    TakesMembers DefaultFormDefinitionProvider.questions annaAkku (fence true compactPair) := by
  let characters := basicPlatform
  let pairs := [(txt "name", [], txt "Anna"), (txt "problem", txt " ", txt "Der Akku war leer.")]
  have members : (findAll (inlineAnswer DefaultFormDefinitionProvider.questions) (fence true compactPair)).all (fun found =>
      pairs.any fun pair =>
        let rest := found.value ++ found.after
        decide (rest = memberText pair.1 [] pair.2.1 pair.2.2 (rest.drop (memberText pair.1 [] pair.2.1 pair.2.2 []).length) ∧
          groupValue found 1 = pair.1 ∧ mappedId DefaultFormDefinitionProvider.questions (keyOf found) = some pair.1)) =
      true := by
    decide +kernel
  have spaced : pairs.all (fun pair => pair.2.1.all isJsonSpace) = true := by decide +kernel
  have plain : ∀ pair ∈ pairs, ch '"' ∉ pair.1 ∧ ch '"' ∉ pair.2.2 ∧ ch '\\' ∉ pair.2.2 ∧
      annaAkku.get? pair.1 = some pair.2.2 := by
    simp only [pairs, List.forall_mem_cons, List.not_mem_nil, false_implies, implies_true, and_true]
    decide +kernel
  have taken : annaAkku.keys.all (fun key =>
      (findAll (inlineAnswer DefaultFormDefinitionProvider.questions) (fence true compactPair)).any fun found =>
        decide (isBlank (inlineValue found) = false ∧
          mappedId DefaultFormDefinitionProvider.questions (keyOf found) = some key)) = true := by
    decide +kernel
  constructor
  · intro found among _
    obtain ⟨pair, listed, holds⟩ := List.any_eq_true.mp (List.all_eq_true.mp members found among)
    obtain ⟨start, key, mapped⟩ := of_decide_eq_true holds
    obtain ⟨keyClean, noQuote, noBackslash, stored⟩ := plain pair listed
    have rightSpace := List.all_eq_true.mp (List.all_eq_true.mp spaced pair listed)
    exact ⟨_, [], _, _, _, start, by simp, rightSpace, keyClean, noQuote, noBackslash, key, mapped, stored⟩
  · intro key listed
    obtain ⟨found, among, holds⟩ := List.any_eq_true.mp (List.all_eq_true.mp taken key listed)
    obtain ⟨filled, mapped⟩ := of_decide_eq_true holds
    exact ⟨found, among, ⟨filled, by rw [mapped]; rfl⟩, mapped⟩

theorem fence_harmless_pair :
    letI := basicPlatform
    FenceChangesNothing (oneTextJson compactPair annaAkku) DefaultFormDefinitionProvider.questions annaAkku compactPair
        (fence true compactPair) ∧
      annaAkku.get? (txt "problem") = some (txt "Der Akku war leer.") := by
  let characters := basicPlatform
  have noLines : findAll (lineAnswer DefaultFormDefinitionProvider.questions) (fence true compactPair) = [] :=
    List.isEmpty_iff.mp (by decide +kernel)
  have clean : FenceIsClean DefaultFormDefinitionProvider.questions annaAkku (fence true compactPair) :=
    ⟨of_decide_eq_true (by decide +kernel), by simp [noLines], fun _ => .inr compactPair_takesMembers⟩
  exact ⟨fence_harmless (oneTextJson_readsObjects compactPair_object) annaAkku_keptValues
    (oneTextJson_encodes compactPair_object) (by decide +kernel) true clean, by decide +kernel⟩

end TwoMembers

end Android

end Form
