import TranscriptForm.Form.Merge

namespace Form

open Kotlin OnDeviceLlm Selection

variable [Platform]

/-- What the merge knows of the fields before: their normalised answers. -/
def acceptedBefore (answers : Answers) (before : List FieldSpec) : List KString :=
  before.filterMap fun field => (answers.get? field.id).map normalizeAnswerValue

def markOf (pick : CandidateSource × KString) : KString := normalizeAnswerValue pick.2

section Usable

variable {isPlaceholder : KString → Bool} {field : FieldSpec} {answer : KString} {used : List KString}

theorem usable_notBlank (usable : isUsableFieldAnswerUnless isPlaceholder field answer used = true) :
    isNotBlank answer = true := by
  by_contra blank
  have isBlankAnswer : isBlank (trim answer) = true := by
    rw [isBlank_trim]
    simpa [isNotBlank] using blank
  simp [isUsableFieldAnswerUnless, isBlankAnswer] at usable

/-- Trimming leaves the normalised answer as it is, so an accepted answer is new
    in the very form in which it is remembered. -/
theorem usable_fresh (usable : isUsableFieldAnswerUnless isPlaceholder field answer used = true)
    (notName : isNameField field = false) : normalizeAnswerValue answer ∉ used := by
  have same : normalizeAnswerValue (trim answer) = normalizeAnswerValue answer := by
    rw [normalizeAnswerValue_eq, normalizeAnswerValue_eq, normalizeKey_trim]
  intro member
  rw [← same] at member
  simp only [isUsableFieldAnswerUnless, notName, member, Bool.false_eq_true, if_false, if_true] at usable
  split at usable
  · cases usable
  · split at usable
    · cases usable
    · split at usable
      · cases usable
      · split at usable
        · cases usable
        · split at usable <;> cases usable

end Usable

theorem usable_name {isPlaceholder : KString → Bool} {field : FieldSpec} (name : isNameField field = true)
    (answer : KString) (used : List KString) :
    isUsableFieldAnswerUnless isPlaceholder field answer used = isUsableFieldAnswerUnless isPlaceholder field answer [] := by
  simp only [isUsableFieldAnswerUnless, name, if_true]

section Rules

variable {rules : MergeRules} {sources : AnswerSources}

omit [Platform] in
/-- The candidates of a field: the answer of the language model first, then the heuristic one, then that of the keyword
    search, each trimmed and then normalised for the field. -/
theorem candidatesFor_eq (field : FieldSpec) : candidatesFor rules sources field =
    ((sources.llmAnswers.get? field.id).toList.map fun answer =>
      (CandidateSource.llm, rules.normalizeCandidateForField field (trim answer))) ++
    (((sources.heuristicAnswers.get? field.id).toList.map fun answer =>
      (CandidateSource.heuristic, rules.normalizeCandidateForField field (trim answer))) ++
    (sources.fallbackAnswers.get? field.id).toList.map fun answer =>
      (CandidateSource.fallback, rules.normalizeCandidateForField field (trim answer))) := by
  unfold candidatesFor
  cases sources.llmAnswers.get? field.id <;> cases sources.heuristicAnswers.get? field.id <;>
    cases sources.fallbackAnswers.get? field.id <;> rfl

omit [Platform] in
theorem candidate_origin {field : FieldSpec} {candidate : CandidateSource × KString}
    (member : candidate ∈ candidatesFor rules sources field) :
    ∃ answer, candidate.2 = rules.normalizeCandidateForField field (trim answer) ∧
      ((candidate.1 = .llm ∧ sources.llmAnswers.get? field.id = some answer) ∨
        (candidate.1 = .heuristic ∧ sources.heuristicAnswers.get? field.id = some answer) ∨
        (candidate.1 = .fallback ∧ sources.fallbackAnswers.get? field.id = some answer)) := by
  rw [candidatesFor_eq] at member
  simp only [List.mem_append, List.mem_map, Option.mem_toList] at member
  rcases member with ⟨answer, stored, rfl⟩ | ⟨answer, stored, rfl⟩ | ⟨answer, stored, rfl⟩
  · exact ⟨answer, rfl, Or.inl ⟨rfl, stored⟩⟩
  · exact ⟨answer, rfl, Or.inr (Or.inl ⟨rfl, stored⟩)⟩
  · exact ⟨answer, rfl, Or.inr (Or.inr ⟨rfl, stored⟩)⟩

omit [Platform] in
theorem picked_llm {field : FieldSpec} {answer : KString} {used : List KString}
    (stored : sources.llmAnswers.get? field.id = some answer)
    (usable : rules.isUsableFieldAnswer field (rules.normalizeCandidateForField field (trim answer)) used = true) :
    pickedFor rules sources used field =
      some (.llm, rules.normalizeCandidateForField field (trim answer)) := by
  rw [pickedFor, candidatesFor_eq, stored]
  exact List.find?_cons_of_pos usable

theorem merged_candidate {specs : List FieldSpec} {id value : KString}
    (found : (OnDeviceLlm.mergeAnswersPerField rules specs sources).answers.get? id = some value) :
    ∃ field ∈ specs, field.id = id ∧ ∃ candidate ∈ candidatesFor rules sources field, candidate.2 = value ∧
      ∃ used, rules.isUsableFieldAnswer field value used = true := by
  have steps : ∀ (fields : List FieldSpec) (state : MergeState), (∀ field ∈ fields, field ∈ specs) →
      (fields.foldl (mergeStep rules sources) state).outcome.answers.get? id = some value →
      state.outcome.answers.get? id = some value ∨
        ∃ field ∈ specs, field.id = id ∧ ∃ candidate ∈ candidatesFor rules sources field, candidate.2 = value ∧
          ∃ used, rules.isUsableFieldAnswer field value used = true := by
    intro fields
    induction fields with
    | nil => exact fun _ _ stored => Or.inl stored
    | cons field fields ih =>
      intro state listed stored
      rcases ih _ (fun other member => listed other (List.mem_cons_of_mem _ member)) stored with earlier | candidate
      · unfold mergeStep at earlier
        split at earlier
        · rename_i source answer picked
          split at earlier
          · rw [LinkedMap.get?_put] at earlier
            split at earlier
            · rename_i same
              cases earlier
              exact Or.inr ⟨field, listed field List.mem_cons_self, same.symm, _, List.mem_of_find?_eq_some picked, rfl,
                _, picked_usable picked⟩
            · exact Or.inl earlier
          · exact Or.inl earlier
        · exact Or.inl earlier
      · exact Or.inr candidate
  rcases steps specs {} (fun _ member => member) found with absent | candidate
  · cases absent
  · exact candidate

section Filled

variable (notBlank : ∀ field answer used, rules.isUsableFieldAnswer field answer used = true → isNotBlank answer = true)
include notBlank

theorem mergeStep_filled {state : MergeState} {field : FieldSpec}
    (filled : state.outcome.answers ≠ .empty ∨ ∃ candidate ∈ candidatesFor rules sources field,
      rules.isUsableFieldAnswer field candidate.2 state.usedNormalizedAnswers = true) :
    (mergeStep rules sources state field).outcome.answers ≠ .empty := by
  have stored : ∀ answer, state.outcome.answers.put field.id answer ≠ .empty := by
    intro answer empty
    have found : (state.outcome.answers.put field.id answer).get? field.id = some answer := by simp
    rw [empty] at found
    cases found
  cases picked : pickedFor rules sources state.usedNormalizedAnswers field with
  | none =>
    have kept : mergeStep rules sources state field = state := by
      simp only [mergeStep, picked]
    rw [kept]
    rcases filled with already | ⟨candidate, member, usable⟩
    · exact already
    · exact absurd usable (List.find?_eq_none.mp picked candidate member)
  | some pick =>
    have usable := notBlank _ _ _ (picked_usable picked)
    simp only [mergeStep, picked, usable, if_true]
    exact stored pick.2

theorem merge_empty_iff (specs : List FieldSpec) :
    (OnDeviceLlm.mergeAnswersPerField rules specs sources).answers = .empty ↔
      ∀ field ∈ specs, ∀ candidate ∈ candidatesFor rules sources field,
        rules.isUsableFieldAnswer field candidate.2 [] = false := by
  have stays : ∀ (fields : List FieldSpec) (state : MergeState), state.outcome.answers ≠ .empty →
      (fields.foldl (mergeStep rules sources) state).outcome.answers ≠ .empty := by
    intro fields
    induction fields with
    | nil => exact fun _ filled => filled
    | cons field fields ih => exact fun state filled => ih _ (mergeStep_filled notBlank (Or.inl filled))
  unfold OnDeviceLlm.mergeAnswersPerField
  induction specs with
  | nil => simp
  | cons field specs ih =>
    rw [List.foldl_cons]
    by_cases unusable : ∀ candidate ∈ candidatesFor rules sources field,
        rules.isUsableFieldAnswer field candidate.2 [] = false
    · have picked : pickedFor rules sources [] field = none := by
        apply List.find?_eq_none.mpr
        intro candidate member
        simp [unusable candidate member]
      have kept : mergeStep rules sources {} field = {} := by
        simp only [mergeStep, picked]
      rw [kept, List.forall_mem_cons]
      exact ⟨fun empty => ⟨unusable, ih.mp empty⟩, fun both => ih.mpr both.2⟩
    · constructor
      · intro empty
        obtain ⟨candidate, found⟩ := Classical.not_forall.mp unusable
        obtain ⟨member, usable⟩ := Classical.not_imp.mp found
        refine absurd empty (stays specs _ (mergeStep_filled notBlank (Or.inr ⟨candidate, member, ?_⟩)))
        simpa using usable
      · intro all
        exact absurd (all field List.mem_cons_self) unusable

end Filled

structure Merged (rules : MergeRules) (sources : AnswerSources) (state : MergeState) (specs : List FieldSpec)
    (merged : MergeState) : Prop where
  entries : merged.outcome.answers.entries = state.outcome.answers.entries ++
    (picks (pickedFor rules sources) markOf state.usedNormalizedAnswers specs).map fun pick => (pick.1.id, pick.2.2)
  used : ∀ source, source ∈ merged.outcome.usedSources ↔ source ∈ state.outcome.usedSources ∨
    ∃ pick ∈ picks (pickedFor rules sources) markOf state.usedNormalizedAnswers specs, pick.2.1 = source
  distinct : state.outcome.usedSources.Nodup → merged.outcome.usedSources.Nodup

variable (notBlank : ∀ field answer used, rules.isUsableFieldAnswer field answer used = true → isNotBlank answer = true)
include notBlank

theorem mergeStep_some {state : MergeState} {field : FieldSpec} {source : CandidateSource} {answer : KString}
    (picked : pickedFor rules sources state.usedNormalizedAnswers field = some (source, answer)) :
    mergeStep rules sources state field =
      { outcome := ⟨state.outcome.answers.put field.id answer, state.outcome.usedSources.insert source⟩
        usedNormalizedAnswers := state.usedNormalizedAnswers ++ [markOf (source, answer)] } := by
  have filled := notBlank _ _ _ (picked_usable picked)
  simp only [mergeStep, picked, filled, if_true, markOf]

theorem merge_merged (specs : List FieldSpec) (state : MergeState)
    (fresh : (state.outcome.answers.entries.map Prod.fst ++ specs.map FieldSpec.id).Nodup) :
    Merged rules sources state specs (specs.foldl (mergeStep rules sources) state) := by
  induction specs generalizing state with
  | nil =>
    refine ⟨by simp [picks], ?_, fun distinct => distinct⟩
    intro source
    simp [picks]
  | cons field specs ih =>
    rw [List.foldl_cons]
    cases picked : pickedFor rules sources state.usedNormalizedAnswers field with
    | none =>
      have kept : mergeStep rules sources state field = state := by
        simp only [mergeStep, picked]
      have later := ih state (fresh.sublist (by simp))
      rw [kept]
      refine ⟨?_, ?_, later.distinct⟩
      · rw [picks_none picked]
        exact later.entries
      · rw [picks_none picked]
        exact later.used
    | some pick =>
      obtain ⟨source, answer⟩ := pick
      rw [mergeStep_some notBlank picked]
      have new : field.id ∉ state.outcome.answers.entries.map Prod.fst := by
        intro member
        exact (List.nodup_append.mp fresh).2.2 _ member field.id (by simp) rfl
      have stored : (state.outcome.answers.put field.id answer).entries =
          state.outcome.answers.entries ++ [(field.id, answer)] := LinkedMap.putEntry_fresh _ _ _ new
      have later := ih
        { outcome := ⟨state.outcome.answers.put field.id answer, state.outcome.usedSources.insert source⟩
          usedNormalizedAnswers := state.usedNormalizedAnswers ++ [markOf (source, answer)] } (by
            rw [stored]
            simpa using fresh)
      refine ⟨?_, ?_, ?_⟩
      · rw [picks_some picked, later.entries, stored]
        simp
      · intro other
        rw [picks_some picked, later.used]
        simp only [List.mem_insert_iff, List.mem_cons, exists_eq_or_imp]
        constructor
        · rintro ((same | earlier) | found)
          · exact Or.inr (Or.inl same.symm)
          · exact Or.inl earlier
          · exact Or.inr (Or.inr found)
        · rintro (earlier | same | found)
          · exact Or.inl (Or.inr earlier)
          · exact Or.inl (Or.inl same.symm)
          · exact Or.inr found
      · intro distinct
        exact later.distinct (distinct.insert)

end Rules

section Definition

variable {definition : FormDefinition} (distinct : (definition.map FormQuestion.id).Nodup)
  (rules : MergeRules) (sources : AnswerSources)

def formPicks (definition : FormDefinition) : List (FieldSpec × CandidateSource × KString) :=
  picks (pickedFor rules sources) markOf [] (fieldSpecs definition)

theorem fieldSpecs_ids (definition : FormDefinition) :
    (fieldSpecs definition).map FieldSpec.id = definition.map FormQuestion.id := by
  simp [fieldSpecs]

variable {rules} {sources}
variable (notBlank : ∀ field answer used, rules.isUsableFieldAnswer field answer used = true → isNotBlank answer = true)
include distinct notBlank

theorem form_merged : Merged rules sources {} (fieldSpecs definition)
    ((fieldSpecs definition).foldl (mergeStep rules sources) {}) := by
  apply merge_merged notBlank
  change ([] ++ (fieldSpecs definition).map FieldSpec.id).Nodup
  rw [List.nil_append, fieldSpecs_ids]
  exact distinct

theorem form_entries :
    (OnDeviceLlm.mergeAnswersPerField rules (fieldSpecs definition) sources).answers.entries =
      (formPicks rules sources definition).map fun pick => (pick.1.id, pick.2.2) :=
  (form_merged distinct notBlank).entries

theorem form_sources (source : CandidateSource) :
    source ∈ (OnDeviceLlm.mergeAnswersPerField rules (fieldSpecs definition) sources).usedSources ↔
      ∃ pick ∈ formPicks rules sources definition, pick.2.1 = source := by
  have merged : Merged rules sources {} (fieldSpecs definition) _ := form_merged distinct notBlank
  have used := merged.used source
  constructor
  · intro member
    rcases used.mp member with none | found
    · cases none
    · exact found
  · intro found
    exact used.mpr (Or.inr found)

theorem form_get? {before after : List FieldSpec} {field : FieldSpec}
    (split : fieldSpecs definition = before ++ field :: after) :
    (OnDeviceLlm.mergeAnswersPerField rules (fieldSpecs definition) sources).answers.get? field.id =
      (pickedFor rules sources (marks markOf (picks (pickedFor rules sources) markOf [] before)) field).map Prod.snd := by
  have ids : ((before ++ field :: after).map FieldSpec.id).Nodup := by
    rw [← split, fieldSpecs_ids]
    exact distinct
  simp only [List.map_append, List.map_cons] at ids
  have apart := List.nodup_append.mp ids
  have onlyField : ∀ other ∈ before ++ field :: after, other.id = field.id → other = field := by
    intro other listed sameId
    rcases List.mem_append.mp listed with early | late
    · exact absurd sameId (apart.2.2 _ (List.mem_map.mpr ⟨other, early, rfl⟩) _ List.mem_cons_self)
    · rcases List.mem_cons.mp late with same | late
      · exact same
      · exact absurd (List.mem_map.mpr ⟨other, late, sameId⟩) (List.nodup_cons.mp apart.2.1).1
  have absentBefore : field ∉ before := by
    intro member
    exact apart.2.2 _ (List.mem_map.mpr ⟨field, member, rfl⟩) _ List.mem_cons_self rfl
  have absentAfter : field ∉ after := by
    intro member
    exact (List.nodup_cons.mp apart.2.1).1 (List.mem_map.mpr ⟨field, member, rfl⟩)
  apply Option.ext
  intro answer
  rw [LinkedMap.get?_eq_some_iff, form_entries distinct notBlank, formPicks, split, List.mem_map,
    Option.map_eq_some_iff]
  constructor
  · rintro ⟨⟨other, pick⟩, member, same⟩
    obtain ⟨sameId, rfl⟩ := Prod.mk.inj same
    have isField := onlyField other (item_of_mem_picks member) sameId
    subst isField
    exact ⟨pick, by simpa using (mem_picks_at absentBefore absentAfter).mp member, rfl⟩
  · rintro ⟨pick, picked, rfl⟩
    refine ⟨(field, pick), ?_, rfl⟩
    exact (mem_picks_at absentBefore absentAfter).mpr (by simpa using picked)

theorem form_accepted {before after : List FieldSpec} (split : fieldSpecs definition = before ++ after) :
    marks markOf (picks (pickedFor rules sources) markOf [] before) =
      acceptedBefore (OnDeviceLlm.mergeAnswersPerField rules (fieldSpecs definition) sources).answers before := by
  apply marks_eq_filterMap
  intro earlier field later isBefore
  have place : fieldSpecs definition = earlier ++ field :: (later ++ after) := by
    rw [split, isBefore]
    simp
  rw [form_get? distinct notBlank place, Option.map_map, List.nil_append]
  rfl

theorem form_choice {before after : List FieldSpec} {field : FieldSpec}
    (split : fieldSpecs definition = before ++ field :: after) :
    (OnDeviceLlm.mergeAnswersPerField rules (fieldSpecs definition) sources).answers.get? field.id =
      (pickedFor rules sources (acceptedBefore
        (OnDeviceLlm.mergeAnswersPerField rules (fieldSpecs definition) sources).answers before) field).map
        Prod.snd := by
  rw [← form_accepted distinct notBlank split]
  exact form_get? distinct notBlank split

end Definition

def Chose (rules : MergeRules) (definition : FormDefinition) (sources : AnswerSources) (answers : Answers)
    (source : CandidateSource) : Prop :=
  ∃ before field after answer, fieldSpecs definition = before ++ field :: after ∧
    pickedFor rules sources (acceptedBefore answers before) field = some (source, answer)

section Strategy

variable {definition : FormDefinition} (distinct : (definition.map FormQuestion.id).Nodup)
  {rules : MergeRules} {sources : AnswerSources}
variable (notBlank : ∀ field answer used, rules.isUsableFieldAnswer field answer used = true → isNotBlank answer = true)
include distinct notBlank

theorem chose_iff (source : CandidateSource) :
    Chose rules definition sources
        (OnDeviceLlm.mergeAnswersPerField rules (fieldSpecs definition) sources).answers source ↔
      source ∈ (OnDeviceLlm.mergeAnswersPerField rules (fieldSpecs definition) sources).usedSources := by
  rw [form_sources distinct notBlank]
  constructor
  · rintro ⟨before, field, after, answer, split, picked⟩
    rw [← form_accepted distinct notBlank split] at picked
    refine ⟨(field, source, answer), mem_picks_iff.mpr ⟨before, after, split, ?_⟩, rfl⟩
    simpa using picked
  · rintro ⟨⟨field, source, answer⟩, member, rfl⟩
    obtain ⟨before, after, split, picked⟩ := mem_picks_iff.mp member
    refine ⟨before, field, after, answer, split, ?_⟩
    rw [← form_accepted distinct notBlank split]
    simpa using picked

theorem answers_empty_iff :
    (OnDeviceLlm.mergeAnswersPerField rules (fieldSpecs definition) sources).answers.isEmpty = true ↔
      (OnDeviceLlm.mergeAnswersPerField rules (fieldSpecs definition) sources).usedSources = [] := by
  rw [LinkedMap.isEmpty, form_entries distinct notBlank, List.isEmpty_iff, List.map_eq_nil_iff,
    List.eq_nil_iff_forall_not_mem, List.eq_nil_iff_forall_not_mem]
  constructor
  · intro none source used
    obtain ⟨pick, member, _⟩ := (form_sources distinct notBlank source).mp used
    exact none pick member
  · intro none pick member
    exact none pick.2.1 ((form_sources distinct notBlank _).mpr ⟨pick, member, rfl⟩)

theorem usedSources_nodup :
    (OnDeviceLlm.mergeAnswersPerField rules (fieldSpecs definition) sources).usedSources.Nodup :=
  (form_merged distinct notBlank).distinct List.nodup_nil

end Strategy

section StrategyOf

omit [Platform]

variable {usedSources : List CandidateSource}

theorem only_llm_iff (distinct : usedSources.Nodup) :
    (usedSources.contains .llm && usedSources.length == 1) = true ↔
      usedSources ≠ [] ∧ ∀ source ∈ usedSources, source = .llm := by
  match usedSources, distinct with
  | [], _ => simp
  | [source], _ => simp [eq_comm]
  | first :: second :: rest, distinct =>
    have differ : first ≠ second := by
      intro same
      rw [same] at distinct
      simp at distinct
    have long : ((first :: second :: rest).length == 1) = false := by simp
    rw [long, Bool.and_false]
    constructor
    · intro absurd
      cases absurd
    · rintro ⟨_, all⟩
      exact absurd ((all first (by simp)).trans (all second (by simp)).symm) differ

theorem strategy_onDeviceLlm_iff (distinct : usedSources.Nodup) :
    mappingStrategyOf usedSources = .onDeviceLlm ↔
      usedSources ≠ [] ∧ ∀ source ∈ usedSources, source = .llm := by
  rw [← only_llm_iff distinct]
  unfold mappingStrategyOf
  by_cases alone : (usedSources.contains .llm && usedSources.length == 1) = true
  · exact ⟨fun _ => alone, fun _ => if_pos alone⟩
  · rw [if_neg alone]
    constructor
    · split
      · intro same
        cases same
      · split <;> intro same <;> cases same
    · intro only
      exact absurd only alone

theorem strategy_mixed_iff (distinct : usedSources.Nodup) :
    mappingStrategyOf usedSources = .mixed ↔
      .llm ∈ usedSources ∧ ∃ source ∈ usedSources, source ≠ .llm := by
  have only := only_llm_iff distinct
  unfold mappingStrategyOf
  by_cases alone : (usedSources.contains .llm && usedSources.length == 1) = true
  · have all := (only.mp alone).2
    rw [if_pos alone]
    constructor
    · intro absurd
      cases absurd
    · rintro ⟨_, source, member, other⟩
      exact absurd (all source member) other
  · rw [if_neg alone]
    by_cases llm : usedSources.contains CandidateSource.llm = true
    · rw [if_pos llm]
      have member : CandidateSource.llm ∈ usedSources := by simpa using llm
      have nonempty : usedSources ≠ [] := List.ne_nil_of_mem member
      have mixed : ∃ source ∈ usedSources, source ≠ .llm := by
        by_contra none
        apply alone
        apply only.mpr
        refine ⟨nonempty, ?_⟩
        intro source inside
        by_contra other
        exact none ⟨source, inside, other⟩
      exact ⟨fun _ => ⟨member, mixed⟩, fun _ => rfl⟩
    · rw [if_neg llm]
      have absent : CandidateSource.llm ∉ usedSources := by simpa using llm
      constructor
      · split <;> intro same <;> cases same
      · rintro ⟨member, _⟩
        exact absurd member absent

theorem strategy_heuristicFallback_iff :
    mappingStrategyOf usedSources = .heuristicFallback ↔ usedSources ≠ [] ∧ .llm ∉ usedSources := by
  unfold mappingStrategyOf
  by_cases llm : CandidateSource.llm ∈ usedSources
  · have has : usedSources.contains CandidateSource.llm = true := by simpa using llm
    rw [has, if_pos rfl]
    split <;> simp [llm]
  · have not : usedSources.contains CandidateSource.llm = false := by simpa using llm
    rw [not]
    cases usedSources with
    | nil => decide
    | cons source rest => simp [llm]

theorem strategy_unknown_iff : mappingStrategyOf usedSources = .unknown ↔ usedSources = [] := by
  cases usedSources with
  | nil => decide
  | cons source rest =>
    unfold mappingStrategyOf
    split
    · simp
    · split <;> simp

end StrategyOf

namespace Ios

theorem usable_filled (field : FieldSpec) (answer : KString) (used : List KString)
    (usable : mergeRules.isUsableFieldAnswer field answer used = true) : isNotBlank answer = true := by
  rw [mergeRules_usable] at usable
  exact usable_notBlank usable

end Ios

namespace Android

theorem usable_filled (field : FieldSpec) (answer : KString) (used : List KString)
    (usable : mergeRules.isUsableFieldAnswer field answer used = true) : isNotBlank answer = true := by
  rw [mergeRules_usable] at usable
  exact usable_notBlank usable

/-- The merge answers each field with the first usable candidate at its place, and
    repeats no earlier answer in a field that is not a name. -/
theorem mergeAnswersPerField_choice (definition : FormDefinition)
    (distinct : (definition.map FormQuestion.id).Nodup) (sources : AnswerSources) :
    let outcome := mergeAnswersPerField definition sources
    (∀ before field after, fieldSpecs definition = before ++ field :: after →
      (outcome.answers.containsKey field.id = true ↔
        ∃ candidate ∈ candidatesFor mergeRules sources field,
          isUsableFieldAnswer field candidate.2 (acceptedBefore outcome.answers before) = true) ∧
      outcome.answers.get? field.id = ((candidatesFor mergeRules sources field).find? fun candidate =>
        isUsableFieldAnswer field candidate.2 (acceptedBefore outcome.answers before)).map Prod.snd) ∧
    (∀ id answer, outcome.answers.get? id = some answer → ∃ field ∈ fieldSpecs definition, field.id = id) ∧
    (∀ before f between g after, fieldSpecs definition = before ++ f :: (between ++ g :: after) →
      isNameField g = false → ∀ answerF answerG, outcome.answers.get? f.id = some answerF →
      outcome.answers.get? g.id = some answerG → normalizeAnswerValue answerF ≠ normalizeAnswerValue answerG) ∧
    (mappingStrategyOf outcome.usedSources = .onDeviceLlm ↔ outcome.answers.isEmpty = false ∧
      ∀ source, Chose mergeRules definition sources outcome.answers source → source = .llm) ∧
    (mappingStrategyOf outcome.usedSources = .mixed ↔
      Chose mergeRules definition sources outcome.answers .llm ∧
        ∃ source, source ≠ .llm ∧ Chose mergeRules definition sources outcome.answers source) ∧
    (mappingStrategyOf outcome.usedSources = .heuristicFallback ↔ outcome.answers.isEmpty = false ∧
      ¬ Chose mergeRules definition sources outcome.answers .llm) ∧
    (mappingStrategyOf outcome.usedSources = .unknown ↔ outcome.answers.isEmpty = true) := by
  intro outcome
  have choice : ∀ before field after, fieldSpecs definition = before ++ field :: after →
      outcome.answers.get? field.id =
        (pickedFor mergeRules sources (acceptedBefore outcome.answers before) field).map Prod.snd :=
    fun before field after split => form_choice distinct usable_filled split
  have chose : ∀ source, Chose mergeRules definition sources outcome.answers source ↔
      source ∈ outcome.usedSources := chose_iff distinct usable_filled
  have sourcesNodup : outcome.usedSources.Nodup := usedSources_nodup distinct usable_filled
  have emptyIff : outcome.answers.isEmpty = true ↔ outcome.usedSources = [] :=
    answers_empty_iff distinct usable_filled
  have filledIff : outcome.answers.isEmpty = false ↔ outcome.usedSources ≠ [] := by
    rw [← Bool.not_eq_true, emptyIff]
  refine ⟨?_, ?_, ?_, ?_, ?_, ?_, ?_⟩
  · intro before field after split
    refine ⟨?_, choice before field after split⟩
    rw [LinkedMap.containsKey, choice before field after split, Option.isSome_map, pickedFor, List.find?_isSome]
    rfl
  · intro id answer found
    have member := (LinkedMap.get?_eq_some_iff _).mp found
    change (id, answer) ∈ (OnDeviceLlm.mergeAnswersPerField mergeRules (fieldSpecs definition) sources).answers.entries
      at member
    rw [form_entries distinct usable_filled] at member
    obtain ⟨pick, inside, same⟩ := List.mem_map.mp member
    exact ⟨pick.1, item_of_mem_picks inside, congrArg Prod.fst same⟩
  · intro before f between g after split notName answerF answerG foundF foundG same
    have place : fieldSpecs definition = (before ++ f :: between) ++ g :: after := by
      rw [split]
      simp
    rw [choice _ g after place] at foundG
    obtain ⟨pick, picked, rfl⟩ := Option.map_eq_some_iff.mp foundG
    have fresh := usable_fresh (picked_usable picked) notName
    apply fresh
    rw [← same]
    apply List.mem_filterMap.mpr
    exact ⟨f, by simp, by rw [foundF]; rfl⟩
  · rw [strategy_onDeviceLlm_iff sourcesNodup, filledIff]
    simp only [chose]
  · rw [strategy_mixed_iff sourcesNodup]
    simp only [chose]
    simp only [and_comm]
  · rw [strategy_heuristicFallback_iff, filledIff, chose]
  · rw [strategy_unknown_iff, emptyIff]

def sampleSources : AnswerSources where
  llmAnswers := .ofPairs [(txt "name", txt "Anna"), (txt "problem", txt "Was war das Problem?")]
  heuristicAnswers := .ofPairs [(txt "problem", txt "Der Akku war leer")]
  fallbackAnswers := .ofPairs [(txt "problem", txt "Anna"), (txt "learning", txt "der Akku war leer!")]

omit [Platform] in
/-- The problem is answered by the second candidate, because the first repeats the question, and the learning not at all,
    because its only candidate repeats the problem. -/
theorem mergeAnswersPerField_choice_sample :
    letI := basicPlatform
    let outcome := mergeAnswersPerField DefaultFormDefinitionProvider.questions sampleSources
    outcome.answers.get? (txt "problem") = some (txt "Der Akku war leer") ∧
      outcome.answers.containsKey (txt "learning") = false ∧ mappingStrategyOf outcome.usedSources = .mixed := by
  let characters := basicPlatform
  let specs := fieldSpecs DefaultFormDefinitionProvider.questions
  have chosen := (mergeAnswersPerField_choice DefaultFormDefinitionProvider.questions (by decide +kernel) sampleSources).1
  have problem := chosen (specs.take 1) (specs.get ⟨1, by decide⟩) (specs.drop 2) (by decide +kernel)
  have learning := chosen (specs.take 2) (specs.get ⟨2, by decide⟩) (specs.drop 3) (by decide +kernel)
  refine ⟨problem.2.trans (by decide +kernel), ?_, by decide +kernel⟩
  rw [Bool.eq_false_iff]
  intro answered
  exact absurd (learning.1.mp answered) (by decide +kernel)

end Android

end Form
