import TranscriptForm.Form.FieldChoice
import TranscriptForm.Form.Keyword

namespace Form

open Kotlin OnDeviceLlm

variable [Platform]

theorem normalizeKey_oneLine (text : KString) :
    normalizeKey (replaceText (txt "\n") (txt " ") text) = normalizeKey text := by
  have blank : keyCode (ch '\n').toNat = [] ∧ keyCode (ch ' ').toNat = [] :=
    ⟨keyCode_whitespace (by decide), keyCode_whitespace (by decide)⟩
  have newline : txt "\n" = [ch '\n'] := rfl
  simp only [normalizeKey_codes, newline, replaceText_single]
  induction text using codePoints.induct with
  | case1 => rfl
  | case2 c =>
    by_cases same : c = ch '\n'
    · subst same
      simp [codePoints, txt, blank]
    · simp [same]
  | case3 c d s pair ih =>
    have surrogates := isPair_surrogates pair
    have other : ∀ unit : KChar, isSurrogate unit.toNat = true → unit ≠ ch '\n' := by
      rintro unit surrogate rfl
      revert surrogate
      decide
    simp only [List.flatMap_cons, if_neg (other c surrogates.1), if_neg (other d surrogates.2), List.singleton_append]
    rw [codePoints, if_pos pair, codePoints, if_pos pair, List.flatMap_cons, List.flatMap_cons, ih]
  | case4 c d s single ih =>
    have own : (codePoints (c :: d :: s)).flatMap keyCode =
        keyCode c.toNat ++ (codePoints (d :: s)).flatMap keyCode := by
      rw [codePoints, if_neg single]
      rfl
    have step : (c :: d :: s).flatMap (fun c => if c = ch '\n' then txt " " else [c]) =
        (if c = ch '\n' then txt " " else [c]) ++ (d :: s).flatMap fun c => if c = ch '\n' then txt " " else [c] := rfl
    rw [own, step, ← ih]
    by_cases same : c = ch '\n'
    · have plain : ∀ unit ∈ txt " ", isSurrogate unit.toNat = false := by
        intro unit among
        rw [List.mem_singleton.mp (show unit ∈ [ch ' '] from among)]
        rfl
      have silent : (codePoints (txt " ")).flatMap keyCode = [] := by
        rw [← normalizeKey_codes]
        exact normalizeKey_blank (List.all_eq_true.mp (by decide))
      rw [if_pos same, codePoints_append_plain _ plain, List.flatMap_append, silent, same, blank.1]
    · rw [if_neg same, List.singleton_append]
      have apart : ∃ e t, (d :: s).flatMap (fun c => if c = ch '\n' then txt " " else [c]) = e :: t ∧ ¬ isPair c e = true := by
        rw [List.flatMap_cons]
        by_cases next : d = ch '\n'
        · rw [if_pos next]
          refine ⟨ch ' ', _, rfl, fun pair => ?_⟩
          have surrogate := (isPair_surrogates pair).2
          revert surrogate
          decide
        · rw [if_neg next]
          exact ⟨d, _, rfl, single⟩
      obtain ⟨e, t, shape, other⟩ := apart
      rw [shape, codePoints, if_neg other, List.flatMap_cons]

/-- Neither the label of the field nor one of its keywords is in the text. -/
def Unmentioned (field : FieldSpec) (text : KString) : Prop :=
  ∀ word ∈ field.normalizedLabel :: field.keywords, isNotBlank word = true → contains (normalizeKey text) word = false

instance {field : FieldSpec} {text : KString} : Decidable (Unmentioned field text) :=
  inferInstanceAs (Decidable (∀ word ∈ field.normalizedLabel :: field.keywords, isNotBlank word = true →
    contains (normalizeKey text) word = false))

section Field

variable {field : FieldSpec} {text : KString} (unmentioned : Unmentioned field text)
include unmentioned

theorem Unmentioned.part {part : KString} (inside : part <:+: text) : Unmentioned field part := by
  intro word listed spoken
  rw [Bool.eq_false_iff]
  intro found
  have whole := ((contains_iff _ _).mp found).trans (normalizeKey_part inside)
  have absent := unmentioned word listed spoken
  rw [(contains_iff _ _).mpr whole] at absent
  cases absent

theorem Unmentioned.oneLine : Unmentioned field (replaceText (txt "\n") (txt " ") text) := by
  unfold Unmentioned
  rw [normalizeKey_oneLine]
  exact unmentioned

theorem Unmentioned.noKeyword : ∀ token ∈ field.keywords,
    (isNotBlank token && contains (normalizeKey text) token) = false := by
  intro token listed
  rw [Bool.and_eq_false_iff, or_iff_not_imp_left, Bool.not_eq_false]
  exact unmentioned token (List.mem_cons_of_mem _ listed)

theorem Unmentioned.noLabel : (isNotBlank field.normalizedLabel && contains (normalizeKey text) field.normalizedLabel) = false := by
  rw [Bool.and_eq_false_iff, or_iff_not_imp_left, Bool.not_eq_false]
  exact unmentioned _ List.mem_cons_self

theorem Unmentioned.noQuestion : matchesFieldQuestion text field = false := by
  simp only [matchesFieldQuestion, unmentioned.noLabel, Bool.or_false, List.any_eq_false, Bool.not_eq_true]
  exact unmentioned.noKeyword

theorem Unmentioned.scored (scores : 2 ≤ scoreSentenceForField text field) :
    isNameField field = true ∧ (trim text).length ≤ 40 := by
  have none : field.keywords.countP (fun token => isNotBlank token && contains (normalizeKey text) token) = 0 := by
    rw [List.countP_eq_zero]
    intro token listed
    simp [unmentioned.noKeyword token listed]
  simp only [scoreSentenceForField, none, unmentioned.noLabel, Bool.false_eq_true, if_false, Nat.mul_zero, Nat.zero_add] at scores
  split at scores
  · rename_i name
    simp only [Bool.and_eq_true, decide_eq_true_eq] at name
    exact ⟨name.1.1.1.1, name.1.1.1.2⟩
  · omega

theorem Unmentioned.noInline : extractAnswerAfterQuestionInTranscript text field = none := by
  have pieces : ∀ pieces : List KString, (∀ piece ∈ pieces, Unmentioned field piece) →
      firstInlineAnswer field pieces = none := by
    intro pieces
    induction pieces with
    | nil => exact fun _ => rfl
    | cons question pieces ih =>
      intro each
      obtain ⟨here, later⟩ := List.forall_mem_cons.mp each
      cases pieces with
      | nil => rfl
      | cons answer rest =>
        have silent : inlineAnswer field question answer = none := by simp [inlineAnswer, here.noQuestion]
        rw [firstInlineAnswer, silent]
        exact ih later
  unfold extractAnswerAfterQuestionInTranscript
  dsimp only
  split
  · rfl
  · apply pieces
    intro piece listed
    obtain ⟨segment, inside, rfl⟩ := List.mem_map.mp (List.mem_filter.mp listed).1
    exact unmentioned.oneLine.part ((trim_part segment).trans ((splitChar_part inside).trans (trim_part _)))

theorem Unmentioned.best {best : KString} (found : findBestAnswerSentence (sentencesOf text) field = some best) :
    isNameField field = true ∧ best ∈ sentencesOf text ∧ best.length ≤ 40 := by
  unfold findBestAnswerSentence at found
  obtain ⟨scored, first, rfl⟩ := Option.map_eq_some_iff.mp found
  have ranked := (List.perm_insertionSort _ _).mem_iff.mp (List.mem_of_mem_head? first)
  obtain ⟨candidate, scores⟩ := List.mem_filter.mp ranked
  obtain ⟨sentence, kept, rfl⟩ := List.mem_map.mp candidate
  obtain ⟨whole, listed, rfl⟩ := List.mem_map.mp (List.mem_filter.mp (List.mem_filter.mp kept).1).1
  obtain ⟨piece, cut, rfl⟩ := List.mem_map.mp (List.mem_filter.mp listed).1
  have inside : trim (trim piece) <:+: replaceText (txt "\n") (txt " ") text := by
    rw [trim_trim]
    exact (trim_part piece).trans (Regex.split_piece_part cut)
  obtain ⟨name, short⟩ := (unmentioned.oneLine.part inside).scored (by simpa using scores)
  rw [trim_trim, trim_trim] at short
  dsimp only
  rw [trim_trim, List.take_of_length_le (by omega)]
  exact ⟨name, listed, short⟩

theorem Unmentioned.picked {picked : KString} (found : pickHeuristic text [] field = some picked) :
    isNameField field = true ∧ picked ∈ sentencesOf text ∧ picked.length ≤ 40 := by
  have noTransition : extractAnswerFromQuestionTransition field [] = none := rfl
  rw [pickHeuristic, unmentioned.noInline, noTransition, Option.none_or, Option.none_or] at found
  exact unmentioned.best found

end Field

theorem heuristicAnswers_unmentioned {extractName : KString → Option KString} {specs : List FieldSpec} {text : KString}
    (unmentioned : ∀ field ∈ specs, Unmentioned field text)
    (nameless : ∀ field ∈ specs, isNameField field = true → extractName text = none) {id answer : KString}
    (found : (extractHeuristicAnswers extractName specs text []).get? id = some answer) :
    ∃ field ∈ specs, field.id = id ∧ isNameField field = true ∧ answer ∈ sentencesOf text ∧ answer.length ≤ 40 := by
  have steps : ∀ (fields : List FieldSpec) (answers : Answers), (∀ field ∈ fields, field ∈ specs) →
      (fields.foldl (heuristicStep text []) answers).get? id = some answer → answers.get? id = some answer ∨
        ∃ field ∈ specs, field.id = id ∧ isNameField field = true ∧ answer ∈ sentencesOf text ∧ answer.length ≤ 40 := by
    intro fields
    induction fields with
    | nil => exact fun _ _ stored => Or.inl stored
    | cons field fields ih =>
      intro answers listed stored
      obtain ⟨here, later⟩ := List.forall_mem_cons.mp listed
      rcases ih _ later stored with earlier | sentence
      · unfold heuristicStep at earlier
        split at earlier
        · exact Or.inl earlier
        · split at earlier
          · rename_i picked pick
            split at earlier
            · exact Or.inl earlier
            · rw [LinkedMap.get?_put] at earlier
              split at earlier
              · rename_i same
                obtain ⟨name, sentence, short⟩ := (unmentioned field here).picked pick
                rw [List.take_of_length_le (by omega)] at earlier
                rw [← Option.some.inj earlier]
                exact Or.inr ⟨field, here, same.symm, name, sentence, short⟩
              · exact Or.inl earlier
          · exact Or.inl earlier
      · exact Or.inr sentence
  have noName : nameAnswer extractName specs text = .empty := by
    unfold nameAnswer
    split
    · rename_i name nameField extracted first
      have none := nameless nameField (List.mem_of_find?_eq_some first) (by simpa using List.find?_some first)
      rw [extracted] at none
      cases none
    · rfl
  rw [extractHeuristicAnswers, noName] at found
  rcases steps specs .empty (fun _ member => member) found with absent | sentence
  · cases absent
  · exact sentence

namespace OnDeviceKeyword

/-- No sentence of the text tells what was learned or is intended. -/
def NothingLearned (text : KString) : Prop :=
  (∀ sentence ∈ sentencesOf text, ∀ word ∈ learningKeywords ++ intentions, contains (lowercase sentence) word = false) ∧
    contains (lowercase text) (txt "gelernt") = false

instance {text : KString} : Decidable (NothingLearned text) :=
  inferInstanceAs (Decidable ((∀ sentence ∈ sentencesOf text, ∀ word ∈ learningKeywords ++ intentions,
    contains (lowercase sentence) word = false) ∧ contains (lowercase text) (txt "gelernt") = false))

theorem learning_unanswered {text : KString} (nothing : NothingLearned text) :
    extractForQuestion (txt "learning") text = [] := by
  have other : txt "learning" ≠ txt "name" ∧ txt "learning" ≠ txt "problem" := by decide
  have noSentence : ∀ words : List KString, (∀ word ∈ words, word ∈ learningKeywords ++ intentions) →
      (sentencesOf text).find? (fun sentence => words.any fun word => contains (lowercase sentence) word) = none := by
    intro words among
    rw [List.find?_eq_none]
    intro sentence listed
    rw [Bool.not_eq_true, List.any_eq_false]
    intro word member
    simp [nothing.1 sentence listed word (among word member)]
  have noKeyword := noSentence learningKeywords fun _ member => List.mem_append_left _ member
  have noIntention := noSentence intentions fun _ member => List.mem_append_right _ member
  simp [extractForQuestion, other, findSentenceAfterKeywords, noKeyword, noIntention, nothing.2]

theorem keywordAnswers_origin {definition : FormDefinition} {text id answer : KString}
    (found : (keywordAnswers definition text).get? id = some answer) :
    ∃ question ∈ definition, question.id = id ∧ extractForQuestion id text ≠ [] := by
  obtain ⟨question, listed, kept⟩ := List.mem_filterMap.mp (LinkedMap.mem_of_get?_ofPairs found)
  dsimp only at kept
  split at kept
  · cases kept
  · rename_i spoken
    cases kept
    refine ⟨question, listed, rfl, ?_⟩
    intro nothing
    rw [nothing] at spoken
    exact spoken rfl

theorem keywordAnswers_unspoken {definition : FormDefinition} {text id : KString}
    (problem : id ≠ txt "problem") (name : id = txt "name" → find introduction text = none)
    (learning : id = txt "learning" → NothingLearned text) : (keywordAnswers definition text).get? id = none := by
  by_contra some
  obtain ⟨answer, found⟩ := Option.ne_none_iff_exists'.mp some
  obtain ⟨_, _, _, spoken⟩ := keywordAnswers_origin found
  apply spoken
  by_cases isName : id = txt "name"
  · simp [extractForQuestion, isName, findFirstGroup, name isName]
  · by_cases isLearning : id = txt "learning"
    · rw [isLearning]
      exact learning_unanswered (learning isLearning)
    · simp [extractForQuestion, isName, problem, isLearning]

end OnDeviceKeyword

end Form
