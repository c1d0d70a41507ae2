import TranscriptForm.Form.Keyword
import TranscriptForm.Form.Merge

namespace Form

open Kotlin OnDeviceLlm

section Basic

variable {s t : KString}

theorem basic_part (basic : IsBasicText t) (part : s <:+: t) : IsBasicText s :=
  fun c member => basic c (part.subset member)

theorem basic_append (left : IsBasicText s) (right : IsBasicText t) : IsBasicText (s ++ t) := by
  intro c member
  rcases List.mem_append.mp member with member | member
  · exact left c member
  · exact right c member

theorem basic_join {separator : KString} {parts : List KString} (basic : IsBasicText separator)
    (all : ∀ part ∈ parts, IsBasicText part) : IsBasicText (joinToString separator parts) := by
  intro c member
  rcases mem_joinToString member with inSeparator | ⟨part, listed, inside⟩
  · exact basic c inSeparator
  · exact all part listed c inside

theorem forall_basic (P : KChar → Prop) (all : ∀ code : Fin 256, isBasic code = true → P (.ofNat code)) {c : KChar}
    (basic : isBasic c.toNat = true) : P c := by
  have bound : c.toNat < 256 := isBasic_bound basic
  have checked := all ⟨c.toNat, bound⟩ basic
  have back : UInt16.ofNat c.toNat = c := UInt16.ofNat_toNat
  rw [← back]
  exact checked

end Basic

def keyPart (c : KChar) : KString := keyUnit (lowerChar c)

theorem keyPart_lowerChar {c : KChar} (basic : isBasic c.toNat = true) : keyPart (lowerChar c) = keyPart c := by
  apply forall_basic (fun c => keyPart (lowerChar c) = keyPart c) _ basic
  decide +kernel

theorem basic_lowerChar {c : KChar} (basic : isBasic c.toNat = true) : isBasic (lowerChar c).toNat = true := by
  apply forall_basic (fun c => isBasic (lowerChar c).toNat = true) _ basic
  decide +kernel

theorem upperBasic_keyPart {c : KChar} (basic : isBasic c.toNat = true) :
    (upperBasic (lowerChar c)).flatMap keyPart = keyPart c := by
  apply forall_basic (fun c => (upperBasic (lowerChar c)).flatMap keyPart = keyPart c) _ basic
  decide +kernel

theorem basic_upperBasic {c : KChar} (basic : isBasic c.toNat = true) : IsBasicText (upperBasic (lowerChar c)) := by
  apply forall_basic (fun c => IsBasicText (upperBasic (lowerChar c))) _ basic
  decide +kernel

theorem keyPart_whitespace {c : KChar} (space : isWhitespace c = true) : keyPart c = [] := by
  have low : lowerBasic c.toNat = c.toNat := basicPlatform.lowerCode_whitespace c.toNat space
  have same : lowerChar c = c := by
    rw [lowerChar, low]
    exact UInt16.ofNat_toNat
  rw [keyPart, same]
  exact keyUnit_whitespace space

variable [Platform]

theorem keyPart_space {c : KChar} (space : Platform.isSpace c.toNat = true) : keyPart c = [] := by
  rcases Platform.isSpace_whitespace c.toNat space with white | next
  · exact keyPart_whitespace white
  · have same : c = 0x85 := UInt16.toNat_inj.mp next
    rw [same]
    decide

theorem normalizeKey_keyParts {s : KString} (basic : IsBasicText s) : normalizeKey s = s.flatMap keyPart :=
  normalizeKey_basic basic

/-- A text whose key is a part of the key of the source. -/
def Excerpt (source value : KString) : Prop :=
  IsBasicText value ∧ normalizeKey value <:+: normalizeKey source

section Excerpt

variable {source middle value : KString}

theorem Excerpt.of_part (basic : IsBasicText source) (part : value <:+: source) : Excerpt source value :=
  ⟨basic_part basic part, normalizeKey_part part⟩

theorem Excerpt.trans (first : Excerpt source middle) (second : Excerpt middle value) : Excerpt source value :=
  ⟨second.1, second.2.trans first.2⟩

theorem Excerpt.part (excerpt : Excerpt source middle) (part : value <:+: middle) : Excerpt source value :=
  excerpt.trans (.of_part excerpt.1 part)

theorem Excerpt.take (excerpt : Excerpt source value) (count : Nat) : Excerpt source (value.take count) :=
  excerpt.part (List.take_prefix count value).isInfix

theorem Excerpt.of_key (basicSource : IsBasicText source) (basic : IsBasicText value)
    (same : value.flatMap keyPart = source.flatMap keyPart) : Excerpt source value := by
  refine ⟨basic, ?_⟩
  rw [normalizeKey_keyParts basic, normalizeKey_keyParts basicSource, same]

theorem replace_excerpt {pattern : Pattern} {replacement : KString}
    (within : Regex.Within utf16 (fun c => keyPart c = []) pattern) (basicReplacement : IsBasicText replacement)
    (quiet : replacement.flatMap keyPart = []) (basic : IsBasicText source) :
    Excerpt source (replace pattern replacement source) := by
  apply Excerpt.of_key basic
  · intro c member
    rcases Regex.replace_units member with replaced | kept
    · exact basicReplacement c replaced
    · exact basic c kept
  · exact Regex.replace_unseen within keyPart (fun _ keyless => keyless) quiet source

theorem newline_excerpt (basic : IsBasicText source) :
    Excerpt source (replaceText (txt "\n") (txt " ") source) := by
  have single : txt "\n" = [ch '\n'] := by decide
  have shape := replaceText_single (ch '\n') (txt " ") source
  rw [single, shape]
  apply Excerpt.of_key basic
  · intro c member
    obtain ⟨d, inside, member⟩ := List.mem_flatMap.mp member
    split at member
    · rw [List.mem_singleton.mp member]
      decide
    · rw [List.mem_singleton.mp member]
      exact basic d inside
  · rw [List.flatMap_assoc]
    apply List.flatMap_congr
    intro c _
    split
    · rename_i same
      rw [same]
      decide
    · simp

theorem sentence_excerpt {sentence : KString} (basic : IsBasicText source) (member : sentence ∈ sentencesOf source) :
    Excerpt source sentence := by
  have listed := (List.mem_filter.mp member).1
  obtain ⟨piece, split, rfl⟩ := List.mem_map.mp listed
  exact ((newline_excerpt basic).part (Regex.split_piece_part split)).part (trim_part piece)

end Excerpt

section Names

variable {source value : KString}

theorem tidyName_excerpt (basic : IsBasicText source) : Excerpt source (tidyName source) := by
  have trimmed : Excerpt source (trimChars (txt ".,;:!?") (trim source)) :=
    (Excerpt.of_part basic (trim_part source)).part (trimBy_part (trim source))
  have bare : Excerpt source (replace leadingArticle [] (trimChars (txt ".,;:!?") (trim source))) :=
    trimmed.part ((textStart_anchored _).replace_nil _).isInfix
  have spaces : Regex.Within utf16 (fun c => keyPart c = []) (Pattern.plus Pattern.space) :=
    within_space fun _ => keyPart_space
  exact (bare.trans (replace_excerpt spaces (by decide) (by decide) bare.1)).part (trim_part _)

theorem capitalise_basic {part : KString} (basic : IsBasicText part) :
    IsBasicText (capitalise part) ∧ (capitalise part).flatMap keyPart = part.flatMap keyPart := by
  unfold capitalise
  rw [lowercase_basic basic]
  cases part with
  | nil =>
    refine ⟨?_, rfl⟩
    intro c member
    cases member
  | cons c part =>
    have first := basic c List.mem_cons_self
    have later : ∀ d ∈ part, isBasic d.toNat = true := fun d member => basic d (List.mem_cons_of_mem _ member)
    have upper := Platform.uppercase_basic (lowerChar c) (basic_lowerChar first)
    have tail : (part.map lowerChar).flatMap keyPart = part.flatMap keyPart := by
      rw [List.flatMap_map]
      exact List.flatMap_congr fun d member => keyPart_lowerChar (later d member)
    simp only [List.map_cons, upper]
    constructor
    · apply basic_append (basic_upperBasic first)
      intro d member
      obtain ⟨e, inside, rfl⟩ := List.mem_map.mp member
      exact basic_lowerChar (later e inside)
    · rw [List.flatMap_append, upperBasic_keyPart first, tail, List.flatMap_cons]

omit [Platform] in
theorem blank_keyless {s : KString} (blank : isBlank s = true) : s.flatMap keyPart = [] :=
  List.flatMap_eq_nil_iff.mpr fun c member => keyPart_whitespace ((isBlank_iff s).mp blank c member)

theorem capitalised_excerpt (basic : IsBasicText source) :
    Excerpt source (joinToString (txt " ") (((splitChar (ch ' ') source).filter isNotBlank).map capitalise)) := by
  have words : ∀ part ∈ splitChar (ch ' ') source, IsBasicText part :=
    fun part member => basic_part basic (splitChar_part member)
  apply Excerpt.of_key basic
  · apply basic_join
    · decide
    · intro part member
      obtain ⟨word, listed, rfl⟩ := List.mem_map.mp member
      exact (capitalise_basic (words word (List.mem_filter.mp listed).1)).1
  · have whole : ((splitChar (ch ' ') source).flatMap fun piece => piece.flatMap keyPart) = source.flatMap keyPart :=
      splitChar_flatMap (by decide) source
    rw [joinToString_flatMap (by decide), List.flatMap_map, ← whole]
    generalize splitChar (ch ' ') source = parts at words
    induction parts with
    | nil => rfl
    | cons part parts ih =>
      have later := ih fun other member => words other (List.mem_cons_of_mem _ member)
      rw [List.flatMap_cons, ← later, List.filter_cons]
      split
      · rw [List.flatMap_cons, (capitalise_basic (words part List.mem_cons_self)).2]
      · rename_i blank
        rw [blank_keyless (by simpa [isNotBlank] using blank), List.nil_append]

theorem cleanupName_excerpt {isPlaceholder : KString → Bool} (basic : IsBasicText source)
    (cleaned : cleanupNameUnless isPlaceholder source = some value) : Excerpt source value := by
  have tidy := tidyName_excerpt basic
  unfold cleanupNameUnless at cleaned
  dsimp only at cleaned
  split at cleaned
  · cases cleaned
  · split at cleaned
    · cases cleaned
    · split at cleaned
      · cases cleaned
      · split at cleaned
        · cases cleaned
        · rw [← Option.some.inj cleaned]
          exact tidy.trans (capitalised_excerpt tidy.1)

theorem extractName_excerpt {isPlaceholder : KString → Bool} (basic : IsBasicText source)
    (extracted : extractNameWith (cleanupNameUnless isPlaceholder) source = some value) : Excerpt source value := by
  unfold extractNameWith at extracted
  split at extracted
  · cases extracted
  · obtain ⟨pattern, _, bound⟩ := List.exists_of_findSome?_eq_some extracted
    obtain ⟨found, search, kept⟩ := Option.bind_eq_some_iff.mp bound
    have cleaned := (Option.filter_eq_some_iff.mp kept).1
    have captured : Excerpt source (groupValue found 1) := .of_part basic (groupValue_part search 1)
    exact captured.trans (cleanupName_excerpt captured.1 cleaned)

end Names

section Heuristics

variable {source value : KString} {field : FieldSpec}

theorem cleanInlineAnswerSegment_part (segment : KString) : cleanInlineAnswerSegment segment <:+: segment := by
  have bracket : replace bracketPrefix [] segment <:+ segment := (textStart_anchored _).replace_nil segment
  have speaker : replace speakerPrefix [] (replace bracketPrefix [] segment) <:+ replace bracketPrefix [] segment :=
    (textStart_anchored _).replace_nil _
  have bare := ((trim_part _).trans speaker.isInfix).trans bracket.isInfix
  unfold cleanInlineAnswerSegment
  exact (((trimEndChars_part _ _).trans (trim_part _)).trans (List.take_prefix _ _).isInfix).trans bare

theorem inlineAnswer_part {question answer : KString} (found : inlineAnswer field question answer = some value) :
    value <:+: answer := by
  unfold inlineAnswer at found
  dsimp only at found
  split at found
  · cases found
  · split at found
    · cases found
    · split at found
      · cases found
      · split at found
        · cases found
        · rw [← Option.some.inj found]
          exact (List.take_prefix _ _).isInfix.trans (cleanInlineAnswerSegment_part answer)

theorem firstInlineAnswer_part {segments : List KString} (found : firstInlineAnswer field segments = some value) :
    ∃ segment ∈ segments, value <:+: segment := by
  fun_induction firstInlineAnswer field segments with
  | case1 question answer rest first inline =>
    cases found
    exact ⟨answer, by simp, inlineAnswer_part inline⟩
  | case2 question answer rest none ih =>
    obtain ⟨segment, member, part⟩ := ih found
    exact ⟨segment, List.mem_cons_of_mem _ member, part⟩
  | case3 => cases found

theorem questionAnswer_excerpt (basic : IsBasicText source)
    (found : extractAnswerAfterQuestionInTranscript source field = some value) : Excerpt source value := by
  unfold extractAnswerAfterQuestionInTranscript at found
  dsimp only at found
  split at found
  · cases found
  · obtain ⟨segment, member, part⟩ := firstInlineAnswer_part found
    obtain ⟨piece, split, rfl⟩ := List.mem_map.mp (List.mem_filter.mp member).1
    have text := (newline_excerpt basic).part (trim_part _)
    exact ((text.part (splitChar_part split)).part (trim_part piece)).part part

theorem transitionCandidate_part {currentBlock nextBlock : SpeakerBlock} {thirdBlock : Option SpeakerBlock}
    (found : transitionCandidate currentBlock nextBlock thirdBlock = some value) :
    value <:+: nextBlock.text ∨ ∃ block ∈ thirdBlock, value <:+: block.text := by
  unfold transitionCandidate at found
  dsimp only at found
  split at found
  · rw [← Option.some.inj found]
    exact Or.inl (trim_part _)
  · obtain ⟨block, third, kept⟩ := Option.bind_eq_some_iff.mp found
    split at kept
    · rw [← Option.some.inj kept]
      exact Or.inr ⟨block, third, trim_part _⟩
    · cases kept

theorem transitionAnswer_part {currentBlock nextBlock : SpeakerBlock} {thirdBlock : Option SpeakerBlock}
    (found : transitionAnswer field currentBlock nextBlock thirdBlock = some value) :
    value <:+: nextBlock.text ∨ ∃ block ∈ thirdBlock, value <:+: block.text := by
  unfold transitionAnswer at found
  dsimp only at found
  split at found
  · cases found
  · split at found
    · cases found
    · split at found
      · cases found
      · obtain ⟨candidate, chosen, kept⟩ := Option.bind_eq_some_iff.mp found
        split at kept
        · cases kept
        · split at kept
          · cases kept
          · rw [← Option.some.inj kept]
            have short := (List.take_prefix 240 candidate).isInfix
            rcases transitionCandidate_part chosen with next | ⟨block, third, part⟩
            · exact Or.inl (short.trans next)
            · exact Or.inr ⟨block, third, short.trans part⟩

theorem questionTransition_part {blocks : List SpeakerBlock}
    (found : extractAnswerFromQuestionTransition field blocks = some value) :
    ∃ block ∈ blocks, value <:+: block.text := by
  fun_induction extractAnswerFromQuestionTransition field blocks with
  | case1 currentBlock nextBlock rest first transition =>
    cases found
    rcases transitionAnswer_part transition with next | ⟨block, third, part⟩
    · exact ⟨nextBlock, by simp, next⟩
    · have later : block ∈ rest := List.mem_of_mem_head? third
      exact ⟨block, by simp [later], part⟩
  | case2 currentBlock nextBlock rest none ih =>
    obtain ⟨block, member, part⟩ := ih found
    exact ⟨block, List.mem_cons_of_mem _ member, part⟩
  | case3 => cases found

theorem bestSentence_part {sentences : List KString} (found : findBestAnswerSentence sentences field = some value) :
    ∃ sentence ∈ sentences, value <:+: sentence := by
  unfold findBestAnswerSentence at found
  obtain ⟨best, first, rfl⟩ := Option.map_eq_some_iff.mp found
  have ranked := (List.perm_insertionSort _ _).mem_iff.mp (List.mem_of_mem_head? first)
  obtain ⟨sentence, candidate, rfl⟩ := List.mem_map.mp (List.mem_filter.mp ranked).1
  have kept := (List.mem_filter.mp (List.mem_filter.mp candidate).1).1
  obtain ⟨whole, listed, rfl⟩ := List.mem_map.mp kept
  exact ⟨whole, listed, (List.take_prefix _ _).isInfix.trans (trim_part whole)⟩

def Spoken (source : KString) (blocks : List SpeakerBlock) (value : KString) : Prop :=
  Excerpt source value ∨ ∃ block ∈ blocks, Excerpt block.text value

theorem Spoken.trans {blocks : List SpeakerBlock} {middle : KString} (spoken : Spoken source blocks middle)
    (excerpt : Excerpt middle value) : Spoken source blocks value := by
  rcases spoken with text | ⟨block, member, text⟩
  · exact Or.inl (text.trans excerpt)
  · exact Or.inr ⟨block, member, text.trans excerpt⟩

theorem Spoken.basic {blocks : List SpeakerBlock} (spoken : Spoken source blocks value) : IsBasicText value := by
  rcases spoken with text | ⟨_, _, text⟩ <;> exact text.1

theorem Spoken.part {blocks : List SpeakerBlock} {middle : KString} (spoken : Spoken source blocks middle)
    (part : value <:+: middle) : Spoken source blocks value :=
  spoken.trans (.of_part spoken.basic part)

def SpokenAnswers (source : KString) (blocks : List SpeakerBlock) (answers : Answers) : Prop :=
  ∀ id value, answers.get? id = some value → Spoken source blocks value

theorem SpokenAnswers.empty {blocks : List SpeakerBlock} : SpokenAnswers source blocks .empty := by
  intro id value found
  cases found

theorem SpokenAnswers.put {blocks : List SpeakerBlock} {answers : Answers} (spoken : SpokenAnswers source blocks answers)
    {id : KString} (new : Spoken source blocks value) : SpokenAnswers source blocks (answers.put id value) := by
  intro other stored found
  rw [LinkedMap.get?_put] at found
  split at found
  · rw [← Option.some.inj found]
    exact new
  · exact spoken other stored found

variable {blocks : List SpeakerBlock} (basic : IsBasicText source) (basicBlocks : ∀ block ∈ blocks, IsBasicText block.text)
include basic

theorem nameAnswer_spoken {isPlaceholder : KString → Bool} (specs : List FieldSpec) :
    SpokenAnswers source blocks (nameAnswer (extractNameWith (cleanupNameUnless isPlaceholder)) specs source) := by
  unfold nameAnswer
  split
  · rename_i name nameField extracted _
    split
    · exact .empty
    · exact SpokenAnswers.empty.put (Or.inl (extractName_excerpt basic extracted))
  · exact .empty

include basicBlocks

theorem pickHeuristic_spoken (found : pickHeuristic source blocks field = some value) : Spoken source blocks value := by
  unfold pickHeuristic at found
  rcases Option.or_eq_some_iff.mp found with inline | ⟨_, later⟩
  · exact Or.inl (questionAnswer_excerpt basic inline)
  · rcases Option.or_eq_some_iff.mp later with transition | ⟨_, best⟩
    · obtain ⟨block, member, part⟩ := questionTransition_part transition
      exact Or.inr ⟨block, member, .of_part (basicBlocks block member) part⟩
    · obtain ⟨sentence, member, part⟩ := bestSentence_part best
      exact Or.inl ((sentence_excerpt basic member).part part)

theorem heuristicStep_spoken {answers : Answers} (spoken : SpokenAnswers source blocks answers) :
    SpokenAnswers source blocks (heuristicStep source blocks answers field) := by
  unfold heuristicStep
  split
  · exact spoken
  · split
    · rename_i picked found
      split
      · exact spoken
      · exact spoken.put ((pickHeuristic_spoken basic basicBlocks found).part (List.take_prefix 240 picked).isInfix)
    · exact spoken

theorem heuristicAnswers_spoken {isPlaceholder : KString → Bool} (specs : List FieldSpec) :
    SpokenAnswers source blocks
      (extractHeuristicAnswers (extractNameWith (cleanupNameUnless isPlaceholder)) specs source blocks) := by
  have steps : ∀ (fields : List FieldSpec) (answers : Answers), SpokenAnswers source blocks answers →
      SpokenAnswers source blocks (fields.foldl (heuristicStep source blocks) answers) := by
    intro fields
    induction fields with
    | nil => exact fun _ spoken => spoken
    | cons field fields ih => exact fun answers spoken => ih _ (heuristicStep_spoken basic basicBlocks spoken)
  exact steps specs _ (nameAnswer_spoken basic specs)

end Heuristics

section Keyword

open OnDeviceKeyword

variable {source value : KString}

omit [Platform] in
theorem newline_keeps {word : KString} (clean : ch '\n' ∉ word) (part : word <:+: source) :
    word <:+: replaceText (txt "\n") (txt " ") source := by
  have single : txt "\n" = [ch '\n'] := by decide
  have same : (word.flatMap fun c => if c = ch '\n' then txt " " else [c]) = word.flatMap fun c => [c] := by
    apply List.flatMap_congr
    intro c member
    have other : c ≠ ch '\n' := fun same => clean (same ▸ member)
    rw [if_neg other]
  obtain ⟨left, right, rfl⟩ := part
  rw [single, replaceText_single, List.flatMap_append, List.flatMap_append, same, List.flatMap_singleton']
  exact ⟨_, _, rfl⟩

theorem sentencesOf_keeps {word : KString} (nonempty : word ≠ [])
    (clean : ∀ c ∈ word, isWhitespace c = false ∧ c ≠ 0x85) (part : word <:+: source) :
    ∃ sentence ∈ sentencesOf source, word <:+: sentence := by
  have newline : ch '\n' ∉ word := by
    intro member
    have white := (clean _ member).1
    revert white
    decide
  have breaks : Regex.Within utf16 (fun c => isWhitespace c = true ∨ c = 0x85) sentenceEnd := by
    refine ⟨True.intro, within_space ?_⟩
    intro c space
    rcases Platform.isSpace_whitespace c.toNat space with white | next
    · exact Or.inl white
    · exact Or.inr (UInt16.toNat_inj.mp next)
  have outside : ∀ c ∈ word, ¬ (isWhitespace c = true ∨ c = 0x85) := by
    rintro c member (white | next)
    · rw [(clean c member).1] at white
      cases white
    · exact (clean c member).2 next
  have width : 0 < Regex.leastWidth sentenceEnd := Nat.one_pos
  obtain ⟨piece, split, inside⟩ := Regex.split_keeps breaks width outside (newline_keeps newline part)
  have kept : word <:+: trim piece := trimBy_keeps (fun c member => (clean c member).1) inside
  refine ⟨trim piece, List.mem_filter.mpr ⟨List.mem_map.mpr ⟨piece, split, rfl⟩, ?_⟩, kept⟩
  obtain ⟨c, word, rfl⟩ := List.exists_cons_of_ne_nil nonempty
  have member : c ∈ trim piece := kept.subset List.mem_cons_self
  rw [isNotBlank, Bool.not_eq_true', ← Bool.not_eq_true, isBlank_iff]
  intro blank
  have white := (clean c List.mem_cons_self).1
  rw [blank c member] at white
  cases white

theorem gelernt_found (basic : IsBasicText source) (said : contains (lowercase source) (txt "gelernt") = true) :
    (findSentenceAfterKeywords source learningKeywords).isSome = true := by
  rw [contains_iff, lowercase_basic basic] at said
  obtain ⟨word, part, lowered⟩ := List.infix_map_iff.mp said
  have letters : ∀ c ∈ word, isWhitespace c = false ∧ c ≠ 0x85 := by
    intro c member
    have low : lowerChar c ∈ txt "gelernt" := by
      rw [lowered]
      exact List.mem_map_of_mem member
    revert low
    apply forall_basic (fun c => lowerChar c ∈ txt "gelernt" → isWhitespace c = false ∧ c ≠ 0x85) _
      (basic c (part.subset member))
    decide +kernel
  have nonempty : word ≠ [] := by
    intro none
    rw [none] at lowered
    revert lowered
    decide
  obtain ⟨sentence, member, inside⟩ := sentencesOf_keeps nonempty letters part
  have basicSentence : IsBasicText sentence := (sentence_excerpt basic member).1
  have hit : contains (lowercase sentence) (txt "gelernt") = true := by
    rw [contains_iff, lowercase_basic basicSentence, lowered]
    exact inside.map lowerChar
  rw [findSentenceAfterKeywords, Option.isSome_map, List.find?_isSome]
  refine ⟨sentence, member, ?_⟩
  rw [List.any_eq_true]
  exact ⟨txt "gelernt", by decide, hit⟩

theorem sentenceAfterKeywords_cut {keywords : List KString}
    (found : findSentenceAfterKeywords source keywords = some value) :
    ∃ sentence ∈ sentencesOf source, value = sentence.take 220 := by
  obtain ⟨sentence, first, rfl⟩ := Option.map_eq_some_iff.mp found
  exact ⟨sentence, List.mem_of_find?_eq_some first, rfl⟩

theorem learning_cut (basic : IsBasicText source) : extractForQuestion (txt "learning") source = [] ∨
    ∃ sentence ∈ sentencesOf source, extractForQuestion (txt "learning") source = sentence.take 220 := by
  unfold extractForQuestion
  dsimp only
  split
  · exact Or.inl rfl
  · rw [if_neg (by decide), if_neg (by decide), if_pos rfl]
    cases keyword : findSentenceAfterKeywords source learningKeywords with
    | some sentence =>
      right
      rw [Option.some_or, Option.getD_some]
      exact sentenceAfterKeywords_cut keyword
    | none =>
      rw [Option.none_or]
      cases intention : (sentencesOf source).find? fun sentence =>
          intentions.any fun intention => contains (lowercase sentence) intention with
      | some sentence => exact Or.inr ⟨sentence, List.mem_of_find?_eq_some intention, rfl⟩
      | none =>
        left
        have unsaid : contains (lowercase source) (txt "gelernt") = false := by
          by_contra said
          have found := gelernt_found basic (by simpa using said)
          rw [keyword] at found
          cases found
        rw [Option.map_none, Option.getD_none, unsaid]
        rfl

theorem firstGroup_excerpt {pattern : Pattern} (basic : IsBasicText source)
    (found : findFirstGroup source pattern = some value) : Excerpt source value := by
  obtain ⟨located, search, rfl⟩ := Option.map_eq_some_iff.mp found
  have captured : Excerpt source (groupValue located 1) := .of_part basic (groupValue_part search 1)
  exact captured.part ((trimEndChars_part _ _).trans (trim_part _))

theorem extractForQuestion_excerpt (basic : IsBasicText source) (id : KString) :
    Excerpt source (extractForQuestion id source) := by
  have nothing : Excerpt source [] := .of_part basic List.nil_infix
  by_cases learning : id = txt "learning"
  · rw [learning]
    rcases learning_cut basic with none | ⟨sentence, member, cut⟩
    · rw [none]
      exact nothing
    · rw [cut]
      exact (sentence_excerpt basic member).take 220
  · unfold extractForQuestion
    dsimp only
    split
    · exact nothing
    · split
      · cases name : findFirstGroup source introduction with
        | none => exact nothing
        | some value => exact firstGroup_excerpt basic name
      · split
        · cases keyword : findSentenceAfterKeywords source problemKeywords with
          | some value =>
            obtain ⟨sentence, member, rfl⟩ := sentenceAfterKeywords_cut keyword
            exact (sentence_excerpt basic member).take 220
          | none =>
            cases longest : maxByOrNull (fun sentence : KString => (sentence.length : Int)) (sentencesOf source) with
            | none => exact nothing
            | some sentence => exact (sentence_excerpt basic (mem_of_maxByOrNull longest)).take 220
        · exact nothing

theorem keywordAnswers_excerpt (basic : IsBasicText source) (definition : FormDefinition) {id : KString}
    (found : (keywordAnswers definition source).get? id = some value) : Excerpt source value := by
  obtain ⟨question, _, kept⟩ := List.mem_filterMap.mp (LinkedMap.mem_of_get?_ofPairs found)
  dsimp only at kept
  split at kept
  · cases kept
  · cases kept
    exact extractForQuestion_excerpt basic question.id

end Keyword

end Form
