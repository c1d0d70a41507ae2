import TranscriptForm.Form.Balanced
import TranscriptForm.Form.InlineAnswers

namespace Form

open Kotlin Regex OnDeviceLlm Pattern

theorem extractBalancedJsonObjects_cut {text cut : KString} (object : IsObjectText text) (start : cut <+: text)
    (proper : cut ≠ text) : extractBalancedJsonObjects cut = [] := by
  obtain ⟨rest, rfl⟩ := start
  have whole : extractBalancedJsonObjects (cut ++ rest) = [cut ++ rest] := by
    rw [extractBalancedJsonObjects, object.balanced]
  have completed : extractBalancedJsonObjects cut <+: [cut ++ rest] := by
    rw [← whole, extractBalancedJsonObjects_eq_blocks, extractBalancedJsonObjects_eq_blocks]
    exact Blocks.blocks_append cut rest
  have short : ∀ object ∈ extractBalancedJsonObjects cut, object.length ≤ cut.length := by
    intro object member
    rw [extractBalancedJsonObjects_eq_blocks] at member
    exact (Blocks.blocks_infix member).length_le
  cases found : extractBalancedJsonObjects cut with
  | nil => rfl
  | cons first others =>
    rw [found] at completed short
    have same : first = cut ++ rest := (List.cons_prefix_cons.mp completed).1
    have bound := short first List.mem_cons_self
    rw [same, List.length_append] at bound
    have nothing : rest = [] := List.length_eq_zero_iff.mp (by omega)
    exact absurd (by rw [nothing, List.append_nil]) proper

section Cut

variable {text left right raw : KString}

theorem cut_not_object (object : IsObjectText text) (start : raw <+: text) (proper : raw ≠ text) :
    ¬ IsObjectText raw := by
  intro complete
  have one : extractBalancedJsonObjects raw = [raw] := by
    rw [extractBalancedJsonObjects, complete.balanced]
  rw [extractBalancedJsonObjects_cut object start proper] at one
  cases one

theorem trim_cut (object : IsObjectText text) (leftSpace : ∀ c ∈ left, isJsonSpace c = true)
    (rightSpace : ∀ c ∈ right, isJsonSpace c = true) (cut : raw <+: left ++ (text ++ right)) : trim raw <+: text := by
  have space : ∀ c ∈ left, isWhitespace c = true := fun c member => isWhitespace_jsonSpace (leftSpace c member)
  rcases List.prefix_or_prefix_of_prefix cut (List.prefix_append left _) with inside | ⟨part, rfl⟩
  · have blank : isBlank raw = true := (isBlank_iff raw).mpr fun c member => space c (inside.subset member)
    rw [trim_of_blank blank]
    exact List.nil_prefix
  · have part_cut : part <+: text ++ right := (List.prefix_append_right_inj left).mp cut
    rcases List.prefix_or_prefix_of_prefix part_cut (List.prefix_append text right) with inside | ⟨ending, rfl⟩
    · have padded : trim (left ++ (part ++ [])) = trim part := trimBy_padded space (by simp) part
      rw [List.append_nil] at padded
      rw [padded]
      obtain ⟨inner, rfl⟩ := object.braces
      cases part with
      | nil => exact List.nil_prefix
      | cons c part =>
        have brace : c = ch '{' := (List.cons_prefix_cons.mp inside).1
        exact (trim_starts (by rw [brace]; decide) part).trans inside
    · have among : ending <+: right := (List.prefix_append_right_inj text).mp part_cut
      have whole : trim (left ++ (text ++ ending)) = text :=
        object.trim_eq leftSpace fun c member => rightSpace c (among.subset member)
      rw [whole]

end Cut

namespace Android

variable [Platform] {json : JsonParser} {definition : FormDefinition} {answers parsed : Answers} {raw s : KString}

def TruncationHarmless (json : JsonParser) (definition : FormDefinition) (answers : Answers) (raw : KString) : Prop :=
  ∃ found, extractAnswers json definition raw = .ok found ∧ ∀ key value, found.get? key = some value →
    ∃ whole, answers.get? key = some whole ∧ value <+: whole

/-- A match that may become an answer: its key is a field's and its value is not cleaned away. -/
def Counts (definition : FormDefinition) (valueOf : Regex.Match KChar → KString) (found : Regex.Match KChar) : Prop :=
  isBlank (trimLlmEdgeArtifacts (valueOf found)) = false ∧ (mappedId definition (keyOf found)).isSome = true

/-- A match that starts at a member of the answers whose value is closed, and takes its key. -/
def ReadsMember (definition : FormDefinition) (answers : Answers) (found : Regex.Match KChar) : Prop :=
  ∃ key left right whole post, found.value ++ found.after = memberText key left right whole post ∧
    (∀ c ∈ left, isJsonSpace c = true) ∧ (∀ c ∈ right, isJsonSpace c = true) ∧ ch '"' ∉ key ∧
    groupValue found 1 = key ∧ mappedId definition (keyOf found) = some key ∧ answers.get? key = some whole

structure ReadsMembersOnly (definition : FormDefinition) (answers : Answers) (text : KString) : Prop where
  lines : ∀ found ∈ findAll (lineAnswer definition) text, ¬ Counts definition lineValue found
  inline : (∀ found ∈ findAll (lineAnswer definition) text, isBlank (lineValue found) = true) →
    ∀ found ∈ findAll (inlineAnswer definition) text, Counts definition inlineValue found →
      ReadsMember definition answers found
  fences : (parseKeyValueFallback definition text).isEmpty = true → findAll fencedObject text = []

structure PlainValues (answers : Answers) : Prop where
  filled : ∀ value ∈ answers.values, isBlank value = false
  kept : ∀ value ∈ answers.values, trimLlmEdgeArtifacts value = value
  noQuote : ∀ value ∈ answers.values, ch '"' ∉ value
  noBackslash : ∀ value ∈ answers.values, ch '\\' ∉ value

structure CutIsClean (definition : FormDefinition) (answers : Answers) (s raw : KString) : Prop where
  whole : trim raw = trim s → (∀ key ∈ answers.keys, mappedId definition key = some key) ∧
    (answers.isEmpty = true → findAll fencedObject (trim s) = [])
  cut : trim raw ≠ trim s → ReadsMembersOnly definition answers (trim raw)

theorem extractAnswers_first (filled : isBlank (trim raw) = false)
    (first : parseAnswersCandidate json definition (trim raw) = .ok parsed)
    (noFence : parsed.isEmpty = true → findAll fencedObject (trim raw) = [])
    (balanced : ∀ object ∈ extractBalancedJsonObjects (trim raw), object = trim raw) :
    extractAnswers json definition raw = .ok parsed := by
  unfold extractAnswers buildJsonCandidates
  dsimp only
  rw [filled, if_neg (by decide), List.eraseDups_cons, firstAnswers, first]
  dsimp only
  split
  · rename_i empty
    have others : (extractBalancedJsonObjects (trim raw)).filter (fun other => !other == trim raw) = [] := by
      refine List.filter_eq_nil_iff.mpr fun object member => ?_
      rw [balanced object member]
      simp
    rw [noFence empty, List.map_nil, List.nil_append, others, (LinkedMap.isEmpty_iff parsed).mp empty]
    rfl
  · rfl

theorem mem_collected {valueOf : Regex.Match KChar → KString} {matched : List (Regex.Match KChar)} {key value : KString}
    (found : (normalizeAnswers definition (collectAnswers valueOf matched)).get? key = some value) :
    ∃ reading ∈ matched, trimLlmEdgeArtifacts (valueOf reading) = value ∧ isBlank value = false ∧
      mappedId definition (keyOf reading) = some key := by
  unfold normalizeAnswers normalizeAnswersWith at found
  split at found
  · cases found
  · obtain ⟨⟨rawKey, rawValue⟩, member, kept⟩ := List.mem_filterMap.mp (LinkedMap.mem_of_get?_ofPairs found)
    dsimp only at kept
    split at kept
    · cases kept
    · rename_i filled
      obtain ⟨id, mapped, same⟩ := Option.map_eq_some_iff.mp kept
      obtain ⟨rfl, cleaned⟩ := Prod.mk.inj same
      have collected := LinkedMap.mem_of_get?_ofPairs ((LinkedMap.get?_eq_some_iff _).mpr member)
      obtain ⟨reading, taken, same⟩ := List.mem_map.mp (List.mem_filter.mp collected).1
      obtain ⟨rfl, rfl⟩ := Prod.mk.inj same
      exact ⟨reading, taken, cleaned, by rw [← cleaned]; simpa using filled, mapped⟩

theorem collectAnswers_isEmpty {valueOf : Regex.Match KChar → KString} {matched : List (Regex.Match KChar)}
    (none : (collectAnswers valueOf matched).isEmpty = true) : ∀ reading ∈ matched, isBlank (valueOf reading) = true := by
  intro reading member
  unfold collectAnswers LinkedMap.ofPairs at none
  rw [LinkedMap.isEmpty_putAll, Bool.and_eq_true, List.isEmpty_iff] at none
  have blank := List.filter_eq_nil_iff.mp none.2 _ (List.mem_map_of_mem member)
  simpa [isNotBlank] using blank

theorem trimLlmEdgeArtifacts_trim (value : KString) : trimLlmEdgeArtifacts (trim value) = trimLlmEdgeArtifacts value := by
  unfold trimLlmEdgeArtifacts
  rw [trim_trim]

theorem inlineValue_member {text key left right whole post : KString} {found : Regex.Match KChar}
    (member : found ∈ findAll (inlineAnswer definition) text)
    (memberAt : found.value ++ found.after = memberText key left right whole post) (named : groupValue found 1 = key)
    (leftSpace : ∀ c ∈ left, isJsonSpace c = true) (rightSpace : ∀ c ∈ right, isJsonSpace c = true)
    (keyClean : ch '"' ∉ key) (noQuote : ch '"' ∉ whole) (noBackslash : ch '\\' ∉ whole)
    (filled : isBlank whole = false) : inlineValue found = trim whole := by
  obtain ⟨before, stop, first, groups⟩ := findAll_first member
  have captured : stop.groups.lookup 2 = some whole := by
    refine inlineAnswer_member first memberAt ?_ keyClean noQuote noBackslash leftSpace rightSpace
    rw [groups]
    exact named
  rw [groups] at captured
  have notBlank : isNotBlank whole = true := by simp [isNotBlank, filled]
  simp only [inlineValue, groupValue, Regex.Match.group, captured, Option.getD_some, List.find?_cons, notBlank]

theorem readsMember_value {text key value : KString} {found : Regex.Match KChar} (plain : PlainValues answers)
    (member : found ∈ findAll (inlineAnswer definition) text) (reads : ReadsMember definition answers found)
    (mapped : mappedId definition (keyOf found) = some key) (cleaned : trimLlmEdgeArtifacts (inlineValue found) = value) :
    answers.get? key = some value := by
  obtain ⟨name, left, right, whole, post, memberAt, leftSpace, rightSpace, keyClean, named, id, stored⟩ := reads
  rw [id] at mapped
  obtain rfl := Option.some.inj mapped
  have among : whole ∈ answers.values := List.mem_map_of_mem ((LinkedMap.get?_eq_some_iff answers).mp stored)
  have chosen : inlineValue found = trim whole :=
    inlineValue_member member memberAt named leftSpace rightSpace keyClean (plain.noQuote whole among)
      (plain.noBackslash whole among) (plain.filled whole among)
  rw [stored, ← cleaned, chosen, trimLlmEdgeArtifacts_trim, plain.kept whole among]

theorem parseKeyValueFallback_members {text key value : KString} (plain : PlainValues answers)
    (only : ReadsMembersOnly definition answers text)
    (found : (parseKeyValueFallback definition text).get? key = some value) : answers.get? key = some value := by
  unfold parseKeyValueFallback at found
  split at found
  · cases found
  · dsimp only at found
    split at found
    · obtain ⟨reading, member, cleaned, filled, mapped⟩ := mem_collected found
      exact absurd ⟨by rw [cleaned]; exact filled, by rw [mapped]; rfl⟩ (only.lines reading member)
    · rename_i noLines
      obtain ⟨reading, member, cleaned, filled, mapped⟩ := mem_collected found
      have blank := collectAnswers_isEmpty (by simpa using noLines)
      have counts : Counts definition inlineValue reading := ⟨by rw [cleaned]; exact filled, by rw [mapped]; rfl⟩
      exact readsMember_value plain member (only.inline blank reading member counts) mapped cleaned

theorem extractAnswers_whole (plain : PlainValues answers) (encodes : Encodes json answers s)
    (reads : ReadsObjects json) (clean : CutIsClean definition answers s raw) (same : trim raw = trim s) :
    extractAnswers json definition raw = .ok answers := by
  obtain ⟨mapped, noFence⟩ := clean.whole same
  have object := reads.decoded s answers encodes.decoded
  have normalized := normalizeAnswers_kept mapped plain.filled plain.kept
  rw [← same] at object noFence
  have first : parseAnswersCandidate json definition (trim raw) = .ok answers := by
    rw [parse_object object (by rw [same]; exact encodes.decoded), normalized]
  refine extractAnswers_first object.isBlank first noFence ?_
  rw [extractBalancedJsonObjects, object.balanced]
  simp

theorem extractAnswers_cut (encodes : Encodes json answers s) (reads : ReadsObjects json)
    (only : ReadsMembersOnly definition answers (trim raw)) (cut : raw <+: s) (proper : trim raw ≠ trim s)
    (filled : isBlank (trim raw) = false) :
    extractAnswers json definition raw = .ok (parseKeyValueFallback definition (trim raw)) := by
  have object := reads.decoded s answers encodes.decoded
  obtain ⟨left, right, split, leftSpace, rightSpace⟩ := encodes.padded
  have start : trim raw <+: trim s := trim_cut object leftSpace rightSpace (by rw [← split]; exact cut)
  have first : parseAnswersCandidate json definition (trim raw) = .ok (parseKeyValueFallback definition (trim raw)) := by
    have parsed : ¬ IsObjectText (trim (trim raw)) → isBlank (trim (trim raw)) = false →
        parseAnswersCandidate json definition (trim raw) = .ok (parseKeyValueFallback definition (trim (trim raw))) :=
      parse_text reads
    rw [trim_trim] at parsed
    exact parsed (cut_not_object object start proper) filled
  refine extractAnswers_first filled first only.fences ?_
  rw [extractBalancedJsonObjects_cut object start proper]
  simp

theorem truncation_harmless (reads : ReadsObjects json) (plain : PlainValues answers)
    (encodes : Encodes json answers s) (cut : raw <+: s) (clean : CutIsClean definition answers s raw) :
    TruncationHarmless json definition answers raw := by
  by_cases same : trim raw = trim s
  · exact ⟨answers, extractAnswers_whole plain encodes reads clean same, fun key value found =>
      ⟨value, found, List.prefix_rfl⟩⟩
  · have only := clean.cut same
    cases filled : isBlank (trim raw) with
    | true =>
      refine ⟨.empty, ?_, by simp⟩
      unfold extractAnswers buildJsonCandidates
      dsimp only
      rw [if_pos filled]
      rfl
    | false =>
      refine ⟨_, extractAnswers_cut encodes reads only cut same filled, fun key value found => ?_⟩
      exact ⟨value, parseKeyValueFallback_members plain only found, List.prefix_rfl⟩

section Compact

omit [Platform]

def compactAnna : KString := txt "\x7b\"answers\":\x7b\"name\":\"Anna\"\x7d\x7d"

def compactJson : JsonParser := oneTextJson compactAnna anna

theorem compactAnna_object : IsObjectText compactAnna where
  braces := ⟨(compactAnna.drop 1).dropLast, by decide +kernel⟩
  balanced := by decide +kernel

theorem anna_plainValues :
    letI := basicPlatform
    PlainValues anna := by
  let characters := basicPlatform
  have values : anna.values = [txt "Anna"] := by decide +kernel
  constructor <;> rw [values] <;> simp only [List.forall_mem_singleton] <;> decide +kernel

def closedCut : KString := txt "\x7b\"answers\":\x7b\"name\":\"Anna\""

def openCut : KString := txt "\x7b\"answers\":\x7b\"name\":\"An"

theorem closedCut_clean :
    letI := basicPlatform
    CutIsClean DefaultFormDefinitionProvider.questions anna compactAnna closedCut := by
  let characters := basicPlatform
  have proper : trim closedCut ≠ trim compactAnna := by decide +kernel
  have noLines : findAll (lineAnswer DefaultFormDefinitionProvider.questions) (trim closedCut) = [] :=
    List.isEmpty_iff.mp (by decide +kernel)
  have members : (findAll (inlineAnswer DefaultFormDefinitionProvider.questions) (trim closedCut)).all (fun found =>
      decide (found.value ++ found.after = memberText (txt "name") [] [] (txt "Anna") [] ∧
        groupValue found 1 = txt "name" ∧
        mappedId DefaultFormDefinitionProvider.questions (keyOf found) = some (txt "name"))) = true := by
    decide +kernel
  have nonempty : (parseKeyValueFallback DefaultFormDefinitionProvider.questions (trim closedCut)).isEmpty = false := by
    decide +kernel
  refine ⟨fun same => absurd same proper, fun _ => ⟨by simp [noLines], ?_, by simp [nonempty]⟩⟩
  intro _ found member _
  obtain ⟨start, key, mapped⟩ := of_decide_eq_true (List.all_eq_true.mp members found member)
  exact ⟨txt "name", [], [], txt "Anna", [], start, by simp, by simp, by decide, key, mapped, by decide +kernel⟩

theorem truncation_harmless_closed :
    letI := basicPlatform
    TruncationHarmless compactJson DefaultFormDefinitionProvider.questions anna closedCut :=
  letI := basicPlatform
  truncation_harmless (oneTextJson_readsObjects compactAnna_object) anna_plainValues
    (oneTextJson_encodes compactAnna_object)
    (List.isPrefixOf_iff_prefix.mp (by decide +kernel)) closedCut_clean

/-- A value cut off is read with the quote in front of it. -/
theorem truncation_keeps_quote :
    letI := basicPlatform
    Encodes compactJson anna compactAnna ∧ PlainValues anna ∧ openCut <+: compactAnna ∧
      ¬ TruncationHarmless compactJson DefaultFormDefinitionProvider.questions anna openCut := by
  let characters := basicPlatform
  refine ⟨oneTextJson_encodes compactAnna_object, anna_plainValues, List.isPrefixOf_iff_prefix.mp (by decide +kernel), ?_⟩
  have misread : extractedValue (extractAnswers compactJson DefaultFormDefinitionProvider.questions openCut)
      (txt "name") = some (txt "\"An") := by decide +kernel
  have value : anna.get? (txt "name") = some (txt "Anna") := by decide +kernel
  rintro ⟨found, extracted, beginnings⟩
  rw [extracted] at misread
  obtain ⟨whole, stored, start⟩ := beginnings _ _ misread
  rw [value] at stored
  rw [← Option.some.inj stored] at start
  exact absurd (List.isPrefixOf_iff_prefix.mpr start) (by decide +kernel)

end Compact

end Android

end Form
