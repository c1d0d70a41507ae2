import TranscriptForm.Form.Evidence
import TranscriptForm.Library.Words

namespace Form.Ios

open Kotlin Words

/-- A word that says something: long enough and no stop word. -/
def isContent (word : KString) : Bool := 3 ≤ word.length && !evidenceStopWords.contains word

/-- A unit as a letter of a word, or nothing where it separates words. -/
def letter (c : KChar) : Option KChar := if isKeyUnit c then some c else none

theorem letter_whitespace {c : KChar} (space : isWhitespace c = true) : letter c = none := by
  rw [letter, isKeyUnit_whitespace space]
  rfl

theorem letter_notKey {c : KChar} (notKey : Pattern.isNotKeyCode c.toNat = true) : letter c = none := by
  simp [letter, isKeyUnit, notKey]

section Tokens

variable [Platform]

theorem letter_space {c : KChar} (space : Platform.isSpace c.toNat = true) : letter c = none := by
  rcases Platform.isSpace_whitespace c.toNat space with white | next
  · exact letter_whitespace white
  · have same : c = 0x85 := UInt16.toNat_inj.mp next
    rw [same]
    decide

theorem evidence_words (value : KString) : words ((normalizeTextForEvidence value).map letter) =
    words ((replaceUmlauts (lowercase value)).map letter) := by
  have notKeys : ∀ text : KString, words ((replace (.plus notKey) (txt " ") text).map letter) =
      words (text.map letter) :=
    words_replace notKey_unitWise.eats_runs.within Nat.one_pos letter (fun _ => letter_notKey) (by decide) (by decide)
  have reads : Regex.Within utf16 (fun c => Platform.isSpace c.toNat = true) (Pattern.plus Pattern.space) :=
    within_space fun _ space => space
  have spaces : ∀ text : KString, words ((replace (.plus .space) (txt " ") text).map letter) =
      words (text.map letter) :=
    words_replace reads Nat.one_pos letter (fun _ => letter_space) (by decide) (by decide)
  have trimmed : ∀ text : KString, words ((trim text).map letter) = words (text.map letter) := by
    intro text
    obtain ⟨left, right, split, leftBlank, rightBlank⟩ := trim_split text
    have separators : ∀ part : KString, (∀ c ∈ part, isWhitespace c = true) →
        ∀ unit ∈ part.map letter, unit = none := by
      intro part blank unit member
      obtain ⟨c, inside, rfl⟩ := List.mem_map.mp member
      exact letter_whitespace (blank c inside)
    conv_rhs => rw [split]
    rw [List.map_append, List.map_append, words_trim (separators left leftBlank) (separators right rightBlank)]
  unfold normalizeTextForEvidence
  rw [trimmed, spaces, notKeys]

theorem evidence_units {value : KString} {c : KChar} (member : c ∈ normalizeTextForEvidence value) :
    isKeyUnit c = true ∨ c = ch ' ' := by
  have single : ∀ d ∈ txt " ", d = ch ' ' := by
    intro d inside
    exact List.mem_singleton.mp inside
  rcases Regex.replace_units ((trim_part _).subset member) with space | earlier
  · exact Or.inr (single c space)
  · rcases notKey_unitWise.eats_runs.replace_misses earlier with space | key
    · exact Or.inr (single c space)
    · exact Or.inl (by simpa [isKeyUnit] using key)

omit [Platform] in
theorem splitChar_words {text : KString} (units : ∀ c ∈ text, isKeyUnit c = true ∨ c = ch ' ') :
    (splitChar (ch ' ') text).flatMap flush = words (text.map letter) := by
  have from_word : ∀ (text word : KString), (∀ c ∈ text, isKeyUnit c = true ∨ c = ch ' ') →
      ∀ piece pieces, splitChar (ch ' ') text = piece :: pieces →
      flush (word ++ piece) ++ pieces.flatMap flush = wordsFrom word (text.map letter) := by
    intro text
    induction text with
    | nil =>
      intro word _ piece pieces shape
      cases shape
      simp [wordsFrom]
    | cons c text ih =>
      intro word units piece pieces shape
      obtain ⟨first, rest, later⟩ := List.exists_cons_of_ne_nil (splitChar_ne_nil (ch ' ') text)
      have tail : ∀ d ∈ text, isKeyUnit d = true ∨ d = ch ' ' := fun d member => units d (List.mem_cons_of_mem _ member)
      by_cases space : c = ch ' '
      · rw [space, splitChar_cons_delimiter, later] at shape
        cases shape
        have separator : letter c = none := by
          rw [space]
          decide
        have next := ih [] tail _ _ later
        rw [List.nil_append] at next
        rw [List.map_cons, separator, wordsFrom, ← next, List.append_nil, List.flatMap_cons]
      · rw [splitChar_cons space later] at shape
        cases shape
        have key : isKeyUnit c = true := (units c List.mem_cons_self).resolve_right space
        have read : letter c = some c := if_pos key
        rw [List.map_cons, read, wordsFrom, ← ih (word ++ [c]) tail _ _ later, List.append_assoc]
        rfl
  obtain ⟨piece, pieces, shape⟩ := List.exists_cons_of_ne_nil (splitChar_ne_nil (ch ' ') text)
  have whole := from_word text [] units piece pieces shape
  rw [List.nil_append] at whole
  rw [shape, List.flatMap_cons]
  exact whole

theorem evidence_pieces (value : KString) : (splitChar (ch ' ') (normalizeTextForEvidence value)).map trim =
    splitChar (ch ' ') (normalizeTextForEvidence value) := by
  have plain : ∀ piece ∈ splitChar (ch ' ') (normalizeTextForEvidence value), trim piece = id piece := by
    intro piece member
    apply trim_plain
    intro c inside
    rcases evidence_units ((splitChar_part member).subset inside) with key | space
    · by_contra white
      have none := isKeyUnit_whitespace (by simpa using white)
      rw [key] at none
      cases none
    · exact absurd (space ▸ inside) (splitChar_free member)
  rw [List.map_congr_left plain, List.map_id]

theorem tokens_words (value : KString) : tokenizeForEvidence value =
    (words ((replaceUmlauts (lowercase value)).map letter)).filter isContent := by
  have contents : ∀ pieces : List KString,
      pieces.filter isContent = (pieces.flatMap flush).filter isContent := by
    intro pieces
    induction pieces with
    | nil => rfl
    | cons piece pieces ih =>
      rw [List.flatMap_cons, List.filter_append, ← ih]
      cases piece with
      | nil => rfl
      | cons c piece => exact List.filter_append [c :: piece] pieces
  rw [← evidence_words, ← splitChar_words fun _ => evidence_units, ← contents]
  unfold tokenizeForEvidence
  dsimp only
  rw [evidence_pieces, List.filter_filter]
  apply List.filter_congr
  intro piece _
  exact Bool.and_comm _ _

def codeLetters (code : Nat) : List (Option KChar) :=
  (lowerEach code).flatMap fun low => (encode low).flatMap fun c => (umlaut c).map letter

theorem letters_codes (text : KString) :
    (replaceUmlauts (lowercase text)).map letter = (codePoints text).flatMap codeLetters := by
  rw [replaceUmlauts_eq, List.map_flatMap]
  exact lowercase_observed (fun c => (umlaut c).map letter) (by decide) text

theorem codeLetters_whitespace {c : KChar} (space : isWhitespace c = true) : codeLetters c.toNat = [none] := by
  rw [codeLetters, whitespace_lowered (fun c => (umlaut c).map letter) space, umlaut_whitespace space, List.map_singleton,
    letter_whitespace space]

theorem letters_trim (value : KString) :
    words ((replaceUmlauts (lowercase (trim value))).map letter) = words ((replaceUmlauts (lowercase value)).map letter) := by
  obtain ⟨left, right, split, leftBlank, rightBlank⟩ := trim_split value
  have separators : ∀ part : KString, (∀ c ∈ part, isWhitespace c = true) →
      ∀ unit ∈ (codePoints part).flatMap codeLetters, unit = none := by
    intro part blank unit member
    rw [codePoints_plain fun c inside => whitespace_plain (blank c inside), List.flatMap_map] at member
    obtain ⟨c, inside, member⟩ := List.mem_flatMap.mp member
    rw [codeLetters_whitespace (blank c inside)] at member
    exact List.mem_singleton.mp member
  have parted : codePoints value = codePoints left ++ codePoints (trim value) ++ codePoints right := by
    conv_lhs => rw [split]
    rw [codePoints_plain_append _ fun c inside => whitespace_plain (rightBlank c inside),
      codePoints_append_plain _ fun c inside => whitespace_plain (leftBlank c inside)]
  rw [letters_codes, letters_codes, parted, List.flatMap_append, List.flatMap_append,
    words_trim (separators left leftBlank) (separators right rightBlank)]

theorem tokens_trim (value : KString) : tokenizeForEvidence (trim value) = tokenizeForEvidence value := by
  rw [tokens_words, tokens_words, letters_trim]

end Tokens

section Parts

variable [Platform]

theorem isSpace_blank : Platform.isSpace (ch ' ').toNat = true :=
  (Platform.isSpace_ascii _ (by decide)).mpr (Or.inr (by decide))

theorem replace_spaces_apart (text : KString) : (replace (.plus .space) (txt " ") text).IsChain fun left right =>
    ¬(Platform.isSpace left.toNat = true ∧ Platform.isSpace right.toNat = true) := by
  unfold replace
  exact space_unitWise.replace_runs_apart (ch ' ') text

omit [Platform] in
theorem trim_edges (text : KString) : (trim text).head? ≠ some (ch ' ') ∧ (trim text).getLast? ≠ some (ch ' ') := by
  have whitespace : isWhitespace (ch ' ') = true := by decide
  constructor
  · intro head
    have visible := trimBy_first text (ch ' ') head
    rw [whitespace] at visible
    cases visible
  · intro last
    have visible := trimBy_last text (ch ' ') last
    rw [whitespace] at visible
    cases visible

theorem normalizeTextForEvidence_words (value : KString) : normalizeTextForEvidence value =
    List.intercalate [ch ' '] (words ((replaceUmlauts (lowercase value)).map letter)) := by
  have units : ∀ unit ∈ normalizeTextForEvidence value, letter unit = some unit ∨ unit = ch ' ' := by
    intro unit member
    exact (evidence_units member).imp_left fun key => if_pos key
  have apart : (normalizeTextForEvidence value).IsChain fun left right => ¬(left = ch ' ' ∧ right = ch ' ') := by
    unfold normalizeTextForEvidence
    have squeezed := fun text => List.IsChain.infix (replace_spaces_apart text) (trim_part _)
    refine List.IsChain.imp ?_ (squeezed _)
    rintro left right apart ⟨rfl, rfl⟩
    exact apart ⟨isSpace_blank, isSpace_blank⟩
  have edges : (normalizeTextForEvidence value).head? ≠ some (ch ' ') ∧
      (normalizeTextForEvidence value).getLast? ≠ some (ch ' ') := trim_edges _
  have blind : letter (ch ' ') = none := letter_whitespace (by decide)
  have joined := intercalate_wordsFrom blind [] units apart (fun _ => edges.1) edges.2
  rw [List.nil_append] at joined
  rw [← evidence_words]
  exact joined.symm

theorem codeLetters_surrogate {c : KChar} (surrogate : isSurrogate c.toNat = true) : codeLetters c.toNat = [none] := by
  have blind : letter c = none := letter_notKey (isNotKeyCode_uniform _ (Or.inl surrogate))
  rw [codeLetters, surrogate_lowered (fun c => (umlaut c).map letter) surrogate, umlaut_surrogate surrogate,
    List.map_singleton, blind]

theorem tokens_blank (front back : KString) : tokenizeForEvidence (front ++ (txt " " ++ back)) =
    tokenizeForEvidence front ++ tokenizeForEvidence back := by
  have separates : codeLetters 0x20 = [none] := codeLetters_whitespace (c := ch ' ') (by decide)
  simp only [tokens_words, letters_codes, codePoints_blank]
  rw [List.flatMap_append, List.flatMap_cons, separates, List.singleton_append, words_append_none, List.filter_append]

theorem tokens_join (parts : List KString) :
    tokenizeForEvidence (joinToString (txt " ") parts) = parts.flatMap tokenizeForEvidence := by
  induction parts with
  | nil =>
    rw [tokens_words]
    rfl
  | cons first rest ih =>
    cases rest with
    | nil => rw [joinToString_single, List.flatMap_singleton]
    | cons second rest =>
      rw [joinToString_cons_cons, tokens_blank, ih]
      rfl

/-- The letters of two texts are those of the joined text, but for what is lost at the cut. -/
theorem letters_cut (front back : KString) : ∃ first gap last left right : List (Option KChar),
    (replaceUmlauts (lowercase (front ++ back))).map letter = first ++ gap ++ last ∧
      (replaceUmlauts (lowercase front)).map letter = first ++ left ∧
      (replaceUmlauts (lowercase back)).map letter = right ++ last ∧
      (∀ unit ∈ left, unit = none) ∧ ∀ unit ∈ right, unit = none := by
  simp only [letters_codes]
  rcases codePoints_cut front back with whole | ⟨first, last, high, low, rfl, rfl, pair, frontCodes, backCodes, codes⟩
  · refine ⟨_, [], _, [], [], ?_, (List.append_nil _).symm, rfl, by simp, by simp⟩
    rw [whole, List.flatMap_append, List.append_nil]
    rfl
  · have surrogates := isPair_surrogates pair
    refine ⟨(codePoints first).flatMap codeLetters, codeLetters (pairCode high low), (codePoints last).flatMap codeLetters,
      [none], [none], ?_, ?_, ?_, by simp, by simp⟩
    · rw [codes, List.flatMap_append, List.flatMap_cons, List.append_assoc]
    · rw [frontCodes, List.flatMap_append, List.flatMap_cons, List.flatMap_nil, List.append_nil,
        codeLetters_surrogate surrogates.1]
    · rw [backCodes, List.flatMap_cons, codeLetters_surrogate surrogates.2]

theorem normalizeTextForEvidence_front (front back : KString) :
    normalizeTextForEvidence front <+: normalizeTextForEvidence (front ++ back) := by
  obtain ⟨first, gap, last, left, right, whole, own, _, blank, _⟩ := letters_cut front back
  have cleaned := words_trim (List.forall_mem_nil _) blank first
  rw [List.nil_append] at cleaned
  rw [normalizeTextForEvidence_words, normalizeTextForEvidence_words, whole, own, cleaned, List.append_assoc]
  exact wordsFrom_front [ch ' '] [] first (gap ++ last)

theorem normalizeTextForEvidence_back (front back : KString) :
    normalizeTextForEvidence back <:+ normalizeTextForEvidence (front ++ back) := by
  obtain ⟨first, gap, last, left, right, whole, _, own, _, blank⟩ := letters_cut front back
  rw [normalizeTextForEvidence_words, normalizeTextForEvidence_words, whole, own, words_separator_append blank]
  exact wordsFrom_back [ch ' '] [] (first ++ gap) last

theorem normalizeTextForEvidence_part {part text : KString} (inside : part <:+: text) :
    normalizeTextForEvidence part <:+: normalizeTextForEvidence text := by
  obtain ⟨front, back, rfl⟩ := inside
  rw [List.append_assoc]
  exact (normalizeTextForEvidence_front part back).isInfix.trans
    (normalizeTextForEvidence_back front (part ++ back)).isInfix

theorem normalizeTextForEvidence_trim (value : KString) :
    normalizeTextForEvidence (trim value) = normalizeTextForEvidence value := by
  rw [normalizeTextForEvidence_words, normalizeTextForEvidence_words, letters_trim]

theorem normalizeTextForEvidence_blank {value : KString} (blank : isBlank value = true) :
    normalizeTextForEvidence value = [] := by
  rw [← normalizeTextForEvidence_trim, trim_of_blank blank, normalizeTextForEvidence_words]
  rfl

end Parts

end Form.Ios
