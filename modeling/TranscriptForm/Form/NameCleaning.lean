import TranscriptForm.Form.VerbatimQuotes
import TranscriptForm.Kotlin.FirstMatch
import TranscriptForm.Kotlin.Recasing

namespace Form

open Kotlin OnDeviceLlm Words

section Letters

variable [Platform]

def isNameCode (code : Nat) : Bool := Platform.isLetter code || Pattern.inClass "'-" code

/-- What the Unicode tables say of every letter. -/
structure LetterTables : Prop where
  visible : ∀ code, Platform.isLetter code = true → isWhitespaceCode code = false ∧ Platform.isSpace code = false
  numberless : ∀ code, Platform.isLetter code = true → Platform.isDigit code = false
  lowered : ∀ code, Platform.isLetter code = true → Platform.isLetter (Platform.lowerCode code) = true
  range : ∀ code, Platform.isLetter code = true → code < 0x110000

structure NameLike (word : KString) : Prop where
  codes : ∀ code ∈ codePoints word, isNameCode code = true
  long : 2 ≤ (codePoints word).length

theorem isNameCode_iff (code : Nat) :
    isNameCode code = true ↔ Platform.isLetter code = true ∨ code = 0x27 ∨ code = 0x2D := by
  have marks : (txt "'-").map UInt16.toNat = [0x27, 0x2D] := by decide
  have inside : Pattern.inClass "'-" code = true ↔ code ∈ (txt "'-").map UInt16.toNat := by
    simp [Pattern.inClass]
  rw [isNameCode, Bool.or_eq_true, inside, marks]
  simp

theorem isLetter_ascii {code : Nat} (ascii : code < 0x80) : Platform.isLetter code = isAsciiLetter code := by
  have basic : isBasic code = true := by simp [isBasic, ascii]
  rw [Bool.eq_iff_iff, Platform.isLetter_basic code basic]
  exact or_iff_left (by omega)

theorem mark_unnamed {c : KChar} (mark : c ∈ txt " .,;:!?") : c.toNat < 0x80 ∧ isNameCode c.toNat = false := by
  have other : (txt " .,;:!?").all (fun c => c.toNat < 0x80 && !isAsciiLetter c.toNat && c.toNat != 0x27 && c.toNat != 0x2D) =
      true := by decide
  have asciiOther := List.all_eq_true.mp other c mark
  simp only [Bool.and_eq_true, decide_eq_true_eq, Bool.not_eq_true', bne_iff_ne, ne_eq] at asciiOther
  obtain ⟨⟨⟨ascii, noLetter⟩, noApostrophe⟩, noHyphen⟩ := asciiOther
  refine ⟨ascii, Bool.eq_false_iff.mpr fun name => ?_⟩
  rcases (isNameCode_iff c.toNat).mp name with letter | apostrophe | hyphen
  · rw [isLetter_ascii ascii, noLetter] at letter
    cases letter
  · exact noApostrophe apostrophe
  · exact noHyphen hyphen

variable (tables : LetterTables)
include tables

theorem nameCode_visible {code : Nat} (name : isNameCode code = true) :
    isWhitespaceCode code = false ∧ Platform.isSpace code = false ∧ Platform.isDigit code = false := by
  rcases (isNameCode_iff code).mp name with letter | rfl | rfl
  · exact ⟨(tables.visible code letter).1, (tables.visible code letter).2, tables.numberless code letter⟩
  · refine ⟨by decide, isSpace_other (by decide) (by decide), ?_⟩
    rw [Platform.isDigit_ascii _ (by decide)]
    decide
  · refine ⟨by decide, isSpace_other (by decide) (by decide), ?_⟩
    rw [Platform.isDigit_ascii _ (by decide)]
    decide

theorem NameLike.unit {word : KString} (name : NameLike word) {c : KChar} (member : c ∈ word) :
    isWhitespace c = false ∧ Platform.isSpace c.toNat = false ∧ c ∉ txt ".,;:!?" := by
  by_cases plain : IsPlain c
  · have code := name.codes _ (mem_codePoints plain member)
    have visible := nameCode_visible tables code
    refine ⟨visible.1, visible.2.1, ?_⟩
    intro mark
    rw [(mark_unnamed (List.mem_cons_of_mem (ch ' ') mark)).2] at code
    cases code
  · have surrogate : isSurrogate c.toNat = true := by simpa [IsPlain] using plain
    refine ⟨?_, isSpace_uniform _ (Or.inl surrogate), ?_⟩
    · by_contra white
      exact plain (whitespace_plain (by simpa using white))
    · have plainMarks : ∀ d ∈ txt ".,;:!?", IsPlain d := plain_of_all (by decide)
      exact fun mark => plain (plainMarks c mark)

omit [Platform] tables in
theorem codePoints_length_le (text : KString) : (codePoints text).length ≤ text.length := by
  induction text using codePoints.induct with
  | case1 => simp [codePoints]
  | case2 c => simp [codePoints]
  | case3 c d s pair ih =>
    rw [codePoints, if_pos pair]
    simp only [List.length_cons]
    omega
  | case4 c d s single ih =>
    rw [codePoints, if_neg single]
    simp only [List.length_cons] at ih ⊢
    omega

omit tables in
theorem NameLike.length {word : KString} (name : NameLike word) : 2 ≤ word.length :=
  name.long.trans (codePoints_length_le word)

omit tables in
theorem NameLike.nonempty {word : KString} (name : NameLike word) : word ≠ [] := by
  have size := name.length
  rintro rfl
  cases size

end Letters

section Spacing

variable [Platform]

def spaced (first : KString) (others : List (KString × KString)) : KString :=
  first ++ others.flatMap fun gap => gap.1 ++ gap.2

/-- What `\s+` sets apart. -/
def visibleUnit (c : KChar) : Option KChar := if Platform.isSpace c.toNat then none else some c

structure Gap (gap : KString × KString) : Prop where
  filled : gap.1 ≠ []
  blank : ∀ c ∈ gap.1, Platform.isSpace c.toNat = true

theorem wordsFrom_visible {word : KString} (visible : ∀ c ∈ word, Platform.isSpace c.toNat = false) (front : KString) :
    wordsFrom front (word.map visibleUnit) = flush (front ++ word) := by
  induction word generalizing front with
  | nil => rw [List.append_nil]; rfl
  | cons c word ih =>
    obtain ⟨here, later⟩ := List.forall_mem_cons.mp visible
    have read : visibleUnit c = some c := by simp [visibleUnit, here]
    rw [List.map_cons, read, wordsFrom, ih later, List.append_assoc]
    rfl

theorem words_spaced {first : KString} {others : List (KString × KString)}
    (words_visible : ∀ word ∈ first :: others.map Prod.snd, word ≠ [] ∧ ∀ c ∈ word, Platform.isSpace c.toNat = false)
    (gaps : ∀ gap ∈ others, Gap gap) :
    words ((spaced first others).map visibleUnit) = first :: others.map Prod.snd := by
  induction others generalizing first with
  | nil =>
    obtain ⟨nonempty, visible⟩ := words_visible first List.mem_cons_self
    rw [spaced, List.flatMap_nil, List.append_nil, words, wordsFrom_visible visible, List.nil_append, flush,
      if_neg (by simpa using nonempty)]
    rfl
  | cons gap others ih =>
    obtain ⟨⟨nonempty, visible⟩, later⟩ := List.forall_mem_cons.mp words_visible
    obtain ⟨here, gaps⟩ := List.forall_mem_cons.mp gaps
    have rest := ih later gaps
    have separators : ∀ unit ∈ gap.1.map visibleUnit, unit = none := by
      intro unit member
      obtain ⟨c, inside, rfl⟩ := List.mem_map.mp member
      simp [visibleUnit, here.blank c inside]
    have shape : spaced first (gap :: others) = first ++ (gap.1 ++ spaced gap.2 others) := by
      simp [spaced]
    rw [shape, List.map_append, List.map_append,
      words_append_separator (by simpa using here.filled) separators, rest]
    rw [words, wordsFrom_visible visible, List.nil_append, flush, if_neg (by simpa using nonempty)]
    rfl

omit [Platform] in
theorem spaced_edged {drop : KChar → Bool} {first : KString} {others : List (KString × KString)}
    (edged : ∀ word ∈ first :: others.map Prod.snd, word ≠ [] ∧ ∀ c ∈ word, drop c = false) :
    Edged drop (spaced first others) := by
  induction others generalizing first with
  | nil =>
    obtain ⟨nonempty, kept⟩ := edged first List.mem_cons_self
    rw [spaced, List.flatMap_nil, List.append_nil]
    exact ⟨nonempty, fun c head => kept c (List.mem_of_mem_head? head), fun c last => kept c (List.mem_of_getLast? last)⟩
  | cons gap others ih =>
    obtain ⟨⟨nonempty, kept⟩, later⟩ := List.forall_mem_cons.mp edged
    have rest := ih later
    have shape : spaced first (gap :: others) = (first ++ gap.1) ++ spaced gap.2 others := by
      simp [spaced]
    rw [shape]
    refine ⟨by simp [nonempty], ?_, ?_⟩
    · intro c head
      rw [List.append_assoc, List.head?_append_of_ne_nil _ nonempty] at head
      exact kept c (List.mem_of_mem_head? head)
    · intro c last
      rw [List.getLast?_append_of_ne_nil _ rest.nonempty] at last
      exact rest.last c last

omit [Platform] in
theorem mem_spaced {first : KString} {others : List (KString × KString)} {c : KChar} (member : c ∈ spaced first others) :
    (∃ word ∈ first :: others.map Prod.snd, c ∈ word) ∨ ∃ gap ∈ others, c ∈ gap.1 := by
  rcases List.mem_append.mp member with inFirst | later
  · exact Or.inl ⟨first, List.mem_cons_self, inFirst⟩
  · obtain ⟨gap, listed, inside⟩ := List.mem_flatMap.mp later
    rcases List.mem_append.mp inside with blank | inWord
    · exact Or.inr ⟨gap, listed, blank⟩
    · exact Or.inl ⟨gap.2, List.mem_cons_of_mem _ (List.mem_map_of_mem listed), inWord⟩

theorem visibleUnit_blank : visibleUnit (ch ' ') = none := by simp [visibleUnit, Ios.isSpace_blank]

theorem trim_squeezed {text : KString}
    (units : ∀ c ∈ text, c = ch ' ' ∨ isWhitespace c = false ∧ Platform.isSpace c.toNat = false)
    (apart : text.IsChain fun left right => ¬(left = ch ' ' ∧ right = ch ' ')) :
    trim text = joinToString (txt " ") (words (text.map visibleUnit)) := by
  obtain ⟨left, right, split, leftBlank, rightBlank⟩ := trim_split text
  have separators : ∀ part : KString, part <:+: text → (∀ c ∈ part, isWhitespace c = true) →
      ∀ unit ∈ part.map visibleUnit, unit = none := by
    intro part inside blank unit member
    obtain ⟨c, listed, rfl⟩ := List.mem_map.mp member
    rcases units c (inside.subset listed) with same | visible
    · rw [same]
      exact visibleUnit_blank
    · have white := blank c listed
      rw [visible.1] at white
      cases white
  have leftPart : left <:+: text := ⟨[], trim text ++ right, by rw [List.nil_append, ← List.append_assoc]; exact split.symm⟩
  have rightPart : right <:+: text := ⟨left ++ trim text, [], by rw [List.append_nil]; exact split.symm⟩
  have sameWords : words (text.map visibleUnit) = words ((trim text).map visibleUnit) := by
    conv_lhs => rw [split]
    rw [List.map_append, List.map_append,
      words_trim (separators left leftPart leftBlank) (separators right rightPart rightBlank)]
  have inner : ∀ c ∈ trim text, visibleUnit c = some c ∨ c = ch ' ' := by
    intro c member
    rcases units c ((trim_part text).subset member) with same | visible
    · exact Or.inr same
    · exact Or.inl (by simp [visibleUnit, visible.2])
  have edges := Ios.trim_edges text
  have innerApart := List.IsChain.infix apart (trim_part text)
  have joined := intercalate_wordsFrom visibleUnit_blank [] inner innerApart (fun _ => edges.1) edges.2
  rw [List.nil_append] at joined
  rw [sameWords]
  exact joined.symm

variable (tables : LetterTables)
include tables

theorem tidyName_spaced {first : KString} {others : List (KString × KString)}
    (names : ∀ word ∈ first :: others.map Prod.snd, NameLike word) (gaps : ∀ gap ∈ others, Gap gap)
    (noArticle : Regex.find utf16 leadingArticle (spaced first others) = none) :
    tidyName (spaced first others) = joinToString (txt " ") (first :: others.map Prod.snd) := by
  have untrimmed : trim (spaced first others) = spaced first others := by
    have edged : Edged isWhitespace (spaced first others) :=
      spaced_edged fun word listed => ⟨(names word listed).nonempty, fun c member => ((names word listed).unit tables member).1⟩
    exact trimBy_id edged.first edged.last
  have unmarked : trimChars (txt ".,;:!?") (spaced first others) = spaced first others := by
    have edged : Edged (txt ".,;:!?").contains (spaced first others) := spaced_edged fun word listed =>
      ⟨(names word listed).nonempty, fun c member => by simpa using ((names word listed).unit tables member).2.2⟩
    exact trimBy_id edged.first edged.last
  have articleKept : replace leadingArticle [] (spaced first others) = spaced first others := Regex.replace_absent noArticle
  rw [tidyName, untrimmed, unmarked, articleKept]
  generalize squeezedIs : replace (.plus .space) (txt " ") (spaced first others) = squeezed
  have units : ∀ c ∈ squeezed, c = ch ' ' ∨ isWhitespace c = false ∧ Platform.isSpace c.toNat = false := by
    intro c member
    rw [← squeezedIs] at member
    rcases space_unitWise.eats_runs.replace_misses member with blank | visible
    · exact Or.inl (List.mem_singleton.mp blank)
    · rcases Regex.replace_units member with blank | inText
      · exact Or.inl (List.mem_singleton.mp blank)
      · rcases mem_spaced inText with ⟨word, listed, inside⟩ | ⟨gap, listed, inside⟩
        · have unit := (names word listed).unit tables inside
          exact Or.inr ⟨unit.1, unit.2.1⟩
        · exact absurd ((gaps gap listed).blank c inside) visible
  have squeezedWords : words (squeezed.map visibleUnit) = first :: others.map Prod.snd := by
    have reads : Regex.Within utf16 (fun c => Platform.isSpace c.toNat = true) (Pattern.plus Pattern.space) :=
      within_space fun _ space => space
    have kept := words_replace reads Nat.one_pos visibleUnit (fun c space => by simp [visibleUnit, space])
      (by decide : txt " " ≠ []) (by simp [txt, visibleUnit_blank]) (spaced first others)
    have known := words_spaced (fun word listed =>
      ⟨(names word listed).nonempty, fun c member => ((names word listed).unit tables member).2.1⟩) gaps
    rw [← squeezedIs]
    exact kept.trans known
  have apart : squeezed.IsChain fun left right => ¬(left = ch ' ' ∧ right = ch ' ') := by
    rw [← squeezedIs]
    refine List.IsChain.imp ?_ (Ios.replace_spaces_apart _)
    rintro left right apart ⟨rfl, rfl⟩
    exact apart ⟨Ios.isSpace_blank, Ios.isSpace_blank⟩
  rw [trim_squeezed units apart, squeezedWords]

end Spacing

section Digits

open Regex (Cursor results)

theorem keyUnit_digit {unit c : KChar} (member : c ∈ keyUnit unit) (digit : isAsciiDigit c.toNat = true) : c = unit := by
  have numberless {letters : KString} (none : letters.all (fun c => !isAsciiDigit c.toNat) = true) : c ∉ letters := by
    intro inside
    have other := List.all_eq_true.mp none c inside
    rw [digit] at other
    cases other
  have listed : c ∈ umlaut unit := (List.mem_filter.mp member).1
  unfold umlaut at listed
  split_ifs at listed
  · exact absurd listed (numberless (by decide))
  · exact absurd listed (numberless (by decide))
  · exact absurd listed (numberless (by decide))
  · exact absurd listed (numberless (by decide))
  · exact List.mem_singleton.mp listed

theorem mem_encode {code : Nat} (bound : code < 0x110000) {c : KChar} (member : c ∈ encode code) :
    c.toNat = code ∨ isSurrogate c.toNat = true := by
  unfold encode at member
  split at member
  · rename_i small
    rw [List.mem_singleton.mp member]
    exact Or.inl (ofNat_toNat_small small)
  · have high : 0xD800 + (code - 0x10000) / 0x400 < 0x10000 := by omega
    have low : 0xDC00 + (code - 0x10000) % 0x400 < 0x10000 := by omega
    right
    simp only [isSurrogate, Bool.and_eq_true, decide_eq_true_eq]
    rcases List.mem_cons.mp member with rfl | member
    · rw [ofNat_toNat_small high]
      omega
    · rw [List.mem_singleton.mp member, ofNat_toNat_small low]
      omega

variable [Platform] (tables : LetterTables)

theorem keyCode_ascii {code : Nat} {c : KChar} (member : c ∈ keyCode code) : c.toNat < 0x80 := by
  obtain ⟨low, _, inside⟩ := List.mem_flatMap.mp member
  obtain ⟨unit, _, kept⟩ := List.mem_flatMap.mp inside
  have key := (List.mem_filter.mp kept).2
  simp only [isKeyUnit, Pattern.isNotKeyCode, isAsciiLower, isAsciiDigit, Bool.not_not, Bool.or_eq_true, Bool.and_eq_true,
    decide_eq_true_eq] at key
  omega

include tables

theorem keyCode_numberless {code : Nat} (name : isNameCode code = true) {c : KChar} (member : c ∈ keyCode code) :
    isAsciiDigit c.toNat = false := by
  by_contra digit
  rw [Bool.not_eq_false] at digit
  obtain ⟨low, lowered, inside⟩ := List.mem_flatMap.mp member
  obtain ⟨unit, encoded, kept⟩ := List.mem_flatMap.mp inside
  have same := keyUnit_digit kept digit
  subst same
  have range : 0x30 ≤ c.toNat ∧ c.toNat ≤ 0x39 := by simpa [isAsciiDigit] using digit
  have noSurrogate : isSurrogate c.toNat = false := by
    simp only [isSurrogate, Bool.and_eq_false_iff, decide_eq_false_iff_not]
    omega
  have isLow {code : Nat} (bound : code < 0x110000) (among : c ∈ encode code) : c.toNat = code := by
    rcases mem_encode bound among with same | surrogate
    · exact same
    · rw [noSurrogate] at surrogate
      cases surrogate
  unfold lowerEach at lowered
  split at lowered
  · rw [List.mem_singleton.mp lowered] at encoded
    have value := isLow (by decide) encoded
    omega
  · split at lowered
    · have either : low = 0x69 ∨ low = 0x307 := by simpa using lowered
      have value := isLow (by omega) encoded
      omega
    · rw [List.mem_singleton.mp lowered] at encoded
      rcases (isNameCode_iff code).mp name with letter | rfl | rfl
      · have lower := tables.lowered code letter
        have value := isLow (tables.range _ lower) encoded
        rw [← value, isLetter_ascii (by omega)] at lower
        simp only [isAsciiLetter, isAsciiUpper, isAsciiLower, Bool.or_eq_true, Bool.and_eq_true, decide_eq_true_eq] at lower
        omega
      · rw [Platform.lowerCode_basic _ (by decide)] at encoded
        have value := isLow (by decide) encoded
        have known : lowerBasic 0x27 = 0x27 := by decide
        omega
      · rw [Platform.lowerCode_basic _ (by decide)] at encoded
        have value := isLow (by decide) encoded
        have known : lowerBasic 0x2D = 0x2D := by decide
        omega

omit tables in
theorem joined_codes {words : List KString} (names : ∀ word ∈ words, NameLike word) :
    ∀ code ∈ codePoints (joinToString (txt " ") words), isNameCode code = true ∨ code = 0x20 := by
  induction words with
  | nil => simp [joinToString, List.intercalate, codePoints]
  | cons first rest ih =>
    obtain ⟨here, later⟩ := List.forall_mem_cons.mp names
    cases rest with
    | nil =>
      rw [joinToString_single]
      exact fun code member => Or.inl (here.codes code member)
    | cons second rest =>
      rw [joinToString_cons_cons, codePoints_blank]
      intro code member
      rcases List.mem_append.mp member with inFirst | more
      · exact Or.inl (here.codes code inFirst)
      · rcases List.mem_cons.mp more with blank | inRest
        · exact Or.inr blank
        · exact ih later code inRest

omit tables in
theorem reads_digit {back : Pattern} {cur : Cursor KChar}
    (reached : results utf16 (.seq (Pattern.between 1 3 Pattern.digit) back) cur ≠ []) :
    ∃ code ∈ codePoints cur.rest, Platform.isDigit code = true := by
  obtain ⟨middle, taken, _⟩ := Regex.results_seq_ne_nil.mp reached
  rw [Pattern.between, Regex.results_between] at taken
  obtain ⟨next, digit, _⟩ := List.mem_flatMap.mp taken
  obtain ⟨code, read, found, accepted, _⟩ := Regex.mem_results_set.mp digit
  exact ⟨code, by rw [codePoints_read found]; exact List.mem_cons_self, accepted⟩

omit tables in
theorem reads_later {first second : Pattern}
    (needs : ∀ cur : Cursor KChar, results utf16 second cur ≠ [] → ∃ code ∈ codePoints cur.rest, Platform.isDigit code = true)
    (cur : Cursor KChar) (reached : results utf16 (.seq first second) cur ≠ []) :
    ∃ code ∈ codePoints cur.rest, Platform.isDigit code = true := by
  obtain ⟨middle, taken, later⟩ := Regex.results_seq_ne_nil.mp reached
  obtain ⟨code, member, digit⟩ := needs middle later
  exact ⟨code, (Pattern.codePoints_after taken).subset member, digit⟩

omit [Platform] tables in
theorem matchesWhole_results {pattern : Pattern} {text : KString} (whole : matchesWhole pattern text = true) :
    results utf16 pattern ⟨[], text, []⟩ ≠ [] := by
  intro none
  simp [matchesWhole, Regex.matchesWhole, none] at whole

theorem joined_no_placeholder {words : List KString} (names : ∀ word ∈ words, NameLike word)
    (trimmed : trim (joinToString (txt " ") words) = joinToString (txt " ") words) :
    Android.isSpeakerPlaceholderLike (joinToString (txt " ") words) = false := by
  by_contra placeholder
  rw [Bool.not_eq_false, Android.isSpeakerPlaceholderLike, trimmed] at placeholder
  have codes := joined_codes names
  generalize joinToString (txt " ") words = name at placeholder codes
  have blankDigit : Platform.isDigit 0x20 = false := by
    rw [Platform.isDigit_ascii _ (by decide)]
    decide
  have numberless (code : Nat) (member : code ∈ codePoints name) : Platform.isDigit code = false := by
    rcases codes code member with inName | rfl
    · exact (nameCode_visible tables inName).2.2
    · exact blankDigit
  split at placeholder
  · cases placeholder
  · split at placeholder
    · rename_i label
      have numbered : ∃ code ∈ codePoints name, Platform.isDigit code = true := by
        refine reads_later ?_ _ (matchesWhole_results label)
        refine reads_later ?_
        refine reads_later ?_
        refine reads_later ?_
        refine reads_later ?_
        exact fun cur => reads_digit
      obtain ⟨code, member, digit⟩ := numbered
      rw [numberless code member] at digit
      cases digit
    · have numbered : ∃ code ∈ codePoints (normalizeKey name), Platform.isDigit code = true := by
        refine reads_later ?_ _ (matchesWhole_results placeholder)
        refine reads_later ?_
        exact fun cur => reads_digit
      obtain ⟨code, member, digit⟩ := numbered
      have units : ∀ c ∈ normalizeKey name, c.toNat < 0x80 ∧ isAsciiDigit c.toNat = false := by
        intro c inside
        rw [normalizeKey_codes] at inside
        obtain ⟨source, listed, kept⟩ := List.mem_flatMap.mp inside
        refine ⟨keyCode_ascii kept, ?_⟩
        rcases codes source listed with inName | rfl
        · exact keyCode_numberless tables inName kept
        · have gone : keyCode (ch ' ').toNat = [] := keyCode_whitespace (by decide)
          change c ∈ keyCode (ch ' ').toNat at kept
          rw [gone] at kept
          cases kept
      rw [codePoints_plain fun c inside => isPlain_ascii (units c inside).1] at member
      obtain ⟨c, inside, rfl⟩ := List.mem_map.mp member
      rw [Platform.isDigit_ascii _ (units c inside).1, (units c inside).2] at digit
      cases digit

variable {first : KString} {others : List (KString × KString)}

theorem cleanupName_spaced (names : ∀ word ∈ first :: others.map Prod.snd, NameLike word)
    (gaps : ∀ gap ∈ others, Gap gap) (few : others.length ≤ 2)
    (noArticle : Regex.find utf16 leadingArticle (spaced first others) = none) :
    Android.cleanupName (spaced first others) =
      some (joinToString (txt " ") ((first :: others.map Prod.snd).map capitalise)) := by
  have tidy := tidyName_spaced tables names gaps noArticle
  generalize wordsAre : first :: others.map Prod.snd = words at tidy names
  have some : words ≠ [] := by rw [← wordsAre]; exact List.cons_ne_nil _ _
  have edged : Edged isWhitespace (joinToString (txt " ") words) := Edged.join some fun word listed =>
    ⟨(names word listed).nonempty, fun c head => ((names word listed).unit tables (List.mem_of_mem_head? head)).1,
      fun c last => ((names word listed).unit tables (List.mem_of_getLast? last)).1⟩
  have trimmed : trim (joinToString (txt " ") words) = joinToString (txt " ") words := trimBy_id edged.first edged.last
  have spoken : isBlank (joinToString (txt " ") words) = false := by
    by_contra blank
    have empty := trim_of_blank (by simpa using blank)
    exact edged.nonempty (trimmed.symm.trans empty)
  have wordsBack : (splitChar (ch ' ') (joinToString (txt " ") words)).filter isNotBlank = words := by
    have clean : ∀ word ∈ words, ch ' ' ∉ word := by
      intro word listed inside
      have visible := ((names word listed).unit tables inside).1
      rw [(by decide : isWhitespace (ch ' ') = true)] at visible
      cases visible
    have parts : splitChar (ch ' ') (joinToString (txt " ") words) = words := splitChar_joined some clean
    rw [parts, List.filter_eq_self]
    intro word listed
    obtain ⟨c, rest, shape⟩ := List.exists_cons_of_ne_nil (names word listed).nonempty
    have visible := ((names word listed).unit tables (shape ▸ List.mem_cons_self : c ∈ word)).1
    simp [isNotBlank, isBlank, shape, visible]
  have count : words.length ≤ 3 := by
    rw [← wordsAre, List.length_cons, List.length_map]
    omega
  have long : words.any (fun part => part.length < 2) = false := by
    rw [List.any_eq_false]
    intro word listed
    have size := (names word listed).length
    rw [decide_eq_true_eq]
    omega
  rw [Android.cleanupName, cleanupNameUnless, tidy]
  dsimp only
  rw [wordsBack, spoken, joined_no_placeholder tables names trimmed, long]
  simp [some, count]

end Digits

section Capitals

variable [Platform] (tables : LetterTables)
include tables

theorem lowerCodes_visible {codes : List Nat} (names : ∀ code ∈ codes, isNameCode code = true) (before : List Nat) :
    codes.length ≤ (lowerCodes before codes).length ∧
      ∀ low ∈ lowerCodes before codes, isWhitespaceCode low = false ∧ low < 0x110000 := by
  induction codes generalizing before with
  | nil => simp [lowerCodes]
  | cons code codes ih =>
    obtain ⟨here, later⟩ := List.forall_mem_cons.mp names
    obtain ⟨size, visible⟩ := ih later (code :: before)
    have own : isWhitespaceCode (Platform.lowerCode code) = false ∧ Platform.lowerCode code < 0x110000 := by
      rcases (isNameCode_iff code).mp here with letter | rfl | rfl
      · have lower := tables.lowered code letter
        exact ⟨(tables.visible _ lower).1, tables.range _ lower⟩
      · rw [Platform.lowerCode_basic _ (by decide)]
        decide
      · rw [Platform.lowerCode_basic _ (by decide)]
        decide
    rw [lowerCodes]
    split_ifs
    · refine ⟨by simpa using size, List.forall_mem_append.mpr ⟨?_, visible⟩⟩
      exact List.forall_mem_singleton.mpr (by decide)
    · refine ⟨by simpa using size, List.forall_mem_append.mpr ⟨?_, visible⟩⟩
      exact List.forall_mem_singleton.mpr (by decide)
    · refine ⟨by simp only [List.length_append, List.length_cons, List.length_nil]; omega, ?_⟩
      exact List.forall_mem_append.mpr ⟨List.forall_mem_cons.mpr ⟨by decide, List.forall_mem_singleton.mpr (by decide)⟩, visible⟩
    · refine ⟨by simpa using size, List.forall_mem_append.mpr ⟨?_, visible⟩⟩
      exact List.forall_mem_singleton.mpr own

theorem NameLike.lowercase {word : KString} (name : NameLike word) :
    2 ≤ (lowercase word).length ∧ ∀ c ∈ lowercase word, isWhitespace c = false := by
  obtain ⟨size, visible⟩ := lowerCodes_visible tables name.codes []
  have filled : ∀ codes : List Nat, codes.length ≤ (codes.flatMap encode).length := by
    intro codes
    induction codes with
    | nil => exact le_rfl
    | cons code codes ih =>
      have positive : 0 < (encode code).length := by
        unfold encode
        split <;> simp
      rw [List.flatMap_cons, List.length_append, List.length_cons]
      omega
  refine ⟨name.long.trans (size.trans (filled _)), ?_⟩
  intro c member
  obtain ⟨low, listed, encoded⟩ := List.mem_flatMap.mp member
  obtain ⟨noSpace, bound⟩ := visible low listed
  rcases mem_encode bound encoded with same | surrogate
  · rw [isWhitespace, same]
    exact noSpace
  · by_contra white
    rw [whitespace_plain (by simpa using white)] at surrogate
    cases surrogate

theorem NameLike.capitalise {word : KString} (name : NameLike word) : ∃ c ∈ capitalise word, isWhitespace c = false := by
  obtain ⟨size, visible⟩ := name.lowercase tables
  unfold OnDeviceLlm.capitalise
  split
  · rename_i none
    rw [none] at size
    cases size
  · rename_i first rest shape
    rw [shape] at size visible
    obtain ⟨second, rest, rfl⟩ : ∃ second more, rest = second :: more :=
      List.exists_cons_of_ne_nil (by rintro rfl; simp at size)
    exact ⟨second, by simp, visible second (by simp)⟩

theorem joined_spoken {first : KString} (name : NameLike first) (rest : List KString) :
    isNotBlank (joinToString (txt " ") ((first :: rest).map OnDeviceLlm.capitalise)) = true := by
  obtain ⟨c, member, visible⟩ := name.capitalise tables
  have inside : c ∈ joinToString (txt " ") ((first :: rest).map OnDeviceLlm.capitalise) := by
    cases rest with
    | nil =>
      rw [List.map_singleton, joinToString_single]
      exact member
    | cons second rest =>
      rw [List.map_cons, List.map_cons, joinToString_cons_cons]
      exact List.mem_append_left _ member
  rw [isNotBlank, Bool.not_eq_true', Bool.eq_false_iff]
  intro blank
  rw [(isBlank_iff _).mp blank c inside] at visible
  cases visible

end Capitals

end Form
