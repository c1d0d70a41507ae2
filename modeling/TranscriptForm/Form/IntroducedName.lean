import TranscriptForm.Form.EdgeCleaning
import TranscriptForm.Form.NameCleaning

namespace Form

open Kotlin OnDeviceLlm Pattern
open Regex (Cursor Spells Takes results)

section Names

variable [Platform]

/-- A word as a name has it: a letter, then up to thirty letters, apostrophes and hyphens. -/
structure IsNameWord (word : KString) : Prop extends NameLike word where
  letter : ∀ code, (codePoints word).head? = some code → Platform.isLetter code = true
  short : (codePoints word).length ≤ 31

/-- What may follow a name: nothing, punctuation, or a blank and a word. -/
def Continues (rest : KString) : Prop :=
  rest = [] ∨ (∃ c more, rest = c :: more ∧ c ∈ txt ".,;:!?") ∨ ∃ more, rest = ch ' ' :: more ∧ BeginsWithLetter more

def BeginsName (text : KString) : Prop :=
  ∃ letter read rest second more later, readCodePoint text = some (letter, read, rest) ∧
    Platform.isLetter letter = true ∧ readCodePoint rest = some (second, more, later) ∧ isNameCode second = true

def GoesOn (rest : KString) : Prop := ∃ more, rest = ch ' ' :: more ∧ BeginsName more

def IsArticle (word : KString) : Prop :=
  ∃ article ∈ ["der", "die", "das"], List.Forall₂ (fun wanted code => Platform.eqIgnoreCase wanted code = true)
    (codePoints (txt article)) (codePoints word)

end Names

section Words

variable [Platform]

def furtherWord : Pattern := .seq (plus space) nameWord

theorem takes_nameWord {word rest : KString} (name : IsNameWord word) (plain : ∀ c, rest.head? = some c → IsPlain c)
    (stuck : ∀ char taken left, readCodePoint rest = some (char, taken, left) → isNameCode char = false) :
    Takes utf16 nameWord rest word [] := by
  have spells : Spells utf16 isNameCode rest word := spells_of_codePoints plain name.codes
  have letter := name.letter
  have long := name.long
  have short := name.short
  cases spells with
  | nil => simp [codePoints] at long
  | cons next accepted more =>
    rw [codePoints_read_append next] at letter long short
    cases more with
    | nil => simp [codePoints] at long
    | cons nextOne acceptedOne more =>
      rw [codePoints_read_append nextOne, List.length_cons, List.length_cons] at short
      have tail := takes_rounds more (n := 29) (by omega) stuck
      have between := Takes.between ((Takes.set nextOne acceptedOne).seq tail)
      exact (Takes.set next (letter _ rfl)).seq between

theorem takes_gap {rest : KString} (stops : ∀ c, rest.head? = some c → Platform.isSpace c.toNat = false) :
    Takes utf16 (plus space) rest (txt " ") [] := by
  have plain : IsPlain (ch ' ') := isPlain_ascii (by decide)
  have one : Takes utf16 space rest [ch ' '] [] := .set (readCodePoint_plain plain rest) Ios.isSpace_blank
  have none : Takes utf16 (Kotlin.Pattern.star space) rest [] [] := takes_spaces (by simp) stops
  exact Takes.plus (one.seq none)

theorem stops_name {rest : KString} (stops : rest = [] ∨ ∃ c more, rest = c :: more ∧ c ∈ txt " .,;:!?") :
    (∀ c, rest.head? = some c → IsPlain c) ∧
      ∀ char taken left, readCodePoint rest = some (char, taken, left) → isNameCode char = false := by
  rcases stops with rfl | ⟨c, more, rfl, mark⟩
  · exact ⟨by simp, fun _ _ _ next => by cases next⟩
  · obtain ⟨ascii, unnamed⟩ := mark_unnamed mark
    refine ⟨fun d head => ?_, fun char taken left next => ?_⟩
    · rw [← Option.some.inj head]
      exact isPlain_ascii ascii
    · have single := next.symm.trans (readCodePoint_plain (isPlain_ascii ascii) more)
      have same : char = c.toNat := congrArg Prod.fst (Option.some.inj single)
      rw [same]
      exact unnamed

theorem furtherWord_reads {cur next : Cursor KChar} (reached : next ∈ results utf16 furtherWord cur) :
    ∃ gap, Gap gap ∧ NameLike gap.2 ∧ BeginsName (gap.2 ++ next.rest) ∧ cur.rest = gap.1 ++ (gap.2 ++ next.rest) := by
  obtain ⟨start, spaces, word⟩ := List.mem_flatMap.mp reached
  have reads : Regex.Within utf16 (fun c => Platform.isSpace c.toNat = true) (plus space) := within_space fun _ blank => blank
  obtain ⟨blanks, between⟩ := Regex.results_reads reads cur start spaces
  have width := Regex.results_width (plus space) cur start spaces
  have filled : blanks ≠ [] := by
    have size := congrArg List.length between.rest
    rw [List.length_append] at size
    have one : Regex.leastWidth (plus space) = 1 := rfl
    rintro rfl
    rw [List.length_nil] at size
    omega
  obtain ⟨afterFirst, first, later⟩ := List.mem_flatMap.mp word
  rw [Kotlin.Pattern.between, Regex.results_between] at later
  obtain ⟨afterSecond, second, more⟩ := List.mem_flatMap.mp later
  rw [Regex.results_rounds] at more
  obtain ⟨letter, read, found, isLetter, _⟩ := Regex.mem_results_set.mp first
  obtain ⟨code, readOne, foundOne, named, _⟩ := Regex.mem_results_set.mp second
  obtain ⟨text, spells, split, _⟩ := Regex.spells_of_mem_upTo more
  have whole := (utf16.next_split found).2
  have wholeOne := (utf16.next_split foundOne).2
  rw [split] at wholeOne foundOne
  rw [wholeOne] at foundOne whole found
  have nextOne : readCodePoint (readOne ++ (text ++ next.rest)) = some (code, readOne, text ++ next.rest) := foundOne
  have nextFirst : readCodePoint (read ++ ((readOne ++ text) ++ next.rest)) = some (letter, read, (readOne ++ text) ++ next.rest) := by
    rw [List.append_assoc, ← whole]
    exact found
  have spelled : Spells utf16 isNameCode next.rest (read ++ (readOne ++ text)) :=
    .cons nextFirst (by simp [isNameCode, isLetter]) (.cons nextOne named spells)
  have codes : codePoints (read ++ (readOne ++ text)) = letter :: code :: codePoints text := by
    rw [codePoints_read_append nextFirst, codePoints_read_append nextOne]
  refine ⟨(blanks, read ++ (readOne ++ text)), ⟨filled, between.good⟩, ⟨codePoints_of_spells spelled, ?_⟩, ?_, ?_⟩
  · rw [codes]
    simp
  · refine ⟨letter, read, _, code, readOne, _, ?_, isLetter, nextOne, named⟩
    rw [List.append_assoc, List.append_assoc]
    rw [List.append_assoc] at nextFirst
    exact nextFirst
  · rw [between.rest, whole]
    simp only [List.append_assoc]

theorem rounds_read {n : Nat} {cur stop : Cursor KChar}
    (reached : stop ∈ results utf16 (.loop true 0 (some n) furtherWord) cur) :
    ∃ extra : List (KString × KString), extra.length ≤ n ∧ (∀ gap ∈ extra, Gap gap) ∧
      (∀ word ∈ extra.map Prod.snd, NameLike word) ∧ cur.rest = extra.flatMap (fun gap => gap.1 ++ gap.2) ++ stop.rest := by
  rw [Regex.results_rounds] at reached
  induction n generalizing cur with
  | zero =>
    rw [List.mem_singleton.mp reached]
    exact ⟨[], le_rfl, by simp, by simp, rfl⟩
  | succ n ih =>
    rcases Regex.mem_upTo.mp reached with rfl | ⟨next, taken, _, later⟩
    · exact ⟨[], Nat.zero_le _, by simp, by simp, rfl⟩
    · obtain ⟨gap, blank, name, _, split⟩ := furtherWord_reads taken
      obtain ⟨extra, few, gaps, names, rest⟩ := ih later
      refine ⟨gap :: extra, Nat.succ_le_succ few, List.forall_mem_cons.mpr ⟨blank, gaps⟩,
        List.forall_mem_cons.mpr ⟨name, names⟩, ?_⟩
      rw [split, rest, List.flatMap_cons]
      simp only [List.append_assoc]

variable (tables : LetterTables)
include tables

theorem blank_before_word {rest more gap word : KString} (shape : rest = ch ' ' :: more) (letter : BeginsWithLetter more)
    (blank : Gap (gap, word)) {later : KString} (split : rest = gap ++ later) : gap = txt " " ∧ more = later := by
  obtain ⟨c, blanks, gapIs⟩ := List.exists_cons_of_ne_nil blank.filled
  dsimp only at gapIs
  rw [shape, gapIs, List.cons_append] at split
  obtain ⟨rfl, tail⟩ := List.cons.inj split
  have none : blanks = [] := by
    by_contra filled
    obtain ⟨d, blanks, rfl⟩ := List.exists_cons_of_ne_nil filled
    have space : Platform.isSpace d.toNat = true := blank.blank d (by simp [gapIs])
    have plain : IsPlain d := by
      by_contra surrogate
      rw [isSpace_uniform d.toNat (Or.inl (by simpa [IsPlain] using surrogate))] at space
      cases space
    obtain ⟨code, read, after, next, isLetter⟩ := letter
    rw [tail, List.cons_append, readCodePoint_plain plain] at next
    have same : d.toNat = code := congrArg Prod.fst (Option.some.inj next)
    rw [same, (tables.visible code isLetter).2] at space
    cases space
  rw [none] at gapIs tail
  exact ⟨gapIs, tail⟩

theorem furtherWord_iff {cur : Cursor KChar} (continues : Continues cur.rest) :
    results utf16 furtherWord cur ≠ [] ↔ GoesOn cur.rest := by
  constructor
  · intro found
    obtain ⟨next, reached⟩ := List.exists_mem_of_ne_nil _ found
    obtain ⟨⟨gap, word⟩, blank, _, begins, split⟩ := furtherWord_reads reached
    rcases continues with nothing | ⟨c, more, shape, mark⟩ | ⟨more, shape, letter⟩
    · rw [nothing] at split
      exact absurd (List.append_eq_nil_iff.mp split.symm).1 blank.filled
    · obtain ⟨d, blanks, gapIs⟩ := List.exists_cons_of_ne_nil blank.filled
      dsimp only at gapIs split
      rw [shape, gapIs, List.cons_append] at split
      have space : Platform.isSpace c.toNat = true :=
        (List.cons.inj split).1 ▸ blank.blank d (by simp [gapIs])
      have other : (txt ".,;:!?").all (fun c => c.toNat < 0x80 && 0x20 < c.toNat) = true := by decide
      have asciiOther := List.all_eq_true.mp other c mark
      simp only [Bool.and_eq_true, decide_eq_true_eq] at asciiOther
      rw [isSpace_other asciiOther.1 (by omega)] at space
      cases space
    · have alone := blank_before_word tables shape letter blank split
      exact ⟨more, shape, alone.2 ▸ begins⟩
  · rintro ⟨more, shape, letter, read, rest, second, readOne, later, next, isLetter, nextOne, named⟩
    have plain : IsPlain (ch ' ') := isPlain_ascii (by decide)
    have blank : cur.advance [ch ' '] more ∈ results utf16 (plus space) cur := by
      rw [plus, Regex.results_plus]
      refine List.mem_flatMap.mpr ⟨cur.advance [ch ' '] more, ?_, Regex.mem_results_star.mpr ⟨[], .nil, rfl, rfl⟩⟩
      rw [space, Regex.mem_results_set]
      exact ⟨_, _, by rw [shape]; exact readCodePoint_plain plain more, Ios.isSpace_blank, rfl⟩
    have first : (cur.advance [ch ' '] more).advance read rest ∈ results utf16 (.set Platform.isLetter) (cur.advance [ch ' '] more) :=
      Regex.mem_results_set.mpr ⟨letter, read, next, isLetter, rfl⟩
    have one : ((cur.advance [ch ' '] more).advance read rest).advance readOne later ∈
        results utf16 (.set isNameCode) ((cur.advance [ch ' '] more).advance read rest) :=
      Regex.mem_results_set.mpr ⟨second, readOne, nextOne, named, rfl⟩
    refine Regex.results_seq_ne_nil.mpr ⟨_, blank, Regex.results_seq_ne_nil.mpr ⟨_, first, ?_⟩⟩
    rw [Kotlin.Pattern.between, Regex.results_between]
    refine Regex.results_seq_ne_nil.mpr ⟨_, one, ?_⟩
    rw [Regex.results_rounds]
    exact Regex.upTo_ne_nil

omit tables in
theorem continues_stops {rest : KString} (continues : Continues rest) :
    rest = [] ∨ ∃ c more, rest = c :: more ∧ c ∈ txt " .,;:!?" := by
  rcases continues with nothing | ⟨c, more, shape, mark⟩ | ⟨more, shape, _⟩
  · exact Or.inl nothing
  · exact Or.inr ⟨c, more, shape, List.mem_cons_of_mem (ch ' ') mark⟩
  · exact Or.inr ⟨ch ' ', more, shape, List.mem_cons_self⟩

structure Further (rest : KString) (room : Nat) (extra : List (KString × KString)) (after : KString) : Prop where
  split : rest = extra.flatMap (fun gap => gap.1 ++ gap.2) ++ after
  few : extra.length ≤ room
  gaps : ∀ gap ∈ extra, Gap gap
  names : ∀ word ∈ extra.map Prod.snd, NameLike word
  blank : ∀ gap, extra.head? = some gap → gap.1 = txt " "
  none_iff : extra = [] ↔ room = 0 ∨ ¬ GoesOn rest

theorem rounds_after {rest : KString} (continues : Continues rest) (room : Nat) {cur : Cursor KChar}
    (here : cur.rest = rest) :
    ∃ stop extra, (results utf16 (.loop true 0 (some room) furtherWord) cur).head? = some stop ∧
      Further rest room extra stop.rest := by
  cases room with
  | zero =>
    refine ⟨cur, [], by simp [Regex.results_rounds, Regex.upTo], ?_⟩
    exact ⟨by simp [here], le_rfl, by simp, by simp, by simp, by simp⟩
  | succ room =>
    by_cases goesOn : GoesOn rest
    · obtain ⟨stop, head⟩ : ∃ stop, (results utf16 (.loop true 0 (some (room + 1)) furtherWord) cur).head? = some stop := by
        rw [Regex.results_rounds]
        exact ⟨_, List.head?_eq_some_head Regex.upTo_ne_nil⟩
      have present : results utf16 furtherWord cur ≠ [] :=
        (furtherWord_iff tables (here ▸ continues)).mpr (here ▸ goesOn)
      obtain ⟨next, taken, later⟩ := Regex.head?_rounds_goesOn (Nat.lt_add_left _ Nat.one_pos) present head
      obtain ⟨gap, blank, name, _, split⟩ := furtherWord_reads taken
      obtain ⟨extra, few, gaps, names, more⟩ := rounds_read later
      have goes := goesOn
      obtain ⟨begun, shape, letter, read, after, _, _, _, found, isLetter, _⟩ := goesOn
      have alone := blank_before_word tables shape ⟨letter, read, after, found, isLetter⟩ blank (here ▸ split)
      refine ⟨stop, gap :: extra, head, ?_⟩
      refine ⟨?_, Nat.succ_le_succ few, List.forall_mem_cons.mpr ⟨blank, gaps⟩, List.forall_mem_cons.mpr ⟨name, names⟩, ?_, ?_⟩
      · rw [← here, split, more, List.flatMap_cons]
        simp only [List.append_assoc]
      · intro first isFirst
        rw [← Option.some.inj isFirst]
        exact alone.1
      · simp [goes]
    · refine ⟨cur, [], ?_, by simp [here], Nat.zero_le _, by simp, by simp, by simp, by simp [goesOn]⟩
      have absent : results utf16 furtherWord cur = [] := by
        by_contra found
        exact goesOn (here ▸ (furtherWord_iff tables (here ▸ continues)).mp found)
      simp [Regex.results_rounds, Regex.upTo, absent]

theorem rounds_head {words : List KString} (names : ∀ word ∈ words, IsNameWord word) {rest : KString}
    (continues : Continues rest) {n : Nat} (few : words.length ≤ n) {cur : Cursor KChar}
    (here : cur.rest = words.flatMap (fun word => txt " " ++ word) ++ rest) :
    ∃ stop extra, (results utf16 (.loop true 0 (some n) furtherWord) cur).head? = some stop ∧
      Further rest (n - words.length) extra stop.rest := by
  induction words generalizing n cur with
  | nil => exact rounds_after tables continues n here
  | cons word words ih =>
    obtain ⟨name, later⟩ := List.forall_mem_cons.mp names
    obtain ⟨n, rfl⟩ : ∃ m, n = m + 1 := ⟨n - 1, by simp only [List.length_cons] at few; omega⟩
    have behind : words.flatMap (fun word => txt " " ++ word) ++ rest = [] ∨
        ∃ c more, words.flatMap (fun word => txt " " ++ word) ++ rest = c :: more ∧ c ∈ txt " .,;:!?" := by
      cases words with
      | nil => exact continues_stops continues
      | cons second words => exact Or.inr ⟨ch ' ', _, rfl, List.mem_cons_self⟩
    obtain ⟨plain, stuck⟩ := stops_name behind
    have gap : Takes utf16 (plus space) (word ++ (words.flatMap (fun word => txt " " ++ word) ++ rest)) (txt " ") [] := by
      refine takes_gap fun c head => ?_
      rw [List.head?_append_of_ne_nil _ name.nonempty] at head
      exact (name.unit tables (List.mem_of_mem_head? head)).2.1
    have takes := gap.seq (takes_nameWord name plain stuck)
    rw [List.flatMap_cons, List.append_assoc] at here
    have behindWord : (cur.capturing ([] ++ []) (txt " " ++ word) (words.flatMap (fun word => txt " " ++ word) ++ rest)).rest =
        words.flatMap (fun word => txt " " ++ word) ++ rest := rfl
    obtain ⟨stop, extra, head, further⟩ := ih later (Nat.le_of_succ_le_succ few) behindWord
    refine ⟨stop, extra, Regex.head?_rounds_more (takes cur here) ?_ head, ?_⟩
    · rw [here]
      have blank : (txt " ").length = 1 := rfl
      simp only [Cursor.capturing, Cursor.advance, List.length_append, blank]
      omega
    · rw [List.length_cons, Nat.add_sub_add_right]
      exact further

theorem fullName_head {first : KString} {others : List KString} (names : ∀ word ∈ first :: others, IsNameWord word)
    (few : others.length ≤ 2) {rest : KString} (continues : Continues rest) {cur : Cursor KChar}
    (here : cur.rest = first ++ (others.flatMap (fun word => txt " " ++ word) ++ rest)) :
    ∃ stop extra after, (results utf16 fullName cur).head? = some stop ∧ Further rest (2 - others.length) extra after ∧
      stop.groups.lookup 1 = some (spaced first (others.map (fun word => (txt " ", word)) ++ extra)) := by
  obtain ⟨name, later⟩ := List.forall_mem_cons.mp names
  have behind : others.flatMap (fun word => txt " " ++ word) ++ rest = [] ∨
      ∃ c more, others.flatMap (fun word => txt " " ++ word) ++ rest = c :: more ∧ c ∈ txt " .,;:!?" := by
    cases others with
    | nil => exact continues_stops continues
    | cons second others => exact Or.inr ⟨ch ' ', _, rfl, List.mem_cons_self⟩
  obtain ⟨plain, stuck⟩ := stops_name behind
  have ahead := takes_nameWord name plain stuck cur here
  have behindFirst : (cur.capturing [] first (others.flatMap (fun word => txt " " ++ word) ++ rest)).rest =
      others.flatMap (fun word => txt " " ++ word) ++ rest := rfl
  obtain ⟨inner, extra, head, further⟩ := rounds_head tables later continues few behindFirst
  refine ⟨inner.capture 1 cur, extra, inner.rest, ?_, further, ?_⟩
  · have found := Regex.head?_results_seq_of_head ahead head
    rw [fullName, results, List.head?_map]
    exact congrArg (Option.map fun stop => stop.capture 1 cur) found
  · have whole : cur.rest = spaced first (others.map (fun word => (txt " ", word)) ++ extra) ++ inner.rest := by
      rw [here, further.split, spaced, List.flatMap_append, List.flatMap_map]
      simp only [List.append_assoc]
    have read : cur.readSince inner = spaced first (others.map (fun word => (txt " ", word)) ++ extra) := by
      simp [Cursor.readSince, whole]
    simp [Cursor.capture, read]

end Words

section Introduction

variable [Platform]

theorem takes_codes {codes : List Nat} {text : KString}
    (same : List.Forall₂ (fun wanted c => IsPlain c ∧ Platform.eqIgnoreCase wanted c.toNat = true) codes text) (rest : KString) :
    Takes utf16 (concat (codes.map fun wanted => .set (Platform.eqIgnoreCase wanted))) rest text [] := by
  induction same with
  | nil => exact .empty
  | @cons wanted c codes text here _ ih =>
    have first : Takes utf16 (.set (Platform.eqIgnoreCase wanted)) (text ++ rest) [c] [] :=
      .set (readCodePoint_plain here.1 _) here.2
    exact first.seq ih

theorem takes_same {literal : String} (plain : ∀ c ∈ txt literal, IsPlain c) (rest : KString) :
    Takes utf16 (litIgnoreCase literal) rest (txt literal) [] := by
  rw [litIgnoreCase, textIgnoreCase, codePoints_plain plain]
  refine takes_codes ?_ rest
  rw [List.forall₂_map_left_iff]
  exact List.forall₂_same.mpr fun c member => ⟨plain c member, Platform.eqIgnoreCase_refl _⟩

theorem ignoreCase_reads {codes : List Nat} {cur stop : Cursor KChar}
    (reached : stop ∈ results utf16 (concat (codes.map fun wanted => .set (Platform.eqIgnoreCase wanted))) cur) :
    ∃ read, List.Forall₂ (fun wanted code => Platform.eqIgnoreCase wanted code = true) codes read ∧
      codePoints cur.rest = read ++ codePoints stop.rest := by
  induction codes generalizing cur with
  | nil =>
    rw [List.mem_singleton.mp reached]
    exact ⟨[], .nil, rfl⟩
  | cons wanted codes ih =>
    obtain ⟨next, taken, later⟩ := List.mem_flatMap.mp reached
    obtain ⟨code, _, found, accepted, _⟩ := Regex.mem_results_set.mp taken
    obtain ⟨read, same, split⟩ := ih later
    exact ⟨code :: read, .cons accepted same, by rw [codePoints_read found, split]; rfl⟩

theorem takes_ich (rest : KString) : Takes utf16 (litIgnoreCase "ich") rest (txt "Ich") [] := by
  have plain : ∀ c ∈ txt "ich", IsPlain c := plain_of_all (by decide)
  rw [litIgnoreCase, textIgnoreCase, codePoints_plain plain]
  have same : List.Forall₂ (fun wanted c => IsPlain c ∧ Platform.eqIgnoreCase wanted c.toNat = true)
      ((txt "ich").map UInt16.toNat) (txt "Ich") := by
    have ascii {wanted c : KChar} (smallWanted : wanted.toNat < 0x80) (small : c.toNat < 0x80)
        (equal : (lowerBasic wanted.toNat == lowerBasic c.toNat) = true) :
        IsPlain c ∧ Platform.eqIgnoreCase wanted.toNat c.toNat = true :=
      ⟨isPlain_ascii small, by rw [Platform.eqIgnoreCase_ascii _ _ smallWanted small]; exact equal⟩
    exact .cons (ascii (by decide) (by decide) (by decide)) (.cons (ascii (by decide) (by decide) (by decide))
      (.cons (ascii (by decide) (by decide) (by decide)) .nil))
  exact takes_codes same rest

theorem eszett_fails {later : KString} {cur : Cursor KChar} (here : cur.rest = txt "ße" ++ later) :
    results utf16 (litIgnoreCase "ss") cur = [] := by
  have plain : ∀ c ∈ txt "ss", IsPlain c := plain_of_all (by decide)
  have plainText : ∀ c ∈ txt "ße", isSurrogate c.toNat = false := plain_of_all (by decide)
  rw [List.eq_nil_iff_forall_not_mem]
  intro stop reached
  rw [litIgnoreCase, textIgnoreCase, codePoints_plain plain] at reached
  obtain ⟨read, same, split⟩ := ignoreCase_reads reached
  rw [here, codePoints_append_plain later plainText] at split
  match read, same with
  | [first, second], .cons _ (.cons equal .nil) =>
    have codes : codePoints (txt "ße") = [0xDF, 0x65] := by decide
    rw [codes] at split
    obtain ⟨_, tail⟩ := List.cons.inj split
    obtain ⟨isE, _⟩ := List.cons.inj tail
    rw [← isE, Platform.eqIgnoreCase_ascii _ _ (by decide) (by decide)] at equal
    exact absurd equal (by decide)

def announcement : Pattern :=
  either
    [concat [litIgnoreCase "ich", plus space, litIgnoreCase "hei", either [litIgnoreCase "ss", litIgnoreCase "ß"],
        Kotlin.Pattern.optional (litIgnoreCase "e")],
      concat [litIgnoreCase "mein", plus space, litIgnoreCase "name", plus space, litIgnoreCase "ist"],
      concat [litIgnoreCase "ich", plus space, litIgnoreCase "bin",
        Kotlin.Pattern.optional (.seq (plus space) (either [litIgnoreCase "der", litIgnoreCase "die"]))]]

theorem takes_heisse (later : KString) : Takes utf16 announcement (txt " " ++ later) (txt "Ich heiße") [] := by
  have e : Takes utf16 (Kotlin.Pattern.optional (litIgnoreCase "e")) (txt " " ++ later) (txt "e") [] :=
    (takes_same (plain_of_all (by decide)) _).optional (by decide)
  have eszett : Takes utf16 (either [litIgnoreCase "ss", litIgnoreCase "ß"]) (txt "e" ++ (txt " " ++ later)) (txt "ß") [] :=
    Takes.alt_second (fun cur here => eszett_fails (here.trans (List.append_assoc (txt "ß") (txt "e") _).symm))
      (takes_same (plain_of_all (by decide)) _)
  have hei : Takes utf16 (litIgnoreCase "hei") ((txt "ß" ++ txt "e") ++ (txt " " ++ later)) (txt "hei") [] :=
    takes_same (plain_of_all (by decide)) _
  have gap : Takes utf16 (plus space) ((txt "hei" ++ (txt "ß" ++ txt "e")) ++ (txt " " ++ later)) (txt " ") [] := by
    refine takes_gap fun c head => ?_
    have isH : ch 'h' = c := Option.some.inj head
    rw [← isH]
    exact isSpace_other (by decide) (by decide)
  have ich := takes_ich ((txt " " ++ (txt "hei" ++ (txt "ß" ++ txt "e"))) ++ (txt " " ++ later))
  have phrase := ich.seq (gap.seq (hei.seq (eszett.seq e.last)))
  have whole : txt "Ich" ++ (txt " " ++ (txt "hei" ++ (txt "ß" ++ txt "e"))) = txt "Ich heiße" := by decide
  rw [whole] at phrase
  exact Takes.alt_first phrase

theorem boundary_first {later : KString} (pattern : Pattern) :
    results utf16 (.seq wordBoundary pattern) ⟨[], txt "Ich heiße" ++ later, []⟩ =
      results utf16 pattern ⟨[], txt "Ich heiße" ++ later, []⟩ := by
  have isWord : Platform.isWord (ch 'I').toNat = true := by
    rw [Platform.isWord_ascii _ (by decide)]
    decide
  have first : readCodePoint (txt "Ich heiße" ++ later) = some ((ch 'I').toNat, [ch 'I'], txt "ch heiße" ++ later) :=
    readCodePoint_plain (isPlain_ascii (by decide)) _
  have here : results utf16 wordBoundary ⟨[], txt "Ich heiße" ++ later, []⟩ = [⟨[], txt "Ich heiße" ++ later, []⟩] := by
    simp [results, wordBoundary, lastCode, first, isWord]
  rw [results, here, List.flatMap_singleton]

variable (tables : LetterTables)
include tables

theorem find_introduced {first : KString} {others : List KString} (names : ∀ word ∈ first :: others, IsNameWord word)
    (few : others.length ≤ 2) {rest : KString} (continues : Continues rest) :
    ∃ found extra after, find (.seq wordBoundary introduction)
        (txt "Ich heiße" ++ (txt " " ++ (first ++ (others.flatMap (fun word => txt " " ++ word) ++ rest)))) = some found ∧
      Further rest (2 - others.length) extra after ∧
      groupValue found 1 = spaced first (others.map (fun word => (txt " ", word)) ++ extra) := by
  have name := names first List.mem_cons_self
  generalize tailIs : first ++ (others.flatMap (fun word => txt " " ++ word) ++ rest) = tail
  have stops : ∀ c, tail.head? = some c → Platform.isSpace c.toNat = false := by
    intro c head
    rw [← tailIs, List.head?_append_of_ne_nil _ name.nonempty] at head
    exact (name.unit tables (List.mem_of_mem_head? head)).2.1
  let start : Cursor KChar := ⟨[], txt "Ich heiße" ++ (txt " " ++ tail), []⟩
  let afterPhrase := start.capturing [] (txt "Ich heiße") (txt " " ++ tail)
  let atName := afterPhrase.capturing [] (txt " ") tail
  have announced : (results utf16 announcement start).head? = some afterPhrase := takes_heisse tail start rfl
  have gap : (results utf16 (plus space) afterPhrase).head? = some atName := takes_gap stops afterPhrase rfl
  have nameHere : atName.rest = first ++ (others.flatMap (fun word => txt " " ++ word) ++ rest) := tailIs.symm
  obtain ⟨stop, extra, after, head, further, captured⟩ := fullName_head tables names few continues nameHere
  have last : (results utf16 (.seq fullName .empty) atName).head? = some stop := Regex.head?_results_seq_of_head head rfl
  have matched : (results utf16 introduction start).head? = some stop :=
    Regex.head?_results_seq_of_head announced (Regex.head?_results_seq_of_head gap last)
  rw [← boundary_first] at matched
  have firstAt : Regex.firstAt utf16 (.seq wordBoundary introduction) [] (txt "Ich heiße" ++ (txt " " ++ tail)) = some stop :=
    matched
  obtain ⟨c, more, shape⟩ : ∃ c more, txt "Ich heiße" ++ (txt " " ++ tail) = c :: more :=
    List.exists_cons_of_ne_nil (by simp [txt])
  refine ⟨⟨[], Cursor.readSince start stop, stop.rest, stop.groups⟩, extra, after, ?_, further, ?_⟩
  · simp only [start]
    rw [shape] at firstAt ⊢
    simp [find, Regex.find, Regex.findFrom, firstAt]
  · simp [groupValue, Regex.Match.group, captured]

end Introduction

section Extraction

variable [Platform] (tables : LetterTables)

omit [Platform] in
theorem spaced_blanks (first : KString) (others : List KString) :
    joinToString (txt " ") (first :: others) = first ++ others.flatMap (fun word => txt " " ++ word) := by
  induction others generalizing first with
  | nil => rw [joinToString_single, List.flatMap_nil, List.append_nil]
  | cons second others ih =>
    rw [joinToString_cons_cons, ih, List.flatMap_cons, List.append_assoc]

theorem article_reads {cur : Cursor KChar} (found : results utf16 leadingArticle cur ≠ []) :
    cur.before = [] ∧ ∃ article ∈ ["der", "die", "das"], ∃ read code more,
      List.Forall₂ (fun wanted code => Platform.eqIgnoreCase wanted code = true) (codePoints (txt article)) read ∧
        Platform.isSpace code = true ∧ codePoints cur.rest = read ++ code :: more := by
  obtain ⟨start, atStart, found⟩ := Regex.results_seq_ne_nil.mp found
  obtain ⟨inner, grouped, found⟩ := Regex.results_seq_ne_nil.mp found
  obtain ⟨afterSpace, spaces, _⟩ := Regex.results_seq_ne_nil.mp found
  obtain ⟨stop, taken, rfl⟩ := List.mem_map.mp grouped
  simp only [textStart, results] at atStart
  split at atStart
  · rename_i first
    rw [List.mem_singleton.mp atStart] at taken
    have listed : ∃ article ∈ ["der", "die", "das"], stop ∈ results utf16 (litIgnoreCase article) cur := by
      rcases List.mem_append.mp taken with der | later
      · exact ⟨"der", by simp, der⟩
      · rcases List.mem_append.mp later with die | das
        · exact ⟨"die", by simp, die⟩
        · exact ⟨"das", by simp, das⟩
    obtain ⟨article, member, reached⟩ := listed
    obtain ⟨read, same, split⟩ := ignoreCase_reads reached
    rw [plus, Regex.results_plus] at spaces
    obtain ⟨next, one, _⟩ := List.mem_flatMap.mp spaces
    obtain ⟨code, _, next, isSpace, _⟩ := Regex.mem_results_set.mp one
    have here : codePoints stop.rest = code :: _ := codePoints_read next
    exact ⟨by simpa using first, article, member, read, code, _, same, isSpace, by rw [split, here]⟩
  · cases atStart

theorem blank_no_article {article : String} (member : article ∈ ["der", "die", "das"]) {read : List Nat}
    (same : List.Forall₂ (fun wanted code => Platform.eqIgnoreCase wanted code = true) (codePoints (txt article)) read) :
    0x20 ∉ read := by
  have spelled {codes read : List Nat} (equal : List.Forall₂ (fun wanted code => Platform.eqIgnoreCase wanted code = true) codes read)
      (inside : 0x20 ∈ read) : 0x20 ∈ codes := by
    induction equal with
    | nil => cases inside
    | cons here _ ih =>
      rcases List.mem_cons.mp inside with rfl | later
      · rw [Platform.eqIgnoreCase_caseless _ _ (by decide) (by decide) here]
        exact List.mem_cons_self
      · exact List.mem_cons_of_mem _ (ih later)
  have blankless : ["der", "die", "das"].all (fun article => !(codePoints (txt article)).contains 0x20) = true := by decide
  have none := List.all_eq_true.mp blankless article member
  intro inside
  have listed := List.contains_iff_mem.mpr (spelled same inside)
  rw [listed] at none
  cases none

include tables

theorem leadingArticle_absent {first : KString} (name : NameLike first) (noArticle : ¬ IsArticle first)
    {others : List (KString × KString)} (blank : ∀ gap, others.head? = some gap → gap.1 = txt " ") :
    Regex.find utf16 leadingArticle (spaced first others) = none := by
  rw [Regex.find_none_iff]
  intro passed later same
  by_contra found
  obtain ⟨none, article, member, read, code, more, spelled, isSpace, split⟩ := article_reads found
  have atStart : passed = [] := by simpa using none
  have whole : spaced first others = later := by rw [same, atStart, List.nil_append]
  have codes : ∃ behind, codePoints later = codePoints first ++ behind ∧ ∀ head, behind.head? = some head → head = 0x20 := by
    rw [← whole]
    cases others with
    | nil => exact ⟨[], by simp [spaced], by simp⟩
    | cons gap others =>
      have single := blank gap rfl
      have shape : spaced first (gap :: others) = first ++ (txt " " ++ (gap.2 ++ others.flatMap fun gap => gap.1 ++ gap.2)) := by
        simp [spaced, single]
      rw [shape, codePoints_blank]
      exact ⟨_, rfl, fun head first => (Option.some.inj first).symm⟩
  obtain ⟨behind, shape, blankHead⟩ := codes
  have both : codePoints first ++ behind = read ++ code :: more := shape.symm.trans split
  rcases List.append_eq_append_iff.mp both with ⟨beyond, longer, rest⟩ | ⟨beyond, shorter, rest⟩
  · cases beyond with
    | nil =>
      rw [List.append_nil] at longer
      exact noArticle ⟨article, member, longer ▸ spelled⟩
    | cons next beyond =>
      rw [List.cons_append] at rest
      have isBlank := blankHead next (by rw [rest]; rfl)
      refine blank_no_article member spelled ?_
      rw [longer, isBlank]
      simp
  · cases beyond with
    | nil =>
      rw [List.append_nil] at shorter
      exact noArticle ⟨article, member, shorter ▸ spelled⟩
    | cons next beyond =>
      have isNext : code = next := (List.cons.inj rest).1
      have inFirst : code ∈ codePoints first := by rw [shorter, isNext]; simp
      rw [(nameCode_visible tables (name.codes code inFirst)).2.1] at isSpace
      cases isSpace

theorem extractNameFromText_introduced {first : KString} {others : List KString}
    (names : ∀ word ∈ first :: others, IsNameWord word) (few : others.length ≤ 2) (noArticle : ¬ IsArticle first)
    {rest : KString} (continues : Continues rest) :
    ∃ extra after, Further rest (2 - others.length) extra after ∧
      Android.extractNameFromText (txt "Ich heiße " ++ (joinToString (txt " ") (first :: others) ++ rest)) =
        some (joinToString (txt " ") ((first :: (others ++ extra.map Prod.snd)).map capitalise)) := by
  obtain ⟨found, extra, after, search, further, captured⟩ := find_introduced tables names few continues
  refine ⟨extra, after, further, ?_⟩
  have shape : txt "Ich heiße " ++ (joinToString (txt " ") (first :: others) ++ rest) =
      txt "Ich heiße" ++ (txt " " ++ (first ++ (others.flatMap (fun word => txt " " ++ word) ++ rest))) := by
    rw [spaced_blanks, List.append_assoc, ← List.append_assoc (txt "Ich heiße")]
    rfl
  have listed : (others.map (fun word => (txt " ", word)) ++ extra).map Prod.snd = others ++ extra.map Prod.snd := by
    simp
  have blank : ∀ gap, (others.map (fun word => (txt " ", word)) ++ extra).head? = some gap → gap.1 = txt " " := by
    intro gap head
    cases others with
    | nil => exact further.blank gap head
    | cons second others =>
      rw [← Option.some.inj head]
  have gaps : ∀ gap ∈ others.map (fun word => (txt " ", word)) ++ extra, Gap gap := by
    intro gap member
    rcases List.mem_append.mp member with inName | inExtra
    · obtain ⟨word, _, rfl⟩ := List.mem_map.mp inName
      exact ⟨by simp [txt], List.forall_mem_singleton.mpr Ios.isSpace_blank⟩
    · exact further.gaps gap inExtra
  have wordNames : ∀ word ∈ first :: (others.map (fun word => (txt " ", word)) ++ extra).map Prod.snd, NameLike word := by
    intro word member
    rw [listed, ← List.cons_append] at member
    rcases List.mem_append.mp member with inName | inExtra
    · exact (names word inName).toNameLike
    · exact further.names word inExtra
  have count : (others.map (fun word => (txt " ", word)) ++ extra).length ≤ 2 := by
    have room := further.few
    rw [List.length_append, List.length_map]
    omega
  have absent := leadingArticle_absent tables (names first List.mem_cons_self).toNameLike noArticle blank
  have cleaned := cleanupName_spaced tables wordNames gaps count absent
  have spoken := joined_spoken tables (names first List.mem_cons_self).toNameLike (others ++ extra.map Prod.snd)
  rw [listed] at cleaned
  have visible : isBlank (txt "Ich heiße" ++ (txt " " ++ (first ++ (others.flatMap (fun word => txt " " ++ word) ++ rest)))) = false := by
    have isI : isWhitespace (ch 'I') = false := by decide
    simp [isBlank, txt, isI]
  rw [shape, Android.extractNameFromText, extractNameWith, visible]
  simp only [Bool.false_eq_true, if_false, namePatterns, List.findSome?_cons, search, Option.bind_some, captured, cleaned,
    Option.filter_some, spoken, if_true]

/-- A name comes out as it was spoken exactly if nothing that follows passes for another word of it
    and none of its words has a capital inside. -/
theorem extractNameFromText_iff (first : KString) (others : List KString) (rest : KString)
    (names : ∀ word ∈ first :: others, IsNameWord word) (few : others.length ≤ 2) (noArticle : ¬ IsArticle first)
    (continues : Continues rest) :
    Android.extractNameFromText (txt "Ich heiße " ++ (joinToString (txt " ") (first :: others) ++ rest)) =
        some (joinToString (txt " ") (first :: others)) ↔
      (∀ word ∈ first :: others, capitalise word = word) ∧ (others.length = 2 ∨ ¬ GoesOn rest) := by
  obtain ⟨extra, after, further, extracted⟩ := extractNameFromText_introduced tables names few noArticle continues
  rw [extracted, Option.some.injEq]
  have room : (2 - others.length = 0 ∨ ¬ GoesOn rest) ↔ (others.length = 2 ∨ ¬ GoesOn rest) := by
    refine or_congr_left ?_
    omega
  constructor
  · intro same
    have clean : ∀ word ∈ first :: others, ch ' ' ∉ word := by
      intro word listed inside
      have visible := ((names word listed).unit tables inside).1
      rw [(by decide : isWhitespace (ch ' ') = true)] at visible
      cases visible
    have equal : (first :: (others ++ extra.map Prod.snd)).map capitalise = first :: others :=
      joinToString_injective clean (by simp) same
    have none : extra = [] := by
      have size := congrArg List.length equal
      simp only [List.length_map, List.length_cons, List.length_append] at size
      exact List.eq_nil_of_length_eq_zero (by omega)
    rw [none, List.map_nil, List.append_nil] at equal
    have fixed : ∀ word ∈ first :: others, capitalise word = id word :=
      List.map_inj_left.mp (equal.trans (List.map_id _).symm)
    exact ⟨fixed, room.mp (further.none_iff.mp none)⟩
  · rintro ⟨fixed, alone⟩
    rw [further.none_iff.mpr (room.mpr alone), List.map_nil, List.append_nil, List.map_congr_left fixed,
      List.map_id' ]

end Extraction

section Examples

theorem letterTables_basicPlatform : @LetterTables basicPlatform := by
  let characters := basicPlatform
  have small {code : Nat} (letter : Platform.isLetter code = true) : code ∈ List.range 0x100 :=
    List.mem_range.mpr (isBasic_bound (Bool.and_eq_true_iff.mp letter).1)
  have table : (List.range 0x100).all (fun code => !Platform.isLetter code || !isWhitespaceCode code && !Platform.isSpace code &&
      !Platform.isDigit code && Platform.isLetter (Platform.lowerCode code)) = true := by decide +kernel
  have row {code : Nat} (letter : Platform.isLetter code = true) : ((isWhitespaceCode code = false ∧
      Platform.isSpace code = false) ∧ Platform.isDigit code = false) ∧ Platform.isLetter (Platform.lowerCode code) = true := by
    have entry := List.all_eq_true.mp table code (small letter)
    rw [letter] at entry
    simpa only [Bool.not_true, Bool.false_or, Bool.and_eq_true, Bool.not_eq_true'] using entry
  exact
    { visible := fun code letter => (row letter).1.1
      numberless := fun code letter => (row letter).1.2
      lowered := fun code letter => (row letter).2
      range := fun code letter => (isBasic_bound (Bool.and_eq_true_iff.mp letter).1).trans (by decide) }

theorem annaMaria_words : ∀ word ∈ [txt "Anna", txt "Maria"], @IsNameWord basicPlatform word := by
  let characters := basicPlatform
  have name {word : KString} (codes : (codePoints word).all isNameCode = true) (long : 2 ≤ (codePoints word).length)
      (letter : (codePoints word).head?.all Platform.isLetter = true) (short : (codePoints word).length ≤ 31) :
      IsNameWord word :=
    { codes := List.all_eq_true.mp codes
      long := long
      letter := fun code head => by rw [head] at letter; exact letter
      short := short }
  exact List.forall_mem_cons.mpr ⟨name (by decide +kernel) (by decide) (by decide +kernel) (by decide),
    List.forall_mem_singleton.mpr (name (by decide +kernel) (by decide) (by decide +kernel) (by decide))⟩

theorem anna_no_article : ¬ @IsArticle basicPlatform (txt "Anna") := by
  rintro ⟨article, member, same⟩
  have size := same.length_eq
  have three : ["der", "die", "das"].all (fun article => (codePoints (txt article)).length == 3) = true := by decide
  have length := eq_of_beq (List.all_eq_true.mp three article member)
  rw [length] at size
  revert size
  decide

theorem extractNameFromText_iff_annaMaria :
    letI := basicPlatform
    Android.extractNameFromText (txt "Ich heiße " ++ (joinToString (txt " ") [txt "Anna", txt "Maria"] ++ txt ". Hallo!")) =
        some (joinToString (txt " ") [txt "Anna", txt "Maria"]) ↔
      (∀ word ∈ [txt "Anna", txt "Maria"], capitalise word = word) ∧ ([txt "Maria"].length = 2 ∨ ¬ GoesOn (txt ". Hallo!")) :=
  letI := basicPlatform
  extractNameFromText_iff letterTables_basicPlatform (txt "Anna") [txt "Maria"] (txt ". Hallo!") annaMaria_words (by decide)
    anna_no_article (Or.inr (Or.inl ⟨ch '.', txt " Hallo!", rfl, by decide⟩))

theorem name_goes_on :
    letI := basicPlatform
    (∀ word ∈ [txt "Anna"], IsNameWord word ∧ capitalise word = word ∧ Android.isSpeakerPlaceholderLike word = false) ∧
      ¬ IsArticle (txt "Anna") ∧ Continues (txt " und ich lerne") ∧
      Android.extractNameFromText (txt "Ich heiße " ++ (joinToString (txt " ") [txt "Anna"] ++ txt " und ich lerne")) ≠
        some (joinToString (txt " ") [txt "Anna"]) := by
  let characters := basicPlatform
  refine ⟨List.forall_mem_singleton.mpr ⟨annaMaria_words _ List.mem_cons_self, by decide +kernel, by decide +kernel⟩,
    anna_no_article, ?_, by decide +kernel⟩
  exact Or.inr (Or.inr ⟨txt "und ich lerne", rfl, (ch 'u').toNat, [ch 'u'], txt "nd ich lerne", by decide +kernel, by decide +kernel⟩)

end Examples

end Form
