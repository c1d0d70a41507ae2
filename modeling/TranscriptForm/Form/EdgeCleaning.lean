import TranscriptForm.Form.Merge
import TranscriptForm.Kotlin.Literals

namespace Form

open Kotlin Pattern
open Regex (Cursor Spells results)

theorem results_last (pattern : Pattern) (cur : Cursor KChar) :
    results utf16 (.seq pattern .empty) cur = results utf16 pattern cur := by
  simp [results]

theorem closings_plain : ∀ c ∈ txt "\"']\x7d)", IsPlain c := plain_of_all (by decide)

theorem quotes_plain : ∀ c ∈ txt "\"'", IsPlain c := plain_of_all (by decide)

theorem separators_plain : ∀ c ∈ txt ",;", IsPlain c := plain_of_all (by decide)

section Ends

variable [Platform]

/-- What `\s*$` goes over: white space and at most one line break after it. -/
def Fading (skipped : KString) : Prop :=
  ∃ spaces, (∀ c ∈ spaces, Platform.isSpace c.toNat = true) ∧
    (skipped = spaces ∨ ∃ c, isLineEndChar c = true ∧ skipped = spaces ++ [c])

/-- A quote or a closing bracket ends the text, as far as `\s*$` can tell. -/
def EndsInClosing (text : KString) : Prop :=
  ∃ body c skipped, text = body ++ c :: skipped ∧ c ∈ txt "\"']\x7d)" ∧ Fading skipped

def closingArtifact : Pattern :=
  concat [Kotlin.Pattern.star space, plus (oneOf "\"']\x7d)"), Kotlin.Pattern.star space, textEnd]

def EndsInSeparator (text : KString) : Prop :=
  ∃ body quote spaces c skipped, text = body ++ quote :: (spaces ++ c :: skipped) ∧ quote ∈ txt "\"'" ∧
    (∀ c ∈ spaces, Platform.isSpace c.toNat = true) ∧ c ∈ txt ",;" ∧ Fading skipped

theorem isSpace_ch {c : Char} (ascii : (ch c).toNat < 0x80) (space : 0x09 ≤ (ch c).toNat ∧ (ch c).toNat ≤ 0x0D) :
    Platform.isSpace (ch c).toNat = true :=
  (Platform.isSpace_ascii _ ascii).mpr (Or.inl space)

theorem spells_space_iff {rest text : KString} :
    Spells utf16 Platform.isSpace rest text ↔ ∀ c ∈ text, Platform.isSpace c.toNat = true :=
  ⟨fun spells => spells.good space_unitWise.within, fun spaces => spells_space spaces rest⟩

theorem mem_results_spaces {cur stop : Cursor KChar} : stop ∈ results utf16 (star space) cur ↔
    ∃ spaces, (∀ c ∈ spaces, Platform.isSpace c.toNat = true) ∧ cur.rest = spaces ++ stop.rest ∧
      stop = cur.advance spaces stop.rest := by
  simp only [Kotlin.Pattern.star, space, Regex.mem_results_star, spells_space_iff]

/-- Where `$` matches, apart from the place inside a `\r\n`. -/
theorem results_textEnd {cur : Cursor KChar} (ends : results utf16 textEnd cur ≠ []) :
    cur.rest = [] ∨ (∃ c, isLineEndChar c = true ∧ cur.rest = [c]) ∨ cur.rest = txt "\r\n" := by
  simp only [textEnd, results] at ends
  split at ends
  · rename_i holds
    simp only [Bool.or_eq_true, Bool.and_eq_true, List.isEmpty_iff, beq_iff_eq] at holds
    rcases holds with empty | ⟨⟨single, lineEnd⟩ | newline, _⟩
    · exact Or.inl empty
    · obtain ⟨c, one⟩ := List.length_eq_one_iff.mp single
      rw [one, List.head?_cons, Option.any_some] at lineEnd
      exact Or.inr (Or.inl ⟨c, lineEnd, one⟩)
    · exact Or.inr (Or.inr newline)
  · exact absurd rfl ends

theorem textEnd_results {cur : Cursor KChar} (ends : cur.rest = [] ∨ ∃ c, isLineEndChar c = true ∧ c ≠ ch '\n' ∧ cur.rest = [c]) :
    results utf16 textEnd cur ≠ [] := by
  rcases ends with empty | ⟨c, lineEnd, other, one⟩
  · simp [textEnd, results, empty]
  · simp [textEnd, results, one, lineEnd, insideNewline, other]

theorem results_fading (cur : Cursor KChar) :
    results utf16 (concat [star space, textEnd]) cur ≠ [] ↔ Fading cur.rest := by
  have shape : results utf16 (concat [star space, textEnd]) cur ≠ [] ↔
      ∃ middle ∈ results utf16 (star space) cur, results utf16 textEnd middle ≠ [] := by
    simp only [concat, List.foldr_cons, List.foldr_nil, Regex.results_seq_ne_nil, results_last]
  rw [shape]
  constructor
  · rintro ⟨middle, skipped, ends⟩
    obtain ⟨spaces, all, split, _⟩ := mem_results_spaces.mp skipped
    rw [split]
    rcases results_textEnd ends with empty | ⟨c, lineEnd, one⟩ | newline
    · exact ⟨spaces, all, Or.inl (by rw [empty, List.append_nil])⟩
    · exact ⟨spaces, all, Or.inr ⟨c, lineEnd, by rw [one]⟩⟩
    · refine ⟨spaces ++ txt "\r\n", ?_, Or.inl (by rw [newline])⟩
      intro c inside
      rcases List.mem_append.mp inside with inside | inside
      · exact all c inside
      · have either : c = ch '\r' ∨ c = ch '\n' := by simpa [txt] using inside
        rcases either with rfl | rfl
        · exact isSpace_ch (by decide) (by decide)
        · exact isSpace_ch (by decide) (by decide)
  · rintro ⟨spaces, all, same | ⟨c, lineEnd, same⟩⟩
    · refine ⟨cur.advance spaces [], mem_results_spaces.mpr ⟨spaces, all, ?_, rfl⟩, textEnd_results (Or.inl rfl)⟩
      rw [same]
      exact (List.append_nil spaces).symm
    · by_cases newline : c = ch '\n'
      · refine ⟨cur.advance (spaces ++ [c]) [], mem_results_spaces.mpr ⟨spaces ++ [c], ?_, ?_, rfl⟩,
          textEnd_results (Or.inl rfl)⟩
        · intro d inside
          rcases List.mem_append.mp inside with inside | last
          · exact all d inside
          · rw [List.mem_singleton.mp last, newline]
            exact isSpace_ch (by decide) (by decide)
        · rw [same]
          exact (List.append_nil _).symm
      · exact ⟨cur.advance spaces [c], mem_results_spaces.mpr ⟨spaces, all, same, rfl⟩,
          textEnd_results (Or.inr ⟨c, lineEnd, newline, rfl⟩)⟩

theorem results_closing {cur : Cursor KChar} {c : KChar} {skipped : KString} (here : cur.rest = c :: skipped)
    (closing : c ∈ txt "\"']\x7d)") (fading : Fading skipped) : results utf16 closingArtifact cur ≠ [] := by
  have none : cur ∈ results utf16 (Kotlin.Pattern.star space) cur :=
    mem_results_spaces.mpr ⟨[], by simp, rfl, rfl⟩
  have one : cur.advance [c] skipped ∈ results utf16 (plus (oneOf "\"']\x7d)")) cur := by
    rw [plus, Regex.results_plus]
    refine List.mem_flatMap.mpr ⟨cur.advance [c] skipped, (mem_results_oneOf closings_plain).mpr ⟨c, closing, here, rfl⟩, ?_⟩
    exact Regex.mem_results_star.mpr ⟨[], .nil, rfl, rfl⟩
  exact Regex.results_seq_ne_nil.mpr ⟨cur, none, Regex.results_seq_ne_nil.mpr ⟨_, one, (results_fading _).mpr fading⟩⟩

theorem closing_of_results {cur : Cursor KChar} (found : results utf16 closingArtifact cur ≠ []) :
    EndsInClosing cur.rest := by
  obtain ⟨first, blank, found⟩ := Regex.results_seq_ne_nil.mp found
  obtain ⟨last, residue, found⟩ := Regex.results_seq_ne_nil.mp found
  obtain ⟨spaces, _, split, _⟩ := mem_results_spaces.mp blank
  rw [plus, Regex.results_plus] at residue
  obtain ⟨middle, one, more⟩ := List.mem_flatMap.mp residue
  obtain ⟨c, closing, here, _⟩ := (mem_results_oneOf closings_plain).mp one
  obtain ⟨text, spells, later, _⟩ := Regex.mem_results_star.mp more
  have all : ∀ d ∈ c :: text, d ∈ txt "\"']\x7d)" :=
    List.forall_mem_cons.mpr ⟨closing, spells.good (within_oneOf _ fun _ inside => inside)⟩
  obtain ⟨body, d, ends⟩ := List.eq_nil_or_concat (c :: text) |>.resolve_left (by simp)
  refine ⟨spaces ++ body, d, last.rest, ?_, all d (by rw [ends]; simp), (results_fading last).mp found⟩
  rw [split, here, later, ← List.cons_append, ends]
  simp

theorem results_separator {chars others : String} (plain : ∀ c ∈ txt chars, IsPlain c)
    (othersPlain : ∀ c ∈ txt others, IsPlain c) (cur : Cursor KChar) :
    results utf16 (concat [oneOf chars, Kotlin.Pattern.star space, oneOf others, Kotlin.Pattern.star space, textEnd]) cur ≠ [] ↔
      ∃ first spaces second skipped, cur.rest = first :: (spaces ++ second :: skipped) ∧ first ∈ txt chars ∧
        (∀ c ∈ spaces, Platform.isSpace c.toNat = true) ∧ second ∈ txt others ∧ Fading skipped := by
  constructor
  · intro found
    obtain ⟨afterFirst, one, found⟩ := Regex.results_seq_ne_nil.mp found
    obtain ⟨afterSpaces, blank, found⟩ := Regex.results_seq_ne_nil.mp found
    obtain ⟨afterSecond, two, found⟩ := Regex.results_seq_ne_nil.mp found
    obtain ⟨first, firstIn, here, _⟩ := (mem_results_oneOf plain).mp one
    obtain ⟨spaces, all, split, _⟩ := mem_results_spaces.mp blank
    obtain ⟨second, secondIn, there, _⟩ := (mem_results_oneOf othersPlain).mp two
    exact ⟨first, spaces, second, afterSecond.rest, by rw [here, split, there], firstIn, all, secondIn,
      (results_fading _).mp found⟩
  · rintro ⟨first, spaces, second, skipped, here, firstIn, all, secondIn, fading⟩
    let afterFirst := cur.advance [first] (spaces ++ second :: skipped)
    let afterSpaces := afterFirst.advance spaces (second :: skipped)
    have one : afterFirst ∈ results utf16 (oneOf chars) cur :=
      (mem_results_oneOf plain).mpr ⟨first, firstIn, here, rfl⟩
    have blank : afterSpaces ∈ results utf16 (Kotlin.Pattern.star space) afterFirst :=
      mem_results_spaces.mpr ⟨spaces, all, rfl, rfl⟩
    have two : afterSpaces.advance [second] skipped ∈ results utf16 (oneOf others) afterSpaces :=
      (mem_results_oneOf othersPlain).mpr ⟨second, secondIn, rfl, rfl⟩
    exact Regex.results_seq_ne_nil.mpr ⟨_, one, Regex.results_seq_ne_nil.mpr ⟨_, blank,
      Regex.results_seq_ne_nil.mpr ⟨_, two, (results_fading _).mpr fading⟩⟩⟩

theorem separator_absent_iff (text : KString) :
    Regex.find utf16 (concat [oneOf "\"'", Kotlin.Pattern.star space, oneOf ",;", Kotlin.Pattern.star space, textEnd]) text =
      none ↔ ¬ EndsInSeparator text := by
  rw [Regex.find_none_iff]
  constructor
  · rintro absent ⟨body, quote, spaces, c, skipped, same, isQuote, all, separator, fading⟩
    exact (results_separator quotes_plain separators_plain _).mpr
      ⟨quote, spaces, c, skipped, rfl, isQuote, all, separator, fading⟩ (absent body _ same)
  · intro bare passed later same
    by_contra found
    obtain ⟨quote, spaces, c, skipped, here, isQuote, all, separator, fading⟩ :=
      (results_separator quotes_plain separators_plain _).mp found
    exact bare ⟨passed, quote, spaces, c, skipped, by rw [same]; exact congrArg _ here, isQuote, all, separator, fading⟩

theorem closing_absent_iff (text : KString) :
    Regex.find utf16 closingArtifact text = none ↔ ¬ EndsInClosing text := by
  rw [Regex.find_none_iff]
  constructor
  · rintro absent ⟨body, c, skipped, same, closing, fading⟩
    exact results_closing rfl closing fading (absent body _ same)
  · intro bare passed later same
    by_contra found
    obtain ⟨body, c, skipped, here, closing, fading⟩ := closing_of_results found
    have shape : later = body ++ c :: skipped := here
    exact bare ⟨passed ++ body, c, skipped, by rw [same, shape, List.append_assoc], closing, fading⟩

theorem quoted_absent {text : KString} (bare : ¬ EndsInClosing text) :
    Regex.find utf16 (concat [oneOf ",;", Kotlin.Pattern.star space, oneOf "\"'", Kotlin.Pattern.star space, textEnd]) text =
      none := by
  rw [Regex.find_none_iff]
  intro passed later same
  by_contra found
  obtain ⟨separator, spaces, quote, skipped, here, _, _, isQuote, fading⟩ :=
    (results_separator separators_plain quotes_plain _).mp found
  have closing : quote ∈ txt "\"']\x7d)" := by
    have among : (txt "\"'").all (txt "\"']\x7d)").contains = true := by decide
    exact List.contains_iff_mem.mp (List.all_eq_true.mp among quote isQuote)
  refine bare ⟨passed ++ separator :: spaces, quote, skipped, ?_, closing, fading⟩
  have shape : later = separator :: (spaces ++ quote :: skipped) := here
  rw [same, shape]
  simp

def BeginsWithLetter (text : KString) : Prop :=
  ∃ code read rest, readCodePoint text = some (code, read, rest) ∧ Platform.isLetter code = true

theorem opening_absent {text : KString} (letter : BeginsWithLetter text) :
    Regex.find utf16 (concat [textStart, plus (oneOf "[\x7b("), Kotlin.Pattern.star space, optional (oneOf "\"'"),
      Kotlin.Pattern.star space]) text = none := by
  rw [Regex.find_none_iff]
  intro passed later same
  by_contra found
  obtain ⟨start, atStart, found⟩ := Regex.results_seq_ne_nil.mp found
  obtain ⟨afterOpening, opening, _⟩ := Regex.results_seq_ne_nil.mp found
  simp only [textStart, results] at atStart
  split at atStart
  · rename_i first
    rw [List.mem_singleton.mp atStart, plus, Regex.results_plus] at opening
    obtain ⟨middle, one, _⟩ := List.mem_flatMap.mp opening
    obtain ⟨c, isOpening, here, _⟩ := (mem_results_oneOf (plain_of_all (by decide))).mp one
    have nothing : passed = [] := by simpa using first
    obtain ⟨code, read, rest, next, isLetter⟩ := letter
    have whole : text = c :: middle.rest := by rw [same, nothing]; exact here
    have plain : IsPlain c := plain_of_all (by decide : (txt "[\x7b(").all (fun c => !isSurrogate c.toNat) = true) c isOpening
    rw [whole, readCodePoint_plain plain] at next
    cases next
    have other : (txt "[\x7b(").all (fun c => c.toNat < 0x80 && !isAsciiLetter c.toNat) = true := by decide
    have asciiOther := List.all_eq_true.mp other c isOpening
    simp only [Bool.and_eq_true, decide_eq_true_eq, Bool.not_eq_true'] at asciiOther
    have basic : isBasic c.toNat = true := by simp [isBasic, asciiOther.1]
    rcases (Platform.isLetter_basic c.toNat basic).mp isLetter with asciiLetter | large
    · rw [asciiOther.2] at asciiLetter
      cases asciiLetter
    · omega
  · cases atStart

namespace Android

theorem edgeArtifacts_width : ∀ artifact ∈ edgeArtifacts, 0 < Regex.leastWidth artifact := by
  simp [edgeArtifacts, concat, Regex.leastWidth, oneOf, Kotlin.Pattern.star, plus, Kotlin.Pattern.optional, textStart, textEnd, space]

/-- Whether the clean-up leaves a text alone is decided at the end of the text,
    where it cannot see what the quote or bracket belongs to. -/
theorem trimLlmEdgeArtifacts_keeps_iff (text : KString) (trimmed : trim text = text) (letter : BeginsWithLetter text) :
    trimLlmEdgeArtifacts text = text ↔ ¬ EndsInClosing text ∧ ¬ EndsInSeparator text := by
  have artifacts : (∀ artifact ∈ edgeArtifacts, Regex.find utf16 artifact text = none) ↔
      ¬ EndsInClosing text ∧ ¬ EndsInSeparator text := by
    simp only [edgeArtifacts, List.forall_mem_cons, List.not_mem_nil, false_imp_iff, implies_true, and_true]
    rw [separator_absent_iff]
    constructor
    · rintro ⟨_, separator, _, closing⟩
      exact ⟨(closing_absent_iff text).mp closing, separator⟩
    · rintro ⟨closing, separator⟩
      exact ⟨opening_absent letter, separator, quoted_absent closing, (closing_absent_iff text).mpr closing⟩
  have spoken : isBlank text = false := by
    by_contra blank
    have empty : text = [] := trimmed.symm.trans (trim_of_blank (by simpa using blank))
    obtain ⟨code, read, rest, next, _⟩ := letter
    rw [empty] at next
    cases next
  rw [← artifacts, trimLlmEdgeArtifacts, trimmed]
  simp only [spoken, Bool.false_eq_true, if_false]
  constructor
  · intro same
    refine (Regex.deletions_keep_iff edgeArtifacts_width text).mp ?_
    have shorter := (trim_part (edgeArtifacts.foldl (fun cleaned artifact => replace artifact [] cleaned) text)).length_le
    rw [same] at shorter
    exact shorter
  · intro absent
    have same := Regex.deletions_absent absent
    exact (congrArg trim same).trans trimmed

omit [Platform] in
theorem trimLlmEdgeArtifacts_keeps_iff_plain :
    letI := basicPlatform
    trimLlmEdgeArtifacts (txt "Scrum (agil) hilft") = txt "Scrum (agil) hilft" ↔
      ¬ EndsInClosing (txt "Scrum (agil) hilft") ∧ ¬ EndsInSeparator (txt "Scrum (agil) hilft") :=
  letI := basicPlatform
  trimLlmEdgeArtifacts_keeps_iff (txt "Scrum (agil) hilft") (by decide +kernel)
    ⟨(ch 'S').toNat, [ch 'S'], txt "crum (agil) hilft", by decide +kernel, by decide +kernel⟩

end Android

end Ends

section Pairs

def bracketsMatch : KString → KString → Bool
  | opened, [] => opened.isEmpty
  | opened, c :: text =>
    if c == ch '(' then bracketsMatch (ch ')' :: opened) text
    else if c == ch '[' then bracketsMatch (ch ']' :: opened) text
    else if c == ch '\x7b' then bracketsMatch (ch '\x7d' :: opened) text
    else if c ∈ txt ")]\x7d" then opened.head? == some c && bracketsMatch opened.tail text
    else bracketsMatch opened text

def isPaired (text : KString) : Bool :=
  bracketsMatch [] text && text.count (ch '"') % 2 == 0 && text.count (ch '\'') % 2 == 0

theorem remark_loses_bracket :
    letI := basicPlatform
    let text := txt "Scrum (agil)"
    trim text = text ∧ BeginsWithLetter text ∧ text.getLast?.all (fun c => c ∉ txt ",;") = true ∧ isPaired text = true ∧
      Android.trimLlmEdgeArtifacts text ≠ text := by
  let characters := basicPlatform
  exact ⟨by decide +kernel, ⟨(ch 'S').toNat, [ch 'S'], txt "crum (agil)", by decide +kernel, by decide +kernel⟩,
    by decide +kernel, by decide +kernel, by decide +kernel⟩

end Pairs

end Form
