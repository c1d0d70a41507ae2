import TranscriptForm.Form.EdgeCleaning
import TranscriptForm.Library.Ranking
import TranscriptForm.Library.Regex.Pieces

namespace Form

open Kotlin Pattern
open Regex (Piece pieces)

section Words

variable [Platform]

/-- Parts of words stand on both sides of the place where the two texts meet. -/
def CutsWord (front back : KString) : Prop :=
  (lastCode front.reverse).any Platform.isWord = true ∧ ((readCodePoint back).map Prod.fst).any Platform.isWord = true

instance (front back : KString) : Decidable (CutsWord front back) := inferInstanceAs (Decidable (_ ∧ _))

/-- The part stands in the text at this place, and no word goes on beyond it. -/
structure StandsWhole (text left part right : KString) : Prop where
  split : text = left ++ (part ++ right)
  starts : ¬ CutsWord left (part ++ right)
  ends : ¬ CutsWord (left ++ part) right

def WholePart (text part : KString) : Prop := ∃ left right, StandsWhole text left part right

structure BetweenWords (c : KChar) : Prop where
  plain : IsPlain c
  outside : Platform.isWord c.toNat = false

theorem not_cutsWord_start (back : KString) : ¬ CutsWord [] back := by
  rintro ⟨word, _⟩
  cases word

theorem not_cutsWord_end (front : KString) : ¬ CutsWord front [] := by
  rintro ⟨_, word⟩
  cases word

theorem BetweenWords.after {c : KChar} (between : BetweenWords c) (front back : KString) :
    ¬ CutsWord (front ++ [c]) back := by
  rintro ⟨word, _⟩
  rw [List.reverse_append, List.reverse_singleton, List.singleton_append, lastCode_plain between.plain,
    Option.any_some, between.outside] at word
  cases word

theorem BetweenWords.before {c : KChar} (between : BetweenWords c) (front back : KString) :
    ¬ CutsWord front (c :: back) := by
  rintro ⟨_, word⟩
  rw [readCodePoint_plain between.plain, Option.map_some, Option.any_some, between.outside] at word
  cases word

theorem BetweenWords.separator {c : KChar} (separator : c ∈ txt ",;") : BetweenWords c where
  plain := separators_plain c separator
  outside := by
    have among : (txt ",;").all (fun c => c.toNat < 0x80 &&
        !(isAsciiLetter c.toNat || isAsciiDigit c.toNat || c.toNat == 0x5F)) = true := by decide
    have shape := List.all_eq_true.mp among c separator
    rw [Bool.and_eq_true, decide_eq_true_eq] at shape
    rw [Platform.isWord_ascii c.toNat shape.1]
    simpa using shape.2

theorem StandsWhole.of_edges {text left part right : KString} (same : text = left ++ (part ++ right))
    (starts : left = [] ∨ ∃ passed c, left = passed ++ [c] ∧ BetweenWords c) (ends : ¬ CutsWord (left ++ part) right) :
    StandsWhole text left part right where
  split := same
  starts := by
    rcases starts with rfl | ⟨passed, c, rfl, between⟩
    · exact not_cutsWord_start _
    · exact between.after passed _
  ends := ends

theorem wholePart_iff (text part : KString) : WholePart text part ↔ ∃ left ∈ text.inits, left ++ part <+: text ∧
    ¬ CutsWord left (text.drop left.length) ∧ ¬ CutsWord (left ++ part) (text.drop (left ++ part).length) := by
  constructor
  · rintro ⟨left, right, same, starts, ends⟩
    refine ⟨left, (List.mem_inits left text).mpr ⟨part ++ right, same.symm⟩, ⟨right, ?_⟩, ?_, ?_⟩
    · rw [same]
      exact List.append_assoc _ _ _
    · rw [same, List.drop_left]
      exact starts
    · rw [same, ← List.append_assoc, List.drop_left]
      exact ends
  · rintro ⟨left, _, ⟨right, rfl⟩, starts, ends⟩
    refine ⟨left, right, List.append_assoc _ _ _, ?_, ?_⟩
    · rw [List.append_assoc, List.drop_left] at starts
      exact starts
    · rw [List.drop_left] at ends
      exact ends

instance (text part : KString) : Decidable (WholePart text part) :=
  decidable_of_iff _ (wholePart_iff text part).symm

end Words

def learningField : FieldSpec where
  id := txt "learning"
  label := txt "Was hast du gelernt?"
  normalizedLabel := txt "washastdugelernt"
  keywords := [txt "learning", txt "gelernt"]

namespace Android

variable [Platform]

def clauseOf (piece : KString) : KString := trimChars (txt ",;") (trim piece)

structure Wins (field : FieldSpec) (clauses : List KString) (clause : KString) : Prop where
  listed : clause ∈ clauses
  many : 1 < clauses.length
  high : 2 ≤ scoreClauseForField clause field
  most : ∀ other ∈ clauses.erase clause, scoreClauseForField other field < scoreClauseForField clause field

theorem clausesOf_pieces (candidate : KString) : clausesOf candidate =
    ((pieces utf16 clauseBreak candidate).map fun piece => clauseOf piece.text).filter isNotBlank := by
  rw [clausesOf, Kotlin.split, ← Regex.pieces_text, List.map_map]
  rfl

section Winner

variable {field : FieldSpec} {candidate clause : KString}

theorem Wins.unique {clauses : List KString} {other : KString} (wins : Wins field clauses clause)
    (otherWins : Wins field clauses other) : other = clause := by
  by_contra differs
  have below := wins.most other ((List.mem_erase_of_ne differs).mpr otherWins.listed)
  have above := otherWins.most clause ((List.mem_erase_of_ne fun same => differs same.symm).mpr wins.listed)
  omega

structure Leads (field : FieldSpec) (clauses : List KString) (best : KString × Int) : Prop where
  listed : best.1 ∈ clauses
  scored : best.2 = scoreClauseForField best.1 field
  most : ∀ other ∈ clauses, scoreClauseForField other field ≤ scoreClauseForField best.1 field

theorem leads_of_max {clauses : List KString} {best : KString × Int}
    (found : maxByOrNull Prod.snd (clauses.map fun clause => (clause, scoreClauseForField clause field)) = some best) :
    Leads field clauses best := by
  obtain ⟨top, listed, same⟩ := List.mem_map.mp (mem_of_maxByOrNull found)
  have first : best.1 = top := by rw [← same]
  have second : best.2 = scoreClauseForField best.1 field := by rw [← same]
  refine ⟨by rwa [first], second, ?_⟩
  intro other member
  have scored : (other, scoreClauseForField other field) ∈
      clauses.map fun clause => (clause, scoreClauseForField clause field) := List.mem_map.mpr ⟨other, member, rfl⟩
  have bound := le_of_maxByOrNull found _ scored
  dsimp only at bound
  rwa [second] at bound

theorem Wins.leads {clauses : List KString} {best : KString × Int} (wins : Wins field clauses clause)
    (leads : Leads field clauses best) : best.1 = clause := by
  by_contra differs
  have below := wins.most best.1 ((List.mem_erase_of_ne differs).mpr leads.listed)
  have bound := leads.most clause wins.listed
  omega

theorem Leads.wins_iff {clauses : List KString} {best : KString × Int} (leads : Leads field clauses best)
    (many : 1 < clauses.length) : Wins field clauses best.1 ↔ 2 ≤ best.2 ∧
      (((clauses.map fun clause => (clause, scoreClauseForField clause field)).map Prod.snd).insertionSort
        fun a b => b ≤ a)[1]?.getD 0 < best.2 := by
  have scores : (clauses.map fun clause => (clause, scoreClauseForField clause field)).map Prod.snd =
      clauses.map fun clause => scoreClauseForField clause field := by
    simp only [List.map_map, Function.comp_def]
  have second := Ranking.second_item_lt_iff (fun clause => scoreClauseForField clause field) leads.listed many leads.most
  rw [scores, leads.scored, second]
  constructor
  · rintro ⟨_, _, high, lower⟩
    exact ⟨high, lower⟩
  · rintro ⟨high, lower⟩
    exact ⟨leads.listed, many, high, lower⟩

/-- The winner is the answer, and the candidate is where no clause wins. -/
theorem trimIrrelevantTailForField_cases (learning : isLearningLikeField field = true) (candidate : KString) :
    (∃ clause, Wins field (clausesOf candidate) clause ∧ trimIrrelevantTailForField field candidate = clause) ∨
      ((∀ clause, ¬ Wins field (clausesOf candidate) clause) ∧ trimIrrelevantTailForField field candidate = candidate) := by
  by_cases blank : isBlank candidate = true
  · refine Or.inr ⟨?_, by rw [trimIrrelevantTailForField, if_pos blank]⟩
    intro clause wins
    have listed := wins.listed
    rw [clausesOf, List.mem_filter, List.mem_map] at listed
    obtain ⟨⟨piece, member, rfl⟩, spoken⟩ := listed
    have part : trimChars (txt ",;") (trim piece) <:+: candidate :=
      (trimBy_part _).trans ((trim_part piece).trans (Regex.split_piece_part member))
    rw [isNotBlank, (isBlank_iff _).mpr fun c inside => (isBlank_iff candidate).mp blank c (part.subset inside)] at spoken
    cases spoken
  · by_cases few : (clausesOf candidate).length ≤ 1
    · refine Or.inr ⟨fun clause wins => absurd wins.many (Nat.not_lt_of_le few), ?_⟩
      rw [trimIrrelevantTailForField, if_neg blank, learning]
      simp [few]
    · have scored : ((clausesOf candidate).map fun clause => (clause, scoreClauseForField clause field)) ≠ [] := by
        intro none
        rw [List.map_eq_nil_iff.mp none] at few
        exact few (Nat.zero_le 1)
      obtain ⟨best, found⟩ := maxByOrNull_of_ne_nil Prod.snd scored
      have leads := leads_of_max found
      have wins := leads.wins_iff (Nat.lt_of_not_le few)
      rw [trimIrrelevantTailForField, if_neg blank, learning]
      simp only [Bool.not_true, Bool.false_eq_true, if_false, if_neg few, found]
      by_cases won : Wins field (clausesOf candidate) best.1
      · have high := wins.mp won
        refine Or.inl ⟨best.1, won, ?_⟩
        simp only [decide_eq_true high.1, decide_eq_true high.2, Bool.and_true, if_true]
      · have low := fun high => won (wins.mpr high)
        refine Or.inr ⟨fun clause other => won ?_, ?_⟩
        · rw [other.leads leads]
          exact other
        · rw [if_neg]
          simpa using low

end Winner

section Places

variable {field : FieldSpec} {candidate clause : KString}

theorem clauseBreak_ends : Regex.EndsIn utf16 (fun c => Platform.isSpace c.toNat = true) clauseBreak := by
  have blank : Regex.EndsIn utf16 (fun c => Platform.isSpace c.toNat = true) (plus space) :=
    .of_within (within_space fun c isSpace => isSpace) (by simp [plus, space, Regex.leastWidth])
  exact .seq (.seq (.seq blank.last))

variable (blank : ∀ code, isWhitespaceCode code = true ∨ Platform.isSpace code = true → Platform.isWord code = false)
include blank

theorem BetweenWords.white {c : KChar} (white : isWhitespace c = true) : BetweenWords c :=
  ⟨whitespace_plain white, blank c.toNat (Or.inl white)⟩

theorem BetweenWords.space {c : KChar} (space : Platform.isSpace c.toNat = true) : BetweenWords c where
  plain := by
    by_contra surrogate
    have other := isSpace_uniform c.toNat (Or.inl (by simpa [IsPlain] using surrogate))
    rw [space] at other
    cases other
  outside := blank c.toNat (Or.inr space)

theorem clauseOf_split (piece : KString) : ∃ left right, piece = left ++ (clauseOf piece ++ right) ∧
    (∀ c ∈ left, BetweenWords c) ∧ ∀ c ∈ right, BetweenWords c := by
  obtain ⟨whiteLeft, whiteRight, whole, leftWhite, rightWhite⟩ := trim_split piece
  obtain ⟨markLeft, markRight, inner, leftMarks, rightMarks⟩ : ∃ left right,
      trim piece = left ++ clauseOf piece ++ right ∧ (∀ c ∈ left, (txt ",;").contains c = true) ∧
        ∀ c ∈ right, (txt ",;").contains c = true := trimBy_split (trim piece)
  have separators : ∀ c, (txt ",;").contains c = true → BetweenWords c :=
    fun c listed => .separator (List.contains_iff_mem.mp listed)
  refine ⟨whiteLeft ++ markLeft, markRight ++ whiteRight, ?_, ?_, ?_⟩
  · rw [inner] at whole
    simpa using whole
  · intro c inside
    rcases List.mem_append.mp inside with inside | inside
    · exact BetweenWords.white blank (leftWhite c inside)
    · exact separators c (leftMarks c inside)
  · intro c inside
    rcases List.mem_append.mp inside with inside | inside
    · exact separators c (rightMarks c inside)
    · exact BetweenWords.white blank (rightWhite c inside)

theorem clause_whole {piece : Piece KChar} (member : piece ∈ pieces utf16 clauseBreak candidate)
    (whole : ¬ CutsWord (piece.front ++ piece.text) piece.back) : WholePart candidate (clauseOf piece.text) := by
  obtain ⟨left, right, split, leftFree, rightFree⟩ := clauseOf_split blank piece.text
  have same := Regex.pieces_whole member
  refine ⟨piece.front ++ left, right ++ piece.back, .of_edges ?_ ?_ ?_⟩
  · rw [same]
    conv_lhs => rw [split]
    simp
  · rcases List.eq_nil_or_concat left with rfl | ⟨passed, c, rfl⟩
    · rw [List.append_nil]
      refine (Regex.pieces_front clauseBreak_ends member).imp_right ?_
      rintro ⟨passed, c, front, space⟩
      exact ⟨passed, c, front, BetweenWords.space blank space⟩
    · exact Or.inr ⟨piece.front ++ passed, c, by simp, leftFree c (by simp)⟩
  · cases right with
    | nil =>
      rw [List.append_nil] at split
      rw [List.nil_append, List.append_assoc, ← split]
      exact whole
    | cons c right => exact (rightFree c List.mem_cons_self).before _ _

/-- Trimming keeps to whole words exactly if no connective inside a word ends the clause that
    wins, or the words of that clause stand whole at another place too. -/
theorem trimIrrelevantTailForField_whole_iff (learning : isLearningLikeField field = true) (candidate : KString) :
    (trimIrrelevantTailForField field candidate = candidate ∨
        WholePart candidate (trimIrrelevantTailForField field candidate)) ↔
      ∀ piece ∈ pieces utf16 clauseBreak candidate, Wins field (clausesOf candidate) (clauseOf piece.text) →
        ¬ CutsWord (piece.front ++ piece.text) piece.back ∨
          ∃ left right, StandsWhole candidate left (clauseOf piece.text) right ∧
            left ++ clauseOf piece.text ≠ piece.front ++ piece.text := by
  constructor
  · intro kept piece member wins
    rw [or_iff_not_imp_left, not_not]
    intro cut
    have result : trimIrrelevantTailForField field candidate = clauseOf piece.text := by
      rcases trimIrrelevantTailForField_cases learning candidate with ⟨clause, won, same⟩ | ⟨none, _⟩
      · rw [same, won.unique wins]
      · exact absurd wins (none _)
    have stands : WholePart candidate (clauseOf piece.text) := by
      rw [result] at kept
      rcases kept with same | stands
      · rw [same]
        exact ⟨[], [], by simp, not_cutsWord_start _, not_cutsWord_end _⟩
      · exact stands
    obtain ⟨left, right, whole⟩ := stands
    refine ⟨left, right, whole, fun here => whole.ends ?_⟩
    have split := whole.split.symm.trans (Regex.pieces_whole member)
    rw [← List.append_assoc, ← List.append_assoc, here] at split
    rw [here, List.append_cancel_left split]
    exact cut
  · intro condition
    rcases trimIrrelevantTailForField_cases learning candidate with ⟨clause, wins, same⟩ | ⟨_, same⟩
    · right
      rw [same]
      have listed := wins.listed
      rw [clausesOf_pieces, List.mem_filter, List.mem_map] at listed
      obtain ⟨⟨piece, member, rfl⟩, _⟩ := listed
      rcases condition piece member wins with whole | ⟨left, right, stands, _⟩
      · exact clause_whole blank member whole
      · exact ⟨left, right, stands⟩
    · exact Or.inl same

omit [Platform] blank in
theorem trimIrrelevantTailForField_whole_iff_scrum :
    letI := basicPlatform
    let field := learningField
    let candidate := txt "Ich habe Scrum gelernt und ich mag Musik"
    (trimIrrelevantTailForField field candidate = candidate ∨
        WholePart candidate (trimIrrelevantTailForField field candidate)) ↔
      ∀ piece ∈ pieces utf16 clauseBreak candidate, Wins field (clausesOf candidate) (clauseOf piece.text) →
        ¬ CutsWord (piece.front ++ piece.text) piece.back ∨
          ∃ left right, StandsWhole candidate left (clauseOf piece.text) right ∧
            left ++ clauseOf piece.text ≠ piece.front ++ piece.text := by
  let characters := basicPlatform
  refine trimIrrelevantTailForField_whole_iff ?_ (by decide +kernel) _
  intro code blank
  have white : isWhitespaceCode code = true ∨ code = 0x85 := blank.elim Or.inl (Platform.isSpace_whitespace code)
  have ascii : code ≤ 0x20 ∨ 0x80 ≤ code := by
    simp only [isWhitespaceCode, Bool.or_eq_true, Bool.and_eq_true, decide_eq_true_eq, beq_iff_eq] at white
    omega
  change (isAsciiLetter code || isAsciiDigit code || code == 0x5F) = false
  simp only [isAsciiLetter, isAsciiUpper, isAsciiLower, isAsciiDigit, Bool.or_eq_false_iff, Bool.and_eq_false_iff,
    decide_eq_false_iff_not, beq_eq_false_iff_ne]
  omega

end Places

end Android

section Hund

theorem hund_is_cut :
    letI := basicPlatform
    let candidate := txt "Das habe ich gelernt: jeder Hund mag Musik"
    let answer := Android.trimIrrelevantTailForField learningField candidate
    learningField ∈ OnDeviceLlm.fieldSpecs DefaultFormDefinitionProvider.questions ∧
      Android.isLearningLikeField learningField = true ∧ answer = txt "Das habe ich gelernt: jeder H" ∧
      answer ≠ candidate ∧ ¬ WholePart candidate answer := by
  let characters := basicPlatform
  have cut : Android.trimIrrelevantTailForField learningField (txt "Das habe ich gelernt: jeder Hund mag Musik") =
      txt "Das habe ich gelernt: jeder H" := by decide +kernel
  refine ⟨by decide +kernel, by decide +kernel, cut, ?_, ?_⟩
  · rw [cut]
    decide +kernel
  · rw [cut]
    decide +kernel

end Hund

end Form
