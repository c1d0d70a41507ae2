import TranscriptForm.Form.Prompt
import TranscriptForm.Library.Ranking

namespace Form.Android

open Kotlin OnDeviceLlm Ranking

variable [Platform]

def promptSentences (transcriptText : KString) : List KString :=
  ((split chunkBreak (replaceText (txt "\n") (txt " \n ") (trim transcriptText))).map trim).filter isNotBlank

def promptScore (definition : FormDefinition) (questions : List FormQuestion) (heuristicAnswers : Answers) :
    KString → ℕ :=
  scoreForPrompt ((fieldSpecs definition).filter fun field => (questions.map FormQuestion.id).contains field.id)
    heuristicAnswers

theorem chunkBreak_absent {c : KChar} (other : c ≠ ch '\n') (rest : KString) :
    Regex.firstAt utf16 chunkBreak [] (c :: rest) = none := by
  obtain ⟨char, read, later, next, shape⟩ := readCodePoint_cons c rest
  have refused : (char == (ch '\n').toNat) = false := by
    rw [beq_eq_false_iff_ne]
    rcases shape with ⟨single, _⟩ | ⟨d, _, double, _⟩
    · rw [single]
      exact fun same => other (UInt16.toNat_inj.mp same)
    · have supplementary := pairCode_supplementary c d
      rw [double]
      exact Nat.ne_of_gt (Nat.lt_of_lt_of_le (by decide) supplementary)
  have behind : Regex.results utf16 sentenceEnd ⟨[], c :: rest, []⟩ = [] := by
    simp [sentenceEnd, Pattern.precededBy, Regex.results]
  have newline : Regex.results utf16 (Pattern.lit "\n") ⟨[], c :: rest, []⟩ = [] := by
    have literal : txt "\n" = [ch '\n'] := by decide
    have reads : utf16.next (c :: rest) = some (char, read, later) := next
    simp [Pattern.lit, Pattern.concat, literal, Regex.results, reads, refused]
  rw [Regex.firstAt, chunkBreak, Regex.results, behind, newline]
  rfl

theorem promptSentences_edged {transcriptText sentence : KString} (member : sentence ∈ promptSentences transcriptText) :
    Edged isWhitespace sentence := by
  obtain ⟨listed, filled⟩ := List.mem_filter.mp member
  obtain ⟨piece, _, rfl⟩ := List.mem_map.mp listed
  apply Edged.of_trim
  rwa [isNotBlank, isBlank_trim] at filled

theorem promptSentences_ne_nil {transcriptText : KString} (spoken : isNotBlank transcriptText = true) :
    promptSentences transcriptText ≠ [] := by
  have edged := Edged.of_trim spoken
  obtain ⟨c, rest, start⟩ := List.exists_cons_of_ne_nil edged.nonempty
  have visible : isWhitespace c = false := edged.first c (by rw [start]; rfl)
  have other : c ≠ ch '\n' := by
    rintro rfl
    revert visible
    decide
  have newline : txt "\n" = [ch '\n'] := by decide
  have spaced : replaceText (txt "\n") (txt " \n ") (trim transcriptText) =
      c :: replaceText (txt "\n") (txt " \n ") rest := by
    rw [newline, replaceText_single, replaceText_single, start, List.flatMap_cons, if_neg other]
    rfl
  obtain ⟨piece, pieces, cut⟩ := Regex.split_first (chunkBreak_absent other (replaceText (txt "\n") (txt " \n ") rest))
  have filled : isNotBlank (c :: piece) = true := by
    rw [isNotBlank, isBlank, List.all_cons, visible]
    rfl
  apply List.ne_nil_of_mem
  refine List.mem_filter.mpr ⟨List.mem_map.mpr ⟨c :: piece, ?_, rfl⟩, ?_⟩
  · rw [spaced, split, cut]
    exact List.mem_cons_self
  · rw [isNotBlank, isBlank_trim]
    exact filled

omit [Platform] in
theorem take_filled {text : KString} {n : ℕ} (positive : 0 < n) (edged : Edged isWhitespace text) :
    isBlank (text.take n) = false := by
  obtain ⟨c, rest, start⟩ := List.exists_cons_of_ne_nil edged.nonempty
  obtain ⟨n, rfl⟩ := Nat.exists_eq_succ_of_ne_zero (Nat.ne_of_gt positive)
  have visible := edged.first c (by rw [start]; rfl)
  rw [start, List.take_succ_cons, isBlank, List.all_cons, visible]
  rfl

section Focus

variable (definition : FormDefinition) (questions : List FormQuestion) {transcriptText : KString}
  (heuristicAnswers : Answers) (spoken : isNotBlank transcriptText = true)

include spoken

theorem buildFocusedTranscript_whole (fits : (trim transcriptText).length ≤ maxTranscriptCharsPerChunk) :
    buildFocusedTranscript definition questions transcriptText heuristicAnswers = trim transcriptText := by
  have filled : isBlank transcriptText = false := by simpa [isNotBlank] using spoken
  simp [buildFocusedTranscript, filled, fits]

theorem buildFocusedTranscript_best (long : maxTranscriptCharsPerChunk < (trim transcriptText).length) :
    let picked := (bestFirst (promptScore definition questions heuristicAnswers)
      (promptSentences transcriptText)).eraseDups.take 12
    picked ≠ [] ∧ buildFocusedTranscript definition questions transcriptText heuristicAnswers =
      (joinToString (txt "\n") picked).take maxTranscriptCharsPerChunk := by
  intro picked
  have best := best_take (promptScore definition questions heuristicAnswers) 12 (promptSentences transcriptText)
  have sentences := promptSentences_ne_nil spoken
  have some : picked ≠ [] := by
    have distinct : (promptSentences transcriptText).eraseDups ≠ [] := by
      obtain ⟨sentence, rest, shape⟩ := List.exists_cons_of_ne_nil sentences
      rw [shape, List.eraseDups_cons]
      exact List.cons_ne_nil _ _
    rw [← List.length_pos_iff, best.many]
    exact Nat.lt_min.mpr ⟨by decide, List.length_pos_iff.mpr distinct⟩
  refine ⟨some, ?_⟩
  have edged : Edged isWhitespace (joinToString (txt "\n") picked) :=
    Edged.join some fun sentence member => promptSentences_edged (best.among sentence member)
  have joined : isNotBlank (joinToString (txt "\n") picked) = true := by
    have blank := take_filled (Nat.succ_pos _) edged (n := (joinToString (txt "\n") picked).length + 1)
    rw [List.take_of_length_le (Nat.le_succ _)] at blank
    rw [isNotBlank, blank]
    rfl
  have filled : isBlank transcriptText = false := by simpa [isNotBlank] using spoken
  unfold buildFocusedTranscript
  rw [if_neg (by simp [filled]), if_neg (Nat.not_le.mpr long)]
  change (if (promptSentences transcriptText).isEmpty then _
    else if isNotBlank (joinToString (txt "\n") picked) then (joinToString (txt "\n") picked).take _ else _) = _
  rw [if_neg (by simpa using sentences), if_pos joined]

end Focus

/-- The focused transcript keeps to its budget, and what it leaves out scores no better than what it has. -/
theorem buildFocusedTranscript_budget (definition : FormDefinition) (questions : List FormQuestion)
    {transcriptText : KString} (heuristicAnswers : Answers) (spoken : isNotBlank transcriptText = true) :
    let focused := buildFocusedTranscript definition questions transcriptText heuristicAnswers
    let score := promptScore definition questions heuristicAnswers
    isBlank focused = false ∧ focused.length ≤ 240 ∧
      ((trim transcriptText).length ≤ 240 → focused = trim transcriptText) ∧
      (240 < (trim transcriptText).length →
        ∃ picked : List KString, focused = (joinToString (txt "\n") picked).take 240 ∧
          picked.length = min 12 (promptSentences transcriptText).eraseDups.length ∧ picked ≠ [] ∧ picked.Nodup ∧
          (∀ sentence ∈ picked, sentence ∈ promptSentences transcriptText) ∧
          (picked.Pairwise fun first second => score second ≤ score first) ∧
          ∀ sentence ∈ promptSentences transcriptText, sentence ∉ picked →
            ∀ pick ∈ picked, score sentence ≤ score pick) := by
  intro focused score
  have best := best_take score 12 (promptSentences transcriptText)
  by_cases fits : (trim transcriptText).length ≤ 240
  · have whole : focused = trim transcriptText :=
      buildFocusedTranscript_whole definition questions heuristicAnswers spoken fits
    have edged := take_filled (Nat.succ_pos _) (Edged.of_trim spoken) (n := (trim transcriptText).length + 1)
    rw [List.take_of_length_le (Nat.le_succ _)] at edged
    rw [whole]
    exact ⟨edged, fits, fun _ => rfl, fun long => absurd fits (Nat.not_le.mpr long)⟩
  · obtain ⟨some, cut⟩ :=
      buildFocusedTranscript_best definition questions heuristicAnswers spoken (Nat.lt_of_not_le fits)
    have edged : Edged isWhitespace (joinToString (txt "\n") _) :=
      Edged.join some fun sentence member => promptSentences_edged (best.among sentence member)
    have same : focused = _ := cut
    rw [same]
    refine ⟨take_filled (by decide) edged, List.length_take_le _ _, fun short => absurd short fits, fun _ => ?_⟩
    exact ⟨_, rfl, best.many, some, best.distinct, best.among, best.sorted, best.best⟩

def workshopReport : KString :=
  txt "Wir sind am Montag in die Werkstatt gefahren. Dort gab es zuerst Kaffee und Kuchen. Danach haben alle ihre " ++
    txt "Plätze gesucht. Am Nachmittag kam noch der Chef vorbei. Er hat kurz von seinem Urlaub erzählt. " ++
    txt "Das Problem war der leere Akku. Zum Schluss sind alle nach Hause gefahren."

def problemQuestion : List FormQuestion := [⟨txt "problem", txt "Was war das Problem?", true⟩]

omit [Platform] in
theorem buildFocusedTranscript_budget_preferred :
    letI := basicPlatform
    let focused := buildFocusedTranscript DefaultFormDefinitionProvider.questions problemQuestion workshopReport .empty
    let score := promptScore DefaultFormDefinitionProvider.questions problemQuestion .empty
    startsWith focused (txt "Das Problem war der leere Akku") = true ∧ focused.length ≤ 240 ∧
      ∃ picked : List KString, focused = (joinToString (txt "\n") picked).take 240 ∧ picked.length = 7 ∧
        picked.Pairwise fun first second => score second ≤ score first := by
  let characters := basicPlatform
  have spoken : isNotBlank workshopReport = true := by decide +kernel
  obtain ⟨_, short, _, best⟩ := buildFocusedTranscript_budget DefaultFormDefinitionProvider.questions problemQuestion
    LinkedMap.empty spoken
  obtain ⟨picked, cut, many, _, _, _, sorted, _⟩ := best (by decide +kernel)
  exact ⟨by decide +kernel, short, picked, cut, many.trans (by decide +kernel), sorted⟩

end Form.Android
