import TranscriptForm.Form.Grounding

namespace Form.Ios

open Kotlin Words

section Quotes

variable [Platform] {transcriptText answer : KString}

theorem quote_occurs (quoted : answer <:+: transcriptText) (long : 3 ≤ (normalizeTextForEvidence answer).length) :
    OccursAsPhrase transcriptText answer := by
  have filled : ∀ text : KString, 3 ≤ (normalizeTextForEvidence text).length → isBlank text = false := by
    intro text enough
    rw [Bool.eq_false_iff]
    intro blank
    rw [normalizeTextForEvidence_blank blank] at enough
    cases enough
  have inside := normalizeTextForEvidence_part quoted
  refine ⟨filled _ (long.trans inside.length_le), ?_, ?_, ?_⟩
  · rw [isBlank_trim]
    exact filled answer long
  · rwa [normalizeTextForEvidence_trim]
  · rw [normalizeTextForEvidence_trim, contains_iff]
    exact inside

theorem quote_kept (quoted : answer <:+: transcriptText) (long : 3 ≤ (normalizeTextForEvidence answer).length) :
    isAnswerGroundedInTranscript answer (normalizeTextForEvidence transcriptText)
        (tokenizeForEvidence transcriptText) = true ∧
      ∀ llmAnswers id, LinkedMap.get? llmAnswers id = some answer →
        (filterLlmAnswersByTranscriptEvidence llmAnswers transcriptText).get? id = some answer := by
  have phrase := quote_occurs quoted long
  have passes := phrase_passes phrase
  exact ⟨passes, fun llmAnswers id stored => kept_iff.mpr ⟨stored, phrase.1, passes⟩⟩

omit [Platform] in
theorem quote_kept_middle :
    letI := basicPlatform
    isAnswerGroundedInTranscript (txt "r Tür, K") (normalizeTextForEvidence (txt "An der Tür, Klaus!"))
      (tokenizeForEvidence (txt "An der Tür, Klaus!")) = true :=
  letI := basicPlatform
  (quote_kept ⟨txt "An de", txt "laus!", by decide +kernel⟩ (by decide +kernel)).1

end Quotes

end Form.Ios
