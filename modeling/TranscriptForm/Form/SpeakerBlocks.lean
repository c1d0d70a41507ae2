import TranscriptForm.Form.Heuristics

namespace Form

open Kotlin

theorem join_blank {separator : KString} {parts : List KString} (blank : isBlank separator = true)
    (all : ∀ part ∈ parts, isBlank part = true) : isBlank (joinToString separator parts) = true := by
  rw [isBlank_iff] at blank ⊢
  intro c member
  rcases mem_joinToString member with inSeparator | ⟨part, listed, inside⟩
  · exact blank c inSeparator
  · exact (isBlank_iff part).mp (all part listed) c inside

section Blocks

variable {P : KString → Prop} (trims : ∀ text, P text → P (trim text))
  (joins : ∀ texts, (∀ text ∈ texts, P text) → P (joinToString (txt " ") texts))
include trims joins

theorem blocksFrom_members {lastEnd : ℚ} {currentSpeaker : KString} {currentTexts : List KString} {blockStart : ℚ}
    {segments : List TranscriptSegment} (texts : ∀ text ∈ currentTexts, P text)
    (all : ∀ segment ∈ segments, P segment.text) :
    ∀ block ∈ TranscriptToFormMapper.blocksFrom lastEnd currentSpeaker currentTexts blockStart segments,
      P block.text ∧ (block.speaker = currentSpeaker ∨ ∃ segment ∈ segments, block.speaker = segment.speaker) := by
  induction segments generalizing currentSpeaker currentTexts blockStart with
  | nil =>
    intro block member
    unfold TranscriptToFormMapper.blocksFrom at member
    split at member
    · cases member
    · rw [List.mem_singleton.mp member]
      exact ⟨trims _ (joins currentTexts texts), Or.inl rfl⟩
  | cons segment rest ih =>
    have own : P (trim segment.text) := trims _ (all segment List.mem_cons_self)
    have later := fun other member => all other (List.mem_cons_of_mem segment member)
    intro block member
    unfold TranscriptToFormMapper.blocksFrom at member
    split at member
    · rcases List.mem_cons.mp member with same | member
      · rw [same]
        exact ⟨trims _ (joins currentTexts texts), Or.inl rfl⟩
      · have started : ∀ text ∈ [trim segment.text], P text := by
          intro text listed
          rw [List.mem_singleton.mp listed]
          exact own
        obtain ⟨text, speaker⟩ := ih started later block member
        refine ⟨text, Or.inr ?_⟩
        rcases speaker with same | ⟨other, listed, same⟩
        · exact ⟨segment, List.mem_cons_self, same⟩
        · exact ⟨other, List.mem_cons_of_mem _ listed, same⟩
    · have extended : ∀ text ∈ currentTexts ++ [trim segment.text], P text := by
        intro text listed
        rcases List.mem_append.mp listed with listed | listed
        · exact texts text listed
        · rw [List.mem_singleton.mp listed]
          exact own
      obtain ⟨text, speaker⟩ := ih extended later block member
      refine ⟨text, ?_⟩
      rcases speaker with same | ⟨other, listed, same⟩
      · exact Or.inl same
      · exact Or.inr ⟨other, List.mem_cons_of_mem _ listed, same⟩

theorem speakerBlocks_members {response : TranscriptionResponse} (all : ∀ segment ∈ response.segments, P segment.text) :
    ∀ block ∈ TranscriptToFormMapper.buildSpeakerBlocks response,
      P block.text ∧ ∃ segment ∈ response.segments, block.speaker = segment.speaker := by
  unfold TranscriptToFormMapper.buildSpeakerBlocks
  split
  · intro block member
    cases member
  · rename_i first rest shape
    rw [shape] at all ⊢
    intro block member
    obtain ⟨text, speaker⟩ := blocksFrom_members trims joins (by simp) all block member
    refine ⟨text, ?_⟩
    rcases speaker with same | found
    · exact ⟨first, List.mem_cons_self, same⟩
    · exact found

end Blocks

theorem blocksFrom_nonempty (lastEnd : ℚ) {currentSpeaker : KString} {currentTexts : List KString} {blockStart : ℚ}
    {segments : List TranscriptSegment} (some : currentTexts ≠ [] ∨ segments ≠ []) :
    TranscriptToFormMapper.blocksFrom lastEnd currentSpeaker currentTexts blockStart segments ≠ [] := by
  induction segments generalizing currentSpeaker currentTexts blockStart with
  | nil =>
    have filled : currentTexts ≠ [] := some.resolve_right (by simp)
    simp [TranscriptToFormMapper.blocksFrom, filled]
  | cons segment rest ih =>
    unfold TranscriptToFormMapper.blocksFrom
    split
    · simp
    · exact ih (Or.inl (by simp))

theorem speakerBlocks_eq_nil_iff (response : TranscriptionResponse) :
    TranscriptToFormMapper.buildSpeakerBlocks response = [] ↔ response.segments = [] := by
  unfold TranscriptToFormMapper.buildSpeakerBlocks
  split
  · rename_i none
    simp [none]
  · rename_i first rest shape
    rw [shape]
    simpa using blocksFrom_nonempty _ (Or.inr (List.cons_ne_nil first rest))

theorem labelled_notBlank {blocks : List SpeakerBlock} (nonempty : blocks ≠ []) :
    isBlank (transcriptTextWithSpeakers blocks) = false := by
  obtain ⟨block, rest, rfl⟩ := List.exists_cons_of_ne_nil nonempty
  have bracket : ch '[' ∈ transcriptTextWithSpeakers (block :: rest) := by
    have own : ch '[' ∈ labelledBlock block := List.mem_cons_self
    unfold transcriptTextWithSpeakers
    rw [List.map_cons]
    cases rest with
    | nil =>
      rw [List.map_nil, joinToString_single]
      exact own
    | cons next rest =>
      rw [List.map_cons, joinToString_cons_cons]
      exact List.mem_append_left _ own
  by_contra blank
  have white := (isBlank_iff _).mp (by simpa using blank) _ bracket
  revert white
  decide

end Form
