import Mathlib.Logic.Function.Iterate
import TranscriptForm.Engine.AiChat

-- What does not fit leaves the context, if every decode succeeds.
namespace Engine

variable {τ : Type}

def AiChat.HandedOver (s : AiChat τ) (size pos : Nat) : Prop :=
  ∃ decode ∈ s.decodes, decode.1 = size ∧ ∃ entry ∈ decode.2, entry.pos = pos

section HandedOver

variable {s after : AiChat τ} {size pos : Nat}

theorem AiChat.HandedOver.not_inside (handed : s.HandedOver size pos) (beyond : size ≤ pos) : ¬ s.Inside := by
  obtain ⟨decode, member, same, entry, inBatch, here⟩ := handed
  intro inside
  have below := inside decode member entry inBatch
  omega

theorem AiChat.HandedOver.grows {more : List (Nat × Batch τ)} (handed : s.HandedOver size pos)
    (decodes : after.decodes = s.decodes ++ more) : after.HandedOver size pos := by
  obtain ⟨decode, member, found⟩ := handed
  refine ⟨decode, ?_, found⟩
  rw [decodes]
  exact List.mem_append_left _ member

theorem handedOver_llamaDecode {batch : Batch τ} {entry : BatchEntry τ} (inBatch : entry ∈ batch) (s : AiChat τ) :
    (s.llamaDecode size batch).HandedOver size entry.pos :=
  ⟨(size, batch), List.mem_append_right _ (List.mem_singleton.mpr rfl), rfl, entry, inBatch, rfl⟩

end HandedOver

section Prompt

variable {size startPos i index rounds batchCapacity : Nat} {tokens : List τ} {computeLastLogit : Bool} {s : AiChat τ}

theorem chatBatch_covers {cur : Nat} (later : i ≤ index) (inBatch : index < i + cur) (inside : index < tokens.length) :
    ∃ entry ∈ chatBatch tokens startPos computeLastLogit i cur, entry.pos = startPos + index := by
  refine ⟨_, List.mem_map.mpr ⟨(tokens[index], index), ?_, rfl⟩, rfl⟩
  rw [List.mk_mem_zipIdx_iff_le_and_getElem?_sub]
  refine ⟨later, ?_⟩
  rw [List.getElem?_take_of_lt (by omega), List.getElem?_drop, show i + (index - i) = index by omega]
  exact List.getElem?_eq_getElem inside

theorem decodeFrom_handedOver (capacity : 0 < batchCapacity) (enough : tokens.length ≤ i + rounds) (later : i ≤ index)
    (inside : index < tokens.length) :
    (AiChat.decodeFrom size tokens startPos computeLastLogit (fun _ => true) batchCapacity rounds i s).1.HandedOver size
      (startPos + index) := by
  induction rounds generalizing i s with
  | zero => omega
  | succ rounds ih =>
    rw [AiChat.decodeFrom, if_pos (by omega)]
    dsimp only
    rw [if_neg (by simp)]
    by_cases inBatch : index < i + min (tokens.length - i) batchCapacity
    · obtain ⟨entry, member, here⟩ := chatBatch_covers later inBatch inside
      obtain ⟨more, decodes, _⟩ := decodeFrom_decoded.decodes
      rw [← here]
      exact (handedOver_llamaDecode member _).grows decodes
    · exact ih (by omega) (by omega)

theorem decodeFrom_succeeds :
    (AiChat.decodeFrom size tokens startPos computeLastLogit (fun _ => true) batchCapacity rounds i s).2 = true := by
  induction rounds generalizing i s with
  | zero => rfl
  | succ rounds ih =>
    rw [AiChat.decodeFrom]
    split
    · dsimp only
      rw [if_neg (by simp)]
      exact ih
    · rfl

theorem shiftContext_little (little : s.positions.current ≤ s.positions.systemPrompt + 1) : s.shiftContext = s := by
  have none : s.positions.current - (s.positions.current - s.positions.systemPrompt) / 2 = s.positions.current := by omega
  simp only [AiChat.shiftContext, ChatPositions.shift, none]

theorem decodeFrom_positions {succeeds : Nat → Bool}
    (still : maxBatchSize ≤ startPos + tokens.length → s.positions.current ≤ s.positions.systemPrompt + 1) :
    (AiChat.decodeFrom size tokens startPos computeLastLogit succeeds batchCapacity rounds i s).1.positions = s.positions := by
  induction rounds generalizing i s with
  | zero => rfl
  | succ rounds ih =>
    rw [AiChat.decodeFrom]
    split
    · dsimp only
      have unshifted : (if maxBatchSize ≤ startPos + i + min (tokens.length - i) batchCapacity then s.shiftContext
          else s) = s := by
        split
        · exact shiftContext_little (still (by omega))
        · rfl
      rw [unshifted]
      split
      · rfl
      · exact ih still
    · rfl

end Prompt

section Generation

variable {size : Nat} {s : AiChat τ}

/-- One token after the other, all of them decoded. -/
def AiChat.generate (vocab : Vocab τ) (size : Nat) (newTokenId : τ) (n : Nat) : AiChat τ → AiChat τ :=
  (fun s => s.generateNextToken vocab size newTokenId true)^[n]

structure Generated (size : Nat) (s after : AiChat τ) : Prop where
  context : after.context = s.context
  systemPrompt : after.positions.systemPrompt = s.positions.systemPrompt
  current : after.positions.current = s.positions.current + 1
  stop : after.stopGenerationPosition = s.stopGenerationPosition
  handedOver : after.HandedOver size s.positions.current

theorem generateNextToken_generated (vocab : Vocab τ) (newTokenId : τ) (goesOn : s.positions.current < s.stopGenerationPosition)
    (still : maxBatchSize ≤ s.positions.current → s.positions.current ≤ s.positions.systemPrompt + 1) :
    Generated size s (s.generateNextToken vocab size newTokenId true) := by
  have handed : (s.llamaDecode size [⟨newTokenId, s.positions.current, true⟩]).HandedOver size s.positions.current :=
    handedOver_llamaDecode List.mem_cons_self s
  have unshifted : (if maxBatchSize ≤ s.positions.current then s.shiftContext else s) = s := by
    split
    · exact shiftContext_little (still ‹_›)
    · rfl
  rw [AiChat.generateNextToken, unshifted]
  dsimp only
  rw [if_neg (by omega), if_neg (by simp)]
  split
  · exact ⟨rfl, rfl, rfl, rfl, handed⟩
  · split
    · exact ⟨rfl, rfl, rfl, rfl, handed⟩
    · exact ⟨rfl, rfl, rfl, rfl, handed⟩

/-- With a stop beyond the context and nothing to shift before its end, the generation gets there. -/
theorem generate_leaves (vocab : Vocab τ) (newTokenId : τ) (below : s.positions.current ≤ size)
    (beyond : size < s.stopGenerationPosition) (stuck : size < maxBatchSize ∨ size < s.positions.systemPrompt + 2) :
    ∃ n, ¬ (s.generate vocab size newTokenId n).Inside := by
  obtain ⟨gap, here⟩ := Nat.exists_eq_add_of_le below
  have next : Generated size s (s.generateNextToken vocab size newTokenId true) :=
    generateNextToken_generated vocab newTokenId (by omega) (by omega)
  induction gap generalizing s with
  | zero => exact ⟨1, next.handedOver.not_inside (by omega)⟩
  | succ gap ih =>
    have current := next.current
    have stop := next.stop
    have systemPrompt := next.systemPrompt
    have more : Generated size (s.generateNextToken vocab size newTokenId true) _ :=
      generateNextToken_generated vocab newTokenId (by omega) (by omega)
    obtain ⟨n, leaves⟩ := ih (by omega) (by omega) (by omega) (by omega) more
    exact ⟨n + 1, leaves⟩

theorem generateNextToken_context (vocab : Vocab τ) (newTokenId : τ) (succeeds : Bool) (s : AiChat τ) :
    (s.generateNextToken vocab size newTokenId succeeds).context = s.context := by
  have same : (if maxBatchSize ≤ s.positions.current then s.shiftContext else s).context = s.context := by
    split <;> rfl
  unfold AiChat.generateNextToken
  generalize (if maxBatchSize ≤ s.positions.current then s.shiftContext else s) = shifted at same
  dsimp only
  split_ifs <;> exact same

theorem kept_generate (vocab : Vocab τ) (newTokenId : τ) (n : Nat) (kept : s.Kept) (context : s.context = some size) :
    (s.generate vocab size newTokenId n).Kept := by
  induction n generalizing s with
  | zero => exact kept
  | succ n ih => exact ih (kept_generateNextToken kept context) ((generateNextToken_context _ _ _ _).trans context)

end Generation

section Exactness

variable {size : Nat} {s : AiChat τ} {tokens systemTokens : List τ} {nPredict : Int}

theorem processUserPrompt_leaves (succeeds : Nat → Bool) :
    (s.processUserPrompt size tokens nPredict succeeds).context = s.context ∧
      (s.processUserPrompt size tokens nPredict succeeds).runtimeBatchCapacity = s.runtimeBatchCapacity ∧
      (s.processUserPrompt size tokens nPredict succeeds).positions.systemPrompt = s.positions.systemPrompt := by
  have decoded := @decodeTokensInBatches_decoded _ size (tokens.take maxBatchSize) true succeeds s.resetShortTermStates
  unfold AiChat.processUserPrompt
  dsimp only
  split <;> exact ⟨decoded.context, decoded.capacity, decoded.systemPrompt⟩

theorem processUserPrompt_context (succeeds : Nat → Bool) :
    (s.processUserPrompt size tokens nPredict succeeds).context = s.context := (processUserPrompt_leaves succeeds).1

theorem processUserPrompt_decodes : (s.processUserPrompt size tokens nPredict fun _ => true).decodes =
    (s.resetShortTermStates.decodeTokensInBatches size (tokens.take maxBatchSize) true fun _ => true).1.decodes := by
  unfold AiChat.processUserPrompt
  dsimp only
  split <;> rfl

theorem processUserPrompt_handedOver (some : 0 < min tokens.length maxBatchSize) :
    (s.processUserPrompt size tokens nPredict fun _ => true).HandedOver size
      (s.positions.current + (min tokens.length maxBatchSize - 1)) := by
  have length : (tokens.take maxBatchSize).length = min tokens.length maxBatchSize := by
    rw [List.length_take, Nat.min_comm]
  have handed : (s.resetShortTermStates.decodeTokensInBatches size (tokens.take maxBatchSize) true
      fun _ => true).1.HandedOver size (s.positions.current + (min tokens.length maxBatchSize - 1)) :=
    decodeFrom_handedOver (by omega) (by omega) (Nat.zero_le _) (by omega)
  exact handed.grows (processUserPrompt_decodes.trans (List.append_nil _).symm)

theorem processUserPrompt_positions
    (still : maxBatchSize ≤ s.positions.current + min tokens.length maxBatchSize →
      s.positions.current ≤ s.positions.systemPrompt + 1) :
    let after := s.processUserPrompt size tokens nPredict fun _ => true
    after.positions = s.positions.advance (min tokens.length maxBatchSize) ∧
      after.stopGenerationPosition = llamaPos (s.positions.current + 2 * min tokens.length maxBatchSize + nPredict) := by
  have length : (tokens.take maxBatchSize).length = min tokens.length maxBatchSize := by
    rw [List.length_take, Nat.min_comm]
  have succeeds : (s.resetShortTermStates.decodeTokensInBatches size (tokens.take maxBatchSize) true
      fun _ => true).2 = true := decodeFrom_succeeds
  have positions : (s.resetShortTermStates.decodeTokensInBatches size (tokens.take maxBatchSize) true
      fun _ => true).1.positions = s.positions :=
    decodeFrom_positions (by rw [length]; exact still)
  dsimp only
  rw [AiChat.processUserPrompt]
  dsimp only
  rw [succeeds, if_neg (by simp), positions, length]
  refine ⟨rfl, ?_⟩
  simp only [ChatPositions.advance]
  congr 1
  omega

/-- A prompt fits exactly if neither it nor the generation after it leaves the context. -/
theorem fits_processUserPrompt_iff (vocab : Vocab τ) (newTokenId : τ) (kept : s.Kept) (context : s.context = some size) :
    s.Fits (.processUserPrompt tokens nPredict fun _ => true) ↔
      ∀ n, ((s.processUserPrompt size tokens nPredict fun _ => true).generate vocab size newTokenId n).Inside := by
  constructor
  · intro fits n
    obtain ⟨prompt, room⟩ := fits size context
    exact (kept_generate vocab newTokenId n (kept_processUserPrompt kept context prompt room)
      ((processUserPrompt_context _).trans context)).inside
  · intro inside other same
    rw [context] at same
    cases same
    have current := (kept.room size context).current
    have prompt : s.positions.current + min tokens.length maxBatchSize ≤ size := by
      by_contra beyond
      have handed := @processUserPrompt_handedOver _ size s tokens nPredict (by omega)
      exact handed.not_inside (by omega) (inside 0)
    refine ⟨prompt, ?_⟩
    by_contra neither
    obtain ⟨positions, stop⟩ := @processUserPrompt_positions _ size s tokens nPredict (by omega)
    obtain ⟨n, leaves⟩ := @generate_leaves _ size (s.processUserPrompt size tokens nPredict fun _ => true) vocab newTokenId
      (by rw [positions]; exact prompt) (by rw [stop]; omega)
      (by rw [positions]; simp only [ChatPositions.advance]; omega)
    exact leaves (inside n)

theorem fits_processSystemPrompt_iff (kept : s.Kept) (context : s.context = some size) :
    s.Fits (.processSystemPrompt systemTokens fun _ => true) ↔
      (s.processSystemPrompt size systemTokens fun _ => true).Inside := by
  constructor
  · intro fits
    exact (kept_processSystemPrompt kept context (fits size context)).inside
  · intro inside other same accepted
    rw [context] at same
    cases same
    by_contra beyond
    have handed : (s.resetLongTermStates.resetShortTermStates.decodeTokensInBatches size systemTokens false
        fun _ => true).1.HandedOver size (0 + (systemTokens.length - 1)) :=
      decodeFrom_handedOver (by omega) (by omega) (Nat.zero_le _) (by omega)
    have decodes : (s.processSystemPrompt size systemTokens fun _ => true).decodes =
        (s.resetLongTermStates.resetShortTermStates.decodeTokensInBatches size systemTokens false
          fun _ => true).1.decodes := by
      unfold AiChat.processSystemPrompt
      dsimp only
      rw [if_neg (by omega)]
      split <;> rfl
    exact (handed.grows (decodes.trans (List.append_nil _).symm)).not_inside (by omega) inside

end Exactness

end Engine
