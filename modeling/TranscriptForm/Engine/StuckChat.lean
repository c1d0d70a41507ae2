import TranscriptForm.Engine.InStep

-- What becomes of a chat whose memory has run ahead of it.
namespace Engine

open Numbering Transition

variable {τ : Type}

section Chat

variable {size startPos i rounds batchCapacity : Nat} {tokens : List τ} {computeLastLogit : Bool} {succeeds : Nat → Bool}
  {s : AiChat τ}

theorem decodeFrom_done (done : tokens.length ≤ i) :
    AiChat.decodeFrom size tokens startPos computeLastLogit succeeds batchCapacity rounds i s = (s, true) := by
  cases rounds with
  | zero => rfl
  | succ rounds => rw [AiChat.decodeFrom, if_neg (by omega)]

theorem decodeFrom_shifted (capacity : 0 < batchCapacity) (enough : tokens.length ≤ i + rounds) (more : i < tokens.length)
    (far : maxBatchSize ≤ startPos + tokens.length) (low : s.positions.current ≤ startPos)
    (large : s.positions.systemPrompt + 2 ≤ startPos)
    (decoded : (AiChat.decodeFrom size tokens startPos computeLastLogit succeeds batchCapacity rounds i s).2 = true) :
    (AiChat.decodeFrom size tokens startPos computeLastLogit succeeds batchCapacity rounds i s).1.positions.current <
      startPos := by
  induction rounds generalizing i s with
  | zero => omega
  | succ rounds ih =>
    rw [AiChat.decodeFrom, if_pos more] at decoded ⊢
    dsimp only at decoded ⊢
    by_cases last : tokens.length ≤ i + batchCapacity
    · have shifts : maxBatchSize ≤ startPos + i + min (tokens.length - i) batchCapacity := by omega
      rw [if_pos shifts] at decoded ⊢
      have below : s.shiftContext.positions.current < startPos := by
        simp only [AiChat.shiftContext, ChatPositions.shift]
        omega
      split
      · exact below
      · rw [decodeFrom_done last]
        exact below
    · split at decoded
      · cases decoded
      · rename_i outcome
        rw [if_neg outcome]
        have lower : (if maxBatchSize ≤ startPos + i + min (tokens.length - i) batchCapacity then s.shiftContext
            else s).positions.current ≤ startPos := by
          split
          · exact Nat.le_trans (Nat.sub_le _ _) low
          · exact low
        have still : (if maxBatchSize ≤ startPos + i + min (tokens.length - i) batchCapacity then s.shiftContext
            else s).positions.systemPrompt + 2 ≤ startPos := by
          split
          · exact large
          · exact large
        exact ih (by omega) (by omega) lower still decoded

theorem generateNextToken_stopped {vocab : Vocab τ} {token : τ} {succeeds : Bool}
    (stops : s.makeRoom.stopGenerationPosition ≤ s.makeRoom.positions.current) :
    (s.generateNextToken vocab size token succeeds).positions = s.makeRoom.positions ∧
      (s.generateNextToken vocab size token succeeds).last = some (.token none) := by
  unfold AiChat.generateNextToken
  generalize room : (if maxBatchSize ≤ s.positions.current then s.shiftContext else s) = shifted
  have made : s.makeRoom = shifted := room
  rw [made] at stops ⊢
  dsimp only
  rw [if_pos stops]
  exact ⟨rfl, rfl⟩

theorem generateNextToken_refused (vocab : Vocab τ) (token : τ) (s : AiChat τ) :
    (s.generateNextToken vocab size token false).positions = s.makeRoom.positions ∧
      (s.generateNextToken vocab size token false).last = some (.token none) := by
  by_cases stops : s.makeRoom.stopGenerationPosition ≤ s.makeRoom.positions.current
  · exact generateNextToken_stopped stops
  · unfold AiChat.generateNextToken
    generalize room : (if maxBatchSize ≤ s.positions.current then s.shiftContext else s) = shifted
    have made : s.makeRoom = shifted := room
    rw [made] at stops ⊢
    dsimp only
    rw [if_neg stops]
    exact ⟨rfl, rfl⟩

theorem generateNextToken_decoded (vocab : Vocab τ) (token : τ)
    (goesOn : ¬ s.makeRoom.stopGenerationPosition ≤ s.makeRoom.positions.current) :
    (s.generateNextToken vocab size token true).positions = s.makeRoom.positions.advance 1 := by
  unfold AiChat.generateNextToken
  generalize room : (if maxBatchSize ≤ s.positions.current then s.shiftContext else s) = shifted
  have made : s.makeRoom = shifted := room
  rw [made] at goesOn ⊢
  dsimp only
  rw [if_neg goesOn]
  simp only [Bool.not_true, Bool.false_eq_true, if_false]
  split
  · rfl
  · split <;> rfl

end Chat

section Step

variable {m : MemoryChat τ} {size start : Nat} {items tokens : List τ} {nPredict : Int} {computes : Nat → Int}

theorem makeRoom_chat (m : MemoryChat τ) : m.makeRoom.chat = m.chat.makeRoom := by
  unfold MemoryChat.makeRoom AiChat.makeRoom
  split <;> rfl

theorem inStep_makeRoom (inStep : InStep m start items) : ∃ start items, InStep m.makeRoom start items := by
  unfold MemoryChat.makeRoom
  split
  · exact ⟨_, _, inStep_shift inStep⟩
  · exact ⟨_, _, inStep⟩

theorem ahead_makeRoom (ahead : Ahead m) : Ahead m.makeRoom := by
  unfold MemoryChat.makeRoom
  split
  · exact ahead_shift ahead
  · exact ahead

theorem single_consecutive (token : τ) (position : Nat) (logits : Bool) :
    Batch.Consecutive [⟨token, position, logits⟩] position := ⟨rfl, List.cons_ne_nil _ _⟩

def MemoryChat.puts (token : τ) (result : Int) (m : MemoryChat τ) : Bool :=
  !(m.makeRoom.chat.stopGenerationPosition ≤ m.makeRoom.chat.positions.current) &&
    (m.makeRoom.cache.decode [⟨token, m.makeRoom.chat.positions.current, true⟩] result).2 = 0

theorem generateNextToken_inStep {vocab : Vocab τ} {token : τ} {result : Int} (inStep : InStep m.makeRoom start items) :
    InStep (m.generateNextToken vocab size token result) start (items ++ if m.puts token result then [token] else []) ∧
      (m.generateNextToken vocab size token result).chat.positions.systemPrompt = m.chat.positions.systemPrompt := by
  have systemPrompt : m.chat.makeRoom.positions.systemPrompt = m.chat.positions.systemPrompt :=
    (sameText_makeRoom m.chat).systemPrompt
  unfold MemoryChat.generateNextToken MemoryChat.puts
  dsimp only
  split
  · rename_i stops
    have put : decide (m.makeRoom.chat.stopGenerationPosition ≤ m.makeRoom.chat.positions.current) = true :=
      decide_eq_true stops
    rw [makeRoom_chat] at stops
    obtain ⟨positions, -⟩ := @generateNextToken_stopped _ size _ vocab token true stops
    simp only [put, Bool.not_true, Bool.false_and, Bool.false_eq_true, if_false, List.append_nil]
    exact ⟨inStep_of_same inStep (by rw [makeRoom_chat]; exact positions) rfl, by rw [positions, systemPrompt]⟩
  · rename_i goesOn
    have goes : decide (m.makeRoom.chat.stopGenerationPosition ≤ m.makeRoom.chat.positions.current) = false :=
      decide_eq_false goesOn
    rw [makeRoom_chat] at goesOn
    simp only [goes, Bool.not_false, Bool.true_and]
    rcases decode_cases (single_consecutive token m.makeRoom.chat.positions.current true) m.makeRoom.cache result with
      filled | refused
    · have outcome : decide ((m.makeRoom.cache.decode [⟨token, m.makeRoom.chat.positions.current, true⟩] result).2 = 0) = true :=
        decide_eq_true filled.code
      have positions := @generateNextToken_decoded _ size m.chat vocab token goesOn
      rw [outcome, if_pos rfl]
      refine ⟨⟨?_, ?_⟩, by rw [positions]; exact systemPrompt⟩
      · dsimp only
        rw [filled.same, inStep.cells, inStep.current, List.zipIdx_append]
        rfl
      · rw [positions, ← makeRoom_chat]
        simp only [ChatPositions.advance, inStep.current, List.length_append, List.length_singleton, Nat.add_assoc]
    · have outcome : decide ((m.makeRoom.cache.decode [⟨token, m.makeRoom.chat.positions.current, true⟩] result).2 = 0) = false :=
        decide_eq_false refused.code
      obtain ⟨positions, -⟩ := @generateNextToken_refused _ size vocab token m.chat
      rw [outcome, if_neg Bool.false_ne_true, List.append_nil]
      refine ⟨inStep_of_same inStep ?_ (congrArg KvCache.cells refused.same), by rw [positions, systemPrompt]⟩
      rw [makeRoom_chat]
      exact positions

theorem generateNextToken_ahead {vocab : Vocab τ} {token : τ} {result : Int} (ahead : Ahead m) :
    Ahead (m.generateNextToken vocab size token result) ∧
      (m.generateNextToken vocab size token result).chat.last = some (.token none) := by
  have still := ahead_makeRoom ahead
  unfold MemoryChat.generateNextToken
  dsimp only
  split
  · rename_i stops
    rw [makeRoom_chat] at stops
    obtain ⟨positions, last⟩ := @generateNextToken_stopped _ size _ vocab token true stops
    exact ⟨ahead_of_same still (by rw [makeRoom_chat]; exact positions) rfl, last⟩
  · obtain ⟨positions, last⟩ := @generateNextToken_refused _ size vocab token m.chat
    rcases decode_cases (single_consecutive token m.makeRoom.chat.positions.current true) m.makeRoom.cache result with
      filled | refused
    · exact absurd filled.follows (not_follows_of_ahead still)
    · have outcome : decide ((m.makeRoom.cache.decode [⟨token, m.makeRoom.chat.positions.current, true⟩] result).2 = 0) = false :=
        decide_eq_false refused.code
      rw [outcome]
      exact ⟨ahead_of_same still (by rw [makeRoom_chat]; exact positions) refused.same, last⟩

theorem take_ne_nil (some : tokens ≠ []) : tokens.take maxBatchSize ≠ [] := by
  rw [← List.length_pos_iff, List.length_take]
  exact Nat.lt_min.mpr ⟨by decide, List.length_pos_iff.mpr some⟩

theorem batchCapacity_pos (m : MemoryChat τ) : 0 < max 1 m.chat.runtimeBatchCapacity :=
  Nat.lt_of_lt_of_le Nat.one_pos (Nat.le_max_left _ _)

theorem processUserPrompt_ahead (ahead : Ahead m) :
    Ahead (m.processUserPrompt size tokens nPredict computes) ∧
      (tokens ≠ [] → (m.processUserPrompt size tokens nPredict computes).chat.last = some (.code 2)) := by
  by_cases none : tokens = []
  · subst none
    refine ⟨?_, fun some => absurd rfl some⟩
    obtain ⟨cell, member, behind⟩ := ahead
    exact ⟨cell, member, behind⟩
  · have still : Ahead (m.onChat AiChat.resetShortTermStates) := ahead
    obtain ⟨outcome, after⟩ := @decodeFrom_ahead _ _ size _ _ _ true computes
      (batchCapacity_pos (m.onChat AiChat.resetShortTermStates)) (take_ne_nil none) (Nat.le_refl _) still
    unfold MemoryChat.processUserPrompt MemoryChat.decodeTokensInBatches
    dsimp only
    rw [outcome]
    exact ⟨after, fun _ => rfl⟩

/-- A user prompt after which the context has been shifted under it. -/
def Discards (m : MemoryChat τ) (tokens : List τ) : Prop :=
  maxBatchSize ≤ m.chat.positions.current + min tokens.length maxBatchSize ∧
    m.chat.positions.systemPrompt + 2 ≤ m.chat.positions.current

/-- What a prompt can lead to from a memory in step: it is refused, or there is a part of it in the memory that the
    position does not count, or all of it comes behind the rest. -/
inductive Prompted (m : MemoryChat τ) (start : Nat) (items tokens : List τ) (after : MemoryChat τ) : Prop
  | refused {start' : Nat} {items' : List τ} : after.chat.last = some (.code 2) → InStep after start' items' →
      Prompted m start items tokens after
  | partly : after.chat.last = some (.code 2) → Ahead after → Prompted m start items tokens after
  | shifted : after.chat.last = some (.code 0) → Discards m tokens → Ahead after → Prompted m start items tokens after
  | taken : after.chat.last = some (.code 0) → ¬ Discards m tokens →
      InStep after start (items ++ tokens.take maxBatchSize) → Prompted m start items tokens after

theorem processUserPrompt_prompted (some : tokens ≠ []) (inStep : InStep m start items) :
    Prompted m start items tokens (m.processUserPrompt size tokens nPredict computes) := by
  let reset := m.onChat AiChat.resetShortTermStates
  have still : InStep reset start items := inStep_of_same inStep rfl rfl
  have length : (tokens.take maxBatchSize).length = min tokens.length maxBatchSize := by
    rw [List.length_take, Nat.min_comm]
  have filled := List.length_pos_iff.mpr (take_ne_nil some)
  obtain ⟨succeeds, chat⟩ := @decodeTokensInBatches_chat _ size (tokens.take maxBatchSize) true computes reset
  have cases := @decodeFrom_inStep _ _ size _ _ _ _ _ true computes
    (batchCapacity_pos reset) (take_ne_nil some) (Nat.le_refl _) still
  change (reset.decodeTokensInBatches size (tokens.take maxBatchSize) true computes).2 = false ∧
    (∃ start items, InStep (reset.decodeTokensInBatches size (tokens.take maxBatchSize) true computes).1 start items) ∨
    ∃ decoded, Advanced (reset.decodeTokensInBatches size (tokens.take maxBatchSize) true computes).1 _ decoded _ _ _ ∧
      ((reset.decodeTokensInBatches size (tokens.take maxBatchSize) true computes).2 = true → _) at cases
  unfold MemoryChat.processUserPrompt
  dsimp only
  change Prompted m start items tokens
    (if (!(reset.decodeTokensInBatches size (tokens.take maxBatchSize) true computes).2) = true then _ else _)
  generalize reset.decodeTokensInBatches size (tokens.take maxBatchSize) true computes = done at cases chat ⊢
  obtain ⟨after, ok⟩ := done
  dsimp only at cases chat ⊢
  cases ok with
  | false =>
    rw [if_pos Bool.not_false]
    rcases cases with ⟨-, start', items', refused⟩ | ⟨decoded, advanced, -⟩
    · exact .refused rfl (inStep_of_same refused rfl rfl)
    · exact .partly rfl (ahead_of_same advanced.ahead rfl rfl)
  | true =>
    rcases cases with ⟨wrong, -⟩ | ⟨decoded, advanced, all⟩
    · cases wrong
    · rw [all rfl] at advanced
      have positions := congrArg (fun result => result.1.positions) chat
      have outcome := congrArg Prod.snd chat
      dsimp only at positions outcome
      rw [if_neg (by simp)]
      by_cases discards : Discards m tokens
      · have below : after.chat.positions.current < m.chat.positions.current := by
          rw [← positions]
          refine decodeFrom_shifted (batchCapacity_pos reset) (by omega) filled ?_ (Nat.le_refl _) discards.2 outcome
          rw [length]
          exact discards.1
        obtain ⟨cell, member, place⟩ := advanced.holds
        refine .shifted rfl discards ⟨cell, member, ?_⟩
        show after.chat.positions.current + (tokens.take maxBatchSize).length ≤ cell.2
        change cell.2 + 1 = m.chat.positions.current + _ at place
        omega
      · have same : after.chat.positions = m.chat.positions := by
          rw [← positions]
          apply decodeFrom_positions
          intro far
          by_contra large
          rw [length] at far
          exact discards ⟨far, by change ¬ m.chat.positions.current ≤ m.chat.positions.systemPrompt + 1 at large; omega⟩
        obtain ⟨place, cells⟩ := advanced.exact (by rw [same]; rfl)
        rw [List.take_length] at cells
        refine .taken rfl discards ⟨cells, ?_⟩
        show after.chat.positions.current + (tokens.take maxBatchSize).length = _
        rw [same, inStep.current, List.length_append, Nat.add_assoc]

theorem processSystemPrompt_decoded {systemTokens : List τ} (some : systemTokens ≠ [])
    (short : ¬ maxBatchSize < systemTokens.length)
    (decoded : ((m.resetLongTermStates.onChat AiChat.resetShortTermStates).decodeTokensInBatches size systemTokens false
      computes).2 = true) :
    InStep (m.processSystemPrompt size systemTokens computes) 0 systemTokens ∧
      (m.processSystemPrompt size systemTokens computes).chat.positions.systemPrompt = systemTokens.length := by
  let reset := m.resetLongTermStates.onChat AiChat.resetShortTermStates
  have fresh : InStep reset 0 [] := ⟨rfl, rfl⟩
  have cases := @decodeFrom_inStep _ _ size _ _ _ _ _ false computes
    (batchCapacity_pos reset) some (Nat.le_refl _) fresh
  rcases cases with ⟨wrong, -⟩ | ⟨count, advanced, all⟩
  · exact absurd (decoded.symm.trans wrong) (by simp)
  · rw [all decoded] at advanced
    have behind := advanced.behind
    obtain ⟨-, cells⟩ := advanced.exact (Nat.le_antisymm behind (Nat.zero_le _))
    rw [List.take_length, List.nil_append] at cells
    unfold MemoryChat.processSystemPrompt
    dsimp only
    rw [if_neg short, decoded]
    exact ⟨⟨cells, (Nat.zero_add _).symm⟩, rfl⟩

theorem processSystemPrompt_prompted {systemTokens : List τ} :
    (∃ start items, InStep (m.processSystemPrompt size systemTokens computes) start items) ∨
      Ahead (m.processSystemPrompt size systemTokens computes) := by
  let reset := m.resetLongTermStates.onChat AiChat.resetShortTermStates
  have fresh : InStep reset 0 [] := ⟨rfl, rfl⟩
  by_cases long : maxBatchSize < systemTokens.length
  · unfold MemoryChat.processSystemPrompt
    rw [if_pos long]
    exact .inl ⟨0, [], inStep_of_same fresh rfl rfl⟩
  · by_cases none : systemTokens = []
    · subst none
      exact .inl ⟨0, [], inStep_of_same fresh rfl rfl⟩
    · cases outcome : (reset.decodeTokensInBatches size systemTokens false computes).2 with
      | true => exact .inl ⟨0, systemTokens, (processSystemPrompt_decoded none long outcome).1⟩
      | false =>
        have cases := @decodeFrom_inStep _ _ size _ _ _ _ _ false computes
          (batchCapacity_pos reset) none (Nat.le_refl _) fresh
        have after : m.processSystemPrompt size systemTokens computes =
            (reset.decodeTokensInBatches size systemTokens false computes).1.onChat
              fun s => { s with last := some (.code 2) } := by
          unfold MemoryChat.processSystemPrompt
          dsimp only
          rw [if_neg long, if_pos]
          rw [outcome]
          rfl
        rw [after]
        rcases cases with ⟨-, start', items', refused⟩ | ⟨decoded, advanced, -⟩
        · exact .inl ⟨_, _, inStep_of_same refused rfl rfl⟩
        · exact .inr (ahead_of_same advanced.ahead rfl rfl)

end Step

section Runs

variable {vocab : Vocab τ} {m after : MemoryChat τ} {event : MemoryEvent τ}

def MemoryEvent.Continues : MemoryEvent τ → Prop
  | .configureGeneration _ | .processUserPrompt .. | .generateNextToken .. => True
  | _ => False

def MemoryEvent.Silent (after : MemoryChat τ) : MemoryEvent τ → Prop
  | .processUserPrompt tokens _ _ => tokens ≠ [] → after.chat.last = some (.code 2)
  | .generateNextToken _ _ => after.chat.last = some (.token none)
  | _ => True

def Stuck (vocab : Vocab τ) (m : MemoryChat τ) : Prop :=
  ∀ history final, Run (MemoryChat.step vocab) m history final → Guarded (fun _ event => event.Continues) history →
    Guarded (fun state event => ∀ after, state.step vocab event = some after → event.Silent after) history

theorem ahead_step (ahead : Ahead m) (continues : event.Continues) (taken : m.step vocab event = some after) :
    Ahead after ∧ event.Silent after := by
  cases event with
  | configureGeneration nCtx =>
    cases taken
    exact ⟨ahead, trivial⟩
  | processUserPrompt tokens nPredict computes =>
    obtain ⟨size, context, rfl⟩ := Option.map_eq_some_iff.mp taken
    exact processUserPrompt_ahead ahead
  | generateNextToken newTokenId computes =>
    obtain ⟨size, context, rfl⟩ := Option.map_eq_some_iff.mp taken
    exact generateNextToken_ahead ahead
  | prepare succeeds => cases continues
  | processSystemPrompt systemTokens computes => cases continues
  | unload => cases continues

theorem stuck_of_ahead (ahead : Ahead m) : Stuck vocab m := by
  intro history final run continues
  have always := run.always_of_guarded ahead
    (fun _ _ _ ahead continues taken => (@ahead_step _ vocab _ _ _ ahead continues taken).1) continues
  intro taken member after stepped
  exact (ahead_step (always.1 taken member) (continues taken member) stepped).2

def Located (m : MemoryChat τ) : Prop := (∃ start items, InStep m start items) ∨ Ahead m

theorem located_of_same (located : Located m) (positions : after.chat.positions = m.chat.positions)
    (cache : after.cache = m.cache) : Located after := by
  rcases located with ⟨start, items, inStep⟩ | ahead
  · exact .inl ⟨start, items, inStep_of_same inStep positions (congrArg KvCache.cells cache)⟩
  · exact .inr (ahead_of_same ahead positions cache)

theorem located_step (located : Located m) (taken : m.step vocab event = some after) : Located after := by
  cases event with
  | configureGeneration nCtx =>
    cases taken
    exact located_of_same located rfl rfl
  | prepare succeeds =>
    cases taken
    cases succeeds with
    | false => exact located_of_same located rfl rfl
    | true => exact .inl ⟨m.chat.positions.current, [], rfl, rfl⟩
  | processSystemPrompt systemTokens computes =>
    obtain ⟨size, context, rfl⟩ := Option.map_eq_some_iff.mp taken
    exact processSystemPrompt_prompted
  | processUserPrompt tokens nPredict computes =>
    obtain ⟨size, context, rfl⟩ := Option.map_eq_some_iff.mp taken
    rcases located with ⟨start, items, inStep⟩ | ahead
    · by_cases none : tokens = []
      · subst none
        exact .inl ⟨start, items, inStep.cells, inStep.current⟩
      · cases @processUserPrompt_prompted _ _ size _ _ _ nPredict computes none inStep with
        | refused last inStep => exact .inl ⟨_, _, inStep⟩
        | partly last ahead => exact .inr ahead
        | shifted last discards ahead => exact .inr ahead
        | taken last discards inStep => exact .inl ⟨_, _, inStep⟩
    · exact .inr (processUserPrompt_ahead ahead).1
  | generateNextToken newTokenId computes =>
    obtain ⟨size, context, rfl⟩ := Option.map_eq_some_iff.mp taken
    rcases located with ⟨start, items, inStep⟩ | ahead
    · obtain ⟨start', items', shifted⟩ := inStep_makeRoom inStep
      exact .inl ⟨_, _, (generateNextToken_inStep shifted).1⟩
    · exact .inr (generateNextToken_ahead ahead).1
  | unload =>
    obtain ⟨size, context, rfl⟩ := Option.map_eq_some_iff.mp taken
    exact .inl ⟨0, [], rfl, rfl⟩

theorem always_located {history : List (MemoryChat τ × MemoryEvent τ)} {final : MemoryChat τ}
    (run : MemoryRun vocab history final) : Always Located history final :=
  run.always (.inl ⟨0, [], rfl, rfl⟩) fun _ _ _ located taken => located_step located taken

/-- In every state of a run, the memory holds a row of tokens that ends right before the current position, or the chat
    stays silent until it is begun anew. -/
theorem always_inStep_or_stuck {history : List (MemoryChat τ × MemoryEvent τ)} {final : MemoryChat τ}
    (run : MemoryRun vocab history final) :
    Always (fun m => (∃ start items, InStep m start items) ∨ Stuck vocab m) history final :=
  (always_located run).mono fun _ located => located.imp_right stuck_of_ahead

theorem always_inStep_or_stuck_dialogue : Always
    (fun m => (∃ start items, InStep m start items) ∨ Stuck chatVocab m) dialogue
    (addressed.generateNextToken chatVocab 8192 () 0) := always_inStep_or_stuck memoryRun_dialogue

end Runs

end Engine
