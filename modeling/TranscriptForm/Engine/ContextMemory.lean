import TranscriptForm.Engine.ChatStream
import TranscriptForm.Engine.KvCache

-- The chat with the memory of its context, which answers the decodes that the chat alone leaves open.
namespace Engine

open Numbering Transition

variable {τ : Type}

structure MemoryChat (τ : Type) where
  chat : AiChat τ := {}
  cache : KvCache τ := { size := 0 }

/-- `GGML_PAD(n_ctx, 256)` -/
def paddedContext (nCtx : Nat) : Nat := (nCtx + 255) / 256 * 256

namespace MemoryChat

def onChat (change : AiChat τ → AiChat τ) (m : MemoryChat τ) : MemoryChat τ := { m with chat := change m.chat }

def resetLongTermStates (m : MemoryChat τ) : MemoryChat τ where
  chat := m.chat.resetLongTermStates
  cache := m.cache.clear

def shiftContext (m : MemoryChat τ) : MemoryChat τ :=
  let systemPromptPosition := m.chat.positions.systemPrompt
  let currentPosition := m.chat.positions.current
  let nDiscard := (currentPosition - systemPromptPosition) / 2
  let removed := m.cache.seqRm systemPromptPosition (systemPromptPosition + nDiscard : Nat)
  { chat := m.chat.shiftContext
    cache := removed.seqAdd (systemPromptPosition + nDiscard : Nat) currentPosition (-nDiscard) }

def llamaDecode (size : Nat) (batch : Batch τ) (computes : Int) (m : MemoryChat τ) : MemoryChat τ × Bool :=
  let decoded := m.cache.decode batch computes
  ({ chat := m.chat.llamaDecode size batch, cache := decoded.1 }, decoded.2 = 0)

def decodeFrom (size : Nat) (tokens : List τ) (startPos : Nat) (computeLastLogit : Bool) (computes : Nat → Int)
    (batchCapacity : Nat) : Nat → Nat → MemoryChat τ → MemoryChat τ × Bool
  | 0, _, m => (m, true)
  | rounds + 1, i, m =>
    if i < tokens.length then
      let curBatchSize := min (tokens.length - i) batchCapacity
      let m := if maxBatchSize ≤ startPos + i + curBatchSize then shiftContext m else m
      let decoded := m.llamaDecode size (chatBatch tokens startPos computeLastLogit i curBatchSize) (computes i)
      if !decoded.2 then (decoded.1, false)
      else decodeFrom size tokens startPos computeLastLogit computes batchCapacity rounds (i + batchCapacity) decoded.1
    else (m, true)

def decodeTokensInBatches (size : Nat) (tokens : List τ) (computeLastLogit : Bool) (computes : Nat → Int)
    (m : MemoryChat τ) : MemoryChat τ × Bool :=
  m.decodeFrom size tokens m.chat.positions.current computeLastLogit computes (max 1 m.chat.runtimeBatchCapacity)
    tokens.length 0

def prepare (succeeds : Bool) (m : MemoryChat τ) : MemoryChat τ where
  chat := m.chat.prepare succeeds
  cache := if succeeds then { size := paddedContext m.chat.runtimeNCtx } else m.cache

def processSystemPrompt (size : Nat) (systemTokens : List τ) (computes : Nat → Int) (m : MemoryChat τ) : MemoryChat τ :=
  let m := onChat AiChat.resetShortTermStates (resetLongTermStates m)
  if maxBatchSize < systemTokens.length then m.onChat fun s => { s with last := some (.code 1) }
  else
    let decoded := decodeTokensInBatches size systemTokens false computes m
    if !decoded.2 then decoded.1.onChat fun s => { s with last := some (.code 2) }
    else decoded.1.onChat fun s => { s with positions := .atSystemPrompt systemTokens.length, last := some (.code 0) }

def processUserPrompt (size : Nat) (tokens : List τ) (nPredict : Int) (computes : Nat → Int) (m : MemoryChat τ) :
    MemoryChat τ :=
  let m := onChat AiChat.resetShortTermStates m
  let userTokens := tokens.take maxBatchSize
  let decoded := decodeTokensInBatches size userTokens true computes m
  if !decoded.2 then decoded.1.onChat fun s => { s with last := some (.code 2) }
  else
    let positions := decoded.1.chat.positions.advance userTokens.length
    decoded.1.onChat fun s =>
      { s with
        positions := positions
        stopGenerationPosition := llamaPos (positions.current + userTokens.length + nPredict)
        last := some (.code 0) }

def makeRoom (m : MemoryChat τ) : MemoryChat τ := if maxBatchSize ≤ m.chat.positions.current then m.shiftContext else m

/-- The token after the sampling, as far as the memory is concerned. The chat makes the rest of it. -/
def generateNextToken (vocab : Vocab τ) (size : Nat) (newTokenId : τ) (computes : Int) (m : MemoryChat τ) : MemoryChat τ :=
  let shifted := m.makeRoom
  let position := shifted.chat.positions.current
  if shifted.chat.stopGenerationPosition ≤ position then
    { chat := m.chat.generateNextToken vocab size newTokenId true, cache := shifted.cache }
  else
    let decoded := shifted.cache.decode [⟨newTokenId, position, true⟩] computes
    { chat := m.chat.generateNextToken vocab size newTokenId (decoded.2 = 0), cache := decoded.1 }

def unload (m : MemoryChat τ) : MemoryChat τ where
  chat := m.chat.unload
  cache := m.cache.clear

end MemoryChat

inductive MemoryEvent (τ : Type)
  | configureGeneration (nCtx : Int)
  | prepare (succeeds : Bool)
  | processSystemPrompt (systemTokens : List τ) (computes : Nat → Int)
  | processUserPrompt (tokens : List τ) (nPredict : Int) (computes : Nat → Int)
  | generateNextToken (newTokenId : τ) (computes : Int)
  | unload

def MemoryChat.step (vocab : Vocab τ) (m : MemoryChat τ) : MemoryEvent τ → Option (MemoryChat τ)
  | .configureGeneration nCtx => some (m.onChat (·.configureGeneration nCtx))
  | .prepare succeeds => some (m.prepare succeeds)
  | .processSystemPrompt systemTokens computes =>
    m.chat.context.map fun size => m.processSystemPrompt size systemTokens computes
  | .processUserPrompt tokens nPredict computes =>
    m.chat.context.map fun size => m.processUserPrompt size tokens nPredict computes
  | .generateNextToken newTokenId computes =>
    m.chat.context.map fun size => m.generateNextToken vocab size newTokenId computes
  | .unload => m.chat.context.map fun _ => m.unload

abbrev MemoryRun (vocab : Vocab τ) := Run (MemoryChat.step vocab) {}

section Simulation

variable {vocab : Vocab τ} {size startPos i rounds batchCapacity : Nat} {tokens : List τ} {computeLastLogit : Bool}
  {m : MemoryChat τ}

theorem decodeFrom_congr {succeeds succeeds' : Nat → Bool} {s : AiChat τ} (same : ∀ j, i ≤ j → succeeds j = succeeds' j) :
    AiChat.decodeFrom size tokens startPos computeLastLogit succeeds batchCapacity rounds i s =
      AiChat.decodeFrom size tokens startPos computeLastLogit succeeds' batchCapacity rounds i s := by
  induction rounds generalizing i s with
  | zero => rfl
  | succ rounds ih =>
    rw [AiChat.decodeFrom, AiChat.decodeFrom, same i (Nat.le_refl i)]
    dsimp only
    rw [ih fun j later => same j (Nat.le_of_add_right_le later)]

/-- Whatever the memory answers, the chat takes it as one of the outcomes it reckons with. -/
theorem decodeFrom_chat (capacity : 0 < batchCapacity) (computes : Nat → Int) (m : MemoryChat τ) : ∃ succeeds,
    AiChat.decodeFrom size tokens startPos computeLastLogit succeeds batchCapacity rounds i m.chat =
      ((m.decodeFrom size tokens startPos computeLastLogit computes batchCapacity rounds i).1.chat,
        (m.decodeFrom size tokens startPos computeLastLogit computes batchCapacity rounds i).2) := by
  induction rounds generalizing i m with
  | zero => exact ⟨fun _ => true, rfl⟩
  | succ rounds ih =>
    by_cases more : i < tokens.length
    · let shifted := if maxBatchSize ≤ startPos + i + min (tokens.length - i) batchCapacity then m.shiftContext else m
      let decoded := shifted.llamaDecode size
        (chatBatch tokens startPos computeLastLogit i (min (tokens.length - i) batchCapacity)) (computes i)
      have chat : decoded.1.chat = AiChat.llamaDecode size
          (chatBatch tokens startPos computeLastLogit i (min (tokens.length - i) batchCapacity))
          (if maxBatchSize ≤ startPos + i + min (tokens.length - i) batchCapacity then m.chat.shiftContext else m.chat) := by
        show AiChat.llamaDecode size _ shifted.chat = _
        congr 1
        show (if _ then _ else _ : MemoryChat τ).chat = _
        split <;> rfl
      obtain ⟨later, laterIs⟩ := @ih (i + batchCapacity) decoded.1
      refine ⟨fun j => if j = i then decoded.2 else later j, ?_⟩
      have unfolded : m.decodeFrom size tokens startPos computeLastLogit computes batchCapacity (rounds + 1) i =
          if (!decoded.2) = true then (decoded.1, false)
          else decoded.1.decodeFrom size tokens startPos computeLastLogit computes batchCapacity rounds
            (i + batchCapacity) := by
        rw [MemoryChat.decodeFrom, if_pos more]
      rw [unfolded, AiChat.decodeFrom, if_pos more]
      dsimp only
      rw [if_pos rfl, ← chat]
      cases outcome : decoded.2 with
      | false => rfl
      | true =>
        simp only [Bool.not_true, Bool.false_eq_true, if_false]
        rw [← laterIs]
        apply decodeFrom_congr
        intro j behind
        exact if_neg (by omega)
    · refine ⟨fun _ => true, ?_⟩
      rw [AiChat.decodeFrom, MemoryChat.decodeFrom, if_neg more, if_neg more]

theorem decodeTokensInBatches_chat (computes : Nat → Int) (m : MemoryChat τ) : ∃ succeeds,
    m.chat.decodeTokensInBatches size tokens computeLastLogit succeeds =
      ((m.decodeTokensInBatches size tokens computeLastLogit computes).1.chat,
        (m.decodeTokensInBatches size tokens computeLastLogit computes).2) :=
  decodeFrom_chat (Nat.lt_of_lt_of_le Nat.one_pos (Nat.le_max_left _ _)) computes m

theorem processUserPrompt_chat {nPredict : Int} (computes : Nat → Int) (m : MemoryChat τ) : ∃ succeeds,
    m.chat.processUserPrompt size tokens nPredict succeeds = (m.processUserPrompt size tokens nPredict computes).chat := by
  obtain ⟨succeeds, decoded⟩ := @decodeTokensInBatches_chat _ size (tokens.take maxBatchSize) true computes
    (m.onChat AiChat.resetShortTermStates)
  refine ⟨succeeds, ?_⟩
  unfold AiChat.processUserPrompt MemoryChat.processUserPrompt
  change _ = (if _ then _ else _ : MemoryChat τ).chat
  have same : (m.onChat AiChat.resetShortTermStates).chat = m.chat.resetShortTermStates := rfl
  rw [same] at decoded
  dsimp only
  rw [decoded]
  split <;> rfl

/-- The chat with its memory does nothing that the chat alone cannot do. -/
theorem memory_refines (event : MemoryEvent τ) (after : MemoryChat τ) (taken : m.step vocab event = some after) :
    ∃ chatEvent, m.chat.step vocab chatEvent = some after.chat := by
  cases event with
  | configureGeneration nCtx =>
    cases taken
    exact ⟨.configureGeneration nCtx, rfl⟩
  | prepare succeeds =>
    cases taken
    exact ⟨.prepare succeeds, rfl⟩
  | processSystemPrompt systemTokens computes =>
    obtain ⟨size, context, rfl⟩ := Option.map_eq_some_iff.mp taken
    obtain ⟨succeeds, decoded⟩ := @decodeTokensInBatches_chat _ size systemTokens false computes
      (m.resetLongTermStates.onChat AiChat.resetShortTermStates)
    refine ⟨.processSystemPrompt systemTokens succeeds, ?_⟩
    rw [AiChat.step, context, Option.map_some]
    unfold AiChat.processSystemPrompt MemoryChat.processSystemPrompt
    change _ = some (if _ then _ else _ : MemoryChat τ).chat
    have same : (m.resetLongTermStates.onChat AiChat.resetShortTermStates).chat =
      m.chat.resetLongTermStates.resetShortTermStates := rfl
    rw [same] at decoded
    dsimp only
    rw [decoded]
    split
    · rfl
    · split <;> rfl
  | processUserPrompt tokens nPredict computes =>
    obtain ⟨size, context, rfl⟩ := Option.map_eq_some_iff.mp taken
    obtain ⟨succeeds, same⟩ := @processUserPrompt_chat _ size tokens nPredict computes m
    exact ⟨.processUserPrompt tokens nPredict succeeds, by rw [AiChat.step, context, Option.map_some, same]⟩
  | generateNextToken newTokenId computes =>
    obtain ⟨size, context, rfl⟩ := Option.map_eq_some_iff.mp taken
    unfold MemoryChat.generateNextToken
    dsimp only
    split
    · exact ⟨.generateNextToken newTokenId true, by rw [AiChat.step, context, Option.map_some]⟩
    · exact ⟨.generateNextToken newTokenId _, by rw [AiChat.step, context, Option.map_some]⟩
  | unload =>
    obtain ⟨size, context, rfl⟩ := Option.map_eq_some_iff.mp taken
    exact ⟨.unload, by rw [AiChat.step, context, Option.map_some]; rfl⟩

theorem memoryRun_chat {history : List (MemoryChat τ × MemoryEvent τ)} {final : MemoryChat τ}
    (run : MemoryRun vocab history final) :
    ∃ simulated, ChatRun vocab simulated final.chat ∧ simulated.map Prod.fst = history.map fun taken => taken.1.chat :=
  run.simulate MemoryChat.chat fun _ event after taken => memory_refines event after taken

end Simulation

section Sample

def remembering : MemoryChat Unit := ({} : MemoryChat Unit).prepare true

def briefed : MemoryChat Unit := remembering.processSystemPrompt 8192 [(), ()] fun _ => 0

def addressed : MemoryChat Unit := briefed.processUserPrompt 8192 [(), (), ()] 5 fun _ => 0

def dialogue : List (MemoryChat Unit × MemoryEvent Unit) :=
  [({}, .prepare true), (remembering, .processSystemPrompt [(), ()] fun _ => 0),
    (briefed, .processUserPrompt [(), (), ()] 5 fun _ => 0), (addressed, .generateNextToken () 0)]

theorem memoryRun_briefed : MemoryRun chatVocab (dialogue.take 2) briefed := by
  have first : MemoryRun chatVocab (dialogue.take 1) remembering := .next .start rfl
  exact first.next
    (show MemoryChat.step chatVocab remembering (.processSystemPrompt [(), ()] fun _ => 0) = some briefed from rfl)

theorem memoryRun_dialogue : MemoryRun chatVocab dialogue (addressed.generateNextToken chatVocab 8192 () 0) := by
  have third : MemoryRun chatVocab (dialogue.take 3) addressed := memoryRun_briefed.next
    (show MemoryChat.step chatVocab briefed (.processUserPrompt [(), (), ()] 5 fun _ => 0) = some addressed from rfl)
  exact third.next (show MemoryChat.step chatVocab addressed (.generateNextToken () 0) = _ from rfl)

end Sample

end Engine
