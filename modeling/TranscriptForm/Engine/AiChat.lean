import TranscriptForm.Library.Runs
import TranscriptForm.Engine.DirectInfer

namespace Engine

open Transition

def defaultContextSize : Nat := 8192

def overflowHeadroom : Nat := 4

def androidRuntimeBatchMax : Nat := 16

/-- `max_batch_size`, and where the context is shifted. -/
def maxBatchSize : Nat := defaultContextSize - overflowHeadroom

/-- A `llama_pos`, an integer of 32 bits. -/
def llamaPos (value : Int) : Int := value.bmod (2 ^ 32)

theorem llamaPos_of_lt {value : Int} (low : -2 ^ 31 ≤ value) (high : value < 2 ^ 31) : llamaPos value = value := by
  rw [llamaPos, Int.bmod_def]
  split <;> omega

theorem llamaPos_wrapped {value : Int} (low : 2 ^ 31 ≤ value) (high : value < 2 ^ 32) : llamaPos value < 0 := by
  rw [llamaPos, Int.bmod_def]
  split <;> omega

structure ChatPositions where
  systemPrompt : Nat
  current : Nat
  ordered : systemPrompt ≤ current

namespace ChatPositions

def start : ChatPositions := ⟨0, 0, Nat.le_refl 0⟩

def atSystemPrompt (size : Nat) : ChatPositions := ⟨size, size, Nat.le_refl size⟩

def advance (positions : ChatPositions) (tokens : Nat) : ChatPositions where
  systemPrompt := positions.systemPrompt
  current := positions.current + tokens
  ordered := Nat.le_add_right_of_le positions.ordered

/-- `shift_context`: the older half of the tokens after the system prompt goes. -/
def shift (positions : ChatPositions) : ChatPositions where
  systemPrompt := positions.systemPrompt
  current := positions.current - (positions.current - positions.systemPrompt) / 2
  ordered := by
    have ordered := positions.ordered
    omega

end ChatPositions

inductive ChatReturn
  | code (value : Nat)
  | token (text : Option Bytes)
  deriving DecidableEq

/-- The globals that the prompts and the generation share, and what was handed to `llama_decode`,
    each batch with the size of the context it went to. -/
structure AiChat (τ : Type) where
  runtimeNCtx : Nat := defaultContextSize
  runtimeBatchCapacity : Nat := androidRuntimeBatchMax
  context : Option Nat := none
  positions : ChatPositions := .start
  stopGenerationPosition : Int := 0
  cachedTokenChars : Bytes := []
  assistant : Bytes := []
  decodes : List (Nat × Batch τ) := []
  last : Option ChatReturn := none

/-- The check of `is_valid_utf8`, with the number of bytes that a character is still to have. A C string ends at its
    first zero byte. -/
def isValidUtf8From : Nat → Bytes → Bool
  | 0, [] => true
  | _ + 1, [] => false
  | 0, byte :: rest =>
    if byte = 0 then true
    else if byte &&& 0x80 = 0 then isValidUtf8From 0 rest
    else if byte &&& 0xE0 = 0xC0 then isValidUtf8From 1 rest
    else if byte &&& 0xF0 = 0xE0 then isValidUtf8From 2 rest
    else if byte &&& 0xF8 = 0xF0 then isValidUtf8From 3 rest
    else false
  | num + 1, byte :: rest => if byte &&& 0xC0 = 0x80 then isValidUtf8From num rest else false

def isValidUtf8 (string : Bytes) : Bool := isValidUtf8From 0 string

variable {τ : Type}

/-- The part of a prompt from the index on, `cur` tokens of it. -/
def chatBatch (tokens : List τ) (startPos : Nat) (computeLastLogit : Bool) (i cur : Nat) : Batch τ :=
  (((tokens.drop i).take cur).zipIdx i).map fun (token, index) =>
    ⟨token, startPos + index, computeLastLogit && index == tokens.length - 1⟩

namespace AiChat

def resetLongTermStates (s : AiChat τ) : AiChat τ := { s with positions := .start }

def resetShortTermStates (s : AiChat τ) : AiChat τ :=
  { s with stopGenerationPosition := 0, cachedTokenChars := [], assistant := [] }

def shiftContext (s : AiChat τ) : AiChat τ := { s with positions := s.positions.shift }

def llamaDecode (size : Nat) (batch : Batch τ) (s : AiChat τ) : AiChat τ := { s with decodes := s.decodes ++ [(size, batch)] }

def configureGeneration (nCtx : Int) (s : AiChat τ) : AiChat τ :=
  { s with runtimeNCtx := (max 128 nCtx).toNat, last := some (.code 0) }

def prepare (succeeds : Bool) (s : AiChat τ) : AiChat τ :=
  if !succeeds then { s with last := some (.code 1) }
  else
    { s with
      context := some s.runtimeNCtx
      runtimeBatchCapacity := max 1 (min androidRuntimeBatchMax s.runtimeNCtx)
      last := some (.code 0) }

/-- The loop of `decode_tokens_in_batches`, at most `rounds` more rounds of it, and whether every decode succeeded. -/
def decodeFrom (size : Nat) (tokens : List τ) (startPos : Nat) (computeLastLogit : Bool) (succeeds : Nat → Bool)
    (batchCapacity : Nat) : Nat → Nat → AiChat τ → AiChat τ × Bool
  | 0, _, s => (s, true)
  | rounds + 1, i, s =>
    if i < tokens.length then
      let curBatchSize := min (tokens.length - i) batchCapacity
      let s := if maxBatchSize ≤ startPos + i + curBatchSize then shiftContext s else s
      let s := llamaDecode size (chatBatch tokens startPos computeLastLogit i curBatchSize) s
      if !succeeds i then (s, false)
      else decodeFrom size tokens startPos computeLastLogit succeeds batchCapacity rounds (i + batchCapacity) s
    else (s, true)

def decodeTokensInBatches (size : Nat) (tokens : List τ) (computeLastLogit : Bool) (succeeds : Nat → Bool)
    (s : AiChat τ) : AiChat τ × Bool :=
  decodeFrom size tokens s.positions.current computeLastLogit succeeds (max 1 s.runtimeBatchCapacity) tokens.length 0 s

def processSystemPrompt (size : Nat) (systemTokens : List τ) (succeeds : Nat → Bool) (s : AiChat τ) : AiChat τ :=
  let s := resetShortTermStates (resetLongTermStates s)
  if maxBatchSize < systemTokens.length then { s with last := some (.code 1) }
  else
    let decoded := decodeTokensInBatches size systemTokens false succeeds s
    if !decoded.2 then { decoded.1 with last := some (.code 2) }
    else { decoded.1 with positions := .atSystemPrompt systemTokens.length, last := some (.code 0) }

def processUserPrompt (size : Nat) (tokens : List τ) (nPredict : Int) (succeeds : Nat → Bool) (s : AiChat τ) : AiChat τ :=
  let s := resetShortTermStates s
  let userTokens := tokens.take maxBatchSize
  let decoded := decodeTokensInBatches size userTokens true succeeds s
  if !decoded.2 then { decoded.1 with last := some (.code 2) }
  else
    let positions := decoded.1.positions.advance userTokens.length
    { decoded.1 with
      positions := positions
      stopGenerationPosition := llamaPos (positions.current + userTokens.length + nPredict)
      last := some (.code 0) }

def generateNextToken (vocab : Vocab τ) (size : Nat) (newTokenId : τ) (succeeds : Bool) (s : AiChat τ) : AiChat τ :=
  let s := if maxBatchSize ≤ s.positions.current then shiftContext s else s
  if s.stopGenerationPosition ≤ s.positions.current then { s with last := some (.token none) }
  else
    let s := llamaDecode size [⟨newTokenId, s.positions.current, true⟩] s
    if !succeeds then { s with last := some (.token none) }
    else
      let s := { s with positions := s.positions.advance 1 }
      if vocab.isEog newTokenId then { s with last := some (.token none) }
      else
        let cachedTokenChars := s.cachedTokenChars ++ vocab.tokenToPiece newTokenId
        if isValidUtf8 cachedTokenChars then
          { s with
            assistant := s.assistant ++ cachedTokenChars
            cachedTokenChars := []
            last := some (.token (some (cString cachedTokenChars))) }
        else { s with cachedTokenChars := cachedTokenChars, last := some (.token (some [])) }

def unload (s : AiChat τ) : AiChat τ := { resetShortTermStates (resetLongTermStates s) with context := none }

end AiChat

inductive ChatEvent (τ : Type)
  | configureGeneration (nCtx : Int)
  | prepare (succeeds : Bool)
  | processSystemPrompt (systemTokens : List τ) (succeeds : Nat → Bool)
  | processUserPrompt (tokens : List τ) (nPredict : Int) (succeeds : Nat → Bool)
  | generateNextToken (newTokenId : τ) (succeeds : Bool)
  | unload

/-- Without a context there is no state after a call that uses it. -/
def AiChat.step (vocab : Vocab τ) (s : AiChat τ) : ChatEvent τ → Option (AiChat τ)
  | .configureGeneration nCtx => some (s.configureGeneration nCtx)
  | .prepare succeeds => some (s.prepare succeeds)
  | .processSystemPrompt systemTokens succeeds => s.context.map fun size => s.processSystemPrompt size systemTokens succeeds
  | .processUserPrompt tokens nPredict succeeds => s.context.map fun size => s.processUserPrompt size tokens nPredict succeeds
  | .generateNextToken newTokenId succeeds => s.context.map fun size => s.generateNextToken vocab size newTokenId succeeds
  | .unload => s.context.map fun _ => s.unload

abbrev ChatRun (vocab : Vocab τ) := Run (AiChat.step vocab) {}

/-- Every position handed to `llama_decode` was smaller than the context. -/
def AiChat.Inside (s : AiChat τ) : Prop := ∀ decode ∈ s.decodes, ∀ entry ∈ decode.2, entry.pos < decode.1

/-- What is decoded next is inside a context of the given size, and so is all that may be generated, or the context is
    shifted in time. -/
structure AiChat.Room (s : AiChat τ) (size : Nat) : Prop where
  current : s.positions.current ≤ size
  stop : s.stopGenerationPosition ≤ size ∨ maxBatchSize ≤ size ∧ s.positions.systemPrompt + 2 ≤ size

/-- What the checks of the source leave out: a context has room for what was processed before it, and a prompt fits into
    the context with all that may follow it. -/
def AiChat.Fits (s : AiChat τ) : ChatEvent τ → Prop
  | .prepare _ => s.Room s.runtimeNCtx
  | .processSystemPrompt systemTokens _ => ∀ size ∈ s.context, systemTokens.length ≤ maxBatchSize → systemTokens.length ≤ size
  | .processUserPrompt tokens nPredict _ => ∀ size ∈ s.context,
      s.positions.current + min tokens.length maxBatchSize ≤ size ∧
        (llamaPos (s.positions.current + 2 * min tokens.length maxBatchSize + nPredict) ≤ size ∨
          maxBatchSize ≤ size ∧ s.positions.systemPrompt + 2 ≤ size)
  | _ => True

section Decode

variable {size startPos i rounds batchCapacity : Nat} {tokens : List τ} {computeLastLogit : Bool} {succeeds : Nat → Bool}
  {s : AiChat τ}

/-- What the decoding of a prompt leaves: everything but the positions, which a shift only moves back, and the batches
    handed over. -/
structure Decoded (size last : Nat) (s after : AiChat τ) : Prop where
  context : after.context = s.context
  capacity : after.runtimeBatchCapacity = s.runtimeBatchCapacity
  systemPrompt : after.positions.systemPrompt = s.positions.systemPrompt
  current : after.positions.current ≤ s.positions.current
  still : last < maxBatchSize ∨ s.positions.current ≤ s.positions.systemPrompt + 1 →
    after.positions.current = s.positions.current
  stop : after.stopGenerationPosition = s.stopGenerationPosition
  decodes : ∃ more, after.decodes = s.decodes ++ more ∧
    ∀ decode ∈ more, decode.1 = size ∧ ∀ entry ∈ decode.2, entry.pos < last

theorem Decoded.refl (size last : Nat) (s : AiChat τ) : Decoded size last s s :=
  ⟨rfl, rfl, rfl, Nat.le_refl _, fun _ => rfl, rfl, [], by simp⟩

theorem Decoded.trans {last : Nat} {first second third : AiChat τ} (left : Decoded size last first second)
    (right : Decoded size last second third) : Decoded size last first third where
  context := right.context.trans left.context
  capacity := right.capacity.trans left.capacity
  systemPrompt := right.systemPrompt.trans left.systemPrompt
  current := right.current.trans left.current
  still none := by
    have first := left.still none
    refine (right.still ?_).trans first
    rw [first, left.systemPrompt]
    exact none
  stop := right.stop.trans left.stop
  decodes := by
    obtain ⟨more, earlier, moreInside⟩ := left.decodes
    obtain ⟨rest, later, restInside⟩ := right.decodes
    refine ⟨more ++ rest, by rw [later, earlier, List.append_assoc], ?_⟩
    exact List.forall_mem_append.mpr ⟨moreInside, restInside⟩

theorem decoded_shift {last : Nat} (size : Nat) (s : AiChat τ) (full : maxBatchSize ≤ last) :
    Decoded size last s s.shiftContext := by
  refine ⟨rfl, rfl, rfl, Nat.sub_le _ _, fun none => ?_, rfl, [], by simp [AiChat.shiftContext]⟩
  simp only [AiChat.shiftContext, ChatPositions.shift]
  omega

theorem chatBatch_positions {cur : Nat} : ∀ entry ∈ chatBatch tokens startPos computeLastLogit i cur,
    entry.pos < startPos + tokens.length := by
  intro entry member
  obtain ⟨⟨token, index⟩, inside, rfl⟩ := List.mem_map.mp member
  have bound := List.snd_lt_of_mem_zipIdx inside
  have above := List.le_snd_of_mem_zipIdx inside
  simp only [List.length_take, List.length_drop] at bound above
  dsimp only
  omega

theorem decoded_llamaDecode {batch : Batch τ} {last : Nat} (inside : ∀ entry ∈ batch, entry.pos < last) (s : AiChat τ) :
    Decoded size last s (s.llamaDecode size batch) := by
  refine ⟨rfl, rfl, rfl, Nat.le_refl _, fun _ => rfl, rfl, [(size, batch)], rfl, ?_⟩
  intro decode member
  rw [List.mem_singleton.mp member]
  exact ⟨rfl, inside⟩

theorem decodeFrom_decoded : Decoded size (startPos + tokens.length) s
    (AiChat.decodeFrom size tokens startPos computeLastLogit succeeds batchCapacity rounds i s).1 := by
  induction rounds generalizing i s with
  | zero => exact .refl _ _ _
  | succ rounds ih =>
    rw [AiChat.decodeFrom]
    split
    · dsimp only
      have shifted : Decoded size (startPos + tokens.length) s
          (if maxBatchSize ≤ startPos + i + min (tokens.length - i) batchCapacity then s.shiftContext else s) := by
        split
        · exact decoded_shift _ _ (by omega)
        · exact .refl _ _ _
      have batch := @chatBatch_positions _ startPos i tokens computeLastLogit (min (tokens.length - i) batchCapacity)
      have handed := shifted.trans (decoded_llamaDecode batch _)
      split
      · exact handed
      · exact handed.trans ih
    · exact .refl _ _ _

theorem decodeTokensInBatches_decoded : Decoded size (s.positions.current + tokens.length) s
    (s.decodeTokensInBatches size tokens computeLastLogit succeeds).1 := decodeFrom_decoded

end Decode

section Invariant

variable {vocab : Vocab τ} {s after : AiChat τ} {size : Nat}

structure AiChat.Kept (s : AiChat τ) : Prop where
  inside : s.Inside
  room : ∀ size, s.context = some size → s.Room size

theorem Decoded.inside {last : Nat} (decoded : Decoded size last s after) (inside : s.Inside) (fits : last ≤ size) :
    after.Inside := by
  obtain ⟨more, decodes, moreInside⟩ := decoded.decodes
  rw [AiChat.Inside, decodes]
  refine List.forall_mem_append.mpr ⟨inside, fun decode member entry inBatch => ?_⟩
  obtain ⟨same, below⟩ := moreInside decode member
  rw [same]
  exact Nat.lt_of_lt_of_le (below entry inBatch) fits

theorem kept_of_room (context : s.context = some size) (inside : s.Inside) (room : s.Room size) : s.Kept where
  inside := inside
  room := by
    intro other same
    rw [context] at same
    cases same
    exact room

theorem kept_prepare (kept : s.Kept) (fits : s.Room s.runtimeNCtx) (succeeds : Bool) : (s.prepare succeeds).Kept := by
  unfold AiChat.prepare
  split
  · exact ⟨kept.inside, fun size context => ⟨(kept.room size context).current, (kept.room size context).stop⟩⟩
  · exact kept_of_room rfl kept.inside ⟨fits.current, fits.stop⟩

theorem kept_processSystemPrompt {systemTokens : List τ} {succeeds : Nat → Bool} (kept : s.Kept)
    (context : s.context = some size) (fits : systemTokens.length ≤ maxBatchSize → systemTokens.length ≤ size) :
    (s.processSystemPrompt size systemTokens succeeds).Kept := by
  have decoded := @decodeTokensInBatches_decoded _ size systemTokens false succeeds
    s.resetLongTermStates.resetShortTermStates
  unfold AiChat.processSystemPrompt
  dsimp only
  generalize AiChat.decodeTokensInBatches size systemTokens false succeeds
    s.resetLongTermStates.resetShortTermStates = done at decoded ⊢
  have stop : done.1.stopGenerationPosition = 0 := decoded.stop
  have current : done.1.positions.current ≤ 0 := decoded.current
  have still : done.1.context = some size := decoded.context.trans context
  split
  · exact kept_of_room context kept.inside ⟨Nat.zero_le _, .inl (Int.natCast_nonneg _)⟩
  · have short : systemTokens.length ≤ size := fits (by omega)
    have inside : done.1.Inside := decoded.inside kept.inside (Nat.le_trans (Nat.le_of_eq (Nat.zero_add _)) short)
    split
    · exact kept_of_room still inside ⟨by dsimp only; omega, .inl (by dsimp only; omega)⟩
    · exact kept_of_room still inside ⟨short, .inl (by dsimp only; omega)⟩

theorem kept_processUserPrompt {tokens : List τ} {nPredict : Int} {succeeds : Nat → Bool} (kept : s.Kept)
    (context : s.context = some size) (prompt : s.positions.current + min tokens.length maxBatchSize ≤ size)
    (room : llamaPos (s.positions.current + 2 * min tokens.length maxBatchSize + nPredict) ≤ size ∨
      maxBatchSize ≤ size ∧ s.positions.systemPrompt + 2 ≤ size) :
    (s.processUserPrompt size tokens nPredict succeeds).Kept := by
  have length : (tokens.take maxBatchSize).length = min tokens.length maxBatchSize := by
    rw [List.length_take, Nat.min_comm]
  have decoded := @decodeTokensInBatches_decoded _ size (tokens.take maxBatchSize) true succeeds s.resetShortTermStates
  unfold AiChat.processUserPrompt
  dsimp only
  generalize AiChat.decodeTokensInBatches size (tokens.take maxBatchSize) true succeeds s.resetShortTermStates = done
    at decoded ⊢
  have stop : done.1.stopGenerationPosition = 0 := decoded.stop
  have current : done.1.positions.current ≤ s.positions.current := decoded.current
  have systemPrompt : done.1.positions.systemPrompt = s.positions.systemPrompt := decoded.systemPrompt
  have still : done.1.context = some size := decoded.context.trans context
  have inside : done.1.Inside := decoded.inside kept.inside (by rw [length]; exact prompt)
  split
  · exact kept_of_room still inside ⟨by dsimp only; omega, .inl (by dsimp only; omega)⟩
  · refine kept_of_room still inside ⟨?_, ?_⟩
    · simp only [ChatPositions.advance, length]
      omega
    · by_cases large : maxBatchSize ≤ size ∧ s.positions.systemPrompt + 2 ≤ size
      · exact .inr (by simpa only [ChatPositions.advance, systemPrompt] using large)
      · have still : done.1.positions.current = s.positions.current := decoded.still (by
          change s.positions.current + (tokens.take maxBatchSize).length < maxBatchSize ∨
            s.positions.current ≤ s.positions.systemPrompt + 1
          omega)
        refine .inl (le_of_eq_of_le ?_ (room.resolve_right large))
        simp only [ChatPositions.advance, length, still]
        congr 1
        omega

theorem generated_inside (room : s.Room size)
    (below : (if maxBatchSize ≤ s.positions.current then s.shiftContext else s).positions.current <
      (if maxBatchSize ≤ s.positions.current then s.shiftContext else s).stopGenerationPosition) :
    (if maxBatchSize ≤ s.positions.current then s.shiftContext else s).positions.current < size := by
  obtain ⟨current, stop⟩ := room
  have ordered := s.positions.ordered
  split at below
  · rename_i full
    rw [if_pos full]
    simp only [AiChat.shiftContext, ChatPositions.shift] at below ⊢
    rcases stop with stop | ⟨large, headroom⟩ <;> omega
  · rename_i free
    rw [if_neg free]
    rcases stop with stop | ⟨large, headroom⟩ <;> omega

theorem kept_shiftContext (kept : s.Kept) (context : s.context = some size) :
    (if maxBatchSize ≤ s.positions.current then s.shiftContext else s).Kept := by
  split
  · have room := kept.room size context
    exact kept_of_room context kept.inside ⟨Nat.le_trans (Nat.sub_le _ _) room.current, room.stop⟩
  · exact kept

theorem kept_generateNextToken {newTokenId : τ} {succeeds : Bool} (kept : s.Kept) (context : s.context = some size) :
    (s.generateNextToken vocab size newTokenId succeeds).Kept := by
  have below := @generated_inside _ _ _ (kept.room size context)
  have ready := kept_shiftContext kept context
  have still : (if maxBatchSize ≤ s.positions.current then s.shiftContext else s).context = some size := by
    split <;> exact context
  unfold AiChat.generateNextToken
  generalize (if maxBatchSize ≤ s.positions.current then s.shiftContext else s) = shifted at below ready still
  have room := ready.room size still
  dsimp only
  split
  · exact kept_of_room still ready.inside ⟨room.current, room.stop⟩
  · have fits := below (by omega)
    have inside : (shifted.llamaDecode size [⟨newTokenId, shifted.positions.current, true⟩]).Inside := by
      refine List.forall_mem_append.mpr ⟨ready.inside, ?_⟩
      simpa using fits
    split
    · exact kept_of_room still inside ⟨room.current, room.stop⟩
    · have later : (shifted.positions.advance 1).current ≤ size := fits
      split
      · exact kept_of_room still inside ⟨later, room.stop⟩
      · split
        · exact kept_of_room still inside ⟨later, room.stop⟩
        · exact kept_of_room still inside ⟨later, room.stop⟩

theorem kept_step {event : ChatEvent τ} (kept : s.Kept) (fits : s.Fits event) (taken : s.step vocab event = some after) :
    after.Kept := by
  cases event with
  | configureGeneration nCtx =>
    cases taken
    exact ⟨kept.inside, fun size context => ⟨(kept.room size context).current, (kept.room size context).stop⟩⟩
  | prepare succeeds =>
    cases taken
    exact kept_prepare kept fits succeeds
  | processSystemPrompt systemTokens succeeds =>
    obtain ⟨size, context, rfl⟩ := Option.map_eq_some_iff.mp taken
    exact kept_processSystemPrompt kept context (fits size context)
  | processUserPrompt tokens nPredict succeeds =>
    obtain ⟨size, context, rfl⟩ := Option.map_eq_some_iff.mp taken
    obtain ⟨prompt, room⟩ := fits size context
    exact kept_processUserPrompt kept context prompt room
  | generateNextToken newTokenId succeeds =>
    obtain ⟨size, context, rfl⟩ := Option.map_eq_some_iff.mp taken
    exact kept_generateNextToken kept context
  | unload =>
    obtain ⟨size, context, rfl⟩ := Option.map_eq_some_iff.mp taken
    exact ⟨kept.inside, nofun⟩

theorem kept_initial : ({} : AiChat τ).Kept := ⟨nofun, nofun⟩

theorem always_inside_of_fits {history : List (AiChat τ × ChatEvent τ)} {final : AiChat τ}
    (run : ChatRun vocab history final) (fits : Guarded AiChat.Fits history) : Always AiChat.Inside history final := by
  have kept : Always AiChat.Kept history final :=
    run.always_of_guarded kept_initial (fun _ _ _ kept fits taken => kept_step kept fits taken) fits
  exact kept.mono fun _ kept => kept.inside

end Invariant

section Sample

def chatVocab : Vocab Unit where
  isEog _ := false
  tokenToPiece _ := [0x61]

def configured : AiChat Unit := ({} : AiChat Unit).configureGeneration 128

def prepared : AiChat Unit := configured.prepare true

def prompted : AiChat Unit := prepared.processSystemPrompt 128 [(), ()] fun _ => true

def asked : AiChat Unit := prompted.processUserPrompt 128 [(), (), ()] 5 fun _ => true

def conversation : List (AiChat Unit × ChatEvent Unit) :=
  [({}, .configureGeneration 128), (configured, .prepare true), (prepared, .processSystemPrompt [(), ()] fun _ => true),
    (prompted, .processUserPrompt [(), (), ()] 5 fun _ => true), (asked, .generateNextToken () true)]

theorem run_prepared : ChatRun chatVocab (conversation.take 2) prepared := by
  have first : ChatRun chatVocab (conversation.take 1) configured := .next .start rfl
  exact first.next (show AiChat.step chatVocab configured (.prepare true) = some prepared from rfl)

theorem always_inside_sample : Always AiChat.Inside conversation (asked.generateNextToken chatVocab 128 () true) := by
  have third : ChatRun chatVocab (conversation.take 3) prompted := run_prepared.next
    (show AiChat.step chatVocab prepared (.processSystemPrompt [(), ()] fun _ => true) = some prompted from rfl)
  have fourth : ChatRun chatVocab (conversation.take 4) asked := third.next
    (show AiChat.step chatVocab prompted (.processUserPrompt [(), (), ()] 5 fun _ => true) = some asked from rfl)
  have fifth : ChatRun chatVocab conversation (asked.generateNextToken chatVocab 128 () true) := fourth.next
    (show AiChat.step chatVocab asked (.generateNextToken () true) = _ from rfl)
  refine always_inside_of_fits fifth ?_
  simp only [Guarded, conversation, List.forall_mem_cons]
  refine ⟨trivial, ⟨by decide, .inl (by decide)⟩, ?_, ?_, trivial, by simp⟩
  · rintro size ⟨⟩ _
    decide
  · rintro size ⟨⟩
    exact ⟨by decide, .inl (by decide)⟩

/-- A system prompt of 129 tokens is accepted into a context of 128. -/
theorem system_prompt_leaves_context : ∃ history final, ChatRun chatVocab history final ∧
    final.last = some (.code 0) ∧ ¬ final.Inside := by
  let final := prepared.processSystemPrompt 128 (List.replicate 129 ()) fun _ => true
  have run : ChatRun chatVocab _ final := run_prepared.next
    (show AiChat.step chatVocab prepared (.processSystemPrompt (List.replicate 129 ()) fun _ => true) = some final from rfl)
  refine ⟨_, final, run, by decide +kernel, fun inside => ?_⟩
  have last : (128, [⟨(), 128, false⟩]) ∈ final.decodes := by decide +kernel
  exact absurd (inside _ last _ (List.mem_singleton.mpr rfl)) (by decide)

end Sample

end Engine
