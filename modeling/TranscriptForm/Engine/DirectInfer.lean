import TranscriptForm.Engine.JsonObjects
import TranscriptForm.Engine.Native

namespace Engine

structure Vocab (τ : Type) where
  isEog : τ → Bool
  tokenToPiece : τ → Bytes

/-- A model that never ends and spells nothing. -/
def silentVocab {τ : Type} : Vocab τ where
  isEog _ := false
  tokenToPiece _ := []

structure BatchEntry (τ : Type) where
  token : τ
  pos : Nat
  logits : Bool
  deriving DecidableEq

abbrev Batch (τ : Type) := List (BatchEntry τ)

inductive LlamaCall (τ : Type)
  | decode (batch : Batch τ)
  | sample (token : τ)
  deriving DecidableEq

inductive InferError
  | modelNotLoaded
  | cancelled
  | timeout
  | tokenizationFailed
  | promptTooLarge
  | batchNotInitialized
  | prefillDecodeFailed
  | tokenDecodeFailed
  deriving DecidableEq

def bytes (literal : String) : Bytes := literal.toList.map byte

namespace InferError

def reason : InferError → String
  | .modelNotLoaded => "model not loaded"
  | .cancelled => "cancelled"
  | .timeout => "timeout"
  | .tokenizationFailed => "tokenization failed"
  | .promptTooLarge => "prompt too large"
  | .batchNotInitialized => "batch not initialized"
  | .prefillDecodeFailed => "prefill decode failed"
  | .tokenDecodeFailed => "token decode failed"

def text (error : InferError) : Bytes := bytes "__DIRECT_LLM_ERROR__: " ++ bytes error.reason

end InferError

def Interruption.error : Interruption → InferError
  | .cancelled => .cancelled
  | .timeout => .timeout

/-- The prompt in tokens, and what was loaded for it. -/
structure InferInput (τ : Type) where
  loaded : Bool
  prompt : List τ
  runtimeNCtx : Int
  directPrefillChunk : Int
  directBatchCapacity : Int
  batchInitialized : Bool
  nPredict : Int

/-- What an inference meets: interruptions, failing decodes and the tokens sampled, by the prompt
    position or the generation step they come at. -/
structure InferWorld (τ : Type) where
  beforeReset : Option Interruption := none
  beforeTokenize : Option Interruption := none
  beforeDecode : Nat → Option Interruption := fun _ => none
  prefillDecodes : Nat → Bool := fun _ => true
  timedOutAfterDecode : Nat → Bool := fun _ => false
  beforeSample : Nat → Option Interruption := fun _ => none
  sampled : Nat → τ
  stepDecodes : Nat → Bool := fun _ => true

structure InferRun (τ : Type) where
  calls : List (LlamaCall τ)
  result : Except InferError Bytes

/-- `NewStringUTF(output.c_str())`, which ends at the first zero byte. -/
def cString (output : Bytes) : Bytes := output.takeWhile (· ≠ 0)

def InferRun.handed {τ : Type} (run : InferRun τ) : Bytes :=
  match run.result with
  | .error error => error.text
  | .ok output => cString output

variable {τ : Type}

namespace InferInput

def prefillChunk (input : InferInput τ) : Nat :=
  (max 1 (min input.directPrefillChunk (min input.prompt.length input.directBatchCapacity))).toNat

def prefillBatch (input : InferInput τ) (i cur : Nat) : Batch τ :=
  (((input.prompt.drop i).take cur).zipIdx i).map fun (token, pos) => ⟨token, pos, pos == input.prompt.length - 1⟩

/-- The loop over the prompt, at most `rounds` more rounds of it. -/
def prefillFrom (input : InferInput τ) (world : InferWorld τ) : Nat → Nat → List (LlamaCall τ) × Option InferError
  | 0, _ => ([], none)
  | rounds + 1, i =>
    if i < input.prompt.length then
      match world.beforeDecode i with
      | some interruption => ([], some interruption.error)
      | none =>
        let cur := min input.prefillChunk (input.prompt.length - i)
        let decode := LlamaCall.decode (input.prefillBatch i cur)
        if !world.prefillDecodes i then ([decode], some .prefillDecodeFailed)
        else if world.timedOutAfterDecode i then ([decode], some .timeout)
        else
          let later := input.prefillFrom world rounds (i + input.prefillChunk)
          (decode :: later.1, later.2)
    else ([], none)

def prefill (input : InferInput τ) (world : InferWorld τ) : List (LlamaCall τ) × Option InferError :=
  input.prefillFrom world input.prompt.length 0

end InferInput

/-- The generation loop from a step on, with the output and `current_position` so far. -/
def generateFrom (vocab : Vocab τ) (world : InferWorld τ) : Nat → Nat → Bytes → Nat → InferRun τ
  | 0, _, output, _ => ⟨[], .ok output⟩
  | steps + 1, i, output, position =>
    match world.beforeSample i with
    | some interruption => ⟨[], .error interruption.error⟩
    | none =>
      let newTokenId := world.sampled i
      if vocab.isEog newTokenId then ⟨[.sample newTokenId], .ok output⟩
      else
        let output := output ++ vocab.tokenToPiece newTokenId
        match tryExtractCompleteJsonObject output with
        | some completedJson => ⟨[.sample newTokenId], .ok completedJson⟩
        | none =>
          let decode := LlamaCall.decode [⟨newTokenId, position, true⟩]
          if !world.stepDecodes i then ⟨[.sample newTokenId, decode], .error .tokenDecodeFailed⟩
          else
            let later := generateFrom vocab world steps (i + 1) output (position + 1)
            ⟨.sample newTokenId :: decode :: later.calls, later.result⟩

/-- `nativeInfer` once its prompt is formatted. -/
def directInfer (vocab : Vocab τ) (input : InferInput τ) (world : InferWorld τ) : InferRun τ :=
  if !input.loaded then ⟨[], .error .modelNotLoaded⟩
  else if let some interruption := world.beforeReset then ⟨[], .error interruption.error⟩
  else if let some interruption := world.beforeTokenize then ⟨[], .error interruption.error⟩
  else if input.prompt.isEmpty then ⟨[], .error .tokenizationFailed⟩
  else if input.runtimeNCtx ≤ input.prompt.length then ⟨[], .error .promptTooLarge⟩
  else if !input.batchInitialized then ⟨[], .error .batchNotInitialized⟩
  else
    let prefilled := input.prefill world
    match prefilled.2 with
    | some error => ⟨prefilled.1, .error error⟩
    | none =>
      let generated := generateFrom vocab world input.nPredict.toNat 0 [] input.prompt.length
      ⟨prefilled.1 ++ generated.calls, generated.result⟩

def InferInput.Accepted (input : InferInput τ) : Prop :=
  input.loaded = true ∧ input.prompt ≠ [] ∧ (input.prompt.length : Int) < input.runtimeNCtx ∧
    input.batchInitialized = true

def InferInput.generate (vocab : Vocab τ) (input : InferInput τ) (world : InferWorld τ) : InferRun τ :=
  generateFrom vocab world input.nPredict.toNat 0 [] input.prompt.length

section Cases

variable {vocab : Vocab τ} {input : InferInput τ} {world : InferWorld τ}

theorem directInfer_cases (vocab : Vocab τ) (input : InferInput τ) (world : InferWorld τ) :
    (∃ error, directInfer vocab input world = ⟨[], .error error⟩) ∨
      input.Accepted ∧
        ((∃ error, (input.prefill world).2 = some error ∧
            directInfer vocab input world = ⟨(input.prefill world).1, .error error⟩) ∨
          (input.prefill world).2 = none ∧ directInfer vocab input world =
            ⟨(input.prefill world).1 ++ (input.generate vocab world).calls, (input.generate vocab world).result⟩) := by
  unfold directInfer
  split
  · exact .inl ⟨_, rfl⟩
  · split
    · exact .inl ⟨_, rfl⟩
    · split
      · exact .inl ⟨_, rfl⟩
      · split
        · exact .inl ⟨_, rfl⟩
        · split
          · exact .inl ⟨_, rfl⟩
          · split
            · exact .inl ⟨_, rfl⟩
            · rename_i loaded _ _ _ _ some fits batch
              right
              refine ⟨⟨by simpa using loaded, by simpa using some, by omega, by simpa using batch⟩, ?_⟩
              dsimp only
              split
              · rename_i error failed
                exact .inl ⟨error, failed, rfl⟩
              · rename_i prefilled
                exact .inr ⟨prefilled, rfl⟩

theorem directInfer_accepted (accepted : input.Accepted) (reset : world.beforeReset = none)
    (tokenize : world.beforeTokenize = none) (prefilled : (input.prefill world).2 = none) :
    directInfer vocab input world =
      ⟨(input.prefill world).1 ++ (input.generate vocab world).calls, (input.generate vocab world).result⟩ := by
  obtain ⟨loaded, some, fits, batch⟩ := accepted
  have room : ¬ input.runtimeNCtx ≤ input.prompt.length := by omega
  simp only [directInfer, loaded, reset, tokenize, some, room, batch, prefilled, List.isEmpty_iff, Bool.not_true,
    Bool.false_eq_true, if_false]
  rfl

theorem directInfer_ended {error : InferError} (accepted : input.Accepted) (reset : world.beforeReset = none)
    (tokenize : world.beforeTokenize = none) (ended : (input.prefill world).2 = some error) :
    directInfer vocab input world = ⟨(input.prefill world).1, .error error⟩ := by
  obtain ⟨loaded, some, fits, batch⟩ := accepted
  have room : ¬ input.runtimeNCtx ≤ input.prompt.length := by omega
  simp only [directInfer, loaded, reset, tokenize, some, room, batch, ended, List.isEmpty_iff, Bool.not_true,
    Bool.false_eq_true, if_false]

end Cases

section Undisturbed

variable {vocab : Vocab τ} {input : InferInput τ} {world : InferWorld τ}

structure InferWorld.Undisturbed (world : InferWorld τ) : Prop where
  reset : world.beforeReset = none
  tokenize : world.beforeTokenize = none
  prefill : ∀ i, world.beforeDecode i = none ∧ world.prefillDecodes i = true ∧ world.timedOutAfterDecode i = false
  generation : ∀ i, world.beforeSample i = none ∧ world.stepDecodes i = true

theorem undisturbed_default (sampled : Nat → τ) : InferWorld.Undisturbed { sampled := sampled } :=
  ⟨rfl, rfl, fun _ => ⟨rfl, rfl, rfl⟩, fun _ => ⟨rfl, rfl⟩⟩

theorem prefillFrom_undisturbed (undisturbed : world.Undisturbed) (rounds i : Nat) :
    (input.prefillFrom world rounds i).2 = none := by
  induction rounds generalizing i with
  | zero => rfl
  | succ rounds ih =>
    obtain ⟨interruption, decodes, timedOut⟩ := undisturbed.prefill i
    simp only [InferInput.prefillFrom, interruption, decodes, timedOut, Bool.not_true, Bool.false_eq_true, if_false]
    split
    · exact ih _
    · rfl

theorem directInfer_undisturbed (accepted : input.Accepted) (undisturbed : world.Undisturbed) :
    directInfer vocab input world =
      ⟨(input.prefill world).1 ++ (input.generate vocab world).calls, (input.generate vocab world).result⟩ :=
  directInfer_accepted accepted undisturbed.reset undisturbed.tokenize (prefillFrom_undisturbed undisturbed _ _)

theorem generateFrom_undisturbed (undisturbed : world.Undisturbed) (steps i : Nat) (output : Bytes) (position : Nat) :
    ∃ answer, (generateFrom vocab world steps i output position).result = .ok answer := by
  induction steps generalizing i output position with
  | zero => exact ⟨output, rfl⟩
  | succ steps ih =>
    obtain ⟨interruption, decodes⟩ := undisturbed.generation i
    rw [generateFrom, interruption, decodes]
    dsimp only
    split
    · exact ⟨output, rfl⟩
    · split
      · exact ⟨_, rfl⟩
      · exact ih _ _ _

theorem directInfer_returns (accepted : input.Accepted) (undisturbed : world.Undisturbed) :
    ∃ output, (directInfer vocab input world).result = .ok output := by
  rw [directInfer_undisturbed accepted undisturbed]
  exact generateFrom_undisturbed undisturbed _ _ _ _

end Undisturbed

end Engine
