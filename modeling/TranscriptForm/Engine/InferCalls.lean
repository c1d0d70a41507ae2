import TranscriptForm.Engine.DirectInfer

-- The calls of an inference into llama, on the resources they go to.
namespace Engine

open Kotlin Native

variable {τ : Type}

def LlamaCall.onNative : LlamaCall τ → Native → Option Native
  | .decode batch, g => do
    let g ← repeated commonBatchAdd batch.length g
    touch g.context g
  | .sample _, g => sampleToken g

def replay : List (LlamaCall τ) → Native → Option Native
  | [], g => some g
  | call :: calls, g => do
    let g ← call.onNative g
    replay calls g

/-- What Kotlin gets, where `newStringUTF` says what the bytes of an output read as. -/
def InferRun.text (newStringUTF : Bytes → KString) (run : InferRun τ) : KString :=
  match run.result with
  | .error error => directError error.reason
  | .ok output => newStringUTF (cString output)

theorem replay_append (earlier later : List (LlamaCall τ)) (g : Native) :
    replay (earlier ++ later) g = (replay earlier g).bind (replay later) := by
  induction earlier generalizing g with
  | nil => rfl
  | cons call earlier ih =>
    rw [List.cons_append, replay, replay, Option.bind_eq_bind, Option.bind_assoc]
    exact Option.bind_congr fun g _ => ih g

theorem onNative_single {batch : Batch τ} (single : batch.length = 1) (g : Native) :
    (LlamaCall.decode batch).onNative g = decodeToken g := by
  rw [LlamaCall.onNative, single, decodeToken, repeated]
  simp only [repeated, Option.bind_eq_bind, Option.bind_fun_some]

section Prefill

variable {input : InferInput τ} {world : InferWorld τ} {rounds i : Nat}

inductive PrefillEnd : Nat → InferError → Prop
  | interrupted (decoded : Nat) (interruption : Interruption) : PrefillEnd decoded interruption.error
  | decodeFailed (decoded : Nat) : PrefillEnd (decoded + 1) .prefillDecodeFailed
  | timedOut (decoded : Nat) : PrefillEnd (decoded + 1) .timeout

theorem PrefillEnd.succ {decodes : Nat} {error : InferError} (ends : PrefillEnd decodes error) :
    PrefillEnd (decodes + 1) error := by
  cases ends with
  | interrupted => exact .interrupted _ _
  | decodeFailed => exact .decodeFailed _
  | timedOut => exact .timedOut _

inductive PrefillReplays (tokens : Nat) (run : List (LlamaCall τ) × Option InferError) : Prop
  | complete (finished : run.2 = none) (replays : ∀ g, replay run.1 g = repeated decodeToken tokens g)
  | ended (decodes : Nat) (error : InferError) (failed : run.2 = some error) (ends : PrefillEnd decodes error)
      (replays : ∀ g, replay run.1 g = repeated decodeToken decodes g)

theorem replay_decode {batch : Batch τ} {later : List (LlamaCall τ)} {decodes : Nat} (single : batch.length = 1)
    (replays : ∀ g, replay later g = repeated decodeToken decodes g) (g : Native) :
    replay (.decode batch :: later) g = repeated decodeToken (decodes + 1) g := by
  rw [replay, repeated, onNative_single single]
  exact Option.bind_congr fun g _ => replays g

theorem prefillFrom_replays (chunk : input.prefillChunk = 1) (enough : input.prompt.length ≤ i + rounds) :
    PrefillReplays (input.prompt.length - i) (input.prefillFrom world rounds i) := by
  induction rounds generalizing i with
  | zero =>
    rw [Nat.sub_eq_zero_of_le (by omega)]
    exact .complete rfl fun _ => rfl
  | succ rounds ih =>
    rw [InferInput.prefillFrom]
    split
    · rename_i inside
      have single : (input.prefillBatch i (min input.prefillChunk (input.prompt.length - i))).length = 1 := by
        simp only [InferInput.prefillBatch, List.length_map, List.length_zipIdx, List.length_take, List.length_drop]
        omega
      split
      · exact .ended 0 _ rfl (.interrupted 0 _) fun _ => rfl
      · dsimp only
        split
        · exact .ended 1 _ rfl (.decodeFailed 0) (replay_decode single fun _ => rfl)
        · split
          · exact .ended 1 _ rfl (.timedOut 0) (replay_decode single fun _ => rfl)
          · rw [chunk]
            have left : input.prompt.length - i = input.prompt.length - (i + 1) + 1 := by omega
            rw [chunk] at single
            cases @ih (i + 1) (by omega) with
            | complete finished replays =>
              have replayed := replay_decode single replays
              rw [← left] at replayed
              exact .complete finished replayed
            | ended decodes error failed ends replays =>
              exact .ended (decodes + 1) error failed ends.succ (replay_decode single replays)
    · rw [Nat.sub_eq_zero_of_le (by omega)]
      exact .complete rfl fun _ => rfl

end Prefill

section Generation

variable {vocab : Vocab τ} {world : InferWorld τ}

inductive GenerationEnd : Nat → Bool → Except InferError Bytes → Prop
  | interrupted (steps : Nat) (interruption : Interruption) : GenerationEnd steps false (.error interruption.error)
  | decodeFailed (steps : Nat) : GenerationEnd (steps + 1) false (.error .tokenDecodeFailed)
  | finished (steps : Nat) (sampled : Bool) (output : Bytes) : GenerationEnd steps sampled (.ok output)

theorem GenerationEnd.succ {steps : Nat} {sampled : Bool} {result : Except InferError Bytes}
    (ends : GenerationEnd steps sampled result) : GenerationEnd (steps + 1) sampled result := by
  cases ends with
  | interrupted => exact .interrupted _ _
  | decodeFailed => exact .decodeFailed _
  | finished => exact .finished _ _ _

def generated (steps : Nat) (sampled : Bool) (g : Native) : Option Native := do
  let g ← repeated generationStep steps g
  if sampled then sampleToken g else some g

structure GenerationReplays (run : InferRun τ) (steps : Nat) (sampled : Bool) : Prop where
  ends : GenerationEnd steps sampled run.result
  replays : ∀ g, replay run.calls g = generated steps sampled g

theorem replay_sampled (token : τ) (g : Native) : replay [.sample token] g = generated 0 true g := by
  simp only [replay, generated, repeated, LlamaCall.onNative, Option.bind_eq_bind, Option.bind_fun_some, Option.bind_some,
    if_true]

theorem replay_step {token : τ} {entry : BatchEntry τ} {later : List (LlamaCall τ)} {steps : Nat} {sampled : Bool}
    (replays : ∀ g, replay later g = generated steps sampled g) (g : Native) :
    replay (.sample token :: .decode [entry] :: later) g = generated (steps + 1) sampled g := by
  have decode (g : Native) : replay (.decode [entry] :: later) g = (decodeToken g).bind (generated steps sampled) := by
    rw [replay, onNative_single rfl]
    exact Option.bind_congr fun g _ => replays g
  have sample : replay (.sample token :: .decode [entry] :: later) g =
      (sampleToken g).bind fun g => replay (.decode [entry] :: later) g := rfl
  simp only [sample, decode, generated, repeated, generationStep, Option.bind_eq_bind, Option.bind_assoc]
  rfl

theorem generateFrom_replays (rounds i : Nat) (output : Bytes) (position : Nat) :
    ∃ steps sampled, GenerationReplays (generateFrom vocab world rounds i output position) steps sampled := by
  induction rounds generalizing i output position with
  | zero => exact ⟨0, false, .finished 0 false output, fun _ => rfl⟩
  | succ rounds ih =>
    rw [generateFrom]
    split
    · exact ⟨0, false, .interrupted 0 _, fun _ => rfl⟩
    · dsimp only
      split
      · exact ⟨0, true, .finished 0 true output, replay_sampled _⟩
      · split
        · exact ⟨0, true, .finished 0 true _, replay_sampled _⟩
        · split
          · exact ⟨1, false, .decodeFailed 0, replay_step fun _ => rfl⟩
          · obtain ⟨steps, sampled, ends, replays⟩ :=
              ih (i + 1) (output ++ vocab.tokenToPiece (world.sampled i)) (position + 1)
            exact ⟨steps + 1, sampled, ends.succ, replay_step replays⟩

end Generation

section Refinement

variable {vocab : Vocab τ} {input : InferInput τ} {world : InferWorld τ} {g after : Native}

/-- Only the log of the uses is another one. -/
def SameGlobals (g after : Native) : Prop := after = { g with heap := after.heap }

theorem SameGlobals.trans {next : Native} (first : SameGlobals g after) (second : SameGlobals after next) :
    SameGlobals g next := by
  rw [SameGlobals, second, first]

theorem sameGlobals_touch {pointer : Option Nat} (touched : touch pointer g = some after) : SameGlobals g after := by
  obtain ⟨handle, _, rfl⟩ := Option.map_eq_some_iff.mp touched
  rfl

theorem sameGlobals_formatPrompt {call : InferCall} (formatted : formatPrompt call g = some after) :
    SameGlobals g after := by
  obtain ⟨first, context, later⟩ := Option.bind_eq_some_iff.mp formatted
  have start : SameGlobals g first := sameGlobals_touch context
  have user {second : Native} (before : SameGlobals g second)
      (last : (if call.userPrompt.isEmpty then some second else touch second.chatTemplates second) = some after) :
      SameGlobals g after := by
    split at last
    · cases last
      exact before
    · exact before.trans (sameGlobals_touch last)
  dsimp only at later
  split at later
  · exact user start later
  · obtain ⟨second, system, last⟩ := Option.bind_eq_some_iff.mp later
    exact user (start.trans (sameGlobals_touch system)) last

theorem Interruption.error_text (interruption : Interruption) :
    directError interruption.error.reason = interruption.text := by
  cases interruption <;> rfl

theorem generate_prefillEnd {decodes : Nat} {error : InferError} (ends : PrefillEnd decodes error) :
    ∃ stop : InferStop, (∀ interruption, stop ≠ .beforeReset interruption ∧ stop ≠ .beforeTokenize interruption) ∧
      ∀ systemPrompt userPrompt tokens g, Native.generate ⟨systemPrompt, userPrompt, tokens, stop⟩ g =
        (repeated decodeToken decodes g).map fun g => (g, directError error.reason) := by
  cases ends with
  | interrupted _ interruption =>
    refine ⟨.beforeDecode decodes interruption, by simp, fun _ _ _ g => ?_⟩
    rw [interruption.error_text]
    exact Option.map_eq_bind.symm
  | decodeFailed decoded => exact ⟨.prefillDecodeFailed decoded, by simp, fun _ _ _ g => Option.map_eq_bind.symm⟩
  | timedOut decoded => exact ⟨.afterDecode decoded, by simp, fun _ _ _ g => Option.map_eq_bind.symm⟩

theorem generated_map (steps : Nat) (sampled : Bool) (text : KString) (g : Native) :
    ((generated steps sampled g).map fun g => (g, text)) = do
      let g ← repeated generationStep steps g
      let g ← if sampled then sampleToken g else some g
      return (g, text) := by
  simp only [generated, Option.bind_eq_bind, Option.map_bind]
  refine Option.bind_congr fun g _ => ?_
  cases sampled with
  | false => rfl
  | true => exact Option.map_eq_bind

theorem generate_generationEnd {result : Except InferError Bytes} {steps : Nat} {sampled : Bool}
    (newStringUTF : Bytes → KString) (ends : GenerationEnd steps sampled result) :
    ∃ stop : InferStop, (∀ interruption, stop ≠ .beforeReset interruption ∧ stop ≠ .beforeTokenize interruption) ∧
      ∀ calls systemPrompt userPrompt tokens g, Native.generate ⟨systemPrompt, userPrompt, tokens, stop⟩ g =
        (repeated decodeToken tokens g).bind fun g =>
          (generated steps sampled g).map fun g => (g, InferRun.text newStringUTF (⟨calls, result⟩ : InferRun τ)) := by
  cases ends with
  | interrupted _ interruption =>
    refine ⟨.beforeSample steps interruption, by simp, fun _ _ _ tokens g => Option.bind_congr fun g _ => ?_⟩
    have text : directError interruption.error.reason = interruption.text := interruption.error_text
    rw [generated_map, InferRun.text]
    dsimp only
    rw [text]
    rfl
  | decodeFailed steps =>
    refine ⟨.tokenDecodeFailed steps, by simp, fun _ _ _ tokens g => Option.bind_congr fun g _ => ?_⟩
    rw [generated_map]
    rfl
  | finished _ _ output =>
    refine ⟨.finished steps sampled (newStringUTF (cString output)), by simp,
      fun _ _ _ tokens g => Option.bind_congr fun g _ => ?_⟩
    rw [generated_map]
    rfl

theorem generate_replays (vocab : Vocab τ) (newStringUTF : Bytes → KString) (single : input.prefillChunk = 1)
    (accepted : input.Accepted) (reset : world.beforeReset = none) (tokenize : world.beforeTokenize = none) :
    ∃ stop : InferStop, (∀ interruption, stop ≠ .beforeReset interruption ∧ stop ≠ .beforeTokenize interruption) ∧
      ∀ systemPrompt userPrompt g, Native.generate ⟨systemPrompt, userPrompt, input.prompt.length, stop⟩ g =
        (replay (directInfer vocab input world).calls g).map fun g =>
          (g, (directInfer vocab input world).text newStringUTF) := by
  have prefilled : PrefillReplays input.prompt.length (input.prefill world) :=
    @prefillFrom_replays _ input world input.prompt.length 0 single (by omega)
  cases prefilled with
  | ended decodes error failed ends replays =>
    obtain ⟨stop, later, generates⟩ := generate_prefillEnd ends
    refine ⟨stop, later, fun systemPrompt userPrompt g => ?_⟩
    rw [directInfer_ended accepted reset tokenize failed, replays, generates]
    rfl
  | complete finished replays =>
    obtain ⟨steps, sampled, ends, generation⟩ :=
      @generateFrom_replays _ vocab world input.nPredict.toNat 0 [] input.prompt.length
    obtain ⟨stop, later, generates⟩ := generate_generationEnd newStringUTF ends
    refine ⟨stop, later, fun systemPrompt userPrompt g => ?_⟩
    rw [directInfer_accepted accepted reset tokenize finished, replay_append, replays, generates, Option.map_bind]
    refine Option.bind_congr fun g _ => ?_
    rw [Function.comp_apply, ← generation]
    rfl

theorem nativeInfer_formatted {call : InferCall} {result : Native × KString} (passes : g.passesGuard = true)
    (later : ∀ interruption, call.stop ≠ .beforeReset interruption ∧ call.stop ≠ .beforeTokenize interruption)
    (finished : nativeInfer call g = some result) : ∃ formatted, SameGlobals g formatted ∧
      (if call.tokens = 0 then some (formatted, directError "tokenization failed")
        else if formatted.runtimeNCtx ≤ call.tokens then some (formatted, directError "prompt too large")
        else if !formatted.batchInitialized then some (formatted, directError "batch not initialized")
        else Native.generate call formatted) = some result := by
  obtain ⟨systemPrompt, userPrompt, tokens, stop⟩ := call
  rw [nativeInfer, passes, if_neg (by simp)] at finished
  obtain ⟨first, format, finished⟩ := Option.bind_eq_some_iff.mp finished
  cases stop with
  | beforeReset interruption => exact absurd rfl (later interruption).1
  | beforeTokenize interruption => exact absurd rfl (later interruption).2
  | beforeDecode | prefillDecodeFailed | afterDecode | beforeSample | tokenDecodeFailed | finished =>
    obtain ⟨second, reset, finished⟩ := Option.bind_eq_some_iff.mp finished
    obtain ⟨third, sampler, finished⟩ := Option.bind_eq_some_iff.mp finished
    obtain ⟨fourth, tokenize, finished⟩ := Option.bind_eq_some_iff.mp finished
    have same := ((sameGlobals_formatPrompt format).trans (sameGlobals_touch reset)).trans (sameGlobals_touch sampler)
    exact ⟨fourth, same.trans (sameGlobals_touch tokenize), finished⟩

/-- The call on the resources makes the calls of the run on what is loaded, and Kotlin gets the text of the run. -/
def Refines (newStringUTF : Bytes → KString) (run : InferRun τ) (call : InferCall) (g : Native) : Prop :=
  ∀ after text, nativeInfer call g = some (after, text) → text = run.text newStringUTF ∧
    ∃ formatted, SameGlobals g formatted ∧ replay run.calls formatted = some after

variable {newStringUTF : Bytes → KString} {systemPrompt userPrompt : KString}

theorem refines_beforeReset {tokens : Nat} {interruption : Interruption} (passes : g.passesGuard = true) :
    Refines newStringUTF (⟨[], .error interruption.error⟩ : InferRun τ)
      ⟨systemPrompt, userPrompt, tokens, .beforeReset interruption⟩ g := by
  intro after text finished
  rw [nativeInfer, passes, if_neg (by simp)] at finished
  obtain ⟨formatted, format, finished⟩ := Option.bind_eq_some_iff.mp finished
  cases finished
  exact ⟨interruption.error_text.symm, after, sameGlobals_formatPrompt format, rfl⟩

theorem refines_beforeTokenize {tokens : Nat} {interruption : Interruption} (passes : g.passesGuard = true) :
    Refines newStringUTF (⟨[], .error interruption.error⟩ : InferRun τ)
      ⟨systemPrompt, userPrompt, tokens, .beforeTokenize interruption⟩ g := by
  intro after text finished
  rw [nativeInfer, passes, if_neg (by simp)] at finished
  obtain ⟨first, format, finished⟩ := Option.bind_eq_some_iff.mp finished
  obtain ⟨second, context, finished⟩ := Option.bind_eq_some_iff.mp finished
  obtain ⟨third, sampler, finished⟩ := Option.bind_eq_some_iff.mp finished
  cases finished
  have same := ((sameGlobals_formatPrompt format).trans (sameGlobals_touch context)).trans (sameGlobals_touch sampler)
  exact ⟨interruption.error_text.symm, after, same, rfl⟩

structure InferInput.Of (input : InferInput τ) (g : Native) : Prop where
  loaded : input.loaded = g.passesGuard
  runtimeNCtx : input.runtimeNCtx = g.runtimeNCtx
  batch : input.batchInitialized = g.batchInitialized

theorem refines_refused (same : input.Of g) (passes : g.passesGuard = true) (reset : world.beforeReset = none)
    (tokenize : world.beforeTokenize = none) (refused : ¬ input.Accepted) :
    Refines newStringUTF (directInfer vocab input world)
      ⟨systemPrompt, userPrompt, input.prompt.length, .finished 0 false []⟩ g := by
  intro after text finished
  obtain ⟨formatted, globals, finished⟩ := nativeInfer_formatted passes (by simp) finished
  have loaded := same.loaded.trans passes
  have nCtx : formatted.runtimeNCtx = g.runtimeNCtx := by rw [globals]
  have batch : formatted.batchInitialized = g.batchInitialized := by rw [globals]
  have runtimeNCtx := same.runtimeNCtx
  rw [nCtx, batch, ← same.batch] at finished
  rw [directInfer, loaded, reset, tokenize]
  dsimp only at finished ⊢
  rw [if_neg (by simp)]
  by_cases none : input.prompt = []
  · rw [if_pos (by simp [none])] at finished ⊢
    cases finished
    exact ⟨rfl, after, globals, rfl⟩
  · rw [if_neg (by simp [none])] at finished ⊢
    by_cases large : input.runtimeNCtx ≤ input.prompt.length
    · rw [if_pos (by omega)] at finished ⊢
      cases finished
      exact ⟨rfl, after, globals, rfl⟩
    · rw [if_neg (by omega)] at finished ⊢
      have missing : input.batchInitialized = false := by
        by_contra present
        exact refused ⟨loaded, none, by omega, by simpa using present⟩
      rw [missing] at finished ⊢
      cases finished
      exact ⟨rfl, after, globals, rfl⟩

theorem refines_accepted (vocab : Vocab τ) (newStringUTF : Bytes → KString) (same : input.Of g)
    (chunk : input.directPrefillChunk = 1) (reset : world.beforeReset = none) (tokenize : world.beforeTokenize = none)
    (accepted : input.Accepted) : ∃ stop, ∀ systemPrompt userPrompt,
      Refines newStringUTF (directInfer vocab input world) ⟨systemPrompt, userPrompt, input.prompt.length, stop⟩ g := by
  have single : input.prefillChunk = 1 := by
    rw [InferInput.prefillChunk, chunk]
    omega
  obtain ⟨stop, later, generates⟩ := generate_replays vocab newStringUTF single accepted reset tokenize
  refine ⟨stop, fun systemPrompt userPrompt after text finished => ?_⟩
  obtain ⟨loaded, some, fits, batch⟩ := accepted
  obtain ⟨formatted, globals, finished⟩ := nativeInfer_formatted (same.loaded.symm.trans loaded) later finished
  have nCtx : formatted.runtimeNCtx = g.runtimeNCtx := by rw [globals]
  have initialized : formatted.batchInitialized = true := by
    rw [globals]
    exact same.batch.symm.trans batch
  have runtimeNCtx := same.runtimeNCtx
  have room : ¬ g.runtimeNCtx ≤ input.prompt.length := by omega
  have tokens : input.prompt.length ≠ 0 := fun none => some (List.eq_nil_of_length_eq_zero none)
  rw [if_neg tokens, nCtx, if_neg room, initialized, if_neg (by simp), generates] at finished
  obtain ⟨final, replays, returned⟩ := Option.map_eq_some_iff.mp finished
  cases returned
  exact ⟨rfl, formatted, globals, replays⟩

theorem nativeInfer_refines (vocab : Vocab τ) (world : InferWorld τ) (newStringUTF : Bytes → KString)
    (systemPrompt userPrompt : KString) (same : input.Of g) (chunk : input.directPrefillChunk = 1) :
    ∃ stop, Refines newStringUTF (directInfer vocab input world)
      ⟨systemPrompt, userPrompt, input.prompt.length, stop⟩ g := by
  by_cases passes : g.passesGuard = true
  · have loaded := same.loaded.trans passes
    cases reset : world.beforeReset with
    | some interruption =>
      have interrupted : directInfer vocab input world = ⟨[], .error interruption.error⟩ := by
        simp [directInfer, loaded, reset]
      rw [interrupted]
      exact ⟨_, refines_beforeReset passes⟩
    | none =>
      cases tokenize : world.beforeTokenize with
      | some interruption =>
        have interrupted : directInfer vocab input world = ⟨[], .error interruption.error⟩ := by
          simp [directInfer, loaded, reset, tokenize]
        rw [interrupted]
        exact ⟨_, refines_beforeTokenize passes⟩
      | none =>
        by_cases accepted : input.Accepted
        · obtain ⟨stop, refines⟩ := refines_accepted vocab newStringUTF same chunk reset tokenize accepted
          exact ⟨stop, refines systemPrompt userPrompt⟩
        · exact ⟨_, refines_refused same passes reset tokenize accepted⟩
  · rw [Bool.not_eq_true] at passes
    have refused : directInfer vocab input world = ⟨[], .error .modelNotLoaded⟩ := by
      simp [directInfer, same.loaded.trans passes]
    refine ⟨.finished 0 false [], fun after text finished => ?_⟩
    rw [nativeInfer, passes, if_pos (by simp)] at finished
    cases finished
    rw [refused]
    exact ⟨rfl, g, rfl, rfl⟩

end Refinement

end Engine
