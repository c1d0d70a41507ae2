import TranscriptForm.Engine.DecodeDiscipline

namespace Engine

variable {τ : Type} {vocab : Vocab τ} {input : InferInput τ} {world : InferWorld τ}

def StaysInside (input : InferInput τ) (run : InferRun τ) : Prop :=
  ∀ entry ∈ decodedTokens run.calls, (entry.2 : Int) < input.runtimeNCtx

theorem length_sampledTokens (steps i : Nat) (output : Bytes) (position : Nat) :
    (sampledTokens (generateFrom vocab world steps i output position).calls).length ≤ steps := by
  induction steps generalizing i output position with
  | zero => exact Nat.le_refl 0
  | succ steps ih =>
    rw [generateFrom]
    split
    · exact Nat.zero_le _
    · dsimp only
      split
      · exact Nat.succ_le_succ (Nat.zero_le _)
      · split
        · exact Nat.succ_le_succ (Nat.zero_le _)
        · split
          · exact Nat.succ_le_succ (Nat.zero_le _)
          · exact Nat.succ_le_succ (ih _ _ _)

theorem decoded_bound (vocab : Vocab τ) (input : InferInput τ) (world : InferWorld τ) :
    ∀ entry ∈ decodedTokens (directInfer vocab input world).calls,
      entry.2 < input.prompt.length + input.nPredict.toNat := by
  have spec := prefill_spec input world
  have inPrompt : ∀ entry ∈ decodedTokens (input.prefill world).1, entry.2 < input.prompt.length := by
    intro entry member
    have bound := List.snd_lt_of_mem_zipIdx (spec.inOrder.subset member)
    simpa using bound
  rcases directInfer_cases vocab input world with ⟨error, refused⟩ | ⟨_, ⟨error, _, failed⟩ | ⟨_, generated⟩⟩
  · rw [refused]
    exact nofun
  · rw [failed]
    intro entry member
    exact Nat.lt_add_right _ (inPrompt entry member)
  · rw [generated]
    intro entry member
    dsimp only at member
    rw [decodedTokens_append] at member
    rcases List.mem_append.mp member with member | member
    · exact Nat.lt_add_right _ (inPrompt entry member)
    · have later : GenerationSpec input.prompt.length (input.generate vocab world) := generateFrom_spec _ _ _ _
      have bound := List.snd_lt_of_mem_zipIdx (later.inOrder.subset member)
      have sampled : (sampledTokens (input.generate vocab world).calls).length ≤ input.nPredict.toNat :=
        length_sampledTokens _ _ _ _
      omega

theorem generateFrom_silent (token : τ) (steps i position : Nat) :
    decodedTokens (generateFrom silentVocab { sampled := fun _ => token } steps i [] position).calls =
      (List.replicate steps token).zipIdx position := by
  induction steps generalizing i position with
  | zero => rfl
  | succ steps ih =>
    have nothing : tryExtractCompleteJsonObject [] = none := rfl
    simp only [generateFrom, silentVocab, List.append_nil, nothing, Bool.false_eq_true, Bool.not_true, if_false,
      decodedTokens_sample, decodedTokens_decode, List.replicate_succ, List.zipIdx_cons]
    exact congrArg _ (ih (i + 1) (position + 1))

theorem decodedTokens_silent (accepted : input.Accepted) (token : τ) :
    decodedTokens (directInfer silentVocab input { sampled := fun _ => token }).calls =
      (input.prompt ++ List.replicate input.nPredict.toNat token).zipIdx := by
  have undisturbed := undisturbed_default fun _ => token
  have prefilled : (input.prefill { sampled := fun _ => token }).2 = none := prefillFrom_undisturbed undisturbed _ _
  rw [directInfer_undisturbed accepted undisturbed, decodedTokens_append, decodedTokens_prefill prefilled,
    List.zipIdx_append, Nat.zero_add, InferInput.generate, generateFrom_silent]

/-- Whatever the model answers, the context is enough if and only if it holds the prompt and all tokens to predict. -/
theorem staysInside_iff (input : InferInput τ) :
    (∀ vocab world, StaysInside input (directInfer vocab input world)) ↔
      (input.Accepted → (input.prompt.length + input.nPredict.toNat : Int) ≤ input.runtimeNCtx) := by
  constructor
  · intro inside accepted
    obtain ⟨token, others, prompt⟩ := List.exists_cons_of_ne_nil accepted.2.1
    by_cases none : input.nPredict.toNat = 0
    · have fits := accepted.2.2.1
      omega
    · let last := input.prompt.length + input.nPredict.toNat - 1
      have length : (input.prompt ++ List.replicate input.nPredict.toNat token).length = last + 1 := by
        rw [List.length_append, List.length_replicate]
        omega
      have decoded : ((input.prompt ++ List.replicate input.nPredict.toNat token)[last], last) ∈
          decodedTokens (directInfer silentVocab input { sampled := fun _ => token }).calls := by
        rw [decodedTokens_silent accepted]
        apply List.mk_mem_zipIdx_iff_getElem?.mpr
        exact List.getElem?_eq_getElem _
      have bound := inside _ _ _ decoded
      dsimp only at bound
      omega
  · intro room vocab world entry member
    rcases directInfer_cases vocab input world with ⟨error, refused⟩ | ⟨accepted, _⟩
    · rw [refused] at member
      cases member
    · have bound := decoded_bound vocab input world entry member
      have enough := room accepted
      omega

section Sample

def longPrompt : InferInput Nat where
  loaded := true
  prompt := List.replicate 255 1
  runtimeNCtx := 256
  directPrefillChunk := 1
  directBatchCapacity := 32
  batchInitialized := true
  nPredict := 32

theorem longPrompt_leaves_context : longPrompt.Accepted ∧ 128 ≤ longPrompt.runtimeNCtx ∧
    ∃ vocab world, ¬ StaysInside longPrompt (directInfer vocab longPrompt world) := by
  have accepted : longPrompt.Accepted := ⟨rfl, List.cons_ne_nil _ _, by decide +kernel, rfl⟩
  refine ⟨accepted, by decide, silentVocab, { sampled := fun _ => 1 }, fun inside => ?_⟩
  have decoded : (1, 256) ∈ decodedTokens (directInfer silentVocab longPrompt { sampled := fun _ => 1 }).calls := by
    rw [decodedTokens_silent accepted]
    apply List.mk_mem_zipIdx_iff_getElem?.mpr
    rfl
  exact absurd (inside _ decoded) (by decide)

end Sample

end Engine
