import TranscriptForm.Engine.DirectInfer

namespace Engine

variable {τ : Type}

def LlamaCall.batch? : LlamaCall τ → Option (Batch τ)
  | .decode batch => some batch
  | .sample _ => none

def LlamaCall.token? : LlamaCall τ → Option τ
  | .decode _ => none
  | .sample token => some token

def batches (calls : List (LlamaCall τ)) : List (Batch τ) := calls.filterMap LlamaCall.batch?

def sampledTokens (calls : List (LlamaCall τ)) : List τ := calls.filterMap LlamaCall.token?

def decodedTokens (calls : List (LlamaCall τ)) : List (τ × Nat) :=
  (batches calls).flatMap fun batch => batch.map fun entry => (entry.token, entry.pos)

/-- The last token of the most recent decode had its logits requested. -/
def ReadyAfter (calls : List (LlamaCall τ)) : Prop :=
  ∃ batch, (batches calls).getLast? = some batch ∧ ∃ entry, batch.getLast? = some entry ∧ entry.logits = true

section Calls

variable {calls earlier later : List (LlamaCall τ)} {batch : Batch τ} {token : τ}

theorem batches_append : batches (earlier ++ later) = batches earlier ++ batches later := List.filterMap_append

theorem sampledTokens_append : sampledTokens (earlier ++ later) = sampledTokens earlier ++ sampledTokens later :=
  List.filterMap_append

theorem decodedTokens_append : decodedTokens (earlier ++ later) = decodedTokens earlier ++ decodedTokens later := by
  rw [decodedTokens, batches_append, List.flatMap_append]
  rfl

@[simp] theorem sampledTokens_decode : sampledTokens (.decode batch :: calls) = sampledTokens calls := rfl

@[simp] theorem sampledTokens_sample : sampledTokens (.sample token :: calls) = token :: sampledTokens calls := rfl

@[simp] theorem decodedTokens_decode : decodedTokens (.decode batch :: calls) =
    (batch.map fun entry => (entry.token, entry.pos)) ++ decodedTokens calls := rfl

@[simp] theorem decodedTokens_sample : decodedTokens (.sample token :: calls) = decodedTokens calls := rfl

theorem ReadyAfter.append (ready : ReadyAfter later) (earlier : List (LlamaCall τ)) : ReadyAfter (earlier ++ later) := by
  obtain ⟨batch, last, entry⟩ := ready
  refine ⟨batch, ?_, entry⟩
  rw [batches_append, List.getLast?_append, last]
  rfl

theorem readyAfter_decode {entry : BatchEntry τ} (last : batch.getLast? = some entry) (logits : entry.logits = true) :
    ReadyAfter [LlamaCall.decode batch] := ⟨batch, rfl, entry, last, logits⟩

end Calls

section Prefill

variable {input : InferInput τ} {world : InferWorld τ} {rounds i cur : Nat}

theorem prefillChunk_pos (input : InferInput τ) : 1 ≤ input.prefillChunk := by
  unfold InferInput.prefillChunk
  omega

theorem prefillChunk_capacity (capacity : 1 ≤ input.directBatchCapacity) :
    (input.prefillChunk : Int) ≤ input.directBatchCapacity := by
  unfold InferInput.prefillChunk
  omega

theorem length_prefillBatch (i cur : Nat) : (input.prefillBatch i cur).length ≤ cur := by
  simp only [InferInput.prefillBatch, List.length_map, List.length_zipIdx, List.length_take]
  omega

theorem prefillBatch_tokens (i cur : Nat) : ((input.prefillBatch i cur).map fun entry => (entry.token, entry.pos)) =
    ((input.prompt.drop i).take cur).zipIdx i := by
  rw [InferInput.prefillBatch, List.map_map]
  exact List.map_id _

theorem zipIdx_drop (inside : i + cur ≤ input.prompt.length) : (input.prompt.drop i).zipIdx i =
    ((input.prompt.drop i).take cur).zipIdx i ++ (input.prompt.drop (i + cur)).zipIdx (i + cur) := by
  have split : input.prompt.drop i = (input.prompt.drop i).take cur ++ input.prompt.drop (i + cur) := by
    rw [← List.drop_drop, List.take_append_drop]
  have length : ((input.prompt.drop i).take cur).length = cur := by
    rw [List.length_take, List.length_drop]
    omega
  conv_lhs => rw [split, List.zipIdx_append, length]

theorem prefillBatch_last (some : 0 < cur) (last : i + cur = input.prompt.length) :
    ReadyAfter [LlamaCall.decode (input.prefillBatch i cur)] := by
  have whole : (input.prompt.drop i).take cur = input.prompt.drop i := by
    apply List.take_of_length_le
    rw [List.length_drop]
    omega
  have nonempty : input.prefillBatch i cur ≠ [] := by
    intro none
    have length := congrArg List.length none
    simp only [InferInput.prefillBatch, whole, List.length_map, List.length_zipIdx, List.length_drop,
      List.length_nil] at length
    omega
  refine readyAfter_decode (List.getLast?_eq_getLast_of_ne_nil nonempty) ?_
  rw [List.getLast_eq_getElem]
  simp only [InferInput.prefillBatch, whole, List.getElem_map, List.getElem_zipIdx, List.length_map, List.length_zipIdx,
    List.length_drop, beq_iff_eq]
  omega

structure PrefillSpec (input : InferInput τ) (i : Nat) (run : List (LlamaCall τ) × Option InferError) : Prop where
  inOrder : decodedTokens run.1 <+: (input.prompt.drop i).zipIdx i
  complete : run.2 = none → decodedTokens run.1 = (input.prompt.drop i).zipIdx i
  ready : run.2 = none → i < input.prompt.length → ReadyAfter run.1
  samples : sampledTokens run.1 = []
  small : ∀ batch ∈ batches run.1, batch.length ≤ input.prefillChunk

theorem prefillSpec_stopped (error : InferError) : PrefillSpec input i ([], some error) where
  inOrder := List.nil_prefix
  complete := nofun
  ready := nofun
  samples := rfl
  small := by simp [batches]

theorem prefillSpec_decoded {error : InferError} (inside : i < input.prompt.length) :
    PrefillSpec input i
      ([.decode (input.prefillBatch i (min input.prefillChunk (input.prompt.length - i)))], some error) where
  inOrder := by
    have positive := prefillChunk_pos input
    rw [decodedTokens_decode, prefillBatch_tokens,
      zipIdx_drop (show i + min input.prefillChunk (input.prompt.length - i) ≤ input.prompt.length by omega)]
    exact (List.prefix_append_right_inj _).mpr List.nil_prefix
  complete := nofun
  ready := nofun
  samples := rfl
  small := by
    intro batch member
    rw [List.mem_singleton.mp member]
    exact (length_prefillBatch _ _).trans (min_le_left _ _)

theorem prefillSpec_step {later : List (LlamaCall τ) × Option InferError} (inside : i < input.prompt.length)
    (spec : PrefillSpec input (i + input.prefillChunk) later)
    (ended : input.prompt.length ≤ i + input.prefillChunk → later = ([], none)) :
    PrefillSpec input i
      (.decode (input.prefillBatch i (min input.prefillChunk (input.prompt.length - i))) :: later.1, later.2) := by
  have positive := prefillChunk_pos input
  have rest : (input.prompt.drop i).zipIdx i =
      ((input.prompt.drop i).take (min input.prefillChunk (input.prompt.length - i))).zipIdx i ++
        (input.prompt.drop (i + input.prefillChunk)).zipIdx (i + input.prefillChunk) := by
    by_cases short : i + input.prefillChunk ≤ input.prompt.length
    · rw [Nat.min_eq_left (by omega)]
      exact zipIdx_drop short
    · rw [Nat.min_eq_right (by omega), List.drop_eq_nil_of_le (show input.prompt.length ≤ i + input.prefillChunk by omega),
        List.take_of_length_le (by rw [List.length_drop])]
      simp
  constructor
  · rw [decodedTokens_decode, prefillBatch_tokens, rest]
    exact (List.prefix_append_right_inj _).mpr spec.inOrder
  · intro none
    rw [decodedTokens_decode, prefillBatch_tokens, rest, spec.complete none]
  · intro none _
    by_cases more : i + input.prefillChunk < input.prompt.length
    · exact (spec.ready none more).append [_]
    · rw [ended (by omega)]
      exact prefillBatch_last (by omega) (by omega)
  · exact spec.samples
  · intro batch member
    rcases List.mem_cons.mp member with rfl | member
    · exact (length_prefillBatch _ _).trans (min_le_left _ _)
    · exact spec.small batch member

theorem prefillSpec_done (beyond : input.prompt.length ≤ i) : PrefillSpec input i ([], none) := by
  have nothing : (input.prompt.drop i).zipIdx i = [] := by
    rw [List.drop_eq_nil_of_le beyond]
    rfl
  constructor
  · exact List.nil_prefix
  · intro _
    exact nothing.symm
  · intro _ inside
    omega
  · rfl
  · simp [batches]

theorem prefillFrom_beyond (rounds : Nat) (beyond : input.prompt.length ≤ i) :
    input.prefillFrom world rounds i = ([], none) := by
  cases rounds with
  | zero => rfl
  | succ rounds => rw [InferInput.prefillFrom, if_neg (by omega)]

theorem prefillFrom_spec (enough : input.prompt.length ≤ i + rounds) :
    PrefillSpec input i (input.prefillFrom world rounds i) := by
  induction rounds generalizing i with
  | zero => exact prefillSpec_done enough
  | succ rounds ih =>
    have positive := prefillChunk_pos input
    rw [InferInput.prefillFrom]
    split
    · rename_i inside
      split
      · exact prefillSpec_stopped _
      · dsimp only
        split
        · exact prefillSpec_decoded inside
        · split
          · exact prefillSpec_decoded inside
          · apply prefillSpec_step inside
            · apply ih
              omega
            · exact prefillFrom_beyond rounds
    · apply prefillSpec_done
      omega

end Prefill

section Generation

variable {vocab : Vocab τ} {world : InferWorld τ}

structure GenerationSpec (position : Nat) (run : InferRun τ) : Prop where
  inOrder : decodedTokens run.calls <+: (sampledTokens run.calls).zipIdx position
  complete : ∀ output, run.result = .ok output → ∃ handed, decodedTokens run.calls = handed.zipIdx position ∧
    (handed = sampledTokens run.calls ∨ ∃ last, sampledTokens run.calls = handed ++ [last])
  ready : ∀ before token after, run.calls = before ++ .sample token :: after → before = [] ∨ ReadyAfter before
  small : ∀ batch ∈ batches run.calls, batch.length = 1

variable {position : Nat} {token : τ}

theorem generationSpec_nothing (result : Except InferError Bytes) : GenerationSpec position (⟨[], result⟩ : InferRun τ) where
  inOrder := List.nil_prefix
  complete := fun _ _ => ⟨[], rfl, .inl rfl⟩
  ready := by simp
  small := by simp [batches]

theorem generationSpec_sampled (result : Except InferError Bytes) : GenerationSpec position ⟨[.sample token], result⟩ where
  inOrder := List.nil_prefix
  complete := fun _ _ => ⟨[], rfl, .inr ⟨token, rfl⟩⟩
  ready := by
    intro before other after same
    cases before with
    | nil => exact .inl rfl
    | cons _ before => simp at same
  small := by simp [batches, LlamaCall.batch?]

theorem generationSpec_step {later : InferRun τ} {result : Except InferError Bytes}
    (spec : GenerationSpec (position + 1) later) (sameResult : ∀ output, result = .ok output → later.result = .ok output) :
    GenerationSpec position ⟨.sample token :: .decode [⟨token, position, true⟩] :: later.calls, result⟩ where
  inOrder := by
    simp only [decodedTokens_sample, decodedTokens_decode, sampledTokens_sample, sampledTokens_decode, List.zipIdx_cons]
    exact List.cons_prefix_cons.mpr ⟨rfl, spec.inOrder⟩
  complete := by
    intro output finished
    obtain ⟨handed, decoded, all⟩ := spec.complete output (sameResult output finished)
    refine ⟨token :: handed, ?_, ?_⟩
    · simp only [decodedTokens_sample, decodedTokens_decode, decoded, List.zipIdx_cons]
      rfl
    · rcases all with rfl | ⟨last, all⟩
      · exact .inl rfl
      · right
        refine ⟨last, ?_⟩
        simp only [sampledTokens_sample, sampledTokens_decode, all]
        rfl
  ready := by
    intro before other after same
    rcases before with _ | ⟨_, _ | ⟨_, before⟩⟩
    · exact .inl rfl
    · simp at same
    · right
      simp only [List.cons_append, List.cons.injEq] at same
      obtain ⟨rfl, rfl, same⟩ := same
      rcases spec.ready before other after same with rfl | ready
      · exact (readyAfter_decode rfl rfl).append [.sample token]
      · exact ready.append [.sample token, .decode [⟨token, position, true⟩]]
  small := by
    intro batch member
    rcases List.mem_cons.mp member with rfl | member
    · rfl
    · exact spec.small batch member

theorem generateFrom_spec (steps i : Nat) (output : Bytes) (position : Nat) :
    GenerationSpec position (generateFrom vocab world steps i output position) := by
  induction steps generalizing i output position with
  | zero => exact generationSpec_nothing _
  | succ steps ih =>
    rw [generateFrom]
    split
    · exact generationSpec_nothing _
    · dsimp only
      split
      · exact generationSpec_sampled _
      · split
        · exact generationSpec_sampled _
        · split
          · refine generationSpec_step (generationSpec_nothing (.error .tokenDecodeFailed)) ?_
            intro output failed
            cases failed
          · exact generationSpec_step (ih _ _ _) fun _ same => same

end Generation

structure DecodeDiscipline (input : InferInput τ) (run : InferRun τ) : Prop where
  inOrder : decodedTokens run.calls <+: (input.prompt ++ sampledTokens run.calls).zipIdx
  complete : ∀ output, run.result = .ok output → ∃ handed, decodedTokens run.calls = (input.prompt ++ handed).zipIdx ∧
    (handed = sampledTokens run.calls ∨ ∃ last, sampledTokens run.calls = handed ++ [last])
  capacity : ∀ batch ∈ batches run.calls, (batch.length : Int) ≤ input.directBatchCapacity
  logits : ∀ before token after, run.calls = before ++ .sample token :: after → ReadyAfter before

theorem decodeDiscipline_nothing {input : InferInput τ} (error : InferError) :
    DecodeDiscipline input (⟨[], .error error⟩ : InferRun τ) where
  inOrder := List.nil_prefix
  complete := nofun
  capacity := by simp [batches]
  logits := by simp

theorem prefill_spec (input : InferInput τ) (world : InferWorld τ) : PrefillSpec input 0 (input.prefill world) :=
  prefillFrom_spec (by omega)

theorem decodedTokens_prefill {input : InferInput τ} {world : InferWorld τ} (prefilled : (input.prefill world).2 = none) :
    decodedTokens (input.prefill world).1 = input.prompt.zipIdx :=
  (prefill_spec input world).complete prefilled

theorem decodeDiscipline_prefilled {input : InferInput τ} {world : InferWorld τ} {error : InferError}
    (capacity : 1 ≤ input.directBatchCapacity) : DecodeDiscipline input ⟨(input.prefill world).1, .error error⟩ := by
  have spec := prefill_spec input world
  have noSamples : sampledTokens (input.prefill world).1 = [] := spec.samples
  constructor
  · simp only [noSamples, List.append_nil]
    exact spec.inOrder
  · exact nofun
  · intro batch member
    have small := spec.small batch member
    have chunk := prefillChunk_capacity capacity
    omega
  · intro before token after same
    dsimp only at same
    rw [same, sampledTokens_append] at noSamples
    simp at noSamples

theorem decodeDiscipline_generated {vocab : Vocab τ} {input : InferInput τ} {world : InferWorld τ}
    (capacity : 1 ≤ input.directBatchCapacity) (accepted : input.Accepted) (prefilled : (input.prefill world).2 = none) :
    DecodeDiscipline input
      ⟨(input.prefill world).1 ++ (input.generate vocab world).calls, (input.generate vocab world).result⟩ := by
  have spec := prefill_spec input world
  have later : GenerationSpec input.prompt.length (input.generate vocab world) := generateFrom_spec _ _ _ _
  have noSamples : sampledTokens (input.prefill world).1 = [] := spec.samples
  have prompt : ∀ tokens : List τ, (input.prompt ++ tokens).zipIdx =
      decodedTokens (input.prefill world).1 ++ tokens.zipIdx input.prompt.length := by
    intro tokens
    rw [decodedTokens_prefill prefilled, List.zipIdx_append, Nat.zero_add]
  constructor
  · rw [decodedTokens_append, sampledTokens_append, noSamples, List.nil_append, prompt]
    exact (List.prefix_append_right_inj _).mpr later.inOrder
  · intro output finished
    obtain ⟨handed, decoded, all⟩ := later.complete output finished
    rw [decodedTokens_append, sampledTokens_append, noSamples, List.nil_append]
    exact ⟨handed, by rw [prompt, decoded], all⟩
  · intro batch member
    dsimp only at member
    rw [batches_append] at member
    rcases List.mem_append.mp member with member | member
    · have small := spec.small batch member
      have chunk := prefillChunk_capacity capacity
      omega
    · have single := later.small batch member
      omega
  · intro before token after same
    have ready : ReadyAfter (input.prefill world).1 :=
      spec.ready prefilled (List.length_pos_iff.mpr accepted.2.1)
    rcases List.append_eq_append_iff.mp same with ⟨more, rfl, rest⟩ | ⟨more, split, rest⟩
    · rcases later.ready more token after rest with rfl | laterReady
      · rwa [List.append_nil]
      · exact laterReady.append _
    · cases more with
      | nil =>
        rw [List.append_nil] at split
        rwa [← split]
      | cons call more =>
        obtain ⟨rfl, _⟩ := List.cons.inj rest
        rw [split, sampledTokens_append] at noSamples
        simp at noSamples

/-- An early exit has a cause: an accepted call that nothing disturbs returns its output. -/
theorem directInfer_disciplined (vocab : Vocab τ) (input : InferInput τ) (world : InferWorld τ)
    (capacity : 1 ≤ input.directBatchCapacity) :
    DecodeDiscipline input (directInfer vocab input world) ∧
      (input.Accepted → world.Undisturbed → ∃ output, (directInfer vocab input world).result = .ok output) := by
  refine ⟨?_, directInfer_returns⟩
  rcases directInfer_cases vocab input world with ⟨error, refused⟩ | ⟨accepted, ⟨error, _, failed⟩ | ⟨prefilled, generated⟩⟩
  · rw [refused]
    exact decodeDiscipline_nothing error
  · rw [failed]
    exact decodeDiscipline_prefilled capacity
  · rw [generated]
    exact decodeDiscipline_generated capacity accepted prefilled

section Sample

def sampleVocab : Vocab Nat where
  isEog token := token == 0
  tokenToPiece token := [.ofNat token]

def sampleInput : InferInput Nat where
  loaded := true
  prompt := [11, 12, 13]
  runtimeNCtx := 128
  directPrefillChunk := 2
  directBatchCapacity := 16
  batchInitialized := true
  nPredict := 2

theorem directInfer_disciplined_sample :
    DecodeDiscipline sampleInput (directInfer sampleVocab sampleInput { sampled := fun _ => 7 }) ∧
      (∃ output, (directInfer sampleVocab sampleInput { sampled := fun _ => 7 }).result = .ok output) ∧
      decodedTokens (directInfer sampleVocab sampleInput { sampled := fun _ => 7 }).calls =
        [(11, 0), (12, 1), (13, 2), (7, 3), (7, 4)] := by
  obtain ⟨disciplined, returns⟩ :=
    directInfer_disciplined sampleVocab sampleInput { sampled := fun _ => 7 } (by decide)
  exact ⟨disciplined, returns ⟨rfl, by decide, by decide, rfl⟩ (undisturbed_default _), by decide⟩

end Sample

end Engine
