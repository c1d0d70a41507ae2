import TranscriptForm.Engine.StuckChat

-- What the memory of the context holds as long as every prompt finds its place.
namespace Engine

open Numbering Transition

variable {τ : Type}

section Accepted

variable {m : MemoryChat τ} {size startPos start i rounds batchCapacity : Nat} {items tokens : List τ}
  {computeLastLogit : Bool} {nPredict : Int} {computes : Nat → Int}

theorem shiftContext_length (m : MemoryChat τ) : m.shiftContext.cache.cells.length ≤ m.cache.cells.length := by
  rw [shiftContext_cells, pull, List.length_map, vacate]
  exact List.length_filter_le _ _

theorem shifted_smaller (shifts : Prop) [Decidable shifts] (m : MemoryChat τ) :
    (if shifts then m.shiftContext else m).cache.cells.length ≤ m.cache.cells.length ∧
      (if shifts then m.shiftContext else m).cache.size = m.cache.size := by
  split
  · exact ⟨shiftContext_length m, shiftContext_size m⟩
  · exact ⟨Nat.le_refl _, rfl⟩

/-- A batch that follows, with room for it, is decoded unless its computation fails. -/
theorem llamaDecode_fills {cur : Nat} (some : 0 < cur) (more : i < tokens.length)
    (follows : m.cache.Follows (startPos + i)) (room : m.cache.cells.length + min cur (tokens.length - i) ≤ m.cache.size) :
    (m.llamaDecode size (chatBatch tokens startPos computeLastLogit i cur) 0).2 = true ∧
      (m.llamaDecode size (chatBatch tokens startPos computeLastLogit i cur) 0).1.cache =
        { m.cache with cells := m.cache.cells ++ (chatBatch tokens startPos computeLastLogit i cur).cells } := by
  rcases decode_cases (@chatBatch_consecutive _ startPos _ _ _ computeLastLogit some more)
    m.cache 0 with filled | refused
  · exact ⟨decide_eq_true filled.code, filled.same⟩
  · have why := refused.why
    rw [chatBatch_length] at why
    rcases why with wrong | full | failed
    · exact absurd follows wrong
    · omega
    · exact absurd rfl failed

theorem decodeFrom_size : (m.decodeFrom size tokens startPos computeLastLogit computes batchCapacity rounds i).1.cache.size =
    m.cache.size := by
  induction rounds generalizing i m with
  | zero => rfl
  | succ rounds ih =>
    rw [MemoryChat.decodeFrom]
    split
    · dsimp only
      have room := (shifted_smaller (maxBatchSize ≤ startPos + i + min (tokens.length - i) batchCapacity) m).2
      generalize (if maxBatchSize ≤ startPos + i + min (tokens.length - i) batchCapacity then m.shiftContext else m) =
        shifted at room ⊢
      have same := (decode_size (chatBatch tokens startPos computeLastLogit i (min (tokens.length - i) batchCapacity))
        (computes i) shifted.cache).trans room
      split
      · exact same
      · exact ih.trans same
    · rfl

theorem Advanced.follows {decoded : Nat} (advanced : Advanced m startPos decoded start items tokens) :
    m.cache.Follows (startPos + decoded) := by
  right
  rw [advanced.last]
  omega

theorem batch_cells_length {cur : Nat} : (chatBatch tokens startPos computeLastLogit i cur).cells.length =
    min cur (tokens.length - i) := by
  rw [Batch.cells, List.length_map, chatBatch_length]

/-- A prompt whose first batch was decoded is decoded to its end, shifts or not. -/
theorem decodeFrom_decodes (capacity : 0 < batchCapacity) (computed : ∀ i, computes i = 0)
    (advanced : Advanced m startPos (min i tokens.length) start items tokens)
    (room : m.cache.cells.length + (tokens.length - i) ≤ m.cache.size) :
    (m.decodeFrom size tokens startPos computeLastLogit computes batchCapacity rounds i).2 = true := by
  induction rounds generalizing i m with
  | zero => rfl
  | succ rounds ih =>
    rw [MemoryChat.decodeFrom]
    by_cases more : i < tokens.length
    · rw [if_pos more]
      rw [Nat.min_eq_left (Nat.le_of_lt more)] at advanced
      dsimp only
      generalize shiftedIs : (if maxBatchSize ≤ startPos + i + min (tokens.length - i) batchCapacity then m.shiftContext
        else m) = shifted
      have moved : Advanced shifted startPos i start items tokens := by
        rw [← shiftedIs]
        split
        · exact advanced.shift
        · exact advanced
      have smaller : shifted.cache.cells.length ≤ m.cache.cells.length ∧ shifted.cache.size = m.cache.size := by
        rw [← shiftedIs]
        exact shifted_smaller _ m
      have positive : 0 < min (tokens.length - i) batchCapacity := by omega
      obtain ⟨outcome, cache⟩ := @llamaDecode_fills _ _ size _ _ _ computeLastLogit _ positive more
        moved.follows (by omega)
      rw [computed i]
      simp only [outcome, Bool.not_true, Bool.false_eq_true, if_false]
      apply ih
      · have further := @Advanced.fill _ _ _ _ _ _ _ computeLastLogit _ _ moved positive more
          (@llamaDecode_cases _ size _ _ _ _ _ positive more 0 shifted).1 (congrArg KvCache.cells cache)
        have count : i + min (min (tokens.length - i) batchCapacity) (tokens.length - i) =
            min (i + batchCapacity) tokens.length := by omega
        rwa [count] at further
      · rw [cache]
        dsimp only
        rw [List.length_append, batch_cells_length]
        omega
    · rw [if_neg more]

theorem InStep.follows (inStep : InStep m start items) : m.cache.Follows m.chat.positions.current := by
  by_cases none : items = []
  · left
    rw [inStep.cells, none]
    rfl
  · right
    rw [KvCache.seqPosMax, inStep.cells, lastPlace_zipIdx none, inStep.current]
    omega

def ShiftsFirst (m : MemoryChat τ) (tokens : List τ) (batchCapacity : Nat) : Prop :=
  maxBatchSize ≤ m.chat.positions.current + min tokens.length batchCapacity ∧
    m.chat.positions.systemPrompt + 2 ≤ m.chat.positions.current

/-- A shift that discards nothing, or that finds nothing to discard, leaves room behind the memory. -/
theorem shifted_follows (inStep : InStep m start items) (still : items = [] ∨ ¬ ShiftsFirst m tokens batchCapacity) :
    (if maxBatchSize ≤ m.chat.positions.current + 0 + min (tokens.length - 0) batchCapacity then m.shiftContext
      else m).cache.Follows m.chat.positions.current := by
  split
  · rename_i far
    rcases still with none | still
    · left
      rw [shiftContext_cells, inStep.cells, none]
      rfl
    · rw [shiftContext_still (by
        by_contra large
        exact still ⟨far, by omega⟩)]
      exact inStep.follows
  · exact inStep.follows

theorem decodeFrom_accepts (capacity : 0 < batchCapacity) (some : tokens ≠ []) (enough : tokens.length ≤ rounds)
    (inStep : InStep m start items) (computed : ∀ i, computes i = 0)
    (room : m.cache.cells.length + tokens.length ≤ m.cache.size)
    (still : items = [] ∨ ¬ ShiftsFirst m tokens batchCapacity) :
    (m.decodeFrom size tokens m.chat.positions.current computeLastLogit computes batchCapacity rounds 0).2 = true := by
  have size_pos : 0 < tokens.length := List.length_pos_iff.mpr some
  obtain ⟨rounds, rfl⟩ : ∃ fewer, rounds = fewer + 1 := ⟨rounds - 1, by omega⟩
  have follows := shifted_follows inStep still
  obtain ⟨low, lowOnly⟩ := shifted_lower
    (maxBatchSize ≤ m.chat.positions.current + 0 + min (tokens.length - 0) batchCapacity) m
  obtain ⟨smaller, same⟩ := shifted_smaller
    (maxBatchSize ≤ m.chat.positions.current + 0 + min (tokens.length - 0) batchCapacity) m
  have positive : 0 < min (tokens.length - 0) batchCapacity := by omega
  rw [MemoryChat.decodeFrom, if_pos size_pos]
  dsimp only
  generalize (if maxBatchSize ≤ m.chat.positions.current + 0 + min (tokens.length - 0) batchCapacity then
    m.shiftContext else m) = shifted at follows low lowOnly smaller same ⊢
  obtain ⟨outcome, cache⟩ := @llamaDecode_fills _ _ size _ _ _ computeLastLogit _ positive size_pos
    follows (by omega)
  rw [computed 0]
  simp only [outcome, Bool.not_true, Bool.false_eq_true, if_false]
  apply decodeFrom_decodes capacity computed
  · exact advanced_first capacity some inStep low lowOnly follows
      (@llamaDecode_cases _ size _ _ _ _ _ positive size_pos 0 shifted).1 (congrArg KvCache.cells cache)
  · rw [cache]
    dsimp only
    rw [List.length_append, batch_cells_length]
    omega

/-- A shift before the first batch puts the memory behind the prompt. -/
theorem decodeFrom_behind (capacity : 0 < batchCapacity) (some : tokens ≠ []) (enough : tokens.length ≤ rounds)
    (inStep : InStep m start items) (held : items ≠ []) (shifts : ShiftsFirst m tokens batchCapacity) :
    (m.decodeFrom size tokens m.chat.positions.current computeLastLogit computes batchCapacity rounds 0).2 = false ∧
      InStep (m.decodeFrom size tokens m.chat.positions.current computeLastLogit computes batchCapacity rounds 0).1
        (m.leavesFrom start) (m.leaves start items) := by
  have size_pos : 0 < tokens.length := List.length_pos_iff.mpr some
  obtain ⟨rounds, rfl⟩ : ∃ fewer, rounds = fewer + 1 := ⟨rounds - 1, by omega⟩
  have shifted := inStep_shift inStep
  have positive : 0 < min (tokens.length - 0) batchCapacity := by omega
  have left : m.leaves start items ≠ [] := by
    have current := inStep.current
    have filled := List.length_pos_iff.mpr held
    have large := shifts.2
    rw [← List.length_pos_iff, MemoryChat.leaves, MemoryChat.nDiscard, List.length_append, List.length_take,
      List.length_drop]
    omega
  have refused : ¬ m.shiftContext.cache.Follows (m.chat.positions.current + 0) := by
    have below := shiftContext_below shifts.2
    rw [shifted.current] at below
    have last := @lastPlace_zipIdx _ _ (m.leavesFrom start) left
    rintro (empty | next)
    · rw [shifted.cells, List.zipIdx_eq_nil_iff] at empty
      exact left empty
    · rw [KvCache.seqPosMax, shifted.cells] at next
      omega
  rw [MemoryChat.decodeFrom, if_pos size_pos]
  dsimp only
  have taken : (if maxBatchSize ≤ m.chat.positions.current + 0 + min (tokens.length - 0) batchCapacity then
      m.shiftContext else m) = m.shiftContext := if_pos shifts.1
  rw [taken]
  obtain ⟨positions, ⟨outcome, follows, -⟩ | ⟨outcome, cache⟩⟩ :=
    @llamaDecode_cases _ size m.chat.positions.current _ _ computeLastLogit _
      positive size_pos (computes 0) m.shiftContext
  · exact absurd follows refused
  · simp only [outcome, Bool.not_false, if_true, true_and]
    exact inStep_of_same shifted positions (congrArg KvCache.cells cache)

theorem processUserPrompt_systemPrompt : (m.processUserPrompt size tokens nPredict computes).chat.positions.systemPrompt =
    m.chat.positions.systemPrompt := by
  obtain ⟨succeeds, same⟩ := @processUserPrompt_chat _ size tokens nPredict computes m
  rw [← same]
  exact (processUserPrompt_leaves succeeds).2.2

theorem processUserPrompt_size : (m.processUserPrompt size tokens nPredict computes).cache.size = m.cache.size := by
  have same := @decodeFrom_size _ (m.onChat AiChat.resetShortTermStates) size
  unfold MemoryChat.processUserPrompt
  dsimp only
  split <;> exact same

/-- The outcome of the decoding decides what a prompt returns. -/
theorem processUserPrompt_last : (m.processUserPrompt size tokens nPredict computes).chat.last =
    some (.code (if ((m.onChat AiChat.resetShortTermStates).decodeTokensInBatches size (tokens.take maxBatchSize) true
      computes).2 then 0 else 2)) := by
  unfold MemoryChat.processUserPrompt
  dsimp only
  generalize (m.onChat AiChat.resetShortTermStates).decodeTokensInBatches size (tokens.take maxBatchSize) true computes =
    done
  obtain ⟨after, ok⟩ := done
  cases ok with
  | false => rfl
  | true => rfl

end Accepted

section Prompts

variable {vocab : Vocab τ} {history : List (MemoryChat τ × MemoryEvent τ)} {m : MemoryChat τ} {size start : Nat}
  {items tokens : List τ} {nPredict : Int} {computes : Nat → Int}

structure Computable (m : MemoryChat τ) (tokens : List τ) (computes : Nat → Int) : Prop where
  computed : ∀ i, computes i = 0
  room : m.cache.cells.length + min tokens.length maxBatchSize ≤ m.cache.size

def ShiftsAtOnce (m : MemoryChat τ) (tokens : List τ) : Prop :=
  ShiftsFirst m (tokens.take maxBatchSize) (max 1 m.chat.runtimeBatchCapacity)

theorem discards_of_shiftsAtOnce (shifts : ShiftsAtOnce m tokens) : Discards m tokens := by
  obtain ⟨far, large⟩ := shifts
  rw [List.length_take] at far
  exact ⟨by omega, large⟩

theorem processUserPrompt_accepted (some : tokens ≠ []) (inStep : InStep m start items)
    (computable : Computable m tokens computes) (still : items = [] ∨ ¬ ShiftsAtOnce m tokens) :
    (m.processUserPrompt size tokens nPredict computes).chat.last = .some (.code 0) := by
  have room : m.cache.cells.length + (tokens.take maxBatchSize).length ≤ m.cache.size := by
    rw [List.length_take, Nat.min_comm]
    exact computable.room
  have resetStep : InStep (m.onChat AiChat.resetShortTermStates) start items := inStep_of_same inStep rfl rfl
  have accepts := @decodeFrom_accepts _ _ size _ _ _ _ _ true _
    (batchCapacity_pos (m.onChat AiChat.resetShortTermStates)) (take_ne_nil some) (Nat.le_refl _) resetStep
    computable.computed room still
  change ((m.onChat AiChat.resetShortTermStates).decodeTokensInBatches size _ true computes).2 = true at accepts
  rw [processUserPrompt_last, accepts, if_pos rfl]

/-- An accepted prompt comes behind the rest, unless the context was shifted under it. -/
theorem Prompted.of_accepted {after : MemoryChat τ} (prompted : Prompted m start items tokens after)
    (accepted : after.chat.last = .some (.code 0)) :
    Discards m tokens ∧ Ahead after ∨ ¬ Discards m tokens ∧ InStep after start (items ++ tokens.take maxBatchSize) := by
  cases prompted with
  | refused last inStep =>
    rw [accepted] at last
    cases last
  | partly last ahead =>
    rw [accepted] at last
    cases last
  | shifted last discards ahead => exact .inl ⟨discards, ahead⟩
  | taken last stays inStep => exact .inr ⟨stays, inStep⟩

theorem processUserPrompt_taken (some : tokens ≠ []) (inStep : InStep m start items)
    (computable : Computable m tokens computes) (stays : ¬ Discards m tokens) :
    (m.processUserPrompt size tokens nPredict computes).chat.last = .some (.code 0) ∧
      InStep (m.processUserPrompt size tokens nPredict computes) start (items ++ tokens.take maxBatchSize) := by
  have accepted := @processUserPrompt_accepted _ _ size _ _ _ nPredict _ some inStep computable
    (.inr fun shifts => stays (discards_of_shiftsAtOnce shifts))
  rcases (processUserPrompt_prompted some inStep).of_accepted accepted with ⟨discards, ahead⟩ | ⟨-, taken⟩
  · exact absurd discards stays
  · exact ⟨accepted, taken⟩

theorem processUserPrompt_shifted (some : tokens ≠ []) (inStep : InStep m start items)
    (computable : Computable m tokens computes) (discards : Discards m tokens)
    (later : items = [] ∨ ¬ ShiftsAtOnce m tokens) :
    (m.processUserPrompt size tokens nPredict computes).chat.last = .some (.code 0) ∧
      Stuck vocab (m.processUserPrompt size tokens nPredict computes) := by
  have accepted := @processUserPrompt_accepted _ _ size _ _ _ nPredict _ some inStep computable later
  rcases (processUserPrompt_prompted some inStep).of_accepted accepted with ⟨-, ahead⟩ | ⟨stays, taken⟩
  · exact ⟨accepted, stuck_of_ahead ahead⟩
  · exact absurd discards stays

theorem processUserPrompt_refused (some : tokens ≠ []) (inStep : InStep m start items) (held : items ≠ [])
    (shifts : ShiftsAtOnce m tokens) :
    (m.processUserPrompt size tokens nPredict computes).chat.last = .some (.code 2) ∧
      InStep (m.processUserPrompt size tokens nPredict computes) (m.leavesFrom start) (m.leaves start items) := by
  have resetStep : InStep (m.onChat AiChat.resetShortTermStates) start items := inStep_of_same inStep rfl rfl
  have behind := @decodeFrom_behind _ _ size _ _ _ _ _ true computes
    (batchCapacity_pos (m.onChat AiChat.resetShortTermStates)) (take_ne_nil some) (Nat.le_refl _) resetStep held shifts
  obtain ⟨outcome, shifted⟩ := behind
  change ((m.onChat AiChat.resetShortTermStates).decodeTokensInBatches size _ true computes).2 = false at outcome
  refine ⟨by rw [processUserPrompt_last, outcome, if_neg Bool.false_ne_true], ?_⟩
  unfold MemoryChat.processUserPrompt
  dsimp only
  rw [outcome, if_pos Bool.not_false]
  exact inStep_of_same shifted rfl rfl

theorem processUserPrompt_trichotomy (run : MemoryRun vocab history m) (some : tokens ≠ [])
    (computable : Computable m tokens computes) : Stuck vocab m ∨ ∃ start items, InStep m start items ∧
      (¬ Discards m tokens →
        (m.processUserPrompt size tokens nPredict computes).chat.last = .some (.code 0) ∧
          InStep (m.processUserPrompt size tokens nPredict computes) start (items ++ tokens.take maxBatchSize)) ∧
      (Discards m tokens → (items = [] ∨ ¬ ShiftsAtOnce m tokens) →
        (m.processUserPrompt size tokens nPredict computes).chat.last = .some (.code 0) ∧
          Stuck vocab (m.processUserPrompt size tokens nPredict computes)) ∧
      (items ≠ [] → ShiftsAtOnce m tokens →
        (m.processUserPrompt size tokens nPredict computes).chat.last = .some (.code 2) ∧
          InStep (m.processUserPrompt size tokens nPredict computes) (m.leavesFrom start) (m.leaves start items)) := by
  rcases (always_located run).2.imp_right stuck_of_ahead with ⟨start, items, inStep⟩ | stuck
  · right
    refine ⟨start, items, inStep, ?_, ?_, ?_⟩
    · exact processUserPrompt_taken some inStep computable
    · exact processUserPrompt_shifted some inStep computable
    · exact fun held shifts => processUserPrompt_refused some inStep held shifts
  · exact .inl stuck

end Prompts

section Crowded

def crowded (count : Nat) : MemoryChat Unit := briefed.processUserPrompt 8192 (List.replicate count ()) 5 fun _ => 0

/-- What is known of it as long as the prompt ends before the context is shifted. -/
structure Crowded (m : MemoryChat Unit) (count : Nat) : Prop where
  inStep : InStep m 0 (List.replicate (count + 2) ())
  accepted : m.chat.last = some (.code 0)
  systemPrompt : m.chat.positions.systemPrompt = 2
  capacity : m.chat.runtimeBatchCapacity = 16
  context : m.chat.context = some 8192
  size : m.cache.size = 8192
  stop : m.chat.stopGenerationPosition = 2 * count + 7

theorem computable_crowded {m : MemoryChat Unit} {count more : Nat} (is : Crowded m count) (room : count + 2 + more ≤ 8192) :
    Computable m (List.replicate more ()) fun _ => 0 := by
  refine ⟨fun _ => rfl, ?_⟩
  rw [is.inStep.cells, is.size, List.length_zipIdx, List.length_replicate, List.length_replicate]
  omega

theorem computable_briefed {count : Nat} (room : count ≤ 8185) :
    Computable briefed (List.replicate count ()) fun _ => 0 := by
  have cells : briefed.cache.cells.length = 2 := by decide +kernel
  have size : briefed.cache.size = 8192 := by decide +kernel
  refine ⟨fun _ => rfl, ?_⟩
  rw [cells, size, List.length_replicate]
  omega

theorem stays_briefed {count : Nat} (room : count ≤ 8185) : ¬ Discards briefed (List.replicate count ()) := by
  have current : briefed.chat.positions.current = 2 := by decide +kernel
  rintro ⟨far, -⟩
  rw [current, List.length_replicate, maxBatchSize, defaultContextSize, overflowHeadroom] at far
  omega

theorem crowded_is {count : Nat} (some : 0 < count) (room : count ≤ 8185) : Crowded (crowded count) count := by
  have briefedStep : InStep briefed 0 [(), ()] := ⟨by decide +kernel, by decide +kernel⟩
  have filled : List.replicate count () ≠ [] := by simpa using some.ne'
  obtain ⟨accepted, inStep⟩ := @processUserPrompt_taken _ _ 8192 _ _ _ 5 _ filled briefedStep (computable_briefed room)
    (stays_briefed room)
  change (crowded count).chat.last = _ at accepted
  change InStep (crowded count) _ _ at inStep
  obtain ⟨succeeds, chat⟩ := @processUserPrompt_chat _ 8192 (List.replicate count ()) 5 (fun _ => 0) briefed
  change _ = (crowded count).chat at chat
  obtain ⟨context, capacity, systemPrompt⟩ :=
    @processUserPrompt_leaves _ 8192 briefed.chat (List.replicate count ()) 5 succeeds
  have stop := @processUserPrompt_stop _ 8192 briefed.chat (List.replicate count ()) 5 succeeds (by rw [chat, accepted])
  rw [chat] at context capacity systemPrompt stop
  have few : count ≤ maxBatchSize := room.trans (by decide)
  have whole : [(), ()] ++ (List.replicate count ()).take maxBatchSize = List.replicate (count + 2) () := by
    rw [List.take_replicate, Nat.min_eq_right few, Nat.add_comm, List.replicate_add]
    rfl
  rw [whole] at inStep
  refine ⟨inStep, accepted, systemPrompt.trans (by decide +kernel), capacity.trans (by decide +kernel),
    context.trans (by decide +kernel), ?_, ?_⟩
  · exact processUserPrompt_size.trans (by decide +kernel)
  · rw [stop, inStep.current, List.length_replicate, List.length_replicate, Nat.min_eq_right few,
      llamaPos_of_lt (by omega) (by omega)]
    omega

theorem discards_crowded_iff {m : MemoryChat Unit} {count more : Nat} (is : Crowded m count) (some : 2 ≤ count) :
    Discards m (List.replicate more ()) ↔ 8188 ≤ count + 2 + min more 8188 := by
  have large : m.chat.positions.systemPrompt + 2 ≤ m.chat.positions.current := by
    rw [is.systemPrompt, is.inStep.current, List.length_replicate]
    omega
  unfold Discards
  rw [and_iff_left large, is.inStep.current, List.length_replicate, List.length_replicate, Nat.zero_add]
  rfl

theorem shiftsAtOnce_crowded_iff {m : MemoryChat Unit} {count more : Nat} (is : Crowded m count) (some : 2 ≤ count) :
    ShiftsAtOnce m (List.replicate more ()) ↔ 8188 ≤ count + 2 + min (min 8188 more) 16 := by
  have large : m.chat.positions.systemPrompt + 2 ≤ m.chat.positions.current := by
    rw [is.systemPrompt, is.inStep.current, List.length_replicate]
    omega
  unfold ShiftsAtOnce ShiftsFirst
  rw [and_iff_left large, is.inStep.current, is.capacity, List.length_take, List.length_replicate, List.length_replicate,
    Nat.zero_add]
  rfl

theorem crowded_run (count : Nat) : ∃ history, MemoryRun chatVocab history (crowded count) :=
  ⟨_, memoryRun_briefed.next (show MemoryChat.step chatVocab briefed
    (.processUserPrompt (List.replicate count ()) 5 fun _ => 0) = some (crowded count) from rfl)⟩

theorem crowded_not_stuck {count : Nat} (some : 2 ≤ count) (room : count ≤ 8184) : ¬ Stuck chatVocab (crowded count) := by
  intro stuck
  have is := crowded_is (by omega : 0 < count) (by omega)
  have stays : ¬ Discards (crowded count) (List.replicate 1 ()) := by
    rw [discards_crowded_iff is some]
    omega
  obtain ⟨accepted, -⟩ := @processUserPrompt_taken _ _ 8192 _ _ _ 5 _ (List.cons_ne_nil () []) is.inStep
    (computable_crowded is (by omega : count + 2 + 1 ≤ 8192)) stays
  have taken : MemoryChat.step chatVocab (crowded count) (.processUserPrompt [()] 5 fun _ => 0) =
      Option.some ((crowded count).processUserPrompt 8192 [()] 5 fun _ => 0) := by
    rw [MemoryChat.step, is.context, Option.map_some]
  have silent := stuck _ _ (.next .start taken) (by simp [Guarded, MemoryEvent.Continues]) _ List.mem_cons_self _ taken
    (List.cons_ne_nil _ _)
  change ((crowded count).processUserPrompt 8192 [()] 5 fun _ => 0).chat.last = _ at silent
  rw [accepted] at silent
  cases silent

theorem held_crowded {m : MemoryChat Unit} {count start : Nat} {items : List Unit} (is : Crowded m count)
    (inStep : InStep m start items) : items ≠ [] := by
  rintro rfl
  have cells := is.inStep.cells.symm.trans inStep.cells
  simp at cells

/-- A prompt that ends before the shift, one with the shift in its second batch, and one with the shift before it. -/
theorem processUserPrompt_trichotomy_crowded :
    (((crowded 8160).processUserPrompt 8192 (List.replicate 20 ()) 5 fun _ => 0).chat.last = some (.code 0) ∧
      ∃ start items, InStep ((crowded 8160).processUserPrompt 8192 (List.replicate 20 ()) 5 fun _ => 0) start items) ∧
    (((crowded 8160).processUserPrompt 8192 (List.replicate 26 ()) 5 fun _ => 0).chat.last = some (.code 0) ∧
      Stuck chatVocab ((crowded 8160).processUserPrompt 8192 (List.replicate 26 ()) 5 fun _ => 0)) ∧
    ((crowded 8170).processUserPrompt 8192 (List.replicate 16 ()) 5 fun _ => 0).chat.last = some (.code 2) ∧
      ∃ start items, InStep ((crowded 8170).processUserPrompt 8192 (List.replicate 16 ()) 5 fun _ => 0) start items := by
  have first := crowded_is (by decide : 0 < 8160) (by decide)
  have second := crowded_is (by decide : 0 < 8170) (by decide)
  obtain ⟨history, run⟩ := crowded_run 8160
  obtain ⟨later, laterRun⟩ := crowded_run 8170
  refine ⟨?_, ?_, ?_⟩
  · rcases @processUserPrompt_trichotomy _ _ _ _ 8192 (List.replicate 20 ()) 5 _ run (List.cons_ne_nil _ _)
      (computable_crowded first (by decide)) with stuck | ⟨start, items, -, taken, -, -⟩
    · exact absurd stuck (crowded_not_stuck (by decide) (by decide))
    · obtain ⟨code, inStep⟩ := taken (by rw [discards_crowded_iff first (by decide)]; decide)
      exact ⟨code, _, _, inStep⟩
  · rcases @processUserPrompt_trichotomy _ _ _ _ 8192 (List.replicate 26 ()) 5 _ run (List.cons_ne_nil _ _)
      (computable_crowded first (by decide)) with stuck | ⟨start, items, -, -, shifted, -⟩
    · exact absurd stuck (crowded_not_stuck (by decide) (by decide))
    · exact shifted ((discards_crowded_iff first (by decide)).mpr (by decide))
        (.inr (by rw [shiftsAtOnce_crowded_iff first (by decide)]; decide))
  · rcases @processUserPrompt_trichotomy _ _ _ _ 8192 (List.replicate 16 ()) 5 _ laterRun (List.cons_ne_nil _ _)
      (computable_crowded second (by decide)) with stuck | ⟨start, items, inStep, -, -, refused⟩
    · exact absurd stuck (crowded_not_stuck (by decide) (by decide))
    · obtain ⟨code, shifted⟩ := refused (held_crowded second inStep)
        ((shiftsAtOnce_crowded_iff second (by decide)).mpr (by decide))
      exact ⟨code, _, _, shifted⟩

end Crowded

end Engine
