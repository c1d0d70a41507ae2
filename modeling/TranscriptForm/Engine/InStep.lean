import TranscriptForm.Engine.ContextMemory

-- Whether the memory of the context still goes on where the chat goes on.
namespace Engine

open Numbering Transition

variable {τ : Type}

/-- The memory holds the tokens one after the other, the last of them right before the current position. -/
structure InStep (m : MemoryChat τ) (start : Nat) (items : List τ) : Prop where
  cells : m.cache.cells = items.zipIdx start
  current : m.chat.positions.current = start + items.length

/-- The current position, or one behind it, is filled already. -/
def Ahead (m : MemoryChat τ) : Prop := ∃ cell ∈ m.cache.cells, m.chat.positions.current ≤ cell.2

section Shift

variable {m : MemoryChat τ} {start : Nat} {items : List τ}

def MemoryChat.nDiscard (m : MemoryChat τ) : Nat := (m.chat.positions.current - m.chat.positions.systemPrompt) / 2

theorem nDiscard_le (m : MemoryChat τ) : m.chat.positions.systemPrompt + m.nDiscard ≤ m.chat.positions.current := by
  have ordered := m.chat.positions.ordered
  unfold MemoryChat.nDiscard
  omega

theorem shiftContext_cells (m : MemoryChat τ) : m.shiftContext.cache.cells =
    pull (m.chat.positions.systemPrompt + m.nDiscard) m.chat.positions.current m.nDiscard
      (vacate m.chat.positions.systemPrompt (m.chat.positions.systemPrompt + m.nDiscard) m.cache.cells) := by
  rw [← seqRm_cells]
  exact seqAdd_cells _ (Nat.le_add_left _ _)

theorem shiftContext_current (m : MemoryChat τ) :
    m.shiftContext.chat.positions.current = m.chat.positions.current - m.nDiscard := rfl

theorem shiftContext_size (m : MemoryChat τ) : m.shiftContext.cache.size = m.cache.size := by
  unfold MemoryChat.shiftContext KvCache.seqAdd
  dsimp only
  split
  · rfl
  · split <;> rfl

def MemoryChat.leaves (m : MemoryChat τ) (start : Nat) (items : List τ) : List τ :=
  items.take (m.chat.positions.systemPrompt - start) ++ items.drop (m.chat.positions.systemPrompt + m.nDiscard - start)

def MemoryChat.leavesFrom (m : MemoryChat τ) (start : Nat) : Nat :=
  min start m.chat.positions.systemPrompt + (start - (m.chat.positions.systemPrompt + m.nDiscard))

/-- A shift closes the gap it makes. -/
theorem inStep_shift (inStep : InStep m start items) : InStep m.shiftContext (m.leavesFrom start) (m.leaves start items) := by
  have within := nDiscard_le m
  constructor
  · have closed := pull_vacate_zipIdx items start (Nat.le_add_right m.chat.positions.systemPrompt m.nDiscard)
      (Nat.le_of_eq inStep.current.symm)
    rw [Nat.add_sub_cancel_left] at closed
    rw [shiftContext_cells, inStep.cells]
    exact closed
  · have current := inStep.current
    rw [shiftContext_current, MemoryChat.leaves, MemoryChat.leavesFrom, List.length_append, List.length_take,
      List.length_drop]
    omega

theorem ahead_shift (ahead : Ahead m) : Ahead m.shiftContext := by
  obtain ⟨⟨item, place⟩, member, behind⟩ := ahead
  have within := nDiscard_le m
  refine ⟨(item, place), ?_, ?_⟩
  · rw [shiftContext_cells]
    exact mem_pull_above (mem_vacate_above member (Nat.le_trans within behind)) behind
  · rw [shiftContext_current]
    exact Nat.le_trans (Nat.sub_le _ _) behind

theorem shiftContext_still (little : m.chat.positions.current ≤ m.chat.positions.systemPrompt + 1) : m.shiftContext = m := by
  have none : (m.chat.positions.current - m.chat.positions.systemPrompt) / 2 = 0 := by omega
  have chat := shiftContext_little little
  have cells : (m.cache.seqRm m.chat.positions.systemPrompt (m.chat.positions.systemPrompt : Nat)).cells = m.cache.cells := by
    rw [seqRm_cells, vacate, List.filter_eq_self]
    intro entry _
    simp [Nat.lt_or_ge]
  have cache : m.cache.seqRm m.chat.positions.systemPrompt (m.chat.positions.systemPrompt : Nat) = m.cache := by
    rw [KvCache.mk.injEq]
    exact ⟨rfl, cells⟩
  unfold MemoryChat.shiftContext
  dsimp only
  rw [none, chat, Nat.add_zero, cache]
  simp [KvCache.seqAdd]

theorem shiftContext_below (large : m.chat.positions.systemPrompt + 2 ≤ m.chat.positions.current) :
    m.shiftContext.chat.positions.current < m.chat.positions.current := by
  rw [shiftContext_current, MemoryChat.nDiscard]
  omega

end Shift

section Batches

variable {startPos i cur : Nat} {tokens : List τ} {computeLastLogit : Bool}

theorem chatBatch_length : (chatBatch tokens startPos computeLastLogit i cur).length = min cur (tokens.length - i) := by
  rw [chatBatch, List.length_map, List.length_zipIdx, List.length_take, List.length_drop]

theorem chatBatch_cells : (chatBatch tokens startPos computeLastLogit i cur).cells =
    ((tokens.drop i).take cur).zipIdx (startPos + i) := by
  rw [Batch.cells, chatBatch, List.map_map, ← List.map_snd_add_zipIdx_eq_zipIdx]
  apply List.map_congr_left
  rintro ⟨token, index⟩ _
  simp [Nat.add_comm]

theorem chatBatch_consecutive (some : 0 < cur) (more : i < tokens.length) :
    (chatBatch tokens startPos computeLastLogit i cur).Consecutive (startPos + i) where
  positions := by
    have places : (chatBatch tokens startPos computeLastLogit i cur).positions =
        (chatBatch tokens startPos computeLastLogit i cur).cells.map Prod.snd := by
      rw [Batch.positions, Batch.cells, List.map_map]
      rfl
    rw [places, chatBatch_cells, List.zipIdx_map_snd, chatBatch_length, List.length_take, List.length_drop]
  nonempty := by
    rw [← List.length_pos_iff, chatBatch_length]
    omega

end Batches

/-- Some of a prompt is in the memory, and it ends where the memory ends. Unless the context was shifted meanwhile, it
    stands right behind what was there before. -/
structure Advanced (m : MemoryChat τ) (startPos decoded start : Nat) (items tokens : List τ) : Prop where
  some : 0 < decoded
  last : m.cache.seqPosMax = startPos + decoded - 1
  behind : m.chat.positions.current ≤ startPos
  exact : m.chat.positions.current = startPos →
    startPos = start + items.length ∧ m.cache.cells = (items ++ tokens.take decoded).zipIdx start

section Decode

variable {m : MemoryChat τ} {size startPos start i rounds batchCapacity decoded : Nat} {items tokens : List τ}
  {computeLastLogit : Bool} {computes : Nat → Int}

theorem Advanced.holds (advanced : Advanced m startPos decoded start items tokens) :
    ∃ cell ∈ m.cache.cells, cell.2 + 1 = startPos + decoded := by
  have some := advanced.some
  have last := advanced.last
  have filled : m.cache.cells ≠ [] := by
    intro empty
    rw [KvCache.seqPosMax, empty] at last
    have none : lastPlace ([] : List (τ × Nat)) = -1 := rfl
    omega
  obtain ⟨cell, member, isLast⟩ := exists_lastPlace filled
  rw [KvCache.seqPosMax] at last
  exact ⟨cell, member, by omega⟩

theorem Advanced.ahead (advanced : Advanced m startPos decoded start items tokens) : Ahead m := by
  obtain ⟨cell, member, place⟩ := advanced.holds
  have some := advanced.some
  have behind := advanced.behind
  exact ⟨cell, member, by omega⟩

theorem Advanced.shift (advanced : Advanced m startPos decoded start items tokens) :
    Advanced m.shiftContext startPos decoded start items tokens := by
  by_cases little : m.chat.positions.current ≤ m.chat.positions.systemPrompt + 1
  · rw [shiftContext_still little]
    exact advanced
  · have behind := advanced.behind
    have below := shiftContext_below (by omega : m.chat.positions.systemPrompt + 2 ≤ m.chat.positions.current)
    refine ⟨advanced.some, ?_, by omega, fun same => by omega⟩
    rw [← advanced.last, KvCache.seqPosMax, shiftContext_cells]
    exact lastPlace_pull_vacate (nDiscard_le m) advanced.ahead

theorem Advanced.fill {cur : Nat} {filled : MemoryChat τ} (advanced : Advanced m startPos i start items tokens)
    (some : 0 < cur) (more : i < tokens.length) (positions : filled.chat.positions = m.chat.positions)
    (cells : filled.cache.cells = m.cache.cells ++ (chatBatch tokens startPos computeLastLogit i cur).cells) :
    Advanced filled startPos (i + min cur (tokens.length - i)) start items tokens := by
  have part : (tokens.drop i).take cur ≠ [] := by
    rw [← List.length_pos_iff, List.length_take, List.length_drop]
    omega
  refine ⟨by omega, ?_, by rw [positions]; exact advanced.behind, fun same => ?_⟩
  · have before : lastPlace m.cache.cells < (startPos + i : Nat) := by
      have last := advanced.last
      rw [KvCache.seqPosMax] at last
      omega
    rw [KvCache.seqPosMax, cells, chatBatch_cells, lastPlace_append_zipIdx part before, List.length_take, List.length_drop]
    omega
  · rw [positions] at same
    obtain ⟨place, earlier⟩ := advanced.exact same
    refine ⟨place, ?_⟩
    have whole : tokens.take (i + min cur (tokens.length - i)) = tokens.take i ++ (tokens.drop i).take cur := by
      rw [List.take_add, ← List.length_drop, ← List.take_eq_take_min]
    rw [cells, earlier, chatBatch_cells, whole, ← List.append_assoc, @List.zipIdx_append _ (items ++ tokens.take i),
      List.length_append, List.length_take, Nat.min_eq_left (Nat.le_of_lt more), place, Nat.add_assoc]

theorem llamaDecode_cases {cur : Nat} (some : 0 < cur) (more : i < tokens.length) (result : Int) (m : MemoryChat τ) :
    (m.llamaDecode size (chatBatch tokens startPos computeLastLogit i cur) result).1.chat.positions = m.chat.positions ∧
      (((m.llamaDecode size (chatBatch tokens startPos computeLastLogit i cur) result).2 = true ∧
          m.cache.Follows (startPos + i) ∧
          (m.llamaDecode size (chatBatch tokens startPos computeLastLogit i cur) result).1.cache.cells =
            m.cache.cells ++ (chatBatch tokens startPos computeLastLogit i cur).cells) ∨
        ((m.llamaDecode size (chatBatch tokens startPos computeLastLogit i cur) result).2 = false ∧
          (m.llamaDecode size (chatBatch tokens startPos computeLastLogit i cur) result).1.cache = m.cache)) := by
  refine ⟨rfl, ?_⟩
  rcases decode_cases (chatBatch_consecutive some more) m.cache result with filled | refused
  · left
    refine ⟨decide_eq_true filled.code, filled.follows, ?_⟩
    show (m.cache.decode _ result).1.cells = _
    rw [filled.same]
  · right
    exact ⟨decide_eq_false refused.code, refused.same⟩

theorem advanced_of_same {other : MemoryChat τ} (advanced : Advanced m startPos decoded start items tokens)
    (positions : other.chat.positions = m.chat.positions) (cache : other.cache = m.cache) :
    Advanced other startPos decoded start items tokens := by
  refine ⟨advanced.some, ?_, ?_, ?_⟩
  · rw [cache]
    exact advanced.last
  · rw [positions]
    exact advanced.behind
  · rw [positions, cache]
    exact advanced.exact

theorem inStep_of_same {other : MemoryChat τ} (inStep : InStep m start items)
    (positions : other.chat.positions = m.chat.positions) (cache : other.cache.cells = m.cache.cells) :
    InStep other start items where
  cells := by rw [cache, inStep.cells]
  current := by rw [positions, inStep.current]

theorem ahead_of_same {other : MemoryChat τ} (ahead : Ahead m) (positions : other.chat.positions = m.chat.positions)
    (cache : other.cache = m.cache) : Ahead other := by
  rw [Ahead, positions, cache]
  exact ahead

theorem decodeFrom_advanced (capacity : 0 < batchCapacity) (enough : tokens.length ≤ i + rounds)
    (advanced : Advanced m startPos (min i tokens.length) start items tokens) :
    ∃ decoded,
      Advanced (m.decodeFrom size tokens startPos computeLastLogit computes batchCapacity rounds i).1 startPos decoded
        start items tokens ∧
      ((m.decodeFrom size tokens startPos computeLastLogit computes batchCapacity rounds i).2 = true →
        decoded = tokens.length) := by
  induction rounds generalizing i m with
  | zero => exact ⟨_, advanced, fun _ => Nat.min_eq_right enough⟩
  | succ rounds ih =>
    rw [MemoryChat.decodeFrom]
    by_cases more : i < tokens.length
    · rw [if_pos more]
      rw [Nat.min_eq_left (Nat.le_of_lt more)] at advanced
      dsimp only
      generalize shiftedIs : (if maxBatchSize ≤ startPos + i + min (tokens.length - i) batchCapacity then m.shiftContext
        else m) = shifted
      have moved : Advanced shifted startPos i start items tokens := by
        rw [← shiftedIs]
        split
        · exact advanced.shift
        · exact advanced
      have positive : 0 < min (tokens.length - i) batchCapacity := by omega
      obtain ⟨positions, ⟨outcome, -, cells⟩ | ⟨outcome, cache⟩⟩ :=
        @llamaDecode_cases _ size startPos _ _ computeLastLogit _ positive more
          (computes i) shifted
      · simp only [outcome, Bool.not_true, Bool.false_eq_true, if_false]
        apply ih (by omega)
        have further := moved.fill positive more positions cells
        have count : i + min (min (tokens.length - i) batchCapacity) (tokens.length - i) =
            min (i + batchCapacity) tokens.length := by omega
        rwa [count] at further
      · simp only [outcome, Bool.not_false, if_true]
        exact ⟨i, advanced_of_same moved positions cache, fun wrong => absurd wrong Bool.false_ne_true⟩
    · rw [if_neg more]
      exact ⟨_, advanced, fun _ => Nat.min_eq_right (Nat.le_of_not_lt more)⟩

/-- What the first batch of a prompt leaves, when the shift before it has left the memory as it was or the position
    below it. -/
theorem advanced_first {shifted filled : MemoryChat τ} (capacity : 0 < batchCapacity) (some : tokens ≠ [])
    (inStep : InStep m start items) (low : shifted.chat.positions.current ≤ m.chat.positions.current)
    (still : shifted.chat.positions.current = m.chat.positions.current → shifted = m)
    (follows : shifted.cache.Follows m.chat.positions.current) (positions : filled.chat.positions = shifted.chat.positions)
    (cells : filled.cache.cells = shifted.cache.cells ++
      (chatBatch tokens m.chat.positions.current computeLastLogit 0 (min (tokens.length - 0) batchCapacity)).cells) :
    Advanced filled m.chat.positions.current (min (0 + batchCapacity) tokens.length) start items tokens := by
  have size_pos : 0 < tokens.length := List.length_pos_iff.mpr some
  have part : (tokens.drop 0).take (min (tokens.length - 0) batchCapacity) ≠ [] := by
    rw [← List.length_pos_iff, List.length_take, List.length_drop]
    omega
  have before : lastPlace shifted.cache.cells < m.chat.positions.current := by
    rcases follows with empty | next
    · rw [empty]
      exact Int.lt_of_lt_of_le (Int.negSucc_lt_zero 0) (Int.natCast_nonneg _)
    · rw [KvCache.seqPosMax] at next
      omega
  have whole : (tokens.drop 0).take (min (tokens.length - 0) batchCapacity) =
      tokens.take (min (0 + batchCapacity) tokens.length) := by
    rw [List.drop_zero, Nat.sub_zero, Nat.zero_add, Nat.min_comm]
  refine ⟨by omega, ?_, by rw [positions]; exact low, fun same => ?_⟩
  · rw [KvCache.seqPosMax, cells, chatBatch_cells, Nat.add_zero, lastPlace_append_zipIdx part before, whole,
      List.length_take]
    omega
  · rw [positions] at same
    refine ⟨inStep.current, ?_⟩
    rw [cells, still same, chatBatch_cells, whole, inStep.cells, inStep.current, Nat.add_zero, List.zipIdx_append]

theorem shifted_lower (shifts : Prop) [Decidable shifts] (m : MemoryChat τ) :
    (if shifts then m.shiftContext else m).chat.positions.current ≤ m.chat.positions.current ∧
      ((if shifts then m.shiftContext else m).chat.positions.current = m.chat.positions.current →
        (if shifts then m.shiftContext else m) = m) := by
  split
  · refine ⟨Nat.sub_le _ _, fun same => ?_⟩
    apply shiftContext_still
    by_contra large
    exact absurd same (Nat.ne_of_lt (shiftContext_below (by omega)))
  · exact ⟨Nat.le_refl _, fun _ => rfl⟩

/-- The first batch of a prompt is refused, or the memory holds a part of the prompt from then on. -/
theorem decodeFrom_inStep (capacity : 0 < batchCapacity) (some : tokens ≠ []) (enough : tokens.length ≤ rounds)
    (inStep : InStep m start items) :
    ((m.decodeFrom size tokens m.chat.positions.current computeLastLogit computes batchCapacity rounds 0).2 = false ∧
      ∃ start items,
        InStep (m.decodeFrom size tokens m.chat.positions.current computeLastLogit computes batchCapacity rounds 0).1
          start items) ∨
      ∃ decoded,
        Advanced (m.decodeFrom size tokens m.chat.positions.current computeLastLogit computes batchCapacity rounds 0).1
          m.chat.positions.current decoded start items tokens ∧
        ((m.decodeFrom size tokens m.chat.positions.current computeLastLogit computes batchCapacity rounds 0).2 = true →
          decoded = tokens.length) := by
  have size_pos : 0 < tokens.length := List.length_pos_iff.mpr some
  obtain ⟨rounds, rfl⟩ : ∃ fewer, rounds = fewer + 1 := ⟨rounds - 1, by omega⟩
  rw [MemoryChat.decodeFrom, if_pos size_pos]
  dsimp only
  generalize shiftedIs : (if maxBatchSize ≤ m.chat.positions.current + 0 + min (tokens.length - 0) batchCapacity then
    m.shiftContext else m) = shifted
  have positive : 0 < min (tokens.length - 0) batchCapacity := by omega
  have lower : shifted.chat.positions.current ≤ m.chat.positions.current ∧
      (shifted.chat.positions.current = m.chat.positions.current → shifted = m) := by
    rw [← shiftedIs]
    exact shifted_lower _ m
  have still : ∃ start items, InStep shifted start items := by
    rw [← shiftedIs]
    split
    · exact ⟨_, _, inStep_shift inStep⟩
    · exact ⟨_, _, inStep⟩
  obtain ⟨positions, ⟨outcome, follows, cells⟩ | ⟨outcome, cache⟩⟩ :=
    @llamaDecode_cases _ size m.chat.positions.current _ _ computeLastLogit _
      positive size_pos (computes 0) shifted
  · right
    simp only [outcome, Bool.not_true, Bool.false_eq_true, if_false]
    apply decodeFrom_advanced capacity (by omega)
    exact advanced_first capacity some inStep lower.1 lower.2 follows positions cells
  · left
    simp only [outcome, Bool.not_false, if_true, true_and]
    obtain ⟨start, items, inStep⟩ := still
    exact ⟨start, items, inStep_of_same inStep positions (congrArg KvCache.cells cache)⟩

theorem not_follows_of_ahead (ahead : Ahead m) : ¬ m.cache.Follows m.chat.positions.current := by
  obtain ⟨cell, member, behind⟩ := ahead
  have above := le_lastPlace member
  rintro (empty | next)
  · exact List.ne_nil_of_mem member empty
  · rw [KvCache.seqPosMax] at next
    omega

theorem decodeFrom_ahead (capacity : 0 < batchCapacity) (some : tokens ≠ []) (enough : tokens.length ≤ rounds)
    (ahead : Ahead m) :
    (m.decodeFrom size tokens m.chat.positions.current computeLastLogit computes batchCapacity rounds 0).2 = false ∧
      Ahead (m.decodeFrom size tokens m.chat.positions.current computeLastLogit computes batchCapacity rounds 0).1 := by
  have size_pos : 0 < tokens.length := List.length_pos_iff.mpr some
  obtain ⟨rounds, rfl⟩ : ∃ fewer, rounds = fewer + 1 := ⟨rounds - 1, by omega⟩
  rw [MemoryChat.decodeFrom, if_pos size_pos]
  dsimp only
  generalize shiftedIs : (if maxBatchSize ≤ m.chat.positions.current + 0 + min (tokens.length - 0) batchCapacity then
    m.shiftContext else m) = shifted
  have positive : 0 < min (tokens.length - 0) batchCapacity := by omega
  have filled : ∃ cell ∈ shifted.cache.cells, m.chat.positions.current ≤ cell.2 := by
    rw [← shiftedIs]
    split
    · obtain ⟨⟨item, place⟩, member, behind⟩ := ahead
      refine ⟨(item, place), ?_, behind⟩
      rw [shiftContext_cells]
      exact mem_pull_above (mem_vacate_above member (Nat.le_trans (nDiscard_le m) behind)) behind
    · exact ahead
  have still : Ahead shifted := by
    rw [← shiftedIs]
    split
    · exact ahead_shift ahead
    · exact ahead
  obtain ⟨positions, ⟨outcome, follows, cells⟩ | ⟨outcome, cache⟩⟩ :=
    @llamaDecode_cases _ size m.chat.positions.current _ _ computeLastLogit _
      positive size_pos (computes 0) shifted
  · obtain ⟨cell, member, behind⟩ := filled
    have above := le_lastPlace member
    rcases follows with empty | next
    · exact absurd empty (List.ne_nil_of_mem member)
    · rw [KvCache.seqPosMax] at next
      omega
  · simp only [outcome, Bool.not_false, if_true, true_and]
    exact ahead_of_same still positions cache

end Decode

end Engine
