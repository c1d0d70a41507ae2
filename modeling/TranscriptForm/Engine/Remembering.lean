import TranscriptForm.Engine.ContextWindow

-- What a chat remembers of what was said.
namespace Engine

open Numbering Transition

variable {τ : Type}

section Window

variable {vocab : Vocab τ} {m after : MemoryChat τ} {event : MemoryEvent τ} {size : Nat} {said : List τ × List τ}
  {recent : List τ}

/-- What was said since the chat was begun: the system prompt, and all that came after it. -/
def hear (said : List τ × List τ) (taken : MemoryChat τ × MemoryEvent τ) : List τ × List τ :=
  match taken.2 with
  | .processSystemPrompt systemTokens _ => if maxBatchSize < systemTokens.length then ([], []) else (systemTokens, [])
  | .processUserPrompt tokens _ _ => (said.1, said.2 ++ tokens.take maxBatchSize)
  | .generateNextToken newTokenId computes => (said.1, said.2 ++ if taken.1.puts newTokenId computes then [newTokenId] else [])
  | .prepare succeeds => if succeeds then ([], []) else said
  | .unload => ([], [])
  | .configureGeneration _ => said

def heard (history : List (MemoryChat τ × MemoryEvent τ)) : List τ × List τ := history.foldl hear ([], [])

/-- Every prompt can be computed, has its cells and stays within the context, and a context is made for a chat that is
    begun anew. The generation is free. -/
def Unhurried (m : MemoryChat τ) : MemoryEvent τ → Prop
  | .prepare succeeds => succeeds = true → m.chat.positions.current = 0
  | .processSystemPrompt systemTokens computes => (∀ i, computes i = 0) ∧ systemTokens.length ≤ m.cache.size
  | .processUserPrompt tokens _ computes => Computable m tokens computes ∧ ¬ Discards m tokens
  | _ => True

/-- The memory holds the system prompt and the end of what came after it, at the positions from zero on: all of it, or
    at least the half of what the context has room for. -/
structure Remembers (m : MemoryChat τ) (said : List τ × List τ) (recent : List τ) : Prop where
  inStep : InStep m 0 (said.1 ++ recent)
  systemPrompt : m.chat.positions.systemPrompt = said.1.length
  isSuffix : recent <:+ said.2
  enough : recent = said.2 ∨ maxBatchSize ≤ said.1.length + 2 * recent.length

theorem remembers_nothing (cells : m.cache.cells = []) (current : m.chat.positions.current = 0) :
    Remembers m ([], []) [] where
  inStep := ⟨cells, current⟩
  systemPrompt := Nat.le_zero.mp (Nat.le_trans m.chat.positions.ordered (Nat.le_of_eq current))
  isSuffix := List.suffix_rfl
  enough := .inl rfl

theorem remembers_of_same {other : MemoryChat τ} (remembers : Remembers m said recent)
    (positions : other.chat.positions = m.chat.positions) (cells : other.cache.cells = m.cache.cells) :
    Remembers other said recent where
  inStep := inStep_of_same remembers.inStep positions cells
  systemPrompt := by rw [positions, remembers.systemPrompt]
  isSuffix := remembers.isSuffix
  enough := remembers.enough

theorem generateNextToken_memoryContext {token : τ} {result : Int} :
    (m.generateNextToken vocab size token result).chat.context = m.chat.context := by
  unfold MemoryChat.generateNextToken
  dsimp only
  split <;> exact generateNextToken_context _ _ _ _

theorem puts_of_room {token : τ} {start : Nat} {items : List τ} (inStep : InStep m.makeRoom start items)
    (goesOn : (m.makeRoom.chat.positions.current : Int) < m.makeRoom.chat.stopGenerationPosition)
    (room : m.makeRoom.cache.cells.length < m.makeRoom.cache.size) : m.puts token 0 = true := by
  have decoded : (m.makeRoom.cache.decode [⟨token, m.makeRoom.chat.positions.current, true⟩] 0).2 = 0 := by
    rcases decode_cases (single_consecutive token m.makeRoom.chat.positions.current true) m.makeRoom.cache 0 with
      filled | refused
    · exact filled.code
    · rcases refused.why with wrong | full | failed
      · exact absurd inStep.follows wrong
      · rw [List.length_singleton] at full
        omega
      · exact absurd rfl failed
  unfold MemoryChat.puts
  rw [decoded]
  simp [goesOn]

theorem remembers_makeRoom (remembers : Remembers m said recent) : ∃ recent', Remembers m.makeRoom said recent' := by
  unfold MemoryChat.makeRoom
  split
  · rename_i full
    have current := remembers.inStep.current
    have shifted := inStep_shift remembers.inStep
    have from_zero : m.leavesFrom 0 = 0 := by
      rw [MemoryChat.leavesFrom, Nat.zero_min, Nat.zero_sub]
    have leaves : m.leaves 0 (said.1 ++ recent) = said.1 ++ recent.drop m.nDiscard := by
      rw [MemoryChat.leaves, Nat.sub_zero, Nat.sub_zero, remembers.systemPrompt, List.take_left, List.drop_length_add_append]
    have count : m.nDiscard = recent.length / 2 := by
      rw [MemoryChat.nDiscard, current, remembers.systemPrompt, List.length_append]
      omega
    rw [from_zero, leaves] at shifted
    rw [current, List.length_append] at full
    refine ⟨recent.drop m.nDiscard, shifted, remembers.systemPrompt, ?_, .inr ?_⟩
    · exact (List.drop_suffix _ _).trans remembers.isSuffix
    · rw [List.length_drop, count]
      omega
  · exact ⟨recent, remembers⟩

theorem remembers_add {tokens : List τ} (remembers : Remembers m said recent)
    (inStep : InStep after 0 ((said.1 ++ recent) ++ tokens))
    (systemPrompt : after.chat.positions.systemPrompt = m.chat.positions.systemPrompt) :
    Remembers after (said.1, said.2 ++ tokens) (recent ++ tokens) where
  inStep := by
    rw [List.append_assoc] at inStep
    exact inStep
  systemPrompt := systemPrompt.trans remembers.systemPrompt
  isSuffix := by
    obtain ⟨forgotten, whole⟩ := remembers.isSuffix
    exact ⟨forgotten, by rw [← whole, List.append_assoc]⟩
  enough := by
    rcases remembers.enough with all | half
    · exact .inl (by rw [all])
    · right
      rw [List.length_append]
      dsimp only
      omega

theorem remembers_generateNextToken {token : τ} {result : Int} (remembers : Remembers m said recent) :
    ∃ recent', Remembers (m.generateNextToken vocab size token result)
      (said.1, said.2 ++ if m.puts token result then [token] else []) recent' := by
  obtain ⟨kept, room⟩ := remembers_makeRoom remembers
  obtain ⟨inStep, systemPrompt⟩ := @generateNextToken_inStep _ _ size _ _ vocab token result room.inStep
  refine ⟨_, remembers_add room inStep (systemPrompt.trans ?_)⟩
  rw [makeRoom_chat]
  exact (sameText_makeRoom m.chat).systemPrompt.symm

theorem remembers_processSystemPrompt {systemTokens : List τ} {computes : Nat → Int} (computed : ∀ i, computes i = 0)
    (room : systemTokens.length ≤ m.cache.size) :
    ∃ recent', Remembers (m.processSystemPrompt size systemTokens computes)
      (if maxBatchSize < systemTokens.length then ([], []) else (systemTokens, [])) recent' := by
  let reset := m.resetLongTermStates.onChat AiChat.resetShortTermStates
  by_cases long : maxBatchSize < systemTokens.length
  · rw [if_pos long]
    unfold MemoryChat.processSystemPrompt
    rw [if_pos long]
    exact ⟨[], remembers_nothing rfl rfl⟩
  · rw [if_neg long]
    by_cases none : systemTokens = []
    · subst none
      exact ⟨[], remembers_nothing rfl rfl⟩
    · have fresh : InStep reset 0 [] := ⟨rfl, rfl⟩
      have still : ¬ ShiftsFirst reset systemTokens (max 1 reset.chat.runtimeBatchCapacity) :=
        fun shifts => absurd shifts.2 (Nat.not_succ_le_zero _)
      have fits : reset.cache.cells.length + systemTokens.length ≤ reset.cache.size := by
        show 0 + systemTokens.length ≤ m.cache.size
        rwa [Nat.zero_add]
      have accepts := @decodeFrom_accepts _ _ size _ _ _ _ _ false _ (batchCapacity_pos reset) none
        (Nat.le_refl _) fresh computed fits (.inr still)
      obtain ⟨inStep, systemPrompt⟩ := processSystemPrompt_decoded none long accepts
      refine ⟨[], ?_, systemPrompt, List.suffix_rfl, .inl rfl⟩
      rwa [List.append_nil]

theorem remembers_processUserPrompt {tokens : List τ} {nPredict : Int} {computes : Nat → Int}
    (remembers : Remembers m said recent) (computable : Computable m tokens computes) (stays : ¬ Discards m tokens) :
    ∃ recent', Remembers (m.processUserPrompt size tokens nPredict computes)
      (said.1, said.2 ++ tokens.take maxBatchSize) recent' := by
  by_cases none : tokens = []
  · subst none
    rw [List.take_nil, List.append_nil]
    exact ⟨recent, remembers_of_same remembers rfl rfl⟩
  · obtain ⟨-, inStep⟩ := @processUserPrompt_taken _ _ size _ _ _ nPredict _ none remembers.inStep computable stays
    exact ⟨_, remembers_add remembers inStep processUserPrompt_systemPrompt⟩

theorem remembers_step (remembers : Remembers m said recent) (unhurried : Unhurried m event)
    (taken : m.step vocab event = some after) : ∃ recent', Remembers after (hear said (m, event)) recent' := by
  cases event with
  | configureGeneration nCtx =>
    cases taken
    exact ⟨recent, remembers_of_same remembers rfl rfl⟩
  | prepare succeeds =>
    cases taken
    cases succeeds with
    | false => exact ⟨recent, remembers_of_same remembers rfl rfl⟩
    | true => exact ⟨[], remembers_nothing rfl (unhurried rfl)⟩
  | processSystemPrompt systemTokens computes =>
    obtain ⟨size, context, rfl⟩ := Option.map_eq_some_iff.mp taken
    exact remembers_processSystemPrompt unhurried.1 unhurried.2
  | processUserPrompt tokens nPredict computes =>
    obtain ⟨size, context, rfl⟩ := Option.map_eq_some_iff.mp taken
    exact remembers_processUserPrompt remembers unhurried.1 unhurried.2
  | generateNextToken newTokenId computes =>
    obtain ⟨size, context, rfl⟩ := Option.map_eq_some_iff.mp taken
    exact remembers_generateNextToken remembers
  | unload =>
    obtain ⟨size, context, rfl⟩ := Option.map_eq_some_iff.mp taken
    exact ⟨[], remembers_nothing rfl rfl⟩

theorem memory_remembers {history : List (MemoryChat τ × MemoryEvent τ)} {final : MemoryChat τ}
    (run : MemoryRun vocab history final) (unhurried : Guarded Unhurried history) :
    ∃ recent, Remembers final (heard history) recent := by
  induction run with
  | start => exact ⟨[], remembers_nothing rfl rfl⟩
  | next prior taken ih =>
    obtain ⟨recent, remembers⟩ := ih unhurried.earlier
    obtain ⟨later, further⟩ := remembers_step remembers unhurried.last taken
    refine ⟨later, ?_⟩
    rw [heard, List.foldl_append]
    exact further

def endless : List (MemoryChat Unit × MemoryEvent Unit) :=
  dialogue.take 2 ++
    ([(briefed, .processUserPrompt (List.replicate 8185 ()) 5 fun _ => 0)] : List (MemoryChat Unit × MemoryEvent Unit)) ++
    ([(crowded 8185, .generateNextToken () 0)] : List (MemoryChat Unit × MemoryEvent Unit)) ++
    ([((crowded 8185).generateNextToken chatVocab 8192 () 0, .generateNextToken () 0)] :
      List (MemoryChat Unit × MemoryEvent Unit))

def endlessly : MemoryChat Unit :=
  ((crowded 8185).generateNextToken chatVocab 8192 () 0).generateNextToken chatVocab 8192 () 0

theorem memoryRun_endless : MemoryRun chatVocab endless endlessly := by
  have is := crowded_is (by decide : 0 < 8185) (by decide)
  have prompted : MemoryRun chatVocab _ (crowded 8185) := memoryRun_briefed.next
    (show MemoryChat.step chatVocab briefed (.processUserPrompt (List.replicate 8185 ()) 5 fun _ => 0) = _ from rfl)
  have first : MemoryChat.step chatVocab (crowded 8185) (.generateNextToken () 0) =
      some ((crowded 8185).generateNextToken chatVocab 8192 () 0) := by
    rw [MemoryChat.step, is.context, Option.map_some]
  have second : MemoryChat.step chatVocab ((crowded 8185).generateNextToken chatVocab 8192 () 0) (.generateNextToken () 0) =
      some endlessly := by
    rw [MemoryChat.step, generateNextToken_memoryContext, is.context, Option.map_some]
    rfl
  exact (prompted.next first).next second

theorem endlessly_shifted : endlessly.chat.positions.current ≤ 4096 := by
  have is := crowded_is (by decide : 0 < 8185) (by decide)
  have current : (crowded 8185).chat.positions.current = 8187 := by
    rw [is.inStep.current, List.length_replicate]
  have still : (crowded 8185).makeRoom = crowded 8185 := by
    unfold MemoryChat.makeRoom
    rw [current, if_neg (by decide)]
  have put : (crowded 8185).puts () 0 = true := by
    apply puts_of_room
    · rw [still]
      exact is.inStep
    · rw [still, current, is.stop]
      decide
    · rw [still, is.inStep.cells, is.size, List.length_zipIdx, List.length_replicate]
      decide
  obtain ⟨first, systemPrompt⟩ := @generateNextToken_inStep _ (crowded 8185) 8192 0 (List.replicate 8187 ()) chatVocab () 0
    (by rw [still]; exact is.inStep)
  rw [put, if_pos rfl] at first
  rw [is.systemPrompt] at systemPrompt
  unfold endlessly
  generalize (crowded 8185).generateNextToken chatVocab 8192 () 0 = full at first systemPrompt ⊢
  have atEnd : full.chat.positions.current = 8188 := by
    rw [first.current, List.length_append, List.length_replicate]
    rfl
  have shifts : full.makeRoom = full.shiftContext := by
    unfold MemoryChat.makeRoom
    rw [atEnd, if_pos (by decide)]
  have shifted : full.makeRoom.chat.positions.current = 4095 := by
    rw [shifts, shiftContext_current, MemoryChat.nDiscard, atEnd, systemPrompt]
  obtain ⟨start, items, room⟩ := inStep_makeRoom first
  have second := (@generateNextToken_inStep _ _ 8192 _ _ chatVocab () 0 room).1.current
  have size := room.current
  rw [shifted] at size
  rw [second, List.length_append]
  split <;> simp only [List.length_singleton, List.length_nil] <;> omega

theorem memory_remembers_endless : ∃ recent, Remembers endlessly (heard endless) recent ∧
    recent.length < (heard endless).2.length := by
  have guarded : Guarded Unhurried endless := by
    simp only [Guarded, endless, dialogue, List.take, List.cons_append, List.nil_append, List.forall_mem_cons]
    exact ⟨fun _ => rfl, ⟨fun _ => rfl, by decide +kernel⟩,
      ⟨computable_briefed (by decide), stays_briefed (by decide)⟩, trivial, trivial, by simp⟩
  obtain ⟨recent, remembers⟩ := memory_remembers memoryRun_endless guarded
  refine ⟨recent, remembers, ?_⟩
  have kept := remembers.inStep.current
  have shifted := endlessly_shifted
  have said : 8185 ≤ (heard endless).2.length := by
    change 8185 ≤ ((([] ++ (List.replicate 8185 ()).take maxBatchSize) ++ _) ++ _).length
    have few : min maxBatchSize 8185 = 8185 := by decide
    simp only [List.nil_append, List.length_append, List.length_take, List.length_replicate, few]
    omega
  rw [List.length_append] at kept
  omega

end Window

end Engine
