import TranscriptForm.Engine.Batch

namespace Engine

open Kotlin Handles Transition

namespace Native

def AllLive (g : Native) : Prop :=
  (∀ pointer ∈ [g.model, g.context, g.chatTemplates, g.sampler] ++ g.batch.pointers,
    ∃ handle ∈ g.heap.live, pointer = some handle) ∧ g.batchInitialized = true

def NoneLive (g : Native) : Prop :=
  g.heap.live = [] ∧ [g.model, g.context, g.chatTemplates, g.sampler] = [none, none, none, none] ∧
    g.batchInitialized = false

def batchOwned (initialized : Bool) (batch : LlamaBatch) : List Nat := if initialized then batch.freed else []

def owned (g : Native) : List Nat :=
  batchOwned g.batchInitialized g.batch ++ g.sampler.toList ++ g.chatTemplates.toList ++ g.context.toList ++
    g.model.toList

/-- What is live is what the globals hold, and a batch that is not theirs any more is dead. -/
structure Owns (g : Native) : Prop where
  heap : g.heap.Holds g.owned
  arrays : ∀ handle ∈ g.batch.arrays, handle < g.heap.next ∧
    (handle ∈ g.heap.live → handle ∈ batchOwned g.batchInitialized g.batch)

structure Unloaded (g : Native) : Prop extends g.Owns where
  model : g.model = none
  context : g.context = none
  chatTemplates : g.chatTemplates = none
  sampler : g.sampler = none
  batchInitialized : g.batchInitialized = false

structure Loaded (g : Native) : Prop extends g.Owns where
  model : g.model.isSome = true
  context : g.context.isSome = true
  chatTemplates : g.chatTemplates.isSome = true
  sampler : g.sampler.isSome = true
  batchInitialized : g.batchInitialized = true
  batch : ∀ pointer ∈ g.batch.pointers, pointer.isSome = true
  room : g.batch.seqIds ≠ []

variable {g : Native}

theorem Unloaded.noneLive (unloaded : g.Unloaded) : g.NoneLive := by
  refine ⟨?_, ?_, unloaded.batchInitialized⟩
  · have held := unloaded.heap.live
    simpa [owned, batchOwned, unloaded.model, unloaded.context, unloaded.chatTemplates, unloaded.sampler,
      unloaded.batchInitialized] using held
  · rw [unloaded.model, unloaded.context, unloaded.chatTemplates, unloaded.sampler]

theorem Loaded.live (loaded : g.Loaded) {pointer : Option Nat}
    (member : pointer ∈ [g.model, g.context, g.chatTemplates, g.sampler] ++ g.batch.pointers) :
    ∃ handle ∈ g.heap.live, pointer = some handle := by
  have present : pointer.isSome = true := by
    simp only [List.mem_append, List.mem_cons, List.not_mem_nil, or_false] at member
    rcases member with (rfl | rfl | rfl | rfl) | member
    · exact loaded.model
    · exact loaded.context
    · exact loaded.chatTemplates
    · exact loaded.sampler
    · exact loaded.batch pointer member
  obtain ⟨handle, rfl⟩ := Option.isSome_iff_exists.mp present
  refine ⟨handle, loaded.heap.mem_live.mpr ?_, rfl⟩
  simp only [owned, batchOwned, loaded.batchInitialized, if_true, freed_of_complete loaded.batch, LlamaBatch.arrays,
    List.mem_append, List.mem_filterMap, id, exists_eq_right, Option.mem_toList]
  simp only [List.mem_append, List.mem_cons, List.not_mem_nil, or_false] at member
  rcases member with (same | same | same | same) | member
  · exact Or.inr same.symm
  · exact Or.inl (Or.inr same.symm)
  · exact Or.inl (Or.inl (Or.inr same.symm))
  · exact Or.inl (Or.inl (Or.inl (Or.inr same.symm)))
  · exact Or.inl (Or.inl (Or.inl (Or.inl member)))

theorem Loaded.allLive (loaded : g.Loaded) : g.AllLive :=
  ⟨fun _ member => loaded.live member, loaded.batchInitialized⟩

theorem Unloaded.passesGuard (unloaded : g.Unloaded) : g.passesGuard = false := by
  simp [Native.passesGuard, unloaded.model]

theorem Loaded.passesGuard (loaded : g.Loaded) : g.passesGuard = true := by
  simp [Native.passesGuard, loaded.model, loaded.context, loaded.sampler]

theorem Loaded.touch (loaded : g.Loaded) {pointer : Option Nat}
    (member : pointer ∈ [g.model, g.context, g.chatTemplates, g.sampler] ++ g.batch.pointers) :
    Native.touch pointer g = some g := by
  obtain ⟨handle, live, rfl⟩ := loaded.live member
  have used := loaded.heap.use (loaded.heap.mem_live.mp live)
  simp only [Native.touch, Option.map_some, used]

theorem Loaded.touchModel (loaded : g.Loaded) : Native.touch g.model g = some g := loaded.touch (by simp)

theorem Loaded.touchContext (loaded : g.Loaded) : Native.touch g.context g = some g := loaded.touch (by simp)

theorem Loaded.touchChatTemplates (loaded : g.Loaded) : Native.touch g.chatTemplates g = some g :=
  loaded.touch (by simp)

theorem Loaded.touchSampler (loaded : g.Loaded) : Native.touch g.sampler g = some g := loaded.touch (by simp)

theorem Loaded.commonBatchAdd (loaded : g.Loaded) : Native.commonBatchAdd g = some g := by
  have first : g.batch.seqIds.head?.getD none ∈ g.batch.pointers := by
    obtain ⟨head, tail, same⟩ := List.exists_cons_of_ne_nil loaded.room
    simp [LlamaBatch.pointers, same]
  have all : ∀ pointer ∈ g.batch.pointers, Native.touch pointer g = some g := fun pointer member =>
    loaded.touch (List.mem_append_right _ member)
  have seqId := all g.batch.seqId (by simp [LlamaBatch.pointers])
  have token := all g.batch.token (by simp [LlamaBatch.pointers])
  have pos := all g.batch.pos (by simp [LlamaBatch.pointers])
  have nSeqId := all g.batch.nSeqId (by simp [LlamaBatch.pointers])
  have logits := all g.batch.logits (by simp [LlamaBatch.pointers])
  simp only [Native.commonBatchAdd, all _ first, seqId, token, pos, nSeqId, logits, Option.bind_eq_bind, Option.bind_some]

theorem Loaded.decodeToken (loaded : g.Loaded) : Native.decodeToken g = some g := by
  simp only [Native.decodeToken, loaded.commonBatchAdd, loaded.touchContext, Option.bind_eq_bind, Option.bind_some]

theorem Loaded.sampleToken (loaded : g.Loaded) : Native.sampleToken g = some g := by
  simp only [Native.sampleToken, loaded.touchSampler, loaded.touchContext, loaded.touchModel, Option.bind_eq_bind,
    Option.bind_some]

theorem Loaded.generationStep (loaded : g.Loaded) : Native.generationStep g = some g := by
  simp only [Native.generationStep, loaded.sampleToken, loaded.decodeToken, Option.bind_eq_bind, Option.bind_some]

theorem repeated_unchanged {action : Native → Option Native} (unchanged : action g = some g) (n : Nat) :
    repeated action n g = some g := by
  induction n with
  | zero => rfl
  | succ n ih => simp only [repeated, unchanged, ih, Option.bind_eq_bind, Option.bind_some]

theorem Loaded.formatPrompt (loaded : g.Loaded) (call : InferCall) : Native.formatPrompt call g = some g := by
  simp only [Native.formatPrompt, loaded.touchContext, loaded.touchChatTemplates, ite_self, Option.bind_eq_bind,
    Option.bind_some]

/-- The texts in which `nativeInfer` reports an inference it gave up, a missing model apart. -/
def inferErrors : List KString :=
  ["cancelled", "timeout", "tokenization failed", "prompt too large", "batch not initialized", "prefill decode failed",
    "token decode failed"].map directError

/-- The text is an error's or what the generation came to. -/
def Reports (call : InferCall) (text : KString) : Prop :=
  text ∈ inferErrors ∨ ∃ steps sampled, call.stop = .finished steps sampled text

theorem Interruption.text_mem (interruption : Interruption) : interruption.text ∈ inferErrors := by
  cases interruption with
  | cancelled => simp [inferErrors, Interruption.text]
  | timeout => simp [inferErrors, Interruption.text]

theorem reports_error {call : InferCall} {result : Option (Native × KString)} (reason : String)
    (returned : result = some (g, directError reason)) (member : directError reason ∈ inferErrors) :
    ∃ text, result = some (g, text) ∧ Reports call text := ⟨_, returned, Or.inl member⟩

theorem reports_interruption {call : InferCall} {result : Option (Native × KString)} (interruption : Interruption)
    (returned : result = some (g, interruption.text)) : ∃ text, result = some (g, text) ∧ Reports call text :=
  ⟨_, returned, Or.inl (Interruption.text_mem interruption)⟩

theorem Loaded.generate (loaded : g.Loaded) (call : InferCall) :
    ∃ text, Native.generate call g = some (g, text) ∧ Reports call text := by
  have decoded := repeated_unchanged loaded.decodeToken
  have generated := repeated_unchanged loaded.generationStep
  unfold Native.generate
  cases stop : call.stop with
  | finished steps sampled output =>
    refine ⟨output, ?_, Or.inr ⟨steps, sampled, stop⟩⟩
    simp only [decoded, generated, loaded.sampleToken, ite_self, Option.bind_eq_bind, Option.bind_some, Option.pure_def]
  | prefillDecodeFailed steps =>
    apply reports_error "prefill decode failed"
    · simp only [decoded, Option.bind_eq_bind, Option.bind_some, Option.pure_def]
    · simp [inferErrors]
  | afterDecode steps =>
    apply reports_error "timeout"
    · simp only [decoded, Option.bind_eq_bind, Option.bind_some, Option.pure_def]
    · simp [inferErrors]
  | tokenDecodeFailed steps =>
    apply reports_error "token decode failed"
    · simp only [decoded, generated, Option.bind_eq_bind, Option.bind_some, Option.pure_def]
    · simp [inferErrors]
  | beforeDecode steps interruption =>
    apply reports_interruption interruption
    simp only [decoded, Option.bind_eq_bind, Option.bind_some, Option.pure_def]
  | beforeSample steps interruption =>
    apply reports_interruption interruption
    simp only [decoded, generated, Option.bind_eq_bind, Option.bind_some, Option.pure_def]
  | beforeReset interruption => exact reports_interruption interruption rfl
  | beforeTokenize interruption => exact reports_interruption interruption rfl

theorem Loaded.infer (loaded : g.Loaded) (call : InferCall) :
    ∃ text, nativeInfer call g = some (g, text) ∧ Reports call text := by
  simp only [nativeInfer, loaded.passesGuard, loaded.formatPrompt, loaded.touchContext, loaded.touchSampler,
    loaded.batchInitialized, Bool.not_true, Bool.false_eq_true, if_false, Option.bind_eq_bind, Option.bind_some,
    Option.pure_def]
  split
  · exact reports_interruption _ rfl
  · split
    · exact reports_interruption _ rfl
    · split
      · exact reports_error "tokenization failed" rfl (by simp [inferErrors])
      · split
        · exact reports_error "prompt too large" rfl (by simp [inferErrors])
        · exact loaded.generate call

theorem Owns.released {after : Native} (owns : g.Owns) (earlier handles later : List Nat)
    (held : g.owned = earlier ++ handles ++ later) (left : after.owned = earlier ++ later)
    (heap : after.heap = g.heap.releaseAll handles) (batch : after.batch = g.batch)
    (kept : ∀ handle ∈ batchOwned g.batchInitialized g.batch, handle ∉ handles →
      handle ∈ batchOwned after.batchInitialized g.batch) : after.Owns := by
  have holds : g.heap.Holds (handles ++ (earlier ++ later)) := by
    apply owns.heap.perm
    rw [held, ← List.append_assoc]
    exact List.perm_append_comm.append_right later
  refine ⟨?_, ?_⟩
  · rw [heap, left]
    exact holds.releaseAll
  · rw [heap, batch, Heap.releaseAll_next]
    intro handle member
    refine ⟨(owns.arrays handle member).1, ?_⟩
    intro live
    obtain ⟨before, other⟩ := holds.live_of_releaseAll live
    exact kept handle ((owns.arrays handle member).2 before) other

theorem Owns.freeSampler (owns : g.Owns) : g.freeSampler.Owns := by
  apply owns.released (batchOwned g.batchInitialized g.batch) g.sampler.toList
    (g.chatTemplates.toList ++ g.context.toList ++ g.model.toList)
  · simp only [owned, List.append_assoc]
  · simp [owned, Native.freeSampler]
  · rfl
  · rfl
  · exact fun _ member _ => member

theorem Owns.resetChatTemplates (owns : g.Owns) : g.resetChatTemplates.Owns := by
  apply owns.released (batchOwned g.batchInitialized g.batch ++ g.sampler.toList) g.chatTemplates.toList
    (g.context.toList ++ g.model.toList)
  · simp only [owned, List.append_assoc]
  · simp [owned, Native.resetChatTemplates]
  · rfl
  · rfl
  · exact fun _ member _ => member

theorem Owns.freeContext (owns : g.Owns) : g.freeContext.Owns := by
  apply owns.released (batchOwned g.batchInitialized g.batch ++ g.sampler.toList ++ g.chatTemplates.toList)
    g.context.toList g.model.toList
  · simp only [owned]
  · simp [owned, Native.freeContext]
  · rfl
  · rfl
  · exact fun _ member _ => member

theorem Owns.freeModel (owns : g.Owns) : g.freeModel.Owns := by
  apply owns.released
    (batchOwned g.batchInitialized g.batch ++ g.sampler.toList ++ g.chatTemplates.toList ++ g.context.toList)
    g.model.toList []
  · simp only [owned, List.append_nil]
  · simp [owned, Native.freeModel]
  · rfl
  · rfl
  · exact fun _ member _ => member

theorem Owns.freeBatch (owns : g.Owns) : g.freeBatch.Owns := by
  apply owns.released [] (batchOwned g.batchInitialized g.batch)
    (g.sampler.toList ++ g.chatTemplates.toList ++ g.context.toList ++ g.model.toList)
  · simp only [owned, List.append_assoc, List.nil_append]
  · simp [owned, batchOwned, Native.freeBatch]
  · cases initialized : g.batchInitialized with
    | true => simp [Native.freeBatch, batchOwned, initialized]
    | false => simp [Native.freeBatch, batchOwned, initialized, Heap.releaseAll]
  · rfl
  · exact fun _ member other => absurd member other

theorem Owns.tearDown (owns : g.Owns) : (tearDown g).Unloaded :=
  ⟨owns.freeSampler.freeBatch.freeContext.resetChatTemplates.freeModel, rfl, rfl, rfl, rfl, rfl⟩

theorem Owns.unload (owns : g.Owns) : (nativeUnload g).Unloaded :=
  ⟨owns.freeBatch.freeSampler.resetChatTemplates.freeContext.freeModel, rfl, rfl, rfl, rfl, rfl⟩

theorem Owns.assigned {after : Native} (owns : g.Owns) (succeeds : Bool) (earlier later : List Nat)
    (held : g.owned = earlier ++ later) (now : after.owned = earlier ++ (g.heap.tryAlloc succeeds).2.toList ++ later)
    (heap : after.heap = (g.heap.tryAlloc succeeds).1) (batch : after.batch = g.batch)
    (initialized : after.batchInitialized = g.batchInitialized) : after.Owns := by
  have before := owns.heap
  rw [held] at before
  cases succeeds with
  | false =>
    refine ⟨?_, ?_⟩
    · rw [now, heap, List.append_assoc]
      exact before
    · rw [heap, batch, initialized]
      exact owns.arrays
  | true =>
    refine ⟨?_, ?_⟩
    · rw [now, heap, List.append_assoc]
      exact before.insert
    · rw [heap, batch, initialized]
      intro handle member
      obtain ⟨below, own⟩ := owns.arrays handle member
      refine ⟨Nat.lt_succ_of_lt below, ?_⟩
      intro live
      rcases List.mem_cons.mp live with new | live
      · rw [new] at below
        exact absurd below (Nat.lt_irrefl _)
      · exact own live

theorem Owns.loadModel (owns : g.Owns) (null : g.model = none) (succeeds : Bool) :
    (g.loadModel succeeds).Owns := by
  apply owns.assigned succeeds
    (batchOwned g.batchInitialized g.batch ++ g.sampler.toList ++ g.chatTemplates.toList ++ g.context.toList) []
  · simp [owned, null]
  · simp [owned, Native.loadModel]
  · simp [Native.loadModel, null, Heap.overwrite]
  · rfl
  · rfl

theorem Owns.initContext (owns : g.Owns) (null : g.context = none) (succeeds : Bool) :
    (g.initContext succeeds).Owns := by
  apply owns.assigned succeeds
    (batchOwned g.batchInitialized g.batch ++ g.sampler.toList ++ g.chatTemplates.toList) g.model.toList
  · simp [owned, null]
  · simp [owned, Native.initContext]
  · simp [Native.initContext, null, Heap.overwrite]
  · rfl
  · rfl

theorem Owns.initChatTemplates (owns : g.Owns) (null : g.chatTemplates = none) (succeeds : Bool) :
    (g.initChatTemplates succeeds).Owns := by
  apply owns.assigned succeeds (batchOwned g.batchInitialized g.batch ++ g.sampler.toList)
    (g.context.toList ++ g.model.toList)
  · simp [owned, null]
  · simp [owned, Native.initChatTemplates]
  · simp [Native.initChatTemplates, null, Heap.overwrite]
  · rfl
  · rfl

theorem Owns.initSampler (owns : g.Owns) (null : g.sampler = none) (succeeds : Bool) :
    (g.initSampler succeeds).Owns := by
  apply owns.assigned succeeds (batchOwned g.batchInitialized g.batch)
    (g.chatTemplates.toList ++ g.context.toList ++ g.model.toList)
  · simp [owned, null]
  · simp [owned, Native.initSampler]
  · simp [Native.initSampler, null, Heap.overwrite]
  · rfl
  · rfl

theorem Owns.touchModel (owns : g.Owns) (present : g.model.isSome = true) : Native.touch g.model g = some g := by
  obtain ⟨handle, same⟩ := Option.isSome_iff_exists.mp present
  have held : handle ∈ g.owned := by simp [owned, same]
  have used := owns.heap.use held
  rw [same]
  simp only [Native.touch, Option.map_some, used]

/-- With everything but the batch in place. -/
structure Ready (g : Native) : Prop extends g.Owns where
  model : g.model.isSome = true
  context : g.context.isSome = true
  chatTemplates : g.chatTemplates.isSome = true
  sampler : g.sampler.isSome = true
  batchInitialized : g.batchInitialized = false

theorem directMobileBatch_pos (runtimeNCtx : Nat) : 0 < directMobileBatch runtimeNCtx := by
  unfold directMobileBatch
  omega

theorem Ready.initBatch (ready : g.Ready) {mallocs : BatchMallocs}
    (succeed : mallocs.Succeed (directMobileBatch g.runtimeNCtx)) :
    ∃ after, g.initBatch mallocs = some after ∧ after.Loaded := by
  obtain ⟨made, arrays, returned, pointers, holds⟩ := llamaBatchInit_holds succeed ready.heap
  have complete := (llamaBatchInit_complete_iff returned).mpr succeed
  have all : made.2.arrays = arrays := by
    rw [LlamaBatch.arrays, pointers]
    simp
  have freed : made.2.freed = arrays := (freed_of_complete complete).trans all
  have dead : made.1.overwriteAll g.batch.arrays = made.1 := by
    apply Heap.overwriteAll_dead
    intro handle member
    obtain ⟨below, own⟩ := ready.arrays handle member
    rw [ready.batchInitialized] at own
    exact llamaBatchInit_dead returned ⟨below, fun live => absurd (own live) (by simp [batchOwned])⟩
  have others : g.owned = g.sampler.toList ++ g.chatTemplates.toList ++ g.context.toList ++ g.model.toList := by
    simp [owned, batchOwned, ready.batchInitialized]
  let after : Native := { g with
    heap := made.1.overwriteAll g.batch.arrays
    batch := made.2
    batchInitialized := true
    directBatchCapacity := directMobileBatch g.runtimeNCtx }
  have made_eq : g.initBatch mallocs = some after := by
    simp only [Native.initBatch, returned, Option.map_some, after]
  refine ⟨after, made_eq, ⟨⟨?_, ?_⟩, ready.model, ready.context, ready.chatTemplates, ready.sampler, rfl, complete, ?_⟩⟩
  · have now : after.owned = arrays ++ g.owned := by
      rw [others, ← freed]
      simp [owned, batchOwned, after]
    rw [now]
    show (made.1.overwriteAll g.batch.arrays).Holds (arrays ++ g.owned)
    rw [dead]
    exact holds
  · intro handle member
    have own : handle ∈ arrays := by
      rw [← all]
      exact member
    show handle < (made.1.overwriteAll g.batch.arrays).next ∧ _
    rw [dead]
    refine ⟨holds.bounded handle (List.mem_append_left _ own), fun _ => ?_⟩
    show handle ∈ made.2.freed
    rw [freed]
    exact own
  · have room := (llamaBatchInit_cases returned).2.1
    have positive := directMobileBatch_pos g.runtimeNCtx
    rw [← room] at positive
    exact List.ne_nil_of_length_pos positive

theorem initBatch_incomplete {mallocs : BatchMallocs} {after : Native}
    (failed : ¬ mallocs.Succeed (directMobileBatch g.runtimeNCtx)) (returned : g.initBatch mallocs = some after) :
    ¬ after.AllLive := by
  obtain ⟨made, init, rfl⟩ := Option.map_eq_some_iff.mp returned
  intro all
  apply failed
  apply (llamaBatchInit_complete_iff init).mp
  intro pointer member
  obtain ⟨handle, _, same⟩ := all.1 pointer (List.mem_append_right _ member)
  rw [same]
  rfl

end Native

open Native

def LoadAllocations.reachBatch (allocations : LoadAllocations) : Bool :=
  allocations.model && allocations.context && allocations.chatTemplates && allocations.sampler

def loadNCtx (nCtx : Int) : Nat := (max 128 nCtx).toNat

/-- A load ends with nothing before the batch, or as the batch makes it. -/
theorem nativeLoadModel_cases {g : Native} (owns : g.Owns) (nCtx : Int) (allocations : LoadAllocations) :
    (allocations.reachBatch = false ∧ ∃ after code, nativeLoadModel nCtx allocations g = some (after, code) ∧
      code ≠ 0 ∧ after.Unloaded) ∨
    (allocations.reachBatch = true ∧ ∃ ready : Native, ready.Ready ∧ ready.runtimeNCtx = loadNCtx nCtx ∧
      nativeLoadModel nCtx allocations g = (ready.initBatch allocations.batch).map fun after => (after, 0)) := by
  have configured : ({ g with runtimeNCtx := loadNCtx nCtx } : Native).Owns := ⟨owns.heap, owns.arrays⟩
  have unloaded := configured.tearDown
  have nCtxKept : (tearDown { g with runtimeNCtx := loadNCtx nCtx }).runtimeNCtx = loadNCtx nCtx := rfl
  unfold nativeLoadModel
  change _ ∨ _
  simp only [← loadNCtx.eq_1]
  generalize tearDown { g with runtimeNCtx := loadNCtx nCtx } = empty at unloaded nCtxKept ⊢
  obtain ⟨model, context, chatTemplates, sampler, batch⟩ := allocations
  cases model with
  | false =>
    left
    exact ⟨rfl, empty.loadModel false, 1, rfl, by decide, unloaded.loadModel unloaded.model false, rfl,
      unloaded.context, unloaded.chatTemplates, unloaded.sampler, unloaded.batchInitialized⟩
  | true =>
    have modelOwns := unloaded.loadModel unloaded.model true
    have modelPresent : (empty.loadModel true).model.isNone = false := rfl
    have modelUsed := modelOwns.touchModel rfl
    cases context with
    | false =>
      left
      have absent : ((empty.loadModel true).initContext false).context.isNone = true := rfl
      refine ⟨rfl, ((empty.loadModel true).initContext false).freeModel, 2, ?_, by decide,
        (modelOwns.initContext unloaded.context false).freeModel, rfl, rfl, unloaded.chatTemplates,
        unloaded.sampler, unloaded.batchInitialized⟩
      simp only [modelPresent, modelUsed, absent, Option.bind_eq_bind, Option.bind_some, Option.pure_def,
        Bool.false_eq_true, if_false, if_true]
    | true =>
      have contextOwns := modelOwns.initContext unloaded.context true
      have contextPresent : ((empty.loadModel true).initContext true).context.isNone = false := rfl
      have contextUsed := contextOwns.touchModel rfl
      cases chatTemplates with
      | false =>
        left
        have absent :
            (((empty.loadModel true).initContext true).initChatTemplates false).chatTemplates.isNone = true := rfl
        refine ⟨rfl, (((empty.loadModel true).initContext true).initChatTemplates false).freeContext.freeModel, 3, ?_,
          by decide, (contextOwns.initChatTemplates unloaded.chatTemplates false).freeContext.freeModel, rfl, rfl,
          rfl, unloaded.sampler, unloaded.batchInitialized⟩
        simp only [modelPresent, modelUsed, contextPresent, contextUsed, absent, Option.bind_eq_bind,
          Option.bind_some, Option.pure_def, Bool.false_eq_true, if_false, if_true]
      | true =>
        have templatesOwns := contextOwns.initChatTemplates unloaded.chatTemplates true
        have templatesPresent :
            (((empty.loadModel true).initContext true).initChatTemplates true).chatTemplates.isNone = false := rfl
        have templatesUsed := templatesOwns.touchModel rfl
        have samplerOwns := templatesOwns.initSampler unloaded.sampler sampler
        cases sampler with
        | false =>
          left
          have absent : ((((empty.loadModel true).initContext true).initChatTemplates true).initSampler
              false).sampler.isNone = true := rfl
          refine ⟨rfl, _, 4, ?_, by decide, samplerOwns.resetChatTemplates.freeContext.freeModel, rfl, rfl, rfl, rfl,
            unloaded.batchInitialized⟩
          simp only [modelPresent, modelUsed, contextPresent, contextUsed, templatesPresent, templatesUsed, absent,
            Option.bind_eq_bind, Option.bind_some, Option.pure_def, Bool.false_eq_true, if_false, if_true]
        | true =>
          right
          have samplerPresent : ((((empty.loadModel true).initContext true).initChatTemplates true).initSampler
              true).sampler.isNone = false := rfl
          refine ⟨rfl, _, ⟨samplerOwns, rfl, rfl, rfl, rfl, unloaded.batchInitialized⟩, nCtxKept, ?_⟩
          simp only [modelPresent, modelUsed, contextPresent, contextUsed, templatesPresent, templatesUsed,
            samplerPresent, Option.bind_eq_bind, Option.pure_def, Bool.false_eq_true, if_false,
            Option.map_eq_bind, Function.comp_def, Option.bind_some]

theorem Native.Unloaded.infer {g : Native} (unloaded : g.Unloaded) (call : InferCall) :
    nativeInfer call g = some (g, directError "model not loaded") := by
  simp only [nativeInfer, unloaded.passesGuard, Bool.not_false, if_true, Option.pure_def]

namespace NativeSystem

/-- All five resources or none, as the last call says, and nothing misused. -/
structure AllOrNothing (s : NativeSystem) : Prop where
  joint : s.native.AllLive ∨ s.native.NoneLive
  loaded : s.last = some (.loaded 0) → s.native.AllLive
  failed : ∀ code, s.last = some (.loaded code) → code ≠ 0 → s.native.NoneLive
  unloaded : s.last = some .unloaded → s.native.NoneLive
  sound : s.native.heap.faults = []
  guard : s.native.passesGuard = true → s.native.AllLive

def BatchAllocates (_ : NativeSystem) (event : NativeEvent) : Prop :=
  ∀ nCtx allocations, event = .load nCtx allocations → allocations.reachBatch = true →
    allocations.batch.Succeed (directMobileBatch (loadNCtx nCtx))

instance (s : NativeSystem) : (event : NativeEvent) → Decidable (s.BatchAllocates event)
  | .load nCtx allocations =>
    decidable_of_iff (allocations.reachBatch = true → allocations.batch.Succeed (directMobileBatch (loadNCtx nCtx)))
      ⟨by rintro succeeds _ _ ⟨⟩; exact succeeds, fun allocates => allocates nCtx allocations rfl⟩
  | .infer _ | .unload => .isTrue (by rintro _ _ ⟨⟩)

def Settled (s : NativeSystem) : Prop :=
  s.native.Unloaded ∧ s.last ≠ some (.loaded 0) ∨
    s.native.Loaded ∧ (∀ code, s.last = some (.loaded code) → code = 0) ∧ s.last ≠ some .unloaded

theorem Settled.owns {s : NativeSystem} (settled : s.Settled) : s.native.Owns := by
  rcases settled with ⟨unloaded, _⟩ | ⟨loaded, _⟩
  · exact unloaded.toOwns
  · exact loaded.toOwns

theorem Settled.allOrNothing {s : NativeSystem} (settled : s.Settled) : s.AllOrNothing := by
  rcases settled with ⟨unloaded, last⟩ | ⟨loaded, code, last⟩
  · refine ⟨Or.inr unloaded.noneLive, fun same => absurd same last, fun _ _ _ => unloaded.noneLive,
      fun _ => unloaded.noneLive, unloaded.heap.sound, ?_⟩
    rw [unloaded.passesGuard]
    intro passes
    cases passes
  · exact ⟨Or.inl loaded.allLive, fun _ => loaded.allLive, fun other same differs => absurd (code other same) differs,
      fun same => absurd same last, loaded.heap.sound, fun _ => loaded.allLive⟩

theorem Settled.step {s after : NativeSystem} {event : NativeEvent} (settled : s.Settled)
    (allocates : s.BatchAllocates event) (taken : s.step event = some after) : after.Settled := by
  cases event with
  | load nCtx allocations =>
    obtain ⟨made, returned, rfl⟩ := Option.map_eq_some_iff.mp taken
    rcases nativeLoadModel_cases settled.owns nCtx allocations with ⟨_, native, code, failed, differs, unloaded⟩ |
      ⟨reached, ready, isReady, configured, completed⟩
    · rw [failed] at returned
      cases returned
      left
      refine ⟨unloaded, ?_⟩
      intro same
      cases same
      exact differs rfl
    · have succeed := allocates nCtx allocations rfl reached
      rw [← configured] at succeed
      obtain ⟨native, initialized, loaded⟩ := isReady.initBatch succeed
      rw [completed, initialized] at returned
      cases returned
      right
      refine ⟨loaded, ?_, ?_⟩
      · intro code same
        cases same
        rfl
      · intro same
        cases same
  | infer call =>
    obtain ⟨made, returned, rfl⟩ := Option.map_eq_some_iff.mp taken
    have shown : ∀ text, (some (NativeReturn.inferred text) ≠ some (.loaded 0)) := by
      intro text same
      cases same
    rcases settled with ⟨unloaded, _⟩ | ⟨loaded, _⟩
    · rw [unloaded.infer call] at returned
      cases returned
      exact Or.inl ⟨unloaded, shown _⟩
    · obtain ⟨text, inferred, _⟩ := loaded.infer call
      rw [inferred] at returned
      cases returned
      right
      refine ⟨loaded, ?_, ?_⟩
      · intro code same
        cases same
      · intro same
        cases same
  | unload =>
    cases taken
    left
    refine ⟨settled.owns.unload, ?_⟩
    intro same
    cases same

theorem initial_unloaded : ({} : Native).Unloaded := by
  refine ⟨⟨Heap.Holds.empty, ?_⟩, rfl, rfl, rfl, rfl, rfl⟩
  intro handle member
  cases member

theorem initial_settled : ({} : NativeSystem).Settled := by
  left
  refine ⟨initial_unloaded, ?_⟩
  intro same
  cases same

theorem load_incomplete {s after : NativeSystem} {event : NativeEvent} (settled : s.Settled)
    (outside : ¬ s.BatchAllocates event) (taken : s.step event = some after) : ¬ after.AllOrNothing := by
  simp only [BatchAllocates, not_forall] at outside
  obtain ⟨nCtx, allocations, rfl, reached, failed⟩ := outside
  obtain ⟨made, returned, rfl⟩ := Option.map_eq_some_iff.mp taken
  rcases nativeLoadModel_cases settled.owns nCtx allocations with ⟨early, _⟩ | ⟨_, ready, _, configured, completed⟩
  · rw [reached] at early
    cases early
  · rw [← configured] at failed
    rw [completed] at returned
    obtain ⟨native, initialized, rfl⟩ := Option.map_eq_some_iff.mp returned
    intro all
    exact initBatch_incomplete failed initialized (all.loaded rfl)

end NativeSystem

theorem allOrNothing_iff {history : List (NativeSystem × NativeEvent)} {final : NativeSystem}
    (run : NativeRun history final) :
    Always NativeSystem.AllOrNothing history final ↔ Guarded NativeSystem.BatchAllocates history := by
  have keep : ∀ (s : NativeSystem) (event : NativeEvent) (after : NativeSystem), s.Settled → s.BatchAllocates event →
      s.step event = some after → after.Settled := fun _ _ _ settled allocates taken => settled.step allocates taken
  refine run.always_iff_guarded NativeSystem.initial_settled keep (fun _ settled => settled.allOrNothing) ?_
  exact fun _ _ _ settled outside taken => NativeSystem.load_incomplete settled outside taken

section UncheckedMalloc

def lowMemory : BatchMallocs := ⟨false, true, true, true, fun _ => true, true⟩

/-- A load without chat templates, two that succeed, an inference with each, and one after the unload. -/
def loadInferUnload : List NativeEvent :=
  [.load 512 ⟨true, true, false, true, lowMemory⟩, .load 512 everythingSucceeds,
    .infer ⟨txt "system", txt "chunk", 9, .finished 3 true (txt "ja")⟩, .load 256 everythingSucceeds,
    .infer ⟨[], txt "chunk", 9, .beforeSample 2 .timeout⟩, .unload, .infer ⟨[], txt "chunk", 9, .finished 0 false []⟩]

theorem allOrNothing_iff_loadInferUnload : ∃ final,
    follow NativeSystem.step {} loadInferUnload = some final ∧
    Always NativeSystem.AllOrNothing (trace NativeSystem.step {} loadInferUnload) final ∧
    (trace NativeSystem.step {} loadInferUnload).map (fun taken => taken.1.last) =
      [none, some (.loaded 3), some (.loaded 0), some (.inferred (txt "ja")), some (.loaded 0),
        some (.inferred (directError "timeout")), some .unloaded] ∧
    final.last = some (.inferred (directError "model not loaded")) := by
  obtain ⟨final, followed, observed⟩ : ∃ final, follow NativeSystem.step {} loadInferUnload = some final ∧
      final.last = some (.inferred (directError "model not loaded")) := follow_reaches (by decide +kernel)
  have allocates : Guarded NativeSystem.BatchAllocates (trace NativeSystem.step {} loadInferUnload) := by decide +kernel
  exact ⟨final, followed, (allOrNothing_iff (.of_follow followed)).mpr allocates, by decide +kernel, observed⟩

def loadInLowMemory : List NativeEvent := [.load 512 ⟨true, true, true, true, lowMemory⟩]

/-- The load returns 0 with a batch that has no tokens array. -/
theorem loaded_without_batch : ∃ history final, NativeRun history final ∧
    follow NativeSystem.step {} loadInLowMemory = some final ∧ ¬ final.AllOrNothing := by
  obtain ⟨final, followed, returned, token⟩ : ∃ final, follow NativeSystem.step {} loadInLowMemory = some final ∧
      final.last = some (.loaded 0) ∧ final.native.batch.token = none := follow_reaches (by decide +kernel)
  refine ⟨_, final, Run.of_follow followed, followed, ?_⟩
  intro all
  obtain ⟨handle, _, same⟩ := (all.loaded returned).1 final.native.batch.token (by simp [LlamaBatch.pointers])
  rw [token] at same
  cases same

end UncheckedMalloc

end Engine
