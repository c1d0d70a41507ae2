import TranscriptForm.Library.Handles
import TranscriptForm.Library.Runs
import TranscriptForm.Kotlin.Text

namespace Engine

open Kotlin Handles

/-- `llama_batch`: its arrays, `seq_id` with one more array for each token. -/
structure LlamaBatch where
  token : Option Nat := none
  pos : Option Nat := none
  nSeqId : Option Nat := none
  seqId : Option Nat := none
  seqIds : List (Option Nat) := []
  logits : Option Nat := none
  deriving DecidableEq

def LlamaBatch.pointers (batch : LlamaBatch) : List (Option Nat) :=
  [batch.token, batch.pos, batch.nSeqId] ++ batch.seqIds ++ [batch.seqId, batch.logits]

def LlamaBatch.arrays (batch : LlamaBatch) : List Nat := batch.pointers.filterMap id

structure BatchMallocs where
  token : Bool
  pos : Bool
  nSeqId : Bool
  seqId : Bool
  seqIds : Nat → Bool
  logits : Bool

def mallocEach (succeeds : Nat → Bool) : Nat → Heap → Heap × List (Option Nat)
  | 0, heap => (heap, [])
  | n + 1, heap =>
    let earlier := mallocEach succeeds n heap
    let last := earlier.1.tryAlloc (succeeds n)
    (last.1, earlier.2 ++ [last.2])

/-- `llama_batch_init(n_tokens_alloc, 0, 1)`. It checks none of its mallocs, so without
    `seq_id` it writes through a null pointer and there is no state after it. -/
def llamaBatchInit (nTokensAlloc : Nat) (mallocs : BatchMallocs) (heap : Heap) : Option (Heap × LlamaBatch) :=
  let token := heap.tryAlloc mallocs.token
  let pos := token.1.tryAlloc mallocs.pos
  let nSeqId := pos.1.tryAlloc mallocs.nSeqId
  let seqId := nSeqId.1.tryAlloc mallocs.seqId
  if seqId.2.isNone then none
  else
    let seqIds := mallocEach mallocs.seqIds nTokensAlloc seqId.1
    let logits := seqIds.1.tryAlloc mallocs.logits
    some (logits.1, ⟨token.2, pos.2, nSeqId.2, seqId.2, seqIds.2, logits.2⟩)

/-- What `llama_batch_free` frees. It ends at the first null array under `seq_id`. -/
def LlamaBatch.freed (batch : LlamaBatch) : List Nat :=
  batch.token.toList ++ batch.pos.toList ++ batch.nSeqId.toList ++
    (if batch.seqId.isSome then (batch.seqIds.takeWhile Option.isSome).filterMap id ++ batch.seqId.toList else []) ++
    batch.logits.toList

/-- The globals of `ai_chat.cpp` that the direct path keeps its resources in. -/
structure Native where
  heap : Heap := {}
  model : Option Nat := none
  context : Option Nat := none
  chatTemplates : Option Nat := none
  sampler : Option Nat := none
  batch : LlamaBatch := {}
  batchInitialized : Bool := false
  directBatchCapacity : Nat := 0
  runtimeNCtx : Nat := 8192
  deriving DecidableEq

namespace Native

def freeSampler (g : Native) : Native := { g with heap := g.heap.releaseAll g.sampler.toList, sampler := none }

def freeContext (g : Native) : Native := { g with heap := g.heap.releaseAll g.context.toList, context := none }

def resetChatTemplates (g : Native) : Native :=
  { g with heap := g.heap.releaseAll g.chatTemplates.toList, chatTemplates := none }

def freeModel (g : Native) : Native := { g with heap := g.heap.releaseAll g.model.toList, model := none }

def freeBatch (g : Native) : Native :=
  { g with
    heap := if g.batchInitialized then g.heap.releaseAll g.batch.freed else g.heap
    batchInitialized := false
    directBatchCapacity := 0 }

/-- A use of what the pointer leads to. Through a null pointer there is no state after it. -/
def touch (pointer : Option Nat) (g : Native) : Option Native :=
  pointer.map fun handle => { g with heap := g.heap.use handle }

/-- `g_model = llama_model_load_from_file(...)` -/
def loadModel (succeeds : Bool) (g : Native) : Native :=
  let model := g.heap.tryAlloc succeeds
  { g with heap := model.1.overwrite g.model, model := model.2 }

/-- `g_context = llama_init_from_model(g_model, ...)` -/
def initContext (succeeds : Bool) (g : Native) : Native :=
  let context := g.heap.tryAlloc succeeds
  { g with heap := context.1.overwrite g.context, context := context.2 }

/-- `g_chat_templates = common_chat_templates_init(g_model, "")` -/
def initChatTemplates (succeeds : Bool) (g : Native) : Native :=
  let chatTemplates := g.heap.tryAlloc succeeds
  { g with heap := chatTemplates.1.overwrite g.chatTemplates, chatTemplates := chatTemplates.2 }

/-- `g_sampler = common_sampler_init(g_model, sparams)` -/
def initSampler (succeeds : Bool) (g : Native) : Native :=
  let sampler := g.heap.tryAlloc succeeds
  { g with heap := sampler.1.overwrite g.sampler, sampler := sampler.2 }

def directMobileBatchMax : Nat := 32

def directMobileBatch (runtimeNCtx : Nat) : Nat := max 16 (min directMobileBatchMax runtimeNCtx)

/-- `g_batch = llama_batch_init(mobile_batch, 0, 1)` and the assignments after it. -/
def initBatch (mallocs : BatchMallocs) (g : Native) : Option Native :=
  let mobileBatch := directMobileBatch g.runtimeNCtx
  (llamaBatchInit mobileBatch mallocs g.heap).map fun made =>
    { g with
      heap := made.1.overwriteAll g.batch.arrays
      batch := made.2
      batchInitialized := true
      directBatchCapacity := mobileBatch }

end Native

/-- Which of the allocations of `nativeLoadModel` succeed. -/
structure LoadAllocations where
  model : Bool
  context : Bool
  chatTemplates : Bool
  sampler : Bool
  batch : BatchMallocs

open Native

def tearDown (g : Native) : Native := freeModel (resetChatTemplates (freeContext (freeBatch (freeSampler g))))

def nativeLoadModel (nCtx : Int) (allocations : LoadAllocations) (g : Native) : Option (Native × Nat) := do
  let g := tearDown { g with runtimeNCtx := (max 128 nCtx).toNat }
  let g := loadModel allocations.model g
  if g.model.isNone then return (g, 1)
  let g ← touch g.model g
  let g := initContext allocations.context g
  if g.context.isNone then return (freeModel g, 2)
  let g ← touch g.model g
  let g := initChatTemplates allocations.chatTemplates g
  if g.chatTemplates.isNone then return (freeModel (freeContext g), 3)
  let g ← touch g.model g
  let g := initSampler allocations.sampler g
  if g.sampler.isNone then return (freeModel (freeContext (resetChatTemplates g)), 4)
  let g ← initBatch allocations.batch g
  return (g, 0)

def nativeUnload (g : Native) : Native := freeModel (freeContext (resetChatTemplates (freeSampler (freeBatch g))))

inductive Interruption
  | cancelled
  | timeout
  deriving DecidableEq

/-- Where an inference ends once its prompt is formatted, and how many decodes or
    generation steps came before. -/
inductive InferStop
  | beforeReset (interruption : Interruption)
  | beforeTokenize (interruption : Interruption)
  | beforeDecode (decoded : Nat) (interruption : Interruption)
  | prefillDecodeFailed (decoded : Nat)
  | afterDecode (decoded : Nat)
  | beforeSample (steps : Nat) (interruption : Interruption)
  | tokenDecodeFailed (steps : Nat)
  | finished (steps : Nat) (sampled : Bool) (output : KString)
  deriving DecidableEq

/-- The prompts of a `nativeInfer` call, how many tokens they come to, and where it ends. -/
structure InferCall where
  systemPrompt : KString
  userPrompt : KString
  tokens : Nat
  stop : InferStop
  deriving DecidableEq

def directError (reason : String) : KString := txt "__DIRECT_LLM_ERROR__: " ++ txt reason

def Interruption.text : Interruption → KString
  | .cancelled => directError "cancelled"
  | .timeout => directError "timeout"

namespace Native

def passesGuard (g : Native) : Bool := g.model.isSome && g.context.isSome && g.sampler.isSome

/-- `common_batch_add` of one token to a cleared batch -/
def commonBatchAdd (g : Native) : Option Native := do
  let g ← touch (g.batch.seqIds.head?.getD none) g
  let g ← touch g.batch.seqId g
  let g ← touch g.batch.token g
  let g ← touch g.batch.pos g
  let g ← touch g.batch.nSeqId g
  touch g.batch.logits g

/-- The batch with one token, decoded. `DIRECT_PREFILL_CHUNK` is 1, so the prompt is decoded this way too. -/
def decodeToken (g : Native) : Option Native := do
  let g ← commonBatchAdd g
  touch g.context g

/-- A token sampled, accepted, compared to the end of generation and made a piece. -/
def sampleToken (g : Native) : Option Native := do
  let g ← touch g.sampler g
  let g ← touch g.context g
  touch g.model g

def generationStep (g : Native) : Option Native := do
  let g ← sampleToken g
  decodeToken g

def repeated (action : Native → Option Native) : Nat → Native → Option Native
  | 0, g => some g
  | n + 1, g => do
    let g ← action g
    repeated action n g

def formatPrompt (call : InferCall) (g : Native) : Option Native := do
  let g ← touch g.context g
  let g ← if call.systemPrompt.isEmpty then some g else touch g.chatTemplates g
  if call.userPrompt.isEmpty then some g else touch g.chatTemplates g

def generate (call : InferCall) (g : Native) : Option (Native × KString) := do
  match call.stop with
  | .beforeDecode decoded interruption =>
    let g ← repeated decodeToken decoded g
    return (g, interruption.text)
  | .prefillDecodeFailed decoded =>
    let g ← repeated decodeToken (decoded + 1) g
    return (g, directError "prefill decode failed")
  | .afterDecode decoded =>
    let g ← repeated decodeToken (decoded + 1) g
    return (g, directError "timeout")
  | .beforeSample steps interruption =>
    let g ← repeated decodeToken call.tokens g
    let g ← repeated generationStep steps g
    return (g, interruption.text)
  | .tokenDecodeFailed steps =>
    let g ← repeated decodeToken call.tokens g
    let g ← repeated generationStep (steps + 1) g
    return (g, directError "token decode failed")
  | .finished steps sampled output =>
    let g ← repeated decodeToken call.tokens g
    let g ← repeated generationStep steps g
    let g ← if sampled then sampleToken g else some g
    return (g, output)
  | .beforeReset interruption | .beforeTokenize interruption => return (g, interruption.text)

end Native

def nativeInfer (call : InferCall) (g : Native) : Option (Native × KString) := do
  if !g.passesGuard then return (g, directError "model not loaded")
  let g ← formatPrompt call g
  if let .beforeReset interruption := call.stop then return (g, interruption.text)
  let g ← touch g.context g
  let g ← touch g.sampler g
  if let .beforeTokenize interruption := call.stop then return (g, interruption.text)
  let g ← touch g.context g
  if call.tokens = 0 then return (g, directError "tokenization failed")
  if g.runtimeNCtx ≤ call.tokens then return (g, directError "prompt too large")
  if !g.batchInitialized then return (g, directError "batch not initialized")
  generate call g

inductive NativeReturn
  | loaded (code : Nat)
  | inferred (text : KString)
  | unloaded
  deriving DecidableEq

structure NativeSystem where
  native : Native := {}
  last : Option NativeReturn := none
  deriving DecidableEq

inductive NativeEvent
  | load (nCtx : Int) (allocations : LoadAllocations)
  | infer (call : InferCall)
  | unload

def NativeSystem.step (s : NativeSystem) : NativeEvent → Option NativeSystem
  | .load nCtx allocations => (nativeLoadModel nCtx allocations s.native).map fun made => ⟨made.1, some (.loaded made.2)⟩
  | .infer call => (nativeInfer call s.native).map fun made => ⟨made.1, some (.inferred made.2)⟩
  | .unload => some ⟨nativeUnload s.native, some .unloaded⟩

abbrev NativeRun := Transition.Run NativeSystem.step {}

end Engine
