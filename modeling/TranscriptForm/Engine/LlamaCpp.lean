import TranscriptForm.Kotlin.Text

namespace Engine

open Kotlin

inductive EngineState
  | uninitialized
  | initializing
  | initialized
  | loadingModel
  | unloadingModel
  | modelReady
  | benchmarking
  | processingSystemPrompt
  | processingUserPrompt
  | generating
  | error
  deriving DecidableEq

namespace EngineState

def simpleName : EngineState → KString
  | .uninitialized => txt "Uninitialized"
  | .initializing => txt "Initializing"
  | .initialized => txt "Initialized"
  | .loadingModel => txt "LoadingModel"
  | .unloadingModel => txt "UnloadingModel"
  | .modelReady => txt "ModelReady"
  | .benchmarking => txt "Benchmarking"
  | .processingSystemPrompt => txt "ProcessingSystemPrompt"
  | .processingUserPrompt => txt "ProcessingUserPrompt"
  | .generating => txt "Generating"
  | .error => txt "Error"

def isModelLoaded : EngineState → Bool
  | .modelReady | .benchmarking | .processingSystemPrompt | .processingUserPrompt | .generating => true
  | _ => false

end EngineState

/-- A call that throws keeps what it has changed. -/
abbrev Call (σ : Type) := EStateM KString σ

namespace Call

variable {σ : Type} {α : Type}

/-- `require` and `check` -/
def check (condition : Bool) (message : KString) : Call σ Unit := if condition then pure () else throw message

/-- `try` with a `finally` that makes this change -/
def finallyDo (final : σ → σ) (action : Call σ α) : Call σ α := fun s =>
  match action s with
  | .ok value after => .ok value (final after)
  | .error message after => .error message (final after)

/-- `runCatching` with its result dropped -/
def runCatching (action : Call σ α) : Call σ Unit := fun s =>
  match action s with
  | .ok _ after => .ok () after
  | .error _ after => .ok () after

def orThrow : Except KString α → Call σ α
  | .ok value => pure value
  | .error message => throw message

@[simp] theorem get_run (s : σ) : (get : Call σ σ) s = .ok s s := rfl

@[simp] theorem modify_run (change : σ → σ) (s : σ) : (modify change : Call σ Unit) s = .ok () (change s) := rfl

theorem bind_ok {β : Type} {action : Call σ α} {next : α → Call σ β} {s after : σ} {value : α}
    (ran : action s = .ok value after) : (action >>= next) s = next value after := by
  simp only [bind, EStateM.bind, ran]

theorem bind_error {β : Type} {action : Call σ α} {next : α → Call σ β} {s after : σ} {message : KString}
    (threw : action s = .error message after) : (action >>= next) s = .error message after := by
  simp only [bind, EStateM.bind, threw]

@[simp] theorem check_true (message : KString) (s : σ) : check true message s = .ok () s := rfl

@[simp] theorem check_false (message : KString) (s : σ) : check false message s = .error message s := rfl

@[simp] theorem orThrow_ok (value : α) (s : σ) : orThrow (.ok value) s = .ok value s := rfl

theorem finallyDo_ok {final : σ → σ} {action : Call σ α} {s after : σ} {value : α}
    (ran : action s = .ok value after) : finallyDo final action s = .ok value (final after) := by
  simp only [finallyDo, ran]

end Call

/-- A file as a call finds it. -/
structure FileAccess where
  fileExists : Bool
  isFile : Bool
  canRead : Bool
  deriving DecidableEq

def FileAccess.readable : FileAccess := ⟨true, true, true⟩

open Call

structure InferenceEngine where
  state : EngineState := .uninitialized
  readyForSystemPrompt : Bool := false
  cancelGeneration : Bool := false
  deriving DecidableEq

namespace InferenceEngine

def setState (state : EngineState) : Call InferenceEngine Unit := modify fun e => { e with state := state }

/-- The `catch` of `loadModel`: the engine is left in its error state. -/
def orError {α : Type} (action : Call InferenceEngine α) : Call InferenceEngine α := fun e =>
  match action e with
  | .ok value after => .ok value after
  | .error message after => .error message { after with state := .error }

def loadModel (file : FileAccess) (load prepare : Int) : Call InferenceEngine Unit := do
  let e ← get
  check (e.state == .initialized) (txt "Cannot load model in " ++ e.state.simpleName ++ txt "!")
  orError do
    check file.fileExists (txt "File not found")
    check file.isFile (txt "Not a valid file")
    check file.canRead (txt "Cannot read file")
    modify fun e => { e with readyForSystemPrompt := false, state := .loadingModel }
    check (load == 0) []
    check (prepare == 0) (txt "Failed to prepare resources")
    modify fun e => { e with readyForSystemPrompt := true, cancelGeneration := false, state := .modelReady }

def setSystemPrompt (prompt : KString) (processSystemPrompt : Int) : Call InferenceEngine Unit := do
  check (isNotBlank prompt) (txt "Cannot process empty system prompt!")
  let e ← get
  check e.readyForSystemPrompt (txt "System prompt must be set ** RIGHT AFTER ** model loaded!")
  check (e.state == .modelReady) (txt "Cannot process system prompt in " ++ e.state.simpleName ++ txt "!")
  modify fun e => { e with readyForSystemPrompt := false, state := .processingSystemPrompt }
  if processSystemPrompt ≠ 0 then
    setState .error
    throw (txt "Failed to process system prompt: " ++ txt (toString processSystemPrompt))
  setState .modelReady

def configureRuntime (configureGeneration : Int) : Call InferenceEngine Unit := do
  let e ← get
  check (e.state == .initialized) (txt "Cannot configure runtime in " ++ e.state.simpleName ++ txt "!")
  check (configureGeneration == 0)
    (txt "Failed to configure generation runtime: " ++ txt (toString configureGeneration))

/-- The flow collected: the tokens `generateNextToken` returns before its null, put together. -/
def sendUserPrompt (message : KString) (processUserPrompt : Int) (tokens : List KString) :
    Call InferenceEngine KString := do
  check (!message.isEmpty) (txt "User prompt discarded due to being empty!")
  let e ← get
  check (e.state == .modelReady) (txt "User prompt discarded due to: " ++ e.state.simpleName)
  modify fun e => { e with readyForSystemPrompt := false, state := .processingUserPrompt }
  if processUserPrompt ≠ 0 then return []
  setState .generating
  let e ← get
  setState .modelReady
  return if e.cancelGeneration then [] else tokens.flatten

def cleanUp : Call InferenceEngine Unit := do
  modify fun e => { e with cancelGeneration := true }
  let e ← get
  match e.state with
  | .modelReady => modify fun e => { e with readyForSystemPrompt := false, state := .initialized }
  | .error => setState .initialized
  | state => throw (txt "Cannot unload model in " ++ state.simpleName)

end InferenceEngine

/-- The configured path of the model, its absolute path, the directory of the files of the
    application, and the path a model from elsewhere is copied to. -/
structure ModelPaths where
  modelPath : KString
  absolutePath : KString
  filesRoot : KString
  targetPath : KString

/-- `LlamaCppOnDeviceLlmEngine`, with the engine it has a reference to. -/
structure LlamaCppEngine where
  modelLoaded : Bool := false
  modelLoading : Bool := false
  resolvedModelPath : Option KString := none
  engineRef : Option InferenceEngine := none
  deriving DecidableEq

/-- The prompts of a `completeJson` call that is not timed out, and what the file system,
    the initialisation of the engine and the native functions come to in it. -/
structure CompleteJson where
  systemPrompt : KString
  userPrompt : KString
  fileAt : KString → FileAccess
  copy : Except KString Unit
  initCompletes : Bool
  configureGeneration : Int
  load : Int
  prepare : Int
  processSystemPrompt : Int
  processUserPrompt : Int
  tokens : List KString

namespace LlamaCppEngine

variable (paths : ModelPaths)

/-- `engine()`: the reference, or a new engine. -/
def engine : Call LlamaCppEngine InferenceEngine := do
  let s ← get
  let engine := s.engineRef.getD {}
  set { s with engineRef := some engine }
  return engine

def onEngine {α : Type} (action : Call InferenceEngine α) : Call LlamaCppEngine α := fun s =>
  match action (s.engineRef.getD {}) with
  | .ok value e => .ok value { s with engineRef := some e }
  | .error message e => .error message { s with engineRef := some e }

def ensureFileReadable (file : FileAccess) (path : KString) : Call LlamaCppEngine Unit := do
  check file.fileExists (txt "Llama model file not found: " ++ path)
  check file.isFile (txt "Llama model path is not a file: " ++ path)
  check file.canRead (txt "Llama model is not readable: " ++ path)

def resolveModelPathForNativeAccess (call : CompleteJson) : Call LlamaCppEngine KString := do
  ensureFileReadable (call.fileAt paths.modelPath) paths.modelPath
  if paths.filesRoot.isPrefixOf paths.absolutePath then return paths.absolutePath
  orThrow call.copy
  return paths.targetPath

def awaitInitialized (initCompletes : Bool) : Call LlamaCppEngine Unit :=
  if initCompletes then onEngine (InferenceEngine.setState .initialized)
  else throw (txt "Llama engine initialization timeout")

def prepareEngineForLoad (initCompletes : Bool) : Call LlamaCppEngine Unit := do
  if (← engine).state = .error then runCatching (onEngine InferenceEngine.cleanUp)
  let state := (← engine).state
  if state = .uninitialized ∨ state = .initializing then awaitInitialized initCompletes
  if (← engine).state = .error then runCatching (onEngine InferenceEngine.cleanUp)
  let state := (← engine).state
  check (!(state == .loadingModel || state == .unloadingModel)) (txt "Llama engine busy: " ++ state.simpleName)

def load (call : CompleteJson) : Call LlamaCppEngine Unit := do
  let effectiveModelPath ← resolveModelPathForNativeAccess paths call
  ensureFileReadable (call.fileAt effectiveModelPath) effectiveModelPath
  prepareEngineForLoad call.initCompletes
  if !(← engine).state.isModelLoaded then
    onEngine (InferenceEngine.configureRuntime call.configureGeneration)
    onEngine (InferenceEngine.loadModel (call.fileAt effectiveModelPath) call.load call.prepare)
  modify fun s => { s with resolvedModelPath := some effectiveModelPath, modelLoaded := true }

def ensureModelLoaded (call : CompleteJson) : Call LlamaCppEngine Unit := do
  if (← get).modelLoaded then return
  modify fun s => { s with modelLoading := true }
  finallyDo (fun s => { s with modelLoading := false }) (load paths call)

def ensureModelFileReadable (call : CompleteJson) : Call LlamaCppEngine Unit := do
  match (← get).resolvedModelPath with
  | some path => ensureFileReadable (call.fileAt path) path
  | none =>
    let path ← resolveModelPathForNativeAccess paths call
    modify fun s => { s with resolvedModelPath := some path }
    ensureFileReadable (call.fileAt path) path

def completeJson (call : CompleteJson) : Call LlamaCppEngine KString := do
  ensureModelLoaded paths call
  ensureModelFileReadable paths call
  let _ ← engine
  onEngine (InferenceEngine.setSystemPrompt call.systemPrompt call.processSystemPrompt)
  onEngine (InferenceEngine.sendUserPrompt call.userPrompt call.processUserPrompt call.tokens)

def completeAll : List CompleteJson → LlamaCppEngine → List (Except KString KString)
  | [], _ => []
  | call :: calls, s =>
    match completeJson paths call s with
    | .ok text after => .ok text :: completeAll calls after
    | .error message after => .error message :: completeAll calls after

end LlamaCppEngine

structure CompleteJson.GoesWell (paths : ModelPaths) (call : CompleteJson) : Prop where
  systemPrompt : isNotBlank call.systemPrompt = true
  userPrompt : isNotBlank call.userPrompt = true
  configured : call.fileAt paths.modelPath = .readable
  absolute : call.fileAt paths.absolutePath = .readable
  target : call.fileAt paths.targetPath = .readable
  copy : call.copy = .ok ()
  initCompletes : call.initCompletes = true
  configureGeneration : call.configureGeneration = 0
  load : call.load = 0
  prepare : call.prepare = 0
  processSystemPrompt : call.processSystemPrompt = 0
  processUserPrompt : call.processUserPrompt = 0

theorem nonempty_of_isNotBlank {s : KString} (filled : isNotBlank s = true) : s.isEmpty = false := by
  cases s with
  | nil => cases filled
  | cons c s => rfl

def promptSpent : KString := txt "System prompt must be set ** RIGHT AFTER ** model loaded!"

namespace InferenceEngine

theorem setSystemPrompt_ok {e : InferenceEngine} {prompt : KString} (filled : isNotBlank prompt = true)
    (ready : e.readyForSystemPrompt = true) (loaded : e.state = .modelReady) :
    setSystemPrompt prompt 0 e = .ok () { e with readyForSystemPrompt := false } := by
  simp [setSystemPrompt, setState, bind, EStateM.bind, filled, ready, loaded]

/-- The flag that the first prompt clears is set by `loadModel` only. -/
theorem setSystemPrompt_spent {e : InferenceEngine} {prompt : KString} (filled : isNotBlank prompt = true)
    (spent : e.readyForSystemPrompt = false) (result : Int) :
    setSystemPrompt prompt result e = .error promptSpent e := by
  simp [setSystemPrompt, bind, EStateM.bind, filled, spent, promptSpent]

theorem sendUserPrompt_ok {e : InferenceEngine} {message : KString} (filled : isNotBlank message = true)
    (loaded : e.state = .modelReady) (running : e.cancelGeneration = false) (tokens : List KString) :
    sendUserPrompt message 0 tokens e = .ok tokens.flatten { e with readyForSystemPrompt := false } := by
  simp [sendUserPrompt, setState, bind, EStateM.bind, pure, EStateM.pure, nonempty_of_isNotBlank filled, loaded, running]

end InferenceEngine

namespace LlamaCppEngine

variable {paths : ModelPaths}

def effectivePath (paths : ModelPaths) : KString :=
  if paths.filesRoot.isPrefixOf paths.absolutePath then paths.absolutePath else paths.targetPath

def used (paths : ModelPaths) : LlamaCppEngine :=
  { modelLoaded := true, resolvedModelPath := some (effectivePath paths), engineRef := some { state := .modelReady } }

theorem engine_ok (s : LlamaCppEngine) :
    engine s = .ok (s.engineRef.getD {}) { s with engineRef := some (s.engineRef.getD {}) } := rfl

theorem onEngine_ok {α : Type} {action : Call InferenceEngine α} {s : LlamaCppEngine} {e after : InferenceEngine}
    {value : α} (here : s.engineRef = some e) (ran : action e = .ok value after) :
    onEngine action s = .ok value { s with engineRef := some after } := by
  simp only [onEngine, here, Option.getD_some, ran]

theorem onEngine_error {α : Type} {action : Call InferenceEngine α} {s : LlamaCppEngine}
    {e after : InferenceEngine} {message : KString} (here : s.engineRef = some e)
    (threw : action e = .error message after) :
    onEngine action s = .error message { s with engineRef := some after } := by
  simp only [onEngine, here, Option.getD_some, threw]

theorem ensureFileReadable_ok (path : KString) (s : LlamaCppEngine) :
    ensureFileReadable .readable path s = .ok () s := rfl

theorem prepareEngineForLoad_new {s : LlamaCppEngine} (new : s.engineRef = none) :
    prepareEngineForLoad true s = .ok () { s with engineRef := some { state := .initialized } } := by
  obtain ⟨_, _, _, _⟩ := s
  cases new
  rfl

end LlamaCppEngine

namespace CompleteJson.GoesWell

open LlamaCppEngine

variable {paths : ModelPaths} {call : CompleteJson}

theorem effective (well : call.GoesWell paths) : call.fileAt (effectivePath paths) = .readable := by
  unfold effectivePath
  split
  · exact well.absolute
  · exact well.target

theorem resolved (well : call.GoesWell paths) (s : LlamaCppEngine) :
    resolveModelPathForNativeAccess paths call s = .ok (effectivePath paths) s := by
  unfold resolveModelPathForNativeAccess effectivePath
  rw [well.configured, bind_ok (ensureFileReadable_ok paths.modelPath s), well.copy]
  split <;> rfl

theorem ensured (well : call.GoesWell paths) {s : LlamaCppEngine} (loaded : s.modelLoaded = true)
    (path : s.resolvedModelPath = some (effectivePath paths)) :
    ensureModelLoaded paths call s = .ok () s ∧ ensureModelFileReadable paths call s = .ok () s := by
  constructor
  · simp [ensureModelLoaded, bind, EStateM.bind, pure, EStateM.pure, loaded]
  · simp [ensureModelFileReadable, bind, EStateM.bind, path, well.effective, ensureFileReadable_ok]

theorem loads (well : call.GoesWell paths) :
    ensureModelLoaded paths call {} = .ok ()
      { used paths with engineRef := some { state := .modelReady, readyForSystemPrompt := true } } := by
  have readable (s : LlamaCppEngine) :
      ensureFileReadable (call.fileAt (effectivePath paths)) (effectivePath paths) s = .ok () s := by
    rw [well.effective]
    exact ensureFileReadable_ok _ s
  have prepared : prepareEngineForLoad call.initCompletes { modelLoading := true } =
      .ok () { modelLoading := true, engineRef := some { state := .initialized } } := by
    rw [well.initCompletes]
    exact prepareEngineForLoad_new rfl
  have body : LlamaCppEngine.load paths call { modelLoading := true } = .ok ()
      { used paths with
        modelLoading := true, engineRef := some { state := .modelReady, readyForSystemPrompt := true } } := by
    unfold LlamaCppEngine.load
    rw [bind_ok (well.resolved _), bind_ok (readable _), bind_ok prepared, bind_ok (engine_ok _),
      well.configureGeneration, well.effective, well.load, well.prepare]
    rfl
  exact finallyDo_ok body

theorem first (well : call.GoesWell paths) : completeJson paths call {} = .ok call.tokens.flatten (used paths) := by
  let loaded : LlamaCppEngine :=
    { used paths with engineRef := some { state := .modelReady, readyForSystemPrompt := true } }
  have readable := (well.ensured rfl rfl (s := loaded)).2
  have prompted := onEngine_ok (s := loaded) rfl
    (InferenceEngine.setSystemPrompt_ok (e := { state := .modelReady, readyForSystemPrompt := true })
      well.systemPrompt rfl rfl)
  have generated := onEngine_ok (s := used paths) rfl
    (InferenceEngine.sendUserPrompt_ok (e := { state := .modelReady }) well.userPrompt rfl rfl call.tokens)
  unfold completeJson
  rw [bind_ok well.loads, bind_ok readable, bind_ok (engine_ok _), well.processSystemPrompt, well.processUserPrompt]
  exact (bind_ok prompted).trans generated

theorem later (well : call.GoesWell paths) : completeJson paths call (used paths) = .error promptSpent (used paths) := by
  obtain ⟨loaded, readable⟩ := well.ensured (s := used paths) rfl rfl
  have refused := onEngine_error (s := used paths) rfl
    (InferenceEngine.setSystemPrompt_spent (e := { state := .modelReady }) well.systemPrompt rfl
      call.processSystemPrompt)
  unfold completeJson
  rw [bind_ok loaded, bind_ok readable, bind_ok (engine_ok _)]
  exact bind_error refused

end CompleteJson.GoesWell

namespace LlamaCppEngine

variable {paths : ModelPaths}

theorem completeAll_used {calls : List CompleteJson} (well : ∀ call ∈ calls, call.GoesWell paths) :
    completeAll paths calls (used paths) = calls.map fun _ => .error promptSpent := by
  induction calls with
  | nil => rfl
  | cons call calls ih =>
    obtain ⟨here, later⟩ := List.forall_mem_cons.mp well
    simp only [completeAll, here.later, ih later, List.map_cons]

theorem completeAll_new {call : CompleteJson} {calls : List CompleteJson}
    (well : ∀ c ∈ call :: calls, c.GoesWell paths) :
    completeAll paths (call :: calls) {} = .ok call.tokens.flatten :: calls.map fun _ => .error promptSpent := by
  obtain ⟨here, later⟩ := List.forall_mem_cons.mp well
  simp only [completeAll, here.first, completeAll_used later]

theorem completeAll_returns_iff (calls : List CompleteJson) (well : ∀ call ∈ calls, call.GoesWell paths) :
    (completeAll paths calls {} = calls.map fun call => .ok call.tokens.flatten) ↔ calls.length ≤ 1 := by
  match calls with
  | [] => simp [completeAll]
  | [call] => simp [completeAll_new well]
  | call :: next :: calls => simp [completeAll_new well]

def modelInFiles : ModelPaths where
  modelPath := txt "/data/files/model.gguf"
  absolutePath := txt "/data/files/model.gguf"
  filesRoot := txt "/data/files"
  targetPath := txt "/data/files/models/model.gguf"

def answersNone : CompleteJson where
  systemPrompt := txt "Answer in JSON."
  userPrompt := txt "Nobody spoke."
  fileAt := fun _ => .readable
  copy := .ok ()
  initCompletes := true
  configureGeneration := 0
  load := 0
  prepare := 0
  processSystemPrompt := 0
  processUserPrompt := 0
  tokens := [txt "\x7b", txt "\x7d"]

theorem answersNone_goesWell : answersNone.GoesWell modelInFiles :=
  ⟨by decide, by decide, rfl, rfl, rfl, rfl, rfl, rfl, rfl, rfl, rfl, rfl⟩

theorem completeAll_returns_iff_once :
    (completeAll modelInFiles [answersNone] {} = [answersNone].map fun call => .ok call.tokens.flatten) ↔
      [answersNone].length ≤ 1 :=
  completeAll_returns_iff [answersNone] (by simpa using answersNone_goesWell)

theorem second_call_refused :
    completeAll modelInFiles [answersNone, answersNone] {} = [.ok (txt "\x7b\x7d"), .error promptSpent] ∧
      ¬ ∀ (paths : ModelPaths) (calls : List CompleteJson), (∀ call ∈ calls, call.GoesWell paths) →
        completeAll paths calls {} = calls.map fun call => .ok call.tokens.flatten := by
  have well : ∀ call ∈ [answersNone, answersNone], call.GoesWell modelInFiles := by simpa using answersNone_goesWell
  have outcome : completeAll modelInFiles [answersNone, answersNone] {} =
      [.ok (txt "\x7b\x7d"), .error promptSpent] := completeAll_new well
  refine ⟨outcome, fun always => ?_⟩
  have returned := always modelInFiles [answersNone, answersNone] well
  rw [outcome] at returned
  cases returned

end LlamaCppEngine

end Engine
