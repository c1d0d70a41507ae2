import TranscriptForm.Library.Interleaving
import TranscriptForm.Engine.Native
import TranscriptForm.ViewModel.FormViewModel

namespace Engine

open Kotlin Interleaving

inductive DirectRequest
  | warmupModel
  | completeJson (systemPrompt userPrompt : KString)
  deriving DecidableEq

inductive InitSite
  | ensureModelLoaded (path : KString)
  | loadModel (path : KString)
  | inferJson
  deriving DecidableEq

inductive DirectFailure
  | modelFile
  | nativeInit
  | invalidModel (path : KString)
  | load (code : Nat) (path : KString)
  | inference (reason : KString)
  deriving DecidableEq

inductive DirectResult
  | warmedUp
  | completed (text : KString)
  | failed (failure : DirectFailure)
  deriving DecidableEq

/-- Where a call stands. The points named after a native function are within it. -/
inductive Point
  | start
  | awaitLoad
  | resolvePath
  | ensureInitialized (site : InitSite)
  | awaitMonitor (site : InitSite)
  | nativeInit (site : InitSite)
  | checkFile (path : KString)
  | nativeLoadModel (path : KString)
  | enterInfer
  | nativeInfer
  | awaitRecovery (reason : KString)
  | cancel (reason : KString)
  | unload (reason : KString)
  | nativeUnload (reason : KString)
  | shutdown (reason : KString)
  | nativeShutdown (reason : KString)
  | returned (result : DirectResult)
  deriving DecidableEq

structure DirectCall where
  request : DirectRequest
  point : Point
  deriving DecidableEq

/-- `DirectLlamaOnDeviceLlmEngine` over the `DirectLlamaBridge` singleton and its native
    globals. `mutex` and `monitor` say which call holds them. -/
structure DirectEngine where
  nCtx : Int := 512
  native : Native := {}
  initialized : Bool := false
  monitor : Option Nat := none
  modelLoaded : Bool := false
  modelLoading : Bool := false
  resolvedModelPath : Option KString := none
  mutex : Option Nat := none
  deriving DecidableEq

inductive DirectOutcome
  | proceed
  | resolved (path : Option KString)
  | initReturned (succeeds : Bool)
  | fileChecked (valid : Bool)
  | loadReturned (allocations : LoadAllocations)
  | inferReturned (tokens : Nat) (stop : InferStop)

def directErrorPrefix : KString := txt "__DIRECT_LLM_ERROR__:"

/-- `raw.removePrefix(DIRECT_ERROR_PREFIX).trim()` of a text that starts with it -/
def directErrorReason (raw : KString) : KString := trim (raw.drop directErrorPrefix.length)

def isTimeout (reason : KString) : Bool :=
  contains (reason.map Form.FormViewModel.ignoreCase) (txt "timeout")

namespace DirectRequest

/-- What a call goes on with once the model is loaded. -/
def loaded : DirectRequest → Point
  | .warmupModel => .returned .warmedUp
  | .completeJson _ _ => .ensureInitialized .inferJson

def prompts : DirectRequest → KString × KString
  | .warmupModel => ([], [])
  | .completeJson systemPrompt userPrompt => (systemPrompt, userPrompt)

end DirectRequest

namespace InitSite

def initialized : InitSite → Point
  | .ensureModelLoaded path => .ensureInitialized (.loadModel path)
  | .loadModel path => .checkFile path
  | .inferJson => .enterInfer

end InitSite

namespace DirectEngine

/-- The end of `mutex.withLock` in `ensureModelLoaded`, with its `finally`. -/
def endLoad (e : DirectEngine) : DirectEngine := { e with modelLoading := false, mutex := none }

def failLoad (e : DirectEngine) (failure : DirectFailure) : DirectEngine × Point :=
  (e.endLoad, .returned (.failed failure))

def failInit (e : DirectEngine) : InitSite → DirectEngine × Point
  | .inferJson => (e, .returned (.failed .nativeInit))
  | _ => e.failLoad .nativeInit

def inferred (raw : KString) : Point :=
  if startsWith raw directErrorPrefix then
    if isTimeout (directErrorReason raw) then .awaitRecovery (directErrorReason raw)
    else .returned (.failed (.inference (directErrorReason raw)))
  else .returned (.completed raw)

def beginRecovery (e : DirectEngine) (id : Nat) : DirectEngine :=
  { e with mutex := some id, modelLoaded := false, modelLoading := false, resolvedModelPath := none }

/-- The end of `mutex.withLock` in `recoverAfterFailure`, and the exception after it. -/
def endRecovery (e : DirectEngine) (reason : KString) : DirectEngine × Point :=
  ({ e with mutex := none }, .returned (.failed (.inference reason)))

def advance (e : DirectEngine) (id : Nat) (request : DirectRequest) : Point → DirectOutcome → Option (DirectEngine × Point)
  | .start, .proceed => some (e, if e.modelLoaded then request.loaded else .awaitLoad)
  | .awaitLoad, .proceed =>
    if e.mutex.isSome then none
    else if e.modelLoaded then some (e, request.loaded)
    else some ({ e with mutex := some id, modelLoading := true }, .resolvePath)
  | .resolvePath, .resolved (some path) => some (e, .ensureInitialized (.ensureModelLoaded path))
  | .resolvePath, .resolved none => some (e.failLoad .modelFile)
  | .ensureInitialized site, .proceed => some (e, if e.initialized then site.initialized else .awaitMonitor site)
  | .awaitMonitor site, .proceed =>
    if e.monitor.isSome then none
    else if e.initialized then some (e, site.initialized)
    else some ({ e with monitor := some id }, .nativeInit site)
  | .nativeInit site, .initReturned succeeds =>
    if succeeds then some ({ e with monitor := none, initialized := true }, site.initialized)
    else some ({ e with monitor := none }.failInit site)
  | .checkFile path, .fileChecked valid =>
    some (if valid then (e, .nativeLoadModel path) else e.failLoad (.invalidModel path))
  | .nativeLoadModel path, .loadReturned allocations =>
    (nativeLoadModel e.nCtx allocations e.native).map fun made =>
      if made.2 = 0 then
        ({ e with native := made.1, resolvedModelPath := some path, modelLoaded := true }.endLoad, request.loaded)
      else { e with native := made.1 }.failLoad (.load made.2 path)
  | .enterInfer, .proceed => some (e, .nativeInfer)
  | .nativeInfer, .inferReturned tokens stop =>
    (nativeInfer ⟨request.prompts.1, request.prompts.2, tokens, stop⟩ e.native).map fun made =>
      ({ e with native := made.1 }, inferred made.2)
  | .awaitRecovery reason, .proceed =>
    if e.mutex.isSome then none else some (e.beginRecovery id, .cancel reason)
  | .cancel reason, .proceed => some (e, .unload reason)
  | .unload reason, .proceed => some (e, if e.initialized then .nativeUnload reason else .shutdown reason)
  | .nativeUnload reason, .proceed => some ({ e with native := nativeUnload e.native }, .shutdown reason)
  | .shutdown reason, .proceed =>
    some (if e.initialized then (e, .nativeShutdown reason) else e.endRecovery reason)
  | .nativeShutdown reason, .proceed => some ({ e with initialized := false }.endRecovery reason)
  | _, _ => none

end DirectEngine

def directCode : Code DirectEngine DirectCall DirectRequest DirectOutcome where
  start e request := some (e, ⟨request, .start⟩)
  advance e id call outcome :=
    (e.advance id call.request call.point outcome).map fun next => (next.1, ⟨call.request, next.2⟩)

abbrev DirectSystem := System DirectEngine DirectCall

abbrev DirectEvent := Event DirectRequest DirectOutcome

def directInitial (nCtx : Int) : DirectSystem := ⟨{ nCtx := nCtx }, fun _ => none⟩

abbrev DirectRun (nCtx : Int) := Transition.Run directCode.step (directInitial nCtx)

end Engine
