import TranscriptForm.Engine.AllOrNothing
import TranscriptForm.Engine.Exclusive

namespace Engine

open Kotlin Interleaving Transition

structure CompleteCall where
  request : DirectRequest
  outcomes : List DirectOutcome

structure DirectSession where
  engine : DirectEngine
  calls : Nat := 0
  last : Option DirectResult := none
  deriving DecidableEq

def DirectEngine.advanceAll (id : Nat) (request : DirectRequest) (outcomes : List DirectOutcome)
    (state : DirectEngine × Point) : Option (DirectEngine × Point) :=
  follow (fun state outcome => state.1.advance id request state.2 outcome) state outcomes

/-- Calls that do not overlap: each begins where the one before it returned. -/
def DirectSession.step (s : DirectSession) (call : CompleteCall) : Option DirectSession :=
  (DirectEngine.advanceAll s.calls call.request call.outcomes (s.engine, .start)).bind fun done =>
    match done.2 with
    | .returned result => some ⟨done.1, s.calls + 1, some result⟩
    | _ => none

abbrev SessionRun (nCtx : Int) := Run DirectSession.step { engine := { nCtx := nCtx } }

theorem session_step_cases {s after : DirectSession} {call : CompleteCall} (taken : s.step call = some after) :
    ∃ result, DirectEngine.advanceAll s.calls call.request call.outcomes (s.engine, .start) =
        some (after.engine, .returned result) ∧ after.last = some result ∧ after.calls = s.calls + 1 := by
  obtain ⟨done, advanced, ended⟩ := Option.bind_eq_some_iff.mp taken
  obtain ⟨engine, point⟩ := done
  cases point with
  | returned result =>
    cases ended
    exact ⟨result, advanced, rfl, rfl⟩
  | _ => cases ended

section Interleaved

theorem advanceAll_interleaved {nCtx : Int} {history : List (DirectSystem × DirectEvent)} {s : DirectSystem}
    (run : DirectRun nCtx history s) {id : Nat} {request : DirectRequest} {outcomes : List DirectOutcome} {point : Point}
    (found : s.threads id = some ⟨request, point⟩) {done : DirectEngine × Point}
    (advanced : DirectEngine.advanceAll id request outcomes (s.shared, point) = some done) :
    ∃ later, DirectRun nCtx later (s.put id (done.1, ⟨request, done.2⟩)) := by
  induction outcomes generalizing history s point with
  | nil =>
    cases advanced
    have same : s.put id (s.shared, ⟨request, point⟩) = s := by
      rw [System.put, ← found, Function.update_eq_self]
    rw [same]
    exact ⟨history, run⟩
  | cons outcome outcomes ih =>
    obtain ⟨⟨engine, next⟩, moved, rest⟩ := Option.bind_eq_some_iff.mp advanced
    have stepped : directCode.step s (.advance id outcome) = some (s.put id (engine, ⟨request, next⟩)) := by
      simp only [Code.step, found, Option.bind_some, directCode, moved, Option.map_some]
    obtain ⟨later, reached⟩ := ih (run.next stepped) (s.put_same id _) rest
    have twice : (s.put id (engine, ⟨request, next⟩)).put id (done.1, ⟨request, done.2⟩) =
        s.put id (done.1, ⟨request, done.2⟩) := by
      simp only [System.put, Function.update_idem]
    rw [twice] at reached
    exact ⟨later, reached⟩

theorem session_interleaved {nCtx : Int} {history : List (DirectSession × CompleteCall)} {final : DirectSession}
    (run : SessionRun nCtx history final) : ∃ later threads, DirectRun nCtx later ⟨final.engine, threads⟩ ∧
      ∀ id, final.calls ≤ id → threads id = none := by
  induction run with
  | start => exact ⟨[], _, .start, fun _ _ => rfl⟩
  | @next history s after call prior taken ih =>
    obtain ⟨earlier, threads, reached, free⟩ := ih
    obtain ⟨result, advanced, _, calls⟩ := session_step_cases taken
    have spawned : directCode.step ⟨s.engine, threads⟩ (.spawn s.calls call.request) =
        some ((⟨s.engine, threads⟩ : DirectSystem).put s.calls (s.engine, ⟨call.request, .start⟩)) := by
      simp only [Code.step, free s.calls (Nat.le_refl _), Option.isSome_none, Bool.false_eq_true, if_false, directCode,
        Option.map_some]
    obtain ⟨later, ended⟩ := advanceAll_interleaved (reached.next spawned) (System.put_same _ _ _) advanced
    refine ⟨later, _, ended, ?_⟩
    intro id beyond
    have differs : id ≠ s.calls := by omega
    have untouched : threads id = none := free id (by omega)
    simp only [System.put, Function.update_of_ne differs, untouched]

end Interleaved

namespace DirectEngine

def Up (e : DirectEngine) : Prop := e.modelLoaded = true ∧ e.initialized = true ∧ e.native.Loaded

def Down (e : DirectEngine) : Prop := e.modelLoaded = false ∧ e.native.Unloaded

structure Recovering (e : DirectEngine) (reason : KString) : Prop where
  modelLoaded : e.modelLoaded = false
  modelLoading : e.modelLoading = false
  initialized : e.initialized = true
  timeout : isTimeout reason = true

end DirectEngine

def modelNotLoaded : KString := txt "model not loaded"

open DirectEngine in
def Stage (e : DirectEngine) : Point → Prop
  | .start | .awaitLoad => e.modelLoading = false ∧ (e.Up ∨ e.Down)
  | .resolvePath => e.Down
  | .ensureInitialized site | .awaitMonitor site | .nativeInit site =>
    (site.loads = true ∧ e.Down) ∨ (site.loads = false ∧ e.modelLoading = false ∧ e.Up)
  | .checkFile _ | .nativeLoadModel _ => e.initialized = true ∧ e.Down
  | .enterInfer | .nativeInfer => e.modelLoading = false ∧ e.Up
  | .awaitRecovery reason => e.modelLoading = false ∧ e.Up ∧ isTimeout reason = true
  | .cancel reason | .unload reason | .nativeUnload reason => e.Recovering reason ∧ e.native.Loaded
  | .shutdown reason | .nativeShutdown reason => e.Recovering reason ∧ e.native.Unloaded
  | .returned result =>
    e.modelLoading = false ∧ (e.Up ∨ e.Down) ∧ result ≠ .failed (.inference modelNotLoaded)

/-- A load that gets as far as the batch gets all of it, and no generated text reads
    as the report of a missing model. -/
def Benign : DirectOutcome → Prop
  | .loadReturned allocations => allocations.reachBatch = true → allocations.batch.Succeed Native.directMobileBatchMax
  | .inferReturned _ (.finished _ _ output) =>
    startsWith output directErrorPrefix = true → directErrorReason output ≠ modelNotLoaded
  | _ => True

instance : (outcome : DirectOutcome) → Decidable (Benign outcome)
  | .loadReturned allocations => inferInstanceAs (Decidable (allocations.reachBatch = true →
      allocations.batch.Succeed Native.directMobileBatchMax))
  | .inferReturned _ (.finished _ _ output) => inferInstanceAs (Decidable
      (startsWith output directErrorPrefix = true → directErrorReason output ≠ modelNotLoaded))
  | .inferReturned _ (.beforeReset _) | .inferReturned _ (.beforeTokenize _) | .inferReturned _ (.beforeDecode _ _)
  | .inferReturned _ (.prefillDecodeFailed _) | .inferReturned _ (.afterDecode _)
  | .inferReturned _ (.beforeSample _ _) | .inferReturned _ (.tokenDecodeFailed _) | .proceed | .resolved _
  | .initReturned _ | .fileChecked _ => .isTrue True.intro

theorem directMobileBatch_load (nCtx : Int) : Native.directMobileBatch (loadNCtx nCtx) = Native.directMobileBatchMax := by
  unfold Native.directMobileBatch loadNCtx Native.directMobileBatchMax
  omega

theorem inferErrors_reason {text : KString} (member : text ∈ Native.inferErrors) :
    directErrorReason text ≠ modelNotLoaded := by
  have all : Native.inferErrors.all (fun text => decide (directErrorReason text ≠ modelNotLoaded)) = true := by
    decide +kernel
  exact of_decide_eq_true (List.all_eq_true.mp all text member)

theorem timeout_reason {reason : KString} (timeout : isTimeout reason = true) : reason ≠ modelNotLoaded := by
  intro same
  rw [same] at timeout
  exact absurd timeout (by decide +kernel)

namespace Stage

variable {e : DirectEngine} {id : Nat}

theorem loaded (up : e.Up) (idle : e.modelLoading = false) (request : DirectRequest) : Stage e request.loaded := by
  cases request with
  | warmupModel => exact ⟨idle, Or.inl up, by simp⟩
  | completeJson systemPrompt userPrompt => exact Or.inr ⟨rfl, idle, up⟩

theorem initialized {site : InitSite} (stage : Stage e (.ensureInitialized site)) (initialized : e.initialized = true) :
    Stage e site.initialized := by
  cases site with
  | inferJson =>
    rcases stage with ⟨loads, _⟩ | ⟨_, ready⟩
    · cases loads
    · exact ready
  | ensureModelLoaded path =>
    rcases stage with ⟨_, down⟩ | ⟨loads, _⟩
    · exact Or.inl ⟨rfl, down⟩
    · cases loads
  | loadModel path =>
    rcases stage with ⟨_, down⟩ | ⟨loads, _⟩
    · exact ⟨initialized, down⟩
    · cases loads

theorem failLoad (down : e.Down) (failure : DirectFailure) (other : failure ≠ .inference modelNotLoaded) :
    Stage (e.failLoad failure).1 (e.failLoad failure).2 :=
  ⟨rfl, Or.inr down, fun same => other (by simpa using same)⟩

theorem failInit {site : InitSite} (stage : Stage e (.nativeInit site)) :
    Stage (e.failInit site).1 (e.failInit site).2 := by
  cases site with
  | inferJson =>
    rcases stage with ⟨loads, _⟩ | ⟨_, idle, up⟩
    · cases loads
    · exact ⟨idle, Or.inl up, by simp⟩
  | ensureModelLoaded path =>
    rcases stage with ⟨_, down⟩ | ⟨loads, _⟩
    · exact failLoad down _ (by simp)
    · cases loads
  | loadModel path =>
    rcases stage with ⟨_, down⟩ | ⟨loads, _⟩
    · exact failLoad down _ (by simp)
    · cases loads

theorem inferred (up : e.Up) (idle : e.modelLoading = false) {raw : KString}
    (benign : startsWith raw directErrorPrefix = true → directErrorReason raw ≠ modelNotLoaded) :
    Stage e (DirectEngine.inferred raw) := by
  unfold DirectEngine.inferred
  split
  · rename_i error
    split
    · rename_i timeout
      exact ⟨idle, up, timeout⟩
    · refine ⟨idle, Or.inl up, ?_⟩
      intro same
      exact benign error (by simpa using same)
  · exact ⟨idle, Or.inl up, by simp⟩

theorem loadReturned {after : DirectEngine} {path : KString} {allocations : LoadAllocations} {request : DirectRequest}
    {next : Point} (stage : Stage e (.nativeLoadModel path)) (benign : Benign (.loadReturned allocations))
    (taken : e.advance id request (.nativeLoadModel path) (.loadReturned allocations) = some (after, next)) :
    Stage after next := by
  obtain ⟨made, returned, same⟩ := Option.map_eq_some_iff.mp taken
  obtain ⟨initialized, unloaded, empty⟩ := stage
  rcases nativeLoadModel_cases empty.toOwns e.nCtx allocations with ⟨_, native, code, failed, differs, stillEmpty⟩ |
    ⟨reached, ready, isReady, configured, completed⟩
  · rw [failed] at returned
    cases returned
    rw [if_neg differs] at same
    cases same
    have down : DirectEngine.Down { e with native := native } := ⟨unloaded, stillEmpty⟩
    exact failLoad down _ (by simp)
  · have succeed := benign reached
    rw [← directMobileBatch_load e.nCtx, ← configured] at succeed
    obtain ⟨native, made_eq, full⟩ := isReady.initBatch succeed
    rw [completed, made_eq] at returned
    cases returned
    cases same
    have up : DirectEngine.Up { e with native := native, resolvedModelPath := some path, modelLoaded := true }.endLoad :=
      ⟨rfl, initialized, full⟩
    exact loaded up rfl request

theorem inferReturned {after : DirectEngine} {tokens : Nat} {stop : InferStop} {request : DirectRequest} {next : Point}
    (stage : Stage e .nativeInfer) (benign : Benign (.inferReturned tokens stop))
    (taken : e.advance id request .nativeInfer (.inferReturned tokens stop) = some (after, next)) :
    Stage after next := by
  obtain ⟨made, returned, same⟩ := Option.map_eq_some_iff.mp taken
  obtain ⟨text, infers, reports⟩ := stage.2.2.2.infer ⟨request.prompts.1, request.prompts.2, tokens, stop⟩
  rw [infers] at returned
  cases returned
  cases same
  have up : DirectEngine.Up { e with native := e.native } := stage.2
  apply inferred up stage.1
  intro error
  rcases reports with member | ⟨steps, sampled, finished⟩
  · exact inferErrors_reason member
  · have generated : stop = .finished steps sampled text := finished
    rw [generated] at benign
    exact benign error

theorem advance {after : DirectEngine} {request : DirectRequest} {point next : Point} {outcome : DirectOutcome}
    (stage : Stage e point) (benign : Benign outcome)
    (taken : e.advance id request point outcome = some (after, next)) : Stage after next := by
  unfold DirectEngine.advance at taken
  split at taken
  · -- start
    cases taken
    split
    · rename_i flag
      rcases stage.2 with up | down
      · exact loaded up stage.1 request
      · rw [down.1] at flag
        cases flag
    · exact stage
  · -- awaitLoad
    split at taken
    · cases taken
    · split at taken
      · rename_i flag
        cases taken
        rcases stage.2 with up | down
        · exact loaded up stage.1 request
        · rw [down.1] at flag
          cases flag
      · rename_i flag
        cases taken
        rcases stage.2 with up | down
        · exact absurd up.1 flag
        · exact down
  · cases taken
    exact Or.inl ⟨rfl, stage⟩
  · cases taken
    exact failLoad stage _ (by simp)
  · -- ensureInitialized
    cases taken
    split
    · rename_i flag
      exact stage.initialized flag
    · exact stage
  · -- awaitMonitor
    split at taken
    · cases taken
    · split at taken
      · rename_i flag
        cases taken
        exact Stage.initialized stage flag
      · cases taken
        exact stage
  · -- nativeInit
    rename_i site succeeds
    split at taken
    · cases taken
      have now : Stage { e with monitor := none, initialized := true } (.ensureInitialized site) := by
        rcases stage with ⟨loads, down⟩ | ⟨infers, idle, up⟩
        · exact Or.inl ⟨loads, down⟩
        · exact Or.inr ⟨infers, idle, up.1, rfl, up.2.2⟩
      exact now.initialized rfl
    · have now : Stage { e with monitor := none } (.nativeInit site) := stage
      have ended := now.failInit
      rwa [Option.some.inj taken] at ended
  · -- checkFile
    rename_i path valid
    cases valid with
    | true =>
      cases taken
      exact stage
    | false =>
      cases taken
      exact failLoad stage.2 _ (by simp)
  · -- nativeLoadModel
    rename_i path allocations
    have returned : e.advance id request (.nativeLoadModel path) (.loadReturned allocations) = some (after, next) := taken
    exact stage.loadReturned benign returned
  · cases taken
    exact stage
  · -- nativeInfer
    rename_i tokens stop
    have returned : e.advance id request .nativeInfer (.inferReturned tokens stop) = some (after, next) := taken
    exact stage.inferReturned benign returned
  · -- awaitRecovery
    split at taken
    · cases taken
    · cases taken
      exact ⟨⟨rfl, rfl, stage.2.1.2.1, stage.2.2⟩, stage.2.1.2.2⟩
  · cases taken
    exact stage
  · -- unload
    cases taken
    rw [if_pos stage.1.initialized]
    exact stage
  · cases taken
    obtain ⟨recovering, full⟩ := stage
    exact ⟨⟨recovering.modelLoaded, recovering.modelLoading, recovering.initialized, recovering.timeout⟩,
      full.toOwns.unload⟩
  · -- shutdown
    rw [if_pos stage.1.initialized] at taken
    cases taken
    exact stage
  · cases taken
    obtain ⟨recovering, empty⟩ := stage
    refine ⟨recovering.modelLoading, Or.inr ⟨recovering.modelLoaded, empty⟩, ?_⟩
    intro same
    exact timeout_reason recovering.timeout (by simpa using same)
  · cases taken

end Stage

namespace DirectSession

/-- The flags say what is there, and no call failed for want of a model that was taken to be there. -/
structure Refines (s : DirectSession) : Prop where
  flags : s.engine.modelLoaded = true ↔ s.engine.initialized = true ∧ s.engine.native.AllLive
  idle : s.engine.modelLoading = false
  unloaded : s.engine.modelLoaded = false → s.engine.native.NoneLive
  notRefused : s.last ≠ some (.failed (.inference modelNotLoaded))

def Sound (s : DirectSession) : Prop :=
  s.engine.modelLoading = false ∧ (s.engine.Up ∨ s.engine.Down) ∧ s.last ≠ some (.failed (.inference modelNotLoaded))

theorem Sound.refines {s : DirectSession} (sound : s.Sound) : s.Refines := by
  obtain ⟨idle, up | down, last⟩ := sound
  · refine ⟨⟨fun _ => ⟨up.2.1, up.2.2.allLive⟩, fun _ => up.1⟩, idle, ?_, last⟩
    intro unloaded
    rw [up.1] at unloaded
    cases unloaded
  · refine ⟨⟨?_, ?_⟩, idle, fun _ => down.2.noneLive, last⟩
    · intro loaded
      rw [down.1] at loaded
      cases loaded
    · rintro ⟨_, all⟩
      obtain ⟨handle, _, present⟩ := all.1 s.engine.native.model (by simp)
      rw [down.2.model] at present
      cases present

def BenignCall (_ : DirectSession) (call : CompleteCall) : Prop := ∀ outcome ∈ call.outcomes, Benign outcome

instance (s : DirectSession) (call : CompleteCall) : Decidable (s.BenignCall call) :=
  inferInstanceAs (Decidable (∀ outcome ∈ call.outcomes, Benign outcome))

theorem Sound.step {s after : DirectSession} {call : CompleteCall} (sound : s.Sound) (benign : s.BenignCall call)
    (taken : s.step call = some after) : after.Sound := by
  obtain ⟨result, advanced, last, _⟩ := session_step_cases taken
  have begun : Stage s.engine .start := ⟨sound.1, sound.2.1⟩
  let staged (state : DirectEngine × Point) : Prop := Stage state.1 state.2
  have ended : staged (after.engine, .returned result) := by
    have keep : ∀ (state : DirectEngine × Point), ∀ outcome ∈ call.outcomes, ∀ next : DirectEngine × Point,
        staged state → state.1.advance s.calls call.request state.2 outcome = some next →
        staged next := fun _ outcome member _ stage moved => stage.advance (benign outcome member) moved
    exact follow_keeps keep begun advanced
  refine ⟨ended.1, ended.2.1, ?_⟩
  rw [last]
  intro same
  exact ended.2.2 (Option.some.inj same)

end DirectSession

theorem session_refines {nCtx : Int} {history : List (DirectSession × CompleteCall)} {final : DirectSession}
    (run : SessionRun nCtx history final) (benign : Guarded DirectSession.BenignCall history) :
    Always DirectSession.Refines history final := by
  have base : DirectSession.Sound { engine := { nCtx := nCtx } } := by
    refine ⟨rfl, Or.inr ⟨rfl, NativeSystem.initial_unloaded⟩, ?_⟩
    intro same
    cases same
  have keep : ∀ (s : DirectSession) (call : CompleteCall) (after : DirectSession), s.Sound → s.BenignCall call →
      s.step call = some after → after.Sound := fun _ _ _ sound benign taken => sound.step benign taken
  exact (run.always_of_guarded base keep benign).mono fun _ sound => sound.refines

section CompleteCalls

def inferOutcomes (stop : InferStop) : List DirectOutcome := [.proceed, .proceed, .inferReturned 9 stop]

/-- A warmup, an inference, one that times out and recovers, and a load that fails. -/
def warmupToFailedLoad : List CompleteCall :=
  [⟨.warmupModel, loadOutcomes everythingSucceeds⟩,
    ⟨mapChunk, .proceed :: inferOutcomes (.finished 8 true (txt "ja"))⟩,
    ⟨mapChunk, [.proceed, .proceed, .proceed] ++ timeoutOutcomes⟩,
    ⟨.warmupModel, loadOutcomes ⟨false, true, true, true, lowMemory⟩⟩]

theorem session_refines_warmup : ∃ final,
    follow DirectSession.step { engine := { nCtx := 512 } } warmupToFailedLoad = some final ∧
    Always DirectSession.Refines (trace DirectSession.step { engine := { nCtx := 512 } } warmupToFailedLoad) final ∧
    (trace DirectSession.step { engine := { nCtx := 512 } } warmupToFailedLoad).map
        (fun taken => (taken.1.engine.modelLoaded, taken.1.last)) =
      [(false, none), (true, some .warmedUp), (true, some (.completed (txt "ja"))),
        (false, some (.failed (.inference (txt "timeout"))))] ∧
    final.last = some (.failed (.load 1 (txt "model.gguf"))) := by
  obtain ⟨final, followed, observed⟩ : ∃ final,
      follow DirectSession.step { engine := { nCtx := 512 } } warmupToFailedLoad = some final ∧
      final.last = some (.failed (.load 1 (txt "model.gguf"))) := follow_reaches (by decide +kernel)
  have benign : Guarded DirectSession.BenignCall
      (trace DirectSession.step { engine := { nCtx := 512 } } warmupToFailedLoad) := by decide +kernel
  exact ⟨final, followed, session_refines (.of_follow followed) benign, by decide +kernel, observed⟩

def loadWithoutBatch : CompleteCall := ⟨.warmupModel, loadOutcomes ⟨true, true, true, true, lowMemory⟩⟩

def echoReport : CompleteCall :=
  ⟨mapChunk, loadOutcomes everythingSucceeds ++
    inferOutcomes (.finished 8 true (directErrorPrefix ++ txt " model not loaded"))⟩

/-- The model counts as loaded without a batch; and a generated text is taken for the
    report of a missing model. -/
theorem flags_do_not_refine :
    (∃ history final, SessionRun 512 history final ∧ ¬ final.Refines) ∧
    ∃ history final, SessionRun 512 history final ∧ final.last = some (.failed (.inference modelNotLoaded)) := by
  constructor
  · obtain ⟨final, followed, loaded, token⟩ : ∃ final,
        follow DirectSession.step { engine := { nCtx := 512 } } [loadWithoutBatch] = some final ∧
        final.engine.modelLoaded = true ∧ final.engine.native.batch.token = none := follow_reaches (by decide +kernel)
    refine ⟨_, final, Run.of_follow followed, ?_⟩
    intro refines
    obtain ⟨_, all, _⟩ := refines.flags.mp loaded
    obtain ⟨handle, _, same⟩ := all final.engine.native.batch.token (by simp [LlamaBatch.pointers])
    rw [token] at same
    cases same
  · obtain ⟨final, followed, observed⟩ : ∃ final,
        follow DirectSession.step { engine := { nCtx := 512 } } [echoReport] = some final ∧
        final.last = some (.failed (.inference modelNotLoaded)) := follow_reaches (by decide +kernel)
    exact ⟨_, final, Run.of_follow followed, observed⟩

end CompleteCalls

end Engine
