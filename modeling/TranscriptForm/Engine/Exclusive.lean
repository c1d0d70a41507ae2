import TranscriptForm.Engine.Batch
import TranscriptForm.Engine.DirectLlama

namespace Engine

open Kotlin Interleaving Transition

def InitSite.loads : InitSite → Bool
  | .inferJson => false
  | _ => true

namespace Point

def inNative : Point → Bool
  | .nativeInfer | .nativeLoadModel _ | .nativeUnload _ | .nativeShutdown _ => true
  | _ => false

def loads : Point → Bool
  | .resolvePath | .checkFile _ | .nativeLoadModel _ => true
  | .ensureInitialized site | .awaitMonitor site | .nativeInit site => site.loads
  | _ => false

def recovers : Point → Bool
  | .cancel _ | .unload _ | .nativeUnload _ | .shutdown _ | .nativeShutdown _ => true
  | _ => false

def followsInfer : Point → Bool
  | .nativeInfer | .awaitRecovery _ => true
  | point => point.recovers

/-- `nativeInfer` or its failure, before the recovery has cleared the flags. -/
def reliesOnModel : Point → Bool
  | .nativeInfer | .awaitRecovery _ => true
  | _ => false

end Point

theorem InitSite.initialized_loads (site : InitSite) : site.initialized.loads = site.loads := by
  cases site <;> rfl

theorem InitSite.initialized_followsInfer (site : InitSite) : site.initialized.followsInfer = false := by
  cases site <;> rfl

theorem DirectRequest.loaded_loads (request : DirectRequest) : request.loaded.loads = false := by
  cases request <;> rfl

theorem DirectRequest.loaded_followsInfer (request : DirectRequest) : request.loaded.followsInfer = false := by
  cases request <;> rfl

namespace DirectEngine

inductive Move (e : DirectEngine) (id : Nat) (point : Point) (after : DirectEngine) (next : Point) : Prop
  | quiet (mutex : after.mutex = e.mutex) (modelLoaded : after.modelLoaded = e.modelLoaded)
      (loads : next.loads = point.loads) (before : point.followsInfer = false) (later : next.followsInfer = false)
  | beginsLoad (free : e.mutex = none) (unloaded : e.modelLoaded = false) (mutex : after.mutex = some id)
      (modelLoaded : after.modelLoaded = false) (later : next = .resolvePath)
  | endsLoad (before : point.loads = true) (mutex : after.mutex = none)
      (modelLoaded : after.modelLoaded = e.modelLoaded ∨ after.modelLoaded = true) (loads : next.loads = false)
      (later : next.followsInfer = false)
  | beginsInfer (before : point = .enterInfer) (same : after = e) (later : next = .nativeInfer)
  | endsInfer (before : point = .nativeInfer) (mutex : after.mutex = e.mutex)
      (modelLoaded : after.modelLoaded = e.modelLoaded) (loads : next.loads = false) (recovers : next.recovers = false)
  | beginsRecovery (before : point.followsInfer = true) (free : e.mutex = none) (mutex : after.mutex = some id)
      (modelLoaded : after.modelLoaded = false) (loads : next.loads = false) (relies : next.reliesOnModel = false)
  | recovers (before : point.recovers = true) (mutex : after.mutex = e.mutex)
      (modelLoaded : after.modelLoaded = e.modelLoaded) (later : next.recovers = true)
  | endsRecovery (before : point.recovers = true) (mutex : after.mutex = none)
      (modelLoaded : after.modelLoaded = e.modelLoaded) (loads : next.loads = false) (later : next.followsInfer = false)

theorem advance_move {e after : DirectEngine} {id : Nat} {request : DirectRequest} {point next : Point}
    {outcome : DirectOutcome} (taken : e.advance id request point outcome = some (after, next)) :
    e.Move id point after next := by
  unfold advance at taken
  split at taken
  · -- start
    cases taken
    refine .quiet rfl rfl ?_ rfl ?_
    · split
      · exact request.loaded_loads
      · rfl
    · split
      · exact request.loaded_followsInfer
      · rfl
  · -- awaitLoad
    split at taken
    · cases taken
    · rename_i free
      split at taken
      · cases taken
        exact .quiet rfl rfl request.loaded_loads rfl request.loaded_followsInfer
      · rename_i unloaded
        cases taken
        exact .beginsLoad (by simpa using free) (by simpa using unloaded) rfl (by simpa using unloaded) rfl
  · cases taken
    exact .quiet rfl rfl rfl rfl rfl
  · cases taken
    exact .endsLoad rfl rfl (Or.inl rfl) rfl rfl
  · -- ensureInitialized
    rename_i site
    cases taken
    refine .quiet rfl rfl ?_ rfl ?_
    · split
      · exact site.initialized_loads
      · rfl
    · split
      · exact site.initialized_followsInfer
      · rfl
  · -- awaitMonitor
    rename_i site
    split at taken
    · cases taken
    · split at taken
      · cases taken
        exact .quiet rfl rfl site.initialized_loads rfl site.initialized_followsInfer
      · cases taken
        exact .quiet rfl rfl rfl rfl rfl
  · -- nativeInit
    rename_i site succeeds
    split at taken
    · cases taken
      exact .quiet rfl rfl site.initialized_loads rfl site.initialized_followsInfer
    · cases site with
      | inferJson =>
        cases taken
        exact .quiet rfl rfl rfl rfl rfl
      | ensureModelLoaded path =>
        cases taken
        exact .endsLoad rfl rfl (Or.inl rfl) rfl rfl
      | loadModel path =>
        cases taken
        exact .endsLoad rfl rfl (Or.inl rfl) rfl rfl
  · -- checkFile
    rename_i path valid
    cases valid with
    | true =>
      cases taken
      exact .quiet rfl rfl rfl rfl rfl
    | false =>
      cases taken
      exact .endsLoad rfl rfl (Or.inl rfl) rfl rfl
  · -- nativeLoadModel
    obtain ⟨made, returned, same⟩ := Option.map_eq_some_iff.mp taken
    split at same
    · cases same
      exact .endsLoad rfl rfl (Or.inr rfl) request.loaded_loads request.loaded_followsInfer
    · cases same
      exact .endsLoad rfl rfl (Or.inl rfl) rfl rfl
  · cases taken
    exact .beginsInfer rfl rfl rfl
  · -- nativeInfer
    obtain ⟨made, returned, same⟩ := Option.map_eq_some_iff.mp taken
    cases same
    refine .endsInfer rfl rfl rfl ?_ ?_
    · unfold inferred
      split
      · split <;> rfl
      · rfl
    · unfold inferred
      split
      · split <;> rfl
      · rfl
  · -- awaitRecovery
    split at taken
    · cases taken
    · rename_i free
      cases taken
      exact .beginsRecovery rfl (by simpa using free) rfl rfl rfl rfl
  · cases taken
    exact .recovers rfl rfl rfl rfl
  · -- unload
    cases taken
    refine .recovers rfl rfl rfl ?_
    split <;> rfl
  · cases taken
    exact .recovers rfl rfl rfl rfl
  · -- shutdown
    split at taken
    · cases taken
      exact .recovers rfl rfl rfl rfl
    · cases taken
      exact .endsRecovery rfl rfl rfl rfl rfl
  · cases taken
    exact .endsRecovery rfl rfl rfl rfl rfl
  · cases taken

end DirectEngine

theorem Point.followsInfer_of_recovers {point : Point} (recovers : point.recovers = true) :
    point.followsInfer = true ∧ point.loads = false ∧ point.reliesOnModel = false := by
  cases point with
  | cancel reason => exact ⟨rfl, rfl, rfl⟩
  | unload reason => exact ⟨rfl, rfl, rfl⟩
  | nativeUnload reason => exact ⟨rfl, rfl, rfl⟩
  | shutdown reason => exact ⟨rfl, rfl, rfl⟩
  | nativeShutdown reason => exact ⟨rfl, rfl, rfl⟩
  | _ => cases recovers

theorem Point.followsInfer_of_relies {point : Point} (relies : point.reliesOnModel = true) :
    point.followsInfer = true := by
  cases point with
  | nativeInfer => rfl
  | awaitRecovery reason => rfl
  | _ => cases relies

/-- Where a call stands, it has the mutex it needs and the flag says what it goes by. -/
structure Placed (e : DirectEngine) (id : Nat) (point : Point) : Prop where
  locked : point.loads = true ∨ point.recovers = true → e.mutex = some id
  unloaded : point.loads = true → e.modelLoaded = false
  loaded : point.reliesOnModel = true → e.modelLoaded = true

theorem Placed.congr {e after : DirectEngine} {id : Nat} {point : Point} (placed : Placed e id point)
    (mutex : after.mutex = e.mutex) (modelLoaded : after.modelLoaded = e.modelLoaded) : Placed after id point := by
  refine ⟨?_, ?_, ?_⟩
  · rw [mutex]
    exact placed.locked
  · rw [modelLoaded]
    exact placed.unloaded
  · rw [modelLoaded]
    exact placed.loaded

theorem Placed.free (e : DirectEngine) (id : Nat) {point : Point} (loads : point.loads = false)
    (follows : point.followsInfer = false) : Placed e id point := by
  refine ⟨?_, ?_, ?_⟩
  · rintro (loading | recovers)
    · rw [loads] at loading
      cases loading
    · rw [(Point.followsInfer_of_recovers recovers).1] at follows
      cases follows
  · intro loading
    rw [loads] at loading
    cases loading
  · intro relies
    rw [Point.followsInfer_of_relies relies] at follows
    cases follows

theorem Placed.unlocked {e : DirectEngine} {id : Nat} {point : Point} (placed : Placed e id point)
    (other : e.mutex ≠ some id) : point.loads = false ∧ point.recovers = false := by
  have neither : ¬ (point.loads = true ∨ point.recovers = true) := fun locked => other (placed.locked locked)
  simpa using neither

theorem Placed.unlocked_beside {e : DirectEngine} {id other : Nat} {point : Point} (placed : Placed e other point)
    (held : e.mutex = some id) (differs : other ≠ id) : point.loads = false ∧ point.recovers = false := by
  apply placed.unlocked
  rw [held]
  intro same
  exact differs (Option.some.inj same).symm

theorem Placed.of_unlocked {e : DirectEngine} {id : Nat} {point : Point}
    (unlocked : point.loads = false ∧ point.recovers = false)
    (loaded : point.reliesOnModel = true → e.modelLoaded = true) : Placed e id point := by
  refine ⟨?_, ?_, loaded⟩
  · rintro (loads | recovers)
    · rw [unlocked.1] at loads
      cases loads
    · rw [unlocked.2] at recovers
      cases recovers
  · intro loads
    rw [unlocked.1] at loads
    cases loads

def exclusion : Assertions DirectEngine DirectCall where
  shared _ := True
  thread e id call := Placed e id call.point
  pair call other := ¬ (call.point.followsInfer = true ∧ other.point.followsInfer = true)

/-- A call enters `nativeInfer` only while the model is loaded and no other call is
    between its own entry and the end of what follows from it. -/
def EntersAlone (s : DirectSystem) (event : DirectEvent) : Prop :=
  ∀ id outcome call, event = .advance id outcome → s.threads id = some call → call.point = .enterInfer →
    s.shared.modelLoaded = true ∧
      ∀ other otherCall, other ≠ id → s.threads other = some otherCall → otherCall.point.followsInfer = false

def Exclusive (s : DirectSystem) : Prop :=
  ∀ id other, id ≠ other → ∀ call otherCall, s.threads id = some call → s.threads other = some otherCall →
    call.point = .nativeInfer → otherCall.point.inNative = false

theorem exclusive_of_hold {s : DirectSystem} (hold : exclusion.Hold s) : Exclusive s := by
  intro id other differs call otherCall found otherFound infers
  have own := hold.thread id call found
  have others := hold.thread other otherCall otherFound
  have apart := hold.pair id other differs call otherCall found otherFound
  have loaded : s.shared.modelLoaded = true := own.loaded (by rw [infers]; rfl)
  have follows : otherCall.point.followsInfer ≠ true := by
    intro follows
    exact apart ⟨by rw [infers]; rfl, follows⟩
  cases point : otherCall.point with
  | nativeLoadModel path =>
    have unloaded := others.unloaded (by rw [point]; rfl)
    rw [loaded] at unloaded
    cases unloaded
  | nativeInfer => exact absurd (by rw [point]; rfl) follows
  | nativeUnload reason => exact absurd (by rw [point]; rfl) follows
  | nativeShutdown reason => exact absurd (by rw [point]; rfl) follows
  | _ => rfl

theorem exclusion_advance {s : DirectSystem} (hold : exclusion.Hold s) {id : Nat} {call : DirectCall}
    (found : s.threads id = some call) {after : DirectEngine} {next : Point}
    (move : s.shared.Move id call.point after next)
    (alone : call.point = .enterInfer → s.shared.modelLoaded = true ∧
      ∀ other otherCall, other ≠ id → s.threads other = some otherCall → otherCall.point.followsInfer = false) :
    Placed after id next ∧ ∀ other otherCall, other ≠ id → s.threads other = some otherCall →
      Placed after other otherCall.point ∧ ¬ (next.followsInfer = true ∧ otherCall.point.followsInfer = true) := by
  have own := hold.thread id call found
  have places := hold.thread
  have apart : ∀ other otherCall, other ≠ id → s.threads other = some otherCall → call.point.followsInfer = true →
      otherCall.point.followsInfer = false := by
    intro other otherCall differs otherFound follows
    have both := hold.pair id other differs.symm call otherCall found otherFound
    simpa [exclusion, follows] using both
  cases move with
  | quiet mutex modelLoaded loads before later =>
    refine ⟨?_, fun other otherCall differs otherFound => ⟨(places other otherCall otherFound).congr mutex modelLoaded, ?_⟩⟩
    · have neither : next.recovers = false ∧ next.reliesOnModel = false := by
        constructor
        · by_contra recovers
          rw [(Point.followsInfer_of_recovers (by simpa using recovers)).1] at later
          cases later
        · by_contra relies
          rw [Point.followsInfer_of_relies (by simpa using relies)] at later
          cases later
      refine ⟨?_, ?_, ?_⟩
      · rw [mutex, loads, neither.1]
        rintro (loading | recovers)
        · exact own.locked (Or.inl loading)
        · cases recovers
      · rw [modelLoaded, loads]
        exact own.unloaded
      · rw [neither.2]
        intro relies
        cases relies
    · rw [later]
      simp
  | beginsLoad free unloaded mutex modelLoaded later =>
    refine ⟨⟨fun _ => mutex, fun _ => modelLoaded, ?_⟩, ?_⟩
    · rw [later]
      intro relies
      cases relies
    · intro other otherCall differs otherFound
      have place := places other otherCall otherFound
      refine ⟨.of_unlocked (place.unlocked (by rw [free]; simp)) ?_, by rw [later]; simp [Point.followsInfer, Point.recovers]⟩
      intro relies
      have loaded := place.loaded relies
      rw [unloaded] at loaded
      cases loaded
  | endsLoad before mutex modelLoaded loads later =>
    refine ⟨.free after id loads later, ?_⟩
    intro other otherCall differs otherFound
    have place := places other otherCall otherFound
    have unlocked := place.unlocked_beside (own.locked (Or.inl before)) differs
    refine ⟨.of_unlocked unlocked ?_, by rw [later]; simp⟩
    intro relies
    rcases modelLoaded with same | loaded
    · rw [same]
      exact place.loaded relies
    · exact loaded
  | beginsInfer before same later =>
    obtain ⟨loaded, none⟩ := alone before
    rw [same, later]
    refine ⟨⟨?_, ?_, fun _ => loaded⟩, ?_⟩
    · rintro (loads | recovers)
      · cases loads
      · cases recovers
    · intro loads
      cases loads
    · intro other otherCall differs otherFound
      refine ⟨places other otherCall otherFound, ?_⟩
      rw [none other otherCall differs otherFound]
      simp
  | endsInfer before mutex modelLoaded loads recovers =>
    refine ⟨?_, ?_⟩
    · refine .of_unlocked ⟨loads, recovers⟩ ?_
      intro _
      rw [modelLoaded]
      exact own.loaded (by rw [before]; rfl)
    · intro other otherCall differs otherFound
      refine ⟨(places other otherCall otherFound).congr mutex modelLoaded, ?_⟩
      rw [apart other otherCall differs otherFound (by rw [before]; rfl)]
      simp
  | beginsRecovery before free mutex modelLoaded loads relies =>
    refine ⟨⟨fun _ => mutex, fun _ => modelLoaded, ?_⟩, ?_⟩
    · rw [relies]
      intro other
      cases other
    · intro other otherCall differs otherFound
      have place := places other otherCall otherFound
      have follows := apart other otherCall differs otherFound before
      refine ⟨.of_unlocked (place.unlocked (by rw [free]; simp)) ?_, by rw [follows]; simp⟩
      intro otherRelies
      rw [Point.followsInfer_of_relies otherRelies] at follows
      cases follows
  | recovers before mutex modelLoaded later =>
    obtain ⟨follows, _, _⟩ := Point.followsInfer_of_recovers before
    obtain ⟨_, loads, relies⟩ := Point.followsInfer_of_recovers later
    refine ⟨⟨?_, ?_, ?_⟩, ?_⟩
    · intro _
      rw [mutex]
      exact own.locked (Or.inr before)
    · rw [loads]
      intro other
      cases other
    · rw [relies]
      intro other
      cases other
    · intro other otherCall differs otherFound
      refine ⟨(places other otherCall otherFound).congr mutex modelLoaded, ?_⟩
      rw [apart other otherCall differs otherFound follows]
      simp
  | endsRecovery before mutex modelLoaded loads later =>
    refine ⟨.free after id loads later, ?_⟩
    intro other otherCall differs otherFound
    have place := places other otherCall otherFound
    have unlocked := place.unlocked_beside (own.locked (Or.inr before)) differs
    refine ⟨.of_unlocked unlocked ?_, by rw [later]; simp⟩
    rw [modelLoaded]
    exact place.loaded

theorem exclusion_step {s after : DirectSystem} {event : DirectEvent} (hold : exclusion.Hold s)
    (alone : EntersAlone s event) (taken : directCode.step s event = some after) : exclusion.Hold after := by
  have symmetric : ∀ call other, exclusion.pair call other → exclusion.pair other call :=
    fun _ _ apart both => apart ⟨both.2, both.1⟩
  cases event with
  | spawn id request =>
    obtain ⟨free, next, started, rfl⟩ := step_spawn taken
    cases started
    apply hold.put symmetric id _ True.intro
    · exact .free _ id rfl rfl
    · intro other call differs found
      exact ⟨hold.thread other call found, by simp [exclusion, Point.followsInfer, Point.recovers]⟩
  | advance id outcome =>
    obtain ⟨call, next, found, stepped, rfl⟩ := step_advance taken
    obtain ⟨moved, advanced, rfl⟩ := Option.map_eq_some_iff.mp stepped
    have move := DirectEngine.advance_move advanced
    obtain ⟨own, others⟩ := exclusion_advance hold found move fun entering =>
      alone id outcome call rfl found entering
    exact hold.put symmetric id _ True.intro own others

theorem exclusive_of_entersAlone {nCtx : Int} {history : List (DirectSystem × DirectEvent)} {final : DirectSystem}
    (run : DirectRun nCtx history final) (alone : Guarded EntersAlone history) : Always Exclusive history final := by
  have keep : ∀ (s : DirectSystem) (event : DirectEvent) (after : DirectSystem), exclusion.Hold s →
      EntersAlone s event → directCode.step s event = some after → exclusion.Hold after :=
    fun _ _ _ hold entering taken => exclusion_step hold entering taken
  have always := run.always_of_guarded (.empty True.intro) keep alone
  exact always.mono fun _ hold => exclusive_of_hold hold

section TwoInferences

def mapChunk : DirectRequest := .completeJson (txt "system") (txt "chunk")

def loadOutcomes (allocations : LoadAllocations) : List DirectOutcome :=
  [.proceed, .proceed, .resolved (some (txt "model.gguf")), .proceed, .proceed, .initReturned true, .proceed,
    .fileChecked true, .loadReturned allocations]

def timeoutOutcomes : List DirectOutcome :=
  .inferReturned 9 (.beforeSample 2 .timeout) :: List.replicate 6 .proceed

def enterOutcomes : List DirectOutcome := loadOutcomes everythingSucceeds ++ ([.proceed, .proceed] : List DirectOutcome)

def loadAndInfer (id : Nat) : List DirectEvent := .spawn id mapChunk :: enterOutcomes.map (.advance id)

def EntersAloneBelow (bound : Nat) (s : DirectSystem) : DirectEvent → Prop
  | .spawn _ _ => True
  | .advance id _ => ∀ call ∈ s.threads id, call.point = .enterInfer → s.shared.modelLoaded = true ∧
      ∀ other < bound, ∀ otherCall ∈ s.threads other, other ≠ id → otherCall.point.followsInfer = false

instance (bound : Nat) (s : DirectSystem) : (event : DirectEvent) → Decidable (EntersAloneBelow bound s event)
  | .spawn _ _ => .isTrue True.intro
  | .advance id _ => inferInstanceAs (Decidable (∀ call ∈ s.threads id, call.point = .enterInfer →
      s.shared.modelLoaded = true ∧
        ∀ other < bound, ∀ otherCall ∈ s.threads other, other ≠ id → otherCall.point.followsInfer = false))

theorem EntersAlone.of_below {bound : Nat} {s : DirectSystem} {event : DirectEvent} (below : s.Below bound)
    (alone : EntersAloneBelow bound s event) : EntersAlone s event := by
  rintro id outcome call rfl found entering
  obtain ⟨loaded, others⟩ := alone call found entering
  refine ⟨loaded, fun other otherCall differs otherFound => ?_⟩
  exact below.every (fun other otherCall => other ≠ id → otherCall.point.followsInfer = false) others other otherCall
    otherFound differs

/-- While the first call infers, a second one comes; it waits for the recovery from the first one's
    timeout, loads the model again and infers, and a third one returns beside it. -/
def inferAfterRecovery : List DirectEvent :=
  loadAndInfer 0 ++ ([.spawn 1 mapChunk] : List DirectEvent) ++
    (timeoutOutcomes.take 2).map (.advance 0 : DirectOutcome → DirectEvent) ++
    ([.advance 1 .proceed] : List DirectEvent) ++
    (timeoutOutcomes.drop 2).map (.advance 0 : DirectOutcome → DirectEvent) ++
    enterOutcomes.tail.map (.advance 1 : DirectOutcome → DirectEvent) ++
    ([.spawn 2 .warmupModel, .advance 2 .proceed,
      .advance 1 (.inferReturned 9 (.finished 3 true (txt "\x7b\x7d")))] : List DirectEvent)

theorem exclusive_of_entersAlone_recovered : ∃ final,
    follow directCode.step (directInitial 512) inferAfterRecovery = some final ∧
    Always Exclusive (trace directCode.step (directInitial 512) inferAfterRecovery) final ∧
    final.threads 0 = some ⟨mapChunk, .returned (.failed (.inference (txt "timeout")))⟩ ∧
    final.threads 1 = some ⟨mapChunk, .returned (.completed (txt "\x7b\x7d"))⟩ ∧
    final.threads 2 = some ⟨.warmupModel, .returned .warmedUp⟩ := by
  obtain ⟨final, followed, observed⟩ : ∃ final,
      follow directCode.step (directInitial 512) inferAfterRecovery = some final ∧
      final.threads 0 = some ⟨mapChunk, .returned (.failed (.inference (txt "timeout")))⟩ ∧
      final.threads 1 = some ⟨mapChunk, .returned (.completed (txt "\x7b\x7d"))⟩ ∧
      final.threads 2 = some ⟨.warmupModel, .returned .warmedUp⟩ := follow_reaches (by decide +kernel)
  have run : DirectRun 512 (trace directCode.step (directInitial 512) inferAfterRecovery) final := .of_follow followed
  have below : Always (System.Below 3) (trace directCode.step (directInitial 512) inferAfterRecovery) final :=
    always_below run (fun _ _ => rfl) (by decide +kernel)
  have checked : Guarded (EntersAloneBelow 3) (trace directCode.step (directInitial 512) inferAfterRecovery) := by
    decide +kernel
  have alone : Guarded EntersAlone (trace directCode.step (directInitial 512) inferAfterRecovery) :=
    fun taken member => .of_below (below.1 taken member) (checked taken member)
  exact ⟨final, followed, exclusive_of_entersAlone run alone, observed⟩

def inferBeside (id : Nat) : List DirectEvent :=
  [.spawn id mapChunk, .advance id .proceed, .advance id .proceed, .advance id .proceed]

/-- A second call finds the model loaded and enters `nativeInfer` beside the first. -/
theorem two_inferences : ∃ history final, DirectRun 512 history final ∧
    follow directCode.step (directInitial 512) (loadAndInfer 0 ++ inferBeside 1) = some final ∧ ¬ Exclusive final := by
  obtain ⟨final, followed, first, second⟩ : ∃ final,
      follow directCode.step (directInitial 512) (loadAndInfer 0 ++ inferBeside 1) = some final ∧
      final.threads 0 = some ⟨mapChunk, .nativeInfer⟩ ∧ final.threads 1 = some ⟨mapChunk, .nativeInfer⟩ :=
    follow_reaches (by decide +kernel)
  refine ⟨_, final, Run.of_follow followed, followed, ?_⟩
  intro exclusive
  have outside := exclusive 0 1 (by decide) _ _ first second rfl
  cases outside

end TwoInferences

end Engine
