import TranscriptForm.ViewModel.FormViewModel

namespace Form

open Kotlin Transition

structure TranscriptionUiState where
  isLoading : Bool := false
  segments : List TranscriptSegment := []
  error : Option KString := none
  debugLogs : List KString := []
  deriving DecidableEq

/-- A call that has passed its check. Its use case is chosen when its coroutine starts. -/
structure TranscriptionJob where
  id : Nat
  audioFilePath : KString
  useCase : Option FormAutomationMode := none
  deriving DecidableEq

structure TranscriptionSystem where
  supportsOnDevice : Bool
  automationMode : FormAutomationMode := .cloud
  uiState : TranscriptionUiState := {}
  launched : List TranscriptionJob := []
  inFlight : List TranscriptionJob := []
  nextJob : Nat := 0
  results : List TranscriptionResponse := []
  deriving DecidableEq

namespace TranscriptionViewModel

open FormViewModel (number takeLast)

def maxLogEntries : Nat := 20

def appendLog (message : KString) (s : TranscriptionSystem) : TranscriptionSystem :=
  { s with uiState := { s.uiState with debugLogs := takeLast maxLogEntries (s.uiState.debugLogs ++ [message]) } }

/-- The check on the calling thread, which launches the coroutine. -/
def transcribe (audioFilePath : KString) (s : TranscriptionSystem) : TranscriptionSystem :=
  if s.uiState.isLoading then s
  else { s with launched := s.launched ++ [⟨s.nextJob, audioFilePath, none⟩], nextJob := s.nextJob + 1 }

def activeUseCase (s : TranscriptionSystem) : FormAutomationMode :=
  match s.automationMode with
  | .cloud => .cloud
  | .onDevice => if s.supportsOnDevice then .onDevice else .cloud

def announceTranscription (audioFilePath : KString) (s : TranscriptionSystem) : TranscriptionSystem :=
  let s := appendLog (txt "Transkriptions-Start: mode=" ++ s.automationMode.name) s
  let s := appendLog
    (if s.automationMode = .onDevice then txt "Transkriptionsmodus: On Device" else txt "Transkriptionsmodus: Cloud") s
  let s := appendLog (txt "Transkription gestartet") s
  appendLog (txt "Audio-Quelle: " ++ takeLast 60 audioFilePath) s

/-- The coroutine on the main thread up to `withContext`. -/
def startTranscription (job : TranscriptionJob) (s : TranscriptionSystem) : TranscriptionSystem :=
  let s := announceTranscription job.audioFilePath s
  { s with
    uiState := { s.uiState with isLoading := true, error := none }
    launched := s.launched.erase job
    inFlight := s.inFlight ++ [{ job with useCase := some (activeUseCase s) }] }

def transcriptionSucceeded (durationMs : Nat) (data : TranscriptionResponse) (s : TranscriptionSystem) :
    TranscriptionSystem :=
  let s := appendLog (txt "Transkript-Ergebnis: textLen=" ++ number (trim data.text).length ++ txt ", segments=" ++
    number data.segments.length ++ txt ", words=" ++ number data.words.length) s
  let s := appendLog (txt "Transkriptions-Ende: " ++ number durationMs ++ txt "ms") s
  { s with
    uiState := { s.uiState with isLoading := false, segments := data.segments }
    results := s.results ++ [data] }

def transcriptionFailed (durationMs : Nat) (message : KString) (s : TranscriptionSystem) : TranscriptionSystem :=
  let s := appendLog (txt "Transkription fehlgeschlagen: " ++ message) s
  let s := appendLog (txt "Transkriptions-Ende (Fehler): " ++ number durationMs ++ txt "ms") s
  let s := if s.automationMode = .onDevice then appendLog (txt "On-Device-Diagnose: " ++ message) s else s
  { s with
    uiState := { s.uiState with isLoading := false, error := some (txt "Transkription fehlgeschlagen: " ++ message) } }

/-- The coroutine after `withContext`, back on the main thread. -/
def completeTranscription (job : TranscriptionJob) (result : AppResult TranscriptionResponse) (durationMs : Nat)
    (s : TranscriptionSystem) : TranscriptionSystem :=
  let s := { s with inFlight := s.inFlight.erase job }
  match result with
  | .success data => transcriptionSucceeded durationMs data s
  | .error message _ => transcriptionFailed durationMs message s

def setAutomationMode (mode : FormAutomationMode) (s : TranscriptionSystem) : TranscriptionSystem :=
  if mode = s.automationMode then s
  else appendLog (if mode = .onDevice then txt "Transkription: On Device" else txt "Transkription: Cloud")
    { s with automationMode := mode }

end TranscriptionViewModel

/-- A call comes from any thread. Its check, the start of its coroutine and the
    completion are steps of their own. -/
inductive TranscriptionEvent
  | transcribe (audioFilePath : KString)
  | started (id : Nat)
  | completed (id : Nat) (result : AppResult TranscriptionResponse) (durationMs : Nat)
  | setAutomationMode (mode : FormAutomationMode)
  deriving DecidableEq

namespace TranscriptionSystem

open TranscriptionViewModel in
def step (s : TranscriptionSystem) : TranscriptionEvent → Option TranscriptionSystem
  | .transcribe audioFilePath => some (transcribe audioFilePath s)
  | .started id =>
    match s.launched.find? fun job => job.id == id with
    | some job => some (startTranscription job s)
    | none => none
  | .completed id result durationMs =>
    match s.inFlight.find? fun job => job.id == id with
    | some job => some (completeTranscription job result durationMs s)
    | none => none
  | .setAutomationMode mode => some (TranscriptionViewModel.setAutomationMode mode s)

def SingleFlight (s : TranscriptionSystem) : Prop :=
  s.inFlight.length ≤ 1 ∧ (s.uiState.isLoading = true ↔ s.inFlight ≠ [])

/-- The check a call has passed still holds when its coroutine starts. -/
def StartsIdle (s : TranscriptionSystem) (event : TranscriptionEvent) : Prop :=
  ∀ id, event = .started id → s.uiState.isLoading = false

instance (s : TranscriptionSystem) : (event : TranscriptionEvent) → Decidable (s.StartsIdle event)
  | .started id =>
    decidable_of_iff (s.uiState.isLoading = false) ⟨fun idle _ _ => idle, fun starts => starts id rfl⟩
  | .transcribe _ | .completed _ _ _ | .setAutomationMode _ => .isTrue (by rintro _ ⟨⟩)

section Logs

open TranscriptionViewModel

def flight (s : TranscriptionSystem) : Bool × List TranscriptionJob := (s.uiState.isLoading, s.inFlight)

theorem SingleFlight.congr {s after : TranscriptionSystem} (single : s.SingleFlight) (same : after.flight = s.flight) :
    after.SingleFlight := by
  obtain ⟨loading, inFlight⟩ := Prod.mk.inj same
  unfold SingleFlight
  rw [loading, inFlight]
  exact single

@[simp] theorem appendLog_flight (message : KString) (s : TranscriptionSystem) :
    (appendLog message s).flight = s.flight := by
  simp only [flight, appendLog]

theorem transcribe_flight (audioFilePath : KString) (s : TranscriptionSystem) :
    (transcribe audioFilePath s).flight = s.flight := by
  unfold transcribe
  split
  · rfl
  · rfl

theorem setAutomationMode_flight (mode : FormAutomationMode) (s : TranscriptionSystem) :
    (TranscriptionViewModel.setAutomationMode mode s).flight = s.flight := by
  unfold TranscriptionViewModel.setAutomationMode
  split
  · rfl
  · rfl

theorem announceTranscription_flight (audioFilePath : KString) (s : TranscriptionSystem) :
    (announceTranscription audioFilePath s).flight = s.flight := by
  simp only [announceTranscription, appendLog_flight]

theorem startTranscription_flight (job : TranscriptionJob) (s : TranscriptionSystem) :
    ∃ started, (startTranscription job s).flight = (true, s.inFlight ++ [started]) := by
  have kept : (announceTranscription job.audioFilePath s).inFlight = s.inFlight :=
    congrArg Prod.snd (announceTranscription_flight job.audioFilePath s)
  refine ⟨{ job with useCase := some (activeUseCase (announceTranscription job.audioFilePath s)) }, ?_⟩
  simp only [startTranscription, flight, kept]

theorem completeTranscription_flight (job : TranscriptionJob) (result : AppResult TranscriptionResponse)
    (durationMs : Nat) (s : TranscriptionSystem) :
    (completeTranscription job result durationMs s).flight = (false, s.inFlight.erase job) := by
  have logged : ∀ (message : KString) (t : TranscriptionSystem), (appendLog message t).inFlight = t.inFlight :=
    fun _ _ => rfl
  cases result with
  | success data => simp only [completeTranscription, transcriptionSucceeded, flight, logged]
  | error message cause =>
    simp only [completeTranscription, transcriptionFailed, flight]
    split
    · simp only [logged]
    · simp only [logged]

end Logs

theorem SingleFlight.idle {s : TranscriptionSystem} (single : s.SingleFlight) (loading : s.uiState.isLoading = false) :
    s.inFlight = [] := by
  have none : ¬ s.inFlight ≠ [] := by
    rw [← single.2, loading]
    decide
  exact not_not.mp none

theorem step_started {s after : TranscriptionSystem} {id : Nat} (taken : s.step (.started id) = some after) :
    ∃ started, after.flight = (true, s.inFlight ++ [started]) := by
  simp only [step] at taken
  split at taken
  · cases taken
    exact startTranscription_flight _ s
  · cases taken

theorem step_completed {s after : TranscriptionSystem} {id durationMs : Nat} {result : AppResult TranscriptionResponse}
    (taken : s.step (.completed id result durationMs) = some after) :
    ∃ job ∈ s.inFlight, after.flight = (false, s.inFlight.erase job) := by
  simp only [step] at taken
  split at taken
  · rename_i job found
    cases taken
    exact ⟨job, List.mem_of_find?_eq_some found, completeTranscription_flight job result durationMs s⟩
  · cases taken

theorem SingleFlight.step {s after : TranscriptionSystem} {event : TranscriptionEvent} (single : s.SingleFlight)
    (idle : s.StartsIdle event) (taken : s.step event = some after) : after.SingleFlight := by
  cases event with
  | transcribe audioFilePath =>
    cases taken
    exact single.congr (transcribe_flight audioFilePath s)
  | started id =>
    obtain ⟨started, flight⟩ := step_started taken
    obtain ⟨loading, inFlight⟩ := Prod.mk.inj flight
    rw [single.idle (idle id rfl), List.nil_append] at inFlight
    simp [SingleFlight, loading, inFlight]
  | completed id result durationMs =>
    obtain ⟨job, member, flight⟩ := step_completed taken
    obtain ⟨loading, inFlight⟩ := Prod.mk.inj flight
    have removed := List.length_erase_of_mem member
    have none : s.inFlight.erase job = [] := by
      apply List.length_eq_zero_iff.mp
      have atMost := single.1
      omega
    rw [none] at inFlight
    simp [SingleFlight, loading, inFlight]
  | setAutomationMode mode =>
    cases taken
    exact single.congr (setAutomationMode_flight mode s)

theorem started_beside {s after : TranscriptionSystem} {event : TranscriptionEvent} (single : s.SingleFlight)
    (outside : ¬ s.StartsIdle event) (taken : s.step event = some after) : ¬ after.SingleFlight := by
  simp only [StartsIdle, not_forall, Bool.not_eq_false] at outside
  obtain ⟨id, rfl, loading⟩ := outside
  obtain ⟨started, flight⟩ := step_started taken
  obtain ⟨_, inFlight⟩ := Prod.mk.inj flight
  have running : 0 < s.inFlight.length := List.length_pos_iff.mpr (single.2.mp loading)
  intro two
  have atMost := two.1
  rw [inFlight, List.length_append, List.length_singleton] at atMost
  omega

end TranscriptionSystem

abbrev TranscriptionRun (supportsOnDevice : Bool) :=
  Run TranscriptionSystem.step { supportsOnDevice := supportsOnDevice }

theorem singleTranscription_iff {supportsOnDevice : Bool}
    {history : List (TranscriptionSystem × TranscriptionEvent)} {final : TranscriptionSystem}
    (run : TranscriptionRun supportsOnDevice history final) :
    Always TranscriptionSystem.SingleFlight history final ↔ Guarded TranscriptionSystem.StartsIdle history := by
  have keep : ∀ (s : TranscriptionSystem) (event : TranscriptionEvent) (after : TranscriptionSystem),
      s.SingleFlight → s.StartsIdle event → s.step event = some after → after.SingleFlight :=
    fun _ _ _ single idle taken => single.step idle taken
  refine run.always_iff_guarded ?_ keep (fun _ single => single) ?_
  · simp [TranscriptionSystem.SingleFlight]
  · intro _ _ _ single outside taken
    exact TranscriptionSystem.started_beside single outside taken

section CheckThenStart

def transcribedInTurn : List TranscriptionEvent :=
  [.transcribe (txt "a.m4a"), .started 0, .transcribe (txt "b.m4a"),
    .completed 0 (.success { text := txt "Ich bin Anna." }) 5, .setAutomationMode .onDevice,
    .transcribe (txt "c.m4a"), .started 1, .completed 1 (.error (txt "Timeout") none) 7]

theorem singleTranscription_iff_inTurn : ∃ final,
    follow TranscriptionSystem.step { supportsOnDevice := true } transcribedInTurn = some final ∧
    Always TranscriptionSystem.SingleFlight
      (trace TranscriptionSystem.step { supportsOnDevice := true } transcribedInTurn) final ∧
    final.inFlight = [] ∧ final.results.map TranscriptionResponse.text = [txt "Ich bin Anna."] ∧
    final.uiState.error = some (txt "Transkription fehlgeschlagen: Timeout") := by
  obtain ⟨final, followed, observed⟩ : ∃ final,
      follow TranscriptionSystem.step { supportsOnDevice := true } transcribedInTurn = some final ∧
      final.inFlight = [] ∧ final.results.map TranscriptionResponse.text = [txt "Ich bin Anna."] ∧
      final.uiState.error = some (txt "Transkription fehlgeschlagen: Timeout") := follow_reaches (by decide +kernel)
  have idle : Guarded TranscriptionSystem.StartsIdle
      (trace TranscriptionSystem.step { supportsOnDevice := true } transcribedInTurn) := by decide +kernel
  exact ⟨final, followed, (singleTranscription_iff (.of_follow followed)).mpr idle, observed⟩

def twoChecksFirst : List TranscriptionEvent :=
  [.transcribe (txt "a.m4a"), .transcribe (txt "b.m4a"), .started 0, .started 1]

theorem two_transcriptions : ∃ history final, TranscriptionRun true history final ∧
    follow TranscriptionSystem.step { supportsOnDevice := true } twoChecksFirst = some final ∧
    ¬ final.SingleFlight := by
  obtain ⟨final, followed, two⟩ : ∃ final,
      follow TranscriptionSystem.step { supportsOnDevice := true } twoChecksFirst = some final ∧
      final.inFlight.length = 2 := follow_reaches (by decide +kernel)
  refine ⟨_, final, Run.of_follow followed, followed, ?_⟩
  intro single
  have atMost := single.1
  omega

end CheckThenStart

end Form
