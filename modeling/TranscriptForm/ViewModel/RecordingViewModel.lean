import TranscriptForm.Kotlin.Text
import TranscriptForm.Library.Handles
import TranscriptForm.Library.Interleaving

namespace Recording

open Kotlin Interleaving Transition
open Handles (Heap)

/-- The calls on a new `MediaRecorder` in `AndroidAudioRecorder.start`, in order. -/
inductive MediaOperation
  | setAudioSource
  | setOutputFormat
  | setOutputFile
  | setAudioEncoder
  | prepare
  | start
  deriving DecidableEq

def MediaOperation.next : MediaOperation → Option MediaOperation
  | .setAudioSource => some .setOutputFormat
  | .setOutputFormat => some .setOutputFile
  | .setOutputFile => some .setAudioEncoder
  | .setAudioEncoder => some .prepare
  | .prepare => some .start
  | .start => none

/-- `RecordingViewModel` over `RecordingRepositoryImpl` and its `AndroidAudioRecorder`.
    `mediaRecorders` are those constructed and not released; `started` are those whose
    `start()` returned, with their file, and `finished` the calls of `onRecordingFinished`. -/
structure RecordingViewModel where
  isRecording : Bool := false
  recordingFilePath : Option KString := none
  error : Option KString := none
  currentPath : KString := []
  recorder : Option Nat := none
  mediaRecorders : Heap := {}
  started : List (Nat × KString) := []
  finished : List KString := []
  deriving DecidableEq

inductive Job
  | startRecording
  | callStart
  | construct (filePath : KString)
  | configure (filePath : KString) (mediaRecorder : Nat) (operation : MediaOperation)
  | assign (mediaRecorder : Nat)
  | returnStarted
  | recordingStarted (path : KString)
  | startFailed (message : KString)
  | stopRecording
  | stop (mediaRecorder : Nat)
  | release (mediaRecorder : Nat)
  | clearRecorder
  | returnStopped
  | recordingStopped (path : KString)
  | callFinished (path : KString)
  | stopFailed (message : KString)
  | done
  deriving DecidableEq

inductive Request
  | toggleRecording
  deriving DecidableEq

/-- What a step of a job comes to: it goes through, the file provider gives a path, or it throws. -/
inductive Outcome
  | proceed
  | path (path : KString)
  | throws (message : KString)
  deriving DecidableEq

namespace RecordingViewModel

def toggleRecording (s : RecordingViewModel) : Job := if s.isRecording then .stopRecording else .startRecording

def advance (s : RecordingViewModel) : Job → Outcome → Option (RecordingViewModel × Job)
  | .startRecording, .path path => some ({ s with currentPath := path }, .callStart)
  | .startRecording, .throws message => some (s, .startFailed message)
  | .callStart, .proceed => some (s, .construct s.currentPath)
  | .construct filePath, .proceed =>
    some ({ s with mediaRecorders := s.mediaRecorders.alloc.1 },
      .configure filePath s.mediaRecorders.alloc.2 .setAudioSource)
  | .construct _, .throws message => some (s, .startFailed message)
  | .configure filePath mediaRecorder operation, .proceed =>
    match operation.next with
    | some next => some (s, .configure filePath mediaRecorder next)
    | none => some ({ s with started := s.started ++ [(mediaRecorder, filePath)] }, .assign mediaRecorder)
  -- `recorder` is assigned after `apply`, so nothing refers to the new one here.
  | .configure _ _ _, .throws message => some (s, .startFailed message)
  | .assign mediaRecorder, .proceed => some ({ s with recorder := some mediaRecorder }, .returnStarted)
  | .returnStarted, .proceed => some (s, .recordingStarted s.currentPath)
  | .recordingStarted path, .proceed =>
    some ({ s with isRecording := true, recordingFilePath := some path, error := none }, .done)
  | .startFailed message, .proceed =>
    some ({ s with error := some (txt "Aufnahme konnte nicht gestartet werden: " ++ message) }, .done)
  | .stopRecording, .proceed =>
    some (s, match s.recorder with
      | some mediaRecorder => .stop mediaRecorder
      | none => .clearRecorder)
  | .stop mediaRecorder, .proceed => some (s, .release mediaRecorder)
  | .stop _, .throws message => some (s, .stopFailed message)
  | .release mediaRecorder, .proceed =>
    some ({ s with mediaRecorders := s.mediaRecorders.release mediaRecorder }, .clearRecorder)
  | .release _, .throws message => some (s, .stopFailed message)
  | .clearRecorder, .proceed => some ({ s with recorder := none }, .returnStopped)
  | .returnStopped, .proceed => some (s, .recordingStopped s.currentPath)
  | .recordingStopped path, .proceed =>
    some ({ s with isRecording := false, recordingFilePath := some path }, .callFinished path)
  | .callFinished path, .proceed => some ({ s with finished := s.finished ++ [path] }, .done)
  | .stopFailed message, .proceed =>
    some ({ s with
      isRecording := false, error := some (txt "Aufnahme konnte nicht gestoppt werden: " ++ message) }, .done)
  | _, _ => none

end RecordingViewModel

def recordingCode : Code RecordingViewModel Job Request Outcome where
  start s _ := some (s, s.toggleRecording)
  advance s _ job outcome := s.advance job outcome

abbrev RecordingSystem := System RecordingViewModel Job

abbrev RecordingEvent := Event Request Outcome

def initial : RecordingSystem := ⟨{}, fun _ => none⟩

abbrev RecordingRun := Run recordingCode.step initial

def Idle (s : RecordingSystem) : Prop := ∀ id job, s.threads id = some job → job = .done

/-- The recorder and the flag agree when nothing is pending, and every finished recording
    is a started one of its own. -/
structure Consistent (s : RecordingSystem) : Prop where
  atMostOne : Idle s → s.shared.mediaRecorders.live.length ≤ 1
  recording : Idle s → (s.shared.mediaRecorders.live ≠ [] ↔ s.shared.isRecording = true)
  finished : s.shared.finished.Subperm (s.shared.started.map Prod.snd)

/-- What is left of the job reaches neither the recorder nor `isRecording`. -/
def Job.settled : Job → Bool
  | .startFailed _ | .callFinished _ | .done => true
  | _ => false

def Job.operates : Job → Bool
  | .configure _ _ _ | .stop _ | .release _ => true
  | _ => false

/-- A toggle comes when no job has yet to reach the recorder or `isRecording`, and no
    operation of a constructed `MediaRecorder` throws. -/
def Careful (s : RecordingSystem) : RecordingEvent → Prop
  | .spawn _ _ => ∀ id job, s.threads id = some job → job.settled = true
  | .advance id (.throws _) => ∀ job, s.threads id = some job → job.operates = false
  | .advance _ _ => True

end Recording
