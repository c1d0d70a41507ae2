import TranscriptForm.ViewModel.RecordingViewModel
import Mathlib.Data.List.Perm.Subperm

namespace Recording

open Kotlin Interleaving Transition
open Handles (Heap)

def RecordingViewModel.Has (s : RecordingViewModel) (isRecording : Bool) (mediaRecorders : List Nat) : Prop :=
  s.isRecording = isRecording ∧ s.mediaRecorders.Holds mediaRecorders

/-- What holds while a job stands at a point. `owed` are the files of started recordings
    that no job is to call `onRecordingFinished` for yet. -/
def RecordingViewModel.At (s : RecordingViewModel) (owed : List KString) : Job → Prop
  | .startRecording | .callStart => s.Has false [] ∧ s.recorder = none ∧ owed = []
  | .construct path => s.Has false [] ∧ s.recorder = none ∧ owed = [] ∧ path = s.currentPath
  | .configure path mediaRecorder _ => s.Has false [mediaRecorder] ∧ owed = [] ∧ path = s.currentPath
  | .assign mediaRecorder => s.Has false [mediaRecorder] ∧ owed = [s.currentPath]
  | .returnStarted | .recordingStarted _ =>
    ∃ mediaRecorder, s.Has false [mediaRecorder] ∧ s.recorder = some mediaRecorder ∧ owed = [s.currentPath]
  | .stopRecording =>
    ∃ mediaRecorder, s.Has true [mediaRecorder] ∧ s.recorder = some mediaRecorder ∧ owed = [s.currentPath]
  | .stop mediaRecorder | .release mediaRecorder => s.Has true [mediaRecorder] ∧ owed = [s.currentPath]
  | .clearRecorder => s.Has true [] ∧ owed = [s.currentPath]
  | .returnStopped => s.Has true [] ∧ s.recorder = none ∧ owed = [s.currentPath]
  | .recordingStopped path => s.Has true [] ∧ s.recorder = none ∧ owed = [path]
  | .stopFailed _ => False
  | .startFailed _ | .callFinished _ | .done =>
    (s.Has false [] ∧ s.recorder = none ∧ owed = []) ∨
      ∃ mediaRecorder, s.Has true [mediaRecorder] ∧ s.recorder = some mediaRecorder ∧ owed = [s.currentPath]

namespace RecordingViewModel

variable {s after : RecordingViewModel} {owed : List KString} {job next : Job} {outcome : Outcome}

theorem At.settled (holds : s.At owed job) (settled : job.settled = true) : s.At owed .done := by
  cases job <;> first | exact holds | cases settled

theorem At.toggle (holds : s.At owed .done) : s.At owed s.toggleRecording := by
  rcases holds with ⟨has, recorder, settledUp⟩ | ⟨mediaRecorder, has, recorder, settledUp⟩
  · rw [toggleRecording, has.1]
    exact ⟨has, recorder, settledUp⟩
  · rw [toggleRecording, has.1]
    exact ⟨mediaRecorder, has, recorder, settledUp⟩

def finishes : Job → Option KString
  | .callFinished path => some path
  | _ => none

/-- A settled job makes its call, and changes nothing the others rely on. -/
structure Settles (s after : RecordingViewModel) (job next : Job) : Prop where
  done : next = .done
  keeps : ∀ owed other, s.At owed other → after.At owed other
  started : after.started = s.started
  finished : after.finished = s.finished ++ (finishes job).toList

theorem settles_of_advance (advanced : s.advance job outcome = some (after, next))
    (settled : job.settled = true) : s.Settles after job next := by
  cases job <;> try cases settled
  case startFailed message =>
    cases outcome <;> cases advanced
    exact ⟨rfl, fun _ other holds => by cases other <;> exact holds, rfl, by simp [finishes]⟩
  case callFinished path =>
    cases outcome <;> cases advanced
    exact ⟨rfl, fun _ other holds => by cases other <;> exact holds, rfl, rfl⟩
  case done => cases outcome <;> cases advanced

/-- A job that is not settled moves on: what is owed after it, and the calls it is to make,
    are what was owed before and what it started. -/
structure Moves (s after : RecordingViewModel) (owed : List KString) (next : Job) (owedAfter : List KString) : Prop where
  place : after.At owedAfter next
  finished : after.finished = s.finished
  ledger : ∃ more, after.started = s.started ++ more ∧ owed ++ more.map Prod.snd = (finishes next).toList ++ owedAfter

theorem Moves.quiet {owed : List KString} (place : after.At owed next) (finished : after.finished = s.finished)
    (started : after.started = s.started) (none : finishes next = none) : s.Moves after owed next owed :=
  ⟨place, finished, [], by simpa using started, by simp [none]⟩

theorem moves_of_advance (advanced : s.advance job outcome = some (after, next)) (holds : s.At owed job)
    (active : job.settled = false) (careful : ∀ message, outcome = .throws message → job.operates = false) :
    ∃ owedAfter, s.Moves after owed next owedAfter := by
  cases job with
  | startRecording =>
    cases outcome <;> cases advanced
    · exact ⟨owed, .quiet holds rfl rfl rfl⟩
    · exact ⟨owed, .quiet (.inl holds) rfl rfl rfl⟩
  | callStart =>
    cases outcome <;> cases advanced
    obtain ⟨has, recorder, nothing⟩ := holds
    exact ⟨owed, .quiet ⟨has, recorder, nothing, rfl⟩ rfl rfl rfl⟩
  | construct path =>
    obtain ⟨⟨flag, held⟩, recorder, nothing, same⟩ := holds
    cases outcome <;> cases advanced
    · exact ⟨owed, .quiet ⟨⟨flag, held.alloc⟩, nothing, same⟩ rfl rfl rfl⟩
    · exact ⟨owed, .quiet (.inl ⟨⟨flag, held⟩, recorder, nothing⟩) rfl rfl rfl⟩
  | configure path mediaRecorder operation =>
    obtain ⟨has, nothing, same⟩ := holds
    cases outcome with
    | throws message => cases careful message rfl
    | path path => cases advanced
    | proceed =>
      cases operation <;> cases advanced
      case start.refl =>
        exact ⟨[path], ⟨has, by rw [same]⟩, rfl, [(mediaRecorder, path)], rfl, by simp [nothing, finishes]⟩
      all_goals exact ⟨owed, .quiet ⟨has, nothing, same⟩ rfl rfl rfl⟩
  | assign mediaRecorder =>
    cases outcome <;> cases advanced
    obtain ⟨has, one⟩ := holds
    exact ⟨owed, .quiet ⟨mediaRecorder, has, rfl, one⟩ rfl rfl rfl⟩
  | returnStarted =>
    cases outcome <;> cases advanced
    exact ⟨owed, .quiet holds rfl rfl rfl⟩
  | recordingStarted path =>
    cases outcome <;> cases advanced
    obtain ⟨mediaRecorder, ⟨_, held⟩, recorder, one⟩ := holds
    exact ⟨owed, .quiet (.inr ⟨mediaRecorder, ⟨rfl, held⟩, recorder, one⟩) rfl rfl rfl⟩
  | stopRecording =>
    cases outcome <;> cases advanced
    obtain ⟨mediaRecorder, has, recorder, one⟩ := holds
    rw [recorder]
    exact ⟨owed, .quiet ⟨has, one⟩ rfl rfl rfl⟩
  | stop mediaRecorder =>
    cases outcome <;> cases advanced
    · exact ⟨owed, .quiet holds rfl rfl rfl⟩
    · cases careful _ rfl
  | release mediaRecorder =>
    obtain ⟨⟨flag, held⟩, one⟩ := holds
    cases outcome <;> cases advanced
    · exact ⟨owed, .quiet ⟨⟨flag, held.release⟩, one⟩ rfl rfl rfl⟩
    · cases careful _ rfl
  | clearRecorder =>
    cases outcome <;> cases advanced
    obtain ⟨has, one⟩ := holds
    exact ⟨owed, .quiet ⟨has, rfl, one⟩ rfl rfl rfl⟩
  | returnStopped =>
    cases outcome <;> cases advanced
    exact ⟨owed, .quiet holds rfl rfl rfl⟩
  | recordingStopped path =>
    -- The call this job goes on to make settles what is owed.
    cases outcome <;> cases advanced
    obtain ⟨⟨_, held⟩, recorder, one⟩ := holds
    exact ⟨[], .inl ⟨⟨rfl, held⟩, recorder, rfl⟩, rfl, [], (List.append_nil _).symm, by simp [one, finishes]⟩
  | stopFailed message => exact holds.elim
  | startFailed message => cases active
  | callFinished path => cases active
  | done => cases active

end RecordingViewModel

open RecordingViewModel (finishes)

/-- Jobs other than the focus are settled, and what the focus relies on holds. Every started
    recording is finished, about to be finished, or owed. -/
structure Steady (s : RecordingSystem) (focus : Nat) (owed : List KString) (pending : List (Nat × KString)) : Prop where
  place : s.shared.At owed ((s.threads focus).getD .done)
  others : ∀ id job, id ≠ focus → s.threads id = some job → job.settled = true
  listed : Listed finishes s pending
  ledger : (s.shared.started.map Prod.snd).Perm (s.shared.finished ++ (pending.map Prod.snd ++ owed))

theorem steady_initial : Steady initial 0 [] [] where
  place := .inl ⟨⟨rfl, .empty⟩, rfl, rfl⟩
  others := by
    intro id job _ found
    cases found
  listed := .empty finishes initial.shared
  ledger := .refl _

variable {s : RecordingSystem} {focus : Nat} {owed : List KString} {pending : List (Nat × KString)}

theorem Steady.settled (steady : Steady s focus owed pending)
    (settled : ∀ id job, s.threads id = some job → job.settled = true) : s.shared.At owed .done := by
  have place := steady.place
  cases found : s.threads focus with
  | none => rwa [found] at place
  | some job =>
    rw [found] at place
    exact place.settled (settled focus job found)

theorem Steady.toggle (steady : Steady s focus owed pending)
    (settled : ∀ id job, s.threads id = some job → job.settled = true) {id : Nat} (free : s.threads id = none) :
    ∃ pending, Steady (s.put id (s.shared, s.shared.toggleRecording)) id owed pending := by
  obtain ⟨later, listed, same⟩ := steady.listed.put id (s.shared, s.shared.toggleRecording)
  have launched : finishes s.shared.toggleRecording = none := by
    unfold RecordingViewModel.toggleRecording
    split <;> rfl
  rw [free, launched] at same
  refine ⟨later, ?_, ?_, listed, steady.ledger.trans ((same.symm.append_right _).append_left _)⟩
  · rw [s.put_same]
    exact (steady.settled settled).toggle
  · intro other job differs found
    rw [s.put_other differs] at found
    exact settled other job found

theorem Steady.settle (steady : Steady s focus owed pending) {id : Nat} {job : Job} (found : s.threads id = some job)
    (settled : job.settled = true) {after : RecordingViewModel} {next : Job}
    (settles : s.shared.Settles after job next) : ∃ pending, Steady (s.put id (after, next)) focus owed pending := by
  obtain ⟨rfl, keeps, started, finished⟩ := settles
  obtain ⟨later, listed, same⟩ := steady.listed.put id (after, .done)
  rw [found] at same
  refine ⟨later, ?_, ?_, listed, ?_⟩
  · by_cases focused : focus = id
    · subst focused
      have place := steady.place
      rw [found] at place
      rw [s.put_same]
      exact keeps _ _ (place.settled settled)
    · rw [s.put_other focused]
      exact keeps _ _ steady.place
  · intro other otherJob differs otherFound
    by_cases isId : other = id
    · rw [isId, s.put_same] at otherFound
      cases otherFound
      rfl
    · rw [s.put_other isId] at otherFound
      exact steady.others other otherJob differs otherFound
  · show (after.started.map Prod.snd).Perm (after.finished ++ (later.map Prod.snd ++ owed))
    rw [started, finished, List.append_assoc, ← List.append_assoc (finishes job).toList]
    exact steady.ledger.trans ((same.symm.append_right owed).append_left _)

theorem Steady.move (steady : Steady s focus owed pending) {job : Job} (found : s.threads focus = some job)
    (active : job.settled = false) {after : RecordingViewModel} {next : Job} {owedAfter : List KString}
    (moves : s.shared.Moves after owed next owedAfter) :
    ∃ pending, Steady (s.put focus (after, next)) focus owedAfter pending := by
  obtain ⟨place, finished, more, started, balance⟩ := moves
  obtain ⟨later, listed, same⟩ := steady.listed.put focus (after, next)
  have nothing : finishes job = none := by cases job <;> first | rfl | cases active
  rw [found, Option.bind_some, nothing] at same
  refine ⟨later, ?_, ?_, listed, ?_⟩
  · rw [s.put_same]
    exact place
  · intro other otherJob differs otherFound
    rw [s.put_other differs] at otherFound
    exact steady.others other otherJob differs otherFound
  · have calls : ((finishes next).toList ++ pending.map Prod.snd).Perm (later.map Prod.snd) := same.symm
    calc after.started.map Prod.snd
      _ = s.shared.started.map Prod.snd ++ more.map Prod.snd := by rw [started, List.map_append]
      _ |>.Perm (s.shared.finished ++ (pending.map Prod.snd ++ owed) ++ more.map Prod.snd) :=
        steady.ledger.append_right _
      _ = s.shared.finished ++ (pending.map Prod.snd ++ ((finishes next).toList ++ owedAfter)) := by
        rw [← balance]
        simp only [List.append_assoc]
      _ |>.Perm (after.finished ++ (later.map Prod.snd ++ owedAfter)) := by
        rw [finished, ← List.append_assoc (pending.map Prod.snd)]
        exact (((List.perm_append_comm.trans calls).append_right _).append_left _)

theorem steady_step {after : RecordingSystem} {event : RecordingEvent} (steady : Steady s focus owed pending)
    (careful : Careful s event) (taken : recordingCode.step s event = some after) :
    ∃ focus owed pending, Steady after focus owed pending := by
  cases event with
  | spawn id request =>
    obtain ⟨free, next, started, rfl⟩ := step_spawn taken
    cases started
    exact ⟨id, owed, steady.toggle careful free⟩
  | advance id outcome =>
    obtain ⟨job, ⟨next, nextJob⟩, found, advanced, rfl⟩ := step_advance taken
    cases settled : job.settled with
    | true => exact ⟨focus, owed, steady.settle found settled (RecordingViewModel.settles_of_advance advanced settled)⟩
    | false =>
      have focused : id = focus := by
        by_contra differs
        have other := steady.others id job differs found
        rw [settled] at other
        cases other
      subst focused
      have place := steady.place
      rw [found] at place
      have sound : ∀ message, outcome = .throws message → job.operates = false := by
        rintro message rfl
        exact careful job found
      obtain ⟨owedAfter, moves⟩ := RecordingViewModel.moves_of_advance advanced place settled sound
      exact ⟨id, owedAfter, steady.move found settled moves⟩

theorem Steady.consistent (steady : Steady s focus owed pending) : Consistent s := by
  have rest (idle : Idle s) : s.shared.At owed .done :=
    steady.settled fun id job found => by rw [idle id job found]; rfl
  refine ⟨?_, ?_, ?_⟩
  · intro idle
    rcases rest idle with ⟨⟨_, held⟩, _⟩ | ⟨mediaRecorder, ⟨_, held⟩, _⟩
    · simp [held.live.length_eq]
    · simp [held.live.length_eq]
  · intro idle
    rcases rest idle with ⟨⟨flag, held⟩, _⟩ | ⟨mediaRecorder, ⟨flag, held⟩, _⟩
    · simp [held.live.eq_nil, flag]
    · have one := held.live.length_eq
      simp [flag, ← List.length_eq_zero_iff, one]
  · exact (List.sublist_append_left _ _).subperm.trans steady.ledger.symm.subperm

/-- In a run whose toggles all wait for the jobs before them, and in which no operation of a
    constructed `MediaRecorder` throws, recorder and flag agree throughout. -/
theorem consistent_of_careful {history : List (RecordingSystem × RecordingEvent)} {final : RecordingSystem}
    (run : RecordingRun history final) (careful : Guarded Careful history) : Always Consistent history final := by
  let steady (s : RecordingSystem) : Prop := ∃ focus owed pending, Steady s focus owed pending
  have keep : ∀ (s : RecordingSystem) (event : RecordingEvent) (after : RecordingSystem), steady s →
      Careful s event → recordingCode.step s event = some after → steady after := by
    rintro s event after ⟨_, _, _, holds⟩ care taken
    exact steady_step holds care taken
  have always : Always steady history final := run.always_of_guarded ⟨0, [], [], steady_initial⟩ keep careful
  exact always.mono fun _ ⟨_, _, _, holds⟩ => holds.consistent

section TwoTaps

def CarefulBelow (bound : Nat) (s : RecordingSystem) : RecordingEvent → Prop
  | .spawn _ _ => ∀ id < bound, ∀ job ∈ s.threads id, job.settled = true
  | .advance id (.throws _) => ∀ job ∈ s.threads id, job.operates = false
  | .advance _ _ => True

instance (bound : Nat) (s : RecordingSystem) : (event : RecordingEvent) → Decidable (CarefulBelow bound s event)
  | .spawn _ _ => inferInstanceAs (Decidable (∀ id < bound, ∀ job ∈ s.threads id, job.settled = true))
  | .advance id (.throws _) => inferInstanceAs (Decidable (∀ job ∈ s.threads id, job.operates = false))
  | .advance _ .proceed | .advance _ (.path _) => .isTrue True.intro

theorem Careful.of_below {bound : Nat} {s : RecordingSystem} {event : RecordingEvent} (below : s.Below bound)
    (careful : CarefulBelow bound s event) : Careful s event := by
  cases event with
  | spawn id request => exact below.every (fun _ job => job.settled = true) careful
  | advance id outcome => cases outcome <;> exact careful

def startSteps (id : Nat) : List RecordingEvent :=
  .advance id (.path (txt "recording.m4a")) :: List.replicate 11 (.advance id .proceed)

def stopSteps (id : Nat) : List RecordingEvent := List.replicate 7 (.advance id .proceed)

def recordOnce : List RecordingEvent :=
  ([.spawn 0 .toggleRecording, .advance 0 (.throws (txt "kein Speicher")), .spawn 1 .toggleRecording,
    .advance 0 .proceed] : List RecordingEvent) ++ startSteps 1 ++
    ([.spawn 2 .toggleRecording] : List RecordingEvent) ++ stopSteps 2

theorem consistent_of_careful_recordOnce : ∃ final, follow recordingCode.step initial recordOnce = some final ∧
    Always Consistent (trace recordingCode.step initial recordOnce) final ∧ final.threads 2 = some .done ∧
    final.shared.mediaRecorders.live = [] ∧ final.shared.isRecording = false ∧
    final.shared.finished = [txt "recording.m4a"] := by
  obtain ⟨final, followed, observed⟩ : ∃ final, follow recordingCode.step initial recordOnce = some final ∧
      final.threads 2 = some .done ∧ final.shared.mediaRecorders.live = [] ∧ final.shared.isRecording = false ∧
      final.shared.finished = [txt "recording.m4a"] := follow_reaches (by decide +kernel)
  have run : RecordingRun (trace recordingCode.step initial recordOnce) final := .of_follow followed
  have below : Always (System.Below 3) (trace recordingCode.step initial recordOnce) final :=
    always_below run (fun _ _ => rfl) (by decide +kernel)
  have checked : Guarded (CarefulBelow 3) (trace recordingCode.step initial recordOnce) := by decide +kernel
  have careful : Guarded Careful (trace recordingCode.step initial recordOnce) :=
    fun taken member => .of_below (below.1 taken member) (checked taken member)
  exact ⟨final, followed, consistent_of_careful run careful, observed⟩

def twoTaps : List RecordingEvent :=
  [.spawn 0 .toggleRecording, .spawn 1 .toggleRecording] ++ startSteps 0 ++ startSteps 1

/-- A second tap before the first job has run starts a second `MediaRecorder`, and the
    first one is lost. -/
theorem two_taps_leak : ∃ history final, RecordingRun history final ∧
    follow recordingCode.step initial twoTaps = some final ∧ Idle final ∧ ¬ Consistent final := by
  obtain ⟨final, followed, done, live⟩ : ∃ final, follow recordingCode.step initial twoTaps = some final ∧
      (∀ id : Nat, id < 2 → ∀ job ∈ final.threads id, job = .done) ∧ final.shared.mediaRecorders.live = [1, 0] :=
    follow_reaches (by decide +kernel)
  have below : Always (System.Below 2) (trace recordingCode.step initial twoTaps) final :=
    always_below (.of_follow followed) (fun _ _ => rfl) (by decide +kernel)
  have idle : Idle final := below.2.every (fun _ job => job = .done) done
  refine ⟨_, final, Run.of_follow followed, followed, idle, fun consistent => ?_⟩
  have atMostOne := consistent.atMostOne idle
  rw [live] at atMostOne
  exact absurd atMostOne (by decide)

end TwoTaps

end Recording
