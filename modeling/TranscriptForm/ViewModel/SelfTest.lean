import TranscriptForm.ViewModel.FormShell
import TranscriptForm.ViewModel.SingleFlight

namespace Form

open Kotlin Transition

namespace FormShell

def OneTest (shell : FormShell) : Prop :=
  shell.llmTests.length ≤ 1 ∧ (shell.llmTestRunning = true ↔ shell.llmTests ≠ [])

/-- A shown outcome is the one the self-test started last came back with. -/
def ShowsLatest (shell : FormShell) (past : List FormEvent) : Prop :=
  ∀ success, shell.llmTestSuccess = some success →
    ∃ id result, shell.nextLlmTest = id + 1 ∧ .llmTestCompleted id result ∈ past ∧ result.isSuccess = success

def LoneTest (shell : FormShell) (past : List FormEvent) : Prop := shell.OneTest ∧ shell.ShowsLatest past

/-- What a lone self-test rests on: the one in flight, if there is one, was started last
    and no outcome is shown meanwhile. -/
structure Undisturbed (shell : FormShell) (past : List FormEvent) : Prop where
  flight : shell.llmTests = [] ∧ shell.llmTestRunning = false ∨
    ∃ id, shell.llmTests = [id] ∧ shell.nextLlmTest = id + 1 ∧ shell.llmTestRunning = true ∧
      shell.llmTestSuccess = none
  latest : shell.ShowsLatest past

theorem ShowsLatest.later {shell : FormShell} {past : List FormEvent} (latest : shell.ShowsLatest past)
    (event : FormEvent) : shell.ShowsLatest (past ++ [event]) := by
  intro success shown
  obtain ⟨id, result, last, completed, same⟩ := latest success shown
  exact ⟨id, result, last, List.mem_append_left _ completed, same⟩

theorem ShowsLatest.of_none {shell : FormShell} (past : List FormEvent) (none : shell.llmTestSuccess = none) :
    shell.ShowsLatest past := by
  intro success shown
  rw [none] at shown
  cases shown

theorem Undisturbed.loneTest {shell : FormShell} {past : List FormEvent} (undisturbed : shell.Undisturbed past) :
    shell.LoneTest past := by
  refine ⟨?_, undisturbed.latest⟩
  rcases undisturbed.flight with ⟨idle, shown⟩ | ⟨id, running, _, shown, _⟩
  · simp [OneTest, idle, shown]
  · simp [OneTest, running, shown]

theorem Undisturbed.idle {shell : FormShell} {past : List FormEvent} (undisturbed : shell.Undisturbed past)
    (shown : shell.llmTestRunning = false) : shell.llmTests = [] := by
  rcases undisturbed.flight with ⟨idle, _⟩ | ⟨_, _, _, running, _⟩
  · exact idle
  · rw [shown] at running
    cases running

theorem Undisturbed.started {shell : FormShell} {past : List FormEvent} (undisturbed : shell.Undisturbed past)
    (shown : shell.llmTestRunning = false) : shell.startTest.Undisturbed (past ++ [.runOnDeviceLlmTest]) where
  flight := by
    right
    exact ⟨shell.nextLlmTest, by simp [startTest, undisturbed.idle shown], rfl, rfl, rfl⟩
  latest := .of_none _ rfl

theorem Undisturbed.completed {shell : FormShell} {past : List FormEvent} (undisturbed : shell.Undisturbed past)
    {id : Nat} (running : id ∈ shell.llmTests) (result : AppResult Unit) :
    (shell.completeTest id result).Undisturbed (past ++ [.llmTestCompleted id result]) := by
  rcases undisturbed.flight with ⟨idle, _⟩ | ⟨other, flight, last, _, _⟩
  · rw [idle] at running
    cases running
  · have same : id = other := by
      rw [flight] at running
      exact List.mem_singleton.mp running
    subst same
    refine ⟨Or.inl ⟨by simp [completeTest, flight], rfl⟩, ?_⟩
    intro success shown
    exact ⟨id, result, last, by simp, Option.some.inj shown⟩

theorem Undisturbed.switched {shell : FormShell} (idle : shell.llmTests = []) (mode : FormAutomationMode)
    (past : List FormEvent) : (shell.switch mode).Undisturbed past where
  flight := Or.inl ⟨idle, rfl⟩
  latest := .of_none _ rfl

theorem switch_hides_test {shell : FormShell} (running : shell.llmTests ≠ []) (mode : FormAutomationMode) :
    ¬ (shell.switch mode).OneTest := by
  intro one
  have shown : (shell.switch mode).llmTestRunning = true := one.2.mpr running
  cases shown

end FormShell

abbrev FormTrace := FormSystem × List FormEvent

abbrev FormTraceRun (wiring : Wiring) (status : ModelStatus) :=
  Run (record FormSystem.step) ((FormViewModel.create wiring status, []) : FormTrace)

def FormSystem.SwitchesIdle (s : FormSystem) (event : FormEvent) : Prop :=
  s.switchesTo event ≠ none → s.shell.llmTests = []

instance (s : FormSystem) (event : FormEvent) : Decidable (s.SwitchesIdle event) :=
  inferInstanceAs (Decidable (s.switchesTo event ≠ none → s.shell.llmTests = []))

theorem undisturbed_step {s after : FormSystem} {past : List FormEvent} {event : FormEvent}
    (undisturbed : s.shell.Undisturbed past) (idle : s.SwitchesIdle event) (taken : s.step event = some after) :
    after.shell.Undisturbed (past ++ [event]) := by
  generalize shape : after.shell = shell
  have step := shell_step taken
  rw [shape] at step
  cases step with
  | keeps => exact ⟨undisturbed.flight, undisturbed.latest.later event⟩
  | switched effective =>
    have quiet := idle (by simp [effective])
    exact .switched quiet _ _
  | started shown => exact undisturbed.started shown
  | completed running => exact undisturbed.completed running _

theorem switch_under_test {s after : FormSystem} {event : FormEvent} (outside : ¬ s.SwitchesIdle event)
    (taken : s.step event = some after) : ¬ after.shell.OneTest := by
  obtain ⟨effective, running⟩ := Classical.not_imp.mp outside
  generalize shape : after.shell = shell
  have step := shell_step taken
  rw [shape] at step
  cases step with
  | keeps quiet => exact absurd quiet effective
  | switched _ => exact FormShell.switch_hides_test running _
  | started _ => exact absurd rfl effective
  | completed _ => exact absurd rfl effective

theorem loneTest_iff {wiring : Wiring} {status : ModelStatus}
    {history : List (FormTrace × FormEvent)} {final : FormTrace} (run : FormTraceRun wiring status history final) :
    Always (fun s => s.1.shell.LoneTest s.2) history final ↔
      Guarded (fun s event => s.1.SwitchesIdle event) history := by
  have keep : ∀ (s : FormTrace) (event : FormEvent) (after : FormTrace), s.1.shell.Undisturbed s.2 →
      s.1.SwitchesIdle event → record FormSystem.step s event = some after → after.1.shell.Undisturbed after.2 := by
    intro s event after undisturbed idle taken
    obtain ⟨stepped, past⟩ := record_eq_some taken
    rw [past]
    exact undisturbed_step undisturbed idle stepped
  refine run.always_iff_guarded ?_ keep ?_ ?_
  · show (FormViewModel.create wiring status).shell.Undisturbed []
    rw [create_shell]
    exact ⟨Or.inl ⟨rfl, rfl⟩, .of_none _ rfl⟩
  · intro s undisturbed
    exact undisturbed.loneTest
  · intro s event after _ outside taken lone
    exact switch_under_test outside (record_eq_some taken).1 lone.1

section SwitchUnderTest

def testedInTurn : List FormEvent :=
  [.setAutomationMode .onDevice, .runOnDeviceLlmTest, .llmTestCompleted 0 (.success ()), .runOnDeviceLlmTest,
    .llmTestCompleted 1 (.error (txt "Timeout") none)]

theorem loneTest_iff_testedInTurn : ∃ final,
    follow (record FormSystem.step) (FormViewModel.create sampleWiring sampleStatus, []) testedInTurn = some final ∧
    Always (fun s : FormTrace => s.1.shell.LoneTest s.2)
      (trace (record FormSystem.step) (FormViewModel.create sampleWiring sampleStatus, []) testedInTurn) final ∧
    final.2 = testedInTurn ∧ final.1.shell.nextLlmTest = 2 ∧ final.1.shell.llmTestSuccess = some false := by
  obtain ⟨final, followed, observed⟩ : ∃ final,
      follow (record FormSystem.step) (FormViewModel.create sampleWiring sampleStatus, []) testedInTurn = some final ∧
      final.2 = testedInTurn ∧ final.1.shell.nextLlmTest = 2 ∧ final.1.shell.llmTestSuccess = some false :=
    follow_reaches (by decide +kernel)
  have idle : Guarded (fun (s : FormTrace) event => s.1.SwitchesIdle event)
      (trace (record FormSystem.step) (FormViewModel.create sampleWiring sampleStatus, []) testedInTurn) := by
    decide +kernel
  exact ⟨final, followed, (loneTest_iff (.of_follow followed)).mpr idle, observed⟩

def switchUnderTest : List FormEvent :=
  [.setAutomationMode .onDevice, .runOnDeviceLlmTest, .setAutomationMode .cloud, .setAutomationMode .onDevice,
    .runOnDeviceLlmTest, .llmTestCompleted 0 (.success ())]

theorem test_hidden_by_switch : ∃ history final, FormTraceRun sampleWiring sampleStatus history final ∧
    final.2 = switchUnderTest ∧ ¬ final.1.shell.OneTest ∧ ¬ final.1.shell.ShowsLatest final.2 := by
  obtain ⟨final, followed, past, running, idle, success, started⟩ : ∃ final,
      follow (record FormSystem.step) (FormViewModel.create sampleWiring sampleStatus, []) switchUnderTest = some final ∧
      final.2 = switchUnderTest ∧ final.1.shell.llmTests = [1] ∧ final.1.shell.llmTestRunning = false ∧
      final.1.shell.llmTestSuccess = some true ∧ final.1.shell.nextLlmTest = 2 := follow_reaches (by decide +kernel)
  refine ⟨_, final, Run.of_follow followed, past, ?_, ?_⟩
  · intro one
    have shown := one.2.mpr (by simp [running])
    rw [idle] at shown
    cases shown
  · intro latest
    obtain ⟨id, result, last, completed, _⟩ := latest true success
    have second : id = 1 := by omega
    rw [past, second] at completed
    simp [switchUnderTest] at completed

end SwitchUnderTest

end Form
