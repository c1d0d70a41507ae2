import Mathlib.Data.List.Basic

namespace Transition

variable {σ ε : Type*} {step : σ → ε → Option σ} {initial final : σ} {history : List (σ × ε)}

/-- A finite run of a partial step function. The history keeps the state each
    event was taken in, so that conditions on steps can be read off it. -/
inductive Run (step : σ → ε → Option σ) (initial : σ) : List (σ × ε) → σ → Prop
  | start : Run step initial [] initial
  | next {history : List (σ × ε)} {state after : σ} {event : ε} :
      Run step initial history state → step state event = some after →
      Run step initial (history ++ [(state, event)]) after

/-- The property holds in every state the run passes through, the last one included. -/
def Always (property : σ → Prop) (history : List (σ × ε)) (final : σ) : Prop :=
  (∀ taken ∈ history, property taken.1) ∧ property final

/-- Every step of the run is taken under the condition. -/
def Guarded (condition : σ → ε → Prop) (history : List (σ × ε)) : Prop :=
  ∀ taken ∈ history, condition taken.1 taken.2

instance {condition : σ → ε → Prop} [∀ state event, Decidable (condition state event)] :
    Decidable (Guarded condition history) :=
  inferInstanceAs (Decidable (∀ taken ∈ history, condition taken.1 taken.2))

theorem Always.mono {stronger weaker : σ → Prop} (implies : ∀ state, stronger state → weaker state)
    (always : Always stronger history final) : Always weaker history final :=
  ⟨fun taken member => implies _ (always.1 taken member), implies _ always.2⟩

theorem Guarded.earlier {condition : σ → ε → Prop} {last : σ × ε}
    (guarded : Guarded condition (history ++ [last])) : Guarded condition history :=
  fun taken member => guarded taken (List.mem_append_left _ member)

theorem Guarded.last {condition : σ → ε → Prop} {last : σ × ε}
    (guarded : Guarded condition (history ++ [last])) : condition last.1 last.2 :=
  guarded last (by simp)

theorem Guarded.mono {stronger weaker : σ → ε → Prop}
    (implies : ∀ state event, stronger state event → weaker state event)
    (guarded : Guarded stronger history) : Guarded weaker history :=
  fun taken member => implies _ _ (guarded taken member)

/-- The invariant rule: what holds at first and is kept by every step taken
    under the condition holds throughout a run whose steps meet the condition. -/
theorem Run.always_of_guarded {invariant : σ → Prop} {condition : σ → ε → Prop}
    (base : invariant initial)
    (keep : ∀ state event after, invariant state → condition state event →
      step state event = some after → invariant after)
    (run : Run step initial history final) (guarded : Guarded condition history) :
    Always invariant history final := by
  induction run with
  | start => exact ⟨by simp, base⟩
  | next prior taken ih =>
    have earlier := ih guarded.earlier
    refine ⟨?_, keep _ _ _ earlier.2 guarded.last taken⟩
    intro pair member
    rcases List.mem_append.mp member with member | member
    · exact earlier.1 pair member
    · rw [List.mem_singleton.mp member]
      exact earlier.2

theorem Run.always {invariant : σ → Prop} (base : invariant initial)
    (keep : ∀ state event after, invariant state → step state event = some after → invariant after)
    (run : Run step initial history final) : Always invariant history final := by
  have guarded : Guarded (fun _ _ => True) history := fun _ _ => True.intro
  exact run.always_of_guarded base (fun state event after inv _ => keep state event after inv) guarded

/-- Where a step outside the condition breaks the property at once, the runs on
    which the property holds throughout are exactly the guarded ones. -/
theorem Run.always_iff_guarded {property invariant : σ → Prop} {condition : σ → ε → Prop}
    (base : invariant initial)
    (keep : ∀ state event after, invariant state → condition state event →
      step state event = some after → invariant after)
    (implies : ∀ state, invariant state → property state)
    (breaks : ∀ state event after, invariant state → ¬ condition state event →
      step state event = some after → ¬ property after)
    (run : Run step initial history final) :
    Always property history final ↔ Guarded condition history := by
  constructor
  · intro always
    induction run with
    | start => intro taken member; cases member
    | @next history state after event prior taken ih =>
      have before : Always property history state :=
        ⟨fun pair member => always.1 pair (List.mem_append_left _ member),
          always.1 (state, event) (by simp)⟩
      have guarded := ih before
      have inv := (prior.always_of_guarded base keep guarded).2
      have last : condition state event := by
        by_contra outside
        exact breaks _ _ _ inv outside taken always.2
      intro pair member
      rcases List.mem_append.mp member with member | member
      · exact guarded pair member
      · rw [List.mem_singleton.mp member]
        exact last
  · intro guarded
    exact (run.always_of_guarded base keep guarded).mono implies

/-- Where a list of events leads, when each can be taken. -/
def follow (step : σ → ε → Option σ) (initial : σ) (events : List ε) : Option σ := events.foldlM step initial

theorem follow_keeps {invariant : σ → Prop} {events : List ε}
    (keep : ∀ state, ∀ event ∈ events, ∀ after, invariant state → step state event = some after → invariant after)
    {state : σ} (base : invariant state) (followed : Transition.follow step state events = some final) :
    invariant final := by
  induction events generalizing state with
  | nil =>
    cases followed
    exact base
  | cons event events ih =>
    obtain ⟨after, taken, later⟩ := Option.bind_eq_some_iff.mp followed
    have kept := keep state event (by simp) after base taken
    exact ih (fun state other member => keep state other (List.mem_cons_of_mem _ member)) kept later

/-- The states a list of events leads through, each with the event taken in it. -/
def trace (step : σ → ε → Option σ) : σ → List ε → List (σ × ε)
  | _, [] => []
  | state, event :: events =>
    (state, event) :: match step state event with
      | none => []
      | some after => trace step after events

theorem Run.follow {events : List ε} {state : σ} (run : Run step initial history state)
    (followed : Transition.follow step state events = some final) :
    Run step initial (history ++ trace step state events) final := by
  induction events generalizing state history with
  | nil =>
    cases followed
    rw [trace, List.append_nil]
    exact run
  | cons event events ih =>
    obtain ⟨after, taken, later⟩ := Option.bind_eq_some_iff.mp followed
    have rest := ih (run.next taken) later
    rw [List.append_assoc] at rest
    rw [trace, taken]
    exact rest

theorem Run.of_follow {events : List ε} (followed : Transition.follow step initial events = some final) :
    Run step initial (trace step initial events) final := Run.start.follow followed

theorem follow_reaches {property : σ → Prop} [DecidablePred property] {events : List ε}
    (found : (Transition.follow step initial events).any (fun state => decide (property state)) = true) :
    ∃ final, Transition.follow step initial events = some final ∧ property final := by
  obtain ⟨final, followed, holds⟩ := (Option.any_eq_true _ _).mp found
  exact ⟨final, followed, of_decide_eq_true holds⟩

section Image

variable {σ' : Type*} {step' : σ' → ε → Option σ'} (view : σ → σ')

/-- The same events seen through a view of the states. -/
def image (history : List (σ × ε)) : List (σ' × ε) := history.map fun taken => (view taken.1, taken.2)

theorem Run.image (simulates : ∀ state event after, step state event = some after →
      step' (view state) event = some (view after)) (run : Run step initial history final) :
    Run step' (view initial) (Transition.image view history) (view final) := by
  induction run with
  | start => exact .start
  | next prior taken ih =>
    have later := Run.next ih (simulates _ _ _ taken)
    simpa [Transition.image] using later

theorem Run.simulate {ε' : Type*} {other : σ' → ε' → Option σ'}
    (simulates : ∀ state event after, step state event = some after → ∃ event', other (view state) event' = some (view after))
    (run : Run step initial history final) :
    ∃ simulated, Run other (view initial) simulated (view final) ∧
      simulated.map Prod.fst = history.map fun taken => view taken.1 := by
  induction run with
  | start => exact ⟨[], .start, rfl⟩
  | next prior taken ih =>
    obtain ⟨simulated, earlier, same⟩ := ih
    obtain ⟨event', stepped⟩ := simulates _ _ _ taken
    refine ⟨_, earlier.next stepped, ?_⟩
    rw [List.map_append, List.map_append, same]
    rfl

theorem always_image {property : σ' → Prop} :
    Always property (image view history) (view final) ↔
      Always (fun state => property (view state)) history final := by
  simp only [Always, image, List.forall_mem_map]

theorem guarded_image {condition : σ' → ε → Prop} :
    Guarded condition (image view history) ↔
      Guarded (fun state event => condition (view state) event) history := by
  simp only [Guarded, image, List.forall_mem_map]

end Image

section Record

/-- The same steps on states that remember the events so far. -/
def record (step : σ → ε → Option σ) (state : σ × List ε) (event : ε) : Option (σ × List ε) :=
  (step state.1 event).map fun after => (after, state.2 ++ [event])

theorem record_eq_some {state after : σ × List ε} {event : ε} (taken : record step state event = some after) :
    step state.1 event = some after.1 ∧ after.2 = state.2 ++ [event] := by
  obtain ⟨next, stepped, rfl⟩ := Option.map_eq_some_iff.mp taken
  exact ⟨stepped, rfl⟩

theorem Run.record (run : Run step initial history final) :
    ∃ recorded, Run (Transition.record step) (initial, []) recorded (final, history.map Prod.snd) ∧
      recorded.map (fun taken => (taken.1.1, taken.2)) = history := by
  induction run with
  | start => exact ⟨[], .start, rfl⟩
  | @next history state after event prior taken ih =>
    obtain ⟨recorded, earlier, same⟩ := ih
    have stepped : Transition.record step (state, history.map Prod.snd) event =
        some (after, history.map Prod.snd ++ [event]) := by
      simp only [Transition.record, taken, Option.map_some]
    refine ⟨recorded ++ [((state, history.map Prod.snd), event)], ?_, by simp [same]⟩
    rw [List.map_append]
    exact earlier.next stepped

end Record

end Transition
