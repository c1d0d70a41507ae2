import TranscriptForm.Library.Runs
import Mathlib.Data.List.Nodup
import Mathlib.Data.List.Perm.Lattice
import Mathlib.Logic.Function.Basic

namespace Interleaving

open Transition

variable {σ κ ρ ω : Type*}

/-- Threads over a shared state, known by number. -/
structure System (σ κ : Type*) where
  shared : σ
  threads : Nat → Option κ

inductive Event (ρ ω : Type*)
  | spawn (id : Nat) (request : ρ)
  | advance (id : Nat) (outcome : ω)

/-- What a request starts and what a thread does next. A step that is not possible
    yet, or not with that outcome, is `none`. -/
structure Code (σ κ ρ ω : Type*) where
  start : σ → ρ → Option (σ × κ)
  advance : σ → Nat → κ → ω → Option (σ × κ)

def System.put (s : System σ κ) (id : Nat) (next : σ × κ) : System σ κ :=
  ⟨next.1, Function.update s.threads id (some next.2)⟩

def Code.step (code : Code σ κ ρ ω) (s : System σ κ) : Event ρ ω → Option (System σ κ)
  | .spawn id request => if (s.threads id).isSome then none else (code.start s.shared request).map (s.put id)
  | .advance id outcome =>
    (s.threads id).bind fun thread => (code.advance s.shared id thread outcome).map (s.put id)

theorem System.put_same (s : System σ κ) (id : Nat) (next : σ × κ) : (s.put id next).threads id = some next.2 :=
  Function.update_self id _ _

theorem System.put_other (s : System σ κ) {id other : Nat} (differs : other ≠ id) (next : σ × κ) :
    (s.put id next).threads other = s.threads other := Function.update_of_ne differs _ _

theorem step_spawn {code : Code σ κ ρ ω} {s after : System σ κ} {id : Nat} {request : ρ}
    (taken : code.step s (.spawn id request) = some after) :
    s.threads id = none ∧ ∃ next, code.start s.shared request = some next ∧ after = s.put id next := by
  simp only [Code.step] at taken
  split at taken
  · cases taken
  · rename_i free
    obtain ⟨next, started, rfl⟩ := Option.map_eq_some_iff.mp taken
    exact ⟨by simpa using free, next, started, rfl⟩

theorem step_advance {code : Code σ κ ρ ω} {s after : System σ κ} {id : Nat} {outcome : ω}
    (taken : code.step s (.advance id outcome) = some after) :
    ∃ thread next, s.threads id = some thread ∧ code.advance s.shared id thread outcome = some next ∧
      after = s.put id next := by
  obtain ⟨thread, running, advanced⟩ := Option.bind_eq_some_iff.mp taken
  obtain ⟨next, moved, rfl⟩ := Option.map_eq_some_iff.mp advanced
  exact ⟨thread, next, running, moved, rfl⟩

def Event.thread : Event ρ ω → Nat
  | .spawn id _ => id
  | .advance id _ => id

theorem step_other {code : Code σ κ ρ ω} {s after : System σ κ} {event : Event ρ ω}
    (taken : code.step s event = some after) {other : Nat} (differs : other ≠ event.thread) :
    after.threads other = s.threads other := by
  cases event with
  | spawn id request =>
    obtain ⟨_, _, _, rfl⟩ := step_spawn taken
    exact s.put_other differs _
  | advance id outcome =>
    obtain ⟨_, _, _, _, rfl⟩ := step_advance taken
    exact s.put_other differs _

def System.Below (bound : Nat) (s : System σ κ) : Prop := ∀ id, bound ≤ id → s.threads id = none

theorem System.Below.every {bound : Nat} {s : System σ κ} (below : s.Below bound) (holds : Nat → κ → Prop)
    (checked : ∀ id < bound, ∀ thread ∈ s.threads id, holds id thread) (id : Nat) (thread : κ)
    (found : s.threads id = some thread) : holds id thread := by
  have within : id < bound := by
    by_contra beyond
    rw [below id (Nat.not_lt.mp beyond)] at found
    cases found
  exact checked id within thread found

theorem always_below {code : Code σ κ ρ ω} {bound : Nat} {initial final : System σ κ}
    {history : List (System σ κ × Event ρ ω)} (run : Run code.step initial history final)
    (below : initial.Below bound) (numbered : Guarded (fun _ event => event.thread < bound) history) :
    Always (System.Below bound) history final := by
  refine run.always_of_guarded below ?_ numbered
  intro s event after before within taken id beyond
  rw [step_other taken (by omega)]
  exact before id beyond

/-- What holds of the shared state, of every thread where it stands, and of any two threads. -/
structure Assertions (σ κ : Type*) where
  shared : σ → Prop
  thread : σ → Nat → κ → Prop
  pair : κ → κ → Prop

structure Assertions.Hold (assertions : Assertions σ κ) (s : System σ κ) : Prop where
  shared : assertions.shared s.shared
  thread : ∀ id thread, s.threads id = some thread → assertions.thread s.shared id thread
  pair : ∀ id other, id ≠ other → ∀ thread otherThread, s.threads id = some thread →
    s.threads other = some otherThread → assertions.pair thread otherThread

/-- A step keeps the assertions if it keeps those of its own thread and does not
    interfere with those of any other. -/
theorem Assertions.Hold.put {assertions : Assertions σ κ} {s : System σ κ} (hold : assertions.Hold s)
    (symmetric : ∀ thread other, assertions.pair thread other → assertions.pair other thread)
    (id : Nat) (next : σ × κ) (shared : assertions.shared next.1) (own : assertions.thread next.1 id next.2)
    (others : ∀ other thread, other ≠ id → s.threads other = some thread →
      assertions.thread next.1 other thread ∧ assertions.pair next.2 thread) : assertions.Hold (s.put id next) where
  shared := shared
  thread := by
    intro other thread found
    by_cases same : other = id
    · subst same
      rw [s.put_same] at found
      cases found
      exact own
    · rw [s.put_other same] at found
      exact (others other thread same found).1
  pair := by
    intro first second differs thread otherThread firstFound secondFound
    by_cases isFirst : first = id
    · subst isFirst
      rw [s.put_same] at firstFound
      rw [s.put_other differs.symm] at secondFound
      cases firstFound
      exact (others second otherThread differs.symm secondFound).2
    · rw [s.put_other isFirst] at firstFound
      by_cases isSecond : second = id
      · subst isSecond
        rw [s.put_same] at secondFound
        cases secondFound
        exact symmetric _ _ (others first thread isFirst firstFound).2
      · rw [s.put_other isSecond] at secondFound
        exact hold.pair first second differs thread otherThread firstFound secondFound

theorem Assertions.Hold.empty {assertions : Assertions σ κ} {shared : σ} (holds : assertions.shared shared) :
    assertions.Hold ⟨shared, fun _ => none⟩ where
  shared := holds
  thread := by
    intro id thread found
    cases found
  pair := by
    intro id other _ thread otherThread found
    cases found

section Listed

variable {α : Type*} {pending : κ → Option α}

/-- The threads that have something pending, with what it is. -/
structure Listed (pending : κ → Option α) (s : System σ κ) (entries : List (Nat × α)) : Prop where
  distinct : entries.Nodup
  exact : ∀ id value, (id, value) ∈ entries ↔ (s.threads id).bind pending = some value

theorem Listed.empty (pending : κ → Option α) (shared : σ) : Listed pending ⟨shared, fun _ => none⟩ [] :=
  ⟨List.nodup_nil, by simp⟩

theorem Listed.split {s : System σ κ} {entries : List (Nat × α)} (listed : Listed pending s entries) (id : Nat) :
    entries.Perm
      (((s.threads id).bind pending).toList.map (Prod.mk id) ++ entries.filter fun entry => entry.1 != id) := by
  have own : (entries.filter fun entry => entry.1 == id).Perm
      (((s.threads id).bind pending).toList.map (Prod.mk id)) := by
    refine (List.perm_ext_iff_of_nodup (listed.distinct.filter _) ?_).mpr ?_
    · cases (s.threads id).bind pending <;> simp
    · rintro ⟨other, value⟩
      simp only [List.mem_filter, beq_iff_eq, List.mem_map, Option.mem_toList, Prod.mk.injEq]
      constructor
      · rintro ⟨member, rfl⟩
        exact ⟨value, (listed.exact other value).mp member, rfl, rfl⟩
      · rintro ⟨_, found, rfl, rfl⟩
        exact ⟨(listed.exact id _).mpr found, rfl⟩
  exact (List.filter_append_perm _ entries).symm.trans (own.append_right _)

theorem Listed.put {s : System σ κ} {entries : List (Nat × α)} (listed : Listed pending s entries) (id : Nat)
    (next : σ × κ) : ∃ later, Listed pending (s.put id next) later ∧
      (((s.threads id).bind pending).toList ++ later.map Prod.snd).Perm
        ((pending next.2).toList ++ entries.map Prod.snd) := by
  let others := entries.filter fun entry => entry.1 != id
  refine ⟨(pending next.2).toList.map (Prod.mk id) ++ others, ⟨?_, ?_⟩, ?_⟩
  · refine List.nodup_append.mpr ⟨?_, listed.distinct.filter _, ?_⟩
    · cases pending next.2 <;> simp
    · intro entry own other member same
      obtain ⟨value, _, rfl⟩ := List.mem_map.mp own
      rw [← same] at member
      simp [others] at member
  · intro other value
    simp only [List.mem_append, List.mem_map, Option.mem_toList, Prod.mk.injEq, others, List.mem_filter,
      listed.exact, bne_iff_ne]
    by_cases same : other = id
    · subst same
      simp [s.put_same]
    · simp [s.put_other same, same, Ne.symm same]
  · have values := (listed.split id).map Prod.snd
    simp only [List.map_append, List.map_map, Function.comp_def, List.map_id'] at values ⊢
    exact (List.perm_append_comm_assoc _ _ _).trans (values.symm.append_left _)

end Listed

end Interleaving
