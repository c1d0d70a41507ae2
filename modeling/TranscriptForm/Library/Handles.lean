import Mathlib.Data.List.Basic
import Mathlib.Data.List.Nodup

namespace Handles

/-- A misuse of a handle: of one that is no longer live, or the loss of one that is. -/
inductive Fault
  | released (handle : Nat)
  | used (handle : Nat)
  | lost (handle : Nat)
  deriving DecidableEq

/-- Resources known by handles. A handle is never given out twice, so one that is
    not live any more stays dead. -/
structure Heap where
  next : Nat := 0
  live : List Nat := []
  faults : List Fault := []
  deriving DecidableEq

namespace Heap

def alloc (heap : Heap) : Heap × Nat :=
  ({ heap with next := heap.next + 1, live := heap.next :: heap.live }, heap.next)

def release (heap : Heap) (handle : Nat) : Heap :=
  if handle ∈ heap.live then { heap with live := heap.live.erase handle }
  else { heap with faults := heap.faults ++ [.released handle] }

def use (heap : Heap) (handle : Nat) : Heap :=
  if handle ∈ heap.live then heap else { heap with faults := heap.faults ++ [.used handle] }

/-- A variable that holds the handle is assigned anew. -/
def overwrite (heap : Heap) (handle : Option Nat) : Heap :=
  match handle with
  | some handle =>
    if handle ∈ heap.live then { heap with faults := heap.faults ++ [.lost handle] } else heap
  | none => heap

def tryAlloc (succeeds : Bool) (heap : Heap) : Heap × Option Nat :=
  if succeeds then (heap.alloc.1, some heap.alloc.2) else (heap, none)

/-- The live handles are these, each of them held once, and nothing was misused. -/
structure Holds (heap : Heap) (owned : List Nat) : Prop where
  live : heap.live.Perm owned
  distinct : owned.Nodup
  bounded : ∀ handle ∈ owned, handle < heap.next
  sound : heap.faults = []

variable {heap : Heap} {owned : List Nat} {handle : Nat}

theorem Holds.mem_live (holds : heap.Holds owned) : handle ∈ heap.live ↔ handle ∈ owned := holds.live.mem_iff

theorem Holds.perm {other : List Nat} (holds : heap.Holds owned) (same : owned.Perm other) : heap.Holds other where
  live := holds.live.trans same
  distinct := same.nodup_iff.mp holds.distinct
  bounded := fun handle member => holds.bounded handle (same.mem_iff.mpr member)
  sound := holds.sound

theorem Holds.empty : ({} : Heap).Holds [] where
  live := .refl _
  distinct := List.nodup_nil
  bounded := by simp
  sound := rfl

theorem Holds.alloc (holds : heap.Holds owned) : heap.alloc.1.Holds (heap.alloc.2 :: owned) where
  live := holds.live.cons _
  distinct := by
    refine List.nodup_cons.mpr ⟨?_, holds.distinct⟩
    intro member
    have below := holds.bounded _ member
    exact absurd below (Nat.lt_irrefl _)
  bounded := by
    intro handle member
    show handle < heap.next + 1
    rcases List.mem_cons.mp member with same | member
    · rw [same]
      exact Nat.lt_succ_self _
    · exact Nat.lt_succ_of_lt (holds.bounded handle member)
  sound := holds.sound

theorem Holds.release (holds : heap.Holds (handle :: owned)) : (heap.release handle).Holds owned := by
  have held : handle ∈ heap.live := holds.mem_live.mpr (by simp)
  rw [Heap.release, if_pos held]
  refine ⟨?_, (List.nodup_cons.mp holds.distinct).2, ?_, holds.sound⟩
  · have erased := holds.live.erase handle
    rwa [List.erase_cons_head] at erased
  · intro other member
    exact holds.bounded other (List.mem_cons_of_mem _ member)

theorem Holds.use (holds : heap.Holds owned) (held : handle ∈ owned) : heap.use handle = heap :=
  if_pos (holds.mem_live.mpr held)

def releaseAll (heap : Heap) (handles : List Nat) : Heap := handles.foldl release heap

theorem Holds.releaseAll {handles : List Nat} (holds : heap.Holds (handles ++ owned)) :
    (heap.releaseAll handles).Holds owned := by
  induction handles generalizing heap with
  | nil => exact holds
  | cons handle handles ih => exact ih holds.release

theorem Holds.live_of_releaseAll {handles : List Nat} (holds : heap.Holds (handles ++ owned))
    (live : handle ∈ (heap.releaseAll handles).live) : handle ∈ heap.live ∧ handle ∉ handles := by
  have kept : handle ∈ owned := holds.releaseAll.mem_live.mp live
  refine ⟨holds.mem_live.mpr (List.mem_append_right _ kept), ?_⟩
  intro released
  exact (List.disjoint_of_nodup_append holds.distinct) released kept

theorem releaseAll_next (handles : List Nat) (heap : Heap) : (heap.releaseAll handles).next = heap.next := by
  induction handles generalizing heap with
  | nil => rfl
  | cons handle handles ih =>
    have first : (heap.release handle).next = heap.next := by
      unfold release
      split <;> rfl
    exact (ih _).trans first

theorem Holds.insert {earlier : List Nat} (holds : heap.Holds (earlier ++ owned)) :
    heap.alloc.1.Holds (earlier ++ heap.alloc.2 :: owned) := holds.alloc.perm List.perm_middle.symm

/-- Given out before, and not live any more. -/
def Dead (heap : Heap) (handle : Nat) : Prop := handle < heap.next ∧ handle ∉ heap.live

theorem Dead.alloc (dead : heap.Dead handle) : heap.alloc.1.Dead handle := by
  refine ⟨Nat.lt_succ_of_lt dead.1, ?_⟩
  intro live
  rcases List.mem_cons.mp live with new | live
  · exact absurd dead.1 (by rw [new]; exact Nat.lt_irrefl _)
  · exact dead.2 live

theorem Dead.tryAlloc (dead : heap.Dead handle) (succeeds : Bool) : (heap.tryAlloc succeeds).1.Dead handle := by
  cases succeeds with
  | true => exact dead.alloc
  | false => exact dead

theorem Dead.overwrite (dead : heap.Dead handle) : heap.overwrite (some handle) = heap := if_neg dead.2

def overwriteAll (heap : Heap) (handles : List Nat) : Heap :=
  handles.foldl (fun heap handle => heap.overwrite (some handle)) heap

theorem overwriteAll_dead {handles : List Nat} (dead : ∀ handle ∈ handles, heap.Dead handle) :
    heap.overwriteAll handles = heap := by
  induction handles with
  | nil => rfl
  | cons handle handles ih =>
    have head := dead handle (by simp)
    have tail := ih fun other member => dead other (List.mem_cons_of_mem _ member)
    rw [overwriteAll, List.foldl_cons, head.overwrite]
    exact tail

end Heap

end Handles
