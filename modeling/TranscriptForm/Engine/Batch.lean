import TranscriptForm.Engine.Native

namespace Engine

open Handles

structure BatchMallocs.Succeed (mallocs : BatchMallocs) (nTokensAlloc : Nat) : Prop where
  token : mallocs.token = true
  pos : mallocs.pos = true
  nSeqId : mallocs.nSeqId = true
  seqId : mallocs.seqId = true
  seqIds : ∀ i < nTokensAlloc, mallocs.seqIds i = true
  logits : mallocs.logits = true

instance (mallocs : BatchMallocs) (nTokensAlloc : Nat) : Decidable (mallocs.Succeed nTokensAlloc) :=
  decidable_of_iff (mallocs.token = true ∧ mallocs.pos = true ∧ mallocs.nSeqId = true ∧ mallocs.seqId = true ∧
      (∀ i < nTokensAlloc, mallocs.seqIds i = true) ∧ mallocs.logits = true)
    ⟨fun all => ⟨all.1, all.2.1, all.2.2.1, all.2.2.2.1, all.2.2.2.2.1, all.2.2.2.2.2⟩,
      fun each => ⟨each.token, each.pos, each.nSeqId, each.seqId, each.seqIds, each.logits⟩⟩

def everythingSucceeds : LoadAllocations := ⟨true, true, true, true, ⟨true, true, true, true, fun _ => true, true⟩⟩

theorem tryAlloc_isSome (succeeds : Bool) (heap : Heap) : (heap.tryAlloc succeeds).2.isSome = succeeds := by
  cases succeeds with
  | true => rfl
  | false => rfl

theorem mallocEach_isSome (succeeds : Nat → Bool) (n : Nat) (heap : Heap) :
    (∀ pointer ∈ (mallocEach succeeds n heap).2, pointer.isSome = true) ↔ ∀ i < n, succeeds i = true := by
  induction n with
  | zero => simp [mallocEach]
  | succ n ih =>
    simp only [mallocEach, List.forall_mem_append, List.forall_mem_singleton, tryAlloc_isSome, ih]
    constructor
    · rintro ⟨earlier, last⟩ i below
      rcases Nat.lt_succ_iff_lt_or_eq.mp below with below | rfl
      · exact earlier i below
      · exact last
    · intro all
      exact ⟨fun i below => all i (Nat.lt_succ_of_lt below), all n (Nat.lt_succ_self n)⟩

theorem length_mallocEach (succeeds : Nat → Bool) (n : Nat) (heap : Heap) :
    (mallocEach succeeds n heap).2.length = n := by
  induction n with
  | zero => rfl
  | succ n ih => simp only [mallocEach, List.length_append, List.length_singleton, ih]

theorem mallocEach_holds {succeeds : Nat → Bool} {n : Nat} {heap : Heap} {earlier owned : List Nat}
    (all : ∀ i < n, succeeds i = true) (holds : heap.Holds (earlier ++ owned)) :
    ∃ arrays, (mallocEach succeeds n heap).2 = arrays.map some ∧
      (mallocEach succeeds n heap).1.Holds (earlier ++ arrays ++ owned) := by
  induction n with
  | zero => exact ⟨[], rfl, by simpa [mallocEach] using holds⟩
  | succ n ih =>
    obtain ⟨arrays, same, later⟩ := ih fun i below => all i (Nat.lt_succ_of_lt below)
    have last := all n (Nat.lt_succ_self n)
    refine ⟨arrays ++ [(mallocEach succeeds n heap).1.alloc.2], ?_, ?_⟩
    · simp only [mallocEach, same, last, Heap.tryAlloc, if_true, List.map_append, List.map_cons, List.map_nil]
    · have inserted := later.insert
      simpa only [mallocEach, last, Heap.tryAlloc, if_true, List.append_assoc, List.singleton_append] using inserted

theorem mallocEach_dead {heap : Heap} {handle : Nat} (dead : heap.Dead handle) (succeeds : Nat → Bool) (n : Nat) :
    (mallocEach succeeds n heap).1.Dead handle := by
  induction n with
  | zero => exact dead
  | succ n ih => exact ih.tryAlloc (succeeds n)

theorem llamaBatchInit_dead {n : Nat} {mallocs : BatchMallocs} {heap : Heap} {made : Heap × LlamaBatch} {handle : Nat}
    (returned : llamaBatchInit n mallocs heap = some made) (dead : heap.Dead handle) : made.1.Dead handle := by
  unfold llamaBatchInit at returned
  dsimp only at returned
  split at returned
  · cases returned
  · cases returned
    have outer := (((dead.tryAlloc mallocs.token).tryAlloc mallocs.pos).tryAlloc mallocs.nSeqId).tryAlloc mallocs.seqId
    exact (mallocEach_dead outer mallocs.seqIds n).tryAlloc mallocs.logits

theorem llamaBatchInit_cases {n : Nat} {mallocs : BatchMallocs} {heap : Heap} {made : Heap × LlamaBatch}
    (returned : llamaBatchInit n mallocs heap = some made) :
    (made.2.token.isSome = mallocs.token ∧ made.2.pos.isSome = mallocs.pos ∧ made.2.nSeqId.isSome = mallocs.nSeqId ∧
      made.2.seqId.isSome = mallocs.seqId ∧ made.2.logits.isSome = mallocs.logits) ∧
    made.2.seqIds.length = n ∧
    ((∀ pointer ∈ made.2.seqIds, pointer.isSome = true) ↔ ∀ i < n, mallocs.seqIds i = true) := by
  unfold llamaBatchInit at returned
  dsimp only at returned
  split at returned
  · cases returned
  · cases returned
    exact ⟨⟨tryAlloc_isSome _ _, tryAlloc_isSome _ _, tryAlloc_isSome _ _, tryAlloc_isSome _ _, tryAlloc_isSome _ _⟩,
      length_mallocEach _ _ _, mallocEach_isSome _ _ _⟩

theorem llamaBatchInit_complete_iff {n : Nat} {mallocs : BatchMallocs} {heap : Heap} {made : Heap × LlamaBatch}
    (returned : llamaBatchInit n mallocs heap = some made) :
    (∀ pointer ∈ made.2.pointers, pointer.isSome = true) ↔ mallocs.Succeed n := by
  obtain ⟨⟨token, pos, nSeqId, seqId, logits⟩, _, seqIds⟩ := llamaBatchInit_cases returned
  simp only [LlamaBatch.pointers, List.forall_mem_append, List.forall_mem_cons, seqIds, token, pos, nSeqId, seqId,
    logits, List.not_mem_nil, false_implies, implies_true, and_true]
  constructor
  · rintro ⟨⟨⟨token, pos, nSeqId⟩, seqIds⟩, seqId, logits⟩
    exact ⟨token, pos, nSeqId, seqId, seqIds, logits⟩
  · rintro ⟨token, pos, nSeqId, seqId, seqIds, logits⟩
    exact ⟨⟨⟨token, pos, nSeqId⟩, seqIds⟩, seqId, logits⟩

theorem llamaBatchInit_holds {n : Nat} {mallocs : BatchMallocs} {heap : Heap} {owned : List Nat}
    (succeed : mallocs.Succeed n) (holds : heap.Holds owned) :
    ∃ made arrays, llamaBatchInit n mallocs heap = some made ∧ made.2.pointers = arrays.map some ∧
      made.1.Holds (arrays ++ owned) := by
  obtain ⟨token, pos, nSeqId, seqId, seqIds, logits⟩ := succeed
  let first := heap.alloc
  let second := first.1.alloc
  let third := second.1.alloc
  let fourth := third.1.alloc
  have none : heap.Holds ([] ++ owned) := holds
  have one : first.1.Holds ([first.2] ++ owned) := none.insert
  have two : second.1.Holds ([first.2] ++ second.2 :: owned) := one.insert
  have three : third.1.Holds ([first.2, second.2] ++ third.2 :: owned) := Heap.Holds.insert two
  have four : fourth.1.Holds ([first.2, second.2, third.2] ++ fourth.2 :: owned) := Heap.Holds.insert three
  obtain ⟨inner, same, filled⟩ := mallocEach_holds seqIds four
  let last := (mallocEach mallocs.seqIds n fourth.1).1.alloc
  have all : last.1.Holds ([first.2, second.2, third.2] ++ inner ++ [fourth.2] ++ last.2 :: owned) := by
    apply Heap.Holds.insert
    simpa only [List.append_assoc, List.singleton_append] using filled
  refine ⟨(last.1, ⟨some first.2, some second.2, some third.2, some fourth.2, inner.map some, some last.2⟩),
    [first.2, second.2, third.2] ++ inner ++ [fourth.2, last.2], ?_, ?_, ?_⟩
  · simp only [llamaBatchInit, token, pos, nSeqId, seqId, logits, Heap.tryAlloc, if_true, Option.isNone_some,
      Bool.false_eq_true, if_false]
    rw [same]
  · simp only [LlamaBatch.pointers, List.map_append, List.map_cons, List.map_nil]
  · simpa only [List.append_assoc, List.cons_append, List.nil_append] using all

theorem freed_of_complete {batch : LlamaBatch} (complete : ∀ pointer ∈ batch.pointers, pointer.isSome = true) :
    batch.freed = batch.arrays := by
  have inner : batch.seqIds.takeWhile Option.isSome = batch.seqIds := by
    apply List.takeWhile_eq_self_iff.mpr
    intro pointer member
    exact complete pointer (by simp [LlamaBatch.pointers, member])
  have outer : batch.seqId.isSome = true := complete _ (by simp [LlamaBatch.pointers])
  have single : ∀ pointer : Option Nat, [pointer].filterMap id = pointer.toList := by
    intro pointer
    cases pointer with
    | none => rfl
    | some handle => rfl
  have pointers : batch.pointers =
      [batch.token] ++ [batch.pos] ++ [batch.nSeqId] ++ batch.seqIds ++ [batch.seqId] ++ [batch.logits] := by
    simp [LlamaBatch.pointers]
  rw [LlamaBatch.freed, LlamaBatch.arrays, inner, if_pos outer, pointers]
  simp only [List.filterMap_append, single, List.append_assoc]

end Engine
