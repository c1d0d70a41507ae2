import Mathlib.Data.List.Dedup
import Mathlib.Data.List.Range
import TranscriptForm.Library.Numbering
import TranscriptForm.Engine.DirectInfer

namespace Engine

open Numbering

variable {τ : Type}

/-- `llama_kv_cache`: the cells in use in the order they were filled, each with its token and its position. All belong
    to sequence 0. -/
structure KvCache (τ : Type) where
  size : Nat
  cells : List (τ × Nat) := []

def Batch.cells (batch : Batch τ) : List (τ × Nat) := batch.map fun entry => (entry.token, entry.pos)

def Batch.positions (batch : Batch τ) : List Nat := batch.map BatchEntry.pos

namespace KvCache

def clear (cache : KvCache τ) : KvCache τ := { cache with cells := [] }

def seqPosMax (cache : KvCache τ) : Int := lastPlace cache.cells

/-- `pos_in`, in a range that has no end when `p1` is negative. -/
def posIn (p0 p1 : Int) (pos : Nat) : Bool := max 0 p0 ≤ pos && (p1 < 0 || (pos : Int) < p1)

def seqRm (p0 p1 : Int) (cache : KvCache τ) : KvCache τ :=
  { cache with cells := cache.cells.filter fun cell => !posIn p0 p1 cell.2 }

def seqAdd (p0 p1 shift : Int) (cache : KvCache τ) : KvCache τ :=
  if shift = 0 then cache
  else if max 0 p0 = p1 then cache
  else
    let posAdd (cell : τ × Nat) := if cell.2 + shift < 0 then none else some (cell.1, (cell.2 + shift).toNat)
    { cache with cells := cache.cells.filterMap fun cell => if posIn p0 p1 cell.2 then posAdd cell else some cell }

/-- What `llama_batch_allocr::init` checks of the positions of a batch. -/
def batchInit (batch : Batch τ) (cache : KvCache τ) : Bool :=
  let seqPos := batch.positions.dedup
  match seqPos.min?, seqPos.max? with
  | some seqPosMin, some seqPosMax =>
    (cache.seqPosMax < 0 || (seqPosMin : Int) = cache.seqPosMax + 1) && seqPosMax - seqPosMin + 1 ≤ seqPos.length
  | _, _ => true

/-- `llama_context::decode` of a batch that is one micro-batch, which returns `computes` where the positions are
    consistent and a slot is found. -/
def decode (batch : Batch τ) (computes : Int) (cache : KvCache τ) : KvCache τ × Int :=
  if batch.isEmpty then (cache, -1)
  else if !cache.batchInit batch then (cache, -1)
  else if cache.size < cache.cells.length + batch.length then (cache, 1)
  else
    let filled := { cache with cells := cache.cells ++ batch.cells }
    if computes = 0 then (filled, 0) else (filled.seqRm (batch.positions.min?.getD 0 : Nat) (-1), computes)

/-- `llama_context::decode` in micro-batches of `nUbatch` tokens. If `computes` is an error, it is that of the micro-batch
    `failing`, or of the last one if there are not so many: those before it stay. -/
def decodeUbatches (nUbatch : Nat) (batch : Batch τ) (failing : Nat) (computes : Int) (cache : KvCache τ) :
    KvCache τ × Int :=
  if batch.isEmpty then (cache, -1)
  else if !cache.batchInit batch then (cache, -1)
  else if cache.size < cache.cells.length + batch.length then (cache, 1)
  else if computes = 0 then ({ cache with cells := cache.cells ++ batch.cells }, 0)
  else
    let computed := min failing ((batch.length - 1) / nUbatch) * nUbatch
    let ubatch : Batch τ := (batch.drop computed).take nUbatch
    let filled := { cache with cells := cache.cells ++ Batch.cells (batch.take computed ++ ubatch) }
    (filled.seqRm (ubatch.positions.min?.getD 0 : Nat) (-1), computes)

theorem decodeUbatches_single {nUbatch : Nat} {batch : Batch τ} (single : batch.length ≤ nUbatch) (failing : Nat)
    (computes : Int) (cache : KvCache τ) :
    cache.decodeUbatches nUbatch batch failing computes = cache.decode batch computes := by
  unfold decodeUbatches decode
  split
  · rfl
  · rename_i filled
    have length : 0 < batch.length := List.length_pos_iff.mpr (by simpa [List.isEmpty_iff] using filled)
    have none : (batch.length - 1) / nUbatch = 0 := Nat.div_eq_of_lt (by omega)
    have whole : batch.take nUbatch = batch := List.take_of_length_le single
    split
    · rfl
    · split
      · rfl
      · simp only [none, Nat.min_zero, Nat.zero_mul, List.drop_zero, List.take_zero, List.nil_append, whole]

end KvCache

section Ranges

variable {cache : KvCache τ} {first last next down : Nat}

theorem seqRm_cells (cache : KvCache τ) (first last : Nat) : (cache.seqRm first last).cells = vacate first last cache.cells := by
  apply List.filter_congr
  intro cell _
  have noEnd : ¬ (last : Int) < 0 := by omega
  simp [KvCache.posIn, noEnd]

theorem pull_of_empty (entries : List (τ × Nat)) (still : down = 0 ∨ next ≤ last) : pull last next down entries = entries := by
  rw [pull, List.map_congr_left, List.map_id]
  intro entry _
  split
  · rename_i moved
    simp only [Bool.and_eq_true, decide_eq_true_eq] at moved
    have zero : down = 0 := by omega
    simp [zero]
  · rfl

theorem seqAdd_cells (cache : KvCache τ) (room : down ≤ last) :
    (cache.seqAdd last next (-down)).cells = pull last next down cache.cells := by
  unfold KvCache.seqAdd
  split
  · rw [pull_of_empty]
    omega
  · split
    · rw [pull_of_empty]
      omega
    · dsimp only
      rw [pull, ← List.filterMap_eq_map]
      apply List.filterMap_congr
      intro cell _
      have noEnd : ¬ (next : Int) < 0 := by omega
      simp only [KvCache.posIn, noEnd, decide_false, Bool.false_or, Function.comp_apply, Bool.and_eq_true,
        decide_eq_true_eq, Nat.cast_lt, max_le_iff, Nat.cast_le, Int.natCast_nonneg, true_and]
      split
      · have nonneg : ¬ (cell.2 : Int) + -down < 0 := by omega
        have moved : ((cell.2 : Int) + -down).toNat = cell.2 - down := by omega
        rw [if_neg nonneg, moved]
      · rfl

end Ranges

structure Batch.Consecutive (batch : Batch τ) (first : Nat) : Prop where
  positions : batch.positions = List.range' first batch.length
  nonempty : batch ≠ []

def KvCache.Follows (cache : KvCache τ) (pos : Nat) : Prop := cache.cells = [] ∨ (pos : Int) = cache.seqPosMax + 1

section Decode

variable {cache : KvCache τ} {batch : Batch τ} {first : Nat} {computes : Int}

theorem min?_range' {first count : Nat} (some : 0 < count) : (List.range' first count).min? = .some first := by
  rw [List.min?_eq_some_iff]
  constructor
  · rw [List.mem_range'_1]
    omega
  · intro place member
    exact (List.mem_range'_1.mp member).1

theorem max?_range' {first count : Nat} (some : 0 < count) : (List.range' first count).max? = .some (first + count - 1) := by
  rw [List.max?_eq_some_iff]
  constructor
  · rw [List.mem_range'_1]
    omega
  · intro place member
    have below := (List.mem_range'_1.mp member).2
    omega

theorem Batch.Consecutive.length_pos (consecutive : batch.Consecutive first) : 0 < batch.length :=
  List.length_pos_iff.mpr consecutive.nonempty

theorem seqPosMax_neg_iff : cache.seqPosMax < 0 ↔ cache.cells = [] := by
  constructor
  · intro negative
    cases cells : cache.cells with
    | nil => rfl
    | cons cell rest =>
      have member : cell ∈ cache.cells := by simp [cells]
      have above := le_lastPlace member
      rw [KvCache.seqPosMax] at negative
      omega
  · intro empty
    rw [KvCache.seqPosMax, empty]
    exact Int.negSucc_lt_zero 0

theorem batchInit_iff (consecutive : batch.Consecutive first) :
    cache.batchInit batch = true ↔ cache.Follows first := by
  have some := consecutive.length_pos
  have distinct : (List.range' first batch.length).dedup = List.range' first batch.length :=
    List.dedup_eq_self.mpr List.nodup_range'
  have continuous : first + batch.length - 1 - first + 1 ≤ batch.length := by omega
  unfold KvCache.batchInit
  dsimp only
  rw [consecutive.positions, distinct, min?_range' some, max?_range' some]
  simp [KvCache.Follows, seqPosMax_neg_iff, continuous]

structure KvCache.Filled (cache : KvCache τ) (batch : Batch τ) (first : Nat) (decoded : KvCache τ × Int) : Prop where
  same : decoded.1 = { cache with cells := cache.cells ++ batch.cells }
  code : decoded.2 = 0
  follows : cache.Follows first
  room : cache.cells.length + batch.length ≤ cache.size

theorem decode_size (batch : Batch τ) (computes : Int) (cache : KvCache τ) :
    (cache.decode batch computes).1.size = cache.size := by
  unfold KvCache.decode
  split
  · rfl
  · split
    · rfl
    · split
      · rfl
      · dsimp only
        split <;> rfl

structure KvCache.Refused (cache : KvCache τ) (batch : Batch τ) (first : Nat) (computes : Int) (decoded : KvCache τ × Int) :
    Prop where
  same : decoded.1 = cache
  code : decoded.2 ≠ 0
  why : ¬ cache.Follows first ∨ cache.size < cache.cells.length + batch.length ∨ computes ≠ 0

theorem seqRm_above {kept gone : List (τ × Nat)} {least : Nat} (cache : KvCache τ) (below : ∀ cell ∈ kept, cell.2 < least)
    (above : ∀ cell ∈ gone, least ≤ cell.2) :
    ({ cache with cells := kept ++ gone } : KvCache τ).seqRm least (-1) = { cache with cells := kept } := by
  have stays : kept.filter (fun cell => !KvCache.posIn least (-1) cell.2) = kept := by
    apply List.filter_eq_self.mpr
    intro cell member
    simp [KvCache.posIn, below cell member]
  have removed : gone.filter (fun cell => !KvCache.posIn least (-1) cell.2) = [] := by
    apply List.filter_eq_nil_iff.mpr
    intro cell member
    simp [KvCache.posIn, above cell member]
  unfold KvCache.seqRm
  dsimp only
  rw [List.filter_append, stays, removed, List.append_nil]

theorem KvCache.Follows.above (follows : cache.Follows first) : ∀ cell ∈ cache.cells, cell.2 < first := by
  intro cell member
  have above := le_lastPlace member
  rcases follows with empty | next
  · rw [empty] at member
    cases member
  · rw [KvCache.seqPosMax] at next
    omega

theorem Batch.Consecutive.places (consecutive : batch.Consecutive first) :
    batch.cells.map Prod.snd = List.range' first batch.length := by
  rw [← consecutive.positions, Batch.cells, List.map_map]
  rfl

theorem Batch.Consecutive.mem_cells (consecutive : batch.Consecutive first) :
    ∀ cell ∈ batch.cells, first ≤ cell.2 ∧ cell.2 < first + batch.length := by
  intro cell member
  have place : cell.2 ∈ List.range' first batch.length := by
    rw [← consecutive.places]
    exact List.mem_map_of_mem member
  exact List.mem_range'_1.mp place

/-- What a failed computation leaves: the cells that the batch had filled are empty again. -/
theorem seqRm_filled (consecutive : batch.Consecutive first) (follows : cache.Follows first) :
    ({ cache with cells := cache.cells ++ batch.cells } : KvCache τ).seqRm first (-1) = cache :=
  seqRm_above cache follows.above fun cell member => (consecutive.mem_cells cell member).1

theorem decode_cases (consecutive : batch.Consecutive first) (cache : KvCache τ) (computes : Int) :
    cache.Filled batch first (cache.decode batch computes) ∨
      cache.Refused batch first computes (cache.decode batch computes) := by
  have filled : ¬ batch.isEmpty = true := by simpa [List.isEmpty_iff] using consecutive.nonempty
  unfold KvCache.decode
  rw [if_neg filled]
  by_cases follows : cache.Follows first
  · have accepted := (batchInit_iff consecutive).mpr follows
    rw [accepted]
    simp only [Bool.not_true, Bool.false_eq_true, if_false]
    by_cases full : cache.size < cache.cells.length + batch.length
    · rw [if_pos full]
      exact .inr ⟨rfl, Int.one_ne_zero, .inr (.inl full)⟩
    · rw [if_neg full]
      by_cases computed : computes = 0
      · rw [if_pos computed]
        exact .inl ⟨rfl, rfl, follows, Nat.le_of_not_lt full⟩
      · rw [if_neg computed, consecutive.positions, min?_range' consecutive.length_pos]
        exact .inr ⟨seqRm_filled consecutive follows, computed, .inr (.inr computed)⟩
  · have rejected : cache.batchInit batch = false := by
      rw [← Bool.not_eq_true, batchInit_iff consecutive]
      exact follows
    rw [rejected]
    exact .inr ⟨rfl, Int.neg_ne_zero.mpr Int.one_ne_zero, .inl follows⟩

theorem Batch.Consecutive.take {count : Nat} (consecutive : batch.Consecutive first) (some : 0 < count)
    (within : count ≤ batch.length) : Batch.Consecutive (batch.take count) first where
  positions := by
    have places := congrArg (List.take count) consecutive.positions
    rw [List.take_range'_of_length_ge within] at places
    rw [List.length_take, Nat.min_eq_left within, ← places]
    exact List.map_take
  nonempty := by
    rw [← List.length_pos_iff, List.length_take]
    omega

theorem Batch.Consecutive.drop {count : Nat} (consecutive : batch.Consecutive first) (more : count < batch.length) :
    Batch.Consecutive (batch.drop count) (first + count) where
  positions := by
    have places := congrArg (List.drop count) consecutive.positions
    rw [List.drop_range', Nat.mul_one] at places
    rw [List.length_drop, ← places]
    exact List.map_drop
  nonempty := by
    rw [← List.length_pos_iff, List.length_drop]
    omega

end Decode

end Engine
