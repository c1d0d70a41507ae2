import Mathlib.Data.List.Sort

-- The items of a list that score best.
namespace Ranking

variable {α : Type*}

section Distinct

variable [BEq α] [LawfulBEq α]

omit [LawfulBEq α] in
theorem eraseDups_sublist (items : List α) : items.eraseDups.Sublist items := by
  induction bound : items.length using Nat.strong_induction_on generalizing items with
  | _ n ih =>
    cases items with
    | nil => exact .slnil
    | cons item items =>
      rw [List.eraseDups_cons]
      have shorter : (items.filter fun other => !other == item).length < n := by
        rw [← bound]
        exact Nat.lt_succ_of_le (List.length_filter_le _ _)
      exact ((ih _ shorter _ rfl).trans List.filter_sublist).cons_cons item

theorem eraseDups_nodup (items : List α) : items.eraseDups.Nodup := by
  induction bound : items.length using Nat.strong_induction_on generalizing items with
  | _ n ih =>
    cases items with
    | nil => exact List.nodup_nil
    | cons item items =>
      rw [List.eraseDups_cons, List.nodup_cons]
      have shorter : (items.filter fun other => !other == item).length < n := by
        rw [← bound]
        exact Nat.lt_succ_of_le (List.length_filter_le _ _)
      exact ⟨by simp, ih _ shorter _ rfl⟩

theorem eraseDups_length {items others : List α} (same : ∀ item, item ∈ items ↔ item ∈ others) :
    items.eraseDups.length = others.eraseDups.length := by
  apply List.Perm.length_eq
  rw [List.perm_ext_iff_of_nodup (eraseDups_nodup items) (eraseDups_nodup others)]
  intro item
  rw [List.mem_eraseDups, List.mem_eraseDups]
  exact same item

end Distinct

/-- Behind the best score stands the second best, which is the best again only if it is there twice. -/
theorem second_lt_iff {best : ℤ} {scores others : List ℤ} (split : scores.Perm (best :: others)) (some : others ≠ [])
    (most : ∀ other ∈ others, other ≤ best) :
    (scores.insertionSort fun a b => b ≤ a)[1]?.getD 0 < best ↔ ∀ other ∈ others, other < best := by
  have total : Std.Total fun a b : ℤ => b ≤ a := ⟨fun a b => Int.le_total b a⟩
  have transitive : IsTrans ℤ fun a b => b ≤ a := ⟨fun _ _ _ first second => second.trans first⟩
  have perm := (List.perm_insertionSort (fun a b : ℤ => b ≤ a) scores).trans split
  have sorted := List.pairwise_insertionSort (fun a b : ℤ => b ≤ a) scores
  have nonempty : scores.insertionSort (fun a b => b ≤ a) ≠ [] := by
    intro none
    rw [none] at perm
    exact absurd perm.symm.eq_nil (List.cons_ne_nil _ _)
  obtain ⟨first, rest, shape⟩ := List.exists_cons_of_ne_nil nonempty
  rw [shape] at perm sorted ⊢
  have top : first = best := by
    have below := (List.pairwise_cons.mp sorted).1
    rcases List.mem_cons.mp (perm.mem_iff.mpr List.mem_cons_self) with same | later
    · exact same.symm
    · rcases List.mem_cons.mp (perm.mem_iff.mp List.mem_cons_self) with same | other
      · exact same
      · exact le_antisymm (most first other) (below best later)
  rw [top] at perm
  have remaining := perm.cons_inv
  have more : rest ≠ [] := by
    intro none
    rw [none] at remaining
    exact some remaining.symm.eq_nil
  obtain ⟨second, rest, rfl⟩ := List.exists_cons_of_ne_nil more
  have below := (List.pairwise_cons.mp (List.pairwise_cons.mp sorted).2).1
  constructor
  · intro smaller other member
    rcases List.mem_cons.mp (remaining.mem_iff.mpr member) with rfl | later
    · exact smaller
    · exact (below other later).trans_lt smaller
  · intro smaller
    exact smaller second (remaining.mem_iff.mp List.mem_cons_self)

theorem second_item_lt_iff [BEq α] [LawfulBEq α] (score : α → ℤ) {items : List α} {best : α}
    (listed : best ∈ items) (many : 1 < items.length)
    (most : ∀ other ∈ items, score other ≤ score best) :
    ((items.map score).insertionSort fun a b => b ≤ a)[1]?.getD 0 < score best ↔
      ∀ other ∈ items.erase best, score other < score best := by
  have others : (items.erase best).map score ≠ [] := by
    intro none
    have length := List.length_erase_of_mem listed
    rw [List.map_eq_nil_iff.mp none, List.length_nil] at length
    omega
  have second := second_lt_iff ((List.perm_cons_erase listed).map score) others (by
    rw [List.forall_mem_map]
    exact fun other member => most other (List.mem_of_mem_erase member))
  rwa [List.forall_mem_map] at second

variable (score : α → ℕ)

/-- The items, best score first, those of one score in the order they had. -/
def bestFirst (items : List α) : List α :=
  ((items.map fun item => (item, score item)).insertionSort fun a b => b.2 ≤ a.2).map Prod.fst

theorem mem_bestFirst {items : List α} {item : α} : item ∈ bestFirst score items ↔ item ∈ items := by
  simp [bestFirst, List.mem_insertionSort]

theorem bestFirst_sorted (items : List α) : (bestFirst score items).Pairwise fun a b => score b ≤ score a := by
  have total : Std.Total fun a b : α × ℕ => b.2 ≤ a.2 := ⟨fun a b => Nat.le_total b.2 a.2⟩
  have transitive : IsTrans (α × ℕ) fun a b => b.2 ≤ a.2 := ⟨fun _ _ _ first second => second.trans first⟩
  have scored : ∀ pair ∈ (items.map fun item => (item, score item)).insertionSort fun a b => b.2 ≤ a.2,
      pair.2 = score pair.1 := by
    intro pair member
    obtain ⟨item, _, rfl⟩ := List.mem_map.mp ((List.mem_insertionSort _).mp member)
    rfl
  rw [bestFirst, List.pairwise_map]
  refine (List.pairwise_insertionSort (fun a b : α × ℕ => b.2 ≤ a.2) _).imp_of_mem ?_
  intro a b first second ordered
  rwa [scored a first, scored b second] at ordered

variable [BEq α] [LawfulBEq α]

/-- What the `k` best distinct items of a list are. -/
structure Best (k : ℕ) (items picked : List α) : Prop where
  distinct : picked.Nodup
  among : ∀ item ∈ picked, item ∈ items
  sorted : picked.Pairwise fun a b => score b ≤ score a
  many : picked.length = min k items.eraseDups.length
  best : ∀ item ∈ items, item ∉ picked → ∀ pick ∈ picked, score item ≤ score pick

theorem best_take (k : ℕ) (items : List α) : Best score k items ((bestFirst score items).eraseDups.take k) := by
  have sorted : (bestFirst score items).eraseDups.Pairwise fun a b => score b ≤ score a :=
    (bestFirst_sorted score items).sublist (eraseDups_sublist _)
  refine ⟨?_, ?_, ?_, ?_, ?_⟩
  · exact (eraseDups_nodup _).sublist (List.take_sublist k _)
  · intro item member
    rw [← mem_bestFirst score, ← List.mem_eraseDups]
    exact (List.take_sublist k _).subset member
  · exact sorted.sublist (List.take_sublist k _)
  · rw [List.length_take, eraseDups_length fun item => mem_bestFirst score]
  · intro item member left pick picked
    have listed : item ∈ (bestFirst score items).eraseDups := by
      rw [List.mem_eraseDups, mem_bestFirst]
      exact member
    rw [← List.take_append_drop k (bestFirst score items).eraseDups] at listed sorted
    have dropped := (List.mem_append.mp listed).resolve_left left
    exact (List.pairwise_append.mp sorted).2.2 pick picked item dropped

end Ranking
