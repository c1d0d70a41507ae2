import Mathlib.Algebra.Order.Ring.Int
import Mathlib.Data.List.Basic

-- Things that stand at numbered places, a range of which is cleared and closed again.
namespace Numbering

variable {α : Type*}

/-- Nothing stands at the places from `first` to before `last` any more. -/
def vacate (first last : ℕ) (entries : List (α × ℕ)) : List (α × ℕ) :=
  entries.filter fun entry => !(first ≤ entry.2 && entry.2 < last)

/-- What stands at the places from `first` to before `last` moves down. -/
def pull (first last down : ℕ) (entries : List (α × ℕ)) : List (α × ℕ) :=
  entries.map fun entry => if first ≤ entry.2 && entry.2 < last then (entry.1, entry.2 - down) else entry

theorem mem_vacate_above {first last place : ℕ} {item : α} {entries : List (α × ℕ)} (member : (item, place) ∈ entries)
    (above : last ≤ place) : (item, place) ∈ vacate first last entries := by
  rw [vacate, List.mem_filter]
  exact ⟨member, by simp [above]⟩

theorem mem_pull_above {first last down place : ℕ} {item : α} {entries : List (α × ℕ)} (member : (item, place) ∈ entries)
    (above : last ≤ place) : (item, place) ∈ pull first last down entries := by
  rw [pull, List.mem_map]
  exact ⟨(item, place), member, by simp [Nat.not_lt.mpr above]⟩

theorem place_of_mem_vacate {first last place : ℕ} {item : α} {entries : List (α × ℕ)}
    (member : (item, place) ∈ vacate first last entries) : (item, place) ∈ entries := List.mem_of_mem_filter member

theorem place_of_mem_pull {first last down place : ℕ} {item : α} {entries : List (α × ℕ)}
    (member : (item, place) ∈ pull first last down entries) : ∃ before, place ≤ before ∧ (item, before) ∈ entries := by
  obtain ⟨⟨other, before⟩, inside, same⟩ := List.mem_map.mp member
  dsimp only at same
  split at same
  · cases same
    exact ⟨before, Nat.sub_le _ _, inside⟩
  · cases same
    exact ⟨place, Nat.le_refl _, inside⟩

theorem pull_vacate_zipIdx {first last next : ℕ} (items : List α) (start : ℕ) (ordered : first ≤ last)
    (whole : start + items.length ≤ next) :
    pull last next (last - first) (vacate first last (items.zipIdx start)) =
      (items.take (first - start) ++ items.drop (last - start)).zipIdx (min start first + (start - last)) := by
  induction items generalizing start with
  | nil => simp [vacate, pull]
  | cons item items ih =>
    have rest := ih (start + 1) (by rw [List.length_cons] at whole; omega)
    have inside : start < next := by
      rw [List.length_cons] at whole
      omega
    rw [List.zipIdx_cons]
    rcases Nat.lt_or_ge start first with before | behind
    · have kept : (!(decide (first ≤ start) && decide (start < last))) = true := by simp [before]
      have still : (decide (last ≤ start) && decide (start < next)) = false := by
        simp only [Bool.and_eq_false_imp, decide_eq_true_eq]
        omega
      obtain ⟨more, moreIs⟩ : ∃ more, first - start = more + 1 := ⟨first - start - 1, by omega⟩
      obtain ⟨later, laterIs⟩ : ∃ later, last - start = later + 1 := ⟨last - start - 1, by omega⟩
      have place : min start first + (start - last) = start := by omega
      have nextPlace : min (start + 1) first + (start + 1 - last) = start + 1 := by omega
      have takes : first - (start + 1) = more := by omega
      have drops : last - (start + 1) = later := by omega
      rw [takes, drops, nextPlace] at rest
      rw [moreIs, laterIs, place, List.take_succ_cons, List.drop_succ_cons, List.cons_append, List.zipIdx_cons, ← rest]
      simp only [vacate, pull, List.filter_cons, kept, if_true, List.map_cons, still, Bool.false_eq_true, if_false]
    · have noTake : first - start = 0 := by omega
      have noTakeLater : first - (start + 1) = 0 := by omega
      rw [noTakeLater, List.take_zero, List.nil_append] at rest
      rw [noTake, List.take_zero, List.nil_append]
      rcases Nat.lt_or_ge start last with cleared | above
      · have gone : (!(decide (first ≤ start) && decide (start < last))) = false := by simp [behind, cleared]
        obtain ⟨later, laterIs⟩ : ∃ later, last - start = later + 1 := ⟨last - start - 1, by omega⟩
        have drops : last - (start + 1) = later := by omega
        have place : min (start + 1) first + (start + 1 - last) = min start first + (start - last) := by omega
        rw [drops, place] at rest
        rw [laterIs, List.drop_succ_cons, ← rest]
        simp only [vacate, List.filter_cons, gone, Bool.false_eq_true, if_false]
      · have kept : (!(decide (first ≤ start) && decide (start < last))) = true := by simp [above]
        have moved : (decide (last ≤ start) && decide (start < next)) = true := by simp [above, inside]
        have drops : last - start = 0 := by omega
        have dropsLater : last - (start + 1) = 0 := by omega
        have place : start - (last - first) = min start first + (start - last) := by omega
        have nextPlace : min (start + 1) first + (start + 1 - last) = min start first + (start - last) + 1 := by omega
        rw [dropsLater, nextPlace, List.drop_zero] at rest
        rw [drops, List.drop_zero, List.zipIdx_cons, ← rest]
        simp only [vacate, pull, List.filter_cons, kept, if_true, List.map_cons, moved, place]

def lastPlace (entries : List (α × ℕ)) : ℤ := entries.foldl (fun last entry => max last entry.2) (-1)

theorem foldl_max_le {entries : List (α × ℕ)} {last bound : ℤ} :
    entries.foldl (fun last entry => max last (entry.2 : ℤ)) last ≤ bound ↔
      last ≤ bound ∧ ∀ entry ∈ entries, (entry.2 : ℤ) ≤ bound := by
  induction entries generalizing last with
  | nil => simp
  | cons entry entries ih =>
    rw [List.foldl_cons, ih, max_le_iff, List.forall_mem_cons, and_assoc]

theorem lastPlace_le_iff {entries : List (α × ℕ)} {bound : ℤ} (nonneg : -1 ≤ bound) :
    lastPlace entries ≤ bound ↔ ∀ entry ∈ entries, (entry.2 : ℤ) ≤ bound := by
  rw [lastPlace, foldl_max_le, and_iff_right nonneg]

theorem le_lastPlace {entries : List (α × ℕ)} {entry : α × ℕ} (member : entry ∈ entries) :
    (entry.2 : ℤ) ≤ lastPlace entries := (foldl_max_le.mp (le_refl (lastPlace entries))).2 entry member

theorem neg_one_le_lastPlace (entries : List (α × ℕ)) : -1 ≤ lastPlace entries :=
  (foldl_max_le.mp (le_refl (lastPlace entries))).1

theorem exists_lastPlace {entries : List (α × ℕ)} (some : entries ≠ []) :
    ∃ entry ∈ entries, (entry.2 : ℤ) = lastPlace entries := by
  have nonneg : 0 ≤ lastPlace entries := by
    have above := le_lastPlace (List.head_mem some)
    omega
  have attained : ¬ ∀ entry ∈ entries, (entry.2 : ℤ) ≤ lastPlace entries - 1 := by
    rw [← lastPlace_le_iff (by omega)]
    omega
  obtain ⟨entry, high⟩ := not_forall.mp attained
  obtain ⟨member, above⟩ := Classical.not_imp.mp high
  have below := le_lastPlace member
  exact ⟨entry, member, by omega⟩

theorem lastPlace_append_zipIdx {entries : List (α × ℕ)} {items : List α} {start : ℕ} (some : items ≠ [])
    (before : lastPlace entries < start) : lastPlace (entries ++ items.zipIdx start) = start + items.length - 1 := by
  have size : 0 < items.length := List.length_pos_iff.mpr some
  apply le_antisymm
  · rw [lastPlace_le_iff (by omega)]
    intro entry member
    rcases List.mem_append.mp member with earlier | later
    · have below := le_lastPlace earlier
      omega
    · have below := List.snd_lt_of_mem_zipIdx later
      omega
  · have last : (items[items.length - 1], start + (items.length - 1)) ∈ entries ++ items.zipIdx start := by
      rw [List.mem_append, List.mk_mem_zipIdx_iff_le_and_getElem?_sub, Nat.add_sub_cancel_left]
      exact .inr ⟨Nat.le_add_right _ _, List.getElem?_eq_getElem _⟩
    have above := le_lastPlace last
    dsimp only at above
    omega

theorem lastPlace_zipIdx {items : List α} {start : ℕ} (some : items ≠ []) :
    lastPlace (items.zipIdx start) = start + items.length - 1 := by
  have alone := @lastPlace_append_zipIdx _ [] items start some (show (-1 : ℤ) < start by omega)
  rwa [List.nil_append] at alone

theorem lastPlace_pull_vacate {entries : List (α × ℕ)} {first last next down : ℕ} (ordered : last ≤ next)
    (behind : ∃ entry ∈ entries, next ≤ entry.2) :
    lastPlace (pull last next down (vacate first last entries)) = lastPlace entries := by
  obtain ⟨entry, member, far⟩ := behind
  obtain ⟨⟨item, place⟩, isLast, same⟩ := exists_lastPlace (List.ne_nil_of_mem member)
  have bound := le_lastPlace member
  dsimp only at same
  have above : next ≤ place := by omega
  apply le_antisymm
  · rw [lastPlace_le_iff (neg_one_le_lastPlace entries)]
    rintro ⟨other, there⟩ moved
    obtain ⟨before, higher, cleared⟩ := place_of_mem_pull moved
    have below := le_lastPlace (place_of_mem_vacate cleared)
    dsimp only at below ⊢
    omega
  · rw [← same]
    exact le_lastPlace (mem_pull_above (mem_vacate_above isLast (Nat.le_trans ordered above)) above)

end Numbering
