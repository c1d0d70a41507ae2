import Mathlib.Data.List.Chain
import TranscriptForm.Library.Regex.Search

namespace Regex

variable {α κ : Type*}

def runsOf (member : κ → Bool) : Pattern α κ := .loop true 1 none (.set member)

/-- The characters of the set are read from exactly the units that are hits. -/
structure UnitWise (reader : Reader α κ) (member : κ → Bool) (hit : α → Prop) : Prop where
  total : ∀ unit rest, reader.next (unit :: rest) ≠ none
  agrees : ∀ {text char read rest}, reader.next text = some (char, read, rest) →
    ∀ unit ∈ read, hit unit ↔ member char = true

/-- A pattern that matches at every hit, reads hits only and at least one of them. -/
structure Eats (reader : Reader α κ) (pattern : Pattern α κ) (hit : α → Prop) : Prop where
  within : Within reader hit pattern
  present : ∀ before unit rest, hit unit → firstAt reader pattern before (unit :: rest) ≠ none
  progress : ∀ before rest stop, firstAt reader pattern before rest = some stop →
    stop.rest.length < rest.length

section Sets

variable {reader : Reader α κ} {member : κ → Bool} {hit : α → Prop}

theorem UnitWise.within (wise : UnitWise reader member hit) :
    Within reader hit (.set member : Pattern α κ) :=
  fun _ _ _ _ next accepted unit inside => (wise.agrees next unit inside).mpr accepted

theorem UnitWise.read_head (wise : UnitWise reader member hit) (unit : α) (rest : List α) :
    ∃ char read later, reader.next (unit :: rest) = some (char, read, later) ∧
      later.length < (unit :: rest).length ∧ (hit unit ↔ member char = true) := by
  obtain ⟨⟨char, read, later⟩, next⟩ := Option.ne_none_iff_exists'.mp (wise.total unit rest)
  obtain ⟨nonempty, same⟩ := reader.next_split next
  refine ⟨char, read, later, next, ?_, ?_⟩
  · have positive : 0 < read.length := List.length_pos_iff.mpr nonempty
    rw [same, List.length_append]
    omega
  · cases read with
    | nil => exact absurd rfl nonempty
    | cons head tail =>
      obtain ⟨rfl, _⟩ := List.cons.inj same
      exact wise.agrees next unit List.mem_cons_self

theorem set_results (wise : UnitWise reader member hit) (cur : Cursor α) :
    results reader (.set member) cur = [] ∧ (∀ unit, cur.rest.head? = some unit → ¬ hit unit) ∨
      ∃ next, results reader (.set member) cur = [next] ∧ next.rest.length < cur.rest.length ∧
        ∃ unit, cur.rest.head? = some unit ∧ hit unit := by
  obtain ⟨before, text, groups⟩ := cur
  cases text with
  | nil =>
    left
    have nothing : reader.next [] = none := by
      by_contra found
      obtain ⟨⟨char, read, later⟩, next⟩ := Option.ne_none_iff_exists'.mp found
      obtain ⟨nonempty, same⟩ := reader.next_split next
      exact nonempty (List.append_eq_nil_iff.mp same.symm).1
    simp [results, nothing]
  | cons unit rest =>
    obtain ⟨char, read, later, next, shorter, agrees⟩ := wise.read_head unit rest
    by_cases accepted : member char = true
    · right
      refine ⟨Cursor.advance ⟨before, unit :: rest, groups⟩ read later, ?_, shorter, unit, rfl, agrees.mpr accepted⟩
      simp [results, next, accepted]
    · left
      refine ⟨by simp [results, next, accepted], ?_⟩
      intro other head
      cases head
      exact fun h => accepted (agrees.mp h)

theorem UnitWise.eats_set (wise : UnitWise reader member hit) : Eats reader (.set member) hit where
  within := wise.within
  present := by
    intro before unit rest hits
    rcases set_results wise ⟨before, unit :: rest, []⟩ with ⟨_, missing⟩ | ⟨next, found, _⟩
    · exact absurd hits (missing unit rfl)
    · simp [firstAt, found]
  progress := by
    intro before rest stop first
    rcases set_results wise ⟨before, rest, []⟩ with ⟨none, _⟩ | ⟨next, found, shorter, _⟩
    · simp [firstAt, none] at first
    · simp only [firstAt, found, List.head?_cons, Option.some.injEq] at first
      subst first
      exact shorter

theorem upTo_set_head (wise : UnitWise reader member hit) (n : Nat) (cur : Cursor α)
    (enough : cur.rest.length ≤ n) :
    ∃ stop, (upTo (results reader (.set member)) true n cur).head? = some stop ∧
      stop.rest.length ≤ cur.rest.length ∧ ∀ unit, stop.rest.head? = some unit → ¬ hit unit := by
  induction n generalizing cur with
  | zero =>
    have done : cur.rest = [] := List.length_eq_zero_iff.mp (by omega)
    exact ⟨cur, rfl, le_refl _, by simp [done]⟩
  | succ n ih =>
    rcases set_results wise cur with ⟨none, missing⟩ | ⟨next, found, shorter, _⟩
    · exact ⟨cur, by simp [upTo, none], le_refl _, missing⟩
    · obtain ⟨stop, head, bound, missing⟩ := ih next (by omega)
      refine ⟨stop, ?_, by omega, missing⟩
      simp only [upTo, found, shorter, decide_true, List.filter_cons_of_pos, List.filter_nil,
        List.flatMap_cons, List.flatMap_nil, List.append_nil, if_true]
      rw [List.head?_append, head]
      rfl

theorem runs_results (reader : Reader α κ) (member : κ → Bool) (cur : Cursor α) :
    results reader (runsOf member) cur = (results reader (.set member) cur).flatMap fun next =>
      upTo (results reader (.set member)) true next.rest.length next := by
  change ((results reader (.set member) cur).flatMap fun next => [next]).flatMap _ = _
  rw [List.flatMap_assoc]
  simp only [List.flatMap_cons, List.flatMap_nil, List.append_nil]

theorem runs_first (wise : UnitWise reader member hit) (before rest : List α) :
    firstAt reader (runsOf member) before rest = none ∧ (∀ unit, rest.head? = some unit → ¬ hit unit) ∨
      ∃ stop, firstAt reader (runsOf member) before rest = some stop ∧ stop.rest.length < rest.length ∧
        ∀ unit, stop.rest.head? = some unit → ¬ hit unit := by
  rcases set_results wise ⟨before, rest, []⟩ with ⟨none, missing⟩ | ⟨next, found, shorter, _⟩
  · left
    exact ⟨by rw [firstAt, runs_results, none]; rfl, missing⟩
  · right
    obtain ⟨stop, head, bound, missing⟩ := upTo_set_head wise next.rest.length next (le_refl _)
    refine ⟨stop, ?_, by simp only at shorter; omega, missing⟩
    rw [firstAt, runs_results, found, List.flatMap_cons, List.flatMap_nil, List.append_nil, head]

theorem UnitWise.eats_runs (wise : UnitWise reader member hit) : Eats reader (runsOf member) hit where
  within := wise.within
  present := by
    intro before unit rest hits
    rcases runs_first wise before (unit :: rest) with ⟨_, missing⟩ | ⟨stop, found, _⟩
    · exact absurd hits (missing unit rfl)
    · simp [found]
  progress := by
    intro before rest stop first
    rcases runs_first wise before rest with ⟨none, _⟩ | ⟨next, found, shorter, _⟩
    · rw [none] at first
      cases first
    · rw [found] at first
      cases first
      exact shorter

end Sets

section Scans

variable {reader : Reader α κ} {pattern : Pattern α κ} {hit : α → Prop}

theorem Eats.value_nonempty (eats : Eats reader pattern hit) {before skipped rest : List α}
    {found : Match α} (search : findFrom reader pattern before skipped rest = some found) :
    found.value ≠ [] ∧ found.after.length < rest.length := by
  induction rest generalizing before skipped with
  | nil =>
    obtain ⟨stop, first, _⟩ := Option.map_eq_some_iff.mp search
    exact absurd (eats.progress _ _ _ first) (by simp)
  | cons unit rest ih =>
    simp only [findFrom] at search
    split at search
    · rename_i stop first
      cases search
      have shorter := eats.progress _ _ _ first
      obtain ⟨read, reads⟩ := firstAt_reads eats.within first
      refine ⟨?_, shorter⟩
      have value := reads.readSince
      have split := congrArg List.length reads.rest
      simp only [value]
      rintro rfl
      simp only [List.nil_append] at split
      omega
    · have later := ih search
      exact ⟨later.1, by simp only [List.length_cons]; omega⟩

theorem Eats.skipped_misses (eats : Eats reader pattern hit) {before skipped rest : List α}
    {found : Match α} (search : findFrom reader pattern before skipped rest = some found)
    (clean : ∀ unit ∈ skipped, ¬ hit unit) : ∀ unit ∈ found.skipped, ¬ hit unit := by
  obtain ⟨passed, later, _, shape, _, missing⟩ := findFrom_skips search
  intro unit member
  rw [shape] at member
  rcases List.mem_append.mp member with member | member
  · exact clean unit (List.mem_reverse.mp member)
  · intro hits
    obtain ⟨left, right, split⟩ := List.append_of_mem member
    exact eats.present _ unit (right ++ later) hits (missing left (unit :: right) split (by simp))

theorem Eats.tail_misses (eats : Eats reader pattern hit) {before skipped rest : List α}
    (search : findFrom reader pattern before skipped rest = none) : ∀ unit ∈ rest, ¬ hit unit := by
  intro unit member hits
  obtain ⟨left, right, split⟩ := List.append_of_mem member
  exact eats.present _ unit right hits (findFrom_none search left (unit :: right) split)

structure Separated (hit : α → Prop) (scanned : List (Match α) × List α) : Prop where
  gaps : ∀ found ∈ scanned.1, ∀ unit ∈ found.skipped, ¬ hit unit
  values : ∀ found ∈ scanned.1, found.value ≠ [] ∧ ∀ unit ∈ found.value, hit unit
  tail : ∀ unit ∈ scanned.2, ¬ hit unit

theorem Eats.scan_separated (eats : Eats reader pattern hit) (n : Nat) (before rest : List α)
    (enough : rest.length < n) : Separated hit (scan reader pattern n before [] rest) := by
  induction n generalizing before rest with
  | zero => omega
  | succ n ih =>
    simp only [scan]
    split
    · rename_i none
      exact ⟨by simp, by simp, by simpa using eats.tail_misses none⟩
    · rename_i found search
      have nonempty := eats.value_nonempty search
      have clean := eats.skipped_misses search (by simp)
      have hits := (findFrom_located eats.within search).good
      split
      · rename_i value _
        exact absurd value nonempty.1
      · rename_i value _
        exact absurd value nonempty.1
      · have later := fun passed => ih passed found.after (by omega)
        refine ⟨?_, ?_, (later _).tail⟩
        · intro other member
          rcases List.mem_cons.mp member with rfl | member
          · exact clean
          · exact (later _).gaps other member
        · intro other member
          rcases List.mem_cons.mp member with rfl | member
          · exact ⟨nonempty.1, hits⟩
          · exact (later _).values other member

theorem Eats.separated (eats : Eats reader pattern hit) (text : List α) :
    Separated hit (scanAll reader pattern text) :=
  eats.scan_separated _ [] text (by omega)

theorem Eats.replace_misses (eats : Eats reader pattern hit) {replacement text : List α} {unit : α}
    (member : unit ∈ replace reader pattern replacement text) : unit ∈ replacement ∨ ¬ hit unit := by
  have separated := eats.separated text
  simp only [replace, List.mem_append, List.mem_flatMap] at member
  rcases member with ⟨found, taken, skipped | replaced⟩ | tail
  · exact Or.inr (separated.gaps found taken unit skipped)
  · exact Or.inl replaced
  · exact Or.inr (separated.tail unit tail)

theorem Eats.replace_nil (eats : Eats reader pattern hit) [DecidablePred hit] (text : List α) :
    replace reader pattern [] text = text.filter fun unit => ¬ hit unit := by
  have scan := scanAll_scanned eats.within text
  have separated := eats.separated text
  have keep : ∀ part : List α, (∀ unit ∈ part, ¬ hit unit) →
      part.filter (fun unit => ¬ hit unit) = part := by
    intro part clean
    exact List.filter_eq_self.mpr (by simpa using clean)
  have gaps : ∀ ms : List (Match α), (∀ found ∈ ms, ∀ unit ∈ found.skipped, ¬ hit unit) →
      (∀ found ∈ ms, ∀ unit ∈ found.value, hit unit) →
      (ms.flatMap fun found => found.skipped ++ found.value).filter (fun unit => ¬ hit unit) =
        ms.flatMap fun found => found.skipped ++ [] := by
    intro ms clean hits
    induction ms with
    | nil => rfl
    | cons found ms ih =>
      have erased : found.value.filter (fun unit => ¬ hit unit) = [] :=
        List.filter_eq_nil_iff.mpr (by simpa using hits found List.mem_cons_self)
      rw [List.flatMap_cons, List.flatMap_cons, List.filter_append, List.filter_append,
        keep _ (clean found List.mem_cons_self), erased,
        ih (fun other member => clean other (List.mem_cons_of_mem _ member))
          (fun other member => hits other (List.mem_cons_of_mem _ member))]
  calc replace reader pattern [] text
      = ((scanAll reader pattern text).1.flatMap fun found => found.skipped ++ []) ++
          (scanAll reader pattern text).2 := rfl
    _ = ((scanAll reader pattern text).1.flatMap fun found => found.skipped ++ found.value).filter
          (fun unit => ¬ hit unit) ++ (scanAll reader pattern text).2.filter fun unit => ¬ hit unit := by
        rw [gaps _ separated.gaps fun found member => (separated.values found member).2,
          keep _ separated.tail]
    _ = text.filter fun unit => ¬ hit unit := by rw [← List.filter_append, scan.text]

end Scans

section Apart

variable {reader : Reader α κ} {member : κ → Bool} {hit : α → Prop}

def Apart (hit : α → Prop) (text : List α) : Prop := text.IsChain fun left right => ¬(hit left ∧ hit right)

theorem Apart.of_misses {text : List α} (misses : ∀ unit ∈ text, ¬ hit unit) : Apart hit text := by
  induction text with
  | nil => exact List.isChain_nil
  | cons unit text ih =>
    refine List.isChain_cons.mpr ⟨fun _ _ both => misses unit List.mem_cons_self both.1, ?_⟩
    exact ih fun other inside => misses other (List.mem_cons_of_mem _ inside)

theorem UnitWise.runs_after (wise : UnitWise reader member hit) {before skipped rest : List α} {found : Match α}
    (search : findFrom reader (runsOf member) before skipped rest = some found) :
    ∀ unit, found.after.head? = some unit → ¬ hit unit := by
  induction rest generalizing before skipped with
  | nil =>
    obtain ⟨stop, first, _⟩ := Option.map_eq_some_iff.mp search
    exact absurd (wise.eats_runs.progress _ _ _ first) (by simp)
  | cons unit rest ih =>
    simp only [findFrom] at search
    split at search
    · rename_i stop first
      cases search
      rcases runs_first wise before (unit :: rest) with ⟨none, _⟩ | ⟨next, read, _, missing⟩
      · rw [none] at first
        cases first
      · rw [read] at first
        cases first
        exact missing
    · exact ih search

theorem UnitWise.runs_gap (wise : UnitWise reader member hit) {before rest : List α} {found : Match α}
    (search : findFrom reader (runsOf member) before [] rest = some found)
    (clean : ∀ unit, rest.head? = some unit → ¬ hit unit) : found.skipped ≠ [] := by
  intro none
  have located := findFrom_located wise.eats_runs.within search
  have nonempty := (wise.eats_runs.value_nonempty search).1
  obtain ⟨unit, value, shape⟩ := List.exists_cons_of_ne_nil nonempty
  have text := located.text
  rw [none, shape] at text
  have head : rest.head? = some unit := by
    change [] ++ rest = _ at text
    rw [List.nil_append] at text
    rw [text]
    rfl
  exact clean unit head (located.good unit (by rw [shape]; exact List.mem_cons_self))

theorem UnitWise.scan_gaps (wise : UnitWise reader member hit) (n : Nat) (before rest : List α)
    (clean : ∀ unit, rest.head? = some unit → ¬ hit unit) :
    ∀ found ∈ (scan reader (runsOf member) n before [] rest).1, found.skipped ≠ [] := by
  induction n generalizing before rest with
  | zero => simp [scan]
  | succ n ih =>
    simp only [scan]
    split
    · simp
    · rename_i found search
      have nonempty := (wise.eats_runs.value_nonempty search).1
      split
      · rename_i value _
        exact absurd value nonempty
      · rename_i value _
        exact absurd value nonempty
      · intro other inside
        rcases List.mem_cons.mp inside with rfl | later
        · exact wise.runs_gap search clean
        · exact ih _ _ (wise.runs_after search) other later

theorem apart_of_gaps {mark : α} {matched : List (Match α)} {tail : List α}
    (gaps : ∀ found ∈ matched, ∀ unit ∈ found.skipped, ¬ hit unit) (clean : ∀ unit ∈ tail, ¬ hit unit)
    (spaced : ∀ found ∈ matched, found.skipped ≠ []) :
    Apart hit (matched.flatMap (fun found => found.skipped ++ [mark]) ++ tail) ∧
      ∀ unit, (matched.flatMap (fun found => found.skipped ++ [mark]) ++ tail).head? = some unit → ¬ hit unit := by
  induction matched with
  | nil => exact ⟨.of_misses clean, fun unit head => clean unit (List.mem_of_mem_head? head)⟩
  | cons found matched ih =>
    have own := gaps found List.mem_cons_self
    obtain ⟨apart, first⟩ := ih (fun other inside => gaps other (List.mem_cons_of_mem _ inside))
      fun other inside => spaced other (List.mem_cons_of_mem _ inside)
    rw [List.flatMap_cons, List.append_assoc, List.append_assoc]
    constructor
    · refine List.isChain_append.mpr ⟨Apart.of_misses own, List.isChain_cons.mpr ⟨?_, apart⟩, ?_⟩
      · exact fun unit head both => first unit head both.2
      · exact fun unit last _ _ both => own unit (List.mem_of_getLast? last) both.1
    · intro unit head
      obtain ⟨start, rest, shape⟩ := List.exists_cons_of_ne_nil (spaced found List.mem_cons_self)
      rw [shape] at head own
      rw [← Option.some.inj head]
      exact own start List.mem_cons_self

theorem UnitWise.replace_runs_apart (wise : UnitWise reader member hit) (mark : α) (text : List α) :
    Apart hit (replace reader (runsOf member) [mark] text) := by
  have separated := wise.eats_runs.separated text
  unfold replace
  unfold scanAll at separated ⊢
  simp only [scan] at separated ⊢
  cases search : findFrom reader (runsOf member) [] [] text with
  | none =>
    rw [search] at separated
    exact .of_misses separated.tail
  | some found =>
    rw [search] at separated
    have nonempty := (wise.eats_runs.value_nonempty search).1
    obtain ⟨unit, value, shape⟩ := List.exists_cons_of_ne_nil nonempty
    simp only [shape] at separated ⊢
    have later := fun passed => wise.scan_gaps text.length passed found.after (wise.runs_after search)
    have gaps := separated.gaps
    obtain ⟨apart, first⟩ := apart_of_gaps (fun other inside => gaps other (List.mem_cons_of_mem _ inside))
      separated.tail (later _)
    rw [List.flatMap_cons, List.append_assoc, List.append_assoc]
    refine List.isChain_append.mpr ⟨Apart.of_misses (gaps found List.mem_cons_self), ?_, ?_⟩
    · exact List.isChain_cons.mpr ⟨fun other head both => first other head both.2, apart⟩
    · exact fun last final _ _ both => gaps found List.mem_cons_self last (List.mem_of_getLast? final) both.1

end Apart

end Regex
