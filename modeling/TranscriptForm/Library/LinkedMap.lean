import Mathlib.Data.List.Basic
import Mathlib.Data.List.Nodup

/-- A map that keeps its keys in the order they were first put in. -/
structure LinkedMap (κ ν : Type*) where
  entries : List (κ × ν)
  distinct : (entries.map Prod.fst).Nodup

namespace LinkedMap

variable {κ ν : Type*}

def empty : LinkedMap κ ν := ⟨[], List.nodup_nil⟩

def keys (m : LinkedMap κ ν) : List κ := m.entries.map Prod.fst

def values (m : LinkedMap κ ν) : List ν := m.entries.map Prod.snd

def isEmpty (m : LinkedMap κ ν) : Bool := m.entries.isEmpty

def size (m : LinkedMap κ ν) : Nat := m.entries.length

def filterValues (m : LinkedMap κ ν) (keep : ν → Bool) : LinkedMap κ ν where
  entries := m.entries.filter fun entry => keep entry.2
  distinct := m.distinct.sublist (List.filter_sublist.map Prod.fst)

theorem eq_of_entries {m n : LinkedMap κ ν} (same : m.entries = n.entries) : m = n := by
  cases m
  cases n
  cases same
  rfl

instance [DecidableEq κ] [DecidableEq ν] : DecidableEq (LinkedMap κ ν) := fun m n =>
  decidable_of_iff (m.entries = n.entries) ⟨eq_of_entries, congrArg entries⟩

theorem isEmpty_iff (m : LinkedMap κ ν) : m.isEmpty = true ↔ m = empty := by
  constructor
  · intro none
    exact eq_of_entries (List.isEmpty_iff.mp none)
  · intro same
    subst same
    rfl

variable [DecidableEq κ]

def get? (m : LinkedMap κ ν) (key : κ) : Option ν := m.entries.lookup key

def containsKey (m : LinkedMap κ ν) (key : κ) : Bool := (m.get? key).isSome

/-- A key already present keeps its place, a new one goes to the end. -/
def putEntry (key : κ) (value : ν) : List (κ × ν) → List (κ × ν)
  | [] => [(key, value)]
  | entry :: rest =>
    if entry.1 = key then (key, value) :: rest else entry :: putEntry key value rest

theorem putEntry_keys (key : κ) (value : ν) (entries : List (κ × ν)) :
    (putEntry key value entries).map Prod.fst =
      if key ∈ entries.map Prod.fst then entries.map Prod.fst else entries.map Prod.fst ++ [key] := by
  induction entries with
  | nil => simp [putEntry]
  | cons entry rest ih =>
    by_cases same : entry.1 = key
    · simp [putEntry, same]
    · have other : key ≠ entry.1 := fun h => same h.symm
      simp only [putEntry, same, if_false, List.map_cons, ih, List.mem_cons, other, false_or]
      split <;> simp

def put (m : LinkedMap κ ν) (key : κ) (value : ν) : LinkedMap κ ν where
  entries := putEntry key value m.entries
  distinct := by
    rw [putEntry_keys]
    split
    · exact m.distinct
    · rename_i absent
      exact List.nodup_append.mpr ⟨m.distinct, by simp, by
        intro a ha b hb
        rw [List.mem_singleton.mp hb]
        intro h
        exact absent (h ▸ ha)⟩

def putAll (m : LinkedMap κ ν) (pairs : List (κ × ν)) : LinkedMap κ ν :=
  pairs.foldl (fun acc pair => acc.put pair.1 pair.2) m

def ofPairs (pairs : List (κ × ν)) : LinkedMap κ ν := empty.putAll pairs

@[simp] theorem get?_empty (key : κ) : (empty : LinkedMap κ ν).get? key = none := rfl

theorem lookup_putEntry (key other : κ) (value : ν) (entries : List (κ × ν)) :
    (putEntry key value entries).lookup other =
      if other = key then some value else entries.lookup other := by
  induction entries with
  | nil =>
    by_cases h : other = key
    · subst h; simp [putEntry]
    · have hb : (other == key) = false := by simpa using h
      simp [putEntry, List.lookup_cons, h, hb]
  | cons entry rest ih =>
    obtain ⟨first, stored⟩ := entry
    by_cases same : first = key
    · subst same
      by_cases h : other = first
      · subst h; simp [putEntry]
      · have hb : (other == first) = false := by simpa using h
        simp [putEntry, List.lookup_cons, h, hb]
    · by_cases h : other = first
      · subst h; simp [putEntry, same]
      · have hb : (other == first) = false := by simpa using h
        simp [putEntry, same, List.lookup_cons, hb, ih]

@[simp] theorem get?_put (m : LinkedMap κ ν) (key other : κ) (value : ν) :
    (m.put key value).get? other = if other = key then some value else m.get? other :=
  lookup_putEntry key other value m.entries

theorem lookup_eq_some_iff {entries : List (κ × ν)} (distinct : (entries.map Prod.fst).Nodup)
    {key : κ} {value : ν} : entries.lookup key = some value ↔ (key, value) ∈ entries := by
  induction entries with
  | nil => simp
  | cons entry rest ih =>
    obtain ⟨first, stored⟩ := entry
    simp only [List.map_cons, List.nodup_cons] at distinct
    by_cases h : key = first
    · subst h
      have fresh : (key, value) ∉ rest :=
        fun member => distinct.1 (List.mem_map.mpr ⟨_, member, rfl⟩)
      simp [fresh, eq_comm]
    · have hb : (key == first) = false := by simpa using h
      simp [List.lookup_cons, hb, h, ih distinct.2]

theorem get?_eq_some_iff (m : LinkedMap κ ν) {key : κ} {value : ν} :
    m.get? key = some value ↔ (key, value) ∈ m.entries :=
  lookup_eq_some_iff m.distinct

theorem eq_empty {m : LinkedMap κ ν} (nothing : ∀ key value, m.get? key ≠ some value) : m = empty := by
  apply eq_of_entries
  apply List.eq_nil_iff_forall_not_mem.mpr
  rintro ⟨key, value⟩ member
  exact nothing key value (m.get?_eq_some_iff.mpr member)

theorem mem_keys_of_get? {m : LinkedMap κ ν} {key : κ} {value : ν} (found : m.get? key = some value) : key ∈ m.keys :=
  List.mem_map.mpr ⟨(key, value), m.get?_eq_some_iff.mp found, rfl⟩

theorem get?_filterValues_some {m : LinkedMap κ ν} {keep : ν → Bool} {key : κ} {value : ν} :
    (m.filterValues keep).get? key = some value ↔ m.get? key = some value ∧ keep value = true := by
  rw [get?_eq_some_iff, get?_eq_some_iff]
  exact List.mem_filter

theorem putAll_cons (m : LinkedMap κ ν) (pair : κ × ν) (pairs : List (κ × ν)) :
    m.putAll (pair :: pairs) = (m.put pair.1 pair.2).putAll pairs := rfl

theorem isEmpty_put (m : LinkedMap κ ν) (key : κ) (value : ν) : (m.put key value).isEmpty = false := by
  show (putEntry key value m.entries).isEmpty = false
  cases m.entries with
  | nil => rfl
  | cons entry rest =>
    rw [putEntry]
    split <;> rfl

theorem isEmpty_putAll (m : LinkedMap κ ν) (pairs : List (κ × ν)) :
    (m.putAll pairs).isEmpty = (m.isEmpty && pairs.isEmpty) := by
  induction pairs generalizing m with
  | nil => exact (Bool.and_true _).symm
  | cons pair pairs ih => rw [putAll_cons, ih, isEmpty_put, List.isEmpty_cons, Bool.and_false, Bool.false_and]

theorem get?_putAll_cases {m : LinkedMap κ ν} {pairs : List (κ × ν)} {key : κ} {value : ν}
    (found : (m.putAll pairs).get? key = some value) :
    (key, value) ∈ pairs ∨ m.get? key = some value := by
  induction pairs generalizing m with
  | nil => exact Or.inr found
  | cons pair pairs ih =>
    rcases ih found with member | earlier
    · exact Or.inl (List.mem_cons_of_mem _ member)
    · rw [get?_put] at earlier
      split at earlier
      · rename_i same
        left
        have stored := Option.some.inj earlier
        subst same stored
        exact List.mem_cons_self
      · exact Or.inr earlier

theorem mem_of_get?_ofPairs {pairs : List (κ × ν)} {key : κ} {value : ν}
    (found : (ofPairs pairs).get? key = some value) : (key, value) ∈ pairs := by
  rcases get?_putAll_cases found with member | absent
  · exact member
  · cases absent

theorem get?_putAll_other {pairs : List (κ × ν)} {key : κ} (m : LinkedMap κ ν) (other : ∀ pair ∈ pairs, pair.1 ≠ key) :
    (m.putAll pairs).get? key = m.get? key := by
  induction pairs generalizing m with
  | nil => rfl
  | cons pair pairs ih =>
    have first : key ≠ pair.1 := Ne.symm (other pair List.mem_cons_self)
    rw [putAll_cons, ih _ fun later member => other later (List.mem_cons_of_mem _ member), get?_put, if_neg first]

theorem get?_putAll_ne_none {pairs : List (κ × ν)} {key : κ} (m : LinkedMap κ ν)
    (listed : key ∈ pairs.map Prod.fst ∨ m.get? key ≠ none) : (m.putAll pairs).get? key ≠ none := by
  induction pairs generalizing m with
  | nil => exact listed.resolve_left List.not_mem_nil
  | cons pair pairs ih =>
    rw [putAll_cons]
    apply ih
    rw [get?_put]
    by_cases first : key = pair.1
    · exact .inr (by simp [first])
    · rw [if_neg first]
      exact listed.imp_left fun member => (List.mem_cons.mp member).resolve_left first

theorem get?_ofPairs_ne_none {pairs : List (κ × ν)} {key : κ} {value : ν} (member : (key, value) ∈ pairs) :
    (ofPairs pairs).get? key ≠ none :=
  get?_putAll_ne_none empty (.inl (List.mem_map_of_mem member))

theorem get?_putAll_single {pairs : List (κ × ν)} {key : κ} {value : ν} (m : LinkedMap κ ν)
    (member : (key, value) ∈ pairs) (single : ∀ other, (key, other) ∈ pairs → other = value) :
    (m.putAll pairs).get? key = some value := by
  induction pairs generalizing m with
  | nil => cases member
  | cons pair pairs ih =>
    have later := fun other inside => single other (List.mem_cons_of_mem pair inside)
    rw [putAll_cons]
    by_cases again : (key, value) ∈ pairs
    · exact ih _ again later
    · have first : pair = (key, value) := ((List.mem_cons.mp member).resolve_right again).symm
      have absent : ∀ other ∈ pairs, other.1 ≠ key := by
        rintro ⟨otherKey, other⟩ inside same
        cases same
        rw [later other inside] at inside
        exact again inside
      rw [get?_putAll_other _ absent, get?_put, first, if_pos rfl]

theorem get?_ofPairs_single {pairs : List (κ × ν)} {key : κ} {value : ν} (member : (key, value) ∈ pairs)
    (single : ∀ other, (key, other) ∈ pairs → other = value) : (ofPairs pairs).get? key = some value :=
  get?_putAll_single empty member single

theorem get?_putAll_entries (m n : LinkedMap κ ν) (key : κ) :
    (m.putAll n.entries).get? key = (n.get? key).or (m.get? key) := by
  cases found : n.get? key with
  | none =>
    apply get?_putAll_other
    intro pair member same
    have stored := n.get?_eq_some_iff.mpr (same ▸ member : (key, pair.2) ∈ n.entries)
    rw [found] at stored
    cases stored
  | some value =>
    apply get?_putAll_single m (n.get?_eq_some_iff.mp found)
    intro other member
    rw [n.get?_eq_some_iff.mpr member] at found
    exact Option.some.inj found

theorem putEntry_fresh (key : κ) (value : ν) (entries : List (κ × ν))
    (fresh : key ∉ entries.map Prod.fst) : putEntry key value entries = entries ++ [(key, value)] := by
  induction entries with
  | nil => rfl
  | cons entry rest ih =>
    simp only [List.map_cons, List.mem_cons, not_or] at fresh
    have other : entry.1 ≠ key := fun h => fresh.1 h.symm
    simp [putEntry, other, ih fresh.2]

theorem putAll_fresh (m : LinkedMap κ ν) (pairs : List (κ × ν))
    (distinct : (m.entries.map Prod.fst ++ pairs.map Prod.fst).Nodup) :
    (m.putAll pairs).entries = m.entries ++ pairs := by
  induction pairs generalizing m with
  | nil => simp [putAll]
  | cons pair pairs ih =>
    have fresh : pair.1 ∉ m.entries.map Prod.fst := by
      intro member
      exact (List.nodup_append.mp distinct).2.2 _ member pair.1 (by simp) rfl
    have stored : (m.put pair.1 pair.2).entries = m.entries ++ [pair] :=
      putEntry_fresh pair.1 pair.2 m.entries fresh
    rw [putAll_cons, ih, stored]
    · simp
    · rw [stored]
      simpa using distinct

theorem ofPairs_fresh (pairs : List (κ × ν)) (distinct : (pairs.map Prod.fst).Nodup) :
    (ofPairs pairs).entries = pairs :=
  putAll_fresh empty pairs distinct

theorem ofPairs_entries (m : LinkedMap κ ν) : ofPairs m.entries = m :=
  eq_of_entries (ofPairs_fresh m.entries m.distinct)

end LinkedMap
