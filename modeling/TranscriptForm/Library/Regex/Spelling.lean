import TranscriptForm.Library.Regex.Runs

namespace Regex

variable {α κ : Type*}

inductive Spells (reader : Reader α κ) (member : κ → Bool) (rest : List α) : List α → Prop
  | nil : Spells reader member rest []
  | cons {char : κ} {read text : List α} : reader.next (read ++ (text ++ rest)) = some (char, read, text ++ rest) →
      member char = true → Spells reader member rest text → Spells reader member rest (read ++ text)

variable {reader : Reader α κ} {member : κ → Bool} {rest text : List α}

@[simp] theorem Cursor.advance_rest (cur : Cursor α) (read rest : List α) : (cur.advance read rest).rest = rest := rfl

@[simp] theorem Cursor.advance_groups (cur : Cursor α) (read rest : List α) :
    (cur.advance read rest).groups = cur.groups := rfl

theorem Cursor.advance_advance (cur : Cursor α) (first second middle last : List α) :
    (cur.advance first middle).advance second last = cur.advance (first ++ second) last := by
  simp [Cursor.advance]

theorem Spells.good {good : α → Prop} (within : Within reader good (.set member : Pattern α κ))
    (spells : Spells reader member rest text) : ∀ unit ∈ text, good unit := by
  induction spells with
  | nil => simp
  | cons next accepted _ ih =>
    intro unit inside
    rcases List.mem_append.mp inside with inside | inside
    · exact within _ _ _ _ next accepted unit inside
    · exact ih unit inside

theorem mem_results_set {cur stop : Cursor α} : stop ∈ results reader (.set member) cur ↔
    ∃ char read, reader.next cur.rest = some (char, read, stop.rest) ∧ member char = true ∧
      stop = cur.advance read stop.rest := by
  simp only [results]
  cases next : reader.next cur.rest with
  | none => simp
  | some found =>
    obtain ⟨char, read, later⟩ := found
    by_cases accepted : member char = true
    · simp only [accepted, if_true, List.mem_singleton, Option.some.injEq, Prod.mk.injEq]
      constructor
      · rintro rfl
        exact ⟨char, read, ⟨rfl, rfl, rfl⟩, accepted, rfl⟩
      · rintro ⟨_, _, ⟨rfl, rfl, rfl⟩, _, same⟩
        exact same
    · simp only [accepted]
      constructor
      · intro none
        cases none
      · rintro ⟨_, _, same, holds, _⟩
        cases same
        exact absurd holds accepted

theorem mem_upTo {step : Cursor α → List (Cursor α)} {greedy : Bool} {n : Nat} {cur stop : Cursor α} :
    stop ∈ upTo step greedy (n + 1) cur ↔
      stop = cur ∨ ∃ next ∈ step cur, next.rest.length < cur.rest.length ∧ stop ∈ upTo step greedy n next := by
  simp only [upTo]
  cases greedy <;> simp [or_comm, and_assoc]

theorem spells_of_mem_upTo {greedy : Bool} {n : Nat} {cur stop : Cursor α}
    (reached : stop ∈ upTo (results reader (.set member)) greedy n cur) :
    ∃ text, Spells reader member stop.rest text ∧ cur.rest = text ++ stop.rest ∧ stop = cur.advance text stop.rest := by
  induction n generalizing cur with
  | zero =>
    rw [List.mem_singleton.mp reached]
    exact ⟨[], .nil, rfl, rfl⟩
  | succ n ih =>
    rcases mem_upTo.mp reached with rfl | ⟨next, taken, _, later⟩
    · exact ⟨[], .nil, rfl, rfl⟩
    · obtain ⟨char, read, found, accepted, moved⟩ := mem_results_set.mp taken
      obtain ⟨text, spells, split, same⟩ := ih later
      have whole := (reader.next_split found).2
      rw [split] at found whole
      refine ⟨read ++ text, .cons (by rwa [whole] at found) accepted spells, by rw [whole, List.append_assoc], ?_⟩
      rw [moved, Cursor.advance_advance] at same
      exact same

theorem mem_upTo_of_spells {greedy : Bool} (spells : Spells reader member rest text) {n : Nat} {cur : Cursor α}
    (split : cur.rest = text ++ rest) (enough : cur.rest.length ≤ n) :
    cur.advance text rest ∈ upTo (results reader (.set member)) greedy n cur := by
  induction spells generalizing n cur with
  | nil =>
    have here : cur.advance [] rest = cur := by rw [show rest = cur.rest from split.symm]; rfl
    rw [here]
    cases n with
    | zero => exact List.mem_singleton.mpr rfl
    | succ n => exact mem_upTo.mpr (Or.inl rfl)
  | @cons char read text next accepted _ ih =>
    have nonempty := (reader.next_split next).1
    rw [List.append_assoc] at split
    have shorter : (text ++ rest).length < cur.rest.length := by
      have positive := List.length_pos_iff.mpr nonempty
      have whole : cur.rest.length = read.length + (text ++ rest).length := by rw [split, List.length_append]
      omega
    cases n with
    | zero => omega
    | succ n =>
      refine mem_upTo.mpr (Or.inr ⟨cur.advance read (text ++ rest), ?_, shorter, ?_⟩)
      · rw [mem_results_set]
        exact ⟨char, read, by rw [split]; exact next, accepted, rfl⟩
      · rw [← Cursor.advance_advance cur read text (text ++ rest)]
        apply ih rfl
        show (text ++ rest).length ≤ n
        omega

theorem upTo_keeps {step : Cursor α → List (Cursor α)} {greedy : Bool} {place : Cursor α → Prop}
    (keep : ∀ cur, place cur → ∀ next ∈ step cur, place next) {n : Nat} {cur stop : Cursor α} (here : place cur)
    (reached : stop ∈ upTo step greedy n cur) : place stop := by
  induction n generalizing cur with
  | zero =>
    rw [List.mem_singleton.mp reached]
    exact here
  | succ n ih =>
    rcases mem_upTo.mp reached with rfl | ⟨next, taken, _, later⟩
    · exact here
    · exact ih (keep cur here next taken) later

theorem upTo_reaches {step : Cursor α → List (Cursor α)} {greedy : Bool} {place goal : Cursor α → Prop}
    (progress : ∀ cur, place cur → goal cur ∨ ∃ next ∈ step cur, next.rest.length < cur.rest.length ∧ place next)
    {n : Nat} {cur : Cursor α} (here : place cur) (enough : cur.rest.length ≤ n) :
    ∃ stop ∈ upTo step greedy n cur, goal stop := by
  induction n generalizing cur with
  | zero =>
    rcases progress cur here with done | ⟨next, _, shorter, _⟩
    · exact ⟨cur, List.mem_singleton.mpr rfl, done⟩
    · omega
  | succ n ih =>
    rcases progress cur here with done | ⟨next, taken, shorter, further⟩
    · exact ⟨cur, mem_upTo.mpr (Or.inl rfl), done⟩
    · obtain ⟨stop, reached, done⟩ := ih further (by omega)
      exact ⟨stop, mem_upTo.mpr (Or.inr ⟨next, taken, shorter, reached⟩), done⟩

section Groups

def groupIndices : Pattern α κ → List Nat
  | .empty => []
  | .set _ => []
  | .look _ => []
  | .seq first second => groupIndices first ++ groupIndices second
  | .alt first second => groupIndices first ++ groupIndices second
  | .group index body => index :: groupIndices body
  | .loop _ _ _ body => groupIndices body

def Captures (indices : List Nat) (start stop : Cursor α) : Prop :=
  ∃ more, stop.groups = more ++ start.groups ∧ ∀ captured ∈ more, captured.1 ∈ indices

variable {indices : List Nat} {start middle stop : Cursor α}

theorem Captures.refl (cur : Cursor α) : Captures indices cur cur := ⟨[], rfl, by simp⟩

theorem Captures.trans (first : Captures indices start middle) (second : Captures indices middle stop) :
    Captures indices start stop := by
  obtain ⟨more, groups, inside⟩ := first
  obtain ⟨later, laterGroups, laterInside⟩ := second
  refine ⟨later ++ more, by rw [laterGroups, groups, List.append_assoc], ?_⟩
  intro captured member
  rcases List.mem_append.mp member with member | member
  · exact laterInside captured member
  · exact inside captured member

theorem Captures.mono {others : List Nat} (among : ∀ index ∈ indices, index ∈ others)
    (captures : Captures indices start stop) : Captures others start stop := by
  obtain ⟨more, groups, inside⟩ := captures
  exact ⟨more, groups, fun captured member => among _ (inside captured member)⟩

theorem Captures.lookup (captures : Captures indices start stop) {index : Nat} (other : index ∉ indices) :
    stop.groups.lookup index = start.groups.lookup index := by
  obtain ⟨more, groups, inside⟩ := captures
  rw [groups]
  clear groups
  induction more with
  | nil => rfl
  | cons captured more ih =>
    obtain ⟨here, later⟩ := List.forall_mem_cons.mp inside
    have differs : (index == captured.1) = false := by
      rw [beq_eq_false_iff_ne]
      rintro rfl
      exact other here
    rw [List.cons_append, List.lookup_cons, differs]
    exact ih later

theorem exactly_keeps {step : Cursor α → List (Cursor α)} {place : Cursor α → Prop}
    (keep : ∀ cur, place cur → ∀ next ∈ step cur, place next) (n : Nat) {cur stop : Cursor α} (here : place cur)
    (reached : stop ∈ exactly step n cur) : place stop := by
  induction n generalizing cur with
  | zero =>
    rw [List.mem_singleton.mp reached]
    exact here
  | succ n ih =>
    obtain ⟨next, taken, later⟩ := List.mem_flatMap.mp reached
    exact ih (keep cur here next taken) later

theorem results_captures (pattern : Pattern α κ) {cur stop : Cursor α} (reached : stop ∈ results reader pattern cur) :
    Captures (groupIndices pattern) cur stop := by
  induction pattern generalizing cur stop with
  | empty =>
    rw [List.mem_singleton.mp reached]
    exact .refl cur
  | set member =>
    obtain ⟨_, _, _, _, moved⟩ := mem_results_set.mp reached
    exact ⟨[], by rw [moved]; rfl, by simp⟩
  | look holds =>
    simp only [results] at reached
    split at reached
    · rw [List.mem_singleton.mp reached]
      exact .refl cur
    · cases reached
  | seq first second ihFirst ihSecond =>
    obtain ⟨middle, taken, later⟩ := List.mem_flatMap.mp reached
    have before := (ihFirst taken).mono fun index member => List.mem_append_left (groupIndices second) member
    have after := (ihSecond later).mono fun index member => List.mem_append_right (groupIndices first) member
    exact before.trans after
  | alt first second ihFirst ihSecond =>
    rcases List.mem_append.mp reached with reached | reached
    · exact (ihFirst reached).mono fun index member => List.mem_append_left _ member
    · exact (ihSecond reached).mono fun index member => List.mem_append_right _ member
  | group index body ih =>
    obtain ⟨inner, taken, rfl⟩ := List.mem_map.mp reached
    obtain ⟨more, groups, inside⟩ := ih taken
    refine ⟨(index, cur.readSince inner) :: more, by simp only [Cursor.capture, groups, List.cons_append], ?_⟩
    intro captured member
    rcases List.mem_cons.mp member with rfl | member
    · exact List.mem_cons_self
    · exact List.mem_cons_of_mem _ (inside captured member)
  | loop greedy least most body ih =>
    have keep : ∀ next, Captures (groupIndices body) cur next → ∀ later ∈ results reader body next,
        Captures (groupIndices body) cur later := fun _ captures _ taken => captures.trans (ih taken)
    obtain ⟨middle, taken, later⟩ := List.mem_flatMap.mp reached
    exact upTo_keeps keep (exactly_keeps keep least (.refl cur) taken) later

end Groups

theorem results_star (pattern : Pattern α κ) (greedy : Bool) (cur : Cursor α) :
    results reader (.loop greedy 0 none pattern) cur = upTo (results reader pattern) greedy cur.rest.length cur := by
  simp only [results, exactly, List.flatMap_cons, List.flatMap_nil, List.append_nil]

theorem results_plus (pattern : Pattern α κ) (greedy : Bool) (cur : Cursor α) :
    results reader (.loop greedy 1 none pattern) cur = results reader (.seq pattern (.loop greedy 0 none pattern)) cur := by
  simp [results, exactly]

theorem mem_results_star {greedy : Bool} {cur stop : Cursor α} :
    stop ∈ results reader (.loop greedy 0 none (.set member)) cur ↔
      ∃ text, Spells reader member stop.rest text ∧ cur.rest = text ++ stop.rest ∧
        stop = cur.advance text stop.rest := by
  rw [results_star]
  constructor
  · exact spells_of_mem_upTo
  · rintro ⟨text, spells, split, same⟩
    rw [same]
    exact mem_upTo_of_spells spells split (le_refl _)

theorem mem_results_optional {pattern : Pattern α κ} {cur stop : Cursor α} :
    stop ∈ results reader (.loop true 0 (some 1) pattern) cur ↔
      stop = cur ∨ (stop ∈ results reader pattern cur ∧ stop.rest.length < cur.rest.length) := by
  have loop : results reader (.loop true 0 (some 1) pattern) cur = upTo (results reader pattern) true 1 cur := by
    simp only [results, exactly, List.flatMap_cons, List.flatMap_nil, List.append_nil]
  rw [loop, mem_upTo]
  simp only [upTo, List.mem_singleton]
  refine or_congr_right ⟨?_, ?_⟩
  · rintro ⟨next, taken, shorter, rfl⟩
    exact ⟨taken, shorter⟩
  · rintro ⟨taken, shorter⟩
    exact ⟨stop, taken, shorter, rfl⟩

theorem findAll_whole {pattern : Pattern α κ} {unit : α} {rest : List α} {stop : Cursor α}
    (first : firstAt reader pattern [] (unit :: rest) = some stop) (whole : stop.rest = [])
    (nothing : ∀ before, firstAt reader pattern before [] = none) :
    findAll reader pattern (unit :: rest) = [⟨[], unit :: rest, [], stop.groups⟩] := by
  have value : Cursor.readSince ⟨[], unit :: rest, []⟩ stop = unit :: rest := by
    rw [Cursor.readSince, whole]
    exact List.take_length
  have found : findFrom reader pattern [] [] (unit :: rest) = some ⟨[], unit :: rest, [], stop.groups⟩ := by
    simp only [findFrom, first, value, whole, List.reverse_nil]
  have later : ∀ n before, scan reader pattern n before [] [] = ([], []) := by
    intro n before
    cases n with
    | zero => rfl
    | succ n => simp [scan, findFrom, nothing]
  simp only [findAll, scanAll, scan, found, later]

theorem findFrom_absent {pattern : Pattern α κ} {before skipped text : List α}
    (absent : ∀ before later, later <:+ text → firstAt reader pattern before later = none) :
    findFrom reader pattern before skipped text = none := by
  induction text generalizing before skipped with
  | nil => simp [findFrom, absent before [] List.suffix_rfl]
  | cons unit text ih =>
    simp only [findFrom, absent before _ List.suffix_rfl]
    exact ih fun before later ends => absent before later (ends.trans (List.suffix_cons unit text))

theorem findAll_absent {pattern : Pattern α κ} {text : List α}
    (absent : ∀ before later, later <:+ text → firstAt reader pattern before later = none) :
    findAll reader pattern text = [] := by
  simp only [findAll, scanAll, scan, findFrom_absent absent]

def FirstThere (reader : Reader α κ) (pattern : Pattern α κ) (found : Match α) : Prop :=
  ∃ before stop, firstAt reader pattern before (found.value ++ found.after) = some stop ∧ stop.groups = found.groups

theorem findFrom_first {pattern : Pattern α κ} {before skipped text : List α} {found : Match α}
    (search : findFrom reader pattern before skipped text = some found) : FirstThere reader pattern found := by
  induction text generalizing before skipped with
  | nil =>
    obtain ⟨stop, first, rfl⟩ := Option.map_eq_some_iff.mp search
    obtain ⟨read, reads⟩ := firstAt_reads (within_any reader pattern) first
    have nothing : stop.rest = [] := (List.append_eq_nil_iff.mp reads.rest.symm).2
    exact ⟨before, stop, by rw [nothing]; exact first, rfl⟩
  | cons unit text ih =>
    simp only [findFrom] at search
    split at search
    · rename_i stop first
      cases search
      obtain ⟨read, reads⟩ := firstAt_reads (within_any reader pattern) first
      refine ⟨before, stop, ?_, rfl⟩
      rw [reads.readSince, ← reads.rest]
      exact first
    · exact ih search

theorem scan_first {pattern : Pattern α κ} (n : Nat) (before skipped text : List α) {found : Match α}
    (member : found ∈ (scan reader pattern n before skipped text).1) : FirstThere reader pattern found := by
  induction n generalizing before skipped text with
  | zero => cases member
  | succ n ih =>
    simp only [scan] at member
    split at member
    · cases member
    · rename_i first search
      have there := findFrom_first search
      split at member
      · rw [List.mem_singleton.mp member]
        exact there
      · rcases List.mem_cons.mp member with rfl | later
        · exact there
        · exact ih _ _ _ later
      · rcases List.mem_cons.mp member with rfl | later
        · exact there
        · exact ih _ _ _ later

theorem findAll_first {pattern : Pattern α κ} {text : List α} {found : Match α}
    (member : found ∈ findAll reader pattern text) : FirstThere reader pattern found :=
  scan_first _ [] [] text member

theorem results_seq_ne_nil {first second : Pattern α κ} {cur : Cursor α} :
    results reader (.seq first second) cur ≠ [] ↔ ∃ middle ∈ results reader first cur, results reader second middle ≠ [] := by
  simp only [results, ne_eq, List.flatMap_eq_nil_iff, not_forall, exists_prop]

theorem head?_results_seq {first second : Pattern α κ} {cur stop : Cursor α}
    (head : (results reader (.seq first second) cur).head? = some stop) :
    ∃ middle ∈ results reader first cur, (results reader second middle).head? = some stop := by
  rw [results, List.head?_flatMap] at head
  exact List.exists_of_findSome?_eq_some head

theorem head?_results_seq_of_head {first second : Pattern α κ} {cur middle stop : Cursor α}
    (ahead : (results reader first cur).head? = some middle)
    (follows : (results reader second middle).head? = some stop) :
    (results reader (.seq first second) cur).head? = some stop := by
  obtain ⟨others, list⟩ := List.head?_eq_some_iff.mp ahead
  rw [results, List.head?_flatMap, list, List.findSome?_cons, follows]

theorem results_seq_assoc (first second third : Pattern α κ) (cur : Cursor α) :
    results reader (.seq (.seq first second) third) cur = results reader (.seq first (.seq second third)) cur := by
  simp only [results, List.flatMap_assoc]

theorem head?_results_seq_seq {first second third : Pattern α κ} {cur stop : Cursor α}
    (head : (results reader (.seq (.seq first second) third) cur).head? = some stop) :
    ∃ middle ∈ results reader first cur, (results reader (.seq second third) middle).head? = some stop := by
  rw [results_seq_assoc] at head
  exact head?_results_seq head

section Hits

variable {hit : α → Prop}

theorem split_hits {first first' later later' : List α} {unit unit' : α} (hits : ∀ other ∈ first, hit other)
    (hits' : ∀ other ∈ first', hit other) (ends : ¬ hit unit) (ends' : ¬ hit unit')
    (same : first ++ unit :: later = first' ++ unit' :: later') : first = first' ∧ unit = unit' ∧ later = later' := by
  rcases List.append_eq_append_iff.mp same with ⟨more, rfl, rest⟩ | ⟨more, rfl, rest⟩
  · cases more with
    | nil =>
      obtain ⟨units, laters⟩ := List.cons.inj rest
      exact ⟨(List.append_nil _).symm, units, laters⟩
    | cons other more =>
      obtain ⟨rfl, _⟩ := List.cons.inj rest
      exact absurd (hits' unit (List.mem_append_right _ List.mem_cons_self)) ends
  · cases more with
    | nil =>
      obtain ⟨units, laters⟩ := List.cons.inj rest
      exact ⟨List.append_nil _, units.symm, laters.symm⟩
    | cons other more =>
      obtain ⟨rfl, _⟩ := List.cons.inj rest
      exact absurd (hits unit' (List.mem_append_right _ List.mem_cons_self)) ends'

end Hits

end Regex
