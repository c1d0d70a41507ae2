import TranscriptForm.Library.Regex.Engine

namespace Regex

variable {α κ : Type*}

/-- One match of a search, with the text the search skipped to reach it. -/
structure Match (α : Type*) where
  skipped : List α
  value : List α
  after : List α
  groups : List (Nat × List α)

def Match.group (found : Match α) (index : Nat) : Option (List α) := found.groups.lookup index

def firstAt (reader : Reader α κ) (pattern : Pattern α κ) (before rest : List α) : Option (Cursor α) :=
  (results reader pattern ⟨before, rest, []⟩).head?

/-- The leftmost match. `skipped` is the reversed text passed over so far. -/
def findFrom (reader : Reader α κ) (pattern : Pattern α κ) (before skipped : List α) :
    List α → Option (Match α)
  | [] =>
    (firstAt reader pattern before []).map fun stop => ⟨skipped.reverse, [], stop.rest, stop.groups⟩
  | unit :: rest =>
    match firstAt reader pattern before (unit :: rest) with
    | some stop =>
      some ⟨skipped.reverse, Cursor.readSince ⟨before, unit :: rest, []⟩ stop, stop.rest, stop.groups⟩
    | none => findFrom reader pattern (unit :: before) (unit :: skipped) rest

def find (reader : Reader α κ) (pattern : Pattern α κ) (text : List α) : Option (Match α) :=
  findFrom reader pattern [] [] text

/-- Successive matches and the text after the last one. The search goes on where
    the previous match ended, one unit further if that match was empty. -/
def scan (reader : Reader α κ) (pattern : Pattern α κ) :
    Nat → List α → List α → List α → List (Match α) × List α
  | 0, _, skipped, rest => ([], skipped.reverse ++ rest)
  | n + 1, before, skipped, rest =>
    match findFrom reader pattern before skipped rest with
    | none => ([], skipped.reverse ++ rest)
    | some found =>
      let passed := found.value.reverse ++ (found.skipped.drop skipped.length).reverse ++ before
      match found.value, found.after with
      | [], [] => ([found], [])
      | [], unit :: after =>
        let later := scan reader pattern n (unit :: passed) [unit] after
        (found :: later.1, later.2)
      | _ :: _, after =>
        let later := scan reader pattern n passed [] after
        (found :: later.1, later.2)

def scanAll (reader : Reader α κ) (pattern : Pattern α κ) (text : List α) : List (Match α) × List α :=
  scan reader pattern (text.length + 1) [] [] text

def findAll (reader : Reader α κ) (pattern : Pattern α κ) (text : List α) : List (Match α) :=
  (scanAll reader pattern text).1

def replace (reader : Reader α κ) (pattern : Pattern α κ) (replacement text : List α) : List α :=
  let scanned := scanAll reader pattern text
  scanned.1.flatMap (fun found => found.skipped ++ replacement) ++ scanned.2

def split (reader : Reader α κ) (pattern : Pattern α κ) (text : List α) : List (List α) :=
  let scanned := scanAll reader pattern text
  scanned.1.map Match.skipped ++ [scanned.2]

def matchesWhole (reader : Reader α κ) (pattern : Pattern α κ) (text : List α) : Bool :=
  (results reader pattern ⟨[], text, []⟩).any fun stop => stop.rest.isEmpty

section Sound

variable {reader : Reader α κ} {good : α → Prop} {pattern : Pattern α κ}

theorem firstAt_reads (within : Within reader good pattern) {before rest : List α} {stop : Cursor α}
    (first : firstAt reader pattern before rest = some stop) :
    ∃ read, Reads good ⟨before, rest, []⟩ stop read :=
  results_reads within _ stop (List.mem_of_mem_head? (by rw [← firstAt, first]; rfl))

structure Located (good : α → Prop) (skipped rest : List α) (found : Match α) : Prop where
  text : skipped.reverse ++ rest = found.skipped ++ (found.value ++ found.after)
  prefix_skipped : skipped.reverse <+: found.skipped
  good : ∀ unit ∈ found.value, good unit
  groups : ∀ captured ∈ found.groups, captured.2 <:+: found.value

theorem findFrom_located (within : Within reader good pattern) {before skipped rest : List α}
    {found : Match α} (search : findFrom reader pattern before skipped rest = some found) :
    Located good skipped rest found := by
  induction rest generalizing before skipped with
  | nil =>
    obtain ⟨stop, first, rfl⟩ := Option.map_eq_some_iff.mp search
    obtain ⟨read, reads⟩ := firstAt_reads within first
    have nothing := List.append_eq_nil_iff.mp reads.rest.symm
    refine ⟨by simp [nothing.2], List.prefix_refl _, by simp, ?_⟩
    intro captured member
    rcases reads.groups captured member with absurd | inside
    · cases absurd
    · rw [nothing.1] at inside
      exact inside
  | cons unit rest ih =>
    simp only [findFrom] at search
    split at search
    · rename_i stop first
      cases search
      obtain ⟨read, reads⟩ := firstAt_reads within first
      have value := reads.readSince
      refine ⟨by simp only [value]; rw [← reads.rest], List.prefix_refl _, ?_, ?_⟩
      · simpa only [value] using reads.good
      · intro captured member
        rcases reads.groups captured member with absurd | inside
        · cases absurd
        · simpa only [value] using inside
    · have later := ih search
      refine ⟨by simpa using later.text, ?_, later.good, later.groups⟩
      exact (List.prefix_append skipped.reverse [unit]).trans (by simpa using later.prefix_skipped)

theorem findFrom_none {before skipped rest : List α}
    (search : findFrom reader pattern before skipped rest = none) :
    ∀ passed later, rest = passed ++ later →
      firstAt reader pattern (passed.reverse ++ before) later = none := by
  induction rest generalizing before skipped with
  | nil =>
    intro passed later same
    obtain ⟨rfl, rfl⟩ := List.append_eq_nil_iff.mp same.symm
    simpa [findFrom] using search
  | cons unit rest ih =>
    intro passed later same
    simp only [findFrom] at search
    split at search
    · cases search
    · rename_i absent
      cases passed with
      | nil =>
        rw [List.nil_append] at same
        rw [← same]
        exact absent
      | cons head passed =>
        obtain ⟨rfl, tail⟩ := List.cons.inj same
        simpa using ih search passed later tail

theorem findFrom_skips {before skipped rest : List α} {found : Match α}
    (search : findFrom reader pattern before skipped rest = some found) :
    ∃ passed later, rest = passed ++ later ∧ found.skipped = skipped.reverse ++ passed ∧
      firstAt reader pattern (passed.reverse ++ before) later ≠ none ∧
      ∀ left right, passed = left ++ right → right ≠ [] →
        firstAt reader pattern (left.reverse ++ before) (right ++ later) = none := by
  induction rest generalizing before skipped with
  | nil =>
    obtain ⟨stop, first, rfl⟩ := Option.map_eq_some_iff.mp search
    refine ⟨[], [], rfl, by simp, by simp [first], ?_⟩
    intro left right same nonempty
    exact absurd (List.append_eq_nil_iff.mp same.symm).2 nonempty
  | cons unit rest ih =>
    simp only [findFrom] at search
    split at search
    · rename_i stop first
      cases search
      refine ⟨[], unit :: rest, rfl, by simp, by simp [first], ?_⟩
      intro left right same nonempty
      exact absurd (List.append_eq_nil_iff.mp same.symm).2 nonempty
    · rename_i absent
      obtain ⟨passed, later, rfl, shape, present, missing⟩ := ih search
      refine ⟨unit :: passed, later, rfl, by simpa using shape, by simpa using present, ?_⟩
      intro left right same nonempty
      cases left with
      | nil =>
        rw [List.nil_append] at same
        rw [← same]
        exact absent
      | cons head left =>
        obtain ⟨rfl, tail⟩ := List.cons.inj same
        simpa using missing left right tail nonempty

section Values

variable {holds : List α → Prop}
  (every : ∀ cur, ∀ stop ∈ results reader pattern cur, ∀ read, cur.rest = read ++ stop.rest → holds read)
include every

theorem findFrom_value {before skipped rest : List α} {found : Match α}
    (search : findFrom reader pattern before skipped rest = some found) : holds found.value := by
  induction rest generalizing before skipped with
  | nil =>
    obtain ⟨stop, first, rfl⟩ := Option.map_eq_some_iff.mp search
    obtain ⟨read, reads⟩ := firstAt_reads (within_any reader pattern) first
    have nothing := List.append_eq_nil_iff.mp reads.rest.symm
    exact every _ stop (List.mem_of_mem_head? first) [] (by rw [nothing.2]; rfl)
  | cons unit rest ih =>
    simp only [findFrom] at search
    split at search
    · rename_i stop first
      cases search
      obtain ⟨read, reads⟩ := firstAt_reads (within_any reader pattern) first
      rw [reads.readSince]
      exact every _ stop (List.mem_of_mem_head? first) read reads.rest
    · exact ih search

theorem scan_value (n : Nat) (before skipped rest : List α) :
    ∀ found ∈ (scan reader pattern n before skipped rest).1, holds found.value := by
  induction n generalizing before skipped rest with
  | zero => simp [scan]
  | succ n ih =>
    simp only [scan]
    split
    · simp
    · rename_i found search
      have here := findFrom_value every search
      split
      · simpa using here
      · exact List.forall_mem_cons.mpr ⟨here, ih _ _ _⟩
      · exact List.forall_mem_cons.mpr ⟨here, ih _ _ _⟩

end Values

/-- What the matches of a scan and the text between them add up to. -/
structure Scanned (good : α → Prop) (text : List α) (scanned : List (Match α) × List α) : Prop where
  text : scanned.1.flatMap (fun found => found.skipped ++ found.value) ++ scanned.2 = text
  good : ∀ found ∈ scanned.1, ∀ unit ∈ found.value, good unit
  groups : ∀ found ∈ scanned.1, ∀ captured ∈ found.groups, captured.2 <:+: found.value

theorem Scanned.none (text : List α) : Scanned good text ([], text) :=
  ⟨by simp, by simp, by simp⟩

theorem Located.cons {skipped rest later : List α} {found : Match α}
    {scanned : List (Match α) × List α} (located : Located good skipped rest found)
    (scan : Scanned good later scanned) (after : found.after = later) :
    Scanned good (skipped.reverse ++ rest) (found :: scanned.1, scanned.2) where
  text := by
    rw [located.text, after, ← scan.text]
    simp
  good := by
    intro other member
    rcases List.mem_cons.mp member with rfl | member
    · exact located.good
    · exact scan.good other member
  groups := by
    intro other member
    rcases List.mem_cons.mp member with rfl | member
    · exact located.groups
    · exact scan.groups other member

theorem scan_scanned (within : Within reader good pattern) (n : Nat) (before skipped rest : List α) :
    Scanned good (skipped.reverse ++ rest) (scan reader pattern n before skipped rest) := by
  induction n generalizing before skipped rest with
  | zero => exact .none _
  | succ n ih =>
    simp only [scan]
    split
    · exact .none _
    · rename_i found search
      have located := findFrom_located within search
      split
      · rename_i after
        exact located.cons (Scanned.none []) after
      · rename_i unit later _ after
        exact located.cons (ih _ [unit] later) after
      · rename_i head tail later _
        exact located.cons (ih _ [] found.after) rfl

theorem scanAll_scanned (within : Within reader good pattern) (text : List α) :
    Scanned good text (scanAll reader pattern text) :=
  scan_scanned within _ [] [] text

theorem skipped_part {text : List α} {scanned : List (Match α) × List α}
    (scan : Scanned good text scanned) {found : Match α} (member : found ∈ scanned.1) :
    found.skipped ++ found.value <:+: text := by
  obtain ⟨left, right, split⟩ := List.append_of_mem member
  rw [← scan.text, split]
  refine ⟨left.flatMap fun found => found.skipped ++ found.value,
    right.flatMap (fun found => found.skipped ++ found.value) ++ scanned.2, ?_⟩
  simp

theorem find_located (within : Within reader good pattern) {text : List α} {found : Match α}
    (search : find reader pattern text = some found) : Located good [] text found :=
  findFrom_located within search

theorem find_value_part {text : List α} {found : Match α}
    (search : find reader pattern text = some found) : found.value <:+: text := by
  have located := find_located (within_any reader pattern) search
  exact ⟨found.skipped, found.after, by rw [List.append_assoc, ← located.text]; rfl⟩

theorem mem_of_group {found : Match α} {index : Nat} {captured : List α}
    (group : found.group index = some captured) : (index, captured) ∈ found.groups := by
  obtain ⟨skipped, value, after, groups⟩ := found
  change groups.lookup index = some captured at group
  change (index, captured) ∈ groups
  induction groups with
  | nil => simp at group
  | cons entry rest ih =>
    obtain ⟨key, stored⟩ := entry
    by_cases same : index = key
    · subst same
      simp only [List.lookup_cons, beq_self_eq_true, Option.some.injEq] at group
      subst group
      exact List.mem_cons_self
    · have different : (index == key) = false := by simpa using same
      simp only [List.lookup_cons, different] at group
      exact List.mem_cons_of_mem _ (ih group)

theorem find_group_part {text : List α} {found : Match α} {index : Nat} {captured : List α}
    (search : find reader pattern text = some found) (group : found.group index = some captured) :
    captured <:+: text :=
  ((find_located (within_any reader pattern) search).groups _ (mem_of_group group)).trans
    (find_value_part search)

theorem split_piece_part {text piece : List α} (member : piece ∈ split reader pattern text) :
    piece <:+: text := by
  have scan := scanAll_scanned (within_any reader pattern) text
  rcases List.mem_append.mp member with member | member
  · obtain ⟨found, taken, rfl⟩ := List.mem_map.mp member
    exact (List.prefix_append found.skipped found.value).isInfix.trans (skipped_part scan taken)
  · rw [List.mem_singleton.mp member]
    have tail : (scanAll reader pattern text).2 <:+ text := ⟨_, scan.text⟩
    exact tail.isInfix

theorem scan_found {n : Nat} {before skipped rest : List α} {found : Match α}
    (search : findFrom reader pattern before skipped rest = some found) :
    ∃ later last, scan reader pattern (n + 1) before skipped rest = (found :: later, last) := by
  simp only [scan, search]
  split <;> exact ⟨_, _, rfl⟩

theorem split_first {unit : α} {rest : List α} (absent : firstAt reader pattern [] (unit :: rest) = none) :
    ∃ piece pieces, split reader pattern (unit :: rest) = (unit :: piece) :: pieces := by
  unfold split scanAll
  cases search : findFrom reader pattern [] [] (unit :: rest) with
  | none =>
    simp only [scan, search]
    exact ⟨rest, [], rfl⟩
  | some found =>
    obtain ⟨passed, later, same, skipped, present, _⟩ := findFrom_skips search
    cases passed with
    | nil =>
      rw [List.nil_append] at same
      rw [← same] at present
      exact absurd absent present
    | cons head passed =>
      obtain ⟨rfl, _⟩ := List.cons.inj same
      obtain ⟨others, last, scanned⟩ := scan_found (n := (unit :: rest).length) search
      refine ⟨passed, others.map Match.skipped ++ [last], ?_⟩
      rw [scanned]
      simp only [List.map_cons, skipped, List.cons_append]
      rfl

end Sound

end Regex
