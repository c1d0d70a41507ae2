import TranscriptForm.Library.Regex.Search

namespace Regex

variable {α κ : Type*}

def leastWidth : Pattern α κ → Nat
  | .empty => 0
  | .set _ => 1
  | .look _ => 0
  | .seq first second => leastWidth first + leastWidth second
  | .alt first second => min (leastWidth first) (leastWidth second)
  | .group _ body => leastWidth body
  | .loop _ least _ body => least * leastWidth body

section Width

variable {reader : Reader α κ} {pattern : Pattern α κ}

theorem exactly_width {step : Cursor α → List (Cursor α)} {width : Nat}
    (step_width : ∀ cur, ∀ next ∈ step cur, width + next.rest.length ≤ cur.rest.length) (n : Nat) (cur : Cursor α) :
    ∀ stop ∈ exactly step n cur, n * width + stop.rest.length ≤ cur.rest.length := by
  induction n generalizing cur with
  | zero =>
    intro stop member
    rw [List.mem_singleton.mp member]
    omega
  | succ n ih =>
    intro stop member
    obtain ⟨next, taken, later⟩ := List.mem_flatMap.mp member
    have first := step_width cur next taken
    have rest := ih next stop later
    rw [Nat.succ_mul]
    omega

theorem results_width (pattern : Pattern α κ) (cur : Cursor α) :
    ∀ stop ∈ results reader pattern cur, leastWidth pattern + stop.rest.length ≤ cur.rest.length := by
  have shrinks : ∀ body : Pattern α κ, ∀ cur, ∀ next ∈ results reader body cur,
      ∃ read, Reads (fun _ => True) cur next read :=
    fun body => results_reads (within_any reader body)
  induction pattern generalizing cur with
  | empty =>
    intro stop member
    rw [List.mem_singleton.mp member]
    simp [leastWidth]
  | set accepts =>
    intro stop member
    simp only [results] at member
    split at member
    · rename_i char read rest next
      split at member
      · obtain ⟨nonempty, split⟩ := reader.next_split next
        have positive : 0 < read.length := List.length_pos_iff.mpr nonempty
        rw [List.mem_singleton.mp member, split]
        simp only [leastWidth, Cursor.advance, List.length_append]
        omega
      · cases member
    · cases member
  | look holds =>
    intro stop member
    simp only [results] at member
    split at member
    · rw [List.mem_singleton.mp member]
      simp [leastWidth]
    · cases member
  | seq first second ihFirst ihSecond =>
    intro stop member
    obtain ⟨middle, taken, later⟩ := List.mem_flatMap.mp member
    have before := ihFirst cur middle taken
    have after := ihSecond middle stop later
    simp only [leastWidth]
    omega
  | alt first second ihFirst ihSecond =>
    intro stop member
    simp only [leastWidth]
    rcases List.mem_append.mp member with member | member
    · have bound := ihFirst cur stop member
      omega
    · have bound := ihSecond cur stop member
      omega
  | group index body ih =>
    intro stop member
    obtain ⟨inner, taken, rfl⟩ := List.mem_map.mp member
    exact ih cur inner taken
  | loop greedy least most body ih =>
    intro stop member
    obtain ⟨middle, taken, later⟩ := List.mem_flatMap.mp member
    have first := exactly_width ih least cur middle taken
    obtain ⟨read, reads⟩ := upTo_reads (shrinks body) greedy _ middle stop later
    have rest : middle.rest.length = read.length + stop.rest.length := by
      rw [reads.rest, List.length_append]
    simp only [leastWidth]
    omega

theorem results_value_width (cur : Cursor α) : ∀ stop ∈ results reader pattern cur, ∀ read,
    cur.rest = read ++ stop.rest → leastWidth pattern ≤ read.length := by
  intro stop member read split
  have width := results_width pattern cur stop member
  rw [split, List.length_append] at width
  omega

theorem findFrom_width {before skipped rest : List α} {found : Match α}
    (search : findFrom reader pattern before skipped rest = some found) :
    leastWidth pattern ≤ found.value.length :=
  findFrom_value results_value_width search

theorem scan_width (n : Nat) (before skipped rest : List α) :
    ∀ found ∈ (scan reader pattern n before skipped rest).1, leastWidth pattern ≤ found.value.length :=
  scan_value results_value_width n before skipped rest

end Width

section Replace

variable {reader : Reader α κ} {good : α → Prop} {pattern : Pattern α κ} {replacement : List α}

theorem replace_unseen {β : Type*} (within : Within reader good pattern) (observe : α → List β)
    (blind : ∀ unit, good unit → observe unit = []) (quiet : replacement.flatMap observe = []) (text : List α) :
    (replace reader pattern replacement text).flatMap observe = text.flatMap observe := by
  have scanned := scanAll_scanned within text
  have erased : ∀ found ∈ (scanAll reader pattern text).1, found.value.flatMap observe = [] := by
    intro found member
    exact List.flatMap_eq_nil_iff.mpr fun unit inside => blind unit (scanned.good found member unit inside)
  conv_rhs => rw [← scanned.text]
  simp only [replace, List.flatMap_append, List.flatMap_assoc, quiet, List.append_nil]
  congr 1
  apply List.flatMap_congr
  intro found member
  rw [erased found member, List.append_nil]

/-- What is observed of a text on both sides of a match and of the replacement alike stays the same. -/
theorem replace_observed {β : Type*} (within : Within reader good pattern) (width : 0 < leastWidth pattern)
    (observe : List α → List β)
    (atMatch : ∀ before value after, value ≠ [] → (∀ unit ∈ value, good unit) →
      observe (before ++ (value ++ after)) = observe before ++ observe after)
    (atReplacement : ∀ before after, observe (before ++ (replacement ++ after)) = observe before ++ observe after)
    (text : List α) : observe (replace reader pattern replacement text) = observe text := by
  have scanned := scanAll_scanned within text
  have wide : ∀ found ∈ (scanAll reader pattern text).1, leastWidth pattern ≤ found.value.length :=
    scan_width _ _ _ _
  have pieces : ∀ (founds : List (Match α)) (tail : List α), (∀ found ∈ founds, found.value ≠ []) →
      (∀ found ∈ founds, ∀ unit ∈ found.value, good unit) →
      observe (founds.flatMap (fun found => found.skipped ++ replacement) ++ tail) =
        observe (founds.flatMap (fun found => found.skipped ++ found.value) ++ tail) := by
    intro founds tail values hits
    induction founds with
    | nil => rfl
    | cons found founds ih =>
      have later := ih (fun other member => values other (List.mem_cons_of_mem _ member))
        (fun other member => hits other (List.mem_cons_of_mem _ member))
      simp only [List.flatMap_cons, List.append_assoc] at later ⊢
      rw [atReplacement, later, atMatch _ _ _ (values found List.mem_cons_self) (hits found List.mem_cons_self)]
  have values : ∀ found ∈ (scanAll reader pattern text).1, found.value ≠ [] := by
    intro found member empty
    have bound := wide found member
    rw [empty, List.length_nil] at bound
    omega
  have whole := pieces (scanAll reader pattern text).1 (scanAll reader pattern text).2 values scanned.good
  rw [scanned.text] at whole
  exact whole

theorem replace_units {unit : α} {text : List α} (member : unit ∈ replace reader pattern replacement text) :
    unit ∈ replacement ∨ unit ∈ text := by
  have scanned := scanAll_scanned (within_any reader pattern) text
  rw [← scanned.text]
  simp only [replace, List.mem_append, List.mem_flatMap] at member ⊢
  rcases member with ⟨found, taken, skipped | replaced⟩ | tail
  · exact Or.inr (Or.inl ⟨found, taken, Or.inl skipped⟩)
  · exact Or.inl replaced
  · exact Or.inr (Or.inr tail)

theorem find_none_iff {text : List α} :
    find reader pattern text = none ↔ ∀ passed later, text = passed ++ later → results reader pattern ⟨passed.reverse, later, []⟩ = [] := by
  constructor
  · intro search passed later same
    have absent := findFrom_none search passed later same
    rw [List.append_nil] at absent
    exact List.head?_eq_none_iff.mp absent
  · intro absent
    cases search : find reader pattern text with
    | none => rfl
    | some found =>
      obtain ⟨passed, later, same, _, present, _⟩ := findFrom_skips search
      rw [List.append_nil] at present
      exact absurd (List.head?_eq_none_iff.mpr (absent passed later same)) present

theorem replace_absent {text : List α} (absent : find reader pattern text = none) :
    replace reader pattern replacement text = text := by
  have nothing : findFrom reader pattern [] [] text = none := absent
  simp [replace, scanAll, scan, nothing]

theorem replace_nil_length (text : List α) :
    (replace reader pattern [] text).length + ((scanAll reader pattern text).1.map fun found => found.value.length).sum =
      text.length := by
  have erased : ∀ founds : List (Match α),
      (founds.flatMap fun found => found.skipped ++ []).length + (founds.map fun found => found.value.length).sum =
        (founds.flatMap fun found => found.skipped ++ found.value).length := by
    intro founds
    induction founds with
    | nil => rfl
    | cons found later ih =>
      simp only [List.flatMap_cons, List.map_cons, List.sum_cons, List.length_append, List.length_nil] at ih ⊢
      omega
  have whole := congrArg List.length (scanAll_scanned (within_any reader pattern) text).text
  have counted := erased (scanAll reader pattern text).1
  rw [replace, List.length_append]
  rw [List.length_append] at whole
  omega

theorem replace_nil_length_le (text : List α) : (replace reader pattern [] text).length ≤ text.length :=
  Nat.le.intro (replace_nil_length text)

theorem replace_nil_shorter (width : 0 < leastWidth pattern) {text : List α} (present : find reader pattern text ≠ none) :
    (replace reader pattern [] text).length < text.length := by
  obtain ⟨found, search⟩ := Option.ne_none_iff_exists'.mp present
  obtain ⟨later, last, scanned⟩ := scan_found (n := text.length) search
  have wide := findFrom_width search
  have whole : (replace reader pattern [] text).length +
      ((scanAll reader pattern text).1.map fun found => found.value.length).sum = text.length := replace_nil_length text
  rw [scanAll, scanned, List.map_cons, List.sum_cons] at whole
  omega

theorem deletions_absent {patterns : List (Pattern α κ)} {text : List α}
    (absent : ∀ pattern ∈ patterns, find reader pattern text = none) :
    patterns.foldl (fun text pattern => replace reader pattern [] text) text = text := by
  induction patterns with
  | nil => rfl
  | cons pattern patterns ih =>
    obtain ⟨here, others⟩ := List.forall_mem_cons.mp absent
    rw [List.foldl_cons, replace_absent here]
    exact ih others

theorem deletions_keep_iff {patterns : List (Pattern α κ)} (width : ∀ pattern ∈ patterns, 0 < leastWidth pattern)
    (text : List α) :
    text.length ≤ (patterns.foldl (fun text pattern => replace reader pattern [] text) text).length ↔
      ∀ pattern ∈ patterns, find reader pattern text = none := by
  have shrinks : ∀ (patterns : List (Pattern α κ)) (text : List α),
      (patterns.foldl (fun text pattern => replace reader pattern [] text) text).length ≤ text.length := by
    intro patterns
    induction patterns with
    | nil => exact fun text => le_rfl
    | cons pattern patterns ih =>
      intro text
      rw [List.foldl_cons]
      exact (ih _).trans (replace_nil_length_le text)
  induction patterns generalizing text with
  | nil => simp
  | cons pattern patterns ih =>
    obtain ⟨wide, others⟩ := List.forall_mem_cons.mp width
    rw [List.foldl_cons, List.forall_mem_cons]
    by_cases present : find reader pattern text = none
    · rw [replace_absent present]
      exact (ih others text).trans (and_iff_right present).symm
    · have shorter := replace_nil_shorter wide present
      have bound := shrinks patterns (replace reader pattern [] text)
      constructor
      · intro long
        omega
      · rintro ⟨absent, _⟩
        exact absurd absent present

def Anchored (reader : Reader α κ) (pattern : Pattern α κ) : Prop :=
  ∀ before rest, before ≠ [] → firstAt reader pattern before rest = none

theorem Anchored.findFrom_none (anchored : Anchored reader pattern) {before : List α} (later : before ≠ [])
    (skipped rest : List α) : findFrom reader pattern before skipped rest = none := by
  induction rest generalizing before skipped with
  | nil => simp [findFrom, anchored before [] later]
  | cons unit rest ih =>
    simp only [findFrom, anchored before (unit :: rest) later]
    exact ih (by simp) _

theorem Anchored.scan_none (anchored : Anchored reader pattern) (n : Nat) {before : List α} (later : before ≠ [])
    (skipped rest : List α) : scan reader pattern n before skipped rest = ([], skipped.reverse ++ rest) := by
  cases n with
  | zero => rfl
  | succ n => simp only [scan, anchored.findFrom_none later]

theorem Anchored.replace_nil (anchored : Anchored reader pattern) (text : List α) :
    replace reader pattern [] text <:+ text := by
  unfold replace scanAll
  simp only [scan]
  cases search : findFrom reader pattern [] [] text with
  | none => simp
  | some found =>
    have located := findFrom_located (within_any reader pattern) search
    have start : found.skipped = [] := by
      obtain ⟨passed, later, split, skipped, present, _⟩ := findFrom_skips search
      cases passed with
      | nil => simpa using skipped
      | cons unit passed =>
        exfalso
        exact present (anchored _ later (by simp))
    have shape : text = found.value ++ found.after := by
      have whole := located.text
      rw [start] at whole
      simpa using whole
    obtain ⟨skipped, value, after, groups⟩ := found
    dsimp only at start shape
    subst start shape
    cases value with
    | nil =>
      cases after with
      | nil => simp
      | cons unit after =>
        dsimp only
        rw [anchored.scan_none _ (by simp)]
        simp
    | cons unit value =>
      dsimp only
      rw [anchored.scan_none _ (by simp)]
      simp

end Replace

section Split

variable {reader : Reader α κ} {good : α → Prop} {pattern : Pattern α κ}

theorem part_of_separated {word left separator right : List α} (part : word <:+: left ++ (separator ++ right))
    (nonempty : separator ≠ []) (clean : ∀ unit ∈ separator, unit ∉ word) : word <:+: left ∨ word <:+: right := by
  obtain ⟨unit, separator', rfl⟩ := List.exists_cons_of_ne_nil nonempty
  rcases List.infix_append_iff_ne_nil.mp part with inLeft | inRest | ⟨front, back, _, backNonempty, rfl, _, starts⟩
  · exact Or.inl inLeft
  · induction separator' generalizing unit with
    | nil =>
      rw [List.cons_append, List.nil_append] at inRest
      rcases List.infix_cons_iff.mp inRest with starts | later
      · cases word with
        | nil => exact Or.inl (List.nil_infix)
        | cons first word =>
          obtain ⟨rfl, _⟩ := List.cons_prefix_cons.mp starts
          exact absurd List.mem_cons_self (clean _ List.mem_cons_self)
      · exact Or.inr later
    | cons next separator' ih =>
      rw [List.cons_append] at inRest
      rcases List.infix_cons_iff.mp inRest with starts | later
      · cases word with
        | nil => exact Or.inl (List.nil_infix)
        | cons first word =>
          obtain ⟨rfl, _⟩ := List.cons_prefix_cons.mp starts
          exact absurd List.mem_cons_self (clean _ List.mem_cons_self)
      · exact ih next (List.infix_append_of_infix_right later) (by simp)
          (fun other member => clean other (List.mem_cons_of_mem _ member)) later
  · exfalso
    obtain ⟨first, back, rfl⟩ := List.exists_cons_of_ne_nil backNonempty
    obtain ⟨rfl, _⟩ := List.cons_prefix_cons.mp starts
    exact clean _ List.mem_cons_self (by simp)

theorem split_keeps (within : Within reader good pattern) (width : 0 < leastWidth pattern) {text word : List α}
    (clean : ∀ unit ∈ word, ¬ good unit) (part : word <:+: text) :
    ∃ piece ∈ split reader pattern text, word <:+: piece := by
  have scanned := scanAll_scanned within text
  have wide : ∀ found ∈ (scanAll reader pattern text).1, leastWidth pattern ≤ found.value.length :=
    scan_width _ _ _ _
  have keeps : ∀ (ms : List (Match α)) (tail : List α), (∀ found ∈ ms, found.value ≠ []) →
      (∀ found ∈ ms, ∀ unit ∈ found.value, good unit) →
      word <:+: ms.flatMap (fun found => found.skipped ++ found.value) ++ tail →
      ∃ piece ∈ ms.map Match.skipped ++ [tail], word <:+: piece := by
    intro ms tail nonempty hits
    induction ms with
    | nil =>
      intro inTail
      exact ⟨tail, by simp, by simpa using inTail⟩
    | cons found ms ih =>
      intro inText
      rw [List.flatMap_cons, List.append_assoc, List.append_assoc] at inText
      have separate : ∀ unit ∈ found.value, unit ∉ word := by
        intro unit inside member
        exact clean unit member (hits found List.mem_cons_self unit inside)
      rcases part_of_separated inText (nonempty found List.mem_cons_self) separate with inSkipped | later
      · exact ⟨found.skipped, by simp, inSkipped⟩
      · obtain ⟨piece, member, inside⟩ := ih (fun other member => nonempty other (List.mem_cons_of_mem _ member))
          (fun other member => hits other (List.mem_cons_of_mem _ member)) later
        exact ⟨piece, List.mem_cons_of_mem _ member, inside⟩
  apply keeps
  · intro found member empty
    have bound := wide found member
    rw [empty, List.length_nil] at bound
    omega
  · exact scanned.good
  · rw [scanned.text]
    exact part

end Split

end Regex
