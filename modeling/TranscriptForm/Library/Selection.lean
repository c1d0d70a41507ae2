import Mathlib.Data.List.Basic

-- Items that choose one after the other, each knowing the marks the earlier choices left.
namespace Selection

variable {φ σ κ : Type*} (choose : List κ → φ → Option σ) (mark : σ → κ)

def marks (picked : List (φ × σ)) : List κ := picked.map fun pick => mark pick.2

def picks : List κ → List φ → List (φ × σ)
  | _, [] => []
  | used, item :: rest =>
    match choose used item with
    | some choice => (item, choice) :: picks (used ++ [mark choice]) rest
    | none => picks used rest

variable {choose mark} {used : List κ} {items before after : List φ} {item : φ} {choice : σ}

theorem picks_some (chosen : choose used item = some choice) :
    picks choose mark used (item :: after) = (item, choice) :: picks choose mark (used ++ [mark choice]) after := by
  simp only [picks, chosen]

theorem picks_none (chosen : choose used item = none) :
    picks choose mark used (item :: after) = picks choose mark used after := by
  simp only [picks, chosen]

theorem picks_append (used : List κ) (before after : List φ) :
    picks choose mark used (before ++ after) = picks choose mark used before ++
      picks choose mark (used ++ marks mark (picks choose mark used before)) after := by
  induction before generalizing used with
  | nil => simp [picks, marks]
  | cons item before ih =>
    rw [List.cons_append]
    cases chosen : choose used item with
    | none => rw [picks_none chosen, picks_none chosen, ih]
    | some choice =>
      rw [picks_some chosen, picks_some chosen, ih]
      simp [marks]

theorem item_of_mem_picks {pick : φ × σ} (member : pick ∈ picks choose mark used items) : pick.1 ∈ items := by
  induction items generalizing used with
  | nil => cases member
  | cons item items ih =>
    cases chosen : choose used item with
    | none =>
      rw [picks_none chosen] at member
      exact List.mem_cons_of_mem _ (ih member)
    | some choice =>
      rw [picks_some chosen] at member
      rcases List.mem_cons.mp member with same | member
      · rw [same]
        exact List.mem_cons_self
      · exact List.mem_cons_of_mem _ (ih member)

theorem mem_picks_iff : (item, choice) ∈ picks choose mark used items ↔ ∃ before after,
    items = before ++ item :: after ∧ choose (used ++ marks mark (picks choose mark used before)) item = some choice := by
  constructor
  · intro member
    induction items generalizing used with
    | nil => cases member
    | cons head items ih =>
      cases chosen : choose used head with
      | none =>
        rw [picks_none chosen] at member
        obtain ⟨before, after, split, later⟩ := ih member
        refine ⟨head :: before, after, by rw [split, List.cons_append], ?_⟩
        rw [picks_none chosen]
        exact later
      | some first =>
        rw [picks_some chosen] at member
        rcases List.mem_cons.mp member with same | member
        · cases same
          exact ⟨[], items, rfl, by simpa [picks, marks] using chosen⟩
        · obtain ⟨before, after, split, later⟩ := ih member
          refine ⟨head :: before, after, by rw [split, List.cons_append], ?_⟩
          rw [picks_some chosen]
          simpa [marks] using later
  · rintro ⟨before, after, rfl, chosen⟩
    rw [picks_append, picks_some chosen]
    simp

theorem mem_picks_at (absentBefore : item ∉ before) (absentAfter : item ∉ after) :
    (item, choice) ∈ picks choose mark used (before ++ item :: after) ↔
      choose (used ++ marks mark (picks choose mark used before)) item = some choice := by
  constructor
  · intro member
    rw [picks_append] at member
    rcases List.mem_append.mp member with early | late
    · exact absurd (item_of_mem_picks early) absentBefore
    · cases chosen : choose (used ++ marks mark (picks choose mark used before)) item with
      | none =>
        rw [picks_none chosen] at late
        exact absurd (item_of_mem_picks late) absentAfter
      | some made =>
        rw [picks_some chosen] at late
        rcases List.mem_cons.mp late with same | late
        · cases same
          rfl
        · exact absurd (item_of_mem_picks late) absentAfter
  · intro chosen
    exact mem_picks_iff.mpr ⟨before, after, rfl, chosen⟩

theorem marks_eq_filterMap {view : φ → Option κ}
    (agrees : ∀ before item after, items = before ++ item :: after →
      view item = (choose (used ++ marks mark (picks choose mark used before)) item).map mark) :
    marks mark (picks choose mark used items) = items.filterMap view := by
  induction items generalizing used with
  | nil => rfl
  | cons item items ih =>
    have first := agrees [] item items rfl
    simp only [picks, marks, List.map_nil, List.append_nil] at first
    cases chosen : choose used item with
    | none =>
      rw [chosen, Option.map_none] at first
      rw [picks_none chosen, List.filterMap_cons_none first]
      apply ih
      intro before other after split
      have later := agrees (item :: before) other after (by rw [split, List.cons_append])
      rwa [picks_none chosen] at later
    | some choice =>
      rw [chosen, Option.map_some] at first
      rw [picks_some chosen, List.filterMap_cons_some first]
      change mark choice :: marks mark _ = _
      congr 1
      apply ih
      intro before other after split
      have later := agrees (item :: before) other after (by rw [split, List.cons_append])
      rw [picks_some chosen] at later
      simpa [marks] using later

end Selection
