import TranscriptForm.Library.Regex.Edits

namespace Regex

variable {α κ : Type*}

structure Piece (α : Type*) where
  front : List α
  text : List α
  back : List α

def piecesFrom (front : List α) : List (Match α) → List α → List (Piece α)
  | [], last => [⟨front, last, []⟩]
  | found :: later, last =>
    ⟨front, found.skipped, found.value ++ (later.flatMap (fun found => found.skipped ++ found.value) ++ last)⟩ ::
      piecesFrom (front ++ (found.skipped ++ found.value)) later last

def pieces (reader : Reader α κ) (pattern : Pattern α κ) (text : List α) : List (Piece α) :=
  let scanned := scanAll reader pattern text
  piecesFrom [] scanned.1 scanned.2

def EndsIn (reader : Reader α κ) (good : α → Prop) (pattern : Pattern α κ) : Prop :=
  ∀ cur, ∀ stop ∈ results reader pattern cur, ∃ read unit, cur.rest = read ++ unit :: stop.rest ∧ good unit

variable {reader : Reader α κ} {good : α → Prop} {pattern first second : Pattern α κ}

theorem piecesFrom_text (front : List α) (founds : List (Match α)) (last : List α) :
    (piecesFrom front founds last).map Piece.text = founds.map Match.skipped ++ [last] := by
  induction founds generalizing front with
  | nil => rfl
  | cons found later ih => rw [piecesFrom, List.map_cons, ih, List.map_cons, List.cons_append]

theorem pieces_text (text : List α) : (pieces reader pattern text).map Piece.text = split reader pattern text :=
  piecesFrom_text _ _ _

theorem piecesFrom_whole (front : List α) (founds : List (Match α)) (last : List α) :
    ∀ piece ∈ piecesFrom front founds last, piece.front ++ (piece.text ++ piece.back) =
      front ++ (founds.flatMap (fun found => found.skipped ++ found.value) ++ last) := by
  induction founds generalizing front with
  | nil => simp [piecesFrom]
  | cons found later ih =>
    intro piece member
    rcases List.mem_cons.mp member with rfl | member
    · simp
    · rw [ih _ piece member]
      simp

theorem pieces_whole {text : List α} {piece : Piece α} (member : piece ∈ pieces reader pattern text) :
    text = piece.front ++ (piece.text ++ piece.back) := by
  have whole := piecesFrom_whole [] _ _ piece member
  rw [List.nil_append, (scanAll_scanned (within_any reader pattern) text).text] at whole
  exact whole.symm

theorem piecesFrom_front (front : List α) (founds : List (Match α)) (last : List α) :
    ∀ piece ∈ piecesFrom front founds last,
      piece.front = front ∨ ∃ passed, ∃ found ∈ founds, piece.front = passed ++ found.value := by
  induction founds generalizing front with
  | nil => simp [piecesFrom]
  | cons found later ih =>
    intro piece member
    rcases List.mem_cons.mp member with rfl | member
    · exact Or.inl rfl
    · right
      rcases ih _ piece member with same | ⟨passed, other, listed, same⟩
      · exact ⟨front ++ found.skipped, found, List.mem_cons_self, by rw [same, List.append_assoc]⟩
      · exact ⟨passed, other, List.mem_cons_of_mem _ listed, same⟩

namespace EndsIn

theorem seq (ends : EndsIn reader good second) : EndsIn reader good (.seq first second) := by
  intro cur stop member
  obtain ⟨middle, taken, later⟩ := List.mem_flatMap.mp member
  obtain ⟨before, reads⟩ := results_reads (within_any reader first) cur middle taken
  obtain ⟨read, unit, split, isGood⟩ := ends middle stop later
  exact ⟨before ++ read, unit, by rw [reads.rest, split, List.append_assoc], isGood⟩

theorem last (ends : EndsIn reader good pattern) : EndsIn reader good (.seq pattern .empty) := by
  intro cur stop member
  obtain ⟨middle, taken, later⟩ := List.mem_flatMap.mp member
  rw [List.mem_singleton.mp later]
  exact ends cur middle taken

theorem of_within (within : Within reader good pattern) (width : 0 < leastWidth pattern) :
    EndsIn reader good pattern := by
  intro cur stop member
  obtain ⟨read, reads⟩ := results_reads within cur stop member
  have wide := results_value_width cur stop member read reads.rest
  obtain ⟨body, unit, shape⟩ := List.eq_nil_or_concat read |>.resolve_left (by rintro rfl; simp at wide; omega)
  refine ⟨body, unit, by rw [reads.rest, shape]; simp, reads.good unit ?_⟩
  rw [shape]
  simp

end EndsIn

theorem pieces_front (ends : EndsIn reader good pattern) {text : List α} {piece : Piece α}
    (member : piece ∈ pieces reader pattern text) :
    piece.front = [] ∨ ∃ passed unit, piece.front = passed ++ [unit] ∧ good unit := by
  rcases piecesFrom_front [] _ _ piece member with start | ⟨passed, found, listed, same⟩
  · exact Or.inl start
  · right
    have every : ∀ cur, ∀ stop ∈ results reader pattern cur, ∀ read, cur.rest = read ++ stop.rest →
        ∃ body unit, read = body ++ [unit] ∧ good unit := by
      intro cur stop reached read split
      obtain ⟨body, unit, ending, isGood⟩ := ends cur stop reached
      refine ⟨body, unit, ?_, isGood⟩
      rw [split, List.append_cons] at ending
      exact List.append_cancel_right ending
    obtain ⟨body, unit, value, isGood⟩ := scan_value every _ _ _ _ found listed
    exact ⟨passed ++ body, unit, by rw [same, value, List.append_assoc], isGood⟩

end Regex
