import TranscriptForm.Kotlin.Text

namespace Kotlin

def isLineBreak (c : KChar) : Bool := c == ch '\n' || c == ch '\r'

def nonBlankTrimmed (lines : List KString) : List KString := (lines.map trim).filter isNotBlank

/-- `lineSequence().map { it.trim() }.filter { it.isNotBlank() }` -/
def trimmedLines (s : KString) : List KString := nonBlankTrimmed (linesFrom [] s)

@[simp] theorem nonBlankTrimmed_nil : nonBlankTrimmed [] = [] := rfl

theorem nonBlankTrimmed_single (line : KString) :
    nonBlankTrimmed [line] = if isBlank line then [] else [trim line] := by
  simp [nonBlankTrimmed, isNotBlank, isBlank_trim, List.filter_cons, apply_ite]

theorem nonBlankTrimmed_cons (line : KString) (lines : List KString) :
    nonBlankTrimmed (line :: lines) = nonBlankTrimmed [line] ++ nonBlankTrimmed lines := by
  rw [← List.singleton_append, nonBlankTrimmed, List.map_append, List.filter_append]
  rfl

theorem nonBlankTrimmed_blank {line : KString} (blank : isBlank line = true) (lines : List KString) :
    nonBlankTrimmed (line :: lines) = nonBlankTrimmed lines := by
  rw [nonBlankTrimmed_cons, nonBlankTrimmed_single, if_pos blank, List.nil_append]

theorem nonBlankTrimmed_congr {line line' : KString} (same : trim line = trim line') :
    nonBlankTrimmed [line] = nonBlankTrimmed [line'] := by
  simp [nonBlankTrimmed, same]

theorem nonBlankTrimmed_tail {lines lines' : List KString} (same : nonBlankTrimmed lines = nonBlankTrimmed lines')
    (line : KString) : nonBlankTrimmed (line :: lines) = nonBlankTrimmed (line :: lines') := by
  rw [nonBlankTrimmed_cons line lines, nonBlankTrimmed_cons line lines', same]

theorem isLineBreak_iff (c : KChar) : isLineBreak c = true ↔ c = ch '\n' ∨ c = ch '\r' := by
  simp [isLineBreak]

/-- The two halves of a `\r\n` leave a blank line between them, which is dropped. -/
theorem nonBlankTrimmed_linesFrom (line s : KString) :
    nonBlankTrimmed (linesFrom line s) = nonBlankTrimmed (List.splitOnPPrepend isLineBreak s line) := by
  induction line, s using linesFrom.induct with
  | case1 line => rfl
  | case2 line c ends =>
    rw [linesFrom, if_pos ends, List.splitOnPPrepend_cons_pos ((isLineBreak_iff c).mpr ends)]
    rfl
  | case3 line c other =>
    have plain : isLineBreak c = false := by rwa [← Bool.not_eq_true, isLineBreak_iff]
    rw [linesFrom, if_neg other, List.splitOnPPrepend_cons_neg plain]
    rfl
  | case4 line c d s both ih =>
    obtain ⟨rfl, rfl⟩ := both
    rw [linesFrom, if_pos ⟨rfl, rfl⟩, List.splitOnPPrepend_cons_pos rfl]
    apply nonBlankTrimmed_tail
    rw [List.splitOnP_eq_splitOnPPrepend, List.splitOnPPrepend_cons_pos rfl, List.reverse_nil,
      nonBlankTrimmed_blank isBlank_nil]
    exact ih
  | case5 line c d s split ends ih =>
    rw [linesFrom, if_neg split, if_pos ends, List.splitOnPPrepend_cons_pos ((isLineBreak_iff c).mpr ends)]
    exact nonBlankTrimmed_tail ih line.reverse
  | case6 line c d s split other ih =>
    have plain : isLineBreak c = false := by rwa [← Bool.not_eq_true, isLineBreak_iff]
    rw [linesFrom, if_neg split, if_neg other, List.splitOnPPrepend_cons_neg plain]
    exact ih

theorem trimmedLines_eq (s : KString) : trimmedLines s = nonBlankTrimmed (s.splitOnP isLineBreak) :=
  nonBlankTrimmed_linesFrom [] s

theorem trimmedLines_nil : trimmedLines [] = [] := rfl

section Single

variable {line : KString} (clean : ∀ c ∈ line, isLineBreak c = false)
include clean

theorem trimmedLines_line (rest : KString) :
    trimmedLines (line ++ ch '\n' :: rest) = nonBlankTrimmed [line] ++ trimmedLines rest := by
  rw [trimmedLines_eq, trimmedLines_eq, List.splitOnP_append_cons_of_forall_mem clean (ch '\n') rfl, nonBlankTrimmed_cons]

theorem trimmedLines_single : trimmedLines line = nonBlankTrimmed [line] := by
  rw [trimmedLines_eq, List.splitOnP_eq_singleton clean]

end Single

section Trimmed

theorem nonBlankTrimmed_spaceBefore {c : KChar} (space : isWhitespace c = true) (s line : KString) :
    nonBlankTrimmed (List.splitOnPPrepend isLineBreak s (line ++ [c])) =
      nonBlankTrimmed (List.splitOnPPrepend isLineBreak s line) := by
  have ended (line : KString) : nonBlankTrimmed [(line ++ [c]).reverse] = nonBlankTrimmed [line.reverse] := by
    apply nonBlankTrimmed_congr
    rw [List.reverse_append]
    have padded : trim ([c] ++ (line.reverse ++ [])) = trim line.reverse :=
      trimBy_padded (by simpa using space) (by simp) _
    rwa [List.append_nil] at padded
  induction s generalizing line with
  | nil => exact ended line
  | cons d s ih =>
    by_cases ends : isLineBreak d = true
    · rw [List.splitOnPPrepend_cons_pos ends, List.splitOnPPrepend_cons_pos ends, nonBlankTrimmed_cons, ended,
        ← nonBlankTrimmed_cons]
    · have other : isLineBreak d = false := by simpa using ends
      rw [List.splitOnPPrepend_cons_neg other, List.splitOnPPrepend_cons_neg other]
      exact ih (d :: line)

theorem trimmedLines_cons {c : KChar} (space : isWhitespace c = true) (s : KString) :
    trimmedLines (c :: s) = trimmedLines s := by
  rw [trimmedLines_eq, trimmedLines_eq, List.splitOnP_eq_splitOnPPrepend, List.splitOnP_eq_splitOnPPrepend]
  by_cases ends : isLineBreak c = true
  · rw [List.splitOnPPrepend_cons_pos ends, List.reverse_nil, nonBlankTrimmed_blank rfl]
    rfl
  · rw [List.splitOnPPrepend_cons_neg (by simpa using ends)]
    exact nonBlankTrimmed_spaceBefore space s []

theorem trimmedLines_left {left : KString} (spaces : ∀ c ∈ left, isWhitespace c = true) (s : KString) :
    trimmedLines (left ++ s) = trimmedLines s := by
  induction left with
  | nil => rfl
  | cons c left ih =>
    obtain ⟨here, later⟩ := List.forall_mem_cons.mp spaces
    rw [List.cons_append, trimmedLines_cons here]
    exact ih later

theorem nonBlankTrimmed_spaces {right : KString} (spaces : ∀ c ∈ right, isWhitespace c = true) (line : KString) :
    nonBlankTrimmed (List.splitOnPPrepend isLineBreak right line) = nonBlankTrimmed [line.reverse] := by
  induction right generalizing line with
  | nil => rfl
  | cons c right ih =>
    obtain ⟨here, later⟩ := List.forall_mem_cons.mp spaces
    by_cases ends : isLineBreak c = true
    · have rest := ih later []
      rw [List.splitOnPPrepend_nil_right, List.reverse_nil, nonBlankTrimmed_blank rfl] at rest
      rw [List.splitOnPPrepend_cons_pos ends, nonBlankTrimmed_cons, rest]
      exact List.append_nil _
    · rw [List.splitOnPPrepend_cons_neg (by simpa using ends), ih later]
      apply nonBlankTrimmed_congr
      rw [List.reverse_cons]
      have padded : trim ([] ++ (line.reverse ++ [c])) = trim line.reverse :=
        trimBy_padded (by simp) (by simpa using here) _
      exact padded

theorem trimmedLines_right {right : KString} (spaces : ∀ c ∈ right, isWhitespace c = true) (s : KString) :
    trimmedLines (s ++ right) = trimmedLines s := by
  have from' (line : KString) : nonBlankTrimmed (List.splitOnPPrepend isLineBreak (s ++ right) line) =
      nonBlankTrimmed (List.splitOnPPrepend isLineBreak s line) := by
    induction s generalizing line with
    | nil => exact nonBlankTrimmed_spaces spaces line
    | cons c s ih =>
      rw [List.cons_append, List.splitOnPPrepend_cons_eq_if, List.splitOnPPrepend_cons_eq_if]
      split
      · exact nonBlankTrimmed_tail (ih []) line.reverse
      · exact ih (c :: line)
  rw [trimmedLines_eq, trimmedLines_eq]
  exact from' []

theorem trimmedLines_trim (s : KString) : trimmedLines (trim s) = trimmedLines s := by
  obtain ⟨left, right, split, leftSpaces, rightSpaces⟩ := trim_split s
  calc trimmedLines (trim s)
      = trimmedLines (left ++ trim s) := (trimmedLines_left leftSpaces _).symm
    _ = trimmedLines (left ++ trim s ++ right) := (trimmedLines_right rightSpaces _).symm
    _ = trimmedLines s := by rw [← split]

end Trimmed

end Kotlin
