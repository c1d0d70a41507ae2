import TranscriptForm.Kotlin.Patterns
import TranscriptForm.Library.Regex.Spelling

namespace Kotlin

open Regex (Cursor Spells results)

/-- A unit that is no half of a surrogate pair. -/
def IsPlain (c : KChar) : Prop := isSurrogate c.toNat = false

theorem plain_of_all {s : KString} (all : s.all (fun c => !isSurrogate c.toNat) = true) : ∀ c ∈ s, IsPlain c := by
  intro c member
  have plain := List.all_eq_true.mp all c member
  simpa [IsPlain] using plain

theorem readCodePoint_plain {c : KChar} (plain : IsPlain c) (s : KString) :
    readCodePoint (c :: s) = some (c.toNat, [c], s) := by
  obtain ⟨char, read, rest, found, shape⟩ := readCodePoint_cons c s
  rcases shape with ⟨rfl, rfl, rfl⟩ | ⟨d, pair, _⟩
  · exact found
  · have surrogate := (isPair_surrogates pair).1
    rw [plain] at surrogate
    cases surrogate

theorem lastCode_plain {c : KChar} (plain : IsPlain c) (before : KString) :
    Pattern.lastCode (c :: before) = some c.toNat := by
  cases before with
  | nil => rfl
  | cons d before =>
    have single : isPair d c = false := by
      by_contra pair
      have low := (isPair_surrogates (by simpa using pair)).2
      rw [plain] at low
      cases low
    rw [Pattern.lastCode, single]
    rfl

theorem mem_results_plain {member : Nat → Bool} (small : ∀ code, member code = true → code < 0x10000)
    {cur stop : Cursor KChar} : stop ∈ results utf16 (.set member) cur ↔
      ∃ c, member c.toNat = true ∧ cur.rest = c :: stop.rest ∧ readCodePoint cur.rest = some (c.toNat, [c], stop.rest) ∧
        stop = cur.advance [c] stop.rest := by
  rw [Regex.mem_results_set]
  constructor
  · rintro ⟨char, read, next, accepted, same⟩
    change readCodePoint cur.rest = some (char, read, stop.rest) at next
    cases text : cur.rest with
    | nil =>
      rw [text] at next
      cases next
    | cons c s =>
      rw [text] at next
      obtain ⟨_, _, _, found, shape⟩ := readCodePoint_cons c s
      rw [next] at found
      cases found
      rcases shape with ⟨rfl, rfl, rfl⟩ | ⟨d, _, double, _⟩
      · exact ⟨c, accepted, rfl, next, same⟩
      · have large : 0x10000 ≤ char := double ▸ pairCode_supplementary c d
        exact absurd large (Nat.not_le_of_gt (small char accepted))
  · rintro ⟨c, accepted, _, next, same⟩
    exact ⟨c.toNat, [c], next, accepted, same⟩

theorem mem_results_unit {c : KChar} (plain : IsPlain c) {cur stop : Cursor KChar} :
    stop ∈ results utf16 (.set fun code => code == c.toNat) cur ↔
      cur.rest = c :: stop.rest ∧ stop = cur.advance [c] stop.rest := by
  have small : ∀ code, (code == c.toNat) = true → code < 0x10000 := by
    intro code same
    rw [eq_of_beq same]
    exact c.toNat_lt
  rw [mem_results_plain small]
  constructor
  · rintro ⟨d, same, rest, _, moved⟩
    have unit : d = c := UInt16.toNat_inj.mp (eq_of_beq same)
    rw [unit] at rest moved
    exact ⟨rest, moved⟩
  · rintro ⟨rest, moved⟩
    exact ⟨c, by simp, rest, by rw [rest]; exact readCodePoint_plain plain _, moved⟩

namespace Pattern

theorem mem_results_units {units : KString} (plain : ∀ c ∈ units, IsPlain c) {cur stop : Cursor KChar} :
    stop ∈ results utf16 (concat (units.map fun c => .set fun code => code == c.toNat)) cur ↔
      cur.rest = units ++ stop.rest ∧ stop = cur.advance units stop.rest := by
  induction units generalizing cur with
  | nil =>
    constructor
    · intro member
      rw [List.mem_singleton.mp member]
      exact ⟨rfl, rfl⟩
    · rintro ⟨same, moved⟩
      rw [moved]
      rw [List.nil_append] at same
      rw [← same]
      exact List.mem_singleton.mpr rfl
  | cons c units ih =>
    obtain ⟨here, later⟩ := List.forall_mem_cons.mp plain
    constructor
    · intro member
      obtain ⟨middle, first, second⟩ := List.mem_flatMap.mp member
      obtain ⟨text, moved⟩ := (mem_results_unit here).mp first
      obtain ⟨more, last⟩ := (ih later).mp second
      rw [more] at text
      refine ⟨text, ?_⟩
      rw [last, moved, Cursor.advance_advance]
      rfl
    · rintro ⟨text, moved⟩
      refine List.mem_flatMap.mpr ⟨cur.advance [c] (units ++ stop.rest), ?_, ?_⟩
      · exact (mem_results_unit here).mpr ⟨text, rfl⟩
      · refine (ih later).mpr ⟨rfl, ?_⟩
        rw [Cursor.advance_advance]
        exact moved

theorem mem_results_lit {literal : String} (plain : ∀ c ∈ txt literal, IsPlain c) {cur stop : Cursor KChar} :
    stop ∈ results utf16 (lit literal) cur ↔
      cur.rest = txt literal ++ stop.rest ∧ stop = cur.advance (txt literal) stop.rest :=
  mem_results_units plain

theorem mem_results_oneOf {chars : String} (plain : ∀ c ∈ txt chars, IsPlain c) {cur stop : Cursor KChar} :
    stop ∈ results utf16 (oneOf chars) cur ↔
      ∃ c ∈ txt chars, cur.rest = c :: stop.rest ∧ stop = cur.advance [c] stop.rest := by
  have small : ∀ code, inClass chars code = true → code < 0x10000 := by
    intro code member
    simp only [inClass, List.any_eq_true, beq_iff_eq] at member
    obtain ⟨c, _, same⟩ := member
    rw [← same]
    exact c.toNat_lt
  refine (mem_results_plain small).trans ⟨?_, ?_⟩
  · rintro ⟨c, member, text, _, moved⟩
    exact ⟨c, (inClass_iff chars c).mp member, text, moved⟩
  · rintro ⟨c, member, text, moved⟩
    exact ⟨c, (inClass_iff chars c).mpr member, text, by rw [text]; exact readCodePoint_plain (plain c member) _, moved⟩

theorem spells_anything {c : KChar} (plain : IsPlain c) (rest : KString) :
    ∀ text : KString, Spells utf16 (fun _ => true) (c :: rest) text
  | [] => .nil
  | [d] => by
    have next : readCodePoint ([d] ++ ([] ++ c :: rest)) = some (d.toNat, [d], [] ++ c :: rest) := by
      obtain ⟨char, read, later, found, shape⟩ := readCodePoint_cons d (c :: rest)
      rcases shape with ⟨rfl, rfl, rfl⟩ | ⟨e, pair, _, _, same⟩
      · exact found
      · have surrogate := (isPair_surrogates pair).2
        rw [← (List.cons.inj same).1, plain] at surrogate
        cases surrogate
    have last : Spells utf16 (fun _ => true) (c :: rest) ([d] ++ []) := .cons next rfl .nil
    exact last
  | d :: e :: text => by
    obtain ⟨char, read, later, found, shape⟩ := readCodePoint_cons d (e :: (text ++ c :: rest))
    rcases shape with ⟨rfl, rfl, rfl⟩ | ⟨f, _, _, rfl, same⟩
    · have single : Spells utf16 (fun _ => true) (c :: rest) ([d] ++ (e :: text)) :=
        .cons found rfl (spells_anything plain rest (e :: text))
      exact single
    · obtain ⟨rfl, rfl⟩ := List.cons.inj same
      have double : Spells utf16 (fun _ => true) (c :: rest) ([d, e] ++ text) :=
        .cons found rfl (spells_anything plain rest text)
      exact double

theorem spells_space [Platform] {text : KString} (spaces : ∀ c ∈ text, Platform.isSpace c.toNat = true)
    (rest : KString) : Spells utf16 Platform.isSpace rest text := by
  induction text with
  | nil => exact .nil
  | cons c text ih =>
    obtain ⟨here, later⟩ := List.forall_mem_cons.mp spaces
    have plain : IsPlain c := by
      by_contra surrogate
      have other := isSpace_uniform c.toNat (Or.inl (by simpa [IsPlain] using surrogate))
      rw [here] at other
      cases other
    have first : Spells utf16 Platform.isSpace rest ([c] ++ text) := .cons (readCodePoint_plain plain _) here (ih later)
    exact first

end Pattern

end Kotlin
