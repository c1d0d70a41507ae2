import TranscriptForm.Kotlin.Literals
import TranscriptForm.Library.Regex.Taking

namespace Kotlin

open Regex (Cursor Spells Takes results)

def matchEntire (pattern : Pattern) (s : KString) : Option (Regex.Match KChar) := Regex.matchEntire utf16 pattern s

section CodePoints

variable {c d : KChar}

theorem isPlain_ascii (ascii : c.toNat < 0x80) : IsPlain c := by
  simp only [IsPlain, isSurrogate, Bool.and_eq_false_iff, decide_eq_false_iff_not]
  omega

theorem IsPlain.no_high (plain : IsPlain c) : ¬ isPair c d = true := by
  intro pair
  have surrogate := (isPair_surrogates pair).1
  rw [plain] at surrogate
  cases surrogate

theorem IsPlain.no_low (plain : IsPlain d) : ¬ isPair c d = true := by
  intro pair
  have surrogate := (isPair_surrogates pair).2
  rw [plain] at surrogate
  cases surrogate

theorem mem_codePoints (plain : IsPlain c) {s : KString} (member : c ∈ s) : c.toNat ∈ codePoints s := by
  induction s using codePoints.induct with
  | case1 => cases member
  | case2 d =>
    rw [List.mem_singleton.mp member]
    exact List.mem_singleton.mpr rfl
  | case3 d e s pair ih =>
    rw [codePoints, if_pos pair]
    rcases List.mem_cons.mp member with rfl | later
    · exact absurd pair plain.no_high
    · rcases List.mem_cons.mp later with rfl | later
      · exact absurd pair plain.no_low
      · exact List.mem_cons_of_mem _ (ih later)
  | case4 d e s single ih =>
    rw [codePoints, if_neg single]
    rcases List.mem_cons.mp member with rfl | later
    · exact List.mem_cons_self
    · exact List.mem_cons_of_mem _ (ih later)

theorem codePoints_read {code : Nat} {text read rest : KString} (next : readCodePoint text = some (code, read, rest)) :
    codePoints text = code :: codePoints rest := by
  match text with
  | [] => cases next
  | [c] =>
    simp only [readCodePoint, Option.some.injEq, Prod.mk.injEq] at next
    obtain ⟨same, _, nothing⟩ := next
    rw [← nothing, ← same, codePoints, codePoints]
  | c :: d :: text =>
    rw [readCodePoint] at next
    rw [codePoints]
    by_cases pair : isPair c d = true
    · rw [if_pos pair, Option.some.injEq, Prod.mk.injEq, Prod.mk.injEq] at next
      rw [if_pos pair, next.1, next.2.2]
    · rw [if_neg pair, Option.some.injEq, Prod.mk.injEq, Prod.mk.injEq] at next
      rw [if_neg pair, next.1, next.2.2]

theorem codePoints_read_append {code : Nat} {text read rest : KString}
    (next : readCodePoint (read ++ (text ++ rest)) = some (code, read, text ++ rest)) :
    codePoints (read ++ text) = code :: codePoints text := by
  match read with
  | [] => exact absurd rfl (utf16.next_split next).1
  | [c] =>
    obtain ⟨char, _, _, found, ⟨same, _, _⟩ | ⟨d, _, _, rfl, _⟩⟩ := readCodePoint_cons c (text ++ rest)
    · have equal : code = char := congrArg Prod.fst (Option.some.inj (next.symm.trans found))
      rw [equal, same]
      cases text with
      | nil => rw [List.append_nil, codePoints, codePoints]
      | cons d text =>
        have single : ¬ isPair c d = true := by
          intro pair
          change readCodePoint (c :: d :: (text ++ rest)) = _ at next
          rw [readCodePoint, if_pos pair] at next
          have shape : [c, d] = [c] := congrArg (fun found => found.2.1) (Option.some.inj next)
          simp at shape
        rw [List.singleton_append, codePoints, if_neg single]
    · have shape : [c] = [c, d] := congrArg (fun found => found.2.1) (Option.some.inj (next.symm.trans found))
      simp at shape
  | c :: d :: read =>
    obtain ⟨char, _, _, found, ⟨_, rfl, _⟩ | ⟨e, pair, same, rfl, _⟩⟩ :=
      readCodePoint_cons c (d :: (read ++ (text ++ rest)))
    · have shape : c :: d :: read = [c] := congrArg (fun found => found.2.1) (Option.some.inj (next.symm.trans found))
      simp at shape
    · have equal : code = char := congrArg Prod.fst (Option.some.inj (next.symm.trans found))
      have shape : c :: d :: read = [c, e] := congrArg (fun found => found.2.1) (Option.some.inj (next.symm.trans found))
      obtain ⟨rfl, rfl⟩ : d = e ∧ read = [] := by simpa using shape
      rw [List.cons_append, List.singleton_append, codePoints, if_pos pair, equal, same]

theorem codePoints_of_spells {member : Nat → Bool} {text rest : KString} (spells : Spells utf16 member rest text) :
    ∀ code ∈ codePoints text, member code = true := by
  induction spells with
  | nil => simp [codePoints]
  | cons next accepted _ ih =>
    rw [codePoints_read_append next]
    exact List.forall_mem_cons.mpr ⟨accepted, ih⟩

theorem spells_of_codePoints {member : Nat → Bool} {text rest : KString} (plain : ∀ c, rest.head? = some c → IsPlain c)
    (all : ∀ code ∈ codePoints text, member code = true) : Spells utf16 member rest text := by
  induction text using codePoints.induct with
  | case1 => exact .nil
  | case2 c =>
    have next : readCodePoint ([c] ++ ([] ++ rest)) = some (c.toNat, [c], [] ++ rest) := by
      cases rest with
      | nil => rfl
      | cons d rest =>
        have single : ¬ isPair c d = true := (plain d rfl).no_low
        change readCodePoint (c :: d :: rest) = _
        rw [readCodePoint, if_neg single]
        rfl
    have first : Spells utf16 member rest ([c] ++ []) := .cons next (all _ List.mem_cons_self) .nil
    exact first
  | case3 c d s pair ih =>
    rw [codePoints, if_pos pair] at all
    obtain ⟨here, later⟩ := List.forall_mem_cons.mp all
    have next : readCodePoint ([c, d] ++ (s ++ rest)) = some (pairCode c d, [c, d], s ++ rest) := by
      rw [List.cons_append, List.singleton_append, readCodePoint, if_pos pair]
    have double : Spells utf16 member rest ([c, d] ++ s) := .cons next here (ih later)
    exact double
  | case4 c d s single ih =>
    rw [codePoints, if_neg single] at all
    obtain ⟨here, later⟩ := List.forall_mem_cons.mp all
    have next : readCodePoint ([c] ++ ((d :: s) ++ rest)) = some (c.toNat, [c], (d :: s) ++ rest) := by
      rw [List.singleton_append, List.cons_append, readCodePoint, if_neg single]
    have first : Spells utf16 member rest ([c] ++ (d :: s)) := .cons next here (ih later)
    exact first

end CodePoints

namespace Pattern

theorem takes_lit {literal : String} (plain : ∀ c ∈ txt literal, IsPlain c) (rest : KString) :
    Takes utf16 (lit literal) rest (txt literal) [] := by
  have units {units : KString} (plain : ∀ c ∈ units, IsPlain c) :
      Takes utf16 (concat (units.map fun c => .set fun code => code == c.toNat)) rest units [] := by
    induction units with
    | nil => exact .empty
    | cons c units ih =>
      obtain ⟨here, later⟩ := List.forall_mem_cons.mp plain
      have first : Takes utf16 (.set fun code => code == c.toNat) (units ++ rest) [c] [] :=
        .set (readCodePoint_plain here _) (beq_self_eq_true c.toNat)
      exact first.seq (ih later)
  exact units plain

theorem codePoints_after {pattern : Pattern} {cur stop : Cursor KChar} (reached : stop ∈ results utf16 pattern cur) :
    codePoints stop.rest <:+ codePoints cur.rest := by
  induction pattern generalizing cur stop with
  | empty => rw [List.mem_singleton.mp reached]
  | set member =>
    obtain ⟨code, _, next, _, _⟩ := Regex.mem_results_set.mp reached
    rw [codePoints_read next]
    exact List.suffix_cons _ _
  | look holds =>
    simp only [results] at reached
    split at reached
    · rw [List.mem_singleton.mp reached]
    · cases reached
  | seq first second ihFirst ihSecond =>
    obtain ⟨middle, taken, later⟩ := List.mem_flatMap.mp reached
    exact (ihSecond later).trans (ihFirst taken)
  | alt first second ihFirst ihSecond =>
    rcases List.mem_append.mp reached with reached | reached
    · exact ihFirst reached
    · exact ihSecond reached
  | group index body ih =>
    obtain ⟨inner, taken, same⟩ := List.mem_map.mp reached
    have inside := ih taken
    rw [← same]
    exact inside
  | loop greedy least most body ih =>
    obtain ⟨middle, taken, later⟩ := List.mem_flatMap.mp reached
    have keep : ∀ next : Cursor KChar, codePoints next.rest <:+ codePoints cur.rest →
        ∀ further ∈ results utf16 body next, codePoints further.rest <:+ codePoints cur.rest :=
      fun _ here _ step => (ih step).trans here
    exact Regex.upTo_keeps keep (Regex.exactly_keeps keep least List.suffix_rfl taken) later

theorem takes_rounds {member : Nat → Bool} {n : Nat} {text rest : KString} (spells : Spells utf16 member rest text)
    (few : (codePoints text).length ≤ n)
    (stuck : ∀ char taken left, readCodePoint rest = some (char, taken, left) → member char = false) :
    Takes utf16 (.loop true 0 (some n) (.set member)) rest text [] := by
  induction spells generalizing n with
  | nil =>
    refine .rounds_end (Or.inr fun cur here => ?_)
    rw [List.eq_nil_iff_forall_not_mem]
    intro stop reached
    obtain ⟨char, taken, next, accepted, _⟩ := Regex.mem_results_set.mp reached
    rw [here] at next
    rw [stuck char taken stop.rest next] at accepted
    cases accepted
  | cons next accepted _ ih =>
    rw [codePoints_read_append next, List.length_cons] at few
    obtain ⟨n, rfl⟩ : ∃ m, n = m + 1 := ⟨n - 1, by omega⟩
    exact .rounds_more (.set next accepted) (utf16.next_split next).1 (ih (by omega))

variable [Platform]

theorem takes_digits {digits : KString} (all : ∀ c ∈ digits, isAsciiDigit c.toNat = true) (rest : KString) :
    Takes utf16 (between digits.length digits.length digit) rest digits [] := by
  induction digits with
  | nil => exact .times_zero
  | cons c digits ih =>
    obtain ⟨here, later⟩ := List.forall_mem_cons.mp all
    have ascii : c.toNat < 0x80 := by
      rw [isAsciiDigit, Bool.and_eq_true, decide_eq_true_eq, decide_eq_true_eq] at here
      omega
    have accepted : Platform.isDigit c.toNat = true := by rw [Platform.isDigit_ascii _ ascii, here]
    have first : Takes utf16 digit (digits ++ rest) [c] [] := .set (readCodePoint_plain (isPlain_ascii ascii) _) accepted
    exact first.times_succ (ih later)

theorem takes_spaces {spaces rest : KString} (all : ∀ c ∈ spaces, Platform.isSpace c.toNat = true)
    (stops : ∀ c, rest.head? = some c → Platform.isSpace c.toNat = false) :
    Takes utf16 (star space) rest spaces [] := by
  apply Takes.star (spells_space all rest)
  intro char taken left next
  change readCodePoint rest = some (char, taken, left) at next
  cases rest with
  | nil => cases next
  | cons c rest =>
    obtain ⟨code, _, _, found, shape⟩ := readCodePoint_cons c rest
    rw [next] at found
    obtain ⟨same, _⟩ := Prod.mk.inj (Option.some.inj found)
    rw [same]
    rcases shape with ⟨single, _⟩ | ⟨d, _, double, _⟩
    · rw [single]
      exact stops c rfl
    · rw [double]
      exact isSpace_uniform _ (Or.inr (pairCode_supplementary c d))

theorem takes_line {s : KString} (clean : ∀ code ∈ codePoints s, Platform.isLineEnd code = false) :
    Takes utf16 (star anyChar) [] s [] := by
  apply Takes.star (spells_of_codePoints (by simp) fun code member => by rw [clean code member]; rfl)
  intro char taken left next
  cases next

end Pattern

end Kotlin
