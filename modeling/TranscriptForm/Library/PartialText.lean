import TranscriptForm.Library.Utf8

-- Texts in UTF-8 that end within a character.
namespace Utf8

structure Part (char : Char) (part : List UInt8) : Prop where
  some : part ≠ []
  more : ∃ rest, rest ≠ [] ∧ String.utf8EncodeChar char = part ++ rest

section Cut

variable {first rest : List UInt8}

theorem encodeAll_cons (char : Char) (chars : List Char) :
    encodeAll (char :: chars) = String.utf8EncodeChar char ++ encodeAll chars := List.flatMap_cons

theorem cut_cases (whole : IsUtf8 (first ++ rest)) :
    IsUtf8 first ∨ ∃ chars char part, first = encodeAll chars ++ part ∧ Part char part := by
  obtain ⟨chars, same⟩ := whole
  induction chars generalizing first with
  | nil =>
    obtain ⟨rfl, _⟩ := List.append_eq_nil_iff.mp same
    exact .inl .nil
  | cons char chars ih =>
    rw [encodeAll_cons] at same
    rcases List.append_eq_append_iff.mp same with ⟨middle, split, shape⟩ | ⟨middle, rfl, shape⟩
    · by_cases none : first = []
      · exact .inl (none ▸ .nil)
      · by_cases all : middle = []
        · rw [all, List.append_nil] at split
          exact .inl (split ▸ .single char)
        · exact .inr ⟨[], char, first, rfl, none, middle, all, split⟩
    · rcases ih shape.symm with ⟨later, rfl⟩ | ⟨later, last, part, rfl, isPart⟩
      · exact .inl ⟨char :: later, (encodeAll_cons _ _).symm⟩
      · refine .inr ⟨char :: later, last, part, ?_, isPart⟩
        rw [encodeAll_cons, List.append_assoc]

theorem part_not_isUtf8 {chars : List Char} {char : Char} {part : List UInt8} (isPart : Part char part) :
    ¬ IsUtf8 (encodeAll chars ++ part) := by
  obtain ⟨rest, more, split⟩ := isPart.more
  induction chars with
  | nil => exact not_isUtf8_part isPart.some more split
  | cons other chars ih =>
    rw [encodeAll_cons, List.append_assoc]
    exact fun valid => ih valid.after_char

end Cut

section Shape

def Continues (byte : UInt8) : Prop := 0x80 ≤ byte.toNat ∧ byte.toNat ≤ 0xBF

/-- How a character of more than one byte is spelled. -/
structure Spelled (lead : UInt8) (tail : List UInt8) (begun : Pending) : Prop where
  lead : leadByte lead.toNat = some begun
  length : tail.length = begun.owed + 1
  tail : ∀ byte ∈ tail, Continues byte

theorem continues_ofNat (n : Nat) : Continues (.ofNat (n % 0x40 + 0x80)) := by
  rw [Continues, toNat_byte (by omega)]
  omega

theorem Leads.spelled {lead next owed code : Nat} {begun : Pending} {tail : List UInt8}
    (leads : Leads lead next owed code begun) (small : lead < 0x100) (length : tail.length = owed + 1)
    (continues : ∀ byte ∈ tail, Continues byte) : Spelled (.ofNat lead) tail begun where
  lead := by
    rw [toNat_byte small]
    exact leads.lead
  length := by rw [length, leads.owed]
  tail := continues

theorem utf8EncodeChar_spelled {char : Char} (high : 0x80 ≤ char.toNat) :
    ∃ lead tail begun, String.utf8EncodeChar char = lead :: tail ∧ Spelled lead tail begun := by
  have valid : char.val.toNat < 0xD800 ∨ 0xDFFF < char.val.toNat ∧ char.val.toNat < 0x110000 := char.valid
  have above : 0x80 ≤ char.val.toNat := high
  generalize code : char.val.toNat = v at valid above
  unfold String.utf8EncodeChar
  rw [code]
  dsimp only
  rw [if_neg (by omega)]
  split
  · obtain ⟨begun, leads⟩ := @leads_two v (by omega) (by omega)
    refine ⟨_, _, begun, rfl, leads.spelled (by omega) rfl ?_⟩
    exact List.forall_mem_singleton.mpr (continues_ofNat v)
  · split
    · obtain ⟨begun, leads⟩ := @leads_three v (by omega) (by omega) (by omega)
      refine ⟨_, _, begun, rfl, leads.spelled (by omega) rfl ?_⟩
      exact List.forall_mem_cons.mpr ⟨continues_ofNat (v / 64), List.forall_mem_singleton.mpr (continues_ofNat v)⟩
    · obtain ⟨begun, leads⟩ := @leads_four v (by omega) (by omega)
      refine ⟨_, _, begun, rfl, leads.spelled (by omega) rfl ?_⟩
      exact List.forall_mem_cons.mpr ⟨continues_ofNat (v / 4096),
        List.forall_mem_cons.mpr ⟨continues_ofNat (v / 64), List.forall_mem_singleton.mpr (continues_ofNat v)⟩⟩

theorem Part.spelled {char : Char} {part : List UInt8} (isPart : Part char part) :
    ∃ lead tail begun, part = lead :: tail ∧ leadByte lead.toNat = Option.some begun ∧ tail.length ≤ begun.owed ∧
      ∀ byte ∈ tail, Continues byte := by
  obtain ⟨rest, more, split⟩ := isPart.more
  obtain ⟨lead, tail, rfl⟩ := List.exists_cons_of_ne_nil isPart.some
  have rests := List.length_pos_iff.mpr more
  by_cases ascii : char.toNat < 0x80
  · rw [utf8EncodeChar_ascii ascii] at split
    have lengths := congrArg List.length split
    simp only [List.cons_append, List.length_cons, List.length_nil, List.length_append] at lengths
    omega
  · obtain ⟨first, others, begun, shape, spelled⟩ := utf8EncodeChar_spelled (Nat.le_of_not_lt ascii)
    rw [shape, List.cons_append] at split
    obtain ⟨rfl, rfl⟩ := List.cons.inj split
    have length := spelled.length
    rw [List.length_append] at length
    refine ⟨first, tail, begun, rfl, spelled.lead, by omega, ?_⟩
    intro byte member
    exact spelled.tail byte (List.mem_append_left _ member)

end Shape

section Decode

variable {bytes rest : List UInt8} {begun : Pending}

theorem leadByte_range {byte : Nat} (lead : leadByte byte = some begun) : 0xC2 ≤ byte ∧ begun.high ≤ 0xBF := by
  unfold leadByte at lead
  split_ifs at lead <;> cases lead <;> exact ⟨by omega, by dsimp only; omega⟩

theorem none_mem_decodeFrom_short (short : bytes.length ≤ begun.owed) : none ∈ decodeFrom (some begun) bytes := by
  induction bytes generalizing begun with
  | nil => exact List.mem_singleton.mpr rfl
  | cons byte bytes ih =>
    rw [List.length_cons] at short
    by_cases inside : begun.low ≤ byte.toNat ∧ byte.toNat ≤ begun.high
    · obtain ⟨owed, owes⟩ : ∃ owed, begun.owed = owed + 1 := ⟨begun.owed - 1, by omega⟩
      rw [decodeFrom_more inside owes]
      apply ih
      dsimp only
      omega
    · simp only [decodeFrom, inside, if_false]
      exact List.mem_cons_self

theorem none_mem_decodeFrom_part {lead : UInt8} {tail : List UInt8} (leads : leadByte lead.toNat = some begun)
    (short : tail.length ≤ begun.owed) (before : List UInt8) {pending : Option Pending}
    (bounded : ∀ begun ∈ pending, begun.high ≤ 0xBF) : none ∈ decodeFrom pending (before ++ lead :: tail) := by
  have started : none ∈ decodeFrom none (lead :: tail) := by
    rw [decodeFrom_lead leads]
    exact none_mem_decodeFrom_short short
  induction before generalizing pending with
  | nil =>
    cases pending with
    | none => exact started
    | some waiting =>
      have outside : ¬ (waiting.low ≤ lead.toNat ∧ lead.toNat ≤ waiting.high) := by
        have bound := bounded waiting rfl
        have range := (leadByte_range leads).1
        omega
      simp only [List.nil_append, decodeFrom, outside, if_false]
      exact List.mem_cons_self
  | cons byte before ih =>
    have fresh : none ∈ decodeFrom none (byte :: (before ++ lead :: tail)) := by
      by_cases ascii : byte.toNat < 0x80
      · rw [decodeFrom_ascii ascii]
        exact List.mem_cons_of_mem _ (ih (by simp))
      · cases starts : leadByte byte.toNat with
        | none =>
          simp only [decodeFrom, ascii, if_false, starts]
          exact List.mem_cons_self
        | some waiting =>
          rw [decodeFrom_lead starts]
          apply ih
          rintro other ⟨⟩
          exact (leadByte_range starts).2
    cases pending with
    | none => exact fresh
    | some waiting =>
      rw [List.cons_append]
      by_cases inside : waiting.low ≤ byte.toNat ∧ byte.toNat ≤ waiting.high
      · cases owes : waiting.owed with
        | zero =>
          rw [decodeFrom_last inside owes]
          exact List.mem_cons_of_mem _ (ih (by simp))
        | succ owed =>
          rw [decodeFrom_more inside owes]
          apply ih
          rintro other ⟨⟩
          exact Nat.le_refl _
      · simp only [decodeFrom, inside, if_false]
        exact List.mem_cons_self

theorem none_mem_decode_continues {byte : UInt8} (continues : Continues byte) : none ∈ decode (byte :: rest) := by
  have notAscii : ¬ byte.toNat < 0x80 := by
    have low := continues.1
    omega
  have noLead : leadByte byte.toNat = none := by
    have high := continues.2
    cases lead : leadByte byte.toNat with
    | none => rfl
    | some begun =>
      have range := (leadByte_range lead).1
      omega
  simp only [decode, decodeFrom, notAscii, if_false, noLead]
  exact List.mem_cons_self

theorem none_mem_decode_part {chars : List Char} {char : Char} {part last : List UInt8} (isPart : Part char part)
    (isLast : last <:+ encodeAll chars ++ part) (some : last ≠ []) : none ∈ decode last := by
  obtain ⟨lead, tail, begun, rfl, leads, short, continues⟩ := isPart.spelled
  obtain ⟨before, split⟩ := isLast
  rcases List.append_eq_append_iff.mp split with ⟨middle, _, rfl⟩ | ⟨middle, _, inside⟩
  · exact none_mem_decodeFrom_part leads short middle (by simp)
  · rcases List.cons_eq_append_iff.mp inside with ⟨_, whole⟩ | ⟨others, _, within⟩
    · rw [whole]
      exact none_mem_decodeFrom_part leads short [] (by simp)
    · obtain ⟨byte, later, rfl⟩ := List.exists_cons_of_ne_nil some
      apply none_mem_decode_continues
      apply continues
      rw [within]
      simp

end Decode

end Utf8
