import Mathlib.Data.List.Basic
import Mathlib.Data.List.Infix

-- Where a text in UTF-8 can be cut, and what bytes stand for.
namespace Utf8

def encodeAll (chars : List Char) : List UInt8 := chars.flatMap String.utf8EncodeChar

def IsUtf8 (bytes : List UInt8) : Prop := ∃ chars, bytes = encodeAll chars

def BetweenChars (rest : List UInt8) : Prop := ∀ byte ∈ rest.head?, byte.IsUTF8FirstByte

variable {bytes first second rest : List UInt8} {char other : Char}

theorem IsUtf8.nil : IsUtf8 [] := ⟨[], rfl⟩

theorem IsUtf8.append (left : IsUtf8 first) (right : IsUtf8 second) : IsUtf8 (first ++ second) := by
  obtain ⟨chars, rfl⟩ := left
  obtain ⟨others, rfl⟩ := right
  exact ⟨chars ++ others, by simp [encodeAll]⟩

theorem IsUtf8.single (char : Char) : IsUtf8 (String.utf8EncodeChar char) := ⟨[char], by simp [encodeAll]⟩

theorem utf8EncodeChar_head (char : Char) : ∃ lead tail, String.utf8EncodeChar char = lead :: tail ∧
    lead.IsUTF8FirstByte ∧ ∀ byte ∈ tail, ¬ byte.IsUTF8FirstByte := by
  obtain ⟨lead, tail, shape⟩ := List.exists_cons_of_ne_nil (String.utf8EncodeChar_ne_nil (c := char))
  have firstByte {i : Nat} (inside : i < (String.utf8EncodeChar char).length) :
      ((String.utf8EncodeChar char)[i]).IsUTF8FirstByte ↔ i = 0 := UInt8.isUTF8FirstByte_getElem_utf8EncodeChar
  simp only [shape] at firstByte
  refine ⟨lead, tail, shape, ?_, ?_⟩
  · exact (firstByte (i := 0) (by simp)).mpr rfl
  · intro byte member leads
    obtain ⟨i, inside, rfl⟩ := List.getElem_of_mem member
    have zero := (firstByte (i := i + 1) (by simpa using inside)).mp (by simpa using leads)
    omega

theorem utf8EncodeChar_ascii (ascii : char.toNat < 0x80) : String.utf8EncodeChar char = [UInt8.ofNat char.toNat] := by
  have small : char.val.toNat ≤ 0x7F := Nat.le_of_lt_succ ascii
  simp only [String.utf8EncodeChar, small, if_true]
  rfl

theorem utf8EncodeChar_high (high : 0x80 ≤ char.toNat) : ∀ byte ∈ String.utf8EncodeChar char, 0x80 ≤ byte.toNat := by
  have large : ¬ char.val.toNat ≤ 0x7F := Nat.not_le.mpr high
  simp only [String.utf8EncodeChar, large, if_false]
  split_ifs <;> simp <;> omega

theorem IsUtf8.ascii (ascii : ∀ byte ∈ bytes, byte.toNat < 0x80) : IsUtf8 bytes := by
  induction bytes with
  | nil => exact .nil
  | cons byte bytes ih =>
    obtain ⟨here, later⟩ := List.forall_mem_cons.mp ascii
    have code : (Char.ofNat byte.toNat).toNat = byte.toNat := by
      have valid : byte.toNat.isValidChar := by
        unfold Nat.isValidChar
        omega
      rw [Char.ofNat, dif_pos valid]
      rfl
    have spelled : String.utf8EncodeChar (Char.ofNat byte.toNat) = [byte] := by
      rw [utf8EncodeChar_ascii (by rwa [code]), code, UInt8.ofNat_toNat]
    have first : IsUtf8 [byte] := spelled ▸ .single _
    exact first.append (ih later)

theorem utf8EncodeChar_start (start : String.utf8EncodeChar char <+: String.utf8EncodeChar other) : char = other := by
  obtain ⟨rest, same⟩ := start
  have whole : (String.utf8EncodeChar other).toByteArray = (String.utf8EncodeChar char).toByteArray ++ rest.toByteArray := by
    rw [← same, List.toByteArray_append]
  have decoded : ByteArray.utf8DecodeChar? (String.utf8EncodeChar other).toByteArray 0 = some char := by
    rw [whole]
    exact ByteArray.utf8DecodeChar?_utf8EncodeChar_append
  have itself : ByteArray.utf8DecodeChar? (String.utf8EncodeChar other).toByteArray 0 = some other := by
    rw [← List.utf8Encode_singleton]
    exact List.utf8DecodeChar?_utf8Encode_singleton
  rw [itself] at decoded
  exact (Option.some.inj decoded).symm

theorem IsUtf8.after_char (valid : IsUtf8 (String.utf8EncodeChar char ++ rest)) : IsUtf8 rest := by
  obtain ⟨chars, same⟩ := valid
  cases chars with
  | nil => exact absurd (List.append_eq_nil_iff.mp same).1 String.utf8EncodeChar_ne_nil
  | cons other chars =>
    rw [encodeAll, List.flatMap_cons] at same
    have alike : char = other := by
      have whole : String.utf8EncodeChar other <+: String.utf8EncodeChar char ++ rest := ⟨_, same.symm⟩
      rcases List.prefix_or_prefix_of_prefix (List.prefix_append _ rest) whole with start | start
      · exact utf8EncodeChar_start start
      · exact (utf8EncodeChar_start start).symm
    subst alike
    exact ⟨chars, List.append_cancel_left same⟩

theorem not_isUtf8_part (some : first ≠ []) (more : second ≠ [])
    (split : String.utf8EncodeChar char = first ++ second) : ¬ IsUtf8 first := by
  rintro ⟨chars, rfl⟩
  cases chars with
  | nil => exact some rfl
  | cons other chars =>
    have start : String.utf8EncodeChar other <+: String.utf8EncodeChar char := by
      rw [split]
      simp [encodeAll]
    have same := utf8EncodeChar_start start
    subst same
    have lengths := congrArg List.length split
    simp only [encodeAll, List.flatMap_cons, List.length_append] at lengths
    exact more (List.length_eq_zero_iff.mp (by omega))

theorem betweenChars_encodeAll (chars : List Char) : BetweenChars (encodeAll chars) := by
  cases chars with
  | nil => simp [encodeAll, BetweenChars]
  | cons char chars =>
    obtain ⟨lead, tail, shape, leads, _⟩ := utf8EncodeChar_head char
    intro byte member
    simp only [encodeAll, List.flatMap_cons, shape, List.cons_append, List.head?_cons, Option.mem_some_iff] at member
    exact member ▸ leads

theorem isUtf8_cut (whole : IsUtf8 (first ++ rest)) : IsUtf8 first ↔ BetweenChars rest := by
  obtain ⟨chars, same⟩ := whole
  induction chars generalizing first with
  | nil =>
    obtain ⟨rfl, rfl⟩ := List.append_eq_nil_iff.mp same
    simp [BetweenChars, IsUtf8.nil]
  | cons char chars ih =>
    by_cases none : first = []
    · subst none
      rw [List.nil_append] at same
      exact ⟨fun _ => same ▸ betweenChars_encodeAll _, fun _ => .nil⟩
    · rcases List.append_eq_append_iff.mp (same : first ++ rest = String.utf8EncodeChar char ++ encodeAll chars) with
        ⟨middle, split, shape⟩ | ⟨middle, rfl, shape⟩
      · by_cases cut : middle = []
        · subst cut
          rw [List.append_nil] at split
          rw [List.nil_append] at shape
          rw [shape, ← split]
          exact ⟨fun _ => betweenChars_encodeAll _, fun _ => .single char⟩
        · refine ⟨fun valid => absurd valid (not_isUtf8_part none cut split), fun between => ?_⟩
          obtain ⟨lead, tail, spelled, _, later⟩ := utf8EncodeChar_head char
          obtain ⟨byte, bytes, rfl⟩ := List.exists_cons_of_ne_nil cut
          obtain ⟨c, others, rfl⟩ := List.exists_cons_of_ne_nil none
          rw [spelled] at split
          have inside : byte ∈ tail := by
            rw [(List.cons.inj split).2]
            simp
          exact absurd (between byte (by simp [shape])) (later byte inside)
      · rw [← ih shape.symm]
        exact ⟨IsUtf8.after_char, (IsUtf8.single char).append⟩

theorem isUtf8_takeWhile (whole : IsUtf8 bytes) : IsUtf8 (bytes.takeWhile (· ≠ 0)) := by
  rw [← List.takeWhile_append_dropWhile (p := fun byte : UInt8 => byte ≠ 0) (l := bytes)] at whole
  refine (isUtf8_cut whole).mpr fun byte member => ?_
  have zero := List.head?_dropWhile_not (fun byte : UInt8 => byte ≠ 0) bytes
  rw [Option.mem_def.mp member] at zero
  have isZero : byte = 0 := by simpa using zero
  rw [isZero]
  exact .inl (by decide)

section Decode

/-- What a character that has begun still lacks: more bytes after the next one, which lies between two bounds. -/
structure Pending where
  owed : Nat
  code : Nat
  low : Nat := 0x80
  high : Nat := 0xBF

def leadByte (byte : Nat) : Option Pending :=
  if 0xC2 ≤ byte ∧ byte ≤ 0xDF then some { owed := 0, code := byte % 0x20 }
  else if byte = 0xE0 then some { owed := 1, code := byte % 0x10, low := 0xA0 }
  else if byte = 0xED then some { owed := 1, code := byte % 0x10, high := 0x9F }
  else if 0xE1 ≤ byte ∧ byte ≤ 0xEF then some { owed := 1, code := byte % 0x10 }
  else if byte = 0xF0 then some { owed := 2, code := byte % 0x08, low := 0x90 }
  else if byte = 0xF4 then some { owed := 2, code := byte % 0x08, high := 0x8F }
  else if 0xF1 ≤ byte ∧ byte ≤ 0xF3 then some { owed := 2, code := byte % 0x08 }
  else none

/-- The characters that bytes spell, with `none` for each start of a character that does not go on and for each byte
    that starts none. -/
def decodeFrom : Option Pending → List UInt8 → List (Option Char)
  | none, [] => []
  | some _, [] => [none]
  | pending, byte :: bytes =>
    let start :=
      if byte.toNat < 0x80 then some (Char.ofNat byte.toNat) :: decodeFrom none bytes
      else match leadByte byte.toNat with
        | none => none :: decodeFrom none bytes
        | some begun => decodeFrom (some begun) bytes
    match pending with
    | none => start
    | some begun =>
      if begun.low ≤ byte.toNat ∧ byte.toNat ≤ begun.high then
        let code := begun.code * 0x40 + byte.toNat % 0x40
        match begun.owed with
        | 0 => some (Char.ofNat code) :: decodeFrom none bytes
        | owed + 1 => decodeFrom (some { owed := owed, code := code }) bytes
      else none :: start

def decode (bytes : List UInt8) : List (Option Char) := decodeFrom none bytes

theorem decodeFrom_ascii {byte : UInt8} (ascii : byte.toNat < 0x80) :
    decodeFrom none (byte :: rest) = some (Char.ofNat byte.toNat) :: decodeFrom none rest := by
  simp only [decodeFrom, ascii, if_true]

theorem decodeFrom_lead {byte : UInt8} {begun : Pending} (lead : leadByte byte.toNat = some begun) :
    decodeFrom none (byte :: rest) = decodeFrom (some begun) rest := by
  have high : ¬ byte.toNat < 0x80 := by
    intro low
    unfold leadByte at lead
    split_ifs at lead <;> omega
  simp only [decodeFrom, high, if_false, lead]

theorem decodeFrom_last {byte : UInt8} {begun : Pending} (inside : begun.low ≤ byte.toNat ∧ byte.toNat ≤ begun.high)
    (last : begun.owed = 0) : decodeFrom (some begun) (byte :: rest) =
      some (Char.ofNat (begun.code * 0x40 + byte.toNat % 0x40)) :: decodeFrom none rest := by
  simp only [decodeFrom, inside, and_self, if_true, last]

theorem decodeFrom_more {byte : UInt8} {begun : Pending} {owed : Nat}
    (inside : begun.low ≤ byte.toNat ∧ byte.toNat ≤ begun.high) (more : begun.owed = owed + 1) :
    decodeFrom (some begun) (byte :: rest) =
      decodeFrom (some { owed := owed, code := begun.code * 0x40 + byte.toNat % 0x40 }) rest := by
  simp only [decodeFrom, inside, and_self, if_true, more]

structure Leads (lead next owed code : Nat) (begun : Pending) : Prop where
  lead : leadByte lead = some begun
  owed : begun.owed = owed
  code : begun.code = code
  low : begun.low ≤ next
  high : next ≤ begun.high

theorem leads_two {v : Nat} (small : v < 0x800) (large : 0x80 ≤ v) :
    ∃ begun, Leads (v / 64 % 0x20 + 0xc0) (v % 0x40 + 0x80) 0 (v / 64) begun := by
  refine ⟨_, by rw [leadByte, if_pos (by omega)], rfl, ?_, ?_, ?_⟩ <;> dsimp only <;> omega

theorem leads_three {v : Nat} (valid : v < 0xD800 ∨ 0xDFFF < v) (small : v < 0x10000) (large : 0x800 ≤ v) :
    ∃ begun, Leads (v / 4096 % 0x10 + 0xe0) (v / 64 % 0x40 + 0x80) 1 (v / 4096) begun := by
  have none : ¬ (0xC2 ≤ v / 4096 % 0x10 + 0xe0 ∧ v / 4096 % 0x10 + 0xe0 ≤ 0xDF) := by omega
  by_cases first : v / 4096 % 0x10 + 0xe0 = 0xE0
  · refine ⟨_, by rw [leadByte, if_neg none, if_pos first], rfl, ?_, ?_, ?_⟩ <;> dsimp only <;> omega
  · by_cases surrogates : v / 4096 % 0x10 + 0xe0 = 0xED
    · refine ⟨_, by rw [leadByte, if_neg none, if_neg first, if_pos surrogates], rfl, ?_, ?_, ?_⟩ <;>
        dsimp only <;> omega
    · refine ⟨_, by rw [leadByte, if_neg none, if_neg first, if_neg surrogates, if_pos (by omega)], rfl, ?_, ?_, ?_⟩ <;>
        dsimp only <;> omega

theorem leads_four {v : Nat} (valid : v < 0x110000) (large : 0x10000 ≤ v) :
    ∃ begun, Leads (v / 262144 % 0x08 + 0xf0) (v / 4096 % 0x40 + 0x80) 2 (v / 262144) begun := by
  have none : ¬ (0xC2 ≤ v / 262144 % 0x08 + 0xf0 ∧ v / 262144 % 0x08 + 0xf0 ≤ 0xDF) := by omega
  have notFirst : ¬ v / 262144 % 0x08 + 0xf0 = 0xE0 := by omega
  have notSurrogates : ¬ v / 262144 % 0x08 + 0xf0 = 0xED := by omega
  have notThree : ¬ (0xE1 ≤ v / 262144 % 0x08 + 0xf0 ∧ v / 262144 % 0x08 + 0xf0 ≤ 0xEF) := by omega
  by_cases first : v / 262144 % 0x08 + 0xf0 = 0xF0
  · refine ⟨_, by rw [leadByte, if_neg none, if_neg notFirst, if_neg notSurrogates, if_neg notThree, if_pos first],
      rfl, ?_, ?_, ?_⟩ <;> dsimp only <;> omega
  · by_cases last : v / 262144 % 0x08 + 0xf0 = 0xF4
    · refine ⟨_, by rw [leadByte, if_neg none, if_neg notFirst, if_neg notSurrogates, if_neg notThree, if_neg first,
        if_pos last], rfl, ?_, ?_, ?_⟩ <;> dsimp only <;> omega
    · refine ⟨_, by rw [leadByte, if_neg none, if_neg notFirst, if_neg notSurrogates, if_neg notThree, if_neg first,
        if_neg last, if_pos (by omega)], rfl, ?_, ?_, ?_⟩ <;> dsimp only <;> omega

theorem toNat_byte {n : Nat} (small : n < 0x100) : (UInt8.ofNat n).toNat = n := UInt8.toNat_ofNat_of_lt' small

theorem decodeFrom_two {lead next code : Nat} {begun : Pending} (leads : Leads lead next 0 code begun)
    (leadSmall : lead < 0x100) (nextSmall : next < 0x100) (rest : List UInt8) :
    decodeFrom none (.ofNat lead :: .ofNat next :: rest) =
      some (Char.ofNat (code * 0x40 + next % 0x40)) :: decodeFrom none rest := by
  rw [decodeFrom_lead (by rw [toNat_byte leadSmall]; exact leads.lead),
    decodeFrom_last (by rw [toNat_byte nextSmall]; exact ⟨leads.low, leads.high⟩) leads.owed, toNat_byte nextSmall, leads.code]

theorem decodeFrom_next {lead next owed code : Nat} {begun : Pending} (leads : Leads lead next (owed + 1) code begun)
    (leadSmall : lead < 0x100) (nextSmall : next < 0x100) (rest : List UInt8) :
    decodeFrom none (.ofNat lead :: .ofNat next :: rest) =
      decodeFrom (some { owed := owed, code := code * 0x40 + next % 0x40 }) rest := by
  rw [decodeFrom_lead (by rw [toNat_byte leadSmall]; exact leads.lead),
    decodeFrom_more (by rw [toNat_byte nextSmall]; exact ⟨leads.low, leads.high⟩) leads.owed, toNat_byte nextSmall, leads.code]

theorem decodeFrom_utf8EncodeChar (char : Char) (rest : List UInt8) :
    decodeFrom none (String.utf8EncodeChar char ++ rest) = some char :: decodeFrom none rest := by
  have valid : char.val.toNat < 0xD800 ∨ 0xDFFF < char.val.toNat ∧ char.val.toNat < 0x110000 := char.valid
  have same : Char.ofNat char.val.toNat = char := Char.ofNat_toNat char
  generalize code : char.val.toNat = v at valid same
  have continued (n : Nat) : (UInt8.ofNat (n % 0x40 + 0x80)).toNat = n % 0x40 + 0x80 := toNat_byte (by omega)
  unfold String.utf8EncodeChar
  rw [code]
  dsimp only
  split
  · rename_i one
    rw [List.singleton_append, decodeFrom_ascii (by rw [toNat_byte (by omega)]; omega), toNat_byte (by omega), same]
  · split
    · obtain ⟨begun, leads⟩ := @leads_two v (by omega) (by omega)
      rw [List.cons_append, List.singleton_append, decodeFrom_two leads (by omega) (by omega),
        show v / 64 * 0x40 + (v % 0x40 + 0x80) % 0x40 = v by omega, same]
    · split
      · obtain ⟨begun, leads⟩ := @leads_three v (by omega) (by omega) (by omega)
        rw [List.cons_append, List.cons_append, List.singleton_append, decodeFrom_next leads (by omega) (by omega),
          decodeFrom_last (by simp only [continued]; omega) rfl, continued]
        dsimp only
        rw [show (v / 4096 * 0x40 + (v / 64 % 0x40 + 0x80) % 0x40) * 0x40 + (v % 0x40 + 0x80) % 0x40 = v by omega, same]
      · obtain ⟨begun, leads⟩ := @leads_four v (by omega) (by omega)
        rw [List.cons_append, List.cons_append, List.cons_append, List.singleton_append,
          decodeFrom_next leads (by omega) (by omega), decodeFrom_more (by simp only [continued]; omega) rfl,
          decodeFrom_last (by simp only [continued]; omega) rfl, continued, continued]
        dsimp only
        rw [show ((v / 262144 * 0x40 + (v / 4096 % 0x40 + 0x80) % 0x40) * 0x40 + (v / 64 % 0x40 + 0x80) % 0x40) * 0x40 +
          (v % 0x40 + 0x80) % 0x40 = v by omega, same]

theorem decode_encodeAll (chars : List Char) : decode (encodeAll chars) = chars.map some := by
  induction chars with
  | nil => rfl
  | cons char chars ih =>
    rw [decode, encodeAll, List.flatMap_cons, decodeFrom_utf8EncodeChar]
    exact congrArg (some char :: ·) ih

end Decode

end Utf8
