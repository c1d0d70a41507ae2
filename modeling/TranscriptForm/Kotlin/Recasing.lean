import Mathlib.Data.List.Chain
import TranscriptForm.Kotlin.Utf8

namespace Kotlin

def Unpaired (codes : List Nat) : Prop :=
  codes.IsChain fun left right => ¬((0xD800 ≤ left ∧ left ≤ 0xDBFF) ∧ 0xDC00 ≤ right ∧ right ≤ 0xDFFF)

theorem isPair_iff (high low : KChar) :
    isPair high low = true ↔
      (0xD800 ≤ high.toNat ∧ high.toNat ≤ 0xDBFF) ∧ 0xDC00 ≤ low.toNat ∧ low.toNat ≤ 0xDFFF := by
  simp [isPair, and_assoc]

theorem codePoints_head (c : KChar) (s : KString) :
    ∃ code rest, codePoints (c :: s) = code :: rest ∧ (code = c.toNat ∨ 0x10000 ≤ code) := by
  cases s with
  | nil => exact ⟨_, _, rfl, Or.inl rfl⟩
  | cons d s =>
    unfold codePoints
    split
    · exact ⟨_, _, rfl, Or.inr (pairCode_supplementary c d)⟩
    · exact ⟨_, _, rfl, Or.inl rfl⟩

theorem codePoints_unpaired (s : KString) : Unpaired (codePoints s) := by
  induction s using codePoints.induct with
  | case1 => exact List.isChain_nil
  | case2 c => exact List.isChain_singleton _
  | case3 c d s pair ih =>
    rw [codePoints, if_pos pair]
    refine List.isChain_cons.mpr ⟨?_, ih⟩
    intro next _ paired
    have supplementary := pairCode_supplementary c d
    omega
  | case4 c d s single ih =>
    rw [codePoints, if_neg single]
    obtain ⟨code, rest, shape, origin⟩ := codePoints_head d s
    rw [shape] at ih ⊢
    refine List.isChain_cons_cons.mpr ⟨?_, ih⟩
    intro paired
    rcases origin with same | supplementary
    · rw [same] at paired
      exact single ((isPair_iff c d).mpr paired)
    · omega

theorem ofNat_toNat_small {code : Nat} (small : code < 0x10000) : (UInt16.ofNat code).toNat = code := by
  rw [UInt16.toNat_ofNat']
  exact Nat.mod_eq_of_lt small

theorem encode_head (code : Nat) (bound : code < 0x110000) :
    ∃ c rest, encode code = c :: rest ∧ (c.toNat = code ∨ 0xD800 ≤ c.toNat ∧ c.toNat ≤ 0xDBFF) := by
  unfold encode
  split
  · rename_i small
    exact ⟨_, _, rfl, Or.inl (ofNat_toNat_small small)⟩
  · refine ⟨_, _, rfl, Or.inr ?_⟩
    rw [ofNat_toNat_small (by omega)]
    omega

theorem encode_supplementary {code : Nat} (supplementary : 0x10000 ≤ code) (bound : code < 0x110000) :
    ∃ high low, encode code = [high, low] ∧ isPair high low = true ∧ pairCode high low = code := by
  have parts := Nat.div_add_mod' (code - 0x10000) 0x400
  have high : 0xD800 + (code - 0x10000) / 0x400 < 0x10000 := by omega
  have low : 0xDC00 + (code - 0x10000) % 0x400 < 0x10000 := by omega
  refine ⟨_, _, if_neg (Nat.not_lt.mpr supplementary), ?_, ?_⟩
  · rw [isPair_iff, ofNat_toNat_small high, ofNat_toNat_small low]
    omega
  · unfold pairCode
    rw [ofNat_toNat_small high, ofNat_toNat_small low]
    omega

theorem codePoints_encoded {codes : List Nat} (unpaired : Unpaired codes) (bounds : ∀ code ∈ codes, code < 0x110000) :
    codePoints (codes.flatMap encode) = codes := by
  induction codes with
  | nil => rfl
  | cons code rest ih =>
    have later := ih unpaired.tail fun other member => bounds other (List.mem_cons_of_mem _ member)
    have bound := bounds code List.mem_cons_self
    rw [List.flatMap_cons]
    by_cases small : code < 0x10000
    · rw [encode, if_pos small, List.singleton_append]
      cases rest with
      | nil => simp [codePoints, ofNat_toNat_small small]
      | cons next rest =>
        obtain ⟨c, units, shape, origin⟩ := encode_head next (bounds next (by simp))
        have apart := (List.isChain_cons_cons.mp unpaired).1
        have single : isPair (UInt16.ofNat code) c = false := by
          rw [Bool.eq_false_iff]
          intro pair
          have range := (isPair_iff _ _).mp pair
          rw [ofNat_toNat_small small] at range
          rcases origin with same | high
          · rw [same] at range
            exact apart range
          · omega
        rw [List.flatMap_cons, shape, List.cons_append] at later ⊢
        rw [codePoints, if_neg (by simp [single]), ofNat_toNat_small small, later]
    · obtain ⟨high, low, encoded, pair, same⟩ := encode_supplementary (Nat.le_of_not_lt small) bound
      rw [encoded, List.cons_append, List.singleton_append, codePoints, if_pos pair, same, later]

/-- A code point that lower-casing leaves alone wherever it stands. -/
def IsLowered (code : Nat) : Prop := code ≠ 0x3A3 ∧ code ≠ 0x130 ∧ lowerBasic code = code

theorem lowerBasic_lowered {code : Nat} (sigma : code ≠ 0x3A3) (dotted : code ≠ 0x130) : IsLowered (lowerBasic code) := by
  simp only [IsLowered, lowerBasic, isAsciiUpper, Bool.or_eq_true, Bool.and_eq_true, decide_eq_true_eq, beq_iff_eq]
  split
  · exact ⟨by omega, by omega, if_neg (by omega)⟩
  · exact ⟨sigma, dotted, rfl⟩

theorem lowerBasic_range {code : Nat} (bound : code < 0x110000) :
    lowerBasic code < 0x110000 ∧ (isSurrogate (lowerBasic code) = true → lowerBasic code = code) := by
  simp only [lowerBasic, isAsciiUpper, isSurrogate, Bool.or_eq_true, Bool.and_eq_true, decide_eq_true_eq, beq_iff_eq]
  split <;> omega

section BasicPlatform

attribute [local instance] basicPlatform

theorem lowerCodes_lowered (before codes : List Nat) (bounds : ∀ code ∈ codes, code < 0x110000) :
    ∀ code ∈ lowerCodes before codes, IsLowered code ∧ code < 0x110000 := by
  induction codes generalizing before with
  | nil => simp [lowerCodes]
  | cons code rest ih =>
    have later := ih (code :: before) fun other member => bounds other (List.mem_cons_of_mem _ member)
    intro lowered member
    rw [lowerCodes] at member
    rcases List.mem_append.mp member with own | tail
    · split at own
      · rw [List.mem_singleton.mp own]
        split <;> exact ⟨⟨by decide, by decide, by decide⟩, by decide⟩
      · rename_i sigma
        split at own
        · rcases List.mem_cons.mp own with rfl | own
          · exact ⟨⟨by decide, by decide, by decide⟩, by decide⟩
          · rw [List.mem_singleton.mp own]
            exact ⟨⟨by decide, by decide, by decide⟩, by decide⟩
        · rename_i dotted
          rw [List.mem_singleton.mp own]
          exact ⟨lowerBasic_lowered sigma dotted, (lowerBasic_range (bounds code List.mem_cons_self)).1⟩
    · exact later lowered tail

theorem lowerCodes_fixed (before : List Nat) {codes : List Nat} (lowered : ∀ code ∈ codes, IsLowered code) :
    lowerCodes before codes = codes := by
  induction codes generalizing before with
  | nil => rfl
  | cons code rest ih =>
    obtain ⟨sigma, dotted, fixed⟩ := lowered code List.mem_cons_self
    rw [lowerCodes, if_neg sigma, if_neg dotted, ih _ fun other member => lowered other (List.mem_cons_of_mem _ member)]
    exact congrArg (· :: rest) fixed

theorem lowerCodes_head {before codes : List Nat} (bounds : ∀ code ∈ codes, code < 0x110000) :
    ∀ lowered ∈ (lowerCodes before codes).head?, isSurrogate lowered = true → lowered ∈ codes.head? := by
  cases codes with
  | nil => simp [lowerCodes]
  | cons code rest =>
    intro lowered member surrogate
    rw [lowerCodes] at member
    split at member
    · cases member
      split at surrogate <;> exact absurd surrogate (by decide)
    · split at member
      · cases member
        exact absurd surrogate (by decide)
      · cases member
        exact congrArg some ((lowerBasic_range (bounds code List.mem_cons_self)).2 surrogate).symm

theorem lowerCodes_unpaired {before codes : List Nat} (unpaired : Unpaired codes)
    (bounds : ∀ code ∈ codes, code < 0x110000) : Unpaired (lowerCodes before codes) := by
  induction codes generalizing before with
  | nil => exact List.isChain_nil
  | cons code rest ih =>
    have restBounds : ∀ other ∈ rest, other < 0x110000 := fun other member => bounds other (List.mem_cons_of_mem _ member)
    have later : Unpaired (lowerCodes (code :: before) rest) := ih unpaired.tail restBounds
    rw [lowerCodes]
    split
    · refine List.isChain_cons.mpr ⟨?_, later⟩
      intro next _ paired
      revert paired
      split <;> omega
    · split
      · refine List.isChain_cons_cons.mpr ⟨by omega, List.isChain_cons.mpr ⟨?_, later⟩⟩
        intro next _ paired
        omega
      · refine List.isChain_cons.mpr ⟨?_, later⟩
        intro next head paired
        have high : isSurrogate (lowerBasic code) = true := by
          simp only [isSurrogate, Bool.and_eq_true, decide_eq_true_eq]
          exact ⟨paired.1.1, Nat.le_trans paired.1.2 (by decide)⟩
        have low : isSurrogate next = true := by
          simp only [isSurrogate, Bool.and_eq_true, decide_eq_true_eq]
          exact ⟨Nat.le_trans (by decide) paired.2.1, paired.2.2⟩
        have same := (lowerBasic_range (bounds code List.mem_cons_self)).2 high
        have stood := lowerCodes_head restBounds next head low
        refine (List.isChain_cons.mp unpaired).1 next stood ?_
        rw [← same]
        exact paired

theorem lowercase_lowercase_basicPlatform (text : KString) : lowercase (lowercase text) = lowercase text := by
  have bounds := codePoints_bound text
  have lowered := lowerCodes_lowered [] (codePoints text) bounds
  have back : codePoints (lowercase text) = lowerCodes [] (codePoints text) :=
    codePoints_encoded (lowerCodes_unpaired (codePoints_unpaired text) bounds) fun code member => (lowered code member).2
  rw [lowercase, back, lowerCodes_fixed [] fun code member => (lowered code member).1]
  rfl

end BasicPlatform

end Kotlin
