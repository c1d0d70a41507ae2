import TranscriptForm.Kotlin.Lowercase

namespace Kotlin

inductive Runtime
  | jvm
  | native

/-- What a surrogate without its partner is encoded as. -/
def Runtime.malformed : Runtime → List UInt8
  | .jvm => [0x3F]
  | .native => [0xEF, 0xBF, 0xBD]

def encodeCode (runtime : Runtime) (code : Nat) : List UInt8 :=
  if isSurrogate code then runtime.malformed else String.utf8EncodeChar (Char.ofNat code)

def encodeToByteArray (runtime : Runtime) (s : KString) : List UInt8 := (codePoints s).flatMap (encodeCode runtime)

theorem encode_pairCode {high low : KChar} (pair : isPair high low = true) : encode (pairCode high low) = [high, low] := by
  simp only [isPair, Bool.and_eq_true, decide_eq_true_eq] at pair
  have supplementary : ¬ pairCode high low < 0x10000 := by
    have bound := pairCode_supplementary high low
    omega
  have first : 0xD800 + (pairCode high low - 0x10000) / 0x400 = high.toNat := by
    unfold pairCode
    omega
  have second : 0xDC00 + (pairCode high low - 0x10000) % 0x400 = low.toNat := by
    unfold pairCode
    omega
  rw [encode, if_neg supplementary, first, second, UInt16.ofNat_toNat, UInt16.ofNat_toNat]

theorem encode_toNat (c : KChar) : encode c.toNat = [c] := by
  rw [encode, if_pos c.toNat_lt, UInt16.ofNat_toNat]

theorem flatMap_encode_codePoints (s : KString) : (codePoints s).flatMap encode = s := by
  induction s using codePoints.induct with
  | case1 => rfl
  | case2 c => simp [codePoints, encode_toNat]
  | case3 c d s pair ih => simp [codePoints, pair, encode_pairCode pair, ih]
  | case4 c d s single ih => simp [codePoints, single, encode_toNat, ih]

theorem codePoints_split {s : KString} {left right : List Nat} (same : codePoints s = left ++ right) :
    ∃ first second, s = first ++ second ∧ codePoints first = left ∧ codePoints second = right := by
  induction left generalizing s with
  | nil => exact ⟨[], s, rfl, rfl, same⟩
  | cons code left ih =>
    match s with
    | [] => cases same
    | [c] =>
      obtain ⟨here, later⟩ := List.cons.inj same
      obtain ⟨rfl, rfl⟩ := List.append_eq_nil_iff.mp later.symm
      exact ⟨[c], [], rfl, by rw [codePoints, here], rfl⟩
    | c :: d :: s =>
      by_cases pair : isPair c d = true
      · rw [codePoints, if_pos pair] at same
        obtain ⟨here, later⟩ := List.cons.inj same
        obtain ⟨first, second, rfl, firstCodes, secondCodes⟩ := ih later
        exact ⟨c :: d :: first, second, rfl, by rw [codePoints, if_pos pair, here, firstCodes], secondCodes⟩
      · rw [codePoints, if_neg pair] at same
        obtain ⟨here, later⟩ := List.cons.inj same
        obtain ⟨first, second, split, firstCodes, secondCodes⟩ := ih later
        refine ⟨c :: first, second, by rw [split]; rfl, ?_, secondCodes⟩
        cases first with
        | nil =>
          rw [← firstCodes, ← here]
          rfl
        | cons e first =>
          obtain ⟨rfl, _⟩ := List.cons.inj split
          rw [codePoints, if_neg pair, here, firstCodes]

theorem codePoints_part {s : KString} {part : List Nat} (inside : part <:+: codePoints s) :
    codePoints (part.flatMap encode) = part := by
  obtain ⟨before, after, whole⟩ := inside
  obtain ⟨first, second, _, firstCodes, _⟩ := codePoints_split whole.symm
  obtain ⟨_, last, _, _, lastCodes⟩ := codePoints_split firstCodes
  rw [← lastCodes, flatMap_encode_codePoints]

theorem codePoints_bound (s : KString) : ∀ code ∈ codePoints s, code < 0x110000 := by
  induction s using codePoints.induct with
  | case1 => simp [codePoints]
  | case2 c =>
    intro code member
    have bound := c.toNat_lt
    rw [List.mem_singleton.mp member]
    omega
  | case3 c d s pair ih =>
    rw [codePoints, if_pos pair]
    refine List.forall_mem_cons.mpr ⟨?_, ih⟩
    simp only [isPair, Bool.and_eq_true, decide_eq_true_eq] at pair
    unfold pairCode
    omega
  | case4 c d s single ih =>
    rw [codePoints, if_neg single]
    refine List.forall_mem_cons.mpr ⟨?_, ih⟩
    have bound := c.toNat_lt
    omega

end Kotlin
