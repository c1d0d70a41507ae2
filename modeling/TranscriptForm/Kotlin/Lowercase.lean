import TranscriptForm.Kotlin.Platform

namespace Kotlin

def isPair (high low : KChar) : Bool :=
  0xD800 ≤ high.toNat && high.toNat ≤ 0xDBFF && 0xDC00 ≤ low.toNat && low.toNat ≤ 0xDFFF

def pairCode (high low : KChar) : Nat :=
  0x10000 + (high.toNat - 0xD800) * 0x400 + (low.toNat - 0xDC00)

/-- The code points of a string. A surrogate without its partner stands for itself. -/
def codePoints : KString → List Nat
  | [] => []
  | [c] => [c.toNat]
  | c :: d :: s => if isPair c d then pairCode c d :: codePoints s else c.toNat :: codePoints (d :: s)

def encode (code : Nat) : KString :=
  if code < 0x10000 then [.ofNat code]
  else [.ofNat (0xD800 + (code - 0x10000) / 0x400), .ofNat (0xDC00 + (code - 0x10000) % 0x400)]

theorem pairCode_supplementary (high low : KChar) : 0x10000 ≤ pairCode high low := by
  unfold pairCode
  omega

def lowerChar (c : KChar) : KChar := .ofNat (lowerBasic c.toNat)

def IsBasicText (s : KString) : Prop := ∀ c ∈ s, isBasic c.toNat = true

instance (s : KString) : Decidable (IsBasicText s) :=
  decidable_of_iff (s.all (fun c => isBasic c.toNat) = true) List.all_eq_true

theorem isBasic_bound {code : Nat} (basic : isBasic code = true) : code < 0x100 := by
  simp only [isBasic, Bool.or_eq_true, decide_eq_true_eq, beq_iff_eq] at basic
  omega

theorem lowerBasic_bound {code : Nat} (basic : isBasic code = true) : lowerBasic code < 0x10000 := by
  have bound := isBasic_bound basic
  unfold lowerBasic
  split <;> omega

theorem codePoints_plain {s : KString} (plain : ∀ c ∈ s, isSurrogate c.toNat = false) :
    codePoints s = s.map UInt16.toNat := by
  induction s with
  | nil => rfl
  | cons c s ih =>
    have later := ih fun d member => plain d (List.mem_cons_of_mem _ member)
    cases s with
    | nil => rfl
    | cons d s =>
      have single : isPair c d = false := by
        have head := plain c List.mem_cons_self
        simp only [isSurrogate, Bool.and_eq_false_iff, decide_eq_false_iff_not] at head
        simp only [isPair, Bool.and_eq_false_iff, decide_eq_false_iff_not]
        omega
      simp [codePoints, single, later]

theorem IsBasicText.plain {s : KString} (basic : IsBasicText s) : ∀ c ∈ s, isSurrogate c.toNat = false := by
  intro c member
  have bound := isBasic_bound (basic c member)
  simp only [isSurrogate, Bool.and_eq_false_iff, decide_eq_false_iff_not]
  omega

theorem codePoints_append_plain {s : KString} (t : KString)
    (plain : ∀ c ∈ s, isSurrogate c.toNat = false) : codePoints (s ++ t) = codePoints s ++ codePoints t := by
  rw [codePoints_plain plain]
  induction s with
  | nil => rfl
  | cons c s ih =>
    have later := ih fun d member => plain d (List.mem_cons_of_mem _ member)
    have head := plain c List.mem_cons_self
    simp only [isSurrogate, Bool.and_eq_false_iff, decide_eq_false_iff_not] at head
    cases shape : s ++ t with
    | nil =>
      obtain ⟨rfl, rfl⟩ := List.append_eq_nil_iff.mp shape
      rfl
    | cons d u =>
      have single : isPair c d = false := by
        simp only [isPair, Bool.and_eq_false_iff, decide_eq_false_iff_not]
        omega
      rw [shape] at later
      simp [shape, codePoints, single, later]

theorem codePoints_plain_append (s : KString) {t : KString}
    (plain : ∀ c ∈ t, isSurrogate c.toNat = false) : codePoints (s ++ t) = codePoints s ++ codePoints t := by
  induction s using codePoints.induct with
  | case1 => rfl
  | case2 c =>
    cases t with
    | nil => simp [codePoints]
    | cons d t =>
      have head := plain d List.mem_cons_self
      have single : isPair c d = false := by
        simp only [isSurrogate, Bool.and_eq_false_iff, decide_eq_false_iff_not] at head
        simp only [isPair, Bool.and_eq_false_iff, decide_eq_false_iff_not]
        omega
      simp [codePoints, single]
  | case3 c d s pair ih => simp [codePoints, pair, ih]
  | case4 c d s single ih =>
    have other : isPair c d = false := by simpa using single
    simp only [List.cons_append] at ih
    simp [codePoints, other, ih]

theorem isPair_surrogates {high low : KChar} (pair : isPair high low = true) :
    isSurrogate high.toNat = true ∧ isSurrogate low.toNat = true := by
  simp only [isPair, Bool.and_eq_true, decide_eq_true_eq] at pair
  simp only [isSurrogate, Bool.and_eq_true, decide_eq_true_eq]
  omega

theorem codePoints_cut (front back : KString) :
    codePoints (front ++ back) = codePoints front ++ codePoints back ∨
      ∃ first last high low, front = first ++ [high] ∧ back = low :: last ∧ isPair high low = true ∧
        codePoints front = codePoints first ++ [high.toNat] ∧ codePoints back = low.toNat :: codePoints last ∧
        codePoints (front ++ back) = codePoints first ++ pairCode high low :: codePoints last := by
  induction front using codePoints.induct with
  | case1 => exact Or.inl rfl
  | case2 high =>
    cases back with
    | nil => exact Or.inl (by simp [codePoints])
    | cons low last =>
      by_cases pair : isPair high low = true
      · right
        refine ⟨[], last, high, low, rfl, rfl, pair, rfl, ?_, by simp [codePoints, pair]⟩
        cases last with
        | nil => rfl
        | cons next last =>
          have single : isPair low next = false := by
            have surrogates := (isPair_surrogates pair).2
            simp only [isPair, Bool.and_eq_true, decide_eq_true_eq] at pair
            simp only [isPair, Bool.and_eq_false_iff, decide_eq_false_iff_not]
            omega
          rw [codePoints, if_neg (by simp [single])]
      · exact Or.inl (by simp [codePoints, pair])
  | case3 c d s pair ih =>
    simp only [List.cons_append, codePoints, pair, if_true]
    rcases ih with whole | ⟨first, last, high, low, shape, rest, joined, frontCodes, backCodes, codes⟩
    · exact Or.inl (by rw [whole])
    · refine Or.inr ⟨c :: d :: first, last, high, low, by rw [shape]; rfl, rest, joined, ?_, backCodes, ?_⟩
      · simp [codePoints, pair, frontCodes]
      · simp [codePoints, pair, codes]
  | case4 c d s single ih =>
    have step : codePoints (c :: d :: s ++ back) = c.toNat :: codePoints (d :: s ++ back) := by
      rw [List.cons_append, List.cons_append, codePoints, if_neg single]
    have own : codePoints (c :: d :: s) = c.toNat :: codePoints (d :: s) := by rw [codePoints, if_neg single]
    rw [step, own]
    rcases ih with whole | ⟨first, last, high, low, shape, rest, joined, frontCodes, backCodes, codes⟩
    · exact Or.inl (by rw [whole]; rfl)
    · have grown : codePoints (c :: first) = c.toNat :: codePoints first := by
        cases first with
        | nil => rfl
        | cons e first =>
          obtain ⟨rfl, _⟩ := List.cons.inj shape
          rw [codePoints, if_neg single]
      refine Or.inr ⟨c :: first, last, high, low, by rw [shape]; rfl, rest, joined, ?_, backCodes, ?_⟩
      · rw [grown, frontCodes]
        rfl
      · rw [grown, codes]
        rfl

theorem codePoints_blank (front back : KString) :
    codePoints (front ++ (txt " " ++ back)) = codePoints front ++ 0x20 :: codePoints back := by
  have plain : isSurrogate (ch ' ').toNat = false := by decide
  have blank : codePoints (txt " " ++ back) = 0x20 :: codePoints back := by
    have single : ∀ c ∈ txt " ", isSurrogate c.toNat = false := List.forall_mem_singleton.mpr plain
    rw [codePoints_append_plain back single]
    rfl
  rcases codePoints_cut front (txt " " ++ back) with whole | ⟨_, _, high, low, _, shape, pair, _⟩
  · rw [whole, blank]
  · have same : ch ' ' = low := (List.cons.inj shape).1
    have surrogate := (isPair_surrogates pair).2
    rw [← same, plain] at surrogate
    cases surrogate

variable [Platform]

/-- A sigma ends a word if a cased letter comes before it and none after it. -/
def isFinalSigma (before rest : List Nat) : Bool :=
  ((before.dropWhile Platform.isCaseIgnorable).head?.any Platform.isCased) &&
    !((rest.dropWhile Platform.isCaseIgnorable).head?.any Platform.isCased)

def lowerCodes : List Nat → List Nat → List Nat
  | _, [] => []
  | before, code :: rest =>
    (if code = 0x3A3 then [if isFinalSigma before rest then 0x3C2 else 0x3C3]
      else if code = 0x130 then [0x69, 0x307]
      else [Platform.lowerCode code]) ++ lowerCodes (code :: before) rest

/-- `String.lowercase()` -/
def lowercase (s : KString) : KString := (lowerCodes [] (codePoints s)).flatMap encode

theorem lowerCodes_basic (before : List Nat) {codes : List Nat}
    (basic : ∀ code ∈ codes, isBasic code = true) : lowerCodes before codes = codes.map lowerBasic := by
  induction codes generalizing before with
  | nil => rfl
  | cons code rest ih =>
    have head := basic code List.mem_cons_self
    have bound := isBasic_bound head
    have sigma : code ≠ 0x3A3 := by omega
    have dotted : code ≠ 0x130 := by omega
    simp only [lowerCodes, sigma, dotted, if_false, Platform.lowerCode_basic code head,
      ih _ fun other member => basic other (List.mem_cons_of_mem _ member), List.map_cons,
      List.singleton_append]

theorem lowerCodes_text {s : KString} (basic : IsBasicText s) :
    lowerCodes [] (codePoints s) = s.map fun c => lowerBasic c.toNat := by
  rw [codePoints_plain basic.plain, lowerCodes_basic, List.map_map]
  · rfl
  · intro code member
    obtain ⟨c, inside, rfl⟩ := List.mem_map.mp member
    exact basic c inside

theorem lowercase_basic {s : KString} (basic : IsBasicText s) : lowercase s = s.map lowerChar := by
  rw [lowercase, lowerCodes_text basic, List.flatMap_map, List.map_eq_flatMap]
  apply List.flatMap_congr
  intro c member
  have bound := lowerBasic_bound (basic c member)
  simp [encode, bound, lowerChar]

/-- The lower case of a code point wherever it stands, sigma taken as non-final. -/
def lowerEach (code : Nat) : List Nat :=
  if code = 0x3A3 then [0x3C3] else if code = 0x130 then [0x69, 0x307] else [Platform.lowerCode code]

theorem lowerCodes_observed {β : Type*} (observe : Nat → List β)
    (blind : observe 0x3C2 = observe 0x3C3) (before codes : List Nat) :
    (lowerCodes before codes).flatMap observe = codes.flatMap fun code => (lowerEach code).flatMap observe := by
  induction codes generalizing before with
  | nil => rfl
  | cons code rest ih =>
    rw [lowerCodes, List.flatMap_append, ih, List.flatMap_cons]
    congr 1
    unfold lowerEach
    split
    · split <;> simp [blind]
    · rfl

theorem lowercase_observed {β : Type*} (observe : KChar → List β)
    (blind : observe (.ofNat 0x3C2) = observe (.ofNat 0x3C3)) (s : KString) :
    (lowercase s).flatMap observe =
      (codePoints s).flatMap fun code => (lowerEach code).flatMap fun low => (encode low).flatMap observe := by
  rw [lowercase, List.flatMap_assoc]
  refine lowerCodes_observed (fun code => (encode code).flatMap observe) ?_ [] (codePoints s)
  simpa [encode] using blind

end Kotlin
