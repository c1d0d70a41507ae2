import TranscriptForm.Kotlin.Patterns

namespace Form

open Kotlin

def replaceUmlauts (value : KString) : KString :=
  replaceText (txt "ß") (txt "ss")
    (replaceText (txt "ü") (txt "ue")
      (replaceText (txt "ö") (txt "oe")
        (replaceText (txt "ä") (txt "ae") value)))

def notKey : Pattern := .set Pattern.isNotKeyCode

def umlaut (c : KChar) : KString :=
  if c = ch 'ä' then txt "ae"
  else if c = ch 'ö' then txt "oe"
  else if c = ch 'ü' then txt "ue"
  else if c = ch 'ß' then txt "ss"
  else [c]

def isKeyUnit (c : KChar) : Bool := !Pattern.isNotKeyCode c.toNat

def keyUnit (c : KChar) : KString := (umlaut c).filter isKeyUnit

theorem replaceUmlauts_eq (value : KString) : replaceUmlauts value = value.flatMap umlaut := by
  have single : ∀ c : Char, txt (String.singleton c) = [ch c] := by
    intro c
    simp [txt]
  unfold replaceUmlauts
  rw [show txt "ä" = [ch 'ä'] from single 'ä', show txt "ö" = [ch 'ö'] from single 'ö',
    show txt "ü" = [ch 'ü'] from single 'ü', show txt "ß" = [ch 'ß'] from single 'ß']
  simp only [replaceText_single, List.flatMap_assoc]
  apply List.flatMap_congr
  intro c _
  unfold umlaut
  split
  · decide
  · split
    · rename_i same
      subst same
      decide
    · split
      · rename_i same
        subst same
        decide
      · split
        · rename_i same
          subst same
          decide
        · rename_i ä ö ü ß
          simp [ö, ü, ß]

theorem replace_notKey (text : KString) : replace notKey [] text = text.filter isKeyUnit := by
  have cut := notKey_unitWise.eats_set.replace_nil text
  unfold replace notKey
  rw [cut]
  apply List.filter_congr
  intro c _
  simp [isKeyUnit]

theorem replace_notKeys (text : KString) : replace (.plus notKey) [] text = text.filter isKeyUnit := by
  have cut := notKey_unitWise.eats_runs.replace_nil text
  unfold replace
  change Regex.replace utf16 (Regex.runsOf Pattern.isNotKeyCode) [] text = _
  rw [cut]
  apply List.filter_congr
  intro c _
  simp [isKeyUnit]

theorem filter_umlauts (value : KString) : (replaceUmlauts value).filter isKeyUnit = value.flatMap keyUnit := by
  rw [replaceUmlauts_eq, List.filter_flatMap]
  rfl

theorem isKeyUnit_whitespace {c : KChar} (space : isWhitespace c = true) : isKeyUnit c = false := by
  simp only [isWhitespace, isWhitespaceCode, Bool.or_eq_true, Bool.and_eq_true, decide_eq_true_eq,
    beq_iff_eq] at space
  simp only [isKeyUnit, Pattern.isNotKeyCode, isAsciiLower, isAsciiDigit, Bool.not_not, Bool.or_eq_false_iff,
    Bool.and_eq_false_iff, decide_eq_false_iff_not]
  omega

theorem umlaut_other {holds : KChar → Bool} {c : KChar} (own : holds c = true)
    (others : (txt "äöüß").all (fun letter => !holds letter) = true) : umlaut c = [c] := by
  have other : ∀ letter ∈ txt "äöüß", c ≠ letter := by
    rintro letter listed rfl
    have refused := List.all_eq_true.mp others c listed
    rw [own] at refused
    cases refused
  rw [umlaut, if_neg (other _ (by decide)), if_neg (other _ (by decide)), if_neg (other _ (by decide)),
    if_neg (other _ (by decide))]

theorem umlaut_whitespace {c : KChar} (space : isWhitespace c = true) : umlaut c = [c] := umlaut_other space (by decide)

theorem umlaut_surrogate {c : KChar} (surrogate : isSurrogate c.toNat = true) : umlaut c = [c] :=
  @umlaut_other (fun c => isSurrogate c.toNat) c surrogate (by decide)

theorem keyUnit_whitespace {c : KChar} (space : isWhitespace c = true) : keyUnit c = [] := by
  rw [keyUnit, umlaut_whitespace space, List.filter_singleton, isKeyUnit_whitespace space]
  rfl

variable [Platform]

def normalizeKey (value : KString) : KString := replace notKey [] (replaceUmlauts (lowercase value))

def normalizeAnswerValue (value : KString) : KString :=
  replace (.plus notKey) [] (replaceUmlauts (lowercase value))

theorem normalizeKey_eq (value : KString) : normalizeKey value = (lowercase value).flatMap keyUnit := by
  rw [normalizeKey, replace_notKey, filter_umlauts]

theorem normalizeAnswerValue_eq (value : KString) : normalizeAnswerValue value = normalizeKey value := by
  rw [normalizeKey_eq, normalizeAnswerValue, replace_notKeys, filter_umlauts]

/-- What one code point adds to a key. -/
def keyCode (code : Nat) : KString := (lowerEach code).flatMap fun low => (encode low).flatMap keyUnit

theorem normalizeKey_codes (value : KString) : normalizeKey value = (codePoints value).flatMap keyCode := by
  rw [normalizeKey_eq]
  exact lowercase_observed keyUnit (by decide) value

theorem normalizeKey_plain_append {s : KString} (plain : ∀ c ∈ s, isSurrogate c.toNat = false) (t : KString) :
    normalizeKey (s ++ t) = normalizeKey s ++ normalizeKey t := by
  simp only [normalizeKey_codes, codePoints_append_plain t plain, List.flatMap_append]

theorem normalizeKey_append_plain (s : KString) {t : KString} (plain : ∀ c ∈ t, isSurrogate c.toNat = false) :
    normalizeKey (s ++ t) = normalizeKey s ++ normalizeKey t := by
  simp only [normalizeKey_codes, codePoints_plain_append s plain, List.flatMap_append]

theorem whitespace_lowered {β : Type*} (observe : KChar → List β) {c : KChar} (space : isWhitespace c = true) :
    ((lowerEach c.toNat).flatMap fun low => (encode low).flatMap observe) = observe c := by
  have bound : c.toNat < 0x10000 := c.toNat_lt
  have low := Platform.lowerCode_whitespace c.toNat space
  have single : lowerEach c.toNat = [c.toNat] := by
    have sigma : c.toNat ≠ 0x3A3 := by
      intro same
      rw [isWhitespace, same] at space
      revert space
      decide
    have dotted : c.toNat ≠ 0x130 := by
      intro same
      rw [isWhitespace, same] at space
      revert space
      decide
    rw [lowerEach, if_neg sigma, if_neg dotted, low]
  have back : UInt16.ofNat c.toNat = c := UInt16.ofNat_toNat
  simp only [single, List.flatMap_cons, List.flatMap_nil, List.append_nil, encode, if_pos bound, back]

theorem surrogate_lowered {β : Type*} (observe : KChar → List β) {c : KChar} (surrogate : isSurrogate c.toNat = true) :
    ((lowerEach c.toNat).flatMap fun low => (encode low).flatMap observe) = observe c := by
  have bound : c.toNat < 0x10000 := c.toNat_lt
  have range := surrogate
  simp only [isSurrogate, Bool.and_eq_true, decide_eq_true_eq] at range
  have single : lowerEach c.toNat = [c.toNat] := by
    rw [lowerEach, if_neg (by omega), if_neg (by omega), Platform.lowerCode_surrogate _ surrogate]
  have back : UInt16.ofNat c.toNat = c := UInt16.ofNat_toNat
  simp only [single, List.flatMap_cons, List.flatMap_nil, List.append_nil, encode, if_pos bound, back]

theorem keyCode_surrogate {c : KChar} (surrogate : isSurrogate c.toNat = true) : keyCode c.toNat = [] := by
  have other : isKeyUnit c = false := by simp [isKeyUnit, isNotKeyCode_uniform _ (Or.inl surrogate)]
  rw [keyCode, surrogate_lowered keyUnit surrogate, keyUnit, umlaut_surrogate surrogate]
  simp [other]

theorem keyCode_whitespace {c : KChar} (space : isWhitespace c = true) : keyCode c.toNat = [] := by
  rw [keyCode, whitespace_lowered keyUnit space, keyUnit_whitespace space]

theorem normalizeKey_blank {s : KString} (blank : ∀ c ∈ s, isWhitespace c = true) : normalizeKey s = [] := by
  rw [normalizeKey_codes, codePoints_plain fun c member => whitespace_plain (blank c member)]
  apply List.flatMap_eq_nil_iff.mpr
  intro code member
  obtain ⟨c, inside, rfl⟩ := List.mem_map.mp member
  exact keyCode_whitespace (blank c inside)

theorem normalizeKey_trim (s : KString) : normalizeKey (trim s) = normalizeKey s := by
  obtain ⟨left, right, split, leftBlank, rightBlank⟩ := trim_split s
  conv_rhs => rw [split]
  rw [normalizeKey_append_plain _ fun c member => whitespace_plain (rightBlank c member),
    normalizeKey_plain_append fun c member => whitespace_plain (leftBlank c member),
    normalizeKey_blank leftBlank, normalizeKey_blank rightBlank]
  simp

theorem normalizeKey_basic {s : KString} (basic : IsBasicText s) :
    normalizeKey s = s.flatMap fun c => keyUnit (lowerChar c) := by
  rw [normalizeKey_eq, lowercase_basic basic, List.flatMap_map]

theorem normalizeKey_front (front back : KString) : normalizeKey front <+: normalizeKey (front ++ back) := by
  simp only [normalizeKey_codes]
  rcases codePoints_cut front back with whole | ⟨first, last, high, low, rfl, rfl, pair, frontCodes, _, codes⟩
  · rw [whole, List.flatMap_append]
    exact List.prefix_append _ _
  · rw [codes, frontCodes, List.flatMap_append, List.flatMap_append, List.flatMap_singleton,
      keyCode_surrogate (isPair_surrogates pair).1, List.append_nil]
    exact List.prefix_append _ _

theorem normalizeKey_back (front back : KString) : normalizeKey back <:+ normalizeKey (front ++ back) := by
  simp only [normalizeKey_codes]
  rcases codePoints_cut front back with whole | ⟨first, last, high, low, rfl, rfl, pair, _, backCodes, codes⟩
  · rw [whole, List.flatMap_append]
    exact List.suffix_append _ _
  · rw [codes, backCodes, List.flatMap_append, List.flatMap_cons, List.flatMap_cons,
      keyCode_surrogate (isPair_surrogates pair).2, List.nil_append]
    exact (List.suffix_append _ _).trans (List.suffix_append _ _)

theorem normalizeKey_part {part text : KString} (inside : part <:+: text) : normalizeKey part <:+: normalizeKey text := by
  obtain ⟨front, back, rfl⟩ := inside
  rw [List.append_assoc]
  exact (normalizeKey_front part back).isInfix.trans (normalizeKey_back front (part ++ back)).isInfix

end Form
