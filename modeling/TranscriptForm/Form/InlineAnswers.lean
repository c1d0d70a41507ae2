import TranscriptForm.Form.Fences
import TranscriptForm.Kotlin.FirstMatch

namespace Form

open Kotlin Regex OnDeviceLlm Pattern

theorem quote_plain : IsPlain (ch '"') := by
  unfold IsPlain
  decide

theorem readCodePoint_before (c : KChar) (text post : KString) : ∃ char read later,
    readCodePoint (c :: text ++ ch '"' :: post) = some (char, read, later ++ ch '"' :: post) ∧
      c :: text = read ++ later ∧ (char = c.toNat ∨ 0x10000 ≤ char) := by
  obtain ⟨char, read, rest, found, shape⟩ := readCodePoint_cons c (text ++ ch '"' :: post)
  rcases shape with ⟨single, rfl, rfl⟩ | ⟨d, pair, double, rfl, same⟩
  · exact ⟨char, [c], text, found, rfl, .inl single⟩
  · cases text with
    | nil =>
      obtain ⟨rfl, _⟩ := List.cons.inj same
      have surrogate := (isPair_surrogates pair).2
      rw [quote_plain] at surrogate
      cases surrogate
    | cons e text =>
      obtain ⟨rfl, rfl⟩ := List.cons.inj same
      exact ⟨char, [c, e], text, found, rfl, .inr (double ▸ pairCode_supplementary c e)⟩

namespace Android

variable [Platform]

def quotedChar : Pattern := either [.seq (oneOf "\\") anyChar, noneOf "\"\\"]

def quotedValue : Pattern := concat [oneOf "\"", .group 2 (star quotedChar), oneOf "\""]

variable {whole post : KString} {groups : List (Nat × KString)} {cur next : Cursor KChar}

def InValue (whole post : KString) (groups : List (Nat × KString)) (cur : Cursor KChar) : Prop :=
  cur.groups = groups ∧ ∃ done todo, whole = done ++ todo ∧ cur.rest = todo ++ ch '"' :: post

theorem inValue_step (noQuote : ch '"' ∉ whole) (noBackslash : ch '\\' ∉ whole) (here : InValue whole post groups cur)
    (taken : next ∈ results utf16 quotedChar cur) : InValue whole post groups next := by
  obtain ⟨captured, done, todo, rfl, text⟩ := here
  rcases List.mem_append.mp taken with escaped | unit
  · exfalso
    obtain ⟨middle, backslash, _⟩ := List.mem_flatMap.mp escaped
    obtain ⟨c, isBackslash, rest, _⟩ := (mem_results_oneOf (plain_of_all (by decide))).mp backslash
    have same : c = ch '\\' := List.mem_singleton.mp isBackslash
    rw [text, same] at rest
    cases todo with
    | nil => exact absurd (List.cons.inj rest).1 (by decide)
    | cons d todo =>
      have head : d = ch '\\' := (List.cons.inj rest).1
      exact noBackslash (by rw [head]; simp)
  · obtain ⟨char, read, found, accepted, moved⟩ := mem_results_set.mp unit
    have kept : next.groups = groups := by rw [moved, Cursor.advance_groups, captured]
    change readCodePoint cur.rest = some (char, read, next.rest) at found
    rw [text] at found
    cases todo with
    | nil =>
      rw [List.nil_append, readCodePoint_plain quote_plain, Option.some.injEq, Prod.mk.injEq] at found
      rw [← found.1] at accepted
      exact absurd accepted (by decide)
    | cons c todo =>
      obtain ⟨_, _, later, read', inside, _⟩ := readCodePoint_before c todo post
      rw [read', Option.some.injEq, Prod.mk.injEq, Prod.mk.injEq] at found
      obtain ⟨_, rfl, rest⟩ := found
      exact ⟨kept, done ++ _, later, by rw [inside, List.append_assoc], rest.symm⟩

theorem inValue_progress (noQuote : ch '"' ∉ whole) (noBackslash : ch '\\' ∉ whole) (here : InValue whole post groups cur) :
    cur.rest = ch '"' :: post ∨
      ∃ next ∈ results utf16 quotedChar cur, next.rest.length < cur.rest.length ∧ InValue whole post groups next := by
  obtain ⟨captured, done, todo, rfl, text⟩ := here
  cases todo with
  | nil => exact .inl text
  | cons c todo =>
    right
    obtain ⟨char, read, later, found, inside, code⟩ := readCodePoint_before c todo post
    have accepted : (!inClass "\"\\" char) = true := by
      rw [Bool.not_eq_true']
      by_contra member
      rw [Bool.not_eq_false] at member
      rcases code with rfl | large
      · have among := (inClass_iff _ c).mp member
        have here : c ∈ done ++ c :: todo := List.mem_append_right _ List.mem_cons_self
        rcases List.mem_cons.mp among with same | among
        · have isQuote : c = ch '"' := same
          exact noQuote (isQuote ▸ here)
        · have isBackslash : c = ch '\\' := List.mem_singleton.mp among
          exact noBackslash (isBackslash ▸ here)
      · simp only [inClass, List.any_eq_true, beq_iff_eq] at member
        obtain ⟨d, _, same⟩ := member
        have small := d.toNat_lt
        omega
    let after := cur.advance read (later ++ ch '"' :: post)
    have taken : after ∈ results utf16 quotedChar cur := by
      refine List.mem_append_right _ (mem_results_set.mpr ⟨char, read, ?_, accepted, rfl⟩)
      show readCodePoint cur.rest = _
      rw [text]
      exact found
    have nonempty : read ≠ [] := (utf16.next_split found).1
    have split : cur.rest = read ++ after.rest := by rw [text, inside, List.append_assoc]; rfl
    refine ⟨after, taken, ?_, captured, done ++ read, later, by rw [inside, List.append_assoc], rfl⟩
    have positive := List.length_pos_iff.mpr nonempty
    have lengths := congrArg List.length split
    rw [List.length_append] at lengths
    omega

theorem quotedValue_captures (noQuote : ch '"' ∉ whole) (noBackslash : ch '\\' ∉ whole)
    (text : cur.rest = ch '"' :: (whole ++ ch '"' :: post)) :
    ∀ stop ∈ results utf16 quotedValue cur, stop.groups = (2, whole) :: cur.groups := by
  let opened := cur.advance [ch '"'] (whole ++ ch '"' :: post)
  have inside : InValue whole post cur.groups opened := ⟨rfl, [], whole, rfl, rfl⟩
  intro stop found
  obtain ⟨first, opening, found⟩ := List.mem_flatMap.mp found
  obtain ⟨second, value, found⟩ := List.mem_flatMap.mp found
  obtain ⟨third, closing, found⟩ := List.mem_flatMap.mp found
  cases List.mem_singleton.mp found
  obtain ⟨c, isQuote, rest, moved⟩ := (mem_results_oneOf (plain_of_all (by decide))).mp opening
  obtain rfl : c = ch '"' := List.mem_singleton.mp isQuote
  rw [text] at rest
  have same : first = opened := by rw [moved, ← (List.cons.inj rest).2]
  obtain ⟨inner, loop, rfl⟩ := List.mem_map.mp value
  change inner ∈ results utf16 (.loop true 0 none quotedChar) first at loop
  rw [same, results_star] at loop
  obtain ⟨captured, done, todo, split, innerRest⟩ :=
    upTo_keeps (fun _ here _ taken => inValue_step noQuote noBackslash here taken) inside loop
  obtain ⟨d, isQuote, closed, movedClosing⟩ := (mem_results_oneOf (plain_of_all (by decide))).mp closing
  obtain rfl : d = ch '"' := List.mem_singleton.mp isQuote
  have ended : todo = [] := by
    cases todo with
    | nil => rfl
    | cons e todo =>
      change inner.rest = _ at closed
      rw [innerRest] at closed
      have head : e = ch '"' := (List.cons.inj closed).1
      exact absurd (by rw [split, head]; simp) noQuote
  have read : opened.readSince inner = whole := by
    rw [Cursor.readSince, innerRest, ended]
    simp [opened]
  rw [movedClosing, Cursor.advance_groups, same]
  show (2, opened.readSince inner) :: inner.groups = _
  rw [read, captured]

theorem quotedValue_matches (noQuote : ch '"' ∉ whole) (noBackslash : ch '\\' ∉ whole)
    (text : cur.rest = ch '"' :: (whole ++ ch '"' :: post)) : ∃ stop, stop ∈ results utf16 quotedValue cur := by
  let opened := cur.advance [ch '"'] (whole ++ ch '"' :: post)
  have inside : InValue whole post cur.groups opened := ⟨rfl, [], whole, rfl, rfl⟩
  have reached : ∃ inner ∈ results utf16 (star quotedChar) opened, inner.rest = ch '"' :: post := by
    rw [Pattern.star, results_star]
    exact upTo_reaches (fun _ here => inValue_progress noQuote noBackslash here) inside (le_refl _)
  obtain ⟨inner, loop, atQuote⟩ := reached
  let valued := inner.capture 2 opened
  let closed := valued.advance [ch '"'] post
  have opening : opened ∈ results utf16 (oneOf "\"") cur :=
    (mem_results_oneOf (plain_of_all (by decide))).mpr ⟨ch '"', List.mem_singleton.mpr rfl, text, rfl⟩
  have value : valued ∈ results utf16 (.group 2 (star quotedChar)) opened := List.mem_map.mpr ⟨inner, loop, rfl⟩
  have closing : closed ∈ results utf16 (oneOf "\"") valued :=
    (mem_results_oneOf (plain_of_all (by decide))).mpr ⟨ch '"', List.mem_singleton.mpr rfl, atQuote, rfl⟩
  exact ⟨closed, List.mem_flatMap.mpr ⟨opened, opening, List.mem_flatMap.mpr ⟨valued, value,
    List.mem_flatMap.mpr ⟨closed, closing, List.mem_singleton.mpr rfl⟩⟩⟩⟩

theorem quotedValue_first (noQuote : ch '"' ∉ whole) (noBackslash : ch '\\' ∉ whole)
    (text : cur.rest = ch '"' :: (whole ++ ch '"' :: post)) :
    ∃ stop, (results utf16 quotedValue cur).head? = some stop ∧ stop.groups = (2, whole) :: cur.groups := by
  have only := quotedValue_captures noQuote noBackslash text
  obtain ⟨stop, member⟩ := quotedValue_matches noQuote noBackslash text
  cases list : results utf16 quotedValue cur with
  | nil =>
    rw [list] at member
    cases member
  | cons first others => exact ⟨first, rfl, only first (by rw [list]; exact List.mem_cons_self)⟩

section Member

variable {definition : FormDefinition} {start stop : Cursor KChar} {key left right : KString}

def IsQuote (quote : KString) : Prop := quote = [] ∨ ∃ c ∈ txt "\"'", quote = [c]

omit [Platform] in
theorem isQuote_of_optional (taken : next ∈ results utf16 (optional (oneOf "\"'")) cur) :
    ∃ quote, IsQuote quote ∧ cur.rest = quote ++ next.rest ∧ next.groups = cur.groups := by
  rcases Regex.mem_results_optional.mp taken with same | ⟨quote, _⟩
  · exact ⟨[], .inl rfl, by rw [same]; rfl, by rw [same]⟩
  · obtain ⟨c, member, rest, moved⟩ := (mem_results_oneOf (plain_of_all (by decide))).mp quote
    exact ⟨[c], .inr ⟨c, member, rfl⟩, rest, by rw [moved, Cursor.advance_groups]⟩

/-- A field name in front of its separator, as the key-value patterns read it -/
structure KeyRead (start stop : Cursor KChar) (opening name closing spaces : KString) (separator : KChar) : Prop where
  opens : IsQuote opening
  closes : IsQuote closing
  spaced : ∀ c ∈ spaces, Platform.isSpace c.toNat = true
  separates : separator ∈ txt ":=-"
  text : start.rest = opening ++ (name ++ (closing ++ (spaces ++ separator :: stop.rest)))
  captured : stop.groups.lookup 1 = some name

def inlineChoice : Pattern :=
  either [quotedValue, concat [oneOf "'", .group 3 (star (either [.seq (oneOf "\\") anyChar, noneOf "'\\"])), oneOf "'"],
    .group 4 (plus (noneOf ";\n"))]

theorem inlineAnswer_head (head : (results utf16 (inlineAnswer definition) start).head? = some stop) :
    ∃ after opening name closing spaces separator, KeyRead start after opening name closing spaces separator ∧
      (results utf16 (.seq (.seq (star space) .empty) (.seq inlineChoice .empty)) after).head? = some stop := by
  obtain ⟨opened, first, head⟩ := head?_results_seq_seq head
  obtain ⟨named, second, head⟩ := head?_results_seq_seq head
  obtain ⟨inner, name, rfl⟩ := List.mem_map.mp second
  obtain ⟨closed, third, head⟩ := head?_results_seq_seq head
  obtain ⟨spaced, fourth, head⟩ := head?_results_seq_seq head
  obtain ⟨after, fifth, head⟩ := head?_results_seq_seq head
  obtain ⟨opening, openingQuote, openingText, _⟩ := isQuote_of_optional first
  obtain ⟨read, reads⟩ := results_reads (within_any utf16 _) _ _ name
  obtain ⟨closing, closingQuote, closingText, closingGroups⟩ := isQuote_of_optional third
  obtain ⟨spaces, spelled, spacesText, movedSpaces⟩ := Regex.mem_results_star.mp fourth
  obtain ⟨separator, isSeparator, separatorText, movedSeparator⟩ := (mem_results_oneOf (plain_of_all (by decide))).mp fifth
  refine ⟨after, opening, read, closing, spaces, separator, ?_, head⟩
  refine ⟨openingQuote, closingQuote, spelled.good space_unitWise.within, isSeparator, ?_, ?_⟩
  · change inner.rest = _ at closingText
    rw [openingText, reads.rest, closingText, spacesText, separatorText]
  · rw [movedSeparator, Cursor.advance_groups, movedSpaces, Cursor.advance_groups, closingGroups]
    show List.lookup 1 ((1, opened.readSince inner) :: inner.groups) = some read
    rw [reads.readSince, List.lookup_cons]
    rfl

/-- A member of a JSON object with the quote that closes its value -/
def memberText (key left right whole post : KString) : KString :=
  ch '"' :: (key ++ ch '"' :: (left ++ ch ':' :: (right ++ ch '"' :: (whole ++ ch '"' :: post))))

theorem isSpace_quote : Platform.isSpace (ch '"').toNat = false := isSpace_other (by decide) (by decide)

theorem isSpace_separator {separator : KChar} (member : separator ∈ txt ":=-") :
    ¬ Platform.isSpace separator.toNat = true := by
  have ascii : (txt ":=-").all (fun c => decide (c.toNat < 0x80)) = true := by decide
  have other : (txt ":=-").all (fun c => !decide (0x09 ≤ c.toNat ∧ c.toNat ≤ 0x0D ∨ c.toNat = 0x20)) = true := by decide
  have refused := List.all_eq_true.mp other _ member
  rw [Bool.not_eq_true', decide_eq_false_iff_not] at refused
  exact Bool.eq_false_iff.mp (isSpace_other (by simpa using List.all_eq_true.mp ascii _ member) refused)

namespace KeyRead

variable {after : Cursor KChar} {opening name closing spaces : KString} {separator : KChar}

theorem separator_ahead (read : KeyRead start after opening name closing spaces separator) (more : KString) :
    spaces ++ separator :: after.rest ≠ ch '"' :: more := by
  intro same
  cases spaces with
  | nil =>
    have isQuote : separator = ch '"' := (List.cons.inj same).1
    have separates := read.separates
    rw [isQuote] at separates
    exact absurd separates (by decide)
  | cons c spaces =>
    have isQuote : c = ch '"' := (List.cons.inj same).1
    have space := read.spaced c List.mem_cons_self
    rw [isQuote, isSpace_quote] at space
    cases space

theorem member (read : KeyRead start after opening key closing spaces separator)
    (text : start.rest = memberText key left right whole post) (noQuote : ch '"' ∉ key)
    (leftSpace : ∀ c ∈ left, isJsonSpace c = true) : after.rest = right ++ ch '"' :: (whole ++ ch '"' :: post) := by
  have same := read.text.symm.trans text
  rcases read.opens with rfl | ⟨c, _, rfl⟩
  · exfalso
    cases key with
    | nil =>
      rcases read.closes with rfl | ⟨d, _, rfl⟩
      · exact read.separator_ahead _ same
      · exact read.separator_ahead _ (List.cons.inj same).2
    | cons c key =>
      have isQuote : c = ch '"' := (List.cons.inj same).1
      exact noQuote (isQuote ▸ List.mem_cons_self)
  · have named : closing ++ (spaces ++ separator :: after.rest) =
        ch '"' :: (left ++ ch ':' :: (right ++ ch '"' :: (whole ++ ch '"' :: post))) :=
      List.append_cancel_left (List.cons.inj same).2
    rcases read.closes with rfl | ⟨d, _, rfl⟩
    · exact absurd named (read.separator_ahead _)
    · have colon : ¬ Platform.isSpace (ch ':').toNat = true := isSpace_separator (by decide)
      exact (split_hits read.spaced (fun c member => isSpace_jsonSpace (leftSpace c member))
        (isSpace_separator read.separates) colon (List.cons.inj named).2).2.2

end KeyRead

theorem inlineAnswer_member (head : (results utf16 (inlineAnswer definition) start).head? = some stop)
    (text : start.rest = memberText key left right whole post) (named : (stop.groups.lookup 1).getD [] = key)
    (keyClean : ch '"' ∉ key) (noQuote : ch '"' ∉ whole) (noBackslash : ch '\\' ∉ whole)
    (leftSpace : ∀ c ∈ left, isJsonSpace c = true) (rightSpace : ∀ c ∈ right, isJsonSpace c = true) :
    stop.groups.lookup 2 = some whole := by
  obtain ⟨after, opening, name, closing, spaces, separator, read, later⟩ := inlineAnswer_head head
  have captures := results_captures _ (List.mem_of_mem_head? later)
  have indices : groupIndices (.seq (.seq (star space) .empty) (.seq inlineChoice .empty) : Pattern) = [2, 3, 4] := rfl
  have kept : stop.groups.lookup 1 = after.groups.lookup 1 := captures.lookup (by rw [indices]; decide)
  rw [kept, read.captured] at named
  obtain rfl : name = key := named
  have rest := read.member text keyClean leftSpace
  let value := after.capturing [] right (ch '"' :: (whole ++ ch '"' :: post))
  have stops : ∀ c, (ch '"' :: (whole ++ ch '"' :: post)).head? = some c → Platform.isSpace c.toNat = false := by
    rintro c ⟨⟩
    exact isSpace_quote
  have ahead : (results utf16 (star space) after).head? = some value :=
    takes_spaces (fun c member => isSpace_jsonSpace (rightSpace c member)) stops after rest
  have valueText : value.rest = ch '"' :: (whole ++ ch '"' :: post) := rfl
  obtain ⟨last, quoted, groups⟩ := quotedValue_first noQuote noBackslash valueText
  have chosen : (results utf16 inlineChoice value).head? = some last := by
    change (results utf16 quotedValue value ++ _).head? = some last
    rw [List.head?_append, quoted, Option.some_or]
  have first : (results utf16 (.seq (.seq (star space) .empty) (.seq inlineChoice .empty)) after).head? = some last :=
    head?_results_seq_of_head (head?_results_seq_of_head ahead rfl) (head?_results_seq_of_head chosen rfl)
  rw [later] at first
  rw [Option.some.inj first, groups]
  rfl

end Member

end Android

end Form
