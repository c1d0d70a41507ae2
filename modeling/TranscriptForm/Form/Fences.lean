import TranscriptForm.Form.LlmAnswers
import TranscriptForm.Kotlin.Literals

namespace Form

open Kotlin Regex OnDeviceLlm Pattern

section Splits

variable {α : Type*} {c : α} {before after before' after' : List α}

theorem split_first (clean : c ∉ before) (clean' : c ∉ before') (same : before ++ c :: after = before' ++ c :: after') :
    before = before' ∧ after = after' := by
  rcases List.append_eq_append_iff.mp same with ⟨more, rfl, rest⟩ | ⟨more, rfl, rest⟩
  · cases more with
    | nil => exact ⟨(List.append_nil _).symm, (List.cons.inj rest).2⟩
    | cons d more =>
      obtain ⟨rfl, _⟩ := List.cons.inj rest
      exact absurd (List.mem_append_right _ List.mem_cons_self) clean'
  · cases more with
    | nil => exact ⟨List.append_nil _, (List.cons.inj rest).2.symm⟩
    | cons d more =>
      obtain ⟨rfl, _⟩ := List.cons.inj rest
      exact absurd (List.mem_append_right _ List.mem_cons_self) clean

theorem split_last (clean : c ∉ after) (clean' : c ∉ after') (same : before ++ c :: after = before' ++ c :: after') :
    before = before' ∧ after = after' := by
  have turned : after.reverse ++ c :: before.reverse = after'.reverse ++ c :: before'.reverse := by
    have reversed := congrArg List.reverse same
    simpa using reversed
  obtain ⟨ends, starts⟩ := split_first (by simpa using clean) (by simpa using clean') turned
  exact ⟨List.reverse_inj.mp starts, List.reverse_inj.mp ends⟩

theorem split_marker {marker : List α} (clean : c ∉ before)
    (same : before ++ c :: marker = before' ++ (c :: marker ++ after)) : before' = before ∧ after = [] := by
  rcases List.append_eq_append_iff.mp same with ⟨more, rfl, rest⟩ | ⟨more, rfl, rest⟩
  · have lengths := congrArg List.length rest
    simp only [List.length_append, List.length_cons] at lengths
    have noMore : more = [] := List.length_eq_zero_iff.mp (by omega)
    have noAfter : after = [] := List.length_eq_zero_iff.mp (by omega)
    exact ⟨by rw [noMore, List.append_nil], noAfter⟩
  · cases more with
    | nil =>
      refine ⟨(List.append_nil _).symm, ?_⟩
      simpa using rest
    | cons d more =>
      obtain ⟨rfl, _⟩ := List.cons.inj rest
      exact absurd (List.mem_append_right _ List.mem_cons_self) clean

end Splits

/-- The text of one JSON object, as the scan for balanced braces sees it. -/
structure IsObjectText (text : KString) : Prop where
  braces : ∃ inner, text = ch '{' :: (inner ++ [ch '}'])
  balanced : text.foldl BraceScan.step {} = { result := [text] }

structure ReadsObjects (json : JsonParser) : Prop where
  decoded : ∀ text answers, json.decodeFromString (trim text) = some answers → IsObjectText (trim text)
  parsed : ∀ text members, json.parseToJsonElement (trim text) = some (.object members) → IsObjectText (trim text)

def isJsonSpace (c : KChar) : Bool := (txt " \t\n\r").contains c

def fence (tagged : Bool) (s : KString) : KString :=
  txt "```" ++ ((if tagged then txt "json" else []) ++ (txt "\n" ++ (s ++ txt "\n")) ++ txt "```")

section JsonSpace

variable {c : KChar}

theorem isJsonSpace_cases (space : isJsonSpace c = true) : c = ch ' ' ∨ c = ch '\t' ∨ c = ch '\n' ∨ c = ch '\r' := by
  have member := List.contains_iff_mem.mp space
  simpa [txt] using member

theorem isSpace_jsonSpace [Platform] (space : isJsonSpace c = true) : Platform.isSpace c.toNat = true := by
  rcases isJsonSpace_cases space with rfl | rfl | rfl | rfl <;>
    exact (Platform.isSpace_ascii _ (by decide)).mpr (by decide)

theorem isWhitespace_jsonSpace (space : isJsonSpace c = true) : isWhitespace c = true := by
  rcases isJsonSpace_cases space with rfl | rfl | rfl | rfl <;> decide

theorem IsObjectText.trim_eq {text : KString} (object : IsObjectText text) {left right : KString}
    (leftSpace : ∀ c ∈ left, isJsonSpace c = true) (rightSpace : ∀ c ∈ right, isJsonSpace c = true) :
    trim (left ++ (text ++ right)) = text := by
  have padded : trim (left ++ (text ++ right)) = trim text :=
    trimBy_padded (fun c member => isWhitespace_jsonSpace (leftSpace c member))
      (fun c member => isWhitespace_jsonSpace (rightSpace c member)) text
  rw [padded]
  obtain ⟨inner, rfl⟩ := object.braces
  apply trimBy_id
  · intro c first
    cases first
    decide
  · intro c last
    rw [← List.cons_append, List.getLast?_concat] at last
    cases last
    decide

end JsonSpace

section Search

variable [Platform]

structure Fenced (rest after : KString) (groups : List (Nat × KString)) (tag left inner right : KString) : Prop where
  tagged : tag = [] ∨ tag = txt "json"
  leftSpace : ∀ c ∈ left, Platform.isSpace c.toNat = true
  rightSpace : ∀ c ∈ right, Platform.isSpace c.toNat = true
  text : rest =
    txt "```" ++ (tag ++ (left ++ (ch '{' :: (inner ++ (ch '}' :: (right ++ (txt "```" ++ after)))))))
  captured : groups = [(1, ch '{' :: (inner ++ [ch '}']))]

omit [Platform] in
theorem object_sound {cur stop : Cursor KChar}
    (found : stop ∈ results utf16 (.group 1 (concat [oneOf "\x7b", lazyStar anything, oneOf "\x7d"])) cur) :
    ∃ inner, cur.rest = ch '{' :: (inner ++ (ch '}' :: stop.rest)) ∧
      stop.groups = (1, ch '{' :: (inner ++ [ch '}'])) :: cur.groups := by
  obtain ⟨stop, body, rfl⟩ := List.mem_map.mp found
  obtain ⟨afterOpen, first, body⟩ := List.mem_flatMap.mp body
  obtain ⟨afterInner, second, body⟩ := List.mem_flatMap.mp body
  obtain ⟨last, third, body⟩ := List.mem_flatMap.mp body
  cases List.mem_singleton.mp body
  obtain ⟨c, isOpen, opened, movedOpen⟩ := (mem_results_oneOf (plain_of_all (by decide))).mp first
  obtain ⟨inner, _, between, movedInner⟩ := Regex.mem_results_star.mp second
  obtain ⟨d, isClose, closed, movedClose⟩ := (mem_results_oneOf (plain_of_all (by decide))).mp third
  have open_eq : c = ch '{' := List.mem_singleton.mp isOpen
  have close_eq : d = ch '}' := List.mem_singleton.mp isClose
  have groups : stop.groups = cur.groups := by
    rw [movedClose, Cursor.advance_groups, movedInner, Cursor.advance_groups, movedOpen, Cursor.advance_groups]
  have text : cur.rest = ch '{' :: (inner ++ (ch '}' :: stop.rest)) := by
    rw [opened, between, closed, open_eq, close_eq]
  have read : cur.readSince stop = ch '{' :: (inner ++ [ch '}']) := by
    have whole : cur.rest = ch '{' :: (inner ++ [ch '}']) ++ stop.rest := by simp [text]
    rw [Cursor.readSince, whole, List.length_append, Nat.add_sub_cancel, List.take_left]
  exact ⟨inner, text, by simp only [Cursor.capture, read, groups]⟩

theorem fencedObject_sound {before rest : KString} {stop : Cursor KChar}
    (found : stop ∈ results utf16 fencedObject ⟨before, rest, []⟩) :
    ∃ tag left inner right, Fenced rest stop.rest stop.groups tag left inner right := by
  obtain ⟨afterTicks, first, found⟩ := List.mem_flatMap.mp found
  obtain ⟨afterTag, second, found⟩ := List.mem_flatMap.mp found
  obtain ⟨afterLeft, third, found⟩ := List.mem_flatMap.mp found
  obtain ⟨afterObject, fourth, found⟩ := List.mem_flatMap.mp found
  obtain ⟨afterRight, fifth, found⟩ := List.mem_flatMap.mp found
  obtain ⟨last, sixth, found⟩ := List.mem_flatMap.mp found
  cases List.mem_singleton.mp found
  obtain ⟨ticks, movedTicks⟩ := (mem_results_lit (plain_of_all (by decide))).mp first
  have tagged : ∃ tag, (tag = [] ∨ tag = txt "json") ∧ afterTicks.rest = tag ++ afterTag.rest ∧
      afterTag.groups = afterTicks.groups := by
    rcases Regex.mem_results_optional.mp second with same | ⟨json, _⟩
    · exact ⟨[], .inl rfl, by rw [same]; rfl, by rw [same]⟩
    · obtain ⟨text, moved⟩ := (mem_results_lit (plain_of_all (by decide))).mp json
      exact ⟨_, .inr rfl, text, by rw [moved, Cursor.advance_groups]⟩
  obtain ⟨tag, isTag, tagText, tagGroups⟩ := tagged
  obtain ⟨left, spacesLeft, leftText, movedLeft⟩ := Regex.mem_results_star.mp third
  obtain ⟨inner, object, groups⟩ := object_sound fourth
  obtain ⟨right, spacesRight, rightText, movedRight⟩ := Regex.mem_results_star.mp fifth
  obtain ⟨closing, movedClosing⟩ := (mem_results_lit (plain_of_all (by decide))).mp sixth
  refine ⟨tag, left, inner, right, isTag, spacesLeft.good space_unitWise.within, spacesRight.good space_unitWise.within,
    ?_, ?_⟩
  · change rest = _ at ticks
    rw [ticks, tagText, leftText, object, rightText, closing]
  · rw [movedClosing, Cursor.advance_groups, movedRight, Cursor.advance_groups, groups, movedLeft,
      Cursor.advance_groups, tagGroups, movedTicks, Cursor.advance_groups]

omit [Platform] in
theorem closing_plain : IsPlain (ch '}') := by
  unfold IsPlain
  decide

omit [Platform] in
theorem object_complete {cur : Cursor KChar} {inner rest : KString}
    (text : cur.rest = ch '{' :: (inner ++ (ch '}' :: rest))) :
    ∃ stop ∈ results utf16 (.group 1 (concat [oneOf "\x7b", lazyStar anything, oneOf "\x7d"])) cur,
      stop.rest = rest := by
  let opened := cur.advance [ch '{'] (inner ++ (ch '}' :: rest))
  let between := opened.advance inner (ch '}' :: rest)
  let closed := between.advance [ch '}'] rest
  have first : opened ∈ results utf16 (oneOf "\x7b") cur :=
    (mem_results_oneOf (plain_of_all (by decide))).mpr ⟨ch '{', List.mem_singleton.mpr rfl, text, rfl⟩
  have second : between ∈ results utf16 (lazyStar anything) opened :=
    Regex.mem_results_star.mpr ⟨inner, spells_anything closing_plain rest inner, rfl, rfl⟩
  have third : closed ∈ results utf16 (oneOf "\x7d") between :=
    (mem_results_oneOf (plain_of_all (by decide))).mpr ⟨ch '}', List.mem_singleton.mpr rfl, rfl, rfl⟩
  have body : closed ∈ results utf16 (concat [oneOf "\x7b", lazyStar anything, oneOf "\x7d"]) cur :=
    List.mem_flatMap.mpr ⟨opened, first, List.mem_flatMap.mpr ⟨between, second,
      List.mem_flatMap.mpr ⟨closed, third, List.mem_singleton.mpr rfl⟩⟩⟩
  exact ⟨closed.capture 1 cur, List.mem_map.mpr ⟨closed, body, rfl⟩, rfl⟩

omit [Platform] in
theorem tag_complete {cur : Cursor KChar} {tag rest : KString} (tagged : tag = [] ∨ tag = txt "json")
    (text : cur.rest = tag ++ rest) : cur.advance tag rest ∈ results utf16 (optional (lit "json")) cur := by
  refine Regex.mem_results_optional.mpr ?_
  rcases tagged with rfl | rfl
  · left
    rw [List.nil_append] at text
    rw [← text]
    rfl
  · right
    refine ⟨(mem_results_lit (plain_of_all (by decide))).mpr ⟨text, rfl⟩, ?_⟩
    rw [text, List.length_append]
    exact Nat.lt_add_of_pos_left (by decide)

theorem fencedObject_complete (before inner after : KString) {tag left right : KString} (tagged : tag = [] ∨ tag = txt "json")
    (leftSpace : ∀ c ∈ left, Platform.isSpace c.toNat = true)
    (rightSpace : ∀ c ∈ right, Platform.isSpace c.toNat = true) :
    results utf16 fencedObject ⟨before,
      txt "```" ++ (tag ++ (left ++ (ch '{' :: (inner ++ (ch '}' :: (right ++ (txt "```" ++ after))))))), []⟩ ≠ [] := by
  let body := ch '{' :: (inner ++ (ch '}' :: (right ++ (txt "```" ++ after))))
  let start : Cursor KChar := ⟨before, txt "```" ++ (tag ++ (left ++ body)), []⟩
  let afterTicks := start.advance (txt "```") (tag ++ (left ++ body))
  let afterTag := afterTicks.advance tag (left ++ body)
  let afterLeft := afterTag.advance left body
  have first : afterTicks ∈ results utf16 (lit "```") start :=
    (mem_results_lit (plain_of_all (by decide))).mpr ⟨rfl, rfl⟩
  have second : afterTag ∈ results utf16 (optional (lit "json")) afterTicks := tag_complete tagged rfl
  have third : afterLeft ∈ results utf16 (star space) afterTag :=
    Regex.mem_results_star.mpr ⟨left, spells_space leftSpace body, rfl, rfl⟩
  have objectText : afterLeft.rest = body := rfl
  obtain ⟨object, fourth, objectRest⟩ := object_complete objectText
  let afterRight := object.advance right (txt "```" ++ after)
  let last := afterRight.advance (txt "```") after
  have fifth : afterRight ∈ results utf16 (star space) object :=
    Regex.mem_results_star.mpr ⟨right, spells_space rightSpace (txt "```" ++ after), objectRest, rfl⟩
  have sixth : last ∈ results utf16 (lit "```") afterRight :=
    (mem_results_lit (plain_of_all (by decide))).mpr ⟨rfl, rfl⟩
  have whole : last ∈ results utf16 fencedObject start :=
    List.mem_flatMap.mpr ⟨_, first, List.mem_flatMap.mpr ⟨_, second, List.mem_flatMap.mpr ⟨_, third,
      List.mem_flatMap.mpr ⟨_, fourth, List.mem_flatMap.mpr ⟨_, fifth,
        List.mem_flatMap.mpr ⟨_, sixth, List.mem_singleton.mpr rfl⟩⟩⟩⟩⟩⟩
  exact List.ne_nil_of_mem whole

theorem not_mem_spaces {c : KChar} (ascii : c.toNat < 0x80) (other : ¬ (0x09 ≤ c.toNat ∧ c.toNat ≤ 0x0D ∨ c.toNat = 0x20))
    {spaces : KString} (all : ∀ d ∈ spaces, Platform.isSpace d.toNat = true) : c ∉ spaces := by
  intro member
  exact Bool.eq_false_iff.mp (isSpace_other ascii other) (all c member)

theorem findAll_fence (tagged : Bool) {left text right : KString} (object : IsObjectText text)
    (clean : ch '`' ∉ text) (leftSpace : ∀ c ∈ left, isJsonSpace c = true)
    (rightSpace : ∀ c ∈ right, isJsonSpace c = true) :
    ∃ found, findAll fencedObject (fence tagged (left ++ (text ++ right))) = [found] ∧ groupValue found 1 = text := by
  obtain ⟨inner, rfl⟩ := object.braces
  let opening := if tagged then txt "json" else []
  let lead := txt "\n" ++ left
  let trail := right ++ txt "\n"
  have isTag : opening = [] ∨ opening = txt "json" := by cases tagged <;> simp [opening]
  have newline : ∀ c ∈ txt "\n", Platform.isSpace c.toNat = true := by
    intro c member
    rw [List.mem_singleton.mp member]
    exact isSpace_jsonSpace (by decide)
  have leadSpace : ∀ c ∈ lead, Platform.isSpace c.toNat = true :=
    List.forall_mem_append.mpr ⟨newline, fun c member => isSpace_jsonSpace (leftSpace c member)⟩
  have trailSpace : ∀ c ∈ trail, Platform.isSpace c.toNat = true :=
    List.forall_mem_append.mpr ⟨fun c member => isSpace_jsonSpace (rightSpace c member), newline⟩
  let body := opening ++ (lead ++ (ch '{' :: (inner ++ (ch '}' :: trail))))
  have whole : fence tagged (left ++ (ch '{' :: (inner ++ [ch '}']) ++ right)) = txt "```" ++ (body ++ txt "```") := by
    simp [fence, body, opening, lead, trail]
  have bodyClean : ch '`' ∉ body := by
    have clearTag : ch '`' ∉ opening := by rcases isTag with tag | tag <;> rw [tag] <;> decide
    have clearLead := not_mem_spaces (c := ch '`') (by decide) (by decide) leadSpace
    have clearTrail := not_mem_spaces (c := ch '`') (by decide) (by decide) trailSpace
    simp only [List.mem_cons, List.mem_append, not_or] at clean
    simp only [body, List.mem_append, List.mem_cons, not_or]
    exact ⟨clearTag, clearLead, clean.1, clean.2.1, clean.2.2.1, clearTrail⟩
  have only : ∀ stop ∈ results utf16 fencedObject ⟨[], txt "```" ++ (body ++ txt "```"), []⟩,
      stop.rest = [] ∧ stop.groups = [(1, ch '{' :: (inner ++ [ch '}']))] := by
    intro stop found
    obtain ⟨tag, before, middle, after, fenced⟩ := fencedObject_sound found
    have same : body ++ ch '`' :: txt "``" =
        (tag ++ (before ++ (ch '{' :: (middle ++ (ch '}' :: after))))) ++ (ch '`' :: txt "``" ++ stop.rest) := by
      have text := List.append_cancel_left fenced.text
      rw [show ch '`' :: txt "``" = txt "```" from rfl, text]
      simp
    obtain ⟨inside, ended⟩ := split_marker bodyClean same
    have atBrace : (tag ++ before) ++ ch '{' :: (middle ++ (ch '}' :: after)) =
        (opening ++ lead) ++ ch '{' :: (inner ++ (ch '}' :: trail)) := by simpa [body] using inside
    have noBrace {start spaces : KString} (isStart : start = [] ∨ start = txt "json")
        (space : ∀ c ∈ spaces, Platform.isSpace c.toNat = true) : ch '{' ∉ start ++ spaces := by
      intro member
      rcases List.mem_append.mp member with member | member
      · revert member
        rcases isStart with rfl | rfl <;> decide
      · exact not_mem_spaces (by decide) (by decide) space member
    obtain ⟨_, objects⟩ := split_first (noBrace fenced.tagged fenced.leftSpace) (noBrace isTag leadSpace) atBrace
    obtain ⟨inners, _⟩ := split_last (not_mem_spaces (by decide) (by decide) fenced.rightSpace)
      (not_mem_spaces (by decide) (by decide) trailSpace) objects
    exact ⟨ended, by rw [fenced.captured, inners]⟩
  have present : results utf16 fencedObject ⟨[], txt "```" ++ (body ++ txt "```"), []⟩ ≠ [] := by
    have complete := fencedObject_complete [] inner [] isTag leadSpace trailSpace
    simpa [body] using complete
  obtain ⟨stop, others, list⟩ := List.exists_cons_of_ne_nil present
  have first : firstAt utf16 fencedObject [] (txt "```" ++ (body ++ txt "```")) = some stop := by
    rw [firstAt, list]
    rfl
  obtain ⟨ended, captured⟩ := only stop (by rw [list]; exact List.mem_cons_self)
  have nothing : ∀ before, firstAt utf16 fencedObject before [] = none := by
    intro before
    refine List.head?_eq_none_iff.mpr (List.eq_nil_iff_forall_not_mem.mpr fun stop found => ?_)
    obtain ⟨tag, left, middle, right, fenced⟩ := fencedObject_sound found
    cases fenced.text
  refine ⟨_, by rw [whole]; exact findAll_whole first ended nothing, ?_⟩
  simp [groupValue, Match.group, captured]

end Search

section Scan

/-- A unit that neither opens nor closes an object or a string -/
def isOutside (c : KChar) : Bool := !(txt "\"\x7b\x7d").contains c

theorem scan_outside {text : KString} (outside : ∀ c ∈ text, isOutside c = true) (result : List KString) :
    text.foldl BraceScan.step { result := result } = { result := result } := by
  induction text with
  | nil => rfl
  | cons c text ih =>
    obtain ⟨here, later⟩ := List.forall_mem_cons.mp outside
    have step : BraceScan.step { result := result } c = { result := result } := by
      simp only [isOutside, Bool.not_eq_true', List.contains_eq_mem, decide_eq_false_iff_not] at here
      have quote : c ≠ ch '"' := fun same => here (by rw [same]; decide)
      have opens : c ≠ ch '{' := fun same => here (by rw [same]; decide)
      have closes : c ≠ ch '}' := fun same => here (by rw [same]; decide)
      simp [BraceScan.step, quote, opens, closes]
    rw [List.foldl_cons, step]
    exact ih later

theorem isOutside_jsonSpace {c : KChar} (space : isJsonSpace c = true) : isOutside c = true := by
  rcases isJsonSpace_cases space with rfl | rfl | rfl | rfl <;> decide

theorem balanced_padded {text left right : KString} (object : IsObjectText text)
    (leftOutside : ∀ c ∈ left, isOutside c = true) (rightOutside : ∀ c ∈ right, isOutside c = true) :
    extractBalancedJsonObjects (left ++ (text ++ right)) = [text] := by
  unfold extractBalancedJsonObjects
  rw [List.foldl_append, List.foldl_append, scan_outside leftOutside, object.balanced, scan_outside rightOutside]

end Scan

section Candidates

variable [Platform] {left text right : KString}

omit [Platform] in
theorem fence_trimmed (tagged : Bool) (s : KString) : trim (fence tagged s) = fence tagged s := by
  apply trimBy_id
  · intro c first
    cases first
    decide
  · intro c last
    have ending : fence tagged s = txt "```" ++ ((if tagged then txt "json" else []) ++ (txt "\n" ++ (s ++ txt "\n")) ++
        txt "``") ++ [ch '`'] := by
      simp [fence, txt]
    rw [ending, List.getLast?_concat] at last
    cases last
    decide

omit [Platform] in
theorem fence_not_object (tagged : Bool) (s : KString) : ¬ IsObjectText (fence tagged s) := by
  intro object
  obtain ⟨inner, same⟩ := object.braces
  have heads := congrArg List.head? same
  exact absurd heads (by simp [fence, txt]; decide)

omit [Platform] in
theorem IsObjectText.isBlank (object : IsObjectText text) : Kotlin.isBlank text = false := by
  obtain ⟨inner, rfl⟩ := object.braces
  simp [Kotlin.isBlank, show isWhitespace (ch '{') = false from by decide]

omit [Platform] in
theorem IsObjectText.trim_self (object : IsObjectText text) : trim text = text := by
  have padded : trim ([] ++ (text ++ [])) = text := object.trim_eq (by simp) (by simp)
  rwa [List.append_nil] at padded

theorem buildJsonCandidates_fence (tagged : Bool) (object : IsObjectText text) (clean : ch '`' ∉ text)
    (leftSpace : ∀ c ∈ left, isJsonSpace c = true) (rightSpace : ∀ c ∈ right, isJsonSpace c = true) :
    buildJsonCandidates (fence tagged (left ++ (text ++ right))) =
      [fence tagged (left ++ (text ++ right)), text] := by
  let whole := fence tagged (left ++ (text ++ right))
  obtain ⟨found, search, group⟩ := findAll_fence tagged object clean leftSpace rightSpace
  have filled : isBlank whole = false := by
    simp [whole, fence, isBlank, txt, show isWhitespace (ch '`') = false from by decide]
  have balanced : extractBalancedJsonObjects whole = [text] := by
    have split : whole = (txt "```" ++ ((if tagged then txt "json" else []) ++ (txt "\n" ++ left))) ++
        (text ++ (right ++ (txt "\n" ++ txt "```"))) := by
      simp [whole, fence]
    rw [split]
    have ticks : ∀ c ∈ txt "```", isOutside c = true := List.all_eq_true.mp (by decide)
    have newline : ∀ c ∈ txt "\n", isOutside c = true := List.all_eq_true.mp (by decide)
    have opening : ∀ c ∈ (if tagged then txt "json" else []), isOutside c = true := by
      cases tagged
      · simp
      · exact List.all_eq_true.mp (by decide)
    refine balanced_padded object ?_ ?_
    · simp only [List.forall_mem_append]
      exact ⟨ticks, opening, newline, fun c member => isOutside_jsonSpace (leftSpace c member)⟩
    · simp only [List.forall_mem_append]
      exact ⟨fun c member => isOutside_jsonSpace (rightSpace c member), newline, ticks⟩
  have other : text ≠ whole := by
    intro same
    exact fence_not_object tagged _ (same ▸ object)
  unfold buildJsonCandidates
  dsimp only
  rw [fence_trimmed, show fence tagged (left ++ (text ++ right)) = whole from rfl, filled, search, balanced]
  simp [group, object.trim_self, List.eraseDups_cons, other]

theorem buildJsonCandidates_object (object : IsObjectText text) (clean : ch '`' ∉ text)
    (leftSpace : ∀ c ∈ left, isJsonSpace c = true) (rightSpace : ∀ c ∈ right, isJsonSpace c = true) :
    buildJsonCandidates (left ++ (text ++ right)) = [text] := by
  have none : findAll fencedObject text = [] := by
    refine Regex.findAll_absent fun before later ends => ?_
    refine List.head?_eq_none_iff.mpr (List.eq_nil_iff_forall_not_mem.mpr fun stop found => ?_)
    obtain ⟨tag, left, middle, right, fenced⟩ := fencedObject_sound found
    have tick : ch '`' ∈ later := by
      rw [fenced.text]
      exact List.mem_append_left _ (by decide)
    exact clean (ends.subset tick)
  have balanced : extractBalancedJsonObjects text = [text] := by
    have padded : extractBalancedJsonObjects ([] ++ (text ++ [])) = [text] := balanced_padded object (by simp) (by simp)
    rwa [List.append_nil] at padded
  unfold buildJsonCandidates
  dsimp only
  rw [object.trim_eq leftSpace rightSpace, object.isBlank, none, balanced]
  simp [List.eraseDups_cons]

end Candidates

namespace Android

variable [Platform] {json : JsonParser} {definition : FormDefinition} {answers : Answers} {left text right : KString}

/-- Both maps hold the same values, in whatever order. -/
def SameAnswers (first second : Answers) : Prop := ∀ key, first.get? key = second.get? key

def FenceChangesNothing (json : JsonParser) (definition : FormDefinition) (answers : Answers) (plain wrapped : KString) :
    Prop :=
  ∃ fenced extracted, extractAnswers json definition wrapped = .ok fenced ∧
    extractAnswers json definition plain = .ok extracted ∧ SameAnswers fenced extracted ∧ SameAnswers extracted answers

theorem parse_object (object : IsObjectText text) (decoded : json.decodeFromString text = some answers) :
    parseAnswersCandidate json definition text = .ok (normalizeAnswers definition answers) := by
  unfold parseAnswersCandidate parseCandidateWith
  dsimp only
  rw [object.trim_self, object.isBlank, if_neg (by decide), decoded]

theorem firstAnswers_object (object : IsObjectText text) (decoded : json.decodeFromString text = some answers) :
    firstAnswers (parseAnswersCandidate json definition) [text] = .ok (normalizeAnswers definition answers) := by
  rw [firstAnswers, parse_object object decoded]
  dsimp only
  split
  · rename_i empty
    rw [(LinkedMap.isEmpty_iff _).mp empty]
    rfl
  · rfl

theorem extractAnswers_object (object : IsObjectText text) (decoded : json.decodeFromString text = some answers)
    (clean : ch '`' ∉ text) (leftSpace : ∀ c ∈ left, isJsonSpace c = true) (rightSpace : ∀ c ∈ right, isJsonSpace c = true) :
    extractAnswers json definition (left ++ (text ++ right)) = .ok (normalizeAnswers definition answers) := by
  unfold extractAnswers
  rw [buildJsonCandidates_object object clean leftSpace rightSpace]
  exact firstAnswers_object object decoded

theorem parse_text (reads : ReadsObjects json) {raw : KString} (other : ¬ IsObjectText (trim raw))
    (filled : isBlank (trim raw) = false) :
    parseAnswersCandidate json definition raw = .ok (parseKeyValueFallback definition (trim raw)) := by
  have refused : json.decodeFromString (trim raw) = none := by
    cases decoded : json.decodeFromString (trim raw) with
    | none => rfl
    | some answers => exact absurd (reads.decoded _ answers decoded) other
  unfold parseAnswersCandidate parseCandidateWith
  dsimp only
  rw [filled, if_neg (by decide), refused]
  cases parsed : json.parseToJsonElement (trim raw) with
  | none => rfl
  | some element =>
    cases element with
    | object members => exact absurd (reads.parsed _ members parsed) other
    | null => rfl
    | primitive content => rfl
    | array items => rfl

theorem parse_fence (reads : ReadsObjects json) (tagged : Bool) (s : KString) :
    parseAnswersCandidate json definition (fence tagged s) =
      .ok (parseKeyValueFallback definition (fence tagged s)) := by
  have filled : isBlank (fence tagged s) = false := by
    simp [fence, isBlank, txt, show isWhitespace (ch '`') = false from by decide]
  have parsed : parseAnswersCandidate json definition (fence tagged s) =
      .ok (parseKeyValueFallback definition (trim (fence tagged s))) := by
    refine parse_text reads ?_ ?_
    · rw [fence_trimmed]
      exact fence_not_object tagged s
    · rw [fence_trimmed]
      exact filled
  rwa [fence_trimmed] at parsed

/-- What the key-value search finds in the wrapped text comes before the answers of the object. -/
theorem extractAnswers_fence (reads : ReadsObjects json) (object : IsObjectText text)
    (decoded : json.decodeFromString text = some answers) (clean : ch '`' ∉ text)
    (leftSpace : ∀ c ∈ left, isJsonSpace c = true) (rightSpace : ∀ c ∈ right, isJsonSpace c = true)
    {tagged : Bool} {wrapped : KString} (fenced : wrapped = fence tagged (left ++ (text ++ right))) :
    extractAnswers json definition wrapped =
      .ok (if (parseKeyValueFallback definition wrapped).isEmpty then normalizeAnswers definition answers
        else parseKeyValueFallback definition wrapped) := by
  have first : parseAnswersCandidate json definition wrapped = .ok (parseKeyValueFallback definition wrapped) := by
    rw [fenced]
    exact parse_fence reads tagged _
  have candidates : buildJsonCandidates wrapped = [wrapped, text] := by
    rw [fenced]
    exact buildJsonCandidates_fence tagged object clean leftSpace rightSpace
  unfold extractAnswers
  rw [candidates, firstAnswers, first]
  dsimp only
  split
  · exact firstAnswers_object object decoded
  · rfl

theorem normalizeAnswers_kept (mapped : ∀ key ∈ answers.keys, mappedId definition key = some key)
    (filled : ∀ value ∈ answers.values, isBlank value = false)
    (clean : ∀ value ∈ answers.values, trimLlmEdgeArtifacts value = value) :
    normalizeAnswers definition answers = answers := by
  unfold normalizeAnswers normalizeAnswersWith
  split
  · rename_i empty
    exact ((LinkedMap.isEmpty_iff answers).mp empty).symm
  · have kept : ∀ entry ∈ answers.entries,
        (let value := trimLlmEdgeArtifacts entry.2
          if isBlank value then none else (mappedId definition entry.1).map fun id => (id, value)) = some entry := by
      intro entry member
      have key : entry.1 ∈ answers.keys := List.mem_map_of_mem member
      have value : entry.2 ∈ answers.values := List.mem_map_of_mem member
      simp only [clean _ value, filled _ value, mapped _ key]
      rfl
    have all : answers.entries.filterMap (fun entry =>
        let value := trimLlmEdgeArtifacts entry.2
        if isBlank value then none else (mappedId definition entry.1).map fun id => (id, value)) = answers.entries := by
      rw [List.filterMap_congr kept, List.filterMap_some]
    rw [all]
    exact LinkedMap.ofPairs_entries answers

structure Encodes (json : JsonParser) (answers : Answers) (s : KString) : Prop where
  decoded : json.decodeFromString (trim s) = some answers
  padded : ∃ left right, s = left ++ (trim s ++ right) ∧ (∀ c ∈ left, isJsonSpace c = true) ∧
    ∀ c ∈ right, isJsonSpace c = true

theorem fence_iff (reads : ReadsObjects json) {s : KString} (encodes : Encodes json answers s)
    (clean : ch '`' ∉ s) (tagged : Bool) :
    FenceChangesNothing json definition answers s (fence tagged s) ↔
      SameAnswers (normalizeAnswers definition answers) answers ∧
        ((parseKeyValueFallback definition (fence tagged s)).isEmpty = true ∨
          SameAnswers (parseKeyValueFallback definition (fence tagged s)) answers) := by
  obtain ⟨decoded, left, right, split, leftSpace, rightSpace⟩ := encodes
  have object := reads.decoded s answers decoded
  have cleanText : ch '`' ∉ trim s := fun member => clean ((trim_part s).subset member)
  have plain : extractAnswers json definition s = .ok (normalizeAnswers definition answers) := by
    rw [split]
    exact extractAnswers_object object decoded cleanText leftSpace rightSpace
  have wrapped : extractAnswers json definition (fence tagged s) =
      .ok (if (parseKeyValueFallback definition (fence tagged s)).isEmpty then normalizeAnswers definition answers
        else parseKeyValueFallback definition (fence tagged s)) :=
    extractAnswers_fence reads object decoded cleanText leftSpace rightSpace (congrArg (fence tagged) split)
  unfold FenceChangesNothing
  rw [wrapped, plain]
  constructor
  · rintro ⟨fenced, extracted, sameFenced, sameExtracted, unchanged, kept⟩
    cases sameFenced
    cases sameExtracted
    refine ⟨kept, ?_⟩
    by_cases empty : (parseKeyValueFallback definition (fence tagged s)).isEmpty = true
    · exact .inl empty
    · rw [if_neg empty] at unchanged
      exact .inr fun key => (unchanged key).trans (kept key)
  · rintro ⟨kept, found⟩
    refine ⟨_, _, rfl, rfl, ?_, kept⟩
    split
    · exact fun _ => rfl
    · rename_i nonempty
      rcases found with empty | same
      · exact absurd empty nonempty
      · exact fun key => (same key).trans (kept key).symm

section PrettyPrinted

omit [Platform]

def prettyAnna : KString := txt "\x7b\n  \"answers\": \x7b\n    \"name\": \"Anna\"\n  \x7d\n\x7d"

def anna : Answers := .ofPairs [(txt "name", txt "Anna")]

def oneTextJson (known : KString) (answers : Answers) : JsonParser where
  decodeFromString text := if text = known then some answers else none
  parseToJsonElement text := if text = known then
    some (.object [(txt "answers", .object (answers.entries.map fun entry => (entry.1, .primitive entry.2)))]) else none
  notAnObject _ := ⟨some (txt "Element is not a JsonObject")⟩

theorem oneTextJson_readsObjects (object : IsObjectText text) : ReadsObjects (oneTextJson text answers) where
  decoded := by
    intro other found decoded
    by_cases same : trim other = text
    · rw [same]
      exact object
    · simp [oneTextJson, same] at decoded
  parsed := by
    intro other members parsed
    by_cases same : trim other = text
    · rw [same]
      exact object
    · simp [oneTextJson, same] at parsed

theorem oneTextJson_encodes (object : IsObjectText text) : Encodes (oneTextJson text answers) answers text where
  decoded := by
    rw [object.trim_self]
    simp [oneTextJson]
  padded := ⟨[], [], by rw [object.trim_self, List.append_nil]; rfl, by simp, by simp⟩

def annaJson : JsonParser := oneTextJson prettyAnna anna

deriving instance DecidableEq for BraceScan

theorem prettyAnna_object : IsObjectText prettyAnna where
  braces := ⟨(prettyAnna.drop 1).dropLast, by decide +kernel⟩
  balanced := by decide +kernel

def extractedValue (outcome : Except Throwable Answers) (key : KString) : Option KString :=
  match outcome with
  | .ok found => found.get? key
  | .error _ => none

theorem fence_changes_value :
    letI := basicPlatform
    Encodes annaJson anna prettyAnna ∧ trimLlmEdgeArtifacts (txt "Anna") = txt "Anna" ∧
      ¬ FenceChangesNothing annaJson DefaultFormDefinitionProvider.questions anna prettyAnna (fence true prettyAnna) := by
  let characters := basicPlatform
  refine ⟨oneTextJson_encodes prettyAnna_object, by decide +kernel, ?_⟩
  have misread : extractedValue (extractAnswers annaJson DefaultFormDefinitionProvider.questions (fence true prettyAnna))
      (txt "name") = some (txt "\"Anna") := by decide +kernel
  have value : anna.get? (txt "name") = some (txt "Anna") := by decide +kernel
  have different : some (txt "Anna") ≠ some (txt "\"Anna") := by decide +kernel
  rintro ⟨fenced, extracted, wrapped, _, unchanged, kept⟩
  rw [wrapped] at misread
  have same := (unchanged (txt "name")).trans (kept (txt "name"))
  exact different (value.symm.trans (same.symm.trans misread))

end PrettyPrinted

end Android

end Form
