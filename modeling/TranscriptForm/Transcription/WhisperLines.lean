import TranscriptForm.Transcription.LineText

namespace Transcription

open Kotlin Form

section Bridges

variable [Platform]

/-- Times below one hundred hours and a text of one line. -/
structure Renderable (segment : WhisperSegment) : Prop where
  t0_nonneg : 0 ≤ segment.t0
  t0_lt : segment.t0 < 36000000
  t1_nonneg : 0 ≤ segment.t1
  t1_lt : segment.t1 < 36000000
  text : FreeOfLineEnds segment.text

def transcribedLine (segment : WhisperSegment) : KString :=
  txt "[" ++ WhisperContext.toTimestamp segment.t0 ++ txt " --> " ++ WhisperContext.toTimestamp segment.t1 ++ txt "]" ++
    txt ": " ++ segment.text

def bridgedLine (segment : WhisperSegment) : KString :=
  txt "[" ++ IOSWhisperBridge.formatWhisperTimestamp segment.t0 ++ txt " --> " ++
    IOSWhisperBridge.formatWhisperTimestamp segment.t1 ++ txt "]: " ++ Swift.trimmingCharacters segment.text

theorem FreeOfLineEnds.whitespace_swift {text : KString} (free : FreeOfLineEnds text) {c : KChar} (member : c ∈ text)
    (space : Swift.isWhitespaceOrNewline c.toNat = true) : isWhitespace c = true := by
  rcases Transcription.whitespace_swift space with white | next
  · exact white
  · have plain : IsPlain c := by simp [IsPlain, next, isSurrogate]
    exact absurd next (free.unit plain member).2

theorem FreeOfLineEnds.trimmed {text : KString} (free : FreeOfLineEnds text) :
    FreeOfLineEnds (Swift.trimmingCharacters text) ∧ trim (Swift.trimmingCharacters text) = trim text := by
  obtain ⟨left, right, split, leftSpaces, rightSpaces⟩ :
      ∃ left right, text = left ++ Swift.trimmingCharacters text ++ right ∧
        (∀ c ∈ left, Swift.isWhitespaceOrNewline c.toNat = true) ∧
          ∀ c ∈ right, Swift.isWhitespaceOrNewline c.toNat = true := trimBy_split text
  have leftWhite : ∀ c ∈ left, isWhitespace c = true := fun c member =>
    free.whitespace_swift (by rw [split]; simp [member]) (leftSpaces c member)
  have rightWhite : ∀ c ∈ right, isWhitespace c = true := fun c member =>
    free.whitespace_swift (by rw [split]; simp [member]) (rightSpaces c member)
  rw [split] at free
  have inner := (free.left fun c member => whitespace_plain (rightWhite c member)).right fun c member =>
    whitespace_plain (leftWhite c member)
  have padded : trim (left ++ (Swift.trimmingCharacters text ++ right)) = trim (Swift.trimmingCharacters text) :=
    trimBy_padded leftWhite rightWhite _
  rw [← List.append_assoc, ← split] at padded
  exact ⟨inner, padded.symm⟩

variable [DigitTable] {segment : WhisperSegment}

theorem transcribedLine_reads (renderable : Renderable segment) : ReadsAs (transcribedLine segment) segment := by
  obtain ⟨start, startText, _, starts⟩ := stamp_of_time renderable.t0_nonneg renderable.t0_lt
  obtain ⟨stop, stopText, _, stops⟩ := stamp_of_time renderable.t1_nonneg renderable.t1_lt
  have line : transcribedLine segment = lineText start stop (ch ' ' :: segment.text) := by
    simp [transcribedLine, lineText, startText, stopText, txt]
  rw [line]
  exact readsAs_lineText starts stops renderable.text.after_space (trim_after_space segment.text)

theorem bridgedLine_reads (renderable : Renderable segment) : ReadsAs (bridgedLine segment) segment := by
  obtain ⟨start, _, startText, starts⟩ := stamp_of_time renderable.t0_nonneg renderable.t0_lt
  obtain ⟨stop, _, stopText, stops⟩ := stamp_of_time renderable.t1_nonneg renderable.t1_lt
  obtain ⟨free, same⟩ := renderable.text.trimmed
  have line : bridgedLine segment = lineText start stop (ch ' ' :: Swift.trimmingCharacters segment.text) := by
    simp [bridgedLine, lineText, startText, stopText, txt]
  rw [line]
  apply readsAs_lineText starts stops free.after_space
  rw [trim_after_space, same]

end Bridges

section Parsing

def spokenFrom (n : Nat) (segments : List WhisperSegment) : List TranscriptSegment :=
  ((segments.filter fun segment => isNotBlank segment.text).zipIdx n).map fun (segment, i) =>
    ⟨i, trim segment.text, segment.t0 / 100, segment.t1 / 100, txt "SPEAKER_00"⟩

def spokenSegments (segments : List WhisperSegment) : List TranscriptSegment := spokenFrom 0 segments

theorem foldl_appendSpoken (segments : List WhisperSegment) (collected : List TranscriptSegment) :
    segments.foldl appendSpoken collected = collected ++ spokenFrom collected.length segments := by
  induction segments generalizing collected with
  | nil => exact (List.append_nil collected).symm
  | cons segment segments ih =>
    rw [List.foldl_cons, ih]
    by_cases blank : isBlank segment.text = true
    · have same : appendSpoken collected segment = collected := if_pos (by rw [isBlank_trim]; exact blank)
      have skipped : spokenFrom collected.length (segment :: segments) = spokenFrom collected.length segments := by
        simp [spokenFrom, isNotBlank, blank]
      rw [same, skipped]
    · have more : appendSpoken collected segment = collected ++
          [⟨collected.length, trim segment.text, segment.t0 / 100, segment.t1 / 100, txt "SPEAKER_00"⟩] :=
        if_neg (by rw [isBlank_trim]; exact blank)
      have listed : spokenFrom collected.length (segment :: segments) =
          ⟨collected.length, trim segment.text, segment.t0 / 100, segment.t1 / 100, txt "SPEAKER_00"⟩ ::
            spokenFrom (collected.length + 1) segments := by
        simp [spokenFrom, isNotBlank, blank]
      rw [more, listed, List.length_append, List.append_assoc]
      rfl

theorem of_trimmedLines (parse : List KString → List TranscriptSegment) (empty : parse [] = []) (raw : KString) :
    (if isBlank raw then [] else parse (trimmedLines raw)) = parse (trimmedLines raw) := by
  split
  · rename_i blank
    have lines : trimmedLines ([] ++ raw) = trimmedLines [] := trimmedLines_right ((isBlank_iff raw).mp blank) []
    rw [List.nil_append] at lines
    rw [lines]
    exact empty.symm
  · rfl

theorem transcribeData_lines (segments : List WhisperSegment) : WhisperContext.transcribeData segments =
    segments.flatMap fun segment => transcribedLine segment ++ txt "\n" := rfl

theorem transcribeWithWhisperModule_lines (segments : List WhisperSegment) :
    IOSWhisperBridge.transcribeWithWhisperModule segments = joinToString (txt "\n")
      ((segments.filter fun segment => !(Swift.trimmingCharacters segment.text).isEmpty).map bridgedLine) := by
  rw [IOSWhisperBridge.transcribeWithWhisperModule]
  congr 1
  induction segments with
  | nil => rfl
  | cons segment segments ih =>
    by_cases empty : (Swift.trimmingCharacters segment.text).isEmpty = true
    · rw [List.filter_cons_of_neg (by simpa using empty), ← ih, List.filterMap_cons]
      simp only [empty, if_true]
    · rw [List.filter_cons_of_pos (by simpa using empty), List.map_cons, ← ih, List.filterMap_cons]
      simp only [empty]
      rfl

variable [Platform] {line : WhisperSegment → KString} {segments : List WhisperSegment}

theorem spokenSegments_kept (renderable : ∀ segment ∈ segments, Renderable segment) :
    spokenSegments (segments.filter fun segment => !(Swift.trimmingCharacters segment.text).isEmpty) =
      spokenSegments segments := by
  have same : (segments.filter fun segment => !(Swift.trimmingCharacters segment.text).isEmpty).filter
      (fun segment => isNotBlank segment.text) = segments.filter fun segment => isNotBlank segment.text := by
    rw [List.filter_filter]
    apply List.filter_congr
    intro segment member
    have trimmed := (renderable segment member).text.trimmed.2
    by_cases empty : (Swift.trimmingCharacters segment.text).isEmpty = true
    · rw [List.isEmpty_iff.mp empty] at trimmed
      have blank : isBlank segment.text = true := by rw [← isBlank_trim, ← trimmed]; rfl
      simp [isNotBlank, blank]
    · simp [empty]
  rw [spokenSegments, spokenFrom, same]
  rfl

variable [DigitTable]

theorem nonBlankTrimmed_reads {segment : WhisperSegment} (reads : ReadsAs (line segment) segment) :
    nonBlankTrimmed [line segment] = [trim (line segment)] := by
  rw [nonBlankTrimmed_single, reads.not_blank]
  rfl

section Raw

variable (reads : ∀ segment ∈ segments, ReadsAs (line segment) segment)
include reads

theorem android_parse {raw : KString} (lines : trimmedLines raw = segments.map fun segment => trim (line segment)) :
    Android.parseWhisperSegments raw = spokenSegments segments := by
  have parsed (index : Nat) (collected : List TranscriptSegment) :
      ((segments.map fun segment => trim (line segment)).zipIdx index).foldl Android.parseLine collected =
        segments.foldl appendSpoken collected := by
    clear lines
    induction segments generalizing index collected with
    | nil => rfl
    | cons segment segments ih =>
      obtain ⟨here, later⟩ := List.forall_mem_cons.mp reads
      rw [List.map_cons, List.zipIdx_cons, List.foldl_cons, List.foldl_cons, here.android]
      exact ih later _ _
  have whole : Android.parseWhisperSegments raw = (trimmedLines raw).zipIdx.foldl Android.parseLine [] :=
    of_trimmedLines (fun lines => lines.zipIdx.foldl Android.parseLine []) rfl raw
  rw [whole, lines, parsed, foldl_appendSpoken]
  rfl

theorem ios_parse {raw : KString} (lines : trimmedLines raw = segments.map fun segment => trim (line segment)) :
    Ios.parseWhisperSegments raw = spokenSegments segments := by
  have parsed (collected : List TranscriptSegment) :
      (segments.map fun segment => trim (line segment)).foldl Ios.parseLine collected =
        segments.foldl appendSpoken collected := by
    clear lines
    induction segments generalizing collected with
    | nil => rfl
    | cons segment segments ih =>
      obtain ⟨here, later⟩ := List.forall_mem_cons.mp reads
      rw [List.map_cons, List.foldl_cons, List.foldl_cons, here.ios]
      exact ih later _
  have whole : Ios.parseWhisperSegments raw = (trimmedLines raw).foldl Ios.parseLine [] :=
    of_trimmedLines (fun lines => lines.foldl Ios.parseLine []) rfl raw
  rw [whole, lines, parsed, foldl_appendSpoken]
  rfl

theorem trimmedLines_ended : trimmedLines (segments.flatMap fun segment => line segment ++ txt "\n") =
    segments.map fun segment => trim (line segment) := by
  induction segments with
  | nil => exact trimmedLines_nil
  | cons segment segments ih =>
    obtain ⟨here, later⟩ := List.forall_mem_cons.mp reads
    have text : (segment :: segments).flatMap (fun segment => line segment ++ txt "\n") =
        line segment ++ ch '\n' :: segments.flatMap fun segment => line segment ++ txt "\n" := by
      simp [txt]
    rw [text, trimmedLines_line here.no_break, nonBlankTrimmed_reads here, ih later]
    rfl

theorem trimmedLines_joined : trimmedLines (joinToString (txt "\n") (segments.map line)) =
    segments.map fun segment => trim (line segment) := by
  induction segments with
  | nil => exact trimmedLines_nil
  | cons segment segments ih =>
    obtain ⟨here, later⟩ := List.forall_mem_cons.mp reads
    cases segments with
    | nil =>
      rw [List.map_singleton, joinToString_single, trimmedLines_single here.no_break, nonBlankTrimmed_reads here]
      rfl
    | cons next segments =>
      have joined := ih later
      rw [List.map_cons] at joined
      rw [List.map_cons, List.map_cons, joinToString_cons_cons]
      have cut := trimmedLines_line here.no_break (joinToString (txt "\n") (line next :: segments.map line))
      rw [nonBlankTrimmed_reads here, joined] at cut
      exact cut

end Raw

theorem android_parse_transcribed (renderable : ∀ segment ∈ segments, Renderable segment) {raw : KString}
    (same : trimmedLines raw = trimmedLines (WhisperContext.transcribeData segments)) :
    Android.parseWhisperSegments raw = spokenSegments segments := by
  have reads : ∀ segment ∈ segments, ReadsAs (transcribedLine segment) segment := fun segment member =>
    transcribedLine_reads (renderable segment member)
  rw [transcribeData_lines, trimmedLines_ended reads] at same
  exact android_parse reads same

theorem ios_parse_bridged (renderable : ∀ segment ∈ segments, Renderable segment) {raw : KString}
    (same : trimmedLines raw = trimmedLines (IOSWhisperBridge.transcribeWithWhisperModule segments)) :
    Ios.parseWhisperSegments raw = spokenSegments segments := by
  have reads : ∀ segment ∈ segments.filter fun segment => !(Swift.trimmingCharacters segment.text).isEmpty,
      ReadsAs (bridgedLine segment) segment := fun segment member =>
    bridgedLine_reads (renderable segment (List.mem_of_mem_filter member))
  rw [transcribeWithWhisperModule_lines, trimmedLines_joined reads] at same
  rw [ios_parse reads same, spokenSegments_kept renderable]

/-- What a bridge renders is parsed back, as it is or trimmed as the repositories do. -/
theorem whisperLines_roundTrip (renderable : ∀ segment ∈ segments, Renderable segment) :
    Android.parseWhisperSegments (WhisperContext.transcribeData segments) = spokenSegments segments ∧
      Android.parseWhisperSegments (trim (WhisperContext.transcribeData segments)) = spokenSegments segments ∧
      Ios.parseWhisperSegments (IOSWhisperBridge.transcribeWithWhisperModule segments) = spokenSegments segments ∧
      Ios.parseWhisperSegments (trim (IOSWhisperBridge.transcribeWithWhisperModule segments)) =
        spokenSegments segments := by
  refine ⟨android_parse_transcribed renderable rfl, android_parse_transcribed renderable ?_,
    ios_parse_bridged renderable rfl, ios_parse_bridged renderable ?_⟩
  · exact trimmedLines_trim (WhisperContext.transcribeData segments)
  · exact trimmedLines_trim (IOSWhisperBridge.transcribeWithWhisperModule segments)

end Parsing

section Sample

theorem renderable_of_all [Platform] {segments : List WhisperSegment}
    (times : (segments.all fun segment => 0 ≤ segment.t0 && segment.t0 < 36000000 && 0 ≤ segment.t1 &&
      segment.t1 < 36000000) = true)
    (clean : (segments.all fun segment => (codePoints segment.text).all fun code =>
      !Platform.isLineEnd code && code != 0x85) = true) : ∀ segment ∈ segments, Renderable segment := by
  intro segment member
  have bounds := List.all_eq_true.mp times segment member
  simp only [Bool.and_eq_true, decide_eq_true_eq] at bounds
  refine ⟨bounds.1.1.1, bounds.1.1.2, bounds.1.2, bounds.2, ?_⟩
  intro code inside
  have both := List.all_eq_true.mp (List.all_eq_true.mp clean segment member) code inside
  simpa using both

/-- A text between blanks, one of blanks only, and a carry from the hundredths up to the hours. -/
def sampleSegments : List WhisperSegment :=
  [⟨0, 35999999, txt " Grüß Gott "⟩, ⟨35999999, 35999999, txt "  "⟩, ⟨359999, 360001, txt "Anna"⟩]

theorem whisperLines_roundTrip_sample :
    letI := basicPlatform
    letI := asciiDigits
    Android.parseWhisperSegments (WhisperContext.transcribeData sampleSegments) = spokenSegments sampleSegments := by
  let _ := basicPlatform
  let _ := asciiDigits
  have renderable : ∀ segment ∈ sampleSegments, Renderable segment := renderable_of_all (by decide) (by decide)
  exact (whisperLines_roundTrip renderable).1

end Sample

end Transcription
