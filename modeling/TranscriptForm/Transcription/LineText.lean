import Mathlib.Tactic.Linarith
import TranscriptForm.Transcription.Whisper
import TranscriptForm.Kotlin.Utf8

namespace Transcription

open Kotlin Form

section Stamps

/-- A time below one hundred hours as a clock shows it. -/
structure Stamp where
  hours : Nat
  minutes : Nat
  seconds : Nat
  millis : Nat
  hours_lt : hours < 100
  minutes_lt : minutes < 60
  seconds_lt : seconds < 60
  millis_lt : millis < 1000

namespace Stamp

def text (stamp : Stamp) : KString :=
  zeroPadded 2 stamp.hours ++ (ch ':' :: (zeroPadded 2 stamp.minutes ++ (ch ':' :: (zeroPadded 2 stamp.seconds ++
    (ch '.' :: zeroPadded 3 stamp.millis)))))

def inSeconds (stamp : Stamp) : ℚ :=
  stamp.hours * 3600 + stamp.minutes * 60 + stamp.seconds + stamp.millis / 1000

def ofCentiseconds (t : Nat) (bound : t < 36000000) : Stamp where
  hours := t * 10 / 3600000
  minutes := t * 10 % 3600000 / 60000
  seconds := t * 10 % 60000 / 1000
  millis := t * 10 % 1000
  hours_lt := by omega
  minutes_lt := by omega
  seconds_lt := by omega
  millis_lt := by omega

theorem inSeconds_ofCentiseconds {t : Nat} (bound : t < 36000000) : (ofCentiseconds t bound).inSeconds = t / 100 := by
  have units : t * 10 / 3600000 * 3600000 + t * 10 % 3600000 / 60000 * 60000 + t * 10 % 60000 / 1000 * 1000 +
      t * 10 % 1000 = t * 10 := by omega
  have exact' : ((t * 10 / 3600000 : Nat) : ℚ) * 3600000 + ((t * 10 % 3600000 / 60000 : Nat) : ℚ) * 60000 +
      ((t * 10 % 60000 / 1000 : Nat) : ℚ) * 1000 + ((t * 10 % 1000 : Nat) : ℚ) = (t : ℚ) * 10 := by exact_mod_cast units
  simp only [inSeconds, ofCentiseconds]
  linarith

theorem no_delimiter {width n : Nat} : ∀ c ∈ zeroPadded width n, (txt ":.").contains c = false := by
  intro c member
  have digit := isAsciiDigit_zeroPadded c member
  rw [isAsciiDigit, Bool.and_eq_true, decide_eq_true_eq, decide_eq_true_eq] at digit
  rw [List.contains_eq_mem, decide_eq_false_iff_not]
  intro delimiter
  have colonOrDot : c = ch ':' ∨ c = ch '.' := by simpa [txt] using delimiter
  rcases colonOrDot with rfl | rfl
  · exact absurd digit (by decide)
  · exact absurd digit (by decide)

variable [DigitTable]

theorem number_zeroPadded {width n : Nat} (small : n ≤ 0x7FFFFFFF) :
    (((toIntOrNull (zeroPadded width n)).getD 0 : Int) : ℚ) = n := by
  rw [toIntOrNull_zeroPadded small]
  rfl

theorem parseTimestampSeconds_text (stamp : Stamp) : parseTimestampSeconds stamp.text = stamp.inSeconds := by
  have hours := stamp.hours_lt
  have minutes := stamp.minutes_lt
  have seconds := stamp.seconds_lt
  have millis := stamp.millis_lt
  have parts : stamp.text.splitOnP (txt ":.").contains =
      [zeroPadded 2 stamp.hours, zeroPadded 2 stamp.minutes, zeroPadded 2 stamp.seconds, zeroPadded 3 stamp.millis] := by
    rw [text, List.splitOnP_append_cons_of_forall_mem no_delimiter (ch ':') rfl,
      List.splitOnP_append_cons_of_forall_mem no_delimiter (ch ':') rfl,
      List.splitOnP_append_cons_of_forall_mem no_delimiter (ch '.') rfl, List.splitOnP_eq_singleton no_delimiter]
  rw [parseTimestampSeconds, parts]
  simp only []
  rw [number_zeroPadded (by omega), number_zeroPadded (by omega), number_zeroPadded (by omega),
    number_zeroPadded (by omega)]
  rfl

end Stamp

variable {t : Nat} (bound : t < 36000000)

theorem toTimestamp_text : WhisperContext.toTimestamp t = (Stamp.ofCentiseconds t bound).text := by
  have hr : ((t : Int) * 10).tdiv (1000 * 60 * 60) = ((t * 10 / 3600000 : Nat) : Int) := by
    rw [Int.tdiv_eq_ediv_of_nonneg (by omega)]
    omega
  have min : ((t : Int) * 10 - ((t * 10 / 3600000 : Nat) : Int) * (1000 * 60 * 60)).tdiv (1000 * 60) =
      ((t * 10 % 3600000 / 60000 : Nat) : Int) := by
    rw [Int.tdiv_eq_ediv_of_nonneg (by omega)]
    omega
  have sec : ((t : Int) * 10 - ((t * 10 / 3600000 : Nat) : Int) * (1000 * 60 * 60) -
      ((t * 10 % 3600000 / 60000 : Nat) : Int) * (1000 * 60)).tdiv 1000 = ((t * 10 % 60000 / 1000 : Nat) : Int) := by
    rw [Int.tdiv_eq_ediv_of_nonneg (by omega)]
    omega
  have msec : (t : Int) * 10 - ((t * 10 / 3600000 : Nat) : Int) * (1000 * 60 * 60) -
      ((t * 10 % 3600000 / 60000 : Nat) : Int) * (1000 * 60) - ((t * 10 % 60000 / 1000 : Nat) : Int) * 1000 =
        ((t * 10 % 1000 : Nat) : Int) := by
    omega
  simp only [WhisperContext.toTimestamp, hr, min, sec, msec, Stamp.text, Stamp.ofCentiseconds]
  simp [txt, List.append_assoc]

theorem formatWhisperTimestamp_text : IOSWhisperBridge.formatWhisperTimestamp t = (Stamp.ofCentiseconds t bound).text := by
  have hours : ((t : Int) * 10).tdiv 3600000 = ((t * 10 / 3600000 : Nat) : Int) := by
    rw [Int.tdiv_eq_ediv_of_nonneg (by omega)]
    omega
  have minutes : (((t : Int) * 10).tmod 3600000).tdiv 60000 = ((t * 10 % 3600000 / 60000 : Nat) : Int) := by
    rw [Int.tmod_eq_emod_of_nonneg (by omega), Int.tdiv_eq_ediv_of_nonneg (by omega)]
    omega
  have seconds : (((t : Int) * 10).tmod 60000).tdiv 1000 = ((t * 10 % 60000 / 1000 : Nat) : Int) := by
    rw [Int.tmod_eq_emod_of_nonneg (by omega), Int.tdiv_eq_ediv_of_nonneg (by omega)]
    omega
  have millis : ((t : Int) * 10).tmod 1000 = ((t * 10 % 1000 : Nat) : Int) := by
    rw [Int.tmod_eq_emod_of_nonneg (by omega)]
    omega
  simp only [IOSWhisperBridge.formatWhisperTimestamp, hours, minutes, seconds, millis, Stamp.text, Stamp.ofCentiseconds]
  simp [txt, List.append_assoc]

theorem stamp_of_time {t : Int} (nonneg : 0 ≤ t) (small : t < 36000000) : ∃ stamp : Stamp,
    WhisperContext.toTimestamp t = stamp.text ∧ IOSWhisperBridge.formatWhisperTimestamp t = stamp.text ∧
      stamp.inSeconds = t / 100 := by
  obtain ⟨n, rfl⟩ := Int.eq_ofNat_of_zero_le nonneg
  have natSmall : n < 36000000 := by omega
  exact ⟨Stamp.ofCentiseconds n natSmall, toTimestamp_text natSmall, formatWhisperTimestamp_text natSmall,
    Stamp.inSeconds_ofCentiseconds natSmall⟩

end Stamps

section Lines

open Regex (Takes)
open Pattern

def lineText (start stop : Stamp) (tail : KString) : KString :=
  txt "[" ++ (start.text ++ (txt " " ++ (txt "-->" ++ (txt " " ++ (stop.text ++ (txt "]:" ++ tail))))))

theorem trim_lineText (start stop : Stamp) {front right : KString} (spaces : ∀ c ∈ right, isWhitespace c = true)
    (last : ∀ c, front.getLast? = some c → isWhitespace c = false) :
    trim (lineText start stop (front ++ right)) = lineText start stop front := by
  have whole : lineText start stop (front ++ right) = [] ++ (lineText start stop front ++ right) := by simp [lineText]
  have padded : trim ([] ++ (lineText start stop front ++ right)) = trim (lineText start stop front) :=
    trimBy_padded (by simp) spaces _
  rw [whole, padded]
  apply trimBy_id
  · intro c head
    have bracket : ch '[' = c := Option.some.inj head
    rw [← bracket]
    rfl
  · intro c ending
    have place : lineText start stop front = txt "[" ++ (start.text ++ (txt " " ++ (txt "-->" ++ (txt " " ++
        (stop.text ++ txt "]"))))) ++ (ch ':' :: front) := by simp [lineText, txt]
    rw [place, List.getLast?_append_of_ne_nil _ (List.cons_ne_nil _ _), List.getLast?_cons] at ending
    cases found : front.getLast? with
    | none =>
      rw [found] at ending
      have colon : ch ':' = c := Option.some.inj ending
      rw [← colon]
      rfl
    | some d =>
      rw [found] at ending
      have same : d = c := Option.some.inj ending
      exact last c (by rw [found, same])

theorem Stamp.no_break (stamp : Stamp) : ∀ c ∈ stamp.text, isLineBreak c = false := by
  have number {width n : Nat} : ∀ c ∈ zeroPadded width n, isLineBreak c = false := by
    intro c member
    have digit := isAsciiDigit_zeroPadded c member
    rw [isAsciiDigit, Bool.and_eq_true, decide_eq_true_eq, decide_eq_true_eq] at digit
    by_contra ends
    rcases (isLineBreak_iff c).mp (by simpa using ends) with rfl | rfl
    · exact absurd digit (by decide)
    · exact absurd digit (by decide)
  simp only [Stamp.text, List.forall_mem_append, List.forall_mem_cons]
  exact ⟨number, rfl, number, rfl, number, rfl, number⟩

theorem isBlank_lineText (start stop : Stamp) (tail : KString) : isBlank (lineText start stop tail) = false := rfl

theorem trim_after_space (text : KString) : trim (ch ' ' :: text) = trim text := by
  have padded : trim ([ch ' '] ++ (text ++ [])) = trim text := trimBy_padded (List.forall_mem_singleton.mpr rfl) (by simp) _
  rwa [List.append_nil] at padded

theorem whitespace_swift {c : KChar} (space : Swift.isWhitespaceOrNewline c.toNat = true) :
    isWhitespace c = true ∨ c.toNat = 0x85 := by
  simp only [Swift.isWhitespaceOrNewline, Bool.or_eq_true, Bool.and_eq_true, decide_eq_true_eq, beq_iff_eq] at space
  simp only [isWhitespace, isWhitespaceCode, Bool.or_eq_true, Bool.and_eq_true, decide_eq_true_eq, beq_iff_eq]
  omega

theorem split_spaces (s : KString) : ∃ front right, s = front ++ right ∧ (∀ c ∈ right, isWhitespace c = true) ∧
    ∀ c, front.getLast? = some c → isWhitespace c = false := by
  refine ⟨s.rdropWhile isWhitespace, s.rtakeWhile isWhitespace, List.rdropWhile_append_rtakeWhile.symm,
    fun c member => List.mem_rtakeWhile_imp member, ?_⟩
  intro c ending
  have nonempty : s.rdropWhile isWhitespace ≠ [] := by
    intro empty
    rw [empty] at ending
    cases ending
  have last := List.rdropWhile_last_not isWhitespace s nonempty
  rw [List.getLast?_eq_some_getLast nonempty] at ending
  rw [Option.some.inj ending] at last
  simpa using last

variable [Platform]

/-- No code point ends a line, neither for a regular expression nor by the Unicode standard. -/
def FreeOfLineEnds (text : KString) : Prop := ∀ code ∈ codePoints text, Platform.isLineEnd code = false ∧ code ≠ 0x85

namespace FreeOfLineEnds

variable {text : KString}

theorem unit (free : FreeOfLineEnds text) {c : KChar} (plain : IsPlain c) (member : c ∈ text) :
    Platform.isLineEnd c.toNat = false ∧ c.toNat ≠ 0x85 :=
  free c.toNat (mem_codePoints plain member)

theorem no_break (free : FreeOfLineEnds text) : ∀ c ∈ text, isLineBreak c = false := by
  intro c member
  by_contra ends
  have newline := Platform.isLineEnd_newline
  rcases (isLineBreak_iff c).mp (by simpa using ends) with rfl | rfl
  · have other := (free.unit (isPlain_ascii (by decide)) member).1
    rw [show (ch '\n').toNat = 0x0A from rfl, newline.1] at other
    cases other
  · have other := (free.unit (isPlain_ascii (by decide)) member).1
    rw [show (ch '\r').toNat = 0x0D from rfl, newline.2] at other
    cases other

theorem left {right : KString} (free : FreeOfLineEnds (text ++ right)) (plain : ∀ c ∈ right, IsPlain c) :
    FreeOfLineEnds text := by
  intro code member
  apply free code
  rw [codePoints_plain_append _ plain]
  exact List.mem_append_left _ member

theorem right {left : KString} (free : FreeOfLineEnds (left ++ text)) (plain : ∀ c ∈ left, IsPlain c) :
    FreeOfLineEnds text := by
  intro code member
  apply free code
  rw [codePoints_append_plain _ plain]
  exact List.mem_append_right _ member

theorem isWhitespace_isSpace (free : FreeOfLineEnds text) {c : KChar} (member : c ∈ text)
    (space : Platform.isSpace c.toNat = true) : isWhitespace c = true := by
  rcases Platform.isSpace_whitespace c.toNat space with white | next
  · exact white
  · have plain : IsPlain c := by simp [IsPlain, next, isSurrogate]
    exact absurd next (free.unit plain member).2

theorem after_space {text : KString} (free : FreeOfLineEnds text) : FreeOfLineEnds (ch ' ' :: text) := by
  have space : Platform.isLineEnd 0x20 = false := by
    rw [Bool.eq_false_iff]
    intro ends
    have bounds := Platform.isLineEnd_ascii 0x20 (by decide) ends
    omega
  have codes : codePoints ([ch ' '] ++ text) = [0x20] ++ codePoints text := codePoints_append_plain _ (plain_of_all rfl)
  intro code member
  rw [← List.singleton_append, codes] at member
  rcases List.mem_cons.mp member with rfl | later
  · exact ⟨space, by decide⟩
  · exact free code later

end FreeOfLineEnds

theorem takes_number {width n : Nat} (some : 0 < width) (fits : n < 10 ^ width) (rest : KString) :
    Takes utf16 (between width width digit) rest (zeroPadded width n) [] := by
  have digits : Takes utf16 (between (zeroPadded width n).length (zeroPadded width n).length digit) rest
      (zeroPadded width n) [] := takes_digits isAsciiDigit_zeroPadded rest
  rwa [length_zeroPadded some fits] at digits

theorem takes_timestamp (stamp : Stamp) (rest : KString) : Takes utf16 timestampPattern rest stamp.text [] := by
  have hours := stamp.hours_lt
  have minutes := stamp.minutes_lt
  have seconds := stamp.seconds_lt
  have millis := stamp.millis_lt
  have whole : Takes utf16 timestampPattern rest _ _ :=
    .seq (takes_number (n := stamp.hours) (by omega) (by omega) _) <| .seq (takes_lit (plain_of_all rfl) _) <|
    .seq (takes_number (n := stamp.minutes) (by omega) (by omega) _) <| .seq (takes_lit (plain_of_all rfl) _) <|
    .seq (takes_number (n := stamp.seconds) (by omega) (by omega) _) <| .seq (takes_lit (plain_of_all rfl) _) <|
    .seq (takes_number (n := stamp.millis) (by omega) (by omega) _) .empty
  simpa [Stamp.text, txt] using whole

theorem Stamp.text_starts (stamp : Stamp) (rest : KString) :
    ∀ c, (stamp.text ++ rest).head? = some c → Platform.isSpace c.toNat = false := by
  intro c head
  have hours := stamp.hours_lt
  have length : (zeroPadded 2 stamp.hours).length = 2 := length_zeroPadded (by omega) (by omega)
  obtain ⟨first, others, shape⟩ := List.exists_cons_of_length_eq_add_one length
  rw [Stamp.text, shape] at head
  have first_is : first = c := Option.some.inj head
  have digit := isAsciiDigit_zeroPadded c (by rw [shape, first_is]; exact List.mem_cons_self)
  rw [isAsciiDigit, Bool.and_eq_true, decide_eq_true_eq, decide_eq_true_eq] at digit
  exact isSpace_other (by omega) (by omega)

theorem takes_space {rest : KString} (stops : ∀ c, rest.head? = some c → Platform.isSpace c.toNat = false) :
    Takes utf16 (star space) rest (txt " ") [] := by
  apply takes_spaces _ stops
  intro c member
  rw [List.mem_singleton.mp member]
  exact (Platform.isSpace_ascii 0x20 (by decide)).mpr (Or.inr rfl)

theorem takes_lineRest (start stop : Stamp) {spaces heard : KString}
    (all : ∀ c ∈ spaces, Platform.isSpace c.toNat = true)
    (stops : ∀ c, heard.head? = some c → Platform.isSpace c.toNat = false)
    (free : ∀ code ∈ codePoints heard, Platform.isLineEnd code = false) :
    Takes utf16 (concat lineRest) [] (lineText start stop (spaces ++ heard))
      [(3, heard), (2, stop.text), (1, start.text)] := by
  have text : Takes utf16 (.group 3 (star anyChar)) ([] ++ [] ++ []) heard [(3, heard)] := (takes_line free).group 3
  have ending : Takes utf16 (concat [.group 3 (star anyChar), textEnd]) [] (heard ++ ([] ++ [])) [(3, heard)] :=
    text.seq (.seq (.look fun before => rfl) .empty)
  rw [List.append_nil, List.append_nil] at ending
  have tail : Takes utf16 (concat (lit "]:" :: star space :: [.group 3 (star anyChar), textEnd])) []
      (txt "]:" ++ (spaces ++ heard)) [(3, heard)] := by
    have first : Takes utf16 (star space) (heard ++ []) spaces [] :=
      takes_spaces all (by rwa [List.append_nil])
    exact (takes_lit (plain_of_all rfl) _).seq (first.seq ending)
  have second : Takes utf16 (concat (star space :: .group 2 timestampPattern :: lit "]:" :: star space ::
      [.group 3 (star anyChar), textEnd])) [] (txt " " ++ (stop.text ++ (txt "]:" ++ (spaces ++ heard))))
        [(3, heard), (2, stop.text)] := by
    have space : Takes utf16 (star Pattern.space) (stop.text ++ (txt "]:" ++ (spaces ++ heard)) ++ []) (txt " ") [] :=
      takes_space (by rw [List.append_assoc]; exact stop.text_starts _)
    exact space.seq (((takes_timestamp stop _).group 2).seq tail)
  have arrow : Takes utf16 (star space) (txt "-->" ++ (txt " " ++ (stop.text ++ (txt "]:" ++ (spaces ++ heard)))) ++ [])
      (txt " ") [] := by
    apply takes_space
    intro c head
    have dash : ch '-' = c := Option.some.inj head
    rw [← dash]
    exact isSpace_other (by decide) (by decide)
  exact (takes_lit (plain_of_all rfl) _).seq (((takes_timestamp start _).group 1).seq
    (arrow.seq ((takes_lit (plain_of_all rfl) _).seq second)))

theorem lineText_found (start stop : Stamp) {tail : KString} (free : FreeOfLineEnds tail) :
    ∃ heard, trim heard = trim tail ∧
      matchEntire linePattern (lineText start stop tail) =
        some ⟨[], lineText start stop tail, [], [(3, heard), (2, stop.text), (1, start.text)]⟩ ∧
      find linePattern (lineText start stop tail) =
        some ⟨[], lineText start stop tail, [], [(3, heard), (2, stop.text), (1, start.text)]⟩ := by
  let isSpace (c : KChar) : Bool := Platform.isSpace c.toNat
  have split : tail.takeWhile isSpace ++ tail.dropWhile isSpace = tail := List.takeWhile_append_dropWhile
  have spaces : ∀ c ∈ tail.takeWhile isSpace, Platform.isSpace c.toNat = true := by
    intro c member
    have accepted : isSpace c = true := List.mem_takeWhile_imp member
    exact accepted
  have white : ∀ c ∈ tail.takeWhile isSpace, isWhitespace c = true := fun c member =>
    free.isWhitespace_isSpace (by rw [← split]; exact List.mem_append_left _ member) (spaces c member)
  have stops : ∀ c, (tail.dropWhile isSpace).head? = some c → Platform.isSpace c.toNat = false := by
    intro c head
    have kept := List.head?_dropWhile_not isSpace tail
    rw [head] at kept
    simpa [isSpace] using kept
  have heardFree : FreeOfLineEnds (tail.dropWhile isSpace) := by
    rw [← split] at free
    exact free.right fun c member => whitespace_plain (white c member)
  have takes := takes_lineRest start stop spaces stops fun code member => (heardFree code member).1
  rw [split] at takes
  have head : (Regex.results utf16 linePattern ⟨[], lineText start stop tail, []⟩).head? = some
      (Regex.Cursor.capturing ⟨[], lineText start stop tail, []⟩
        [(3, tail.dropWhile isSpace), (2, stop.text), (1, start.text)] (lineText start stop tail) []) := by
    have begins : Regex.results utf16 textStart ⟨[], lineText start stop tail, []⟩ =
        [⟨[], lineText start stop tail, []⟩] := rfl
    apply Regex.head?_results_seq_of_head (by rw [begins]; rfl)
    exact takes _ (List.append_nil _).symm
  refine ⟨tail.dropWhile isSpace, ?_, Regex.matchEntire_of_head head rfl, Regex.find_of_head head rfl⟩
  have padded : trim (tail.takeWhile isSpace ++ (tail.dropWhile isSpace ++ [])) = trim (tail.dropWhile isSpace) :=
    trimBy_padded white (by simp) _
  rw [List.append_nil, split] at padded
  exact padded.symm

theorem lineText_no_break (start stop : Stamp) {tail : KString} (free : FreeOfLineEnds tail) :
    ∀ c ∈ lineText start stop tail, isLineBreak c = false := by
  have literal {literal : String} (all : (txt literal).all (fun c => !isLineBreak c) = true) :
      ∀ c ∈ txt literal, isLineBreak c = false := by
    intro c member
    simpa using List.all_eq_true.mp all c member
  simp only [lineText, List.forall_mem_append]
  exact ⟨literal rfl, start.no_break, literal rfl, literal rfl, literal rfl, stop.no_break, literal rfl, free.no_break⟩

variable [DigitTable]

def appendSpoken (segments : List TranscriptSegment) (segment : WhisperSegment) : List TranscriptSegment :=
  appendSegment segments (segment.t0 / 100) (segment.t1 / 100) (trim segment.text)

structure ReadsAs (line : KString) (segment : WhisperSegment) : Prop where
  no_break : ∀ c ∈ line, isLineBreak c = false
  not_blank : isBlank line = false
  android : ∀ segments index, Android.parseLine segments (trim line, index) = appendSpoken segments segment
  ios : ∀ segments, Ios.parseLine segments (trim line) = appendSpoken segments segment

theorem readsAs_lineText {start stop : Stamp} {segment : WhisperSegment} {tail : KString}
    (starts : start.inSeconds = segment.t0 / 100) (stops : stop.inSeconds = segment.t1 / 100)
    (free : FreeOfLineEnds tail) (same : trim tail = trim segment.text) :
    ReadsAs (lineText start stop tail) segment := by
  obtain ⟨front, right, rfl, spaces, last⟩ := split_spaces tail
  have trimmed := trim_lineText start stop spaces last
  have frontFree : FreeOfLineEnds front := free.left fun c member => whitespace_plain (spaces c member)
  have frontTrim : trim (front ++ right) = trim front := by
    have padded : trim ([] ++ (front ++ right)) = trim front := trimBy_padded (by simp) spaces front
    exact padded
  obtain ⟨heard, heardTrim, entire, found⟩ := lineText_found start stop frontFree
  have text : trim heard = trim segment.text := by rw [heardTrim, ← frontTrim, same]
  have startTime : parseTimestampSeconds start.text = segment.t0 / 100 := by rw [start.parseTimestampSeconds_text, starts]
  have stopTime : parseTimestampSeconds stop.text = segment.t1 / 100 := by rw [stop.parseTimestampSeconds_text, stops]
  refine ⟨lineText_no_break start stop free, isBlank_lineText start stop _, ?_, ?_⟩
  · intro segments index
    simp only [Android.parseLine, trimmed, entire]
    show appendSegment segments (parseTimestampSeconds start.text) (parseTimestampSeconds stop.text) (trim heard) = _
    rw [startTime, stopTime, text]
    rfl
  · intro segments
    simp only [Ios.parseLine, trimmed, found]
    show appendSegment segments (parseTimestampSeconds start.text) (parseTimestampSeconds stop.text) (trim heard) = _
    rw [startTime, stopTime, text]
    rfl

end Lines

end Transcription
