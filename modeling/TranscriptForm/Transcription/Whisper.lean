import TranscriptForm.Form.Models
import TranscriptForm.Kotlin.FirstMatch
import TranscriptForm.Kotlin.Lines
import TranscriptForm.Kotlin.Numbers
import TranscriptForm.Swift.Strings

-- Both platforms hand the segments of whisper.cpp over as lines of text and parse these again.
namespace Transcription

open Kotlin Form

/-- A segment of `whisper_full`, its times in hundredths of a second. -/
structure WhisperSegment where
  t0 : Int
  t1 : Int
  text : KString
  deriving DecidableEq

namespace WhisperContext

/-- For times whose milliseconds fit a `Long`. -/
def toTimestamp (t : Int) (comma : Bool := false) : KString :=
  let msec := t * 10
  let hr := msec.tdiv (1000 * 60 * 60)
  let msec := msec - hr * (1000 * 60 * 60)
  let min := msec.tdiv (1000 * 60)
  let msec := msec - min * (1000 * 60)
  let sec := msec.tdiv 1000
  let msec := msec - sec * 1000
  let delimiter := if comma then txt "," else txt "."
  zeroPadded 2 hr ++ txt ":" ++ zeroPadded 2 min ++ txt ":" ++ zeroPadded 2 sec ++ delimiter ++ zeroPadded 3 msec

/-- `transcribeData` after `fullTranscribe` found these segments. -/
def transcribeData (segments : List WhisperSegment) (printTimestamp : Bool := true) : KString :=
  segments.flatMap fun segment =>
    if printTimestamp then
      let textTimestamp := txt "[" ++ toTimestamp segment.t0 ++ txt " --> " ++ toTimestamp segment.t1 ++ txt "]"
      textTimestamp ++ txt ": " ++ segment.text ++ txt "\n"
    else segment.text

end WhisperContext

namespace IOSWhisperBridge

def formatWhisperTimestamp (centiseconds : Int) : KString :=
  let totalMillis := centiseconds * 10
  let hours := totalMillis.tdiv 3600000
  let minutes := (totalMillis.tmod 3600000).tdiv 60000
  let seconds := (totalMillis.tmod 60000).tdiv 1000
  let millis := totalMillis.tmod 1000
  zeroPadded 2 hours ++ txt ":" ++ zeroPadded 2 minutes ++ txt ":" ++ zeroPadded 2 seconds ++ txt "." ++
    zeroPadded 3 millis

/-- `transcribeWithWhisperModule` after `whisper_full` found these segments. -/
def transcribeWithWhisperModule (segments : List WhisperSegment) : KString :=
  joinToString (txt "\n") (segments.filterMap fun segment =>
    let text := Swift.trimmingCharacters segment.text
    if text.isEmpty then none
    else
      let start := formatWhisperTimestamp segment.t0
      let stop := formatWhisperTimestamp segment.t1
      some (txt "[" ++ start ++ txt " --> " ++ stop ++ txt "]: " ++ text))

end IOSWhisperBridge

section Parser

variable [Platform]

open Pattern

/-- `\d{2}:\d{2}:\d{2}\.\d{3}` -/
def timestampPattern : Pattern :=
  concat [between 2 2 digit, lit ":", between 2 2 digit, lit ":", between 2 2 digit, lit ".", between 3 3 digit]

/-- `\[(…)\s*-->\s*(…)\]:\s*(.*)$` -/
def lineRest : List Pattern :=
  [lit "[", .group 1 timestampPattern, star space, lit "-->", star space, .group 2 timestampPattern, lit "]:", star space,
    .group 3 (star anyChar), textEnd]

def linePattern : Pattern := concat (textStart :: lineRest)

variable [DigitTable]

def parseTimestampSeconds (value : KString) : ℚ :=
  match value.splitOnP (txt ":.").contains with
  | [hours, minutes, seconds, millis] =>
    let number (part : KString) : ℚ := (toIntOrNull part).getD 0
    number hours * 3600 + number minutes * 60 + number seconds + number millis / 1000
  | _ => 0

def appendSegment (segments : List TranscriptSegment) (startSeconds endSeconds : ℚ) (text : KString) :
    List TranscriptSegment :=
  if isBlank text then segments
  else segments ++ [⟨segments.length, text, startSeconds, endSeconds, txt "SPEAKER_00"⟩]

namespace Android

def parseLine (segments : List TranscriptSegment) (line : KString × Nat) : List TranscriptSegment :=
  match matchEntire linePattern line.1 with
  | none => segments ++ [{ id := line.2, text := line.1, speaker := txt "SPEAKER_00" }]
  | some matcher =>
    let startSeconds := parseTimestampSeconds ((matcher.group 1).getD (txt "00:00:00.000"))
    let endSeconds := parseTimestampSeconds ((matcher.group 2).getD (txt "00:00:00.000"))
    appendSegment segments startSeconds endSeconds (trim ((matcher.group 3).getD []))

def parseWhisperSegments (raw : KString) : List TranscriptSegment :=
  if isBlank raw then [] else (trimmedLines raw).zipIdx.foldl parseLine []

end Android

namespace Ios

def parseLine (segments : List TranscriptSegment) (line : KString) : List TranscriptSegment :=
  match find linePattern line with
  | none => segments
  | some found =>
    let startSeconds := parseTimestampSeconds (groupValue found 1)
    let endSeconds := parseTimestampSeconds (groupValue found 2)
    appendSegment segments startSeconds endSeconds (trim (groupValue found 3))

def parseWhisperSegments (raw : KString) : List TranscriptSegment :=
  if isBlank raw then [] else (trimmedLines raw).foldl parseLine []

end Ios

end Parser

end Transcription
