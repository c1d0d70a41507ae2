import Mathlib.Data.Rat.Defs
import TranscriptForm.Kotlin.Text
import TranscriptForm.Library.LinkedMap

namespace Form

open Kotlin

inductive FormAutomationMode
  | cloud
  | onDevice
  deriving DecidableEq, Repr

def FormAutomationMode.name : FormAutomationMode → KString
  | .cloud => txt "CLOUD"
  | .onDevice => txt "ON_DEVICE"

structure FormQuestion where
  id : KString
  label : KString
  required : Bool := false
  deriving DecidableEq

/-- The questions a `FormDefinitionProvider` lists, in display order. -/
abbrev FormDefinition := List FormQuestion

def DefaultFormDefinitionProvider.questions : FormDefinition :=
  [⟨txt "name", txt "Wie heißt du?", true⟩,
    ⟨txt "problem", txt "Was war das Problem?", true⟩,
    ⟨txt "learning", txt "Was hast du gelernt?", false⟩]

structure FormAnswer where
  questionId : KString
  value : KString := []
  deriving DecidableEq

structure FormEntry where
  question : FormQuestion
  answer : FormAnswer
  deriving DecidableEq

structure TranscriptWord where
  word : KString
  deriving DecidableEq

structure TranscriptSegment where
  id : Int := 0
  text : KString
  startSeconds : ℚ := 0
  endSeconds : ℚ := 0
  speaker : KString := []
  deriving DecidableEq

structure TranscriptionResponse where
  text : KString := []
  language : KString := []
  duration : ℚ := 0
  segments : List TranscriptSegment := []
  words : List TranscriptWord := []
  deriving DecidableEq

structure SpeakerBlock where
  speaker : KString
  text : KString
  startSeconds : ℚ
  endSeconds : ℚ
  deriving DecidableEq

inductive MappingStrategy
  | cloudLlm
  | onDeviceLlm
  | mixed
  | heuristicFallback
  | unknown
  deriving DecidableEq, Repr

abbrev Answers := LinkedMap KString KString

structure TranscriptMappingResult where
  speakerBlocks : List SpeakerBlock
  fieldAnswers : Answers
  mappingStrategy : MappingStrategy := .unknown
  llmFailureReason : Option KString := none
  llmAttempted : Bool := false
  llmReturnedAnswers : Bool := false
  deriving DecidableEq

/-- A thrown exception other than a cancellation. -/
structure Throwable where
  message : Option KString
  deriving DecidableEq

inductive AppResult (α : Type)
  | success (data : α)
  | error (message : KString) (cause : Option Throwable)
  deriving DecidableEq

def runCatchingResult {α : Type} (block : Except Throwable α) : AppResult α :=
  match block with
  | .ok data => .success data
  | .error thrown => .error (thrown.message.getD (txt "Unbekannter Fehler")) (some thrown)

abbrev FormMappingRepository := TranscriptionResponse → AppResult TranscriptMappingResult

namespace TranscriptToFormMapper

/-- The loop over the segments with the block that is being collected. -/
def blocksFrom (lastEnd : ℚ) (currentSpeaker : KString) (currentTexts : List KString) (blockStart : ℚ) :
    List TranscriptSegment → List SpeakerBlock
  | [] =>
    if currentTexts.isEmpty then []
    else [⟨currentSpeaker, trim (joinToString (txt " ") currentTexts), blockStart, lastEnd⟩]
  | segment :: rest =>
    if segment.speaker ≠ currentSpeaker then
      ⟨currentSpeaker, trim (joinToString (txt " ") currentTexts), blockStart, segment.startSeconds⟩ ::
        blocksFrom lastEnd segment.speaker [trim segment.text] segment.startSeconds rest
    else blocksFrom lastEnd currentSpeaker (currentTexts ++ [trim segment.text]) blockStart rest

def buildSpeakerBlocks (response : TranscriptionResponse) : List SpeakerBlock :=
  match response.segments with
  | [] => []
  | first :: rest =>
    let lastEnd := ((first :: rest).getLast (by simp)).endSeconds
    blocksFrom lastEnd first.speaker [] first.startSeconds (first :: rest)

end TranscriptToFormMapper

end Form
