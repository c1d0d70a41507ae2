import TranscriptForm.Form.Models
import TranscriptForm.Form.Normalize

namespace Form

open Kotlin

namespace Ios

def evidenceStopWords : List KString :=
  ["ich", "du", "er", "sie", "es", "wir", "ihr", "sie",
    "der", "die", "das", "ein", "eine", "einer", "einem", "einen",
    "und", "oder", "aber", "mit", "ohne", "im", "in", "am", "an", "auf", "zu",
    "ist", "war", "sind", "waren", "hat", "habe", "haben", "wurde", "worden",
    "dass", "das", "dem", "den", "des", "von", "fuer", "fur", "bei", "als"].map txt

variable [Platform]

def normalizeTextForEvidence (value : KString) : KString :=
  trim (replace (.plus .space) (txt " ") (replace (.plus notKey) (txt " ") (replaceUmlauts (lowercase value))))

def tokenizeForEvidence (value : KString) : List KString :=
  let words := (splitChar (ch ' ') (normalizeTextForEvidence value)).map trim
  (words.filter fun word => 3 ≤ word.length).filter fun word => !evidenceStopWords.contains word

def isAnswerGroundedInTranscript (answer transcriptNorm : KString) (transcriptTokens : List KString) : Bool :=
  let raw := trim answer
  if isBlank raw then false
  else
    let answerNorm := normalizeTextForEvidence raw
    if answerNorm.length < 3 then false
    else if contains transcriptNorm answerNorm then true
    else
      let answerTokens := tokenizeForEvidence raw
      if answerTokens.isEmpty then false else answerTokens.all transcriptTokens.contains

def filterLlmAnswersByTranscriptEvidence (llmAnswers : Answers) (transcriptText : KString) : Answers :=
  if llmAnswers.isEmpty then .empty
  else if isBlank transcriptText then .empty
  else
    let transcriptNorm := normalizeTextForEvidence transcriptText
    let transcriptTokens := tokenizeForEvidence transcriptText
    llmAnswers.filterValues fun answer => isAnswerGroundedInTranscript answer transcriptNorm transcriptTokens

end Ios

end Form
