import TranscriptForm.Form.Heuristics

namespace Form

open Kotlin

-- `OnDeviceKeywordFormMappingRepository`, the same on both platforms.
namespace OnDeviceKeyword

open OnDeviceLlm

def keywordTranscript (response : TranscriptionResponse) : KString :=
  let labelled := transcriptTextWithSpeakers (TranscriptToFormMapper.buildSpeakerBlocks response)
  if isBlank response.text then labelled
  else if labelled.isEmpty then response.text
  else labelled ++ txt "\n" ++ response.text

def problemKeywords : List KString :=
  ["problem", "schwierig", "herausforderung", "fehler", "thema", "konflikt", "lief nicht"].map txt

def learningKeywords : List KString :=
  ["gelernt", "mitgenommen", "nächstes mal", "naechstes mal", "verbessern", "werde", "zukünftig", "zukunft"].map txt

def intentions : List KString := ["ich werde", "wir werden", "ich möchte", "ich moechte"].map txt

def learningDescribed : KString := txt "Es wurde ein Lernerfolg beschrieben."

variable [Platform]

def findFirstGroup (text : KString) (pattern : Pattern) : Option KString :=
  (find pattern text).map fun found => trimEndChars (txt ".,;:") (trim (groupValue found 1))

def findSentenceAfterKeywords (text : KString) (keywords : List KString) : Option KString :=
  ((sentencesOf text).find? fun sentence => keywords.any fun keyword => contains (lowercase sentence) keyword).map
    (List.take 220)

def extractForQuestion (questionId transcript : KString) : KString :=
  if isBlank transcript then []
  else
    let normalized := lowercase transcript
    let candidateSentences := sentencesOf transcript
    if questionId = txt "name" then (findFirstGroup transcript introduction).getD []
    else if questionId = txt "problem" then
      ((findSentenceAfterKeywords transcript problemKeywords).or
        ((maxByOrNull (fun sentence => sentence.length) candidateSentences).map (List.take 220))).getD []
    else if questionId = txt "learning" then
      ((findSentenceAfterKeywords transcript learningKeywords).or
        ((candidateSentences.find? fun sentence =>
          intentions.any fun intention => contains (lowercase sentence) intention).map (List.take 220))).getD
        (if contains normalized (txt "gelernt") then learningDescribed else [])
    else []

def keywordAnswers (definition : FormDefinition) (transcript : KString) : Answers :=
  .ofPairs (definition.filterMap fun question =>
    let value := extractForQuestion question.id transcript
    if isBlank value then none else some (question.id, value))

def mapTranscript (definition : FormDefinition) : FormMappingRepository := fun response =>
  runCatchingResult (.ok
    { speakerBlocks := TranscriptToFormMapper.buildSpeakerBlocks response
      fieldAnswers := keywordAnswers definition (keywordTranscript response)
      mappingStrategy := .heuristicFallback })

end OnDeviceKeyword

end Form
