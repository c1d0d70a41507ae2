import Mathlib.Data.List.Sort
import TranscriptForm.Form.Fields

namespace Form

open Kotlin

/-- The label a block carries in the texts that name the speakers. -/
def labelledBlock (block : SpeakerBlock) : KString :=
  txt "[" ++ ifBlank block.speaker (txt "Sprecher") ++ txt "]: " ++ block.text

def transcriptTextWithSpeakers (speakerBlocks : List SpeakerBlock) : KString :=
  joinToString (txt "\n") (speakerBlocks.map labelledBlock)

namespace OnDeviceLlm

open Pattern

variable [Platform]

/-- `(?<=[.!?])\s+` -/
def sentenceEnd : Pattern := .seq (precededBy ".!?") (plus space)

def sentencesOf (text : KString) : List KString :=
  ((split sentenceEnd (replaceText (txt "\n") (txt " ") text)).map trim).filter isNotBlank

/-- `^\s*\[[^\]]+\]\s*:\s*` -/
def bracketPrefix : Pattern :=
  concat [textStart, star space, oneOf "[", plus (noneOf "]"), oneOf "]", star space, oneOf ":", star space]

/-- `^\s*(sprecher\s*\d+|speaker\s*\d+)\s*[:\-]\s*` -/
def speakerPrefix : Pattern :=
  concat [textStart, star space,
    .group 1 (either [concat [litIgnoreCase "sprecher", star space, plus digit],
      concat [litIgnoreCase "speaker", star space, plus digit]]),
    star space, oneOf ":-", star space]

/-- A question word and no end of sentence after it, up to the end of the text. -/
def questionStarter : Pattern :=
  concat [wordBoundary,
    .group 1 (either (["was", "wie", "warum", "wieso", "weshalb", "welche", "welcher", "wer"].map litIgnoreCase)),
    wordBoundary, between 0 120 (noneOf ".?!"), textEnd]

def cleanInlineAnswerSegment (segment : KString) : KString :=
  let withoutSpeakerPrefix := trim (replace speakerPrefix [] (replace bracketPrefix [] segment))
  let cut :=
    match find questionStarter withoutSpeakerPrefix with
    | some found => found.skipped.length
    | none => withoutSpeakerPrefix.length
  trimEndChars (txt ".;,") (trim (withoutSpeakerPrefix.take cut))

/-- What the loop over the `?`-separated segments makes of one of them and the next. -/
def inlineAnswer (field : FieldSpec) (questionSegment rawAnswerSegment : KString) : Option KString :=
  if !matchesFieldQuestion questionSegment field then none
  else
    let cleanedAnswer := cleanInlineAnswerSegment rawAnswerSegment
    if cleanedAnswer.length < 6 then none
    else if looksLikeQuestionEcho cleanedAnswer field then none
    else if isQuestionLike cleanedAnswer then none
    else some (cleanedAnswer.take 240)

def firstInlineAnswer (field : FieldSpec) : List KString → Option KString
  | question :: answer :: rest =>
    match inlineAnswer field question answer with
    | some found => some found
    | none => firstInlineAnswer field (answer :: rest)
  | _ => none

def extractAnswerAfterQuestionInTranscript (transcriptText : KString) (field : FieldSpec) : Option KString :=
  let text := trim (replaceText (txt "\n") (txt " ") transcriptText)
  if isBlank text then none
  else firstInlineAnswer field (((splitChar (ch '?') text).map trim).filter isNotBlank)

def transitionCandidate (currentBlock nextBlock : SpeakerBlock) (thirdBlock : Option SpeakerBlock) :
    Option KString :=
  let next := trim nextBlock.text
  if !isQuestionLike next && currentBlock.speaker != nextBlock.speaker then some next
  else thirdBlock.bind fun thirdBlock =>
    let third := trim thirdBlock.text
    if isNotBlank third && !isQuestionLike third && thirdBlock.speaker != currentBlock.speaker then some third
    else none

/-- What the loop over the blocks makes of one block and the two after it. -/
def transitionAnswer (field : FieldSpec) (currentBlock nextBlock : SpeakerBlock)
    (thirdBlock : Option SpeakerBlock) : Option KString :=
  let current := trim currentBlock.text
  let next := trim nextBlock.text
  if isBlank current || isBlank next then none
  else if !isQuestionLike current then none
  else if !matchesFieldQuestion current field then none
  else (transitionCandidate currentBlock nextBlock thirdBlock).bind fun candidate =>
    if isBlank candidate || candidate.length < 8 then none
    else if looksLikeQuestionEcho candidate field then none
    else some (candidate.take 240)

def extractAnswerFromQuestionTransition (field : FieldSpec) : List SpeakerBlock → Option KString
  | currentBlock :: nextBlock :: rest =>
    match transitionAnswer field currentBlock nextBlock rest.head? with
    | some found => some found
    | none => extractAnswerFromQuestionTransition field (nextBlock :: rest)
  | _ => none

def scoreSentenceForField (sentence : KString) (field : FieldSpec) : Nat :=
  let normSentence := normalizeKey sentence
  let keywordScore := 3 * field.keywords.countP fun token => isNotBlank token && contains normSentence token
  let labelScore :=
    if isNotBlank field.normalizedLabel && contains normSentence field.normalizedLabel then 2 else 0
  let compact := trim sentence
  let nameScore :=
    if isNameField field && compact.length ≤ 40 && !contains compact (txt "?") && !contains compact (txt ".") &&
        (split (plus space) compact).length ≤ 3 then 2
    else 0
  keywordScore + labelScore + nameScore

def findBestAnswerSentence (sentences : List KString) (field : FieldSpec) : Option KString :=
  let candidates := ((sentences.map trim).filter isNotBlank).filter fun sentence =>
    !isQuestionLike sentence && !looksLikeQuestionEcho sentence field
  let scored := (candidates.map fun sentence => (sentence, scoreSentenceForField sentence field)).filter
    fun scored => 2 ≤ scored.2
  (scored.insertionSort fun a b => b.2 ≤ a.2).head?.map fun best => best.1.take 240

def pickHeuristic (transcriptText : KString) (speakerBlocks : List SpeakerBlock) (field : FieldSpec) :
    Option KString :=
  (extractAnswerAfterQuestionInTranscript transcriptText field).or
    ((extractAnswerFromQuestionTransition field speakerBlocks).or
      (findBestAnswerSentence (sentencesOf transcriptText) field))

/-- The name goes to the first name field before the other fields are looked at. -/
def nameAnswer (extractName : KString → Option KString) (specs : List FieldSpec) (transcriptText : KString) :
    Answers :=
  match extractName transcriptText, specs.find? isNameField with
  | some name, some nameField => if isBlank name then .empty else LinkedMap.empty.put nameField.id name
  | _, _ => .empty

def heuristicStep (transcriptText : KString) (speakerBlocks : List SpeakerBlock) (answers : Answers)
    (field : FieldSpec) : Answers :=
  if answers.containsKey field.id then answers
  else match pickHeuristic transcriptText speakerBlocks field with
    | some picked => if isBlank picked then answers else answers.put field.id (picked.take 240)
    | none => answers

def extractHeuristicAnswers (extractName : KString → Option KString) (specs : List FieldSpec)
    (transcriptText : KString) (speakerBlocks : List SpeakerBlock) : Answers :=
  specs.foldl (heuristicStep transcriptText speakerBlocks) (nameAnswer extractName specs transcriptText)

end OnDeviceLlm

end Form
