import TranscriptForm.Form.Heuristics

namespace Form

open Kotlin

structure PromptBundle where
  systemPrompt : KString
  userPrompt : KString
  deriving DecidableEq

/-- A raw string literal: its lines behind their indent, `none` for an empty one. -/
def rawString (indent : Nat) (lines : List (Option KString)) (closing : Nat) : KString :=
  let written (line : Option KString) : KString :=
    match line with
    | some line => List.replicate indent (ch ' ') ++ line
    | none => []
  txt "\n" ++ joinToString (txt "\n") (lines.map written) ++ txt "\n" ++ List.replicate closing (ch ' ')

def questionsDescription (questions : List FormQuestion) : KString :=
  joinToString (txt "\n") (questions.map fun q => txt "- " ++ q.id ++ txt ": " ++ q.label)

def answersJsonTemplate (questions : List FormQuestion) : KString :=
  joinToString (txt ",") (questions.map fun q => txt "\"" ++ q.id ++ txt "\":\"\"")

def schemaLine (questions : List FormQuestion) : KString :=
  txt "  \x7b\"answers\":\x7b" ++ answersJsonTemplate questions ++ txt "\x7d\x7d"

namespace Android

open OnDeviceLlm Pattern

def smallFormSinglePassThreshold : Nat := 4

def maxTranscriptCharsPerChunk : Nat := 240

def systemPromptHead : List String :=
  ["Rolle: Du bist ein JSON-Extraktor fuer ein Feedback-Formular",
    "Ausgabevorschrift (SEHR WICHTIG):",
    "- Gib GENAU EINE ZEILE valides JSON zurueck.",
    "- Kein Markdown, keine Backticks, keine Erklaerung, kein Zusatztext.",
    "- Nutze EXAKT dieses Schema:"]

def systemPromptTail : List String :=
  ["- Die Keys muessen EXAKT den Formularfeld-IDs entsprechen.",
    "- Wenn Information fehlt: leerer String ",
    "Extraktionsregeln:",
    "- Nutze nur explizite Informationen aus dem Transkript.",
    "- Erfinde nichts.",
    "- Außer bei Namesfeldern immer ganze Saetze oder klare Phrasen als Werte, NICHT nur einzelne Woerter.",
    "- Sprache der Werte: Deutsch.",
    "- Halte Werte kurz und konkret (maximal 220 Zeichen pro Feld).",
    "- Wenn im Dialog eine Frage gestellt wird (z.B. vom Interviewer), uebernimm als Feldwert die inhaltliche Antwort des Gegenuebers, NICHT die Frage selbst.",
    "- Frageformulierungen koennen variieren. Ordne nach inhaltlicher Bedeutung zur passenden Formularfrage zu.",
    "- Fuer Felder, die nach Name fragen, gib nur den Namen zurueck (ohne Zusatzsaetze).",
    "- Die Antwort darf nicht exakt dem Wortlaut der Frage entsprechen (Sonst ist es wahrscheinlich die Frage selbst)"]

def buildCompactPrompt (questions : List FormQuestion) (transcript : KString) (correctionEnabled : Bool) :
    PromptBundle :=
  let orthographyInstruction :=
    if correctionEnabled then txt "Korrigiere nur offensichtliche ASR-Fehler bei hoher Sicherheit."
    else txt "Keine aktive Rechtschreibkorrektur."
  { systemPrompt := trimIndent (rawString 12
      ((systemPromptHead.map txt ++ [schemaLine questions] ++ systemPromptTail.map txt ++
        [orthographyInstruction]).map some) 12)
    userPrompt := trimIndent (rawString 8
      [some (txt "Felder:"), some (questionsDescription questions), none, some (txt "Text:"),
        some (transcript.take maxTranscriptCharsPerChunk), none, some (txt "JSON:")] 8) }

variable [Platform]

def buildQuestionGroups (questions : FormDefinition) : List (List FormQuestion) :=
  if questions.isEmpty then []
  else if questions.length ≤ smallFormSinglePassThreshold then [questions]
  else
    let isNameQuestion (q : FormQuestion) : Bool :=
      let idNorm := normalizeKey q.id
      let labelNorm := normalizeKey q.label
      contains idNorm (txt "name") || contains labelNorm (txt "name") || contains labelNorm (txt "heiss")
    let nameQuestions := questions.filter isNameQuestion
    let nonNameQuestions := questions.filter fun q => !nameQuestions.contains q
    (if nameQuestions.isEmpty then [] else [nameQuestions]) ++ nonNameQuestions.map fun q => [q]

/-- `(?<=[.!?])\s+|\n` -/
def chunkBreak : Pattern := .alt sentenceEnd (lit "\n")

def scoreForPrompt (relatedSpecs : List FieldSpec) (heuristicAnswers : Answers) (sentence : KString) : Nat :=
  let norm := normalizeKey sentence
  let fieldScore (field : FieldSpec) : Nat :=
    let keywordScore := 3 * field.keywords.countP fun token => isNotBlank token && contains norm token
    let labelScore := if isNotBlank field.normalizedLabel && contains norm field.normalizedLabel then 2 else 0
    let heuristicScore :=
      match heuristicAnswers.get? field.id with
      | some heuristic =>
        let heuristicNorm := normalizeKey heuristic
        if isNotBlank heuristicNorm && contains norm (heuristicNorm.take 24) then 2 else 0
      | none => 0
    keywordScore + labelScore + heuristicScore
  (relatedSpecs.map fieldScore).sum + (if contains sentence (txt ":") then 1 else 0) +
    (if contains sentence (txt "?") then 1 else 0)

def buildFocusedTranscript (definition : FormDefinition) (questions : List FormQuestion) (transcriptText : KString)
    (heuristicAnswers : Answers) : KString :=
  if isBlank transcriptText then []
  else
    let normalizedTranscript := trim transcriptText
    if normalizedTranscript.length ≤ maxTranscriptCharsPerChunk then normalizedTranscript
    else
      let sentences := ((split chunkBreak (replaceText (txt "\n") (txt " \n ") normalizedTranscript)).map trim).filter
        isNotBlank
      if sentences.isEmpty then normalizedTranscript.take maxTranscriptCharsPerChunk
      else
        let wantedFieldIds := questions.map FormQuestion.id
        let relatedSpecs := (fieldSpecs definition).filter fun field => wantedFieldIds.contains field.id
        let scored := sentences.map fun sentence =>
          (sentence, scoreForPrompt relatedSpecs heuristicAnswers sentence)
        let picked := ((scored.insertionSort fun a b => b.2 ≤ a.2).map Prod.fst).eraseDups.take 12
        let joined := joinToString (txt "\n") picked
        if isNotBlank joined then joined.take maxTranscriptCharsPerChunk
        else normalizedTranscript.take maxTranscriptCharsPerChunk

end Android

namespace Ios

open OnDeviceLlm

def buildOrthographyInstruction (enabled : Bool) : KString :=
  if enabled then
    trimIndent (rawString 12
      (["- Vor der Feldzuordnung korrigiere offensichtliche ASR-/Whisper-Schreibfehler inhaltlich, wenn der gemeinte deutsche Begriff oder Name eindeutig ist.",
        "- Nutze dazu lautnahe Aehnlichkeit und den Gespraechskontext (z. B. Fachwort, Personenname, gaengige deutsche Schreibweise).",
        "- Korrigiere nur bei hoher Sicherheit. Bei Unsicherheit lieber Originaltext belassen."].map fun line =>
          some (txt line)) 12)
  else txt "- Uebernehme Transkriptinhalte moeglichst woertlich und fuehre keine aktive Rechtschreibkorrektur durch."

def buildPrompt (questions : List FormQuestion) (transcript : KString) (correctionEnabled : Bool) : PromptBundle where
  systemPrompt := trimIndent (rawString 16
    ([some (txt "Rolle: Du bist ein JSON-Extraktor fuer ein Feedback-Formular."), none,
        some (txt "Ausgabevorschrift (SEHR WICHTIG):"),
        some (txt "- Gib GENAU EINE ZEILE valides JSON zurueck."),
        some (txt "- Kein Markdown, keine Backticks, keine Erklaerung, kein Zusatztext."),
        some (txt "- Nutze EXAKT dieses Schema:"), some (schemaLine questions),
        some (txt "- Die Keys muessen EXAKT den Formularfeld-IDs entsprechen."),
        some (txt "- Wenn Information fehlt: leerer String \"\"."), none,
        some (txt "Extraktionsregeln:"),
        some (txt "- Nutze nur explizite Informationen aus dem Transkript."),
        some (txt "- Erfinde nichts."),
        some (txt "- Sprache der Werte: Deutsch."),
        some (txt "- Halte Werte kurz und konkret (maximal 220 Zeichen pro Feld)."),
        some (txt "- Wenn im Dialog eine Frage gestellt wird (z.B. vom Interviewer), uebernimm als Feldwert die inhaltliche Antwort des Gegenuebers, NICHT die Frage selbst."),
        some (txt "- Frageformulierungen koennen variieren. Ordne nach inhaltlicher Bedeutung zur passenden Formularfrage zu."),
        some (txt "- Fuer Felder, die nach Name fragen, gib nur den Namen zurueck (ohne Zusatzsaetze)."),
        some (buildOrthographyInstruction correctionEnabled)]) 12)
  userPrompt := trimIndent (rawString 16
    [some (txt "Aufgabe: Fuelle die Formularfelder aus dem folgenden Gespraech."), none,
      some (txt "Formularfelder:"), some (questionsDescription questions), none,
      some (txt "Transkript (zwischen den Tags):"), some (txt "<transkript>"), some transcript,
      some (txt "</transkript>"), none,
      some (txt "Antworte jetzt strikt im JSON-Schema.")] 12)

end Ios

end Form
