import TranscriptForm.Form.Merge

namespace Form

open Kotlin

inductive JsonElement
  | null
  | primitive (content : KString)
  | array (items : List JsonElement)
  | object (members : List (KString × JsonElement))

/-- The JSON library: a text is decoded as an answer object, parsed as a tree, or
    refused, and `jsonObject` throws at a tree that is no object. -/
structure JsonParser where
  decodeFromString : KString → Option Answers
  parseToJsonElement : KString → Option JsonElement
  notAnObject : JsonElement → Throwable

def JsonElement.isObject : JsonElement → Bool
  | .object _ => true
  | _ => false

namespace OnDeviceLlm

open Pattern

structure BraceScan where
  depth : Nat := 0
  inString : Bool := false
  escaped : Bool := false
  /-- The text since the outermost open brace, reversed. -/
  current : KString := []
  result : List KString := []

def BraceScan.step (scan : BraceScan) (c : KChar) : BraceScan :=
  let scan := if scan.depth = 0 then scan else { scan with current := c :: scan.current }
  if scan.inString then
    if scan.escaped then { scan with escaped := false }
    else if c = ch '\\' then { scan with escaped := true }
    else if c = ch '"' then { scan with inString := false }
    else scan
  else if c = ch '"' then { scan with inString := true }
  else if c = ch '{' then
    { scan with current := if scan.depth = 0 then [c] else scan.current, depth := scan.depth + 1 }
  else if c = ch '}' then
    if scan.depth = 0 then scan
    else if scan.depth = 1 then
      { scan with depth := 0, current := [], result := scan.result ++ [scan.current.reverse] }
    else { scan with depth := scan.depth - 1 }
  else scan

def extractBalancedJsonObjects (text : KString) : List KString :=
  (text.foldl BraceScan.step {}).result

/-- How long `Regex.escape` makes a text: quotes around it, and again around each `\E` in it. -/
def escapedLength (literal : KString) : Nat :=
  literal.length + 4 + 5 * literal.tails.countP fun rest => (txt "\\E").isPrefixOf rest

def fieldNames (definition : FormDefinition) : List KString :=
  (definition.flatMap fun question => [question.id, question.label]).insertionSort fun a b =>
    escapedLength b ≤ escapedLength a

def toStringMap (members : List (KString × JsonElement)) : Answers :=
  .ofPairs (members.filterMap fun member =>
    match member.2 with
    | .primitive content => some (member.1, content)
    | _ => none)

/-- The first candidate that yields answers decides, and what it throws is thrown. -/
def firstAnswers (parseAnswersCandidate : KString → Except Throwable Answers) :
    List KString → Except Throwable Answers
  | [] => .ok .empty
  | candidate :: rest =>
    match parseAnswersCandidate candidate with
    | .error thrown => .error thrown
    | .ok parsed => if parsed.isEmpty then firstAnswers parseAnswersCandidate rest else .ok parsed

/-- `parseAnswersCandidate`, with what a platform does with a text that is no JSON object. -/
def parseCandidateWith (json : JsonParser) (normalizeAnswers : Answers → Answers)
    (parseKeyValueFallback noObject : KString → Answers) (candidate : KString) : Except Throwable Answers :=
  let cleaned := trim candidate
  let ofMembers (members : List (KString × JsonElement)) : Answers :=
    let normalizedFromJson := normalizeAnswers (toStringMap members)
    if normalizedFromJson.isEmpty then parseKeyValueFallback cleaned else normalizedFromJson
  if isBlank cleaned then .ok .empty
  else match json.decodeFromString cleaned with
    | some answers => .ok (normalizeAnswers answers)
    | none =>
      match json.parseToJsonElement cleaned with
      | some (.object rootObject) =>
        match rootObject.lookup (txt "answers") with
        | some (.object answersObject) => .ok (ofMembers answersObject)
        | some other => .error (json.notAnObject other)
        | none => .ok (ofMembers rootObject)
      | _ => .ok (noObject cleaned)

variable [Platform]

def fencedObject : Pattern :=
  concat [lit "```", optional (lit "json"), star space,
    .group 1 (concat [oneOf "\x7b", lazyStar anything, oneOf "\x7d"]), star space, lit "```"]

def buildJsonCandidates (raw : KString) : List KString :=
  let trimmed := trim raw
  if isBlank trimmed then []
  else
    let fenced := (findAll fencedObject trimmed).map fun found => trim (groupValue found 1)
    (trimmed :: (fenced ++ extractBalancedJsonObjects trimmed)).eraseDups

def normalizedKeyToFieldId (definition : FormDefinition) : LinkedMap KString KString :=
  .ofPairs (definition.flatMap fun question =>
    [(normalizeKey question.id, question.id), (normalizeKey question.label, question.id)])

def mappedId (definition : FormDefinition) (rawKey : KString) : Option KString :=
  let keyTrimmed := trim rawKey
  let knownFieldIds := definition.map FormQuestion.id
  if knownFieldIds.contains keyTrimmed then some keyTrimmed
  else if knownFieldIds.contains (lowercase keyTrimmed) then some (lowercase keyTrimmed)
  else (normalizedKeyToFieldId definition).get? (normalizeKey keyTrimmed)

def normalizeAnswersWith (clean : KString → KString) (definition : FormDefinition) (rawAnswers : Answers) : Answers :=
  if rawAnswers.isEmpty then .empty
  else .ofPairs (rawAnswers.entries.filterMap fun entry =>
    let value := clean entry.2
    if isBlank value then none else (mappedId definition entry.1).map fun id => (id, value))

def anyFieldName (definition : FormDefinition) : Pattern :=
  .group 1 (either ((fieldNames definition).map textIgnoreCase))

/-- A field name, perhaps quoted, and `:`, `=` or `-` after it. -/
def fieldKey (definition : FormDefinition) : Pattern :=
  concat [optional (oneOf "\"'"), anyFieldName definition, optional (oneOf "\"'"), star space, oneOf ":=-", star space]

/-- `^\s*["']?(…)["']?\s*[:=-]\s*(.+)$`, line by line -/
def lineAnswer (definition : FormDefinition) : Pattern :=
  concat [lineStart, star space, fieldKey definition, .group 2 (plus anyChar), lineEnd]

def keyOf (found : Regex.Match KChar) : KString := lowercase (trim (groupValue found 1))

/-- The answers the matches of a key-value pattern put into a map, later ones over earlier ones. -/
def collectAnswers (valueOf : Regex.Match KChar → KString) (matched : List (Regex.Match KChar)) : Answers :=
  .ofPairs ((matched.map fun found => (keyOf found, valueOf found)).filter fun entry => isNotBlank entry.2)

def sanitizeLlmAnswers (llmAnswers : Answers) : Answers :=
  if llmAnswers.isEmpty then .empty
  else
    let normalizedValues := (llmAnswers.values.map normalizeAnswerValue).filter isNotBlank
    if 2 ≤ normalizedValues.length && normalizedValues.eraseDups.length == 1 then .empty else llmAnswers

end OnDeviceLlm

variable [Platform]

namespace Android

open OnDeviceLlm Pattern

def normalizeAnswers (definition : FormDefinition) (rawAnswers : Answers) : Answers :=
  normalizeAnswersWith trimLlmEdgeArtifacts definition rawAnswers

/-- A value in double quotes, in single quotes, or up to `;` or the end of the line. -/
def inlineAnswer (definition : FormDefinition) : Pattern :=
  concat [fieldKey definition,
    either
      [concat [oneOf "\"", .group 2 (star (either [.seq (oneOf "\\") anyChar, noneOf "\"\\"])), oneOf "\""],
        concat [oneOf "'", .group 3 (star (either [.seq (oneOf "\\") anyChar, noneOf "'\\"])), oneOf "'"],
        .group 4 (plus (noneOf ";\n"))]]

def lineValue (found : Regex.Match KChar) : KString := trim (groupValue found 2)

def inlineValue (found : Regex.Match KChar) : KString :=
  trim (([groupValue found 2, groupValue found 3, groupValue found 4].find? isNotBlank).getD [])

def parseKeyValueFallback (definition : FormDefinition) (text : KString) : Answers :=
  if definition.isEmpty then .empty
  else
    let lineBased := collectAnswers lineValue (findAll (lineAnswer definition) text)
    if !lineBased.isEmpty then normalizeAnswers definition lineBased
    else normalizeAnswers definition (collectAnswers inlineValue (findAll (inlineAnswer definition) text))

def parseAnswersCandidate (json : JsonParser) (definition : FormDefinition) (candidate : KString) :
    Except Throwable Answers :=
  parseCandidateWith json (normalizeAnswers definition) (parseKeyValueFallback definition)
    (parseKeyValueFallback definition) candidate

def extractAnswers (json : JsonParser) (definition : FormDefinition) (raw : KString) : Except Throwable Answers :=
  firstAnswers (parseAnswersCandidate json definition) (buildJsonCandidates raw)

end Android

namespace Ios

open OnDeviceLlm Pattern

def normalizeAnswers (definition : FormDefinition) (rawAnswers : Answers) : Answers :=
  normalizeAnswersWith trim definition rawAnswers

def inlineAnswer (definition : FormDefinition) : Pattern :=
  .seq (fieldKey definition) (.group 2 (plus (noneOf ",;\n")))

def keyValue (found : Regex.Match KChar) : KString := trimChars (txt "\"") (trim (groupValue found 2))

def parseKeyValueFallback (definition : FormDefinition) (text : KString) : Answers :=
  if definition.isEmpty then .empty
  else
    let lineBased := collectAnswers keyValue (findAll (lineAnswer definition) text)
    if !lineBased.isEmpty then normalizeAnswers definition lineBased
    else normalizeAnswers definition (collectAnswers keyValue (findAll (inlineAnswer definition) text))

def parseAnswersCandidate (json : JsonParser) (definition : FormDefinition) (candidate : KString) :
    Except Throwable Answers :=
  parseCandidateWith json (normalizeAnswers definition) (parseKeyValueFallback definition) (fun _ => .empty) candidate

def extractAnswers (json : JsonParser) (definition : FormDefinition) (raw : KString) : Except Throwable Answers :=
  firstAnswers (parseAnswersCandidate json definition) (buildJsonCandidates raw)

end Ios

end Form
