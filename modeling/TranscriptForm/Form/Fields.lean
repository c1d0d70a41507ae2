import TranscriptForm.Form.Models
import TranscriptForm.Form.Normalize

namespace Form

open Kotlin

structure FieldSpec where
  id : KString
  label : KString
  normalizedLabel : KString
  keywords : List KString
  deriving DecidableEq

-- The functions both `OnDeviceLlmFormMappingRepository` classes have in the same words.
namespace OnDeviceLlm

open Pattern

def stopWords : List KString :=
  ["was", "wie", "wer", "wo", "wann", "warum", "wieso", "weshalb",
    "ist", "sind", "war", "waren", "du", "ihr", "wir", "ich",
    "der", "die", "das", "dem", "den", "des", "ein", "eine", "einer",
    "und", "oder", "mit", "fuer", "fur", "aus", "bei", "von", "im", "in", "am", "an",
    "hast", "habt", "hat", "haben", "denn", "mal"].map txt

def questionStarts : List KString :=
  ["was ", "wie ", "warum ", "wieso ", "weshalb ", "welche", "welcher", "kannst du", "kannst du mir",
    "erzaehl", "erzähl"].map txt

variable [Platform]

def buildQuestionKeywords (id label : KString) : List KString :=
  let tokens := split (plus notKey) (replaceUmlauts (lowercase (id ++ txt " " ++ label)))
  (((tokens.map trim).filter fun token => 3 ≤ token.length).filter fun token => !stopWords.contains token).eraseDups

def fieldSpecs (definition : FormDefinition) : List FieldSpec :=
  definition.map fun question =>
    ⟨question.id, question.label, normalizeKey question.label, buildQuestionKeywords question.id question.label⟩

def isNameField (field : FieldSpec) : Bool :=
  let idNorm := normalizeKey field.id
  contains idNorm (txt "name") || contains field.normalizedLabel (txt "heiss") ||
    contains field.normalizedLabel (txt "name")

def isQuestionLike (text : KString) : Bool :=
  let trimmed := trim text
  if isBlank trimmed then false
  else if contains trimmed (txt "?") then true
  else questionStarts.any fun start => startsWith (lowercase trimmed) start

def matchesFieldQuestion (questionText : KString) (field : FieldSpec) : Bool :=
  let norm := normalizeKey questionText
  field.keywords.any (fun token => isNotBlank token && contains norm token) ||
    (isNotBlank field.normalizedLabel && contains norm field.normalizedLabel)

def looksLikeQuestionEcho (candidateAnswer : KString) (field : FieldSpec) : Bool :=
  let trimmed := trim candidateAnswer
  if isBlank trimmed then true
  else if contains trimmed (txt "?") then true
  else
    let normalized := normalizeKey trimmed
    if normalized = field.normalizedLabel then true
    else
      let labelOverlap := field.keywords.countP fun token => isNotBlank token && contains normalized token
      3 ≤ labelOverlap && normalized.length ≤ field.normalizedLabel.length + 16

/-- `[\p{L}][\p{L}'\-]{1,30}` -/
def nameWord : Pattern :=
  .seq (.set Platform.isLetter)
    (between 1 30 (.set fun code => Platform.isLetter code || Pattern.inClass "'-" code))

/-- The captured name: up to three words. -/
def fullName : Pattern := .group 1 (.seq nameWord (between 0 2 (.seq (plus space) nameWord)))

/-- `(?:ich\s+hei(?:ss|ß)e?|mein\s+name\s+ist|ich\s+bin(?:\s+(?:der|die))?)\s+` and the name -/
def introduction : Pattern :=
  concat
    [either
      [concat [litIgnoreCase "ich", plus space, litIgnoreCase "hei",
          either [litIgnoreCase "ss", litIgnoreCase "ß"], optional (litIgnoreCase "e")],
        concat [litIgnoreCase "mein", plus space, litIgnoreCase "name", plus space, litIgnoreCase "ist"],
        concat [litIgnoreCase "ich", plus space, litIgnoreCase "bin",
          optional (.seq (plus space) (either [litIgnoreCase "der", litIgnoreCase "die"]))]],
      plus space, fullName]

def namePatterns : List Pattern :=
  [.seq wordBoundary introduction,
    concat [wordBoundary, litIgnoreCase "name", star space, optional (oneOf ":-"), star space, fullName]]

/-- `^(?i)(der|die|das)\s+` -/
def leadingArticle : Pattern :=
  concat [textStart,
    .group 1 (either [litIgnoreCase "der", litIgnoreCase "die", litIgnoreCase "das"]), plus space]

def capitalise (part : KString) : KString :=
  match lowercase part with
  | [] => []
  | c :: rest => Platform.uppercase c ++ rest

/-- What both platforms clean off a name. -/
def tidyName (raw : KString) : KString :=
  trim (replace (plus space) (txt " ") (replace leadingArticle [] (trimChars (txt ".,;:!?") (trim raw))))

/-- `cleanupName`, where Android also turns down what looks like a speaker label. -/
def cleanupNameUnless (isPlaceholder : KString → Bool) (raw : KString) : Option KString :=
  let cleaned := tidyName raw
  if isBlank cleaned then none
  else if isPlaceholder cleaned then none
  else
    let parts := (splitChar (ch ' ') cleaned).filter isNotBlank
    if parts.isEmpty || 3 < parts.length then none
    else if parts.any fun part => part.length < 2 then none
    else some (joinToString (txt " ") (parts.map capitalise))

def extractNameWith (cleanupName : KString → Option KString) (text : KString) : Option KString :=
  if isBlank text then none
  else namePatterns.findSome? fun pattern =>
    (find pattern text).bind fun found => (cleanupName (groupValue found 1)).filter isNotBlank

end OnDeviceLlm

variable [Platform]

namespace Android

open Pattern

/-- `(?i)^\[?\s*(speaker|sprecher)[_\-\s]*\d{1,3}\s*\]?$` -/
def speakerLabel : Pattern :=
  concat [textStart, optional (oneOf "["), star space,
    .group 1 (either [litIgnoreCase "speaker", litIgnoreCase "sprecher"]),
    star (.set fun code => Pattern.inClass "_-" code || Platform.isSpace code), between 1 3 digit,
    star space, optional (oneOf "]"), textEnd]

/-- `^(speaker|sprecher)\d{1,3}$` -/
def speakerKey : Pattern :=
  concat [textStart, .group 1 (either [lit "speaker", lit "sprecher"]), between 1 3 digit, textEnd]

def isSpeakerPlaceholderLike (value : KString) : Bool :=
  let trimmed := trim value
  if isBlank trimmed then false
  else if matchesWhole speakerLabel trimmed then true
  else matchesWhole speakerKey (normalizeKey trimmed)

def cleanupName (raw : KString) : Option KString := OnDeviceLlm.cleanupNameUnless isSpeakerPlaceholderLike raw

def extractNameFromText (text : KString) : Option KString := OnDeviceLlm.extractNameWith cleanupName text

end Android

namespace Ios

def cleanupName (raw : KString) : Option KString := OnDeviceLlm.cleanupNameUnless (fun _ => false) raw

def extractNameFromText (text : KString) : Option KString := OnDeviceLlm.extractNameWith cleanupName text

end Ios

end Form
