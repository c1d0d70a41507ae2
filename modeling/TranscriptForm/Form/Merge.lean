import Mathlib.Data.List.Sort
import TranscriptForm.Form.Fields
import TranscriptForm.Library.Selection

namespace Form

open Kotlin

inductive CandidateSource
  | llm
  | heuristic
  | fallback
  deriving DecidableEq, Repr

structure AnswerSources where
  llmAnswers : Answers
  heuristicAnswers : Answers
  fallbackAnswers : Answers

structure MergeOutcome where
  answers : Answers := .empty
  usedSources : List CandidateSource := []
  deriving DecidableEq

namespace OnDeviceLlm

structure MergeState where
  outcome : MergeOutcome := {}
  usedNormalizedAnswers : List KString := []

/-- What the platforms do differently in a merge. -/
structure MergeRules where
  normalizeCandidateForField : FieldSpec → KString → KString
  isUsableFieldAnswer : FieldSpec → KString → List KString → Bool

def candidatesFor (rules : MergeRules) (sources : AnswerSources) (field : FieldSpec) :
    List (CandidateSource × KString) :=
  let found := [(sources.llmAnswers.get? field.id).map fun answer => (CandidateSource.llm, trim answer),
    (sources.heuristicAnswers.get? field.id).map fun answer => (CandidateSource.heuristic, trim answer),
    (sources.fallbackAnswers.get? field.id).map fun answer => (CandidateSource.fallback, trim answer)]
  (found.filterMap id).map fun candidate => (candidate.1, rules.normalizeCandidateForField field candidate.2)

def pickedFor (rules : MergeRules) (sources : AnswerSources) (usedNormalizedAnswers : List KString)
    (field : FieldSpec) : Option (CandidateSource × KString) :=
  (candidatesFor rules sources field).find? fun candidate =>
    rules.isUsableFieldAnswer field candidate.2 usedNormalizedAnswers

theorem picked_usable {rules : MergeRules} {sources : AnswerSources} {used : List KString} {field : FieldSpec}
    {pick : CandidateSource × KString} (picked : pickedFor rules sources used field = some pick) :
    rules.isUsableFieldAnswer field pick.2 used = true := by
  simpa using List.find?_some picked

def mappingStrategyOf (usedSources : List CandidateSource) : MappingStrategy :=
  if usedSources.contains .llm && usedSources.length == 1 then .onDeviceLlm
  else if usedSources.contains .llm then .mixed
  else if !usedSources.isEmpty then .heuristicFallback
  else .unknown

variable [Platform]

/-- `isUsableFieldAnswer`, where Android also turns down a speaker label for a name. -/
def isUsableFieldAnswerUnless (isSpeakerPlaceholderLike : KString → Bool) (field : FieldSpec) (answer : KString)
    (usedNormalizedAnswers : List KString) : Bool :=
  let trimmed := trim answer
  if isBlank trimmed then false
  else if looksLikeQuestionEcho trimmed field then false
  else
    let normalized := normalizeAnswerValue trimmed
    if isBlank normalized then false
    else if isNameField field then
      let wordCount := (split (.plus .space) trimmed).countP isNotBlank
      if isSpeakerPlaceholderLike trimmed then false
      else if 4 < wordCount || 64 < trimmed.length then false
      else if contains trimmed (txt "?") || contains trimmed (txt ".") || contains trimmed (txt ":") then false
      else true
    else if isQuestionLike trimmed then false
    else if normalized = field.normalizedLabel then false
    else if normalized ∈ usedNormalizedAnswers then false
    else true

def mergeStep (rules : MergeRules) (sources : AnswerSources) (state : MergeState) (field : FieldSpec) : MergeState :=
  match pickedFor rules sources state.usedNormalizedAnswers field with
  | some (source, answer) =>
    if isNotBlank answer then
      { outcome :=
          { answers := state.outcome.answers.put field.id answer
            usedSources := state.outcome.usedSources.insert source }
        usedNormalizedAnswers := state.usedNormalizedAnswers ++ [normalizeAnswerValue answer] }
    else state
  | none => state

def mergeAnswersPerField (rules : MergeRules) (specs : List FieldSpec) (sources : AnswerSources) : MergeOutcome :=
  (specs.foldl (mergeStep rules sources) {}).outcome

end OnDeviceLlm

variable [Platform]

namespace Android

open OnDeviceLlm Pattern

def isUsableFieldAnswer (field : FieldSpec) (answer : KString) (usedNormalizedAnswers : List KString) : Bool :=
  isUsableFieldAnswerUnless isSpeakerPlaceholderLike field answer usedNormalizedAnswers

def edgeArtifacts : List Pattern :=
  [concat [textStart, plus (oneOf "[\x7b("), star space, optional (oneOf "\"'"), star space],
    concat [oneOf "\"'", star space, oneOf ",;", star space, textEnd],
    concat [oneOf ",;", star space, oneOf "\"'", star space, textEnd],
    concat [star space, plus (oneOf "\"']\x7d)"), star space, textEnd]]

def trimLlmEdgeArtifacts (rawValue : KString) : KString :=
  let cleaned := trim rawValue
  if isBlank cleaned then cleaned
  else trim (edgeArtifacts.foldl (fun cleaned artifact => replace artifact [] cleaned) cleaned)

/-- `\s*(?:,\s*)?(?:und|ausserdem|zudem|uebrigens)\s+` -/
def clauseBreak : Pattern :=
  concat [star space, optional (.seq (oneOf ",") (star space)),
    either (["und", "ausserdem", "zudem", "uebrigens"].map litIgnoreCase), plus space]

def learningSignals : List KString :=
  ["gelernt", "mitgenommen", "naechstes", "verbessern", "sollte", "werde", "kuenftig", "zukunft"].map txt

def offTopicSignals : List KString := ["fussball", "hobby", "mag", "liebe", "spiele", "musik", "urlaub"].map txt

def isLearningLikeField (field : FieldSpec) : Bool :=
  let idNorm := normalizeKey field.id
  contains idNorm (txt "learn") || contains idNorm (txt "lesson") ||
    ["gelernt", "lernen", "mitgenommen", "naechstes", "verbessern"].any fun word =>
      contains field.normalizedLabel (txt word)

def scoreClauseForField (clause : KString) (field : FieldSpec) : Int :=
  let norm := normalizeKey clause
  if isBlank norm then 0
  else
    let keywordScore : Int := 2 * field.keywords.countP fun token => isNotBlank token && contains norm token
    let learningScore : Int := if learningSignals.any fun signal => contains norm (normalizeKey signal) then 2 else 0
    let offTopicScore : Int := if offTopicSignals.any fun signal => contains norm (normalizeKey signal) then 2 else 0
    keywordScore + learningScore - offTopicScore

def clausesOf (candidate : KString) : List KString :=
  ((split clauseBreak candidate).map fun clause => trimChars (txt ",;") (trim clause)).filter isNotBlank

def trimIrrelevantTailForField (field : FieldSpec) (candidate : KString) : KString :=
  if isBlank candidate then candidate
  else if !isLearningLikeField field then candidate
  else
    let clauses := clausesOf candidate
    if clauses.length ≤ 1 then candidate
    else
      let scored := clauses.map fun clause => (clause, scoreClauseForField clause field)
      match maxByOrNull Prod.snd scored with
      | none => candidate
      | some best =>
        let secondBestScore := ((scored.map Prod.snd).insertionSort fun a b => b ≤ a)[1]?.getD 0
        if 2 ≤ best.2 && secondBestScore < best.2 then best.1 else candidate

def normalizeCandidateForField (field : FieldSpec) (candidate : KString) : KString :=
  let cleanedCandidate := trimLlmEdgeArtifacts candidate
  if !isNameField field then trimIrrelevantTailForField field cleanedCandidate
  else (extractNameFromText cleanedCandidate).getD cleanedCandidate

def mergeRules : MergeRules := ⟨normalizeCandidateForField, isUsableFieldAnswer⟩

@[simp] theorem mergeRules_normalize : mergeRules.normalizeCandidateForField = normalizeCandidateForField := by
  rw [mergeRules]

@[simp] theorem mergeRules_usable : mergeRules.isUsableFieldAnswer = isUsableFieldAnswer := by
  rw [mergeRules]

def mergeAnswersPerField (definition : FormDefinition) (sources : AnswerSources) : MergeOutcome :=
  OnDeviceLlm.mergeAnswersPerField mergeRules (fieldSpecs definition) sources

end Android

namespace Ios

open OnDeviceLlm Pattern

def isUsableFieldAnswer (field : FieldSpec) (answer : KString) (usedNormalizedAnswers : List KString) : Bool :=
  isUsableFieldAnswerUnless (fun _ => false) field answer usedNormalizedAnswers

def normalizeCandidateForField (field : FieldSpec) (candidate : KString) : KString :=
  if !isNameField field then trim candidate else (extractNameFromText candidate).getD (trim candidate)

def mergeRules : MergeRules := ⟨normalizeCandidateForField, isUsableFieldAnswer⟩

@[simp] theorem mergeRules_normalize : mergeRules.normalizeCandidateForField = normalizeCandidateForField := by
  rw [mergeRules]

@[simp] theorem mergeRules_usable : mergeRules.isUsableFieldAnswer = isUsableFieldAnswer := by
  rw [mergeRules]

def mergeAnswersPerField (definition : FormDefinition) (sources : AnswerSources) : MergeOutcome :=
  OnDeviceLlm.mergeAnswersPerField mergeRules (fieldSpecs definition) sources

end Ios

end Form
