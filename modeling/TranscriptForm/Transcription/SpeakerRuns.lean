import Mathlib.Data.List.SplitBy
import TranscriptForm.Form.SpeakerBlocks

namespace Transcription

open Kotlin Form

structure SpeakerRun where
  speaker : KString
  segments : List TranscriptSegment
  deriving DecidableEq

/-- One pass of the loop in `toSpeakerRuns`. -/
def extendRuns (runs : List SpeakerRun) (segment : TranscriptSegment) : List SpeakerRun :=
  match runs.getLast? with
  | some lastRun =>
    if lastRun.speaker = segment.speaker then
      runs.dropLast ++ [{ lastRun with segments := lastRun.segments ++ [segment] }]
    else runs ++ [⟨segment.speaker, [segment]⟩]
  | none => runs ++ [⟨segment.speaker, [segment]⟩]

def toSpeakerRuns (segments : List TranscriptSegment) : List SpeakerRun :=
  if segments.isEmpty then []
  else segments.foldl extendRuns []

/-- The runs that a run in progress and the segments after it make. -/
def runsFrom (run : SpeakerRun) : List TranscriptSegment → List SpeakerRun
  | [] => [run]
  | segment :: rest =>
    if run.speaker = segment.speaker then runsFrom { run with segments := run.segments ++ [segment] } rest
    else run :: runsFrom ⟨segment.speaker, [segment]⟩ rest

theorem foldl_extendRuns (runs : List SpeakerRun) (run : SpeakerRun) (segments : List TranscriptSegment) :
    segments.foldl extendRuns (runs ++ [run]) = runs ++ runsFrom run segments := by
  induction segments generalizing runs run with
  | nil => rfl
  | cons segment rest ih =>
    have step : extendRuns (runs ++ [run]) segment =
        if run.speaker = segment.speaker then runs ++ [{ run with segments := run.segments ++ [segment] }]
        else (runs ++ [run]) ++ [⟨segment.speaker, [segment]⟩] := by
      simp [extendRuns]
    rw [List.foldl_cons, step, runsFrom]
    split
    · exact ih runs _
    · rw [ih (runs ++ [run]), List.append_assoc]
      rfl

theorem toSpeakerRuns_cons (first : TranscriptSegment) (rest : List TranscriptSegment) :
    toSpeakerRuns (first :: rest) = runsFrom ⟨first.speaker, [first]⟩ rest :=
  foldl_extendRuns [] ⟨first.speaker, [first]⟩ rest

structure SpeakerRun.Whole (run : SpeakerRun) : Prop where
  filled : run.segments ≠ []
  own : ∀ segment ∈ run.segments, segment.speaker = run.speaker

theorem SpeakerRun.Whole.single (segment : TranscriptSegment) :
    SpeakerRun.Whole ⟨segment.speaker, [segment]⟩ where
  filled := List.cons_ne_nil segment []
  own := by simp

theorem SpeakerRun.Whole.extend {run : SpeakerRun} {segment : TranscriptSegment} (whole : run.Whole)
    (same : run.speaker = segment.speaker) :
    SpeakerRun.Whole { run with segments := run.segments ++ [segment] } where
  filled := by simp
  own := by
    intro other member
    rcases List.mem_append.mp member with old | new
    · exact whole.own other old
    · rw [List.mem_singleton.mp new, same]

theorem runsFrom_whole {run : SpeakerRun} {segments : List TranscriptSegment} (whole : run.Whole) :
    ∀ each ∈ runsFrom run segments, each.Whole := by
  induction segments generalizing run with
  | nil =>
    intro each member
    rw [List.mem_singleton.mp member]
    exact whole
  | cons segment rest ih =>
    unfold runsFrom
    split
    · rename_i same
      exact ih (whole.extend same)
    · intro each member
      rcases List.mem_cons.mp member with same | later
      · rw [same]
        exact whole
      · exact ih (.single segment) each later

theorem runsFrom_concat (run : SpeakerRun) (segments : List TranscriptSegment) :
    (runsFrom run segments).flatMap SpeakerRun.segments = run.segments ++ segments := by
  induction segments generalizing run with
  | nil => simp [runsFrom]
  | cons segment rest ih =>
    unfold runsFrom
    split
    · simp [ih]
    · simp [ih]

theorem runsFrom_first (run : SpeakerRun) (segments : List TranscriptSegment) :
    ∃ joined later, runsFrom run segments = { run with segments := run.segments ++ joined } :: later := by
  induction segments generalizing run with
  | nil => exact ⟨[], [], by simp [runsFrom]⟩
  | cons segment rest ih =>
    unfold runsFrom
    split
    · obtain ⟨joined, later, shape⟩ := ih { run with segments := run.segments ++ [segment] }
      exact ⟨segment :: joined, later, by simp [shape]⟩
    · exact ⟨[], _, by rw [List.append_nil]⟩

theorem runsFrom_alternate (run : SpeakerRun) (segments : List TranscriptSegment) :
    (runsFrom run segments).IsChain fun left right => left.speaker ≠ right.speaker := by
  induction segments generalizing run with
  | nil => exact List.isChain_singleton run
  | cons segment rest ih =>
    unfold runsFrom
    split
    · exact ih _
    · rename_i other
      have chain := ih ⟨segment.speaker, [segment]⟩
      obtain ⟨joined, later, shape⟩ := runsFrom_first ⟨segment.speaker, [segment]⟩ rest
      rw [shape] at chain ⊢
      exact List.isChain_cons_cons.mpr ⟨other, chain⟩

theorem toSpeakerRuns_whole (segments : List TranscriptSegment) : ∀ run ∈ toSpeakerRuns segments, run.Whole := by
  cases segments with
  | nil => simp [toSpeakerRuns]
  | cons first rest =>
    rw [toSpeakerRuns_cons]
    exact runsFrom_whole (.single first)

theorem toSpeakerRuns_concat (segments : List TranscriptSegment) :
    (toSpeakerRuns segments).flatMap SpeakerRun.segments = segments := by
  cases segments with
  | nil => rfl
  | cons first rest => rw [toSpeakerRuns_cons, runsFrom_concat, List.singleton_append]

theorem toSpeakerRuns_alternate (segments : List TranscriptSegment) :
    (toSpeakerRuns segments).IsChain fun left right => left.speaker ≠ right.speaker := by
  cases segments with
  | nil => exact List.isChain_nil
  | cons first rest =>
    rw [toSpeakerRuns_cons]
    exact runsFrom_alternate _ rest

theorem toSpeakerRuns_splitBy (segments : List TranscriptSegment) :
    (toSpeakerRuns segments).map SpeakerRun.segments =
      segments.splitBy fun left right => left.speaker == right.speaker := by
  have whole := toSpeakerRuns_whole segments
  symm
  rw [List.splitBy_eq_iff]
  refine ⟨?_, ?_, ?_, ?_⟩
  · rw [← List.flatMap_def, toSpeakerRuns_concat]
  · intro listed
    obtain ⟨run, member, none⟩ := List.mem_map.mp listed
    exact (whole run member).filled none
  · intro part listed
    obtain ⟨run, member, rfl⟩ := List.mem_map.mp listed
    refine (List.pairwise_iff_forall_sublist.mpr ?_).isChain
    intro left right pair
    have leftOwn := (whole run member).own left (pair.subset List.mem_cons_self)
    have rightOwn := (whole run member).own right (pair.subset (by simp))
    rw [leftOwn, rightOwn, beq_self_eq_true]
  · rw [List.isChain_map]
    have alternate := toSpeakerRuns_alternate segments
    rw [List.isChain_iff_getElem] at alternate ⊢
    intro i bound
    have left := whole _ (List.getElem_mem (Nat.lt_of_succ_lt bound))
    have right := whole _ (List.getElem_mem bound)
    refine ⟨left.filled, right.filled, ?_⟩
    rw [left.own _ (List.getLast_mem left.filled), right.own _ (List.head_mem right.filled)]
    exact beq_false_of_ne (alternate i bound)

def SpeakerRun.startSeconds (run : SpeakerRun) : ℚ :=
  match run.segments with
  | [] => 0
  | first :: _ => first.startSeconds

def SpeakerRun.texts (run : SpeakerRun) : List KString :=
  run.segments.map fun segment => trim segment.text

def SpeakerRun.block (run : SpeakerRun) (endSeconds : ℚ) : SpeakerBlock where
  speaker := run.speaker
  text := trim (joinToString (txt " ") run.texts)
  startSeconds := run.startSeconds
  endSeconds := endSeconds

def blocksOf (lastEnd : ℚ) : List SpeakerRun → List SpeakerBlock
  | [] => []
  | [run] => [run.block lastEnd]
  | run :: next :: later => run.block next.startSeconds :: blocksOf lastEnd (next :: later)

theorem SpeakerRun.startSeconds_extend {run : SpeakerRun} (filled : run.segments ≠ []) (joined : List TranscriptSegment) :
    SpeakerRun.startSeconds { run with segments := run.segments ++ joined } = run.startSeconds := by
  obtain ⟨speaker, segments⟩ := run
  cases segments with
  | nil => exact absurd rfl filled
  | cons first rest => rfl

/-- The accumulators of `buildSpeakerBlocks` always hold the run in progress. -/
theorem blocksFrom_runs (lastEnd : ℚ) (run : SpeakerRun) (segments : List TranscriptSegment)
    (filled : run.segments ≠ []) :
    TranscriptToFormMapper.blocksFrom lastEnd run.speaker run.texts run.startSeconds segments =
      blocksOf lastEnd (runsFrom run segments) := by
  induction segments generalizing run with
  | nil => simp [TranscriptToFormMapper.blocksFrom, runsFrom, blocksOf, SpeakerRun.block, SpeakerRun.texts, filled]
  | cons segment rest ih =>
    unfold TranscriptToFormMapper.blocksFrom runsFrom
    by_cases same : run.speaker = segment.speaker
    · have joined := ih { run with segments := run.segments ++ [segment] } (by simp)
      rw [SpeakerRun.startSeconds_extend filled] at joined
      rw [if_neg (by simpa using same.symm), if_pos same, ← joined]
      simp [SpeakerRun.texts]
    · have opened := ih ⟨segment.speaker, [segment]⟩ (List.cons_ne_nil segment [])
      obtain ⟨joined, later, shape⟩ := runsFrom_first ⟨segment.speaker, [segment]⟩ rest
      rw [if_pos (Ne.symm same), if_neg same, shape, blocksOf,
        SpeakerRun.startSeconds_extend (List.cons_ne_nil segment []), ← shape, ← opened]
      rfl

theorem buildSpeakerBlocks_runs (response : TranscriptionResponse) :
    TranscriptToFormMapper.buildSpeakerBlocks response =
      blocksOf (response.segments.getLast?.elim 0 TranscriptSegment.endSeconds) (toSpeakerRuns response.segments) := by
  unfold TranscriptToFormMapper.buildSpeakerBlocks
  split
  · rename_i none
    rw [none]
    rfl
  · rename_i first rest shape
    rw [shape, toSpeakerRuns_cons, List.getLast?_eq_some_getLast (List.cons_ne_nil first rest)]
    rw [← blocksFrom_runs _ _ rest (List.cons_ne_nil first [])]
    simp [TranscriptToFormMapper.blocksFrom, SpeakerRun.texts, SpeakerRun.startSeconds]

theorem blocksOf_getElem? (lastEnd : ℚ) (runs : List SpeakerRun) (i : ℕ) :
    (blocksOf lastEnd runs)[i]? =
      runs[i]?.map fun run => run.block (runs[i + 1]?.elim lastEnd SpeakerRun.startSeconds) := by
  induction runs using blocksOf.induct generalizing i with
  | case1 => rfl
  | case2 run => cases i <;> rfl
  | case3 run next later ih =>
    cases i with
    | zero => rfl
    | succ i => exact ih i

theorem blocksOf_speakers (lastEnd : ℚ) (runs : List SpeakerRun) :
    (blocksOf lastEnd runs).map SpeakerBlock.speaker = runs.map SpeakerRun.speaker := by
  apply List.ext_getElem?
  intro i
  rw [List.getElem?_map, List.getElem?_map, blocksOf_getElem?, Option.map_map]
  rfl

theorem SpeakerRun.Whole.starts {run : SpeakerRun} (whole : run.Whole) :
    ∃ first, run.segments.head? = some first ∧ run.startSeconds = first.startSeconds := by
  obtain ⟨first, rest, shape⟩ := List.exists_cons_of_ne_nil whole.filled
  exact ⟨first, by rw [shape, List.head?_cons], by rw [SpeakerRun.startSeconds, shape]⟩

theorem speakerBlocks_follow_runs (response : TranscriptionResponse) :
    let runs := toSpeakerRuns response.segments
    let blocks := TranscriptToFormMapper.buildSpeakerBlocks response
    blocks.length = runs.length ∧ blocks.map SpeakerBlock.speaker = runs.map SpeakerRun.speaker ∧
      (runs.IsChain fun left right => left.speaker ≠ right.speaker) ∧
      (∀ run ∈ runs, ∀ segment ∈ run.segments, segment.speaker = run.speaker) ∧
      runs.flatMap SpeakerRun.segments = response.segments ∧
      ∀ i run, runs[i]? = some run →
        ∃ block first, blocks[i]? = some block ∧ run.segments.head? = some first ∧
          block.text = trim (joinToString (txt " ") (run.segments.map fun segment => trim segment.text)) ∧
          block.startSeconds = first.startSeconds ∧
          (∀ next, runs[i + 1]? = some next →
            ∃ nextFirst, next.segments.head? = some nextFirst ∧ block.endSeconds = nextFirst.startSeconds) ∧
          (i + 1 = runs.length →
            ∃ last, response.segments.getLast? = some last ∧ block.endSeconds = last.endSeconds) := by
  intro runs blocks
  have whole : ∀ run ∈ runs, run.Whole := toSpeakerRuns_whole response.segments
  have concat : runs.flatMap SpeakerRun.segments = response.segments := toSpeakerRuns_concat response.segments
  have speakers : blocks.map SpeakerBlock.speaker = runs.map SpeakerRun.speaker := by
    rw [show blocks = _ from buildSpeakerBlocks_runs response, blocksOf_speakers]
  refine ⟨by simpa using congrArg List.length speakers, speakers, toSpeakerRuns_alternate response.segments,
    fun run member => (whole run member).own, concat, ?_⟩
  intro i run found
  have member : run ∈ runs := List.mem_of_getElem? found
  obtain ⟨first, head, start⟩ := (whole run member).starts
  have block : blocks[i]? = some (run.block (runs[i + 1]?.elim
      (response.segments.getLast?.elim 0 TranscriptSegment.endSeconds) SpeakerRun.startSeconds)) := by
    rw [show blocks = _ from buildSpeakerBlocks_runs response, blocksOf_getElem?, found]
    rfl
  refine ⟨_, first, block, head, rfl, start, ?_, ?_⟩
  · intro next after
    obtain ⟨nextFirst, nextHead, nextStart⟩ := (whole next (List.mem_of_getElem? after)).starts
    exact ⟨nextFirst, nextHead, by rw [after]; exact nextStart⟩
  · intro final
    have nonempty : response.segments ≠ [] := by
      intro none
      rw [none] at concat
      exact (whole run member).filled (List.flatMap_eq_nil_iff.mp concat run member)
    refine ⟨_, List.getLast?_eq_some_getLast nonempty, ?_⟩
    have beyond : runs[i + 1]? = none := List.getElem?_eq_none (by omega)
    rw [beyond, List.getLast?_eq_some_getLast nonempty]
    rfl

end Transcription
