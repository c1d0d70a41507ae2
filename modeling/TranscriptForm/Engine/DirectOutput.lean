import TranscriptForm.Engine.ContextBound

namespace Engine

open Utf8

variable {τ : Type} {vocab : Vocab τ} {input : InferInput τ} {world : InferWorld τ}

/-- The pieces of `count` sampled tokens, put together. -/
def pieces (vocab : Vocab τ) (sampled : Nat → τ) (i count : Nat) : Bytes :=
  (List.range' i count).flatMap fun step => vocab.tokenToPiece (sampled step)

/-- The first complete object of an output, or else all of it. -/
def completed (output : Bytes) : Bytes := (tryExtractCompleteJsonObject output).getD output

/-- The first token that ends the generation is sampled at the given step. -/
structure EndsAt (vocab : Vocab τ) (sampled : Nat → τ) (step : Nat) : Prop where
  eog : vocab.isEog (sampled step) = true
  before : ∀ i < step, vocab.isEog (sampled i) = false

theorem pieces_succ (vocab : Vocab τ) (sampled : Nat → τ) (i count : Nat) :
    pieces vocab sampled i (count + 1) = vocab.tokenToPiece (sampled i) ++ pieces vocab sampled (i + 1) count := by
  rw [pieces, List.range'_succ, List.flatMap_cons]
  rfl

theorem pieces_add (vocab : Vocab τ) (sampled : Nat → τ) (i first more : Nat) :
    pieces vocab sampled i (first + more) = pieces vocab sampled i first ++ pieces vocab sampled (i + first) more := by
  rw [pieces, ← List.range'_append_1, List.flatMap_append]
  rfl

theorem completed_append {output object : Bytes} (more : Bytes)
    (found : tryExtractCompleteJsonObject output = some object) : completed (output ++ more) = object := by
  rw [completed, tryExtractCompleteJsonObject_append more found]
  rfl

/-- Unless it fails, the loop ends with the object of all pieces before the end of generation or the token limit,
    wherever in them the object is complete. -/
theorem generateFrom_output {steps count i position : Nat} {output : Bytes}
    (incomplete : tryExtractCompleteJsonObject output = none)
    (plain : ∀ j < count, vocab.isEog (world.sampled (i + j)) = false)
    (ends : steps = count ∨ count < steps ∧ vocab.isEog (world.sampled (i + count)) = true) :
    (∃ error, (generateFrom vocab world steps i output position).result = .error error) ∨
      (generateFrom vocab world steps i output position).result =
        .ok (completed (output ++ pieces vocab world.sampled i count)) := by
  have whole : completed output = output := by rw [completed, incomplete]; rfl
  induction steps generalizing count i position output with
  | zero =>
    right
    have none : count = 0 := by omega
    subst none
    simp [pieces, generateFrom, whole]
  | succ steps ih =>
    rw [generateFrom]
    split
    · exact .inl ⟨_, rfl⟩
    · dsimp only
      by_cases stops : vocab.isEog (world.sampled i) = true
      · right
        have none : count = 0 := by
          by_contra some
          have going := plain 0 (Nat.pos_of_ne_zero some)
          rw [Nat.add_zero, stops] at going
          cases going
        subst none
        simp [stops, pieces, whole]
      · obtain ⟨rest, rfl⟩ : ∃ rest, count = rest + 1 := by
          rcases ends with same | ⟨below, eog⟩
          · exact ⟨steps, same.symm⟩
          · cases count with
            | zero => exact absurd eog stops
            | succ rest => exact ⟨rest, rfl⟩
        rw [if_neg stops, pieces_succ, ← List.append_assoc]
        cases found : tryExtractCompleteJsonObject (output ++ vocab.tokenToPiece (world.sampled i)) with
        | some object =>
          right
          rw [completed_append _ found]
        | none =>
          dsimp only
          split
          · exact .inl ⟨_, rfl⟩
          · refine ih found (fun j below => ?_) ?_ (by rw [completed, found]; rfl)
            · have going := plain (j + 1) (by omega)
              rwa [show i + (j + 1) = i + 1 + j by omega] at going
            · rcases ends with same | ⟨below, eog⟩
              · exact .inl (by omega)
              · exact .inr ⟨by omega, by rwa [show i + 1 + rest = i + (rest + 1) by omega]⟩

theorem generate_output {step : Nat} (ends : EndsAt vocab world.sampled step) :
    (∃ error, (input.generate vocab world).result = .error error) ∨
      (input.generate vocab world).result =
        .ok (completed (pieces vocab world.sampled 0 (min step input.nPredict.toNat))) := by
  apply generateFrom_output rfl
  · intro j below
    rw [Nat.zero_add]
    exact ends.before j (by omega)
  · by_cases below : step < input.nPredict.toNat
    · right
      rw [Nat.min_eq_left below.le, Nat.zero_add]
      exact ⟨below, ends.eog⟩
    · left
      omega

theorem directInfer_output {step : Nat} (ends : EndsAt vocab world.sampled step) :
    (∃ error, (directInfer vocab input world).result = .error error) ∨
      input.Accepted ∧ (directInfer vocab input world).result =
        .ok (completed (pieces vocab world.sampled 0 (min step input.nPredict.toNat))) := by
  rcases directInfer_cases vocab input world with ⟨error, refused⟩ | ⟨accepted, ⟨error, _, failed⟩ | ⟨_, generated⟩⟩
  · exact .inl ⟨error, by rw [refused]⟩
  · exact .inl ⟨error, by rw [failed]⟩
  · rw [generated]
    rcases generate_output ends with failed | ok
    · exact .inl failed
    · exact .inr ⟨accepted, ok⟩

theorem handed_undisturbed {step : Nat} (accepted : input.Accepted) (undisturbed : world.Undisturbed)
    (ends : EndsAt vocab world.sampled step) : (directInfer vocab input world).handed =
      cString (completed (pieces vocab world.sampled 0 (min step input.nPredict.toNat))) := by
  have result : (directInfer vocab input world).result =
      .ok (completed (pieces vocab world.sampled 0 (min step input.nPredict.toNat))) := by
    rw [directInfer_undisturbed accepted undisturbed]
    rcases generate_output ends with ⟨error, failed⟩ | ok
    · obtain ⟨answer, returned⟩ := generateFrom_undisturbed undisturbed input.nPredict.toNat 0 []
        input.prompt.length
      rw [InferInput.generate, returned] at failed
      cases failed
    · exact ok
  rw [InferRun.handed, result]

section Boundaries

structure EndsByItself (vocab : Vocab τ) (input : InferInput τ) (world : InferWorld τ) (step : Nat) : Prop where
  accepted : input.Accepted
  undisturbed : world.Undisturbed
  ends : EndsAt vocab world.sampled step
  below : (step : Int) < input.nPredict

theorem handed_endsByItself {step : Nat} (call : EndsByItself vocab input world step) :
    (directInfer vocab input world).handed = cString (completed (pieces vocab world.sampled 0 step)) := by
  have below := call.below
  rw [handed_undisturbed call.accepted call.undisturbed call.ends, Nat.min_eq_left (by omega)]

theorem cString_nonzero {output : Bytes} (nonzero : 0 ∉ output) : cString output = output := by
  apply List.takeWhile_eq_self_iff.mpr
  intro byte member
  have other : byte ≠ 0 := ne_of_mem_of_not_mem member nonzero
  simpa using other

theorem cString_append {output : Bytes} (more : Bytes) (zero : 0 ∈ output) : cString (output ++ more) = cString output := by
  unfold cString
  rw [List.takeWhile_append, if_neg]
  intro whole
  have same := (List.takeWhile_prefix (p := fun byte : UInt8 => decide (byte ≠ 0)) (l := output)).eq_of_length whole
  have kept := List.takeWhile_eq_self_iff.mp same 0 zero
  simp at kept

theorem completed_part (output : Bytes) : completed output <:+: output := by
  unfold completed
  cases found : tryExtractCompleteJsonObject output with
  | none => exact List.infix_rfl
  | some object => exact tryExtractCompleteJsonObject_infix found

variable {vocab' : Vocab τ} {input' : InferInput τ} {world' : InferWorld τ}

/-- Only the concatenation of the pieces matters, and of the text made of it what comes before a zero byte. -/
theorem handed_of_concatenation {step step' : Nat} (call : EndsByItself vocab input world step)
    (other : EndsByItself vocab' input' world' step')
    (same : pieces vocab world.sampled 0 step = pieces vocab' world'.sampled 0 step') :
    (directInfer vocab input world).handed = (directInfer vocab' input' world').handed ∧
      (directInfer vocab input world).handed = cString (completed (pieces vocab world.sampled 0 step)) ∧
      (0 ∉ pieces vocab world.sampled 0 step →
        (directInfer vocab input world).handed = completed (pieces vocab world.sampled 0 step)) ∧
      ∀ output object more : Bytes, tryExtractCompleteJsonObject output = some object →
        tryExtractCompleteJsonObject (output ++ more) = some object := by
  have handed := handed_endsByItself call
  refine ⟨?_, handed, fun nonzero => ?_, fun _ _ more found => tryExtractCompleteJsonObject_append more found⟩
  · rw [handed, handed_endsByItself other, same]
  · rw [handed, cString_nonzero fun member => nonzero ((completed_part _).subset member)]

end Boundaries

section Characters

theorem isUtf8_error (error : InferError) : IsUtf8 error.text := by
  apply IsUtf8.ascii
  have ascii : error.text.all (fun byte => byte.toNat < 0x80) = true := by cases error <;> decide
  simpa using ascii

theorem isUtf8_completed {output : Bytes} (valid : IsUtf8 output) : IsUtf8 (completed output) := by
  unfold completed
  cases found : tryExtractCompleteJsonObject output with
  | none => exact valid
  | some object => exact isUtf8_object valid found

/-- What is cut off at the token limit is no part of a character, or does not matter. -/
def CutsNoCharacter (vocab : Vocab τ) (sampled : Nat → τ) (limit step : Nat) : Prop :=
  step ≤ limit ∨ (tryExtractCompleteJsonObject (pieces vocab sampled 0 limit)).isSome = true ∨
    0 ∈ pieces vocab sampled 0 limit ∨ BetweenChars (pieces vocab sampled limit (step - limit))

theorem isUtf8_cString_iff {sampled : Nat → τ} {limit step : Nat} (valid : IsUtf8 (pieces vocab sampled 0 step)) :
    IsUtf8 (cString (completed (pieces vocab sampled 0 (min step limit)))) ↔ CutsNoCharacter vocab sampled limit step := by
  unfold CutsNoCharacter
  by_cases all : step ≤ limit
  · rw [Nat.min_eq_left all]
    exact ⟨fun _ => .inl all, fun _ => isUtf8_takeWhile (isUtf8_completed valid)⟩
  · have whole : pieces vocab sampled 0 step =
        pieces vocab sampled 0 limit ++ pieces vocab sampled limit (step - limit) := by
      have split := pieces_add vocab sampled 0 limit (step - limit)
      rwa [Nat.zero_add, show limit + (step - limit) = step by omega] at split
    rw [whole] at valid
    rw [Nat.min_eq_right (by omega)]
    cases found : tryExtractCompleteJsonObject (pieces vocab sampled 0 limit) with
    | some object =>
      have objectValid : IsUtf8 object := isUtf8_object valid (tryExtractCompleteJsonObject_append _ found)
      rw [completed, found]
      exact ⟨fun _ => .inr (.inl rfl), fun _ => isUtf8_takeWhile objectValid⟩
    | none =>
      have output : completed (pieces vocab sampled 0 limit) = pieces vocab sampled 0 limit := by
        rw [completed, found]
        rfl
      rw [output]
      by_cases zero : 0 ∈ pieces vocab sampled 0 limit
      · rw [← cString_append _ zero]
        exact ⟨fun _ => .inr (.inr (.inl zero)), fun _ => isUtf8_takeWhile valid⟩
      · rw [cString_nonzero zero, isUtf8_cut valid]
        simp [all, zero]

theorem isUtf8_handed_iff {sampled : Nat → τ} {step : Nat} (ends : EndsAt vocab sampled step)
    (valid : IsUtf8 (pieces vocab sampled 0 step)) :
    (∀ world : InferWorld τ, world.sampled = sampled → IsUtf8 (directInfer vocab input world).handed) ↔
      (input.Accepted → CutsNoCharacter vocab sampled input.nPredict.toNat step) := by
  constructor
  · intro whole accepted
    have handed := whole { sampled := sampled } rfl
    rw [handed_undisturbed accepted (undisturbed_default sampled) ends] at handed
    exact (isUtf8_cString_iff valid).mp handed
  · rintro cut world rfl
    rcases directInfer_output ends with ⟨error, failed⟩ | ⟨accepted, output⟩
    · rw [InferRun.handed, failed]
      exact isUtf8_error error
    · rw [InferRun.handed, output]
      exact (isUtf8_cString_iff valid).mpr (cut accepted)

end Characters

section Sample

/-- Pieces that split an `ä`, and one with a zero byte. -/
def splitVocab : Vocab Nat where
  isEog token := token == 0
  tokenToPiece token := if token == 1 then [0xC3] else if token == 2 then [0xA4] else [0x61, 0x00, 0x62]

def splitInput (nPredict : Int) : InferInput Nat where
  loaded := true
  prompt := [5]
  runtimeNCtx := 128
  directPrefillChunk := 1
  directBatchCapacity := 32
  batchInitialized := true
  nPredict := nPredict

def splitSampled (step : Nat) : Nat := [1, 2].getD step 0

theorem splitSampled_ends : EndsAt splitVocab splitSampled 2 where
  eog := rfl
  before := by decide

theorem splitSampled_valid : IsUtf8 (pieces splitVocab splitSampled 0 2) := ⟨['ä'], by decide⟩

theorem splitInput_accepted (nPredict : Int) : (splitInput nPredict).Accepted :=
  ⟨rfl, by simp [splitInput], by simp [splitInput], rfl⟩

theorem isUtf8_handed_sample :
    IsUtf8 (directInfer splitVocab (splitInput 2) { sampled := splitSampled }).handed := by
  have cut : (splitInput 2).Accepted → CutsNoCharacter splitVocab splitSampled (splitInput 2).nPredict.toNat 2 :=
    fun _ => .inl (by decide)
  exact (isUtf8_handed_iff splitSampled_ends splitSampled_valid).mpr cut { sampled := splitSampled } rfl

theorem half_character_handed : (splitInput 1).Accepted ∧ EndsAt splitVocab splitSampled 2 ∧
    IsUtf8 (pieces splitVocab splitSampled 0 2) ∧
      ¬ IsUtf8 (directInfer splitVocab (splitInput 1) { sampled := splitSampled }).handed := by
  refine ⟨splitInput_accepted 1, splitSampled_ends, splitSampled_valid, fun whole => ?_⟩
  have handed : (directInfer splitVocab (splitInput 1) { sampled := splitSampled }).handed =
      cString (completed (pieces splitVocab splitSampled 0 (min 2 1))) :=
    handed_undisturbed (splitInput_accepted 1) (undisturbed_default splitSampled) splitSampled_ends
  rw [handed] at whole
  have cut := (isUtf8_cString_iff splitSampled_valid).mp whole
  rcases cut with all | found | zero | between
  · exact absurd all (by decide)
  · exact absurd found (by decide)
  · exact absurd zero (by decide)
  · exact absurd (between 0xA4 rfl) (by decide)

/-- An object with a closing brace in its string and two bytes more, in three pieces. -/
def objectVocab : Vocab Nat where
  isEog token := token == 0
  tokenToPiece token :=
    if token == 1 then [0x7B, 0x22, 0x61] else if token == 2 then [0x22, 0x3A, 0x22, 0x7D] else [0x22, 0x7D, 0x20, 0x78]

/-- The same bytes in two pieces. -/
def otherVocab : Vocab Nat where
  isEog token := token == 0
  tokenToPiece token :=
    if token == 1 then [0x7B, 0x22, 0x61, 0x22, 0x3A] else [0x22, 0x7D, 0x22, 0x7D, 0x20, 0x78]

theorem handed_of_concatenation_sample :
    let handed := (directInfer objectVocab (splitInput 9) { sampled := fun step => [1, 2, 3].getD step 0 }).handed
    handed = (directInfer otherVocab (splitInput 9) { sampled := fun step => [1, 2].getD step 0 }).handed ∧
      handed = [0x7B, 0x22, 0x61, 0x22, 0x3A, 0x22, 0x7D, 0x22, 0x7D] := by
  have call : EndsByItself objectVocab (splitInput 9) { sampled := fun step => [1, 2, 3].getD step 0 } 3 :=
    ⟨splitInput_accepted 9, undisturbed_default _, ⟨rfl, by decide⟩, by decide⟩
  have other : EndsByItself otherVocab (splitInput 9) { sampled := fun step => [1, 2].getD step 0 } 2 :=
    ⟨splitInput_accepted 9, undisturbed_default _, ⟨rfl, by decide⟩, by decide⟩
  obtain ⟨same, _, whole, _⟩ := handed_of_concatenation call other (by decide)
  exact ⟨same, (whole (by decide)).trans (by decide +kernel)⟩

theorem handed_cut_at_zero : ¬ ∀ (vocab : Vocab Nat) (input : InferInput Nat) (world : InferWorld Nat) (step : Nat),
    EndsByItself vocab input world step →
      (directInfer vocab input world).handed = completed (pieces vocab world.sampled 0 step) := by
  intro all
  have call : EndsByItself splitVocab (splitInput 2) { sampled := fun step => if step = 0 then 3 else 0 } 1 :=
    ⟨splitInput_accepted 2, undisturbed_default _, ⟨rfl, by decide⟩, by decide⟩
  have same := all _ _ _ _ call
  rw [handed_endsByItself call] at same
  exact absurd same (by decide)

end Sample

end Engine
