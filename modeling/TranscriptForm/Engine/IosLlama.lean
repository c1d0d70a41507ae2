import TranscriptForm.Swift.Strings
import TranscriptForm.Engine.DirectInfer

namespace Engine

open Kotlin

def llamaBatchCapacity : Nat := 2048

variable {τ : Type}

/-- `llama_batch_add`, which leaves out what does not fit. -/
def llamaBatchAdd (batch : Batch τ) (entry : BatchEntry τ) : Batch τ :=
  if llamaBatchCapacity ≤ batch.length then batch else batch ++ [entry]

/-- The `LlamaContext` actor. -/
structure LlamaContext (τ : Type) where
  batch : Batch τ := []
  tokensList : List τ := []
  isDone : Bool := false
  temporaryInvalidCchars : Bytes := []
  nLen : Int := 1024
  nCur : Int := 0

namespace LlamaContext

def clear (s : LlamaContext τ) : LlamaContext τ := { s with tokensList := [], temporaryInvalidCchars := [] }

def configureGeneration (maxTokens : Int) (s : LlamaContext τ) : LlamaContext τ :=
  { s with nLen := max 64 maxTokens, isDone := false }

/-- `batch.logits[n_tokens - 1] = 1`, a write in front of the array if there is no token: there is no state after it. -/
def wantLastLogits (batch : Batch τ) : Option (Batch τ) :=
  batch.getLast?.map fun last => batch.dropLast ++ [{ last with logits := true }]

def completionInit (tokens : List τ) (s : LlamaContext τ) : Option (LlamaContext τ) :=
  let added := tokens.zipIdx.foldl (fun batch (token, i) => llamaBatchAdd batch ⟨token, i, false⟩) []
  (wantLastLogits added).map fun batch =>
    { s with tokensList := tokens, temporaryInvalidCchars := [], batch := batch, nCur := batch.length }

/-- The text of the bytes so far, and those kept for later. -/
def newTokenStr (cchars : Bytes) : KString × Bytes :=
  match Swift.validatingUTF8 cchars with
  | some string => (string, [])
  | none =>
    if (List.range cchars.length).any fun count =>
        count ≠ 0 && (Swift.validatingUTF8 (cchars.drop (cchars.length - count))).isSome then (Swift.cString cchars, [])
    else ([], cchars)

/-- `completion_loop`. A position beyond `Int32` traps. -/
def completionLoop (vocab : Vocab τ) (newTokenId : τ) (s : LlamaContext τ) : Option (LlamaContext τ × KString) :=
  if vocab.isEog newTokenId || s.nCur == s.nLen then
    some ({ s with isDone := true, temporaryInvalidCchars := [] }, Swift.cString s.temporaryInvalidCchars)
  else
    let text := newTokenStr (s.temporaryInvalidCchars ++ vocab.tokenToPiece newTokenId)
    if s.nCur = Int32.maxValue.toInt then none
    else some ({ s with
      temporaryInvalidCchars := text.2
      batch := llamaBatchAdd [] ⟨newTokenId, s.nCur.toNat, true⟩
      nCur := s.nCur + 1 }, text.1)

end LlamaContext

section Loop

variable [Swift.Characters]

/-- The loop of `completeJson` in at most `rounds` rounds, each of which samples one token: the text of an end within
    them. -/
def completeFrom (vocab : Vocab τ) (maxTokens : Int) (sampled : Nat → τ) : Nat → Nat → LlamaContext τ → KString →
    Option KString
  | rounds, i, s, aggregated =>
    if s.isDone then some aggregated
    else match rounds with
      | 0 => none
      | rounds + 1 =>
        match s.completionLoop vocab (sampled i) with
        | none => none
        | some (s, token) =>
          let aggregated := aggregated ++ token
          if maxTokens * 8 < Swift.Characters.count aggregated then some aggregated
          else completeFrom vocab maxTokens sampled rounds (i + 1) s aggregated

def completeJson (vocab : Vocab τ) (maxTokens : Int32) (prompt : List τ) (sampled : Nat → τ) (rounds : Nat)
    (s : LlamaContext τ) : Option KString := do
  let s ← (s.clear.configureGeneration maxTokens.toInt).completionInit prompt
  let aggregated ← completeFrom vocab maxTokens.toInt sampled rounds 0 s []
  return Swift.trimmingCharacters aggregated

end Loop

theorem newTokenStr_encodeAll {chars : List Char} (nonzero : 0 ∉ Utf8.encodeAll chars) :
    LlamaContext.newTokenStr (Utf8.encodeAll chars) = (Swift.ofScalars chars, []) := by
  rw [LlamaContext.newTokenStr, Swift.validatingUTF8_encodeAll nonzero]

section Init

variable {s after : LlamaContext τ} {prompt : List τ}

theorem length_llamaBatchAdd (batch : Batch τ) (entry : BatchEntry τ) :
    (llamaBatchAdd batch entry).length = max batch.length (min (batch.length + 1) llamaBatchCapacity) := by
  unfold llamaBatchAdd
  split
  · omega
  · rw [List.length_append, List.length_singleton]
    omega

theorem length_foldl_llamaBatchAdd (tokens : List (τ × Nat)) {batch : Batch τ} (fits : batch.length ≤ llamaBatchCapacity) :
    (tokens.foldl (fun batch (token, i) => llamaBatchAdd batch ⟨token, i, false⟩) batch).length =
      min (batch.length + tokens.length) llamaBatchCapacity := by
  induction tokens generalizing batch with
  | nil => exact (Nat.min_eq_left fits).symm
  | cons token tokens ih =>
    have added := length_llamaBatchAdd batch ⟨token.1, token.2, false⟩
    rw [List.foldl_cons, ih (by rw [added]; omega), added, List.length_cons]
    omega

theorem length_wantLastLogits {batch wanted : Batch τ} (some : LlamaContext.wantLastLogits batch = some wanted) :
    wanted.length = batch.length := by
  obtain ⟨last, ends, rfl⟩ := Option.map_eq_some_iff.mp some
  cases batch with
  | nil => cases ends
  | cons first batch => simp

structure Initialized (s after : LlamaContext τ) (prompt : List τ) : Prop where
  nCur : after.nCur = min prompt.length llamaBatchCapacity
  nLen : after.nLen = s.nLen
  isDone : after.isDone = s.isDone
  cchars : after.temporaryInvalidCchars = []

theorem completionInit_some (nonempty : prompt ≠ []) :
    ∃ after, s.completionInit prompt = some after ∧ Initialized s after prompt := by
  have none : ([] : Batch τ).length ≤ llamaBatchCapacity := Nat.zero_le _
  have length := length_foldl_llamaBatchAdd prompt.zipIdx none
  rw [List.length_nil, Nat.zero_add, List.length_zipIdx] at length
  unfold LlamaContext.completionInit
  dsimp only
  generalize prompt.zipIdx.foldl (fun batch (token, i) => llamaBatchAdd batch ⟨token, i, false⟩) [] = added at length ⊢
  have positive : 0 < added.length := by
    have tokens := List.length_pos_iff.mpr nonempty
    have capacity : 0 < llamaBatchCapacity := by decide
    omega
  have last : added.getLast? = some (added.getLast (List.length_pos_iff.mp positive)) :=
    List.getLast?_eq_getLast_of_ne_nil _
  obtain ⟨wanted, wants⟩ : ∃ wanted, LlamaContext.wantLastLogits added = some wanted :=
    ⟨_, by rw [LlamaContext.wantLastLogits, last]; rfl⟩
  rw [wants]
  refine ⟨_, rfl, ?_, rfl, rfl, rfl⟩
  dsimp only
  rw [length_wantLastLogits wants, length]

end Init

section Bound

variable {vocab : Vocab τ} {maxTokens : Int} {sampled : Nat → τ} {s after : LlamaContext τ} {token : τ}

structure GoesOn (s after : LlamaContext τ) : Prop where
  nCur : after.nCur = s.nCur + 1
  nLen : after.nLen = s.nLen
  isDone : after.isDone = s.isDone

theorem completionLoop_cases (vocab : Vocab τ) (token : τ) (s : LlamaContext τ) :
    (∃ after text, s.completionLoop vocab token = some (after, text) ∧ after.isDone = true) ∨
      (∃ after text, s.completionLoop vocab token = some (after, text) ∧ s.nCur ≠ s.nLen ∧ GoesOn s after) ∨
      s.completionLoop vocab token = none ∧ s.nCur ≠ s.nLen ∧ s.nCur = Int32.maxValue.toInt := by
  unfold LlamaContext.completionLoop
  split
  · exact .inl ⟨_, _, rfl, rfl⟩
  · rename_i goesOn
    have further : s.nCur ≠ s.nLen := by
      intro same
      simp [same] at goesOn
    dsimp only
    split
    · rename_i last
      exact .inr (.inr ⟨rfl, further, last⟩)
    · exact .inr (.inl ⟨_, _, rfl, further, rfl, rfl, rfl⟩)

variable [Swift.Characters]

theorem completeFrom_done {rounds i : Nat} {aggregated : KString} (done : s.isDone = true) :
    completeFrom vocab maxTokens sampled rounds i s aggregated = some aggregated := by
  rw [completeFrom.eq_def]
  exact if_pos done

theorem completeFrom_ends {rounds i : Nat} {aggregated : KString} (below : s.nCur ≤ s.nLen)
    (small : s.nLen ≤ Int32.maxValue.toInt) (enough : s.nLen - s.nCur < rounds) :
    (completeFrom vocab maxTokens sampled rounds i s aggregated).isSome = true := by
  induction rounds generalizing i s aggregated with
  | zero => omega
  | succ rounds ih =>
    rw [completeFrom]
    split
    · rfl
    · rcases completionLoop_cases vocab (sampled i) s with
        ⟨after, text, round, done⟩ | ⟨after, text, round, further, next⟩ | ⟨_, further, last⟩
      · rw [round]
        dsimp only
        split
        · rfl
        · rw [completeFrom_done done]
          rfl
      · rw [round]
        dsimp only
        have nCur := next.nCur
        have nLen := next.nLen
        split
        · rfl
        · apply ih <;> omega
      · omega

theorem completeFrom_negative {rounds i : Nat} {aggregated : KString} (negative : maxTokens < 0)
    (small : s.nCur < Int32.maxValue.toInt) :
    (completeFrom vocab maxTokens sampled (rounds + 1) i s aggregated).isSome = true := by
  rw [completeFrom]
  split
  · rfl
  · have beyond (text : KString) : maxTokens * 8 < Swift.Characters.count text := by omega
    rcases completionLoop_cases vocab (sampled i) s with
      ⟨after, text, round, _⟩ | ⟨after, text, round, _, _⟩ | ⟨_, _, last⟩
    · rw [round]
      exact congrArg Option.isSome (if_pos (beyond _))
    · rw [round]
      exact congrArg Option.isSome (if_pos (beyond _))
    · omega

/-- A position beyond the limit only moves away from it, and empty pieces add no characters: the loop never ends. -/
theorem completeFrom_silent {rounds i : Nat} (going : s.isDone = false) (beyond : s.nLen < s.nCur) (nonneg : 0 ≤ maxTokens)
    (nothing : s.temporaryInvalidCchars = []) : completeFrom silentVocab maxTokens sampled rounds i s [] = none := by
  induction rounds generalizing i s with
  | zero =>
    rw [completeFrom, going]
    rfl
  | succ rounds ih =>
    have notLast : (s.nCur == s.nLen) = false := by
      rw [beq_eq_false_iff_ne]
      omega
    have empty : LlamaContext.newTokenStr [] = ([], []) := rfl
    have short : ¬ maxTokens * 8 < Swift.Characters.count [] := by
      rw [Swift.Characters.count_empty]
      omega
    rw [completeFrom, going]
    simp only [LlamaContext.completionLoop, silentVocab, notLast, nothing, List.append_nil, empty, Bool.or_false,
      Bool.false_eq_true, if_false]
    by_cases last : s.nCur = Int32.maxValue.toInt
    · rw [if_pos last]
    · rw [if_neg last]
      dsimp only
      rw [List.append_nil, if_neg short]
      exact ih going (by dsimp only; omega) rfl

theorem completeJson_loop {maxTokens : Int32} {prompt : List τ} (nonempty : prompt ≠ []) (s : LlamaContext τ) :
    ∃ after, Initialized (s.clear.configureGeneration maxTokens.toInt) after prompt ∧ ∀ vocab sampled rounds,
      completeJson vocab maxTokens prompt sampled rounds s =
        (completeFrom vocab maxTokens.toInt sampled rounds 0 after []).map Swift.trimmingCharacters := by
  obtain ⟨after, started, initialized⟩ := @completionInit_some _ (s.clear.configureGeneration maxTokens.toInt) _ nonempty
  refine ⟨after, initialized, fun vocab sampled rounds => ?_⟩
  rw [completeJson, started]
  exact Option.map_eq_bind.symm

theorem completeJson_silent {maxTokens : Int32} {prompt : List τ} (beyond : 64 < min prompt.length llamaBatchCapacity)
    (limit : maxTokens.toInt < min prompt.length llamaBatchCapacity) (nonneg : 0 ≤ maxTokens.toInt) (sampled : Nat → τ)
    (rounds : Nat) (s : LlamaContext τ) : completeJson silentVocab maxTokens prompt sampled rounds s = none := by
  have nonempty : prompt ≠ [] := List.length_pos_iff.mp (by omega)
  obtain ⟨after, initialized, loop⟩ := completeJson_loop nonempty s
  have nLen : after.nLen = max 64 maxTokens.toInt := initialized.nLen
  have nCur := initialized.nCur
  rw [loop, completeFrom_silent initialized.isDone (by omega) nonneg initialized.cchars]
  rfl

/-- Whatever is sampled, the loop ends within the limit if and only if the prompt ends before it, or the limit on
    characters is negative. -/
theorem completeJson_ends_iff [Inhabited τ] (maxTokens : Int32) (prompt : List τ) (s : LlamaContext τ) :
    (∀ vocab sampled, (completeJson vocab maxTokens prompt sampled (max 64 maxTokens.toInt).toNat s).isSome = true) ↔
      prompt ≠ [] ∧ (min prompt.length llamaBatchCapacity ≤ max 64 maxTokens.toInt ∨ maxTokens.toInt < 0) := by
  constructor
  · intro ends
    have silent := ends silentVocab fun _ => default
    refine ⟨?_, ?_⟩
    · rintro rfl
      cases silent
    · by_contra beyond
      rw [completeJson_silent (by omega) (by omega) (by omega)] at silent
      cases silent
  · rintro ⟨nonempty, fits⟩ vocab sampled
    obtain ⟨after, initialized, loop⟩ := completeJson_loop nonempty s
    have nLen : after.nLen = max 64 maxTokens.toInt := initialized.nLen
    have nCur := initialized.nCur
    have capacity : llamaBatchCapacity = 2048 := rfl
    have largest : Int32.maxValue.toInt = 2 ^ 31 - 1 := Int32.toInt_maxValue
    have small := maxTokens.toInt_le
    have tokens := List.length_pos_iff.mpr nonempty
    rw [loop, Option.isSome_map]
    rcases fits with fits | negative
    · exact completeFrom_ends (by omega) (by omega) (by omega)
    · obtain ⟨rounds, same⟩ : ∃ rounds, (max 64 maxTokens.toInt).toNat = rounds + 1 := ⟨63, by omega⟩
      rw [same]
      exact completeFrom_negative negative (by omega)

end Bound

section Sample

@[reducible] def unitCharacters : Swift.Characters := ⟨List.length, rfl⟩

theorem long_prompt_endless : letI := unitCharacters
    ¬ ∀ (vocab : Vocab Unit) (sampled : Nat → Unit),
      (completeJson vocab 1024 (List.replicate 1025 ()) sampled (max 64 (1024 : Int32).toInt).toNat {}).isSome = true := by
  let := unitCharacters
  intro ends
  have silent := ends silentVocab fun _ => ()
  have length : (List.replicate 1025 ()).length = 1025 := List.length_replicate
  have limit : (1024 : Int32).toInt = 1024 := rfl
  have capacity : llamaBatchCapacity = 2048 := rfl
  rw [completeJson_silent (by omega) (by omega) (by omega)] at silent
  cases silent

end Sample

end Engine
