import TranscriptForm.Engine.IosLlama
import TranscriptForm.Engine.KvCache

-- What the memory of the context holds while an answer is put together.
namespace Engine

open Kotlin Numbering

variable {τ : Type}

def nUbatch : Nat := 512

structure MemoryContext (τ : Type) where
  context : LlamaContext τ
  cache : KvCache τ

namespace MemoryContext

def clear (s : MemoryContext τ) : MemoryContext τ where
  context := s.context.clear
  cache := s.cache.clear

def configureGeneration (maxTokens : Int) (s : MemoryContext τ) : MemoryContext τ :=
  { s with context := s.context.configureGeneration maxTokens }

/-- A failed decode is only printed. -/
def llamaDecode (computes : Int) (cache : KvCache τ) (context : LlamaContext τ) : MemoryContext τ where
  context := context
  cache := (cache.decode context.batch computes).1

/-- The decode of the prompt, the only batch of several micro-batches. -/
def completionInit (tokens : List τ) (failing : Nat) (computes : Int) (s : MemoryContext τ) : Option (MemoryContext τ) :=
  (s.context.completionInit tokens).map fun context =>
    { context := context, cache := (s.cache.decodeUbatches nUbatch context.batch failing computes).1 }

def completionLoop (vocab : Vocab τ) (newTokenId : τ) (computes : Int) (s : MemoryContext τ) :
    Option (MemoryContext τ × KString) :=
  (s.context.completionLoop vocab newTokenId).map fun after =>
    (if after.1.isDone then { context := after.1, cache := s.cache } else llamaDecode computes s.cache after.1, after.2)

end MemoryContext

section Loop

variable [Swift.Characters]

/-- The loop of `completeJson` with the memory, from the round `i` on. -/
def rememberFrom (vocab : Vocab τ) (maxTokens : Int) (sampled : Nat → τ) (computes : Nat → Int) : Nat → Nat →
    MemoryContext τ → KString → Option (KString × MemoryContext τ)
  | rounds, i, s, aggregated =>
    if s.context.isDone then some (aggregated, s)
    else match rounds with
      | 0 => none
      | rounds + 1 =>
        match s.completionLoop vocab (sampled i) (computes i) with
        | none => none
        | some (s, token) =>
          let aggregated := aggregated ++ token
          if maxTokens * 8 < Swift.Characters.count aggregated then some (aggregated, s)
          else rememberFrom vocab maxTokens sampled computes rounds (i + 1) s aggregated

/-- `completeJson` with the memory. The decode of the prompt computes `prefill`, in the micro-batch `failing` if that is
    an error. -/
def completeJsonRemembering (vocab : Vocab τ) (maxTokens : Int32) (prompt : List τ) (failing : Nat) (prefill : Int)
    (sampled : Nat → τ) (computes : Nat → Int) (rounds : Nat) (s : MemoryContext τ) : Option (KString × MemoryContext τ) := do
  let s ← (s.clear.configureGeneration maxTokens.toInt).completionInit prompt failing prefill
  let (aggregated, after) ← rememberFrom vocab maxTokens.toInt sampled computes rounds 0 s []
  return (Swift.trimmingCharacters aggregated, after)

end Loop

section Text

variable [Swift.Characters] {vocab : Vocab τ} {maxTokens : Int} {sampled : Nat → τ} {computes : Nat → Int}

theorem rememberFrom_text (rounds i : Nat) (s : MemoryContext τ) (aggregated : KString) :
    (rememberFrom vocab maxTokens sampled computes rounds i s aggregated).map Prod.fst =
      completeFrom vocab maxTokens sampled rounds i s.context aggregated := by
  induction rounds generalizing i s aggregated with
  | zero =>
    rw [rememberFrom, completeFrom]
    split <;> rfl
  | succ rounds ih =>
    rw [rememberFrom, completeFrom]
    split
    · rfl
    · rw [MemoryContext.completionLoop]
      cases round : s.context.completionLoop vocab (sampled i) with
      | none => rfl
      | some after =>
        obtain ⟨context, token⟩ := after
        dsimp only [Option.map_some]
        split
        · rfl
        · rw [ih]
          congr 1
          split <;> rfl

theorem completeJsonRemembering_text {maxTokens : Int32} {prompt : List τ} {failing : Nat} {prefill : Int} {rounds : Nat}
    {s : MemoryContext τ} :
    (completeJsonRemembering vocab maxTokens prompt failing prefill sampled computes rounds s).map Prod.fst =
      completeJson vocab maxTokens prompt sampled rounds s.context := by
  unfold completeJsonRemembering completeJson
  change Option.map _ ((((s.context.clear.configureGeneration maxTokens.toInt).completionInit prompt).map _).bind _) =
    ((s.context.clear.configureGeneration maxTokens.toInt).completionInit prompt).bind _
  cases (s.context.clear.configureGeneration maxTokens.toInt).completionInit prompt with
  | none => rfl
  | some started =>
    have text := @rememberFrom_text _ _ vocab maxTokens.toInt sampled computes rounds 0
      ⟨started, ((s.clear.configureGeneration maxTokens.toInt).cache.decodeUbatches nUbatch started.batch failing prefill).1⟩ []
    change _ = completeFrom vocab maxTokens.toInt sampled rounds 0 started [] at text
    change Option.map Prod.fst ((rememberFrom vocab maxTokens.toInt sampled computes rounds 0 _ []).bind _) =
      (completeFrom vocab maxTokens.toInt sampled rounds 0 started []).bind _
    rw [← text]
    cases rememberFrom vocab maxTokens.toInt sampled computes rounds 0
      ⟨started, ((s.clear.configureGeneration maxTokens.toInt).cache.decodeUbatches nUbatch started.batch failing prefill).1⟩
      [] with
    | none => rfl
    | some result => rfl

end Text

def computedTokens (failing : Nat) (prompt : List τ) : Nat := min failing ((prompt.length - 1) / nUbatch) * nUbatch

/-- What the memory may hold after the decodes of `n` tokens: the prompt and the first `count` of them; or, when the
    prompt failed, the micro-batches before the failure; or, without those, tokens in a row from the first one that was
    decoded. Where tokens are missing at the end, the decode of the next one was the first to fail. -/
inductive Holds (capacity : Nat) (prompt : List τ) (failing : Nat) (prefill : Int) (sampled : Nat → τ)
    (computes : Nat → Int) (n : Nat) : List (τ × Nat) → Prop
  | whole (count : Nat) : prefill = 0 → prompt.length ≤ capacity → count ≤ n →
      (count < n → computes count ≠ 0 ∨ capacity ≤ prompt.length + count) →
      Holds capacity prompt failing prefill sampled computes n ((prompt ++ (List.range count).map sampled).zipIdx 0)
  | part : prefill ≠ 0 → prompt.length ≤ capacity → 0 < computedTokens failing prompt →
      Holds capacity prompt failing prefill sampled computes n ((prompt.take (computedTokens failing prompt)).zipIdx 0)
  | late (first count : Nat) : (capacity < prompt.length ∨ prefill ≠ 0 ∧ computedTokens failing prompt = 0) →
      (∀ i, i < first → computes i ≠ 0 ∨ capacity = 0) → first + count ≤ n → (count = 0 → first = n) →
      (first + count < n → computes (first + count) ≠ 0 ∨ capacity ≤ count) →
      Holds capacity prompt failing prefill sampled computes n
        (((List.range' first count).map sampled).zipIdx (prompt.length + first))

section Step

variable {vocab : Vocab τ} {s after : MemoryContext τ} {limit : Int} {prompt : List τ} {failing : Nat} {prefill : Int}
  {sampled : Nat → τ} {computes : Nat → Int} {capacity n : Nat} {cache : KvCache τ}

variable [Swift.Characters]

end Step

section Prompt

variable {s : MemoryContext τ} {prompt : List τ}

variable [Swift.Characters] {vocab : Vocab τ} {sampled : Nat → τ} {computes : Nat → Int}

end Prompt

section Sample

def letterVocab : Vocab Nat where
  isEog _ := false
  tokenToPiece _ := [0x61]

def dirty : MemoryContext Nat where
  context := { tokensList := [9], nCur := 7, isDone := true }
  cache := { size := 2048, cells := [(9, 0), (8, 5)] }

def answered (prefill : Int) : Option (KString × MemoryContext Nat) :=
  @completeJsonRemembering Nat unitCharacters letterVocab 64 [1, 2, 3] 0 prefill (fun i => i + 10)
    (fun i => if i = 2 then -3 else 0) 80 dirty

end Sample

end Engine
