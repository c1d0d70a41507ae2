import TranscriptForm.Engine.TokenText

-- The text of the tokens as the loop of the bridge puts it together.
namespace Engine

open Kotlin

variable {τ : Type} {vocab : Vocab τ} {maxTokens : Int} {sampled : Nat → τ} {s after : LlamaContext τ}

section Text

variable {first second rest bytes : Bytes}

theorem decode_encodeAll_append (chars : List Char) (bytes : Bytes) :
    Utf8.decode (Utf8.encodeAll chars ++ bytes) = chars.map some ++ Utf8.decode bytes := by
  induction chars with
  | nil => rfl
  | cons char chars ih =>
    rw [Utf8.encodeAll_cons, List.append_assoc, Utf8.decode, Utf8.decodeFrom_utf8EncodeChar]
    exact congrArg (some char :: ·) ih

theorem swift_cString_append (whole : PlainText first) (nonzero : 0 ∉ second) :
    Swift.cString (first ++ second) = Swift.cString first ++ Swift.cString second := by
  obtain ⟨chars, rfl⟩ := whole.utf8
  have both : 0 ∉ Utf8.encodeAll chars ++ second := by
    rw [List.mem_append, not_or]
    exact ⟨whole.nonzero, nonzero⟩
  rw [Swift.cString, Swift.cString, Swift.cString, takeWhile_nonzero both, takeWhile_nonzero whole.nonzero,
    takeWhile_nonzero nonzero, decode_encodeAll_append, Utf8.decode_encodeAll, List.map_append]
  exact List.flatMap_append

end Text

section Round

/-- A text put together so far: whole characters in the result, and perhaps a part of one kept. -/
structure PutTogether (said : Bytes) (s : LlamaContext τ) (aggregated : KString) : Prop where
  text : ∃ whole, PlainText whole ∧ said = whole ++ s.temporaryInvalidCchars ∧ aggregated = Swift.cString whole

theorem completionLoop_ends {token : τ} (last : vocab.isEog token = true ∨ s.nCur = s.nLen) :
    s.completionLoop vocab token =
      some ({ s with isDone := true, temporaryInvalidCchars := [] }, Swift.cString s.temporaryInvalidCchars) := by
  rw [LlamaContext.completionLoop, if_pos]
  simpa using last

theorem completionLoop_goesOn {token : τ} (going : vocab.isEog token = false) (further : s.nCur ≠ s.nLen)
    {text : KString} (round : s.completionLoop vocab token = some (after, text)) :
    GoesOn s after ∧ LlamaContext.newTokenStr (s.temporaryInvalidCchars ++ vocab.tokenToPiece token) =
      (text, after.temporaryInvalidCchars) := by
  rw [LlamaContext.completionLoop, if_neg (by simp [going, further])] at round
  dsimp only at round
  split at round
  · cases round
  · cases round
    exact ⟨⟨rfl, rfl, rfl⟩, rfl⟩

theorem PutTogether.step {said rest : Bytes} {aggregated : KString} {token : τ} {text : KString}
    (together : PutTogether said s aggregated) (plain : PlainText (said ++ vocab.tokenToPiece token ++ rest))
    (handed : LlamaContext.newTokenStr (s.temporaryInvalidCchars ++ vocab.tokenToPiece token) =
      (text, after.temporaryInvalidCchars)) :
    PutTogether (said ++ vocab.tokenToPiece token) after (aggregated ++ text) := by
  obtain ⟨whole, isWhole, split, read⟩ := together.text
  have later : PlainText (s.temporaryInvalidCchars ++ vocab.tokenToPiece token ++ rest) := by
    apply plainText_texts.rest isWhole
    rw [split] at plain
    simpa using plain
  rcases newTokenStr_cut later with ⟨complete, newText⟩ | ⟨_, newText⟩
  · rw [newText] at handed
    obtain ⟨rfl, kept⟩ := Prod.mk.inj handed
    refine ⟨whole ++ (s.temporaryInvalidCchars ++ vocab.tokenToPiece token), plainText_texts.append isWhole complete, ?_, ?_⟩
    · rw [← kept, split, List.append_nil, List.append_assoc]
    · rw [read, swift_cString_append isWhole complete.nonzero]
  · rw [newText] at handed
    obtain ⟨rfl, kept⟩ := Prod.mk.inj handed
    refine ⟨whole, isWhole, ?_, ?_⟩
    · rw [← kept, split, List.append_assoc]
    · rw [read, List.append_nil]

end Round

section Loop

variable [Swift.Characters]

/-- What the loop returns: all that was said up to the end, or at most the limit of tokens, or whole characters from the
    front of it, more than the limit of characters. -/
def Returned (vocab : Vocab τ) (maxTokens : Int) (sampled : Nat → τ) (i : Nat) (s : LlamaContext τ) (said : Bytes)
    (returned : KString) : Prop :=
  ∃ count, (∀ index < count, vocab.isEog (sampled (i + index)) = false ∧ s.nCur + index ≠ s.nLen) ∧
    ((vocab.isEog (sampled (i + count)) = true ∨ s.nCur + count = s.nLen) ∧
        returned = Swift.cString (said ++ pieces vocab sampled i count) ∨
      ∃ whole, PlainText whole ∧ whole <+: said ++ pieces vocab sampled i count ∧ returned = Swift.cString whole ∧
        maxTokens * 8 < Swift.Characters.count returned)

theorem Returned.step {said : Bytes} {returned : KString} {i : Nat} (going : vocab.isEog (sampled i) = false)
    (further : s.nCur ≠ s.nLen) (goesOn : GoesOn s after)
    (later : Returned vocab maxTokens sampled (i + 1) after (said ++ vocab.tokenToPiece (sampled i)) returned) :
    Returned vocab maxTokens sampled i s said returned := by
  obtain ⟨count, before, result⟩ := later
  have nCur := goesOn.nCur
  have nLen := goesOn.nLen
  refine ⟨count + 1, ?_, ?_⟩
  · intro index below
    cases index with
    | zero => exact ⟨going, by simpa using further⟩
    | succ index =>
      obtain ⟨notEog, notLast⟩ := before index (by omega)
      rw [show i + 1 + index = i + (index + 1) by omega] at notEog
      exact ⟨notEog, by omega⟩
  · rw [pieces_succ, ← List.append_assoc, show i + (count + 1) = i + 1 + count by omega]
    rcases result with ⟨ends, all⟩ | limited
    · refine .inl ⟨?_, all⟩
      rcases ends with eog | last
      · exact .inl eog
      · exact .inr (by omega)
    · exact .inr limited

theorem completeFrom_returned {rounds i : Nat} {said : Bytes} {aggregated returned : KString} (going : s.isDone = false)
    (plain : ∀ count, ∃ rest, PlainText (said ++ pieces vocab sampled i count ++ rest))
    (together : PutTogether said s aggregated)
    (ended : completeFrom vocab maxTokens sampled rounds i s aggregated = some returned) :
    Returned vocab maxTokens sampled i s said returned := by
  induction rounds generalizing i s said aggregated with
  | zero =>
    rw [completeFrom, going] at ended
    cases ended
  | succ rounds ih =>
    rw [completeFrom, going, if_neg Bool.false_ne_true] at ended
    dsimp only at ended
    obtain ⟨whole, isWhole, split, read⟩ := together.text
    obtain ⟨rest, now⟩ := plain 0
    have nothing : pieces vocab sampled i 0 = [] := rfl
    rw [nothing, List.append_nil] at now
    by_cases last : vocab.isEog (sampled i) = true ∨ s.nCur = s.nLen
    · have nonzero : 0 ∉ s.temporaryInvalidCchars := by
        intro member
        apply now.nonzero
        rw [split]
        simp [member]
      rw [completionLoop_ends last] at ended
      dsimp only at ended
      have all : returned = aggregated ++ Swift.cString s.temporaryInvalidCchars := by
        split at ended
        · exact (Option.some.inj ended).symm
        · rw [completeFrom_done rfl] at ended
          exact (Option.some.inj ended).symm
      refine ⟨0, by simp, .inl ⟨by simpa using last, ?_⟩⟩
      rw [all, nothing, List.append_nil, read, split, swift_cString_append isWhole nonzero]
    · rw [not_or, Bool.not_eq_true] at last
      obtain ⟨notEog, further⟩ := last
      cases round : s.completionLoop vocab (sampled i) with
      | none =>
        rw [round] at ended
        cases ended
      | some next =>
        obtain ⟨after, text⟩ := next
        rw [round] at ended
        dsimp only at ended
        obtain ⟨goesOn, handed⟩ := completionLoop_goesOn notEog further round
        obtain ⟨rest, one⟩ := plain 1
        have single : pieces vocab sampled i 1 = vocab.tokenToPiece (sampled i) := by
          rw [pieces_succ]
          exact List.append_nil _
        rw [single] at one
        have next := together.step one handed
        split at ended
        · rename_i limit
          cases ended
          obtain ⟨front, isFront, said, spelled⟩ := next.text
          refine ⟨1, ?_, .inr ⟨front, isFront, ?_, spelled, limit⟩⟩
          · intro index below
            obtain rfl : index = 0 := by omega
            exact ⟨notEog, by simpa using further⟩
          · rw [single, said]
            exact List.prefix_append _ _
        · have doneNext : after.isDone = false := goesOn.isDone.trans going
          refine .step notEog further goesOn (ih doneNext ?_ next ended)
          intro count
          obtain ⟨rest, more⟩ := plain (count + 1)
          refine ⟨rest, ?_⟩
          rw [pieces_succ, ← List.append_assoc] at more
          exact more

/-- However the tokens cut characters, and whatever was sampled: what the bridge returns of a text are all its characters up
    to the end of the generation, as if they had been read at once, unless a front part of it has too many characters. -/
theorem completeJson_returned {maxTokens : Int32} {prompt : List τ} {rounds : Nat} {output : KString}
    (plain : ∀ count, ∃ rest, PlainText (pieces vocab sampled 0 count ++ rest))
    (ended : completeJson vocab maxTokens prompt sampled rounds s = some output) :
    ∃ count, (∀ index < count, vocab.isEog (sampled index) = false) ∧
      ((vocab.isEog (sampled count) = true ∨
          (min prompt.length llamaBatchCapacity + count : Int) = max 64 maxTokens.toInt) ∧
          output = Swift.trimmingCharacters (Swift.cString (pieces vocab sampled 0 count)) ∨
        ∃ whole, PlainText whole ∧ whole <+: pieces vocab sampled 0 count ∧
          maxTokens.toInt * 8 < Swift.Characters.count (Swift.cString whole) ∧
          output = Swift.trimmingCharacters (Swift.cString whole)) := by
  have nonempty : prompt ≠ [] := by
    rintro rfl
    cases ended
  obtain ⟨started, initialized, loop⟩ := completeJson_loop nonempty s
  rw [loop] at ended
  obtain ⟨returned, run, rfl⟩ := Option.map_eq_some_iff.mp ended
  have nothing : PutTogether [] started [] :=
    ⟨[], plainText_texts.nil, by rw [initialized.cchars]; rfl, rfl⟩
  obtain ⟨count, before, result⟩ := completeFrom_returned initialized.isDone plain nothing run
  simp only [Nat.zero_add, List.nil_append] at before result
  have nLen : started.nLen = max 64 maxTokens.toInt := initialized.nLen
  have nCur := initialized.nCur
  refine ⟨count, fun index below => (before index below).1, ?_⟩
  rcases result with ⟨ends, all⟩ | ⟨whole, isWhole, front, all, limit⟩
  · refine .inl ⟨?_, by rw [all]⟩
    rcases ends with eog | last
    · exact .inl eog
    · refine .inr ?_
      rw [nCur, nLen] at last
      exact last
  · exact .inr ⟨whole, isWhole, front, all ▸ limit, by rw [all]⟩

end Loop

section Sample

theorem completeJson_returned_halves : letI := unitCharacters
    completeJson halvesVocab 64 [5] id 3 {} = some [0xE9] ∧
      ∃ count, (∀ index < count, halvesVocab.isEog (id index) = false) ∧
        ((halvesVocab.isEog (id count) = true ∨
            (min [5].length llamaBatchCapacity + count : Int) = max 64 (64 : Int32).toInt) ∧
            [0xE9] = Swift.trimmingCharacters (Swift.cString (pieces halvesVocab id 0 count)) ∨
          ∃ whole, PlainText whole ∧ whole <+: pieces halvesVocab id 0 count ∧
            (64 : Int32).toInt * 8 < Swift.Characters.count (Swift.cString whole) ∧
            [0xE9] = Swift.trimmingCharacters (Swift.cString whole)) := by
  let := unitCharacters
  have ended : completeJson halvesVocab 64 [5] id 3 {} = some [0xE9] := by decide +kernel
  exact ⟨ended, completeJson_returned pieces_halves ended⟩

end Sample

end Engine
