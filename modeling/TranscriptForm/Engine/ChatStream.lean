import TranscriptForm.Engine.ChatOverflow
import TranscriptForm.Engine.TokenText

-- What the flow of a user prompt emits, and whether it ends.
namespace Engine

open Kotlin

variable {τ : Type}

namespace AiChat

/-- The loop of `sendUserPrompt` in at most `rounds` rounds, each of which samples one token: the texts the flow emits,
    and the state after it. -/
def streamFrom (vocab : Vocab τ) (size : Nat) (sampled : Nat → τ) (succeeds cancelled : Nat → Bool) :
    Nat → Nat → AiChat τ → Option (List Bytes × AiChat τ)
  | rounds, i, s =>
    if cancelled i then some ([], s)
    else match rounds with
      | 0 => none
      | rounds + 1 =>
        let s := s.generateNextToken vocab size (sampled i) (succeeds i)
        match s.last with
        | some (.token (some utf8token)) =>
          (streamFrom vocab size sampled succeeds cancelled rounds (i + 1) s).map fun rest =>
            (if utf8token.isEmpty then rest.1 else utf8token :: rest.1, rest.2)
        | _ => some ([], s)

def sendUserPrompt (vocab : Vocab τ) (size : Nat) (tokens : List τ) (nPredict : Int) (promptSucceeds : Nat → Bool)
    (sampled : Nat → τ) (succeeds cancelled : Nat → Bool) (rounds : Nat) (s : AiChat τ) :
    Option (List Bytes × AiChat τ) :=
  let s := s.processUserPrompt size tokens nPredict promptSucceeds
  if s.last = some (.code 0) then streamFrom vocab size sampled succeeds cancelled rounds 0 s else some ([], s)

end AiChat

section Step

variable {vocab : Vocab τ} {size : Nat} {token : τ} {succeeds : Bool} {s : AiChat τ}

/-- Where the token is put, after the context was shifted if it had to be. -/
def AiChat.makeRoom (s : AiChat τ) : AiChat τ := if maxBatchSize ≤ s.positions.current then s.shiftContext else s

/-- A round that ends the generation: its reason, and that it leaves the text as it is. -/
structure Ends (vocab : Vocab τ) (token : τ) (succeeds : Bool) (s after : AiChat τ) : Prop where
  why : vocab.isEog token = true ∨ succeeds = false ∨ after.stopGenerationPosition ≤ after.positions.current
  early : vocab.isEog token = true ∨ succeeds = false ∨ s.stopGenerationPosition ≤ s.makeRoom.positions.current
  last : after.last = some (.token none)
  cached : after.cachedTokenChars = s.cachedTokenChars
  assistant : after.assistant = s.assistant

/-- A round that goes on: the piece of its token goes through the buffer of the characters, and the position on by
    one. -/
structure GoesOnWith (vocab : Vocab τ) (token : τ) (s after : AiChat τ) (buffer : Buffering.Buffer UInt8) : Prop where
  eog : vocab.isEog token = false
  push : buffer = Buffering.push isValidUtf8 { held := s.cachedTokenChars } (vocab.tokenToPiece token)
  last : after.last = some (.token (some (cString buffer.handed.flatten)))
  cached : after.cachedTokenChars = buffer.held
  assistant : after.assistant = s.assistant ++ buffer.handed.flatten
  stop : after.stopGenerationPosition = s.stopGenerationPosition
  below : s.makeRoom.positions.current < s.stopGenerationPosition
  current : after.positions.current = s.makeRoom.positions.current + 1
  systemPrompt : after.positions.systemPrompt = s.positions.systemPrompt

structure SameText (s after : AiChat τ) : Prop where
  cached : after.cachedTokenChars = s.cachedTokenChars
  assistant : after.assistant = s.assistant
  stop : after.stopGenerationPosition = s.stopGenerationPosition
  systemPrompt : after.positions.systemPrompt = s.positions.systemPrompt

theorem sameText_makeRoom (s : AiChat τ) : SameText s s.makeRoom := by
  unfold AiChat.makeRoom
  split <;> exact ⟨rfl, rfl, rfl, rfl⟩

theorem generateNextToken_cases (vocab : Vocab τ) (size : Nat) (token : τ) (succeeds : Bool) (s : AiChat τ) :
    Ends vocab token succeeds s (s.generateNextToken vocab size token succeeds) ∨
      ∃ buffer, GoesOnWith vocab token s (s.generateNextToken vocab size token succeeds) buffer := by
  have same := sameText_makeRoom s
  unfold AiChat.generateNextToken
  generalize room : (if maxBatchSize ≤ s.positions.current then s.shiftContext else s) = shifted
  have made : s.makeRoom = shifted := room
  rw [made] at same
  dsimp only
  by_cases stops : shifted.stopGenerationPosition ≤ shifted.positions.current
  · rw [if_pos stops]
    exact .inl ⟨.inr (.inr stops), .inr (.inr (by rwa [made, ← same.stop])), rfl, same.cached, same.assistant⟩
  · rw [if_neg stops]
    cases succeeds with
    | false => exact .inl ⟨.inr (.inl rfl), .inr (.inl rfl), rfl, same.cached, same.assistant⟩
    | true =>
      rw [if_neg (by simp)]
      cases eog : vocab.isEog token with
      | true => exact .inl ⟨.inl eog, .inl eog, rfl, same.cached, same.assistant⟩
      | false =>
        rw [if_neg Bool.false_ne_true]
        right
        have below : s.makeRoom.positions.current < s.stopGenerationPosition := by
          rw [made, ← same.stop]
          exact Int.not_le.mp stops
        have cached : (AiChat.llamaDecode size [⟨token, shifted.positions.current, true⟩] shifted).cachedTokenChars =
            s.cachedTokenChars := same.cached
        rw [cached]
        by_cases complete : isValidUtf8 (s.cachedTokenChars ++ vocab.tokenToPiece token) = true
        · refine ⟨_, eog, rfl, ?_, ?_, ?_, ?_, below, ?_, ?_⟩ <;>
            rw [if_pos complete] <;> try rw [Buffering.push_whole complete]
          · simp
          · simp [AiChat.llamaDecode, same.assistant]
          · exact same.stop
          · rw [made]
            rfl
          · exact same.systemPrompt
        · refine ⟨_, eog, rfl, ?_, ?_, ?_, ?_, below, ?_, ?_⟩ <;>
            rw [if_neg complete] <;> try rw [Buffering.push_part complete]
          · simp [cString]
          · simp [AiChat.llamaDecode, same.assistant]
          · exact same.stop
          · rw [made]
            rfl
          · exact same.systemPrompt

end Step

section Stream

variable {vocab : Vocab τ} {size : Nat} {sampled : Nat → τ} {succeeds cancelled : Nat → Bool} {s after : AiChat τ}
  {texts : List Bytes}

/-- What the buffer of the characters makes of the tokens from the index on. -/
def AiChat.buffered (vocab : Vocab τ) (sampled : Nat → τ) (i count : Nat) (s : AiChat τ) : Buffering.Buffer UInt8 :=
  Buffering.pushAll isValidUtf8 { held := s.cachedTokenChars } (tokenPieces vocab sampled i count)

def FlowEnds (vocab : Vocab τ) (sampled : Nat → τ) (succeeds cancelled : Nat → Bool) (after : AiChat τ) (count : Nat) : Prop :=
  cancelled count = true ∨ vocab.isEog (sampled count) = true ∨ succeeds count = false ∨
    after.stopGenerationPosition ≤ after.positions.current

/-- The flow after some more tokens: what it emits are the texts the buffer hands on, without empty ones. -/
structure Streamed (vocab : Vocab τ) (sampled : Nat → τ) (i count : Nat) (s after : AiChat τ) (texts : List Bytes) :
    Prop where
  going : ∀ index < count, vocab.isEog (sampled (i + index)) = false
  texts : texts = ((s.buffered vocab sampled i count).handed.map cString).filter (!·.isEmpty)
  cached : after.cachedTokenChars = (s.buffered vocab sampled i count).held
  assistant : after.assistant = s.assistant ++ (s.buffered vocab sampled i count).handed.flatten

theorem Streamed.start (assistant : after.assistant = s.assistant) (cached : after.cachedTokenChars = s.cachedTokenChars)
    (i : Nat) : Streamed vocab sampled i 0 s after [] where
  going := by simp
  texts := rfl
  cached := cached
  assistant := by
    rw [assistant]
    exact (List.append_nil _).symm

theorem Streamed.step {next : AiChat τ} {buffer : Buffering.Buffer UInt8} {i count : Nat}
    (goesOn : GoesOnWith vocab (sampled i) s next buffer) (rest : Streamed vocab sampled (i + 1) count next after texts) :
    Streamed vocab sampled i (count + 1) s after
      (if (cString buffer.handed.flatten).isEmpty then texts else cString buffer.handed.flatten :: texts) := by
  have all : s.buffered vocab sampled i (count + 1) = { next.buffered vocab sampled (i + 1) count with
      handed := buffer.handed ++ (next.buffered vocab sampled (i + 1) count).handed } := by
    have pushed := @Buffering.pushAll_after _ isValidUtf8 { held := next.cachedTokenChars } buffer.handed
      (tokenPieces vocab sampled (i + 1) count)
    rw [List.append_nil, goesOn.cached] at pushed
    rw [AiChat.buffered, tokenPieces_succ, Buffering.pushAll, List.foldl_cons, ← goesOn.push, AiChat.buffered, goesOn.cached]
    exact pushed
  refine ⟨?_, ?_, ?_, ?_⟩
  · intro index below
    cases index with
    | zero => exact goesOn.eog
    | succ index =>
      have later := rest.going index (by omega)
      rw [show i + 1 + index = i + (index + 1) by omega] at later
      exact later
  · have single : buffer.handed.map cString = [cString buffer.handed.flatten] ∨ buffer.handed = [] := by
      rw [goesOn.push]
      by_cases complete : isValidUtf8 (s.cachedTokenChars ++ vocab.tokenToPiece (sampled i)) = true
      · rw [Buffering.push_whole complete]
        simp
      · rw [Buffering.push_part complete]
        exact .inr rfl
    rw [all, rest.texts]
    dsimp only
    rw [List.map_append, List.filter_append]
    rcases single with single | none
    · rw [single]
      cases emptied : (cString buffer.handed.flatten).isEmpty <;> simp [emptied]
    · rw [none]
      rfl
  · rw [all]
    exact rest.cached
  · rw [all, rest.assistant, goesOn.assistant]
    simp

theorem streamFrom_streamed {rounds i : Nat}
    (ended : s.streamFrom vocab size sampled succeeds cancelled rounds i = some (texts, after)) :
    ∃ count, Streamed vocab sampled i count s after texts ∧
      FlowEnds vocab sampled succeeds cancelled after (i + count) := by
  induction rounds generalizing i s texts with
  | zero =>
    unfold AiChat.streamFrom at ended
    split at ended
    · rename_i stopped
      cases ended
      exact ⟨0, .start rfl rfl i, .inl stopped⟩
    · cases ended
  | succ rounds ih =>
    unfold AiChat.streamFrom at ended
    split at ended
    · rename_i stopped
      cases ended
      exact ⟨0, .start rfl rfl i, .inl stopped⟩
    · dsimp only at ended
      rcases generateNextToken_cases vocab size (sampled i) (succeeds i) s with ends | ⟨buffer, goesOn⟩
      · rw [ends.last] at ended
        cases ended
        exact ⟨0, .start ends.assistant ends.cached i, .inr ends.why⟩
      · rw [goesOn.last] at ended
        dsimp only at ended
        obtain ⟨⟨rest, final⟩, later, same⟩ := Option.map_eq_some_iff.mp ended
        cases same
        obtain ⟨count, streamed, why⟩ := ih later
        refine ⟨count + 1, .step goesOn streamed, ?_⟩
        rw [show i + (count + 1) = i + 1 + count by omega]
        exact why

end Stream

section Exact

variable {vocab : Vocab τ} {size : Nat} {sampled : Nat → τ} {s after : AiChat τ} {texts : List Bytes}

theorem cString_plain {bytes : Bytes} (plain : PlainText bytes) : cString bytes = bytes := takeWhile_nonzero plain.nonzero

/-- The flow is exact on text: it emits whole characters only, all of them in order, and each as soon as it can. -/
structure Exact (vocab : Vocab τ) (sampled : Nat → τ) (count : Nat) (texts : List Bytes) (held : Bytes) : Prop where
  all : texts.flatten ++ held = pieces vocab sampled 0 count
  whole : ∀ text ∈ texts, text ≠ [] ∧ Utf8.IsUtf8 text
  reaches : ∀ sooner ≤ count, Utf8.IsUtf8 (pieces vocab sampled 0 sooner) → pieces vocab sampled 0 sooner <+: texts.flatten

theorem flatten_filter_nonempty (parts : List Bytes) : (parts.filter (!·.isEmpty)).flatten = parts.flatten := by
  induction parts with
  | nil => rfl
  | cons part parts ih =>
    cases part with
    | nil => exact ih
    | cons byte part =>
      rw [List.filter_cons_of_pos (by rfl), List.flatten_cons, List.flatten_cons, ih]

theorem Streamed.exact {count : Nat} (streamed : Streamed vocab sampled 0 count s after texts)
    (fresh : s.cachedTokenChars = []) (plain : ∃ rest, PlainText (pieces vocab sampled 0 count ++ rest)) :
    Exact vocab sampled count texts after.cachedTokenChars ∧ after.assistant = s.assistant ++ texts.flatten := by
  obtain ⟨rest, plain⟩ := plain
  have start : ({ held := s.cachedTokenChars } : Buffering.Buffer UInt8) = {} := by rw [fresh]
  have parted : Buffering.Parted PlainText (s.buffered vocab sampled 0 count) := by
    rw [AiChat.buffered, start]
    apply Buffering.Parted.start.pushAll plainText_texts isValidUtf8_tells
    rw [tokenPieces_flatten]
    exact plain
  have unchanged : (s.buffered vocab sampled 0 count).handed.map cString = (s.buffered vocab sampled 0 count).handed := by
    have same : ∀ part ∈ (s.buffered vocab sampled 0 count).handed, cString part = id part :=
      fun part member => cString_plain (parted.handed part member)
    rw [List.map_congr_left same, List.map_id]
  have flat : texts.flatten = (s.buffered vocab sampled 0 count).handed.flatten := by
    rw [streamed.texts, unchanged, flatten_filter_nonempty]
  refine ⟨⟨?_, ?_, ?_⟩, ?_⟩
  · have text := @Buffering.pushAll_text _ isValidUtf8 {} (tokenPieces vocab sampled 0 count)
    rw [flat, streamed.cached, ← tokenPieces_flatten, AiChat.buffered, start]
    exact text
  · intro text member
    rw [streamed.texts, unchanged, List.mem_filter] at member
    refine ⟨?_, (parted.handed text member.1).utf8⟩
    rintro rfl
    exact absurd member.2 (by simp)
  · intro sooner below valid
    obtain ⟨more, rfl⟩ := Nat.exists_eq_add_of_le below
    have both : tokenPieces vocab sampled 0 (sooner + more) =
        tokenPieces vocab sampled 0 sooner ++ tokenPieces vocab sampled sooner more := by
      rw [tokenPieces, ← List.range'_append_1, List.map_append, Nat.zero_add]
      rfl
    rw [pieces_add, List.append_assoc] at plain
    have nonzero : 0 ∉ pieces vocab sampled 0 sooner := fun member => plain.nonzero (List.mem_append_left _ member)
    rw [flat, AiChat.buffered, start, both, ← tokenPieces_flatten]
    rw [← tokenPieces_flatten] at plain valid nonzero
    exact Buffering.handed_reaches plainText_texts isValidUtf8_tells plain ⟨valid, nonzero⟩
  · rw [streamed.assistant, flat]

variable {tokens : List τ} {nPredict : Int} {promptSucceeds succeeds cancelled : Nat → Bool} {rounds : Nat}

theorem decodeFrom_text {startPos i capacity : Nat} {computeLastLogit : Bool} :
    (AiChat.decodeFrom size tokens startPos computeLastLogit promptSucceeds capacity rounds i s).1.cachedTokenChars =
        s.cachedTokenChars ∧
      (AiChat.decodeFrom size tokens startPos computeLastLogit promptSucceeds capacity rounds i s).1.assistant =
        s.assistant := by
  induction rounds generalizing i s with
  | zero => exact ⟨rfl, rfl⟩
  | succ rounds ih =>
    rw [AiChat.decodeFrom]
    split
    · dsimp only
      split
      · split <;> exact ⟨rfl, rfl⟩
      · rw [ih.1, ih.2]
        split <;> exact ⟨rfl, rfl⟩
    · exact ⟨rfl, rfl⟩

theorem processUserPrompt_text : (s.processUserPrompt size tokens nPredict promptSucceeds).cachedTokenChars = [] ∧
    (s.processUserPrompt size tokens nPredict promptSucceeds).assistant = [] := by
  have decoded := @decodeFrom_text
  unfold AiChat.processUserPrompt AiChat.decodeTokensInBatches
  dsimp only
  split <;> exact decoded

/-- Whatever is sampled, however the tokens cut characters and whenever the flow ends, it is exact, and what was said is
    remembered as it was emitted. -/
theorem sendUserPrompt_exact (plain : ∀ count, ∃ rest, PlainText (pieces vocab sampled 0 count ++ rest))
    (ended : s.sendUserPrompt vocab size tokens nPredict promptSucceeds sampled succeeds cancelled rounds =
      some (texts, after)) :
    ∃ count, (∀ index < count, vocab.isEog (sampled index) = false) ∧
      ((s.processUserPrompt size tokens nPredict promptSucceeds).last ≠ some (.code 0) ∨
        FlowEnds vocab sampled succeeds cancelled after count) ∧
      Exact vocab sampled count texts after.cachedTokenChars ∧ after.assistant = texts.flatten := by
  obtain ⟨cached, assistant⟩ := @processUserPrompt_text _ size s tokens nPredict promptSucceeds
  unfold AiChat.sendUserPrompt at ended
  generalize s.processUserPrompt size tokens nPredict promptSucceeds = started at ended cached assistant ⊢
  dsimp only at ended
  by_cases accepted : started.last = some (.code 0)
  · rw [if_pos accepted] at ended
    obtain ⟨count, streamed, why⟩ := streamFrom_streamed ended
    obtain ⟨exact, said⟩ := streamed.exact cached (plain count)
    rw [assistant, List.nil_append] at said
    rw [Nat.zero_add] at why
    refine ⟨count, ?_, .inr why, exact, said⟩
    intro index below
    have going := streamed.going index below
    rw [Nat.zero_add] at going
    exact going
  · rw [if_neg accepted] at ended
    cases ended
    obtain ⟨exact, said⟩ := (Streamed.start rfl rfl 0 : Streamed vocab sampled 0 0 _ _ []).exact cached
      (plain 0)
    rw [assistant, List.nil_append] at said
    exact ⟨0, by simp, .inl accepted, exact, by rw [assistant, said]⟩

end Exact

section Sample

theorem sendUserPrompt_exact_halves : ∃ after count,
    ({} : AiChat Nat).sendUserPrompt halvesVocab 128 [5] 64 (fun _ => true) id (fun _ => true) (fun _ => false) 3 =
        some ([[0xC3, 0xA9]], after) ∧ Exact halvesVocab id count [[0xC3, 0xA9]] after.cachedTokenChars := by
  have run : ∃ after, ({} : AiChat Nat).sendUserPrompt halvesVocab 128 [5] 64 (fun _ => true) id (fun _ => true)
      (fun _ => false) 3 = some ([[0xC3, 0xA9]], after) := ⟨_, rfl⟩
  obtain ⟨after, ended⟩ := run
  obtain ⟨count, _, _, exact, _⟩ := sendUserPrompt_exact pieces_halves ended
  exact ⟨after, count, ended, exact⟩

end Sample

section Endless

variable {vocab : Vocab τ} {size : Nat} {sampled : Nat → τ} {succeeds cancelled : Nat → Bool} {s : AiChat τ}

/-- As long as the positions stay below where a shift moves them back, they go up to the stop position. -/
theorem streamFrom_ends {rounds i : Nat} (ordered : (s.positions.current : Int) ≤ s.stopGenerationPosition)
    (reached : s.stopGenerationPosition ≤ max (maxBatchSize - 1) (s.positions.systemPrompt + 1))
    (enough : s.stopGenerationPosition - s.positions.current < rounds) :
    (s.streamFrom vocab size sampled succeeds cancelled rounds i).isSome = true := by
  induction rounds generalizing i s with
  | zero => omega
  | succ rounds ih =>
    unfold AiChat.streamFrom
    split
    · rfl
    · dsimp only
      have still : s.makeRoom = s := by
        unfold AiChat.makeRoom
        split
        · apply shiftContext_little
          omega
        · rfl
      rcases generateNextToken_cases vocab size (sampled i) (succeeds i) s with ends | ⟨buffer, goesOn⟩
      · rw [ends.last]
        rfl
      · have below := goesOn.below
        have current := goesOn.current
        have stop := goesOn.stop
        have systemPrompt := goesOn.systemPrompt
        rw [still] at below current
        rw [goesOn.last]
        dsimp only
        rw [Option.isSome_map]
        apply ih <;> omega

/-- Beyond that, the shifts keep the positions below the stop position for good. -/
theorem streamFrom_endless {rounds i : Nat} (ordered : (s.positions.current : Int) ≤ s.stopGenerationPosition)
    (beyond : ((max (maxBatchSize - 1) (s.positions.systemPrompt + 1) : Nat) : Int) < s.stopGenerationPosition) :
    s.streamFrom silentVocab size sampled (fun _ => true) (fun _ => false) rounds i = none := by
  induction rounds generalizing i s with
  | zero => rfl
  | succ rounds ih =>
    have room : (s.makeRoom.positions.current : Int) < s.stopGenerationPosition ∧
        s.makeRoom.positions.current ≤ s.positions.current := by
      have systemFirst := s.positions.ordered
      unfold AiChat.makeRoom
      split
      · simp only [AiChat.shiftContext, ChatPositions.shift]
        omega
      · omega
    unfold AiChat.streamFrom
    dsimp only
    rw [if_neg Bool.false_ne_true]
    rcases generateNextToken_cases silentVocab size (sampled i) true s with ends | ⟨buffer, goesOn⟩
    · rcases ends.early with eog | failed | stopped
      · cases eog
      · cases failed
      · omega
    · have current := goesOn.current
      have stop := goesOn.stop
      have systemPrompt := goesOn.systemPrompt
      rw [goesOn.last]
      dsimp only
      rw [ih (by omega) (by omega)]
      rfl

variable {tokens : List τ} {nPredict : Int} {promptSucceeds : Nat → Bool}

theorem processUserPrompt_stop (accepted : (s.processUserPrompt size tokens nPredict promptSucceeds).last = some (.code 0)) :
    (s.processUserPrompt size tokens nPredict promptSucceeds).stopGenerationPosition =
      llamaPos ((s.processUserPrompt size tokens nPredict promptSucceeds).positions.current +
        min maxBatchSize tokens.length + nPredict) := by
  unfold AiChat.processUserPrompt at accepted ⊢
  dsimp only at accepted ⊢
  split at accepted
  · cases accepted
  · rename_i decoded
    rw [if_neg decoded]
    simp only [List.length_take]

theorem streamFrom_stopped (passed : s.stopGenerationPosition ≤ s.makeRoom.positions.current) (rounds i : Nat) :
    (s.streamFrom vocab size sampled succeeds cancelled (rounds + 1) i).isSome = true := by
  unfold AiChat.streamFrom
  split
  · rfl
  · dsimp only
    rcases generateNextToken_cases vocab size (sampled i) (succeeds i) s with ends | ⟨buffer, goesOn⟩
    · rw [ends.last]
      rfl
    · have below := goesOn.below
      omega

/-- Whatever is sampled, the flow of an accepted prompt ends if and only if the tokens reserved for it end before the
    positions at which the context is shifted, where the prompt counts twice, or are so many that the stop position
    wraps below every position. -/
theorem sendUserPrompt_ends_iff [Inhabited τ] (nonneg : 0 ≤ nPredict) (int : nPredict < 2 ^ 31)
    (positions : (s.processUserPrompt size tokens nPredict promptSucceeds).positions.current +
      min maxBatchSize tokens.length < 2 ^ 31)
    (accepted : (s.processUserPrompt size tokens nPredict promptSucceeds).last = some (.code 0)) :
    (∀ vocab sampled succeeds cancelled, ∃ rounds,
        (s.sendUserPrompt vocab size tokens nPredict promptSucceeds sampled succeeds cancelled rounds).isSome = true) ↔
      (s.processUserPrompt size tokens nPredict promptSucceeds).positions.current + min maxBatchSize tokens.length + nPredict ≤
          max (maxBatchSize - 1) ((s.processUserPrompt size tokens nPredict promptSucceeds).positions.systemPrompt + 1) ∨
        2 ^ 31 ≤ (s.processUserPrompt size tokens nPredict promptSucceeds).positions.current +
          min maxBatchSize tokens.length + nPredict := by
  have stop := processUserPrompt_stop accepted
  unfold AiChat.sendUserPrompt
  dsimp only
  simp only [accepted, if_true]
  generalize s.processUserPrompt size tokens nPredict promptSucceeds = started at stop positions ⊢
  constructor
  · intro ends
    obtain ⟨rounds, ended⟩ := ends silentVocab (fun _ => default) (fun _ => true) fun _ => false
    by_contra beyond
    rw [llamaPos_of_lt (by omega) (by omega)] at stop
    rw [streamFrom_endless (by omega) (by omega)] at ended
    cases ended
  · rintro (reached | wraps) vocab sampled succeeds cancelled
    · have small := started.positions.ordered
      by_cases fits : (started.positions.current : Int) + min maxBatchSize tokens.length + nPredict < 2 ^ 31
      · rw [llamaPos_of_lt (by omega) fits] at stop
        refine ⟨(started.stopGenerationPosition - started.positions.current + 1).toNat, ?_⟩
        apply streamFrom_ends <;> omega
      · have negative := llamaPos_wrapped (not_lt.mp fits) (by omega)
        exact ⟨1, streamFrom_stopped (by omega) 0 0⟩
    · have negative := llamaPos_wrapped wraps (by omega)
      exact ⟨1, streamFrom_stopped (by omega) 0 0⟩

/-- One token of a prompt and 64 more end, 8192 more need not, and the largest number of them ends. -/
theorem sendUserPrompt_ends_sample :
    (∀ (vocab : Vocab Nat) sampled succeeds cancelled, ∃ rounds,
        (({} : AiChat Nat).sendUserPrompt vocab 128 [5] 64 (fun _ => true) sampled succeeds cancelled rounds).isSome = true) ∧
      ¬ (∀ (vocab : Vocab Nat) sampled succeeds cancelled, ∃ rounds,
        (({} : AiChat Nat).sendUserPrompt vocab 128 [5] 8192 (fun _ => true) sampled succeeds cancelled rounds).isSome = true) ∧
      ∀ (vocab : Vocab Nat) sampled succeeds cancelled, ∃ rounds, (({} : AiChat Nat).sendUserPrompt vocab 128 [5]
        2147483647 (fun _ => true) sampled succeeds cancelled rounds).isSome = true := by
  refine ⟨?_, ?_, ?_⟩
  · exact (sendUserPrompt_ends_iff (by decide) (by decide) (by decide) rfl).mpr (.inl (by decide))
  · rw [sendUserPrompt_ends_iff (by decide) (by decide) (by decide) rfl]
    decide
  · exact (sendUserPrompt_ends_iff (by decide) (by decide) (by decide) rfl).mpr (.inr (by decide))

end Endless

end Engine
