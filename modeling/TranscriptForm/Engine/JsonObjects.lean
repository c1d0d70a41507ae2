import TranscriptForm.Form.Balanced
import TranscriptForm.Kotlin.Utf8
import TranscriptForm.Library.Utf8

namespace Engine

open Kotlin Blocks Form.OnDeviceLlm

abbrev Bytes := List UInt8

def byte (c : Char) : UInt8 := .ofNat c.toNat

def Bytes.substr (text : Bytes) (start length : Nat) : Bytes := (text.drop start).take length

structure ObjectScan where
  start : Int := -1
  depth : Nat := 0
  inString : Bool := false
  escaped : Bool := false

def extractFrom (text : Bytes) (i : Nat) (scan : ObjectScan) : Bytes → Option Bytes
  | [] => none
  | ch :: rest =>
    if scan.escaped then extractFrom text (i + 1) { scan with escaped := false } rest
    else if ch = byte '\\' ∧ scan.inString then extractFrom text (i + 1) { scan with escaped := true } rest
    else if ch = byte '"' then extractFrom text (i + 1) { scan with inString := !scan.inString } rest
    else if scan.inString then extractFrom text (i + 1) scan rest
    else if ch = byte '{' then
      extractFrom text (i + 1)
        { scan with start := if scan.depth = 0 then i else scan.start, depth := scan.depth + 1 } rest
    else if ch = byte '}' then
      if scan.depth = 0 then extractFrom text (i + 1) scan rest
      else if scan.depth - 1 = 0 ∧ 0 ≤ scan.start then some (text.substr scan.start.toNat (i - scan.start.toNat + 1))
      else extractFrom text (i + 1) { scan with depth := scan.depth - 1 } rest
    else extractFrom text (i + 1) scan rest

/-- `json_out`, for a return of `true` -/
def tryExtractCompleteJsonObject (text : Bytes) : Option Bytes := extractFrom text 0 {} text

def byteMark : UInt8 → Mark := markBy (byte '"') (byte '\\') (byte '{') (byte '}')

namespace ObjectScan

def scan (state : ObjectScan) : Scan := ⟨state.depth, state.inString, state.escaped⟩

/-- The part of an object that was read, reversed. -/
def read (state : ObjectScan) (text : Bytes) (i : Nat) : Bytes :=
  if state.depth = 0 then [] else ((text.take i).drop state.start.toNat).reverse

structure Sound (state : ObjectScan) (i : Nat) : Prop where
  started : state.depth ≠ 0 → 0 ≤ state.start ∧ state.start.toNat ≤ i
  quoted : state.escaped = true → state.inString = true

variable {state next : ObjectScan} {text rest : Bytes} {i : Nat} {ch : UInt8}

theorem take_succ_of_drop (here : text.drop i = ch :: rest) : i < text.length ∧ text.take (i + 1) = text.take i ++ [ch] := by
  have inside : i < text.length := by
    by_contra beyond
    rw [List.drop_eq_nil_of_le (by omega)] at here
    cases here
  have first : text[i] = ch := by
    have cons := List.drop_eq_getElem_cons inside
    rw [here] at cons
    exact (List.cons.inj cons).1.symm
  exact ⟨inside, by rw [List.take_succ_eq_append_getElem inside, first]⟩

theorem drop_take_succ {start : Nat} (here : text.drop i = ch :: rest) (started : start ≤ i) :
    (text.take (i + 1)).drop start = (text.take i).drop start ++ [ch] := by
  obtain ⟨inside, taken⟩ := take_succ_of_drop here
  have long : start ≤ (text.take i).length := by
    rw [List.length_take]
    omega
  rw [taken, List.drop_append_of_le_length long]

theorem read_inside (here : text.drop i = ch :: rest) (inside : next.depth ≠ 0) (started : next.start.toNat ≤ i) :
    next.read text (i + 1) = ch :: ((text.take i).drop next.start.toNat).reverse := by
  rw [read, if_neg inside, drop_take_succ here started, List.reverse_append]
  rfl

theorem read_succ (sound : state.Sound i) (here : text.drop i = ch :: rest) (depth : next.depth = state.depth)
    (start : next.start = state.start) :
    next.read text (i + 1) = if state.depth = 0 then [] else ch :: state.read text i := by
  by_cases outside : state.depth = 0
  · rw [if_pos outside, read, depth, if_pos outside]
  · have started := (sound.started outside).2
    rw [if_neg outside, read_inside here (by rwa [depth]) (by rwa [start]), start, read, if_neg outside]

theorem blocksFrom_step (sound : state.Sound i) (here : text.drop i = ch :: rest) (depth : next.depth = state.depth)
    (start : next.start = state.start) (scan : next.scan = state.scan.next (byteMark ch)) :
    blocksFrom byteMark state.scan (state.read text i) (ch :: rest) =
      blocksFrom byteMark next.scan (next.read text (i + 1)) rest := by
  have level : (state.scan.next (byteMark ch)).depth = state.scan.depth := by
    rw [← scan]
    exact depth
  rw [blocksFrom_level level, read_succ sound here depth start, scan]
  rfl

theorem byteMark_plain (quote : ch ≠ byte '"') (opens : ch ≠ byte '{') (closes : ch ≠ byte '}') :
    byteMark ch = .other ∨ byteMark ch = .escape := by
  by_cases escape : ch = byte '\\'
  · right
    rw [escape]
    decide
  · left
    simp [byteMark, markBy, quote, escape, opens, closes]

theorem byteMark_quoted (quote : ch ≠ byte '"') (escape : ch ≠ byte '\\') :
    byteMark ch ≠ .quote ∧ byteMark ch ≠ .escape := by
  constructor <;> simp only [byteMark, markBy] <;> split_ifs <;> simp_all

theorem scan_quoted (quote : ch ≠ byte '"') (escape : ch ≠ byte '\\') (depth : Nat) :
    Scan.next ⟨depth, true, false⟩ (byteMark ch) = ⟨depth, true, false⟩ := by
  obtain ⟨notQuote, notEscape⟩ := byteMark_quoted quote escape
  cases which : byteMark ch with
  | quote => exact absurd which notQuote
  | escape => exact absurd which notEscape
  | opening | closing | other => rfl

theorem scan_plain (quote : ch ≠ byte '"') (opens : ch ≠ byte '{') (closes : ch ≠ byte '}') (depth : Nat) :
    Scan.next ⟨depth, false, false⟩ (byteMark ch) = ⟨depth, false, false⟩ := by
  rcases byteMark_plain quote opens closes with plain | plain <;> rw [plain] <;> rfl

/-- What is copied out is what was read, up to the brace that closes it. -/
theorem substr_read {start : Nat} (here : text.drop i = ch :: rest) (started : start ≤ i) :
    text.substr start (i - start + 1) = (text.take i).drop start ++ [ch] := by
  rw [Bytes.substr, List.take_drop, show start + (i - start + 1) = i + 1 by omega, drop_take_succ here started]

/-- A step that opens an object or stays within one. -/
theorem blocksFrom_within (sound : state.Sound i) (here : text.drop i = ch :: rest) (inside : next.depth ≠ 0)
    (start : next.start = if state.depth = 0 then (i : Int) else state.start)
    (scan : next.scan = state.scan.next (byteMark ch)) :
    blocksFrom byteMark state.scan (state.read text i) (ch :: rest) =
      blocksFrom byteMark next.scan (next.read text (i + 1)) rest := by
  have level : (state.scan.next (byteMark ch)).depth ≠ 0 := by
    rw [← scan]
    exact inside
  by_cases outside : state.depth = 0
  · rw [if_pos outside] at start
    have nothing : state.read text i = [] := if_pos outside
    rw [blocksFrom_inside level, read_inside here inside (by omega), start, nothing, scan]
    simp
  · rw [if_neg outside] at start
    have soFar : state.read text i = ((text.take i).drop state.start.toNat).reverse := if_neg outside
    rw [blocksFrom_inside level, read_inside here inside (by rw [start]; exact (sound.started outside).2), start, soFar,
      scan]

theorem blocksFrom_last (sound : state.Sound i) (here : text.drop i = ch :: rest) (inside : state.depth ≠ 0)
    (last : (state.scan.next (byteMark ch)).depth = 0) :
    (blocksFrom byteMark state.scan (state.read text i) (ch :: rest)).head? =
      some (text.substr state.start.toNat (i - state.start.toNat + 1)) := by
  have soFar : state.read text i = ((text.take i).drop state.start.toNat).reverse := if_neg inside
  rw [blocksFrom_closes inside last, soFar, substr_read here (sound.started inside).2]
  simp

/-- What a step of the scan comes to beside the blocks: both go on in the same way, or have found the same object. -/
inductive Agrees (text : Bytes) (i : Nat) (state : ObjectScan) (ch : UInt8) (rest : Bytes) : Option Bytes → Prop
  | onward (next : ObjectScan) (sound : next.Sound (i + 1))
      (reads : blocksFrom byteMark state.scan (state.read text i) (ch :: rest) =
        blocksFrom byteMark next.scan (next.read text (i + 1)) rest) :
      Agrees text i state ch rest (extractFrom text (i + 1) next rest)
  | found (object : Bytes)
      (reads : (blocksFrom byteMark state.scan (state.read text i) (ch :: rest)).head? = some object) :
      Agrees text i state ch rest (some object)

theorem extractFrom_step (sound : state.Sound i) (here : text.drop i = ch :: rest) :
    Agrees text i state ch rest (extractFrom text i state (ch :: rest)) := by
  obtain ⟨start, depth, inString, escaped⟩ := state
  have later : depth ≠ 0 → 0 ≤ start ∧ start.toNat ≤ i + 1 := fun inside =>
    ⟨(sound.started inside).1, Nat.le_succ_of_le (sound.started inside).2⟩
  rw [extractFrom]
  dsimp only
  split_ifs with isEscaped escape quote quoted opens starts closes outside last
  · have isQuoted : inString = true := sound.quoted isEscaped
    subst isEscaped isQuoted
    exact .onward _ ⟨later, by simp⟩ (blocksFrom_step sound here rfl rfl rfl)
  · obtain ⟨rfl, rfl⟩ := escape
    rw [Bool.not_eq_true] at isEscaped
    subst isEscaped
    exact .onward _ ⟨later, by simp⟩ (blocksFrom_step sound here rfl rfl rfl)
  · rw [Bool.not_eq_true] at isEscaped
    subst isEscaped quote
    exact .onward _ ⟨later, by simp⟩ (blocksFrom_step sound here rfl rfl (by cases inString <;> rfl))
  · rw [Bool.not_eq_true] at isEscaped
    subst isEscaped quoted
    have noEscape : ch ≠ byte '\\' := fun isEscape => escape ⟨isEscape, rfl⟩
    exact .onward _ ⟨later, by simp⟩ (blocksFrom_step sound here rfl rfl (scan_quoted quote noEscape depth).symm)
  · rw [Bool.not_eq_true] at isEscaped quoted
    subst isEscaped quoted opens
    exact .onward _ ⟨fun _ => by simp, by simp⟩
      (blocksFrom_within sound here (Nat.succ_ne_zero depth) (if_pos starts).symm rfl)
  · rw [Bool.not_eq_true] at isEscaped quoted
    subst isEscaped quoted opens
    exact .onward _ ⟨fun _ => later starts, by simp⟩
      (blocksFrom_within sound here (Nat.succ_ne_zero depth) (if_neg starts).symm rfl)
  · rw [Bool.not_eq_true] at isEscaped quoted
    subst isEscaped quoted closes outside
    exact .onward _ ⟨later, by simp⟩ (blocksFrom_step sound here rfl rfl rfl)
  · rw [Bool.not_eq_true] at isEscaped quoted
    subst isEscaped quoted closes
    exact .found _ (blocksFrom_last sound here outside last.1)
  · rw [Bool.not_eq_true] at isEscaped quoted
    subst isEscaped quoted closes
    have inside : depth - 1 ≠ 0 := fun none => last ⟨none, (sound.started outside).1⟩
    exact .onward _ ⟨fun _ => later outside, by simp⟩ (blocksFrom_within sound here inside (if_neg outside).symm rfl)
  · rw [Bool.not_eq_true] at isEscaped quoted
    subst isEscaped quoted
    exact .onward _ ⟨later, by simp⟩ (blocksFrom_step sound here rfl rfl (scan_plain quote opens closes depth).symm)

theorem extractFrom_eq_blocks (sound : state.Sound i) (here : text.drop i = rest) :
    extractFrom text i state rest = (blocksFrom byteMark state.scan (state.read text i) rest).head? := by
  induction rest generalizing state i with
  | nil => rfl
  | cons ch rest ih =>
    have there : text.drop (i + 1) = rest := by
      rw [← List.drop_drop, here]
      rfl
    have step := extractFrom_step sound here
    generalize extractFrom text i state (ch :: rest) = result at step ⊢
    cases step with
    | onward next nextSound reads => rw [reads, ih nextSound there]
    | found object reads => exact reads.symm

end ObjectScan

theorem tryExtractCompleteJsonObject_eq_blocks (text : Bytes) :
    tryExtractCompleteJsonObject text = (blocks byteMark text).head? :=
  ObjectScan.extractFrom_eq_blocks ⟨by simp, by simp⟩ rfl

section Agreement

def codeMark : Nat → Mark := markBy 0x22 0x5C 0x7B 0x7D

theorem codeMark_marked {code : Nat} (marked : codeMark code ≠ .other) :
    code = 0x22 ∨ code = 0x5C ∨ code = 0x7B ∨ code = 0x7D := by
  unfold codeMark markBy at marked
  split_ifs at marked <;> simp_all

theorem codeMark_high {code : Nat} (high : 0x80 ≤ code) : codeMark code = .other := by
  unfold codeMark markBy
  split_ifs <;> first | rfl | omega

theorem braceMark_toNat (c : KChar) : braceMark c = codeMark c.toNat := by
  simp [braceMark, codeMark, markBy, ← UInt16.toNat_inj, ch]

theorem byteMark_toNat (unit : UInt8) : byteMark unit = codeMark unit.toNat := by
  simp [byteMark, codeMark, markBy, ← UInt8.toNat_inj, byte]

theorem spells_encode {code : Nat} (bound : code < 0x110000) : Spells codeMark braceMark encode code where
  marked := by
    intro marked
    rcases codeMark_marked marked with rfl | rfl | rfl | rfl <;> exact ⟨_, rfl, by decide⟩
  plain := by
    intro other
    unfold encode
    split
    · rename_i basic
      refine ⟨by simp, fun unit member => ?_⟩
      rw [List.mem_singleton.mp member, braceMark_toNat, UInt16.toNat_ofNat_of_lt' basic]
      exact other
    · refine ⟨by simp, fun unit member => ?_⟩
      rw [braceMark_toNat]
      apply codeMark_high
      rcases List.mem_pair.mp member with rfl | rfl <;> simp <;> omega

theorem spells_utf8EncodeChar (c : Char) :
    Spells (fun c => codeMark c.toNat) byteMark String.utf8EncodeChar c where
  marked := by
    intro marked
    have code := codeMark_marked marked
    have ascii : c.toNat < 0x80 := by omega
    refine ⟨.ofNat c.toNat, Utf8.utf8EncodeChar_ascii ascii, ?_⟩
    rw [byteMark_toNat, UInt8.toNat_ofNat_of_lt' (by simp [UInt8.size]; omega)]
  plain := by
    intro other
    refine ⟨String.utf8EncodeChar_ne_nil, fun unit member => ?_⟩
    rw [byteMark_toNat]
    by_cases ascii : c.toNat < 0x80
    · rw [Utf8.utf8EncodeChar_ascii ascii] at member
      rw [List.mem_singleton.mp member, UInt8.toNat_ofNat_of_lt' (by simp [UInt8.size]; omega)]
      exact other
    · exact codeMark_high (Utf8.utf8EncodeChar_high (by omega) unit member)

theorem spells_encodeCode (runtime : Runtime) {code : Nat} (bound : code < 0x110000) :
    Spells codeMark byteMark (encodeCode runtime) code := by
  by_cases surrogate : isSurrogate code = true
  · have high : 0x80 ≤ code := by
      simp only [isSurrogate, Bool.and_eq_true, decide_eq_true_eq] at surrogate
      omega
    have malformed : encodeCode runtime code = runtime.malformed := if_pos surrogate
    refine ⟨fun marked => absurd (codeMark_high high) marked, fun _ => ?_⟩
    rw [malformed]
    cases runtime
    · exact ⟨by decide, by simp [Runtime.malformed]; decide⟩
    · exact ⟨by decide, by simp [Runtime.malformed]; decide⟩
  · have same : (Char.ofNat code).toNat = code := by
      have valid : code.isValidChar := by
        simp only [isSurrogate, Bool.and_eq_true, decide_eq_true_eq, not_and] at surrogate
        unfold Nat.isValidChar
        omega
      rw [Char.ofNat, dif_pos valid]
      rfl
    have scalar : encodeCode runtime code = String.utf8EncodeChar (Char.ofNat code) := if_neg surrogate
    obtain ⟨marked, plain⟩ := spells_utf8EncodeChar (Char.ofNat code)
    rw [same, ← scalar] at marked plain
    exact ⟨marked, plain⟩

theorem tryExtractCompleteJsonObject_encode (runtime : Runtime) (text : KString) :
    tryExtractCompleteJsonObject (encodeToByteArray runtime text) =
      (extractBalancedJsonObjects text).head?.map (encodeToByteArray runtime) := by
  have bound := codePoints_bound text
  have native : blocks byteMark (encodeToByteArray runtime text) =
      (blocks codeMark (codePoints text)).map fun block => block.flatMap (encodeCode runtime) :=
    blocks_spell fun code member => spells_encodeCode runtime (bound code member)
  have kotlin : extractBalancedJsonObjects text =
      (blocks codeMark (codePoints text)).map fun block => block.flatMap encode := by
    rw [extractBalancedJsonObjects_eq_blocks, ← blocks_spell fun code member => spells_encode (bound code member),
      flatMap_encode_codePoints]
  rw [tryExtractCompleteJsonObject_eq_blocks, native, kotlin]
  cases found : blocks codeMark (codePoints text) with
  | nil => rfl
  | cons first others =>
    have inside : first <:+: codePoints text := blocks_infix (by rw [found]; exact List.mem_cons_self)
    simp [encodeToByteArray, codePoints_part inside]

theorem scanners_agree (runtime : Runtime) (text : KString) :
    ((tryExtractCompleteJsonObject (encodeToByteArray runtime text)).isSome = true ↔
        extractBalancedJsonObjects text ≠ []) ∧
      ∀ jsonOut, tryExtractCompleteJsonObject (encodeToByteArray runtime text) = some jsonOut →
        ∃ first, (extractBalancedJsonObjects text).head? = some first ∧ jsonOut = encodeToByteArray runtime first := by
  rw [tryExtractCompleteJsonObject_encode]
  constructor
  · cases extractBalancedJsonObjects text <;> simp
  · intro jsonOut found
    obtain ⟨first, head, rfl⟩ := Option.map_eq_some_iff.mp found
    exact ⟨first, head, rfl⟩

end Agreement

section Found

variable {text object : Bytes}

theorem tryExtractCompleteJsonObject_append (more : Bytes) (found : tryExtractCompleteJsonObject text = some object) :
    tryExtractCompleteJsonObject (text ++ more) = some object := by
  rw [tryExtractCompleteJsonObject_eq_blocks] at found ⊢
  exact head?_blocks_append more found

theorem tryExtractCompleteJsonObject_infix (found : tryExtractCompleteJsonObject text = some object) : object <:+: text := by
  rw [tryExtractCompleteJsonObject_eq_blocks] at found
  exact blocks_infix (List.mem_of_mem_head? found)

theorem isUtf8_object (valid : Utf8.IsUtf8 text) (found : tryExtractCompleteJsonObject text = some object) :
    Utf8.IsUtf8 object := by
  obtain ⟨chars, rfl⟩ := valid
  rw [tryExtractCompleteJsonObject_eq_blocks, Utf8.encodeAll, blocks_spell fun c _ => spells_utf8EncodeChar c,
    List.head?_map] at found
  obtain ⟨block, _, rfl⟩ := Option.map_eq_some_iff.mp found
  exact ⟨block, rfl⟩

end Found

end Engine
