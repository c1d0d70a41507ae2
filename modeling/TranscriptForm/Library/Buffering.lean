import Mathlib.Data.List.Basic

-- Pieces of a text that are held back until they make something whole.
namespace Buffering

variable {α : Type*}

structure Buffer (α : Type*) where
  held : List α := []
  handed : List (List α) := []

def Buffer.text (buffer : Buffer α) : List α := buffer.handed.flatten ++ buffer.held

def push (whole : List α → Bool) (buffer : Buffer α) (piece : List α) : Buffer α :=
  let held := buffer.held ++ piece
  if whole held then { held := [], handed := buffer.handed ++ [held] } else { buffer with held := held }

def pushAll (whole : List α → Bool) (buffer : Buffer α) (pieces : List (List α)) : Buffer α :=
  pieces.foldl (push whole) buffer

section Text

variable {whole : List α → Bool} {buffer : Buffer α}

theorem push_whole {piece : List α} (complete : whole (buffer.held ++ piece) = true) :
    push whole buffer piece = { held := [], handed := buffer.handed ++ [buffer.held ++ piece] } := if_pos complete

theorem push_part {piece : List α} (incomplete : ¬ whole (buffer.held ++ piece) = true) :
    push whole buffer piece = { buffer with held := buffer.held ++ piece } := if_neg incomplete

/-- Nothing is lost, doubled or moved. -/
theorem push_text (piece : List α) : (push whole buffer piece).text = buffer.text ++ piece := by
  by_cases complete : whole (buffer.held ++ piece) = true
  · rw [push_whole complete]
    simp [Buffer.text]
  · rw [push_part complete]
    simp [Buffer.text]

theorem pushAll_text (pieces : List (List α)) : (pushAll whole buffer pieces).text = buffer.text ++ pieces.flatten := by
  induction pieces generalizing buffer with
  | nil => simp [pushAll]
  | cons piece pieces ih =>
    have next : pushAll whole buffer (piece :: pieces) = pushAll whole (push whole buffer piece) pieces := rfl
    rw [next, ih, push_text, List.flatten_cons, List.append_assoc]

theorem pushAll_append (first second : List (List α)) :
    pushAll whole buffer (first ++ second) = pushAll whole (pushAll whole buffer first) second := List.foldl_append

theorem push_after (earlier : List (List α)) (piece : List α) :
    push whole { buffer with handed := earlier ++ buffer.handed } piece =
      { push whole buffer piece with handed := earlier ++ (push whole buffer piece).handed } := by
  by_cases complete : whole (buffer.held ++ piece) = true
  · simp only [push, complete, if_true, List.append_assoc]
  · simp only [push, complete, if_false, Bool.false_eq_true]

theorem pushAll_after (earlier : List (List α)) (pieces : List (List α)) :
    pushAll whole { buffer with handed := earlier ++ buffer.handed } pieces =
      { pushAll whole buffer pieces with handed := earlier ++ (pushAll whole buffer pieces).handed } := by
  induction pieces generalizing buffer with
  | nil => rfl
  | cons piece pieces ih =>
    simp only [pushAll, List.foldl_cons] at ih ⊢
    rw [push_after, ih]

theorem pushAll_handed (pieces : List (List α)) : ∃ more, (pushAll whole buffer pieces).handed = buffer.handed ++ more := by
  have after := @pushAll_after _ whole { buffer with handed := [] } buffer.handed pieces
  rw [List.append_nil] at after
  exact ⟨_, congrArg Buffer.handed after⟩

end Text

/-- Whole texts can be put together, and one can be taken off the front of another. -/
structure Texts (Whole : List α → Prop) : Prop where
  nil : Whole []
  append : ∀ {first second}, Whole first → Whole second → Whole (first ++ second)
  rest : ∀ {first second}, Whole first → Whole (first ++ second) → Whole second

/-- The check tells whether the beginning of a whole text is whole itself. -/
def Tells (whole : List α → Bool) (Whole : List α → Prop) : Prop :=
  ∀ {first rest}, Whole (first ++ rest) → (whole first = true ↔ Whole first)

structure Parted (Whole : List α → Prop) (buffer : Buffer α) : Prop where
  handed : ∀ part ∈ buffer.handed, Whole part
  held : buffer.held = [] ∨ ¬ Whole buffer.held

section Whole

variable {whole : List α → Bool} {Whole : List α → Prop} {buffer : Buffer α} {rest : List α}

theorem Texts.flatten (texts : Texts Whole) {parts : List (List α)} (all : ∀ part ∈ parts, Whole part) :
    Whole parts.flatten := by
  induction parts with
  | nil => exact texts.nil
  | cons part parts ih =>
    obtain ⟨here, later⟩ := List.forall_mem_cons.mp all
    rw [List.flatten_cons]
    exact texts.append here (ih later)

theorem Parted.start : Parted Whole {} := ⟨by simp, .inl rfl⟩

theorem Parted.push (texts : Texts Whole) (tells : Tells whole Whole) (parted : Parted Whole buffer) {piece : List α}
    (goesOn : Whole (buffer.text ++ piece ++ rest)) : Parted Whole (push whole buffer piece) := by
  have later : Whole (buffer.held ++ piece ++ rest) := by
    apply texts.rest (texts.flatten parted.handed)
    rw [← List.append_assoc, ← List.append_assoc]
    exact goesOn
  by_cases complete : whole (buffer.held ++ piece) = true
  · rw [push_whole complete]
    refine ⟨?_, .inl rfl⟩
    have wholeText := (tells later).mp complete
    exact List.forall_mem_append.mpr ⟨parted.handed, by simpa using wholeText⟩
  · rw [push_part complete]
    exact ⟨parted.handed, .inr fun wholeText => complete ((tells later).mpr wholeText)⟩

theorem Parted.pushAll (texts : Texts Whole) (tells : Tells whole Whole) (parted : Parted Whole buffer)
    {pieces : List (List α)} (goesOn : Whole (buffer.text ++ pieces.flatten ++ rest)) :
    Parted Whole (pushAll whole buffer pieces) := by
  induction pieces generalizing buffer with
  | nil => exact parted
  | cons piece pieces ih =>
    rw [List.flatten_cons, ← List.append_assoc] at goesOn
    have next : Parted Whole (Buffering.push whole buffer piece) := by
      apply parted.push texts tells
      rw [List.append_assoc _ pieces.flatten] at goesOn
      exact goesOn
    apply ih next
    rw [push_text]
    exact goesOn

theorem Parted.held_nil_iff (texts : Texts Whole) (parted : Parted Whole buffer) :
    buffer.held = [] ↔ Whole buffer.text := by
  have handed := texts.flatten parted.handed
  constructor
  · intro none
    rw [Buffer.text, none, List.append_nil]
    exact handed
  · intro wholeText
    rcases parted.held with none | part
    · exact none
    · exact absurd (texts.rest handed wholeText) part

/-- Nothing waits longer than it has to: what was handed on reaches as far as any whole text so far. -/
theorem handed_reaches (texts : Texts Whole) (tells : Tells whole Whole) {first second : List (List α)}
    (goesOn : Whole (first.flatten ++ rest)) (wholeText : Whole first.flatten) :
    first.flatten <+: (pushAll whole {} (first ++ second)).handed.flatten := by
  have text := @pushAll_text _ whole {} first
  have parted := @Parted.pushAll _ _ _ _ _ texts tells Parted.start first goesOn
  obtain ⟨more, grows⟩ := @pushAll_handed _ whole (pushAll whole {} first) second
  have start : Buffer.text ({} : Buffer α) = [] := rfl
  rw [start, List.nil_append] at text
  have none := (parted.held_nil_iff texts).mpr (text ▸ wholeText)
  rw [Buffer.text, none, List.append_nil] at text
  rw [pushAll_append, grows, List.flatten_append, text]
  exact List.prefix_append _ _

end Whole

end Buffering
