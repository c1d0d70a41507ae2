import Mathlib.Algebra.Order.Ring.Nat
import Mathlib.Data.List.Basic
import Mathlib.Data.List.Infix

namespace Regex

variable {α κ : Type*}

/-- How a text over the units `α` is read one character at a time. A character
    may take several units, the ones it takes are handed back with the rest. -/
structure Reader (α κ : Type*) where
  next : List α → Option (κ × List α × List α)
  next_split : ∀ {text char read rest}, next text = some (char, read, rest) →
    read ≠ [] ∧ text = read ++ rest

/-- Backtracking patterns. A zero-width test sees the reversed text before the
    cursor and the text after it, which covers anchors, boundaries and lookbehind. -/
inductive Pattern (α κ : Type*)
  | empty
  | set (member : κ → Bool)
  | look (holds : List α → List α → Bool)
  | seq (first second : Pattern α κ)
  | alt (first second : Pattern α κ)
  | group (index : Nat) (body : Pattern α κ)
  | loop (greedy : Bool) (least : Nat) (most : Option Nat) (body : Pattern α κ)

structure Cursor (α : Type*) where
  before : List α
  rest : List α
  groups : List (Nat × List α)

def Cursor.advance (cur : Cursor α) (read rest : List α) : Cursor α :=
  { cur with before := read.reverse ++ cur.before, rest := rest }

def Cursor.readSince (start stop : Cursor α) : List α :=
  start.rest.take (start.rest.length - stop.rest.length)

def Cursor.capture (stop : Cursor α) (index : Nat) (start : Cursor α) : Cursor α :=
  { stop with groups := (index, start.readSince stop) :: stop.groups }

def exactly (step : Cursor α → List (Cursor α)) : Nat → Cursor α → List (Cursor α)
  | 0, cur => [cur]
  | n + 1, cur => (step cur).flatMap (exactly step n)

/-- At most `n` further rounds. A round that reads nothing is not repeated. -/
def upTo (step : Cursor α → List (Cursor α)) (greedy : Bool) : Nat → Cursor α → List (Cursor α)
  | 0, cur => [cur]
  | n + 1, cur =>
    let more := ((step cur).filter fun next => next.rest.length < cur.rest.length).flatMap
      (upTo step greedy n)
    if greedy then more ++ [cur] else cur :: more

/-- Every way the pattern matches at the cursor, in the order a backtracking
    matcher tries them. The first one is the match. An unbounded loop needs no
    more rounds than there are units left. -/
def results (reader : Reader α κ) : Pattern α κ → Cursor α → List (Cursor α)
  | .empty, cur => [cur]
  | .set member, cur =>
    match reader.next cur.rest with
    | some (char, read, rest) => if member char then [cur.advance read rest] else []
    | none => []
  | .look holds, cur => if holds cur.before cur.rest then [cur] else []
  | .seq first second, cur => (results reader first cur).flatMap (results reader second)
  | .alt first second, cur => results reader first cur ++ results reader second cur
  | .group index body, cur => (results reader body cur).map fun stop => stop.capture index cur
  | .loop greedy least most body, cur =>
    (exactly (results reader body) least cur).flatMap fun start =>
      upTo (results reader body) greedy
        (match most with
          | some most => most - least
          | none => start.rest.length) start

def Within (reader : Reader α κ) (good : α → Prop) : Pattern α κ → Prop
  | .empty => True
  | .set member => ∀ text char read rest, reader.next text = some (char, read, rest) →
      member char = true → ∀ unit ∈ read, good unit
  | .look _ => True
  | .seq first second => Within reader good first ∧ Within reader good second
  | .alt first second => Within reader good first ∧ Within reader good second
  | .group _ body => Within reader good body
  | .loop _ _ _ body => Within reader good body

theorem within_any (reader : Reader α κ) (pattern : Pattern α κ) :
    Within reader (fun _ => True) pattern := by
  induction pattern with
  | empty | look => exact True.intro
  | set => intro _ _ _ _ _ _ _ _; exact True.intro
  | seq _ _ first second => exact ⟨first, second⟩
  | alt _ _ first second => exact ⟨first, second⟩
  | group _ _ body => exact body
  | loop _ _ _ _ body => exact body

/-- The text between two cursors, what holds of its units and where the groups
    captured on the way lie. -/
structure Reads (good : α → Prop) (start stop : Cursor α) (read : List α) : Prop where
  rest : start.rest = read ++ stop.rest
  before : stop.before = read.reverse ++ start.before
  good : ∀ unit ∈ read, good unit
  groups : ∀ captured ∈ stop.groups, captured ∈ start.groups ∨ captured.2 <:+: read

namespace Reads

variable {good : α → Prop} {start middle stop : Cursor α} {read more : List α}

theorem refl (cur : Cursor α) : Reads good cur cur [] :=
  ⟨rfl, rfl, by simp, fun _ member => Or.inl member⟩

theorem trans (first : Reads good start middle read) (second : Reads good middle stop more) :
    Reads good start stop (read ++ more) where
  rest := by rw [first.rest, second.rest, List.append_assoc]
  before := by rw [second.before, first.before, List.reverse_append, List.append_assoc]
  good := by
    intro unit member
    rcases List.mem_append.mp member with member | member
    · exact first.good unit member
    · exact second.good unit member
  groups := by
    intro captured member
    rcases second.groups captured member with member | inside
    · rcases first.groups captured member with member | inside
      · exact Or.inl member
      · exact Or.inr (inside.trans (List.prefix_append read more).isInfix)
    · exact Or.inr (inside.trans (List.suffix_append read more).isInfix)

theorem readSince (reads : Reads good start stop read) : start.readSince stop = read := by
  simp [Cursor.readSince, reads.rest]

theorem capture (reads : Reads good start stop read) (index : Nat) :
    Reads good start (stop.capture index start) read where
  rest := reads.rest
  before := reads.before
  good := reads.good
  groups := by
    intro captured member
    rcases List.mem_cons.mp member with rfl | member
    · right
      rw [reads.readSince]
    · exact reads.groups captured member

end Reads

section Loops

variable {good : α → Prop} {step : Cursor α → List (Cursor α)}
  (step_reads : ∀ cur, ∀ next ∈ step cur, ∃ read, Reads good cur next read)
include step_reads

theorem exactly_reads (n : Nat) (cur : Cursor α) :
    ∀ stop ∈ exactly step n cur, ∃ read, Reads good cur stop read := by
  induction n generalizing cur with
  | zero =>
    intro stop member
    rw [List.mem_singleton.mp member]
    exact ⟨[], Reads.refl cur⟩
  | succ n ih =>
    intro stop member
    obtain ⟨next, taken, later⟩ := List.mem_flatMap.mp member
    obtain ⟨read, first⟩ := step_reads cur next taken
    obtain ⟨more, second⟩ := ih next stop later
    exact ⟨read ++ more, first.trans second⟩

theorem upTo_reads (greedy : Bool) (n : Nat) (cur : Cursor α) :
    ∀ stop ∈ upTo step greedy n cur, ∃ read, Reads good cur stop read := by
  induction n generalizing cur with
  | zero =>
    intro stop member
    rw [List.mem_singleton.mp member]
    exact ⟨[], Reads.refl cur⟩
  | succ n ih =>
    intro stop member
    have either : stop = cur ∨ ∃ next ∈ step cur, stop ∈ upTo step greedy n next := by
      simp only [upTo] at member
      split at member
      · simp only [List.mem_append, List.mem_flatMap, List.mem_filter, List.mem_singleton] at member
        rcases member with ⟨next, taken, later⟩ | same
        · exact Or.inr ⟨next, taken.1, later⟩
        · exact Or.inl same
      · simp only [List.mem_cons, List.mem_flatMap, List.mem_filter] at member
        rcases member with same | ⟨next, taken, later⟩
        · exact Or.inl same
        · exact Or.inr ⟨next, taken.1, later⟩
    rcases either with rfl | ⟨next, taken, later⟩
    · exact ⟨[], Reads.refl stop⟩
    · obtain ⟨read, first⟩ := step_reads cur next taken
      obtain ⟨more, second⟩ := ih next stop later
      exact ⟨read ++ more, first.trans second⟩

end Loops

/-- A match reads a prefix of what is left, keeps to the units the pattern allows
    and captures only parts of what it read. -/
theorem results_reads {reader : Reader α κ} {good : α → Prop} {pattern : Pattern α κ}
    (within : Within reader good pattern) (cur : Cursor α) :
    ∀ stop ∈ results reader pattern cur, ∃ read, Reads good cur stop read := by
  induction pattern generalizing cur with
  | empty =>
    intro stop member
    rw [List.mem_singleton.mp member]
    exact ⟨[], Reads.refl cur⟩
  | set accepts =>
    intro stop member
    simp only [results] at member
    split at member
    · rename_i char read rest next
      split at member
      · rename_i accepted
        rw [List.mem_singleton.mp member]
        refine ⟨read, (reader.next_split next).2, rfl, within _ _ _ _ next accepted, ?_⟩
        exact fun _ captured => Or.inl captured
      · cases member
    · cases member
  | look holds =>
    intro stop member
    simp only [results] at member
    split at member
    · rw [List.mem_singleton.mp member]
      exact ⟨[], Reads.refl cur⟩
    · cases member
  | seq first second ihFirst ihSecond =>
    intro stop member
    obtain ⟨middle, taken, later⟩ := List.mem_flatMap.mp member
    obtain ⟨read, reads⟩ := ihFirst within.1 cur middle taken
    obtain ⟨more, readsMore⟩ := ihSecond within.2 middle stop later
    exact ⟨read ++ more, reads.trans readsMore⟩
  | alt first second ihFirst ihSecond =>
    intro stop member
    rcases List.mem_append.mp member with member | member
    · exact ihFirst within.1 cur stop member
    · exact ihSecond within.2 cur stop member
  | group index body ih =>
    intro stop member
    obtain ⟨inner, taken, rfl⟩ := List.mem_map.mp member
    obtain ⟨read, reads⟩ := ih within cur inner taken
    exact ⟨read, reads.capture index⟩
  | loop greedy least most body ih =>
    intro stop member
    obtain ⟨middle, taken, later⟩ := List.mem_flatMap.mp member
    obtain ⟨read, reads⟩ := exactly_reads (ih within) least cur middle taken
    obtain ⟨more, readsMore⟩ := upTo_reads (ih within) greedy _ middle stop later
    exact ⟨read ++ more, reads.trans readsMore⟩

end Regex
