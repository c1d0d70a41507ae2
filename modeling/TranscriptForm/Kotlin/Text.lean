import Mathlib.Algebra.Order.Ring.Nat
import Mathlib.Data.List.DropRight
import Mathlib.Data.List.Infix

namespace Kotlin

/-- A UTF-16 code unit, as a `Char` of the source is. -/
abbrev KChar := UInt16

abbrev KString := List KChar

def ch (c : Char) : KChar := .ofNat c.toNat

def txt (literal : String) : KString := literal.toList.map ch

/-- `Char.isWhitespace`, the same set on the JVM and on Kotlin/Native. -/
def isWhitespaceCode (code : Nat) : Bool :=
  (0x09 ≤ code && code ≤ 0x0D) || (0x1C ≤ code && code ≤ 0x20) || code == 0xA0 || code == 0x1680 ||
    (0x2000 ≤ code && code ≤ 0x200A) || code == 0x2028 || code == 0x2029 || code == 0x202F ||
    code == 0x205F || code == 0x3000

def isWhitespace (c : KChar) : Bool := isWhitespaceCode c.toNat

def isBlank (s : KString) : Bool := s.all isWhitespace

def isNotBlank (s : KString) : Bool := !isBlank s

def isNullOrBlank (s : Option KString) : Bool := s.all isBlank

def ifBlank (s other : KString) : KString := if isBlank s then other else s

def trimBy (drop : KChar → Bool) (s : KString) : KString := (s.dropWhile drop).rdropWhile drop

def trim (s : KString) : KString := trimBy isWhitespace s

/-- `trim(vararg chars)` -/
def trimChars (chars s : KString) : KString := trimBy chars.contains s

/-- `trimEnd(vararg chars)` -/
def trimEndChars (chars s : KString) : KString := s.rdropWhile chars.contains

def contains (s part : KString) : Bool := s.tails.any part.isPrefixOf

def startsWith (s start : KString) : Bool := start.isPrefixOf s

/-- `replace(oldValue, newValue)` for a nonempty old value. `pending` counts the
    units of an occurrence that are still to be passed over. -/
def replaceFrom (old new : KString) : Nat → KString → KString
  | _, [] => []
  | pending + 1, _ :: s => replaceFrom old new pending s
  | 0, c :: s =>
    if old.isPrefixOf (c :: s) then new ++ replaceFrom old new (old.length - 1) s
    else c :: replaceFrom old new 0 s

def replaceText (old new s : KString) : KString := replaceFrom old new 0 s

/-- `split` at a one-unit delimiter. -/
def splitChar (delimiter : KChar) : KString → List KString
  | [] => [[]]
  | c :: s =>
    if c = delimiter then [] :: splitChar delimiter s
    else match splitChar delimiter s with
      | [] => [[c]]
      | piece :: pieces => (c :: piece) :: pieces

/-- `maxByOrNull`: the first element with the largest key. -/
def maxByOrNull {α : Type} (key : α → Int) : List α → Option α
  | [] => none
  | first :: rest => some (rest.foldl (fun best next => if key best < key next then next else best) first)

def joinToString (separator : KString) (parts : List KString) : KString := separator.intercalate parts

/-- `lines()`, which also ends a line at a carriage return. -/
def linesFrom : KString → KString → List KString
  | line, [] => [line.reverse]
  | line, [c] => if c = ch '\n' ∨ c = ch '\r' then [line.reverse, []] else [(c :: line).reverse]
  | line, c :: d :: s =>
    if c = ch '\r' ∧ d = ch '\n' then line.reverse :: linesFrom [] s
    else if c = ch '\n' ∨ c = ch '\r' then line.reverse :: linesFrom [] (d :: s)
    else linesFrom (c :: line) (d :: s)

/-- `trimIndent()`: the common indent of the nonblank lines goes, and so do a
    blank first and a blank last line. -/
def trimIndent (s : KString) : KString :=
  let lines := linesFrom [] s
  let indents := (lines.filter isNotBlank).map fun line => (line.takeWhile isWhitespace).length
  let indent := indents.min?.getD 0
  let last := lines.length - 1
  let kept := lines.zipIdx.filter fun line => !((line.2 == 0 || line.2 == last) && isBlank line.1)
  joinToString (txt "\n") (kept.map fun line => line.1.drop indent)

section Trim

variable {drop : KChar → Bool}

theorem trimBy_part (s : KString) : trimBy drop s <:+: s :=
  (List.rdropWhile_prefix drop _).isInfix.trans (List.dropWhile_suffix drop).isInfix

theorem trim_part (s : KString) : trim s <:+: s := trimBy_part s

theorem dropWhile_keeps {word s : KString} (clean : ∀ c ∈ word, drop c = false) (part : word <:+: s) :
    word <:+: s.dropWhile drop := by
  induction s with
  | nil => exact part
  | cons c s ih =>
    by_cases dropped : drop c = true
    · rw [List.dropWhile_cons_of_pos dropped]
      apply ih
      rcases List.infix_cons_iff.mp part with starts | later
      · cases word with
        | nil => exact List.nil_infix
        | cons first word =>
          obtain ⟨rfl, _⟩ := List.cons_prefix_cons.mp starts
          have kept := clean first List.mem_cons_self
          rw [dropped] at kept
          cases kept
      · exact later
    · rw [List.dropWhile_cons_of_neg dropped]
      exact part

theorem trimBy_keeps {word s : KString} (clean : ∀ c ∈ word, drop c = false) (part : word <:+: s) :
    word <:+: trimBy drop s := by
  have left : word <:+: s.dropWhile drop := dropWhile_keeps clean part
  have turned : word.reverse <:+: (s.dropWhile drop).reverse := List.reverse_infix.mpr left
  have right : word.reverse <:+: ((s.dropWhile drop).reverse.dropWhile drop) := by
    apply dropWhile_keeps _ turned
    intro c member
    exact clean c (List.mem_reverse.mp member)
  have back := List.reverse_infix.mpr right
  rw [List.reverse_reverse] at back
  exact back

theorem trimEndChars_part (chars s : KString) : trimEndChars chars s <:+: s :=
  (List.rdropWhile_prefix _ s).isInfix

theorem trimBy_split (s : KString) : ∃ left right, s = left ++ trimBy drop s ++ right ∧
    (∀ c ∈ left, drop c = true) ∧ ∀ c ∈ right, drop c = true := by
  refine ⟨s.takeWhile drop, ((s.dropWhile drop).reverse.takeWhile drop).reverse, ?_, ?_, ?_⟩
  · have right : trimBy drop s ++ ((s.dropWhile drop).reverse.takeWhile drop).reverse = s.dropWhile drop := by
      rw [trimBy, List.rdropWhile, ← List.reverse_append, List.takeWhile_append_dropWhile,
        List.reverse_reverse]
    rw [List.append_assoc, right, List.takeWhile_append_dropWhile]
  · intro c member
    exact List.mem_takeWhile_imp member
  · intro c member
    exact List.mem_takeWhile_imp (List.mem_reverse.mp member)

theorem trim_split (s : KString) : ∃ left right, s = left ++ trim s ++ right ∧
    (∀ c ∈ left, isWhitespace c = true) ∧ ∀ c ∈ right, isWhitespace c = true :=
  trimBy_split s

theorem trimBy_eq_nil (s : KString) (all : ∀ c ∈ s, drop c = true) : trimBy drop s = [] := by
  have none : s.dropWhile drop = [] := List.dropWhile_eq_nil_iff.mpr all
  rw [trimBy, none]
  rfl

theorem trimBy_id {s : KString} (first : ∀ c, s.head? = some c → drop c = false)
    (last : ∀ c, s.getLast? = some c → drop c = false) : trimBy drop s = s := by
  have start : s.dropWhile drop = s := by
    cases s with
    | nil => rfl
    | cons c s => simp [first c rfl]
  rw [trimBy, start, List.rdropWhile_eq_self_iff]
  intro nonempty
  have found := last (s.getLast nonempty) (List.getLast?_eq_some_getLast nonempty)
  simp [found]

theorem trimBy_padded {left right : KString} (dropLeft : ∀ c ∈ left, drop c = true)
    (dropRight : ∀ c ∈ right, drop c = true) (s : KString) : trimBy drop (left ++ (s ++ right)) = trimBy drop s := by
  have ending (t : KString) : (t ++ right).rdropWhile drop = t.rdropWhile drop := by
    have turned : ∀ c ∈ right.reverse, drop c = true := fun c member => dropRight c (List.mem_reverse.mp member)
    rw [List.rdropWhile, List.reverse_append, List.dropWhile_append_of_pos turned]
    rfl
  rw [trimBy, List.dropWhile_append_of_pos dropLeft, List.dropWhile_append]
  split
  · rename_i gone
    rw [List.dropWhile_eq_nil_iff.mpr dropRight, trimBy, List.isEmpty_iff.mp gone]
  · exact ending _

theorem trim_trim (s : KString) : trim (trim s) = trim s := by
  obtain ⟨left, right, split, dropLeft, dropRight⟩ := trim_split s
  rw [List.append_assoc] at split
  have padded : trim (left ++ (trim s ++ right)) = trim (trim s) := trimBy_padded dropLeft dropRight _
  rw [← split] at padded
  exact padded.symm

theorem trim_starts {c : KChar} (plain : isWhitespace c = false) (s : KString) : trim (c :: s) <+: c :: s := by
  obtain ⟨left, right, split, dropLeft, _⟩ := trim_split (c :: s)
  cases left with
  | nil => exact ⟨right, split.symm⟩
  | cons d left =>
    have first : c = d := (List.cons.inj split).1
    have dropped := dropLeft d List.mem_cons_self
    rw [← first, plain] at dropped
    cases dropped

theorem trim_plain {s : KString} (plain : ∀ c ∈ s, isWhitespace c = false) : trim s = s := by
  apply trimBy_id
  · intro c first
    exact plain c (List.mem_of_mem_head? first)
  · intro c last
    exact plain c (List.mem_of_getLast? last)

theorem isBlank_iff (s : KString) : isBlank s = true ↔ ∀ c ∈ s, isWhitespace c = true := by
  simp [isBlank]

theorem trim_of_blank {s : KString} (blank : isBlank s = true) : trim s = [] :=
  trimBy_eq_nil s ((isBlank_iff s).mp blank)

theorem isBlank_trim (s : KString) : isBlank (trim s) = isBlank s := by
  obtain ⟨left, right, split, hl, hr⟩ := trim_split s
  apply Bool.eq_iff_iff.mpr
  rw [isBlank_iff, isBlank_iff]
  constructor
  · intro inner c member
    rw [split, List.append_assoc] at member
    rcases List.mem_append.mp member with member | member
    · exact hl c member
    · rcases List.mem_append.mp member with member | member
      · exact inner c member
      · exact hr c member
  · intro all c member
    exact all c ((trim_part s).subset member)

@[simp] theorem isBlank_nil : isBlank [] = true := rfl

theorem trimBy_first (s : KString) (c : KChar) (head : (trimBy drop s).head? = some c) : drop c = false := by
  obtain ⟨more, whole⟩ := List.rdropWhile_prefix drop (s.dropWhile drop)
  have first : (s.dropWhile drop).head? = some c := by
    rw [← whole, List.head?_append]
    exact Option.or_eq_some_iff.mpr (.inl head)
  have kept := List.head?_dropWhile_not drop s
  rw [first] at kept
  exact kept

theorem trimBy_last (s : KString) (c : KChar) (last : (trimBy drop s).getLast? = some c) : drop c = false := by
  have nonempty : trimBy drop s ≠ [] := by
    intro empty
    rw [empty] at last
    cases last
  have kept := List.rdropWhile_last_not drop _ nonempty
  rw [List.getLast?_eq_some_getLast nonempty] at last
  rw [← Option.some.inj last]
  exact Bool.eq_false_iff.mpr kept

structure Edged (drop : KChar → Bool) (s : KString) : Prop where
  nonempty : s ≠ []
  first : ∀ c, s.head? = some c → drop c = false
  last : ∀ c, s.getLast? = some c → drop c = false

theorem Edged.of_trim {s : KString} (spoken : isNotBlank s = true) : Edged isWhitespace (trim s) where
  nonempty := by
    intro empty
    have blank : isBlank (trim s) = true := by rw [empty]; rfl
    rw [isBlank_trim] at blank
    rw [isNotBlank, blank] at spoken
    cases spoken
  first := trimBy_first s
  last := trimBy_last s

end Trim

section Join

variable {separator : KString}

theorem joinToString_cons_cons (first second : KString) (rest : List KString) :
    joinToString separator (first :: second :: rest) =
      first ++ (separator ++ joinToString separator (second :: rest)) := by
  simp [joinToString, List.intercalate]

theorem joinToString_single (part : KString) : joinToString separator [part] = part := by
  simp [joinToString, List.intercalate]

theorem Edged.join {drop : KChar → Bool} {parts : List KString} (some : parts ≠ [])
    (edged : ∀ part ∈ parts, Edged drop part) : Edged drop (joinToString separator parts) := by
  induction parts with
  | nil => exact absurd rfl some
  | cons first rest ih =>
    obtain ⟨here, later⟩ := List.forall_mem_cons.mp edged
    cases rest with
    | nil =>
      rw [joinToString_single]
      exact here
    | cons second rest =>
      have back := ih (List.cons_ne_nil second rest) later
      rw [joinToString_cons_cons]
      refine ⟨by simp [here.nonempty], ?_, ?_⟩
      · intro c head
        rw [List.head?_append_of_ne_nil _ here.nonempty] at head
        exact here.first c head
      · intro c last
        rw [← List.append_assoc, List.getLast?_append_of_ne_nil _ back.nonempty] at last
        exact back.last c last

theorem joinToString_append {front back : List KString} (frontNonempty : front ≠ []) (backNonempty : back ≠ []) :
    joinToString separator (front ++ back) =
      joinToString separator front ++ (separator ++ joinToString separator back) := by
  obtain ⟨next, back, rfl⟩ := List.exists_cons_of_ne_nil backNonempty
  induction front with
  | nil => exact absurd rfl frontNonempty
  | cons first front ih =>
    cases front with
    | nil =>
      rw [List.singleton_append, joinToString_cons_cons, joinToString_single]
    | cons second front =>
      have later := ih (List.cons_ne_nil second front)
      simp only [List.cons_append] at later ⊢
      rw [joinToString_cons_cons, joinToString_cons_cons, later]
      simp

theorem mem_joinToString {parts : List KString} {c : KChar} (member : c ∈ joinToString separator parts) :
    c ∈ separator ∨ ∃ part ∈ parts, c ∈ part := by
  induction parts with
  | nil => cases member
  | cons first rest ih =>
    cases rest with
    | nil =>
      rw [joinToString_single] at member
      exact Or.inr ⟨first, List.mem_cons_self, member⟩
    | cons second rest =>
      rw [joinToString_cons_cons] at member
      rcases List.mem_append.mp member with inFirst | later
      · exact Or.inr ⟨first, List.mem_cons_self, inFirst⟩
      · rcases List.mem_append.mp later with inSeparator | later
        · exact Or.inl inSeparator
        · rcases ih later with inSeparator | ⟨part, listed, inside⟩
          · exact Or.inl inSeparator
          · exact Or.inr ⟨part, List.mem_cons_of_mem _ listed, inside⟩

theorem joinToString_flatMap {β : Type*} {observe : KChar → List β} (blind : separator.flatMap observe = [])
    (parts : List KString) :
    (joinToString separator parts).flatMap observe = parts.flatMap fun part => part.flatMap observe := by
  induction parts with
  | nil => rfl
  | cons first rest ih =>
    cases rest with
    | nil => rw [joinToString_single, List.flatMap_singleton]
    | cons second rest =>
      rw [joinToString_cons_cons, List.flatMap_append, List.flatMap_append, blind, ih, List.nil_append]
      exact (List.flatMap_cons).symm

end Join

theorem contains_iff (s part : KString) : contains s part = true ↔ part <:+: s := by
  simp only [contains, List.any_eq_true, List.mem_tails, List.isPrefixOf_iff_prefix]
  constructor
  · rintro ⟨rest, suffix, start⟩
    exact start.isInfix.trans suffix.isInfix
  · rintro ⟨left, right, rfl⟩
    exact ⟨part ++ right, ⟨left, by simp⟩, List.prefix_append part right⟩

theorem replaceText_single (old : KChar) (new s : KString) :
    replaceText [old] new s = s.flatMap fun c => if c = old then new else [c] := by
  unfold replaceText
  induction s with
  | nil => rfl
  | cons c s ih =>
    by_cases same : c = old
    · subst same
      simp [replaceFrom, List.isPrefixOf, ih]
    · have other : (old == c) = false := by simpa using fun h : old = c => same h.symm
      simp [replaceFrom, List.isPrefixOf, other, same, ih]

theorem mem_of_maxByOrNull {α : Type} {key : α → Int} {l : List α} {best : α}
    (found : maxByOrNull key l = some best) : best ∈ l := by
  cases l with
  | nil => cases found
  | cons first rest =>
    have inside : ∀ (rest : List α) (start : α),
        rest.foldl (fun best next => if key best < key next then next else best) start ∈ start :: rest := by
      intro rest
      induction rest with
      | nil => simp
      | cons next rest ih =>
        intro start
        rw [List.foldl_cons]
        split
        · exact List.mem_cons_of_mem _ (ih next)
        · rcases List.mem_cons.mp (ih start) with same | later
          · rw [same]
            exact List.mem_cons_self
          · exact List.mem_cons_of_mem _ (List.mem_cons_of_mem _ later)
    rw [← Option.some.inj found]
    exact inside rest first

theorem le_of_maxByOrNull {α : Type} {key : α → Int} {l : List α} {best : α}
    (found : maxByOrNull key l = some best) : ∀ item ∈ l, key item ≤ key best := by
  cases l with
  | nil => cases found
  | cons first rest =>
    have above : ∀ (rest : List α) (start : α), ∀ item ∈ start :: rest,
        key item ≤ key (rest.foldl (fun best next => if key best < key next then next else best) start) := by
      intro rest
      induction rest with
      | nil => simp
      | cons next rest ih =>
        intro start item member
        rw [List.foldl_cons]
        split
        · rename_i larger
          rcases List.mem_cons.mp member with rfl | member
          · exact Int.le_trans (Int.le_of_lt larger) (ih next next List.mem_cons_self)
          · exact ih next item member
        · rename_i smaller
          rcases List.mem_cons.mp member with rfl | member
          · exact ih item item List.mem_cons_self
          · rcases List.mem_cons.mp member with rfl | member
            · exact Int.le_trans (Int.not_lt.mp smaller) (ih start start List.mem_cons_self)
            · exact ih start item (List.mem_cons_of_mem _ member)
    rw [← Option.some.inj found]
    exact above rest first

theorem maxByOrNull_of_ne_nil {α : Type} (key : α → Int) {l : List α} (nonempty : l ≠ []) :
    ∃ best, maxByOrNull key l = some best := by
  obtain ⟨first, rest, rfl⟩ := List.exists_cons_of_ne_nil nonempty
  exact ⟨_, rfl⟩

theorem splitChar_ne_nil (delimiter : KChar) (s : KString) : splitChar delimiter s ≠ [] := by
  cases s with
  | nil => simp [splitChar]
  | cons c s =>
    simp only [splitChar]
    split
    · simp
    · split <;> simp

theorem splitChar_cons_delimiter (delimiter : KChar) (s : KString) :
    splitChar delimiter (delimiter :: s) = [] :: splitChar delimiter s := by
  simp [splitChar]

theorem splitChar_cons {delimiter c : KChar} (other : c ≠ delimiter) {s piece : KString} {pieces : List KString}
    (rest : splitChar delimiter s = piece :: pieces) : splitChar delimiter (c :: s) = (c :: piece) :: pieces := by
  simp [splitChar, other, rest]

theorem splitChar_append (delimiter : KChar) (before after : KString) :
    splitChar delimiter (before ++ delimiter :: after) = splitChar delimiter before ++ splitChar delimiter after := by
  induction before with
  | nil => exact splitChar_cons_delimiter delimiter after
  | cons c before ih =>
    by_cases same : c = delimiter
    · subst same
      rw [List.cons_append, splitChar_cons_delimiter, splitChar_cons_delimiter, ih, List.cons_append]
    · obtain ⟨piece, pieces, shape⟩ := List.exists_cons_of_ne_nil (splitChar_ne_nil delimiter before)
      rw [shape, List.cons_append] at ih
      rw [List.cons_append, splitChar_cons same ih, splitChar_cons same shape, List.cons_append]

theorem splitChar_clean {delimiter : KChar} {s : KString} (clean : delimiter ∉ s) : splitChar delimiter s = [s] := by
  induction s with
  | nil => rfl
  | cons c s ih =>
    have other : c ≠ delimiter := fun same => clean (same ▸ List.mem_cons_self)
    exact splitChar_cons other (ih fun member => clean (List.mem_cons_of_mem _ member))

theorem splitChar_joined {delimiter : KChar} {parts : List KString} (some : parts ≠ [])
    (clean : ∀ part ∈ parts, delimiter ∉ part) : splitChar delimiter (joinToString [delimiter] parts) = parts := by
  induction parts with
  | nil => exact absurd rfl some
  | cons first rest ih =>
    obtain ⟨here, later⟩ := List.forall_mem_cons.mp clean
    cases rest with
    | nil => rw [joinToString_single, splitChar_clean here]
    | cons second rest =>
      rw [joinToString_cons_cons, List.singleton_append, splitChar_append, splitChar_clean here,
        ih (List.cons_ne_nil second rest) later]
      rfl

theorem joinToString_count (delimiter : KChar) (first : KString) (rest : List KString) :
    (joinToString [delimiter] (first :: rest)).count delimiter =
      rest.length + ((first :: rest).map fun part => part.count delimiter).sum := by
  induction rest generalizing first with
  | nil => simp [joinToString_single]
  | cons second rest ih =>
    rw [joinToString_cons_cons, List.count_append, List.count_append, ih second, List.map_cons (l := second :: rest), List.sum_cons]
    simp only [List.count_singleton_self, List.length_cons]
    omega

theorem joinToString_injective {delimiter : KChar} {first first' : KString} {rest rest' : List KString}
    (clean : ∀ part ∈ first :: rest, delimiter ∉ part) (atLeast : rest.length ≤ rest'.length)
    (same : joinToString [delimiter] (first' :: rest') = joinToString [delimiter] (first :: rest)) :
    first' :: rest' = first :: rest := by
  have counted := congrArg (List.count delimiter) same
  have none : ((first :: rest).map fun part => part.count delimiter).sum = 0 := by
    refine List.sum_eq_zero_iff_forall_eq_nat.mpr fun n member => ?_
    obtain ⟨part, listed, rfl⟩ := List.mem_map.mp member
    exact List.count_eq_zero.mpr (clean part listed)
  rw [joinToString_count, joinToString_count, none] at counted
  have noneToo : ((first' :: rest').map fun part => part.count delimiter).sum = 0 := by omega
  have cleanToo : ∀ part ∈ first' :: rest', delimiter ∉ part := fun part listed =>
    List.count_eq_zero.mp (List.sum_eq_zero_iff_forall_eq_nat.mp noneToo _ (List.mem_map_of_mem listed))
  rw [← splitChar_joined (List.cons_ne_nil first' rest') cleanToo, same, splitChar_joined (List.cons_ne_nil first rest) clean]

theorem splitChar_free {delimiter : KChar} {s piece : KString} (member : piece ∈ splitChar delimiter s) :
    delimiter ∉ piece := by
  induction s generalizing piece with
  | nil =>
    rw [List.mem_singleton.mp member]
    exact List.not_mem_nil
  | cons c s ih =>
    by_cases same : c = delimiter
    · subst same
      rw [splitChar_cons_delimiter] at member
      rcases List.mem_cons.mp member with empty | later
      · rw [empty]
        exact List.not_mem_nil
      · exact ih later
    · obtain ⟨first, pieces, shape⟩ := List.exists_cons_of_ne_nil (splitChar_ne_nil delimiter s)
      rw [splitChar_cons same shape] at member
      rw [shape] at ih
      rcases List.mem_cons.mp member with whole | later
      · rw [whole]
        intro inside
        rcases List.mem_cons.mp inside with head | tail
        · exact same head.symm
        · exact ih List.mem_cons_self tail
      · exact ih (List.mem_cons_of_mem _ later)

theorem splitChar_join (delimiter : KChar) (s : KString) : joinToString [delimiter] (splitChar delimiter s) = s := by
  induction s with
  | nil => rfl
  | cons c s ih =>
    obtain ⟨piece, pieces, shape⟩ := List.exists_cons_of_ne_nil (splitChar_ne_nil delimiter s)
    rw [shape] at ih
    by_cases same : c = delimiter
    · subst same
      rw [splitChar_cons_delimiter, shape, joinToString_cons_cons, ih]
      rfl
    · rw [splitChar_cons same shape]
      cases pieces with
      | nil =>
        rw [joinToString_single] at ih ⊢
        rw [ih]
      | cons next pieces =>
        rw [joinToString_cons_cons] at ih ⊢
        rw [List.cons_append, ih]

theorem splitChar_interior {delimiter : KChar} {s t piece : KString} (part : s <:+: t)
    (member : piece ∈ splitChar delimiter s) : (splitChar delimiter s).head? = some piece ∨
      (splitChar delimiter s).getLast? = some piece ∨ piece ∈ splitChar delimiter t := by
  obtain ⟨front, back, split⟩ := List.append_of_mem member
  have joined := splitChar_join delimiter s
  rw [split] at joined ⊢
  by_cases first : front = []
  · left
    rw [first]
    rfl
  by_cases last : back = []
  · right
    left
    rw [last]
    simp
  right
  right
  rw [joinToString_append first (by simp)] at joined
  obtain ⟨next, back, rfl⟩ := List.exists_cons_of_ne_nil last
  rw [joinToString_cons_cons] at joined
  obtain ⟨left, right, rfl⟩ := part
  have place : left ++ s ++ right = (left ++ joinToString [delimiter] front) ++
      delimiter :: (piece ++ delimiter :: (joinToString [delimiter] (next :: back) ++ right)) := by
    rw [← joined]
    simp
  have whole : splitChar delimiter piece = [piece] := splitChar_clean (splitChar_free member)
  rw [place, splitChar_append, splitChar_append, whole]
  simp

theorem splitChar_flatMap {β : Type*} {observe : KChar → List β} {delimiter : KChar}
    (blind : observe delimiter = []) (s : KString) :
    ((splitChar delimiter s).flatMap fun piece => piece.flatMap observe) = s.flatMap observe := by
  induction s with
  | nil => rfl
  | cons c s ih =>
    simp only [splitChar]
    split
    · rename_i same
      rw [List.flatMap_cons, List.flatMap_nil, List.nil_append, List.flatMap_cons, same, blind, List.nil_append, ih]
    · split
      · rename_i none
        exact absurd none (splitChar_ne_nil delimiter s)
      · rename_i piece pieces shape
        rw [shape] at ih
        rw [List.flatMap_cons, List.flatMap_cons, List.append_assoc, List.flatMap_cons, ← ih, List.flatMap_cons]

theorem splitChar_part {delimiter : KChar} {s piece : KString} (member : piece ∈ splitChar delimiter s) :
    piece <:+: s := by
  have start : ∀ s head rest, splitChar delimiter s = head :: rest →
      head <+: s ∧ ∀ piece ∈ rest, piece <:+: s := by
    intro s
    induction s with
    | nil =>
      intro head rest same
      cases same
      simp
    | cons c s ih =>
      intro head rest same
      simp only [splitChar] at same
      split at same
      · obtain ⟨rfl, rfl⟩ := List.cons.inj same
        refine ⟨List.nil_prefix, ?_⟩
        intro piece member
        obtain ⟨first, others, shape⟩ := List.exists_cons_of_ne_nil (splitChar_ne_nil delimiter s)
        have later := ih first others shape
        rw [shape] at member
        rcases List.mem_cons.mp member with rfl | member
        · exact later.1.isInfix.trans (List.suffix_cons c s).isInfix
        · exact (later.2 piece member).trans (List.suffix_cons c s).isInfix
      · split at same
        · rename_i none
          exact absurd none (splitChar_ne_nil delimiter s)
        · rename_i first others shape
          obtain ⟨rfl, rfl⟩ := List.cons.inj same
          have later := ih first others shape
          exact ⟨List.cons_prefix_cons.mpr ⟨rfl, later.1⟩,
            fun piece member => (later.2 piece member).trans (List.suffix_cons c s).isInfix⟩
  obtain ⟨first, others, shape⟩ := List.exists_cons_of_ne_nil (splitChar_ne_nil delimiter s)
  have both := start s first others shape
  rw [shape] at member
  rcases List.mem_cons.mp member with rfl | member
  · exact both.1.isInfix
  · exact both.2 piece member

end Kotlin
