import Mathlib.Data.List.Basic
import Mathlib.Data.List.Infix

-- The outermost blocks between braces in a text with quoted strings.
namespace Blocks

inductive Mark
  | quote
  | escape
  | opening
  | closing
  | other
  deriving DecidableEq

def markBy {α : Type*} [DecidableEq α] (quote escape opening closing c : α) : Mark :=
  if c = quote then .quote
  else if c = escape then .escape
  else if c = opening then .opening
  else if c = closing then .closing
  else .other

structure Scan where
  depth : Nat := 0
  inString : Bool := false
  escaped : Bool := false
  deriving DecidableEq

def Scan.next : Scan → Mark → Scan
  | ⟨depth, true, true⟩, _ => ⟨depth, true, false⟩
  | ⟨depth, true, false⟩, .escape => ⟨depth, true, true⟩
  | ⟨depth, true, false⟩, .quote => ⟨depth, false, false⟩
  | ⟨depth, true, false⟩, _ => ⟨depth, true, false⟩
  | ⟨depth, false, escaped⟩, .quote => ⟨depth, true, escaped⟩
  | ⟨depth, false, escaped⟩, .opening => ⟨depth + 1, false, escaped⟩
  | ⟨depth, false, escaped⟩, .closing => ⟨depth - 1, false, escaped⟩
  | ⟨depth, false, escaped⟩, _ => ⟨depth, false, escaped⟩

variable {α β : Type*}

/-- The blocks that end in the text, after a scan that has read the given part of a block, reversed. -/
def blocksFrom (mark : α → Mark) : Scan → List α → List α → List (List α)
  | _, _, [] => []
  | scan, read, c :: text =>
    let next := scan.next (mark c)
    if next.depth = 0 then
      if scan.depth = 0 then blocksFrom mark next [] text
      else (c :: read).reverse :: blocksFrom mark next [] text
    else blocksFrom mark next (c :: read) text

def blocks (mark : α → Mark) (text : List α) : List (List α) := blocksFrom mark {} [] text

variable {mark : α → Mark} {scan : Scan} {read text : List α} {c : α}

theorem blocksFrom_outside (before : scan.depth = 0) (after : (scan.next (mark c)).depth = 0) :
    blocksFrom mark scan read (c :: text) = blocksFrom mark (scan.next (mark c)) [] text := by
  simp only [blocksFrom, before, after, if_true]

theorem blocksFrom_closes (before : scan.depth ≠ 0) (after : (scan.next (mark c)).depth = 0) :
    blocksFrom mark scan read (c :: text) =
      (c :: read).reverse :: blocksFrom mark (scan.next (mark c)) [] text := by
  simp only [blocksFrom, before, after, if_true, if_false]

theorem blocksFrom_inside (after : (scan.next (mark c)).depth ≠ 0) :
    blocksFrom mark scan read (c :: text) = blocksFrom mark (scan.next (mark c)) (c :: read) text := by
  simp only [blocksFrom, after, if_false]

theorem blocksFrom_level (level : (scan.next (mark c)).depth = scan.depth) :
    blocksFrom mark scan read (c :: text) =
      blocksFrom mark (scan.next (mark c)) (if scan.depth = 0 then [] else c :: read) text := by
  by_cases outside : scan.depth = 0
  · rw [blocksFrom_outside outside (level.trans outside), if_pos outside]
  · rw [blocksFrom_inside (by rwa [level]), if_neg outside]

theorem blocksFrom_append (more : List α) :
    blocksFrom mark scan read text <+: blocksFrom mark scan read (text ++ more) := by
  induction text generalizing scan read with
  | nil => exact List.nil_prefix
  | cons c text ih =>
    by_cases after : (scan.next (mark c)).depth = 0
    · by_cases before : scan.depth = 0
      · rw [List.cons_append, blocksFrom_outside before after, blocksFrom_outside before after]
        exact ih
      · rw [List.cons_append, blocksFrom_closes before after, blocksFrom_closes before after]
        exact List.cons_prefix_cons.mpr ⟨rfl, ih⟩
    · rw [List.cons_append, blocksFrom_inside after, blocksFrom_inside after]
      exact ih

theorem blocks_append (text more : List α) : blocks mark text <+: blocks mark (text ++ more) :=
  blocksFrom_append more

theorem head?_blocks_append {block : List α} (more : List α) (first : (blocks mark text).head? = some block) :
    (blocks mark (text ++ more)).head? = some block := by
  obtain ⟨others, list⟩ := List.head?_eq_some_iff.mp first
  obtain ⟨later, grows⟩ := @blocks_append _ mark text more
  rw [← grows, list]
  rfl

theorem blocksFrom_infix : ∀ block ∈ blocksFrom mark scan read text, block <:+: read.reverse ++ text := by
  induction text generalizing scan read with
  | nil =>
    intro block member
    cases member
  | cons c text ih =>
    have later : ∀ scan, ∀ block ∈ blocksFrom mark scan [] text, block <:+: read.reverse ++ c :: text := by
      intro scan block member
      have inside := ih block member
      rw [List.reverse_nil, List.nil_append] at inside
      exact inside.trans ⟨read.reverse ++ [c], [], by simp⟩
    intro block member
    by_cases after : (scan.next (mark c)).depth = 0
    · by_cases before : scan.depth = 0
      · rw [blocksFrom_outside before after] at member
        exact later _ block member
      · rw [blocksFrom_closes before after] at member
        rcases List.mem_cons.mp member with rfl | member
        · exact ⟨[], text, by simp⟩
        · exact later _ block member
    · rw [blocksFrom_inside after] at member
      have inside := ih block member
      rwa [List.reverse_cons, List.append_assoc] at inside

theorem blocks_infix {block : List α} (member : block ∈ blocks mark text) : block <:+: text :=
  blocksFrom_infix block member

section Neutral

/-- Within a block, the text is passed over and the scan is left as it was. -/
def Neutral (mark : α → Mark) (text : List α) : Prop :=
  ∀ depth read rest, blocksFrom mark ⟨depth + 1, false, false⟩ read (text ++ rest) =
    blocksFrom mark ⟨depth + 1, false, false⟩ (text.reverse ++ read) rest

def Quoted (mark : α → Mark) (text : List α) : Prop :=
  ∀ depth read rest, blocksFrom mark ⟨depth + 1, true, false⟩ read (text ++ rest) =
    blocksFrom mark ⟨depth + 1, true, false⟩ (text.reverse ++ read) rest

variable {first second body : List α} {d : α}

theorem Neutral.nil : Neutral mark [] := fun _ _ _ => rfl

theorem Neutral.append (left : Neutral mark first) (right : Neutral mark second) : Neutral mark (first ++ second) := by
  intro depth read rest
  rw [List.append_assoc, left, right, List.reverse_append, List.append_assoc]

theorem Neutral.single (plain : mark c = .other ∨ mark c = .escape) : Neutral mark [c] := by
  intro depth read rest
  have next : Scan.next ⟨depth + 1, false, false⟩ (mark c) = ⟨depth + 1, false, false⟩ := by
    rcases plain with plain | plain <;> rw [plain] <;> rfl
  have inside : (Scan.next ⟨depth + 1, false, false⟩ (mark c)).depth ≠ 0 := by
    rw [next]
    exact Nat.succ_ne_zero depth
  rw [List.singleton_append, blocksFrom_inside inside, next]
  rfl

theorem Neutral.of_plain (plain : ∀ c ∈ text, mark c = .other ∨ mark c = .escape) : Neutral mark text := by
  induction text with
  | nil => exact .nil
  | cons c text ih =>
    obtain ⟨here, later⟩ := List.forall_mem_cons.mp plain
    exact (Neutral.single here).append (ih later)

theorem Neutral.braces (opens : mark c = .opening) (closes : mark d = .closing) (inner : Neutral mark body) :
    Neutral mark (c :: body ++ [d]) := by
  intro depth read rest
  have down : Scan.next ⟨depth + 1, false, false⟩ (mark c) = ⟨depth + 1 + 1, false, false⟩ := by
    rw [opens]
    rfl
  have up : Scan.next ⟨depth + 1 + 1, false, false⟩ (mark d) = ⟨depth + 1, false, false⟩ := by
    rw [closes]
    rfl
  have step : blocksFrom mark ⟨depth + 1, false, false⟩ read (c :: (body ++ d :: rest)) =
      blocksFrom mark ⟨depth + 1 + 1, false, false⟩ (c :: read) (body ++ d :: rest) := by
    rw [blocksFrom_inside (by rw [down]; exact Nat.succ_ne_zero _), down]
  have back : blocksFrom mark ⟨depth + 1 + 1, false, false⟩ (body.reverse ++ c :: read) (d :: rest) =
      blocksFrom mark ⟨depth + 1, false, false⟩ (d :: (body.reverse ++ c :: read)) rest := by
    rw [blocksFrom_inside (by rw [up]; exact Nat.succ_ne_zero _), up]
  have shape : c :: body ++ [d] ++ rest = c :: (body ++ d :: rest) := by simp
  rw [shape, step, inner, back]
  simp

theorem Quoted.nil : Quoted mark [] := fun _ _ _ => rfl

theorem Quoted.plain (notQuote : mark c ≠ .quote) (notEscape : mark c ≠ .escape) (later : Quoted mark text) :
    Quoted mark (c :: text) := by
  intro depth read rest
  have next : Scan.next ⟨depth + 1, true, false⟩ (mark c) = ⟨depth + 1, true, false⟩ := by
    cases which : mark c with
    | quote => exact absurd which notQuote
    | escape => exact absurd which notEscape
    | opening | closing | other => rfl
  rw [List.cons_append, blocksFrom_inside (by rw [next]; exact Nat.succ_ne_zero _), next, later]
  simp

theorem Quoted.pair (escapes : mark c = .escape) (later : Quoted mark text) : Quoted mark (c :: d :: text) := by
  intro depth read rest
  have down : Scan.next ⟨depth + 1, true, false⟩ (mark c) = ⟨depth + 1, true, true⟩ := by
    rw [escapes]
    rfl
  have up : Scan.next ⟨depth + 1, true, true⟩ (mark d) = ⟨depth + 1, true, false⟩ := rfl
  rw [List.cons_append, List.cons_append, blocksFrom_inside (by rw [down]; exact Nat.succ_ne_zero _), down,
    blocksFrom_inside (by rw [up]; exact Nat.succ_ne_zero _), up, later]
  simp

theorem Quoted.neutral (opens : mark c = .quote) (closes : mark d = .quote) (inner : Quoted mark body) :
    Neutral mark (c :: body ++ [d]) := by
  intro depth read rest
  have down : Scan.next ⟨depth + 1, false, false⟩ (mark c) = ⟨depth + 1, true, false⟩ := by
    rw [opens]
    rfl
  have up : Scan.next ⟨depth + 1, true, false⟩ (mark d) = ⟨depth + 1, false, false⟩ := by
    rw [closes]
    rfl
  have step : blocksFrom mark ⟨depth + 1, false, false⟩ read (c :: (body ++ d :: rest)) =
      blocksFrom mark ⟨depth + 1, true, false⟩ (c :: read) (body ++ d :: rest) := by
    rw [blocksFrom_inside (by rw [down]; exact Nat.succ_ne_zero _), down]
  have back : blocksFrom mark ⟨depth + 1, true, false⟩ (body.reverse ++ c :: read) (d :: rest) =
      blocksFrom mark ⟨depth + 1, false, false⟩ (d :: (body.reverse ++ c :: read)) rest := by
    rw [blocksFrom_inside (by rw [up]; exact Nat.succ_ne_zero _), up]
  have shape : c :: body ++ [d] ++ rest = c :: (body ++ d :: rest) := by simp
  rw [shape, step, inner, back]
  simp

end Neutral

section Top

variable {separator body : List α} {d : α}

theorem blocks_separator (plain : ∀ c ∈ separator, mark c = .other ∨ mark c = .escape) (text : List α) :
    blocks mark (separator ++ text) = blocks mark text := by
  induction separator with
  | nil => rfl
  | cons c separator ih =>
    obtain ⟨here, later⟩ := List.forall_mem_cons.mp plain
    have next : Scan.next {} (mark c) = {} := by
      rcases here with here | here <;> rw [here] <;> rfl
    have outside : (Scan.next {} (mark c)).depth = 0 := by rw [next]
    rw [blocks, List.cons_append, blocksFrom_outside rfl outside, next]
    exact ih later

theorem blocks_block (opens : mark c = .opening) (closes : mark d = .closing) (inner : Neutral mark body)
    (text : List α) : blocks mark (c :: body ++ [d] ++ text) = (c :: body ++ [d]) :: blocks mark text := by
  have down : Scan.next {} (mark c) = ⟨0 + 1, false, false⟩ := by
    rw [opens]
    rfl
  have up : Scan.next ⟨0 + 1, false, false⟩ (mark d) = {} := by
    rw [closes]
    rfl
  have shape : c :: body ++ [d] ++ text = c :: (body ++ d :: text) := by simp
  rw [shape, blocks, blocksFrom_inside (by rw [down]; exact Nat.one_ne_zero), down, inner,
    blocksFrom_closes Nat.one_ne_zero (by rw [up]), up]
  simp [blocks]

theorem blocks_separated {parts : List (List α × List α)}
    (block : ∀ part ∈ parts, ∃ c body d, part.1 = c :: body ++ [d] ∧ mark c = .opening ∧ mark d = .closing ∧
      Neutral mark body)
    (plain : ∀ part ∈ parts, ∀ c ∈ part.2, mark c = .other ∨ mark c = .escape) :
    blocks mark (parts.flatMap fun part => part.1 ++ part.2) = parts.map Prod.fst := by
  induction parts with
  | nil => rfl
  | cons part parts ih =>
    obtain ⟨here, later⟩ := List.forall_mem_cons.mp block
    obtain ⟨separated, laterSeparated⟩ := List.forall_mem_cons.mp plain
    obtain ⟨c, body, d, shape, opens, closes, inner⟩ := here
    rw [List.flatMap_cons, List.append_assoc, List.map_cons, shape, blocks_block opens closes inner,
      blocks_separator separated, ih later laterSeparated]

end Top

section Spelling

variable {spell : α → List β} {mark' : β → Mark}

/-- A marked character is spelled as one that is marked alike, any other as plain ones. -/
structure Spells (mark : α → Mark) (mark' : β → Mark) (spell : α → List β) (c : α) : Prop where
  marked : mark c ≠ .other → ∃ unit, spell c = [unit] ∧ mark' unit = mark c
  plain : mark c = .other → spell c ≠ [] ∧ ∀ unit ∈ spell c, mark' unit = .other

theorem next_other_other (scan : Scan) : (scan.next .other).next .other = scan.next .other := by
  obtain ⟨depth, inString, escaped⟩ := scan
  cases inString <;> cases escaped <;> rfl

theorem depth_next_other (scan : Scan) : (scan.next .other).depth = scan.depth := by
  obtain ⟨depth, inString, escaped⟩ := scan
  cases inString <;> cases escaped <;> rfl

theorem blocksFrom_plain {units : List β} {scan : Scan} {read : List β} (plain : ∀ unit ∈ units, mark' unit = .other)
    (settled : scan.next .other = scan) (rest : List β) :
    blocksFrom mark' scan read (units ++ rest) =
      blocksFrom mark' scan (if units ≠ [] ∧ scan.depth = 0 then [] else units.reverse ++ read) rest := by
  induction units generalizing read with
  | nil => simp
  | cons unit units ih =>
    obtain ⟨here, later⟩ := List.forall_mem_cons.mp plain
    have next : scan.next (mark' unit) = scan := by rw [here, settled]
    by_cases outside : scan.depth = 0
    · rw [List.cons_append, blocksFrom_outside outside (by rw [next]; exact outside), next, ih later]
      cases units <;> simp [outside]
    · rw [List.cons_append, blocksFrom_inside (by rw [next]; exact outside), next, ih later]
      simp [outside]

theorem blocksFrom_spell (spells : ∀ c ∈ text, Spells mark mark' spell c) (fresh : scan.depth = 0 → read = []) :
    blocksFrom mark' scan (read.reverse.flatMap spell).reverse (text.flatMap spell) =
      (blocksFrom mark scan read text).map fun block => block.flatMap spell := by
  induction text generalizing scan read with
  | nil => rfl
  | cons c text ih =>
    obtain ⟨spelled, others⟩ := List.forall_mem_cons.mp spells
    rw [List.flatMap_cons]
    by_cases other : mark c = .other
    · obtain ⟨nonempty, plain⟩ := spelled.plain other
      obtain ⟨unit, units, list⟩ := List.exists_cons_of_ne_nil nonempty
      rw [list] at plain
      obtain ⟨here, later⟩ := List.forall_mem_cons.mp plain
      have settled := next_other_other scan
      by_cases outside : scan.depth = 0
      · have still : (scan.next .other).depth = 0 := by rw [depth_next_other, outside]
        have further := @ih (scan.next .other) [] others fun _ => rfl
        rw [list, List.cons_append, blocksFrom_outside outside (by rw [here]; exact still), here,
          blocksFrom_plain later settled, blocksFrom_outside outside (by rw [other]; exact still), other]
        simp only [still, and_true]
        split
        · exact further
        · rename_i none
          rw [not_not.mp none]
          exact further
      · have still : (scan.next .other).depth ≠ 0 := by rw [depth_next_other]; exact outside
        have further := @ih (scan.next .other) (c :: read) others fun zero => absurd zero still
        rw [list, List.cons_append, blocksFrom_inside (by rw [here]; exact still), here,
          blocksFrom_plain later settled, blocksFrom_inside (by rw [other]; exact still), other, ← further]
        simp [still, list]
    · obtain ⟨unit, list, same⟩ := spelled.marked other
      rw [list, List.singleton_append]
      have step : (unit :: (read.reverse.flatMap spell).reverse) = ((c :: read).reverse.flatMap spell).reverse := by
        simp [list]
      by_cases after : (scan.next (mark c)).depth = 0
      · have further := @ih (scan.next (mark c)) [] others fun _ => rfl
        by_cases before : scan.depth = 0
        · rw [blocksFrom_outside before (by rw [same]; exact after), same, blocksFrom_outside before after]
          exact further
        · rw [blocksFrom_closes before (by rw [same]; exact after), same, blocksFrom_closes before after, step,
            List.map_cons, ← further]
          simp
      · have further := @ih (scan.next (mark c)) (c :: read) others fun zero => absurd zero after
        rw [blocksFrom_inside (by rw [same]; exact after), same, blocksFrom_inside after, step]
        exact further

theorem blocks_spell (spells : ∀ c ∈ text, Spells mark mark' spell c) :
    blocks mark' (text.flatMap spell) = (blocks mark text).map fun block => block.flatMap spell :=
  blocksFrom_spell spells fun _ => rfl

end Spelling

end Blocks
