import Mathlib.Data.List.Chain
import TranscriptForm.Library.Regex.Edits

-- The words of a text whose separators are read as `none`.
namespace Words

variable {α β κ : Type*}

def flush (word : List β) : List (List β) := if word.isEmpty then [] else [word]

def wordsFrom : List β → List (Option β) → List (List β)
  | word, [] => flush word
  | word, none :: rest => flush word ++ wordsFrom [] rest
  | word, some letter :: rest => wordsFrom (word ++ [letter]) rest

def words (text : List (Option β)) : List (List β) := wordsFrom [] text

theorem wordsFrom_append_none (word : List β) (before after : List (Option β)) :
    wordsFrom word (before ++ none :: after) = wordsFrom word before ++ words after := by
  induction before generalizing word with
  | nil => rfl
  | cons unit before ih =>
    cases unit with
    | none => simp only [List.cons_append, wordsFrom, ih, List.append_assoc]
    | some letter => exact ih _

theorem words_append_none (before after : List (Option β)) :
    words (before ++ none :: after) = words before ++ words after :=
  wordsFrom_append_none [] before after

theorem words_none_cons (rest : List (Option β)) : words (none :: rest) = words rest := rfl

theorem words_separator_append {separator : List (Option β)} (blank : ∀ unit ∈ separator, unit = none)
    (rest : List (Option β)) : words (separator ++ rest) = words rest := by
  induction separator with
  | nil => rfl
  | cons unit separator ih =>
    rw [blank unit List.mem_cons_self, List.cons_append, words_none_cons]
    exact ih fun other member => blank other (List.mem_cons_of_mem _ member)

theorem words_append_separator {separator : List (Option β)} (nonempty : separator ≠ [])
    (blank : ∀ unit ∈ separator, unit = none) (before after : List (Option β)) :
    words (before ++ (separator ++ after)) = words before ++ words after := by
  obtain ⟨unit, separator, rfl⟩ := List.exists_cons_of_ne_nil nonempty
  rw [blank unit List.mem_cons_self, List.cons_append, words_append_none]
  rw [words_separator_append fun other member => blank other (List.mem_cons_of_mem _ member)]

theorem words_trim {left right : List (Option β)} (leftBlank : ∀ unit ∈ left, unit = none)
    (rightBlank : ∀ unit ∈ right, unit = none) (text : List (Option β)) :
    words (left ++ text ++ right) = words text := by
  rw [List.append_assoc, words_separator_append leftBlank]
  cases right with
  | nil => rw [List.append_nil]
  | cons unit right =>
    have after := words_append_separator (List.cons_ne_nil unit right) rightBlank text []
    rw [List.append_nil] at after
    rw [after]
    exact List.append_nil _

theorem wordsFrom_filled {word : List β} (text : List (Option β)) : ∀ each ∈ wordsFrom word text, each ≠ [] := by
  have flushed : ∀ word : List β, ∀ each ∈ flush word, each ≠ [] := by
    intro word each member none
    rw [none] at member
    unfold flush at member
    split at member
    · cases member
    · rename_i some
      rw [← List.mem_singleton.mp member] at some
      exact some rfl
  induction text generalizing word with
  | nil => exact flushed word
  | cons unit text ih =>
    cases unit with
    | none =>
      intro each member
      rcases List.mem_append.mp member with own | later
      · exact flushed word each own
      · exact ih each later
    | some letter => exact ih

theorem intercalate_ne_nil {separator : List β} {parts : List (List β)} (some : parts ≠ [])
    (filled : ∀ part ∈ parts, part ≠ []) : separator.intercalate parts ≠ [] := by
  obtain ⟨part, parts, rfl⟩ := List.exists_cons_of_ne_nil some
  have own := filled part List.mem_cons_self
  cases parts with
  | nil => rwa [List.intercalate_singleton]
  | cons next parts =>
    rw [List.intercalate_cons_cons, List.append_assoc]
    exact fun none => own (List.append_eq_nil_iff.mp none).1

section Spaced

variable (separator : List β)

theorem flush_intercalate_front {parts longer : List (List β)} (word : List β) (filled : ∀ part ∈ parts, part ≠ [])
    (starts : separator.intercalate parts <+: separator.intercalate longer) :
    separator.intercalate (flush word ++ parts) <+: separator.intercalate (flush word ++ longer) := by
  unfold flush
  split
  · exact starts
  · cases parts with
    | nil =>
      rw [List.append_nil, List.intercalate_singleton]
      cases longer with
      | nil => rw [List.append_nil, List.intercalate_singleton]
      | cons part longer =>
        rw [List.singleton_append, List.intercalate_cons_cons, List.append_assoc]
        exact List.prefix_append _ _
    | cons part parts =>
      have some : longer ≠ [] := by
        intro none
        rw [none, List.intercalate_nil, List.prefix_nil] at starts
        exact intercalate_ne_nil (List.cons_ne_nil part parts) filled starts
      rw [List.singleton_append, List.singleton_append, List.intercalate_cons_of_ne_nil (List.cons_ne_nil part parts),
        List.intercalate_cons_of_ne_nil some]
      exact (List.prefix_append_right_inj _).mpr starts

theorem flush_intercalate_back (word : List β) (parts : List (List β)) :
    separator.intercalate parts <:+ separator.intercalate (flush word ++ parts) := by
  unfold flush
  split
  · exact List.suffix_refl _
  · cases parts with
    | nil => exact List.nil_suffix
    | cons part parts =>
      rw [List.singleton_append, List.intercalate_cons_cons]
      exact List.suffix_append _ _

theorem flush_starts (word : List β) (parts : List (List β)) : word <+: separator.intercalate (flush word ++ parts) := by
  cases word with
  | nil => exact List.nil_prefix
  | cons letter word =>
    have starts : separator.intercalate [] <+: separator.intercalate parts := List.nil_prefix
    have own := flush_intercalate_front separator (letter :: word) (List.forall_mem_nil _) starts
    rwa [List.append_nil, flush, if_neg (by simp), List.intercalate_singleton] at own

theorem wordsFrom_starts (word : List β) (text : List (Option β)) :
    word <+: separator.intercalate (wordsFrom word text) := by
  induction text generalizing word with
  | nil =>
    have own := flush_starts separator word []
    rwa [List.append_nil] at own
  | cons unit text ih =>
    cases unit with
    | none => exact flush_starts separator word _
    | some letter => exact (List.prefix_append word [letter]).trans (ih (word ++ [letter]))

theorem wordsFrom_front (word : List β) (text more : List (Option β)) :
    separator.intercalate (wordsFrom word text) <+: separator.intercalate (wordsFrom word (text ++ more)) := by
  induction text generalizing word with
  | nil =>
    have own : separator.intercalate (wordsFrom word []) = word := by
      unfold wordsFrom flush
      split
      · rename_i none
        rw [List.isEmpty_iff.mp none, List.intercalate_nil]
      · exact List.intercalate_singleton
    rw [own]
    exact wordsFrom_starts separator word more
  | cons unit text ih =>
    cases unit with
    | none => exact flush_intercalate_front separator word (wordsFrom_filled text) (ih [])
    | some letter => exact ih (word ++ [letter])

theorem wordsFrom_longer (front word : List β) (text : List (Option β)) :
    separator.intercalate (wordsFrom word text) <:+ separator.intercalate (wordsFrom (front ++ word) text) := by
  induction text generalizing word with
  | nil =>
    cases word with
    | nil => exact List.nil_suffix
    | cons letter word => simp [wordsFrom, flush]
  | cons unit text ih =>
    cases unit with
    | none =>
      cases word with
      | nil => exact flush_intercalate_back separator _ _
      | cons letter word =>
        have shape : ∀ parts, separator.intercalate (flush (front ++ letter :: word) ++ parts) =
            front ++ separator.intercalate (flush (letter :: word) ++ parts) := by
          intro parts
          cases parts <;> simp [flush]
        rw [wordsFrom, wordsFrom, shape]
        exact List.suffix_append _ _
    | some letter =>
      have later := ih (word ++ [letter])
      rwa [← List.append_assoc] at later

theorem wordsFrom_back (word : List β) (more text : List (Option β)) :
    separator.intercalate (words text) <:+ separator.intercalate (wordsFrom word (more ++ text)) := by
  induction more generalizing word with
  | nil =>
    have later := wordsFrom_longer separator word [] text
    rwa [List.append_nil] at later
  | cons unit more ih =>
    cases unit with
    | none => exact (ih []).trans (flush_intercalate_back separator _ _)
    | some letter => exact ih (word ++ [letter])

theorem intercalate_wordsFrom {letter : β → Option β} {mark : β} (marks : letter mark = none)
    (word : List β) {text : List β} (units : ∀ unit ∈ text, letter unit = some unit ∨ unit = mark)
    (apart : text.IsChain fun left right => ¬(left = mark ∧ right = mark))
    (first : word = [] → text.head? ≠ some mark) (last : text.getLast? ≠ some mark) :
    List.intercalate [mark] (wordsFrom word (text.map letter)) = word ++ text := by
  induction text generalizing word with
  | nil =>
    cases word with
    | nil => rfl
    | cons unit word => simp [wordsFrom, flush]
  | cons unit text ih =>
    have tail : ∀ other ∈ text, letter other = some other ∨ other = mark :=
      fun other member => units other (List.mem_cons_of_mem _ member)
    have lastTail : text.getLast? ≠ some mark := by
      intro same
      cases text with
      | nil => cases same
      | cons next text => exact last (by rw [List.getLast?_cons_cons]; exact same)
    rcases units unit List.mem_cons_self with read | same
    · rw [List.map_cons, read, wordsFrom, ih (word ++ [unit]) tail apart.tail (by simp) lastTail, List.append_assoc]
      rfl
    · have filled : word ≠ [] := fun none => first none (by rw [same]; rfl)
      cases text with
      | nil => exact absurd (by rw [same]; rfl) last
      | cons next text =>
        have other : next ≠ mark := fun again => (List.isChain_cons_cons.mp apart).1 ⟨same, again⟩
        have later := ih [] tail apart.tail (fun _ head => other (Option.some.inj head)) lastTail
        have some : wordsFrom [] ((next :: text).map letter) ≠ [] := by
          intro none
          rw [none] at later
          cases later
        have own : flush word = [word] := if_neg (by simpa using filled)
        rw [List.map_cons, same, marks, wordsFrom, own, List.singleton_append,
          List.intercalate_cons_of_ne_nil some, later, List.nil_append, List.append_assoc]
        rfl

end Spaced

theorem words_replace {reader : Regex.Reader α κ} {good : α → Prop} {pattern : Regex.Pattern α κ}
    {replacement : List α} (within : Regex.Within reader good pattern) (width : 0 < Regex.leastWidth pattern)
    (letter : α → Option β) (blind : ∀ unit, good unit → letter unit = none) (nonempty : replacement ≠ [])
    (quiet : replacement.filterMap letter = []) (text : List α) :
    words ((Regex.replace reader pattern replacement text).map letter) = words (text.map letter) := by
  have apart : ∀ before separator after : List α, separator ≠ [] → (∀ unit ∈ separator, letter unit = none) →
      words ((before ++ (separator ++ after)).map letter) = words (before.map letter) ++ words (after.map letter) := by
    intro before separator after some blank
    rw [List.map_append, List.map_append]
    exact words_append_separator (by simpa using some) (by simpa using blank) _ _
  refine Regex.replace_observed within width (fun text => words (text.map letter)) ?_ ?_ text
  · intro before value after some reads
    exact apart before value after some fun unit member => blind unit (reads unit member)
  · intro before after
    exact apart before replacement after nonempty (List.filterMap_eq_nil_iff.mp quiet)

end Words
