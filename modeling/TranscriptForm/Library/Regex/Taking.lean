import TranscriptForm.Library.Regex.Edits
import TranscriptForm.Library.Regex.Spelling

namespace Regex

variable {α κ : Type*}

def matchEntire (reader : Reader α κ) (pattern : Pattern α κ) (text : List α) : Option (Match α) :=
  ((results reader pattern ⟨[], text, []⟩).find? fun stop => stop.rest.isEmpty).map
    fun stop => ⟨[], text, [], stop.groups⟩

def Cursor.capturing (cur : Cursor α) (captured : List (Nat × List α)) (read rest : List α) : Cursor α :=
  { cur.advance read rest with groups := captured ++ cur.groups }

/-- In front of this rest the pattern first reads this text, with these captures. -/
def Takes (reader : Reader α κ) (pattern : Pattern α κ) (rest read : List α) (captured : List (Nat × List α)) : Prop :=
  ∀ cur : Cursor α, cur.rest = read ++ rest →
    (results reader pattern cur).head? = some (cur.capturing captured read rest)

variable {reader : Reader α κ} {pattern first second body : Pattern α κ} {member : κ → Bool}
  {rest read more : List α} {captured later : List (Nat × List α)}

theorem Cursor.capturing_capturing (cur : Cursor α) :
    (cur.capturing captured read (more ++ rest)).capturing later more rest =
      cur.capturing (later ++ captured) (read ++ more) rest := by
  simp [capturing, advance]

theorem Cursor.capturing_nil {cur : Cursor α} (here : cur.rest = [] ++ rest) : cur.capturing [] [] rest = cur := by
  rw [List.nil_append] at here
  rw [← here]
  rfl

namespace Takes

theorem empty : Takes reader .empty rest [] [] := by
  intro cur here
  rw [Cursor.capturing_nil here]
  rfl

theorem set {char : κ} (next : reader.next (read ++ rest) = some (char, read, rest)) (accepted : member char = true) :
    Takes reader (.set member) rest read [] := by
  intro cur here
  simp only [results, here, next, accepted, if_true]
  rfl

theorem look {holds : List α → List α → Bool} (always : ∀ before, holds before rest = true) :
    Takes reader (.look holds) rest [] [] := by
  intro cur here
  rw [Cursor.capturing_nil here]
  rw [List.nil_append] at here
  simp [results, here, always]

theorem seq (takes : Takes reader first (more ++ rest) read captured) (follows : Takes reader second rest more later) :
    Takes reader (.seq first second) rest (read ++ more) (later ++ captured) := by
  intro cur here
  rw [List.append_assoc] at here
  have ahead := takes cur here
  have behind := follows (cur.capturing captured read (more ++ rest)) rfl
  rw [Cursor.capturing_capturing] at behind
  exact head?_results_seq_of_head ahead behind

theorem group (index : Nat) (takes : Takes reader body rest read captured) :
    Takes reader (.group index body) rest read ((index, read) :: captured) := by
  intro cur here
  have inner : cur.readSince (cur.capturing captured read rest) = read := by
    simp [Cursor.readSince, Cursor.capturing, here]
  rw [results, List.head?_map, takes cur here]
  simp only [Option.map_some, Cursor.capture, inner]
  rfl

theorem star (spells : Spells reader member rest read)
    (stuck : ∀ char taken left, reader.next rest = some (char, taken, left) → member char = false) :
    Takes reader (.loop true 0 none (.set member)) rest read [] := by
  have reaches (n : Nat) : ∀ cur : Cursor α, cur.rest = read ++ rest → cur.rest.length ≤ n →
      (upTo (results reader (.set member)) true n cur).head? = some (cur.capturing [] read rest) := by
    induction spells generalizing n with
    | nil =>
      intro cur here _
      have none : results reader (.set member) cur = [] := by
        rw [List.eq_nil_iff_forall_not_mem]
        intro stop reached
        obtain ⟨char, taken, next, accepted, _⟩ := mem_results_set.mp reached
        rw [here, List.nil_append] at next
        rw [stuck char taken stop.rest next] at accepted
        cases accepted
      rw [Cursor.capturing_nil here]
      cases n with
      | zero => rfl
      | succ n => simp [upTo, none]
    | @cons char unit text next accepted _ ih =>
      intro cur here enough
      rw [List.append_assoc] at here
      have step : results reader (.set member) cur = [cur.advance unit (text ++ rest)] := by
        simp [results, here, next, accepted]
      have nonempty := List.length_pos_iff.mpr (reader.next_split next).1
      have shorter : (text ++ rest).length < cur.rest.length := by
        simp only [here, List.length_append]
        omega
      cases n with
      | zero => omega
      | succ n =>
        have onward := ih n (cur.advance unit (text ++ rest)) rfl (by rw [Cursor.advance_rest]; omega)
        have joined : (cur.advance unit (text ++ rest)).capturing [] text rest = cur.capturing [] (unit ++ text) rest := by
          simp [Cursor.capturing, Cursor.advance]
        rw [joined] at onward
        simp only [upTo, step, Cursor.advance_rest, shorter, decide_true, List.filter_cons_of_pos, List.filter_nil,
          List.flatMap_cons, List.flatMap_nil, List.append_nil, if_true]
        rw [List.head?_append, onward]
        rfl
  intro cur here
  rw [results_star]
  exact reaches cur.rest.length cur here (le_refl _)

theorem last (takes : Takes reader body rest read captured) : Takes reader (.seq body .empty) rest read captured := by
  intro cur here
  exact head?_results_seq_of_head (takes cur here) rfl

theorem alt_first (takes : Takes reader first rest read captured) : Takes reader (.alt first second) rest read captured := by
  intro cur here
  rw [results, List.head?_append, takes cur here]
  rfl

theorem alt_second (fails : ∀ cur : Cursor α, cur.rest = read ++ rest → results reader first cur = [])
    (takes : Takes reader second rest read captured) : Takes reader (.alt first second) rest read captured := by
  intro cur here
  rw [results, fails cur here]
  exact takes cur here

theorem plus (takes : Takes reader (.seq body (.loop true 0 none body)) rest read captured) :
    Takes reader (.loop true 1 none body) rest read captured := by
  intro cur here
  rw [results_plus]
  exact takes cur here

end Takes

theorem results_times (n : Nat) (cur : Cursor α) :
    results reader (.loop true n (some n) body) cur = exactly (results reader body) n cur := by
  simp only [results, Nat.sub_self, upTo]
  exact List.flatMap_singleton' _

namespace Takes

theorem times_zero : Takes reader (.loop true 0 (some 0) body) rest [] [] := by
  intro cur here
  rw [Cursor.capturing_nil here, results_times]
  rfl

theorem times_succ {n : Nat} (takes : Takes reader body (more ++ rest) read captured)
    (follows : Takes reader (.loop true n (some n) body) rest more later) :
    Takes reader (.loop true (n + 1) (some (n + 1)) body) rest (read ++ more) (later ++ captured) := by
  intro cur here
  have whole := takes.seq follows cur here
  have rounds : results reader (.loop true n (some n) body) = exactly (results reader body) n :=
    funext fun cur => results_times n cur
  rw [results, rounds] at whole
  rw [results_times]
  exact whole

end Takes

section Rounds

theorem results_rounds (n : Nat) (cur : Cursor α) :
    results reader (.loop true 0 (some n) body) cur = upTo (results reader body) true n cur := by
  simp [results, exactly]

theorem results_between (least most : Nat) (cur : Cursor α) :
    results reader (.loop true (least + 1) (some (most + 1)) body) cur =
      results reader (.seq body (.loop true least (some most) body)) cur := by
  simp [results, exactly, List.flatMap_assoc]

theorem upTo_ne_nil {step : Cursor α → List (Cursor α)} {greedy : Bool} {n : Nat} {cur : Cursor α} :
    upTo step greedy n cur ≠ [] := by
  cases n with
  | zero => simp [upTo]
  | succ n =>
    refine List.ne_nil_of_mem (a := cur) ?_
    exact mem_upTo.mpr (Or.inl rfl)

theorem head?_rounds_more {n : Nat} {cur middle stop : Cursor α} (ahead : (results reader body cur).head? = some middle)
    (shorter : middle.rest.length < cur.rest.length)
    (follows : (results reader (.loop true 0 (some n) body) middle).head? = some stop) :
    (results reader (.loop true 0 (some (n + 1)) body) cur).head? = some stop := by
  obtain ⟨others, list⟩ := List.head?_eq_some_iff.mp ahead
  rw [results_rounds] at follows ⊢
  simp only [upTo, list, shorter, decide_true, List.filter_cons_of_pos, List.flatMap_cons, if_true, List.append_assoc]
  rw [List.head?_append, follows]
  rfl

theorem head?_rounds_goesOn {n : Nat} {cur stop : Cursor α} (width : 0 < leastWidth body)
    (goesOn : results reader body cur ≠ [])
    (head : (results reader (.loop true 0 (some (n + 1)) body) cur).head? = some stop) :
    ∃ next ∈ results reader body cur, stop ∈ results reader (.loop true 0 (some n) body) next := by
  have progress : (results reader body cur).filter (fun next => next.rest.length < cur.rest.length) = results reader body cur := by
    rw [List.filter_eq_self]
    intro next taken
    have bound := results_width body cur next taken
    exact decide_eq_true (by omega)
  simp only [results_rounds] at head ⊢
  simp only [upTo, progress, if_true] at head
  have more : (results reader body cur).flatMap (upTo (results reader body) true n) ≠ [] := by
    obtain ⟨next, others, list⟩ := List.exists_cons_of_ne_nil goesOn
    rw [list, List.flatMap_cons]
    exact fun none => upTo_ne_nil (List.append_eq_nil_iff.mp none).1
  rw [List.head?_append_of_ne_nil _ more] at head
  exact List.mem_flatMap.mp (List.mem_of_mem_head? head)

namespace Takes

theorem rounds_end {n : Nat} (ends : n = 0 ∨ ∀ cur : Cursor α, cur.rest = rest → results reader body cur = []) :
    Takes reader (.loop true 0 (some n) body) rest [] [] := by
  intro cur here
  rw [Cursor.capturing_nil here, results_rounds]
  rcases ends with rfl | stuck
  · rfl
  · cases n with
    | zero => rfl
    | succ n => simp [upTo, stuck cur here]

theorem rounds_more {n : Nat} (takes : Takes reader body (more ++ rest) read captured) (nonempty : read ≠ [])
    (follows : Takes reader (.loop true 0 (some n) body) rest more later) :
    Takes reader (.loop true 0 (some (n + 1)) body) rest (read ++ more) (later ++ captured) := by
  intro cur here
  rw [List.append_assoc] at here
  have positive := List.length_pos_iff.mpr nonempty
  have behind := follows (cur.capturing captured read (more ++ rest)) rfl
  rw [Cursor.capturing_capturing] at behind
  refine head?_rounds_more (takes cur here) ?_ behind
  rw [here]
  simp only [Cursor.capturing, Cursor.advance, List.length_append]
  omega

theorem optional (takes : Takes reader body rest read captured) (nonempty : read ≠ []) :
    Takes reader (.loop true 0 (some 1) body) rest read captured := by
  have once : Takes reader (.loop true 0 (some 1) body) rest (read ++ []) ([] ++ captured) :=
    rounds_more takes nonempty (rounds_end (Or.inl rfl))
  rw [List.append_nil] at once
  exact once

theorem between {least most : Nat} (takes : Takes reader (.seq body (.loop true least (some most) body)) rest read captured) :
    Takes reader (.loop true (least + 1) (some (most + 1)) body) rest read captured := by
  intro cur here
  rw [results_between]
  exact takes cur here

end Takes

end Rounds

section Whole

variable {text : List α} {stop : Cursor α} (head : (results reader pattern ⟨[], text, []⟩).head? = some stop)
  (whole : stop.rest = [])
include head whole

theorem matchEntire_of_head : matchEntire reader pattern text = some ⟨[], text, [], stop.groups⟩ := by
  obtain ⟨others, list⟩ := List.head?_eq_some_iff.mp head
  simp [matchEntire, list, whole]

theorem find_of_head : find reader pattern text = some ⟨[], text, [], stop.groups⟩ := by
  cases text with
  | nil =>
    have first : firstAt reader pattern [] [] = some stop := head
    simp [find, findFrom, first, whole]
  | cons unit text =>
    have first : firstAt reader pattern [] (unit :: text) = some stop := head
    simp [find, findFrom, first, whole, Cursor.readSince]

end Whole

end Regex
