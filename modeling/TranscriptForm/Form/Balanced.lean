import TranscriptForm.Library.Blocks
import TranscriptForm.Form.LlmAnswers

namespace Form.OnDeviceLlm

open Kotlin

def braceMark : KChar → Blocks.Mark := Blocks.markBy (ch '"') (ch '\\') (ch '{') (ch '}')

section Marks

variable {c : KChar}

theorem braceMark_other (quote : c ≠ ch '"') (escape : c ≠ ch '\\') (opens : c ≠ ch '{') (closes : c ≠ ch '}') :
    braceMark c = .other := by
  simp [braceMark, Blocks.markBy, quote, escape, opens, closes]

theorem braceMark_plain (quote : c ≠ ch '"') (opens : c ≠ ch '{') (closes : c ≠ ch '}') :
    braceMark c = .other ∨ braceMark c = .escape := by
  by_cases escape : c = ch '\\'
  · right
    rw [escape]
    decide
  · left
    exact braceMark_other quote escape opens closes

end Marks

namespace BraceScan

def scan (state : BraceScan) : Blocks.Scan := ⟨state.depth, state.inString, state.escaped⟩

def Fresh (state : BraceScan) : Prop := state.depth = 0 → state.current = []

variable {state : BraceScan} {c : KChar}

theorem scan_step (state : BraceScan) (c : KChar) : (state.step c).scan = state.scan.next (braceMark c) := by
  obtain ⟨depth, inString, escaped, current, result⟩ := state
  simp only [step, scan, Blocks.Scan.next, braceMark, Blocks.markBy]
  split_ifs <;> simp_all +decide

theorem step_outside (fresh : state.Fresh) (before : state.depth = 0) (after : (state.step c).depth = 0) :
    (state.step c).current = [] ∧ (state.step c).result = state.result := by
  obtain ⟨depth, inString, escaped, current, result⟩ := state
  have nothing : current = [] := fresh before
  subst nothing
  simp only [step] at before after ⊢
  split_ifs at after ⊢ <;> simp_all

theorem step_closes (before : state.depth ≠ 0) (after : (state.step c).depth = 0) :
    (state.step c).current = [] ∧ (state.step c).result = state.result ++ [(c :: state.current).reverse] := by
  obtain ⟨depth, inString, escaped, current, result⟩ := state
  simp only [step] at before after ⊢
  split_ifs at after ⊢ <;> simp_all
  omega

theorem step_inside (fresh : state.Fresh) (after : (state.step c).depth ≠ 0) :
    (state.step c).current = c :: state.current ∧ (state.step c).result = state.result := by
  obtain ⟨depth, inString, escaped, current, result⟩ := state
  simp only [Fresh, step] at fresh after ⊢
  split_ifs at after ⊢ <;> simp_all

theorem result_foldl (fresh : state.Fresh) (text : KString) : (text.foldl step state).result =
    state.result ++ Blocks.blocksFrom braceMark state.scan state.current text := by
  induction text generalizing state with
  | nil => exact (List.append_nil _).symm
  | cons c text ih =>
    have next := scan_step state c
    have depth : (state.scan.next (braceMark c)).depth = (state.step c).depth := by rw [← next]; rfl
    rw [List.foldl_cons]
    by_cases after : (state.step c).depth = 0
    · by_cases before : state.depth = 0
      · obtain ⟨current, result⟩ := step_outside fresh before after
        rw [ih fun _ => current, result, current, next,
          Blocks.blocksFrom_outside before (by rw [depth]; exact after)]
      · obtain ⟨current, result⟩ := step_closes before after
        rw [ih fun _ => current, result, current, next,
          Blocks.blocksFrom_closes before (by rw [depth]; exact after), List.append_assoc, List.singleton_append]
    · obtain ⟨current, result⟩ := step_inside fresh after
      rw [ih fun zero => absurd zero after, result, current, next,
        Blocks.blocksFrom_inside (by rw [depth]; exact after)]

end BraceScan

theorem extractBalancedJsonObjects_eq_blocks (text : KString) :
    extractBalancedJsonObjects text = Blocks.blocks braceMark text :=
  BraceScan.result_foldl (fun _ => rfl) text

end Form.OnDeviceLlm
