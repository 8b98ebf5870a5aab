import Mathlib.Data.List.TakeWhile
import LayeredConfig.Text.Blank

set_option autoImplicit false

/-!
# What trimming leaves

A trimmed text is the text between blanks, and neither its first nor its last character is blank. Each
text has exactly one such part, which trimming finds.
-/
namespace LayeredConfig.Text

/-- Behind `core` the text has blanks only, and `core` does not end with one. -/
def IsTrimmedEnd (cs core : List Char) : Prop :=
  ∃ back, cs = core ++ back ∧ (∀ c ∈ back, isBlank c) ∧ ∀ c ∈ core.getLast?, ¬ isBlank c

/-- Around `core` the text has blanks only, and `core` neither starts nor ends with one. -/
def IsTrimmed (cs core : List Char) : Prop :=
  ∃ front back, cs = front ++ core ++ back ∧ (∀ c ∈ front, isBlank c) ∧ (∀ c ∈ back, isBlank c) ∧
    (∀ c ∈ core.head?, ¬ isBlank c) ∧ ∀ c ∈ core.getLast?, ¬ isBlank c

variable {cs core : List Char} {c : Char}

theorem dropWhile_eq_self_of_head? {p : Char → Bool} (h : ∀ c ∈ cs.head?, ¬ p c) :
    cs.dropWhile p = cs := by
  cases cs with
  | nil => rfl
  | cons c rest => exact List.dropWhile_cons_of_neg (h c rfl)

theorem trimStart_eq_iff : trimStart cs = core ↔
    ∃ front, cs = front ++ core ∧ (∀ c ∈ front, isBlank c) ∧ ∀ c ∈ core.head?, ¬ isBlank c := by
  constructor
  · rintro rfl
    refine ⟨cs.takeWhile isBlank, List.takeWhile_append_dropWhile.symm, ?_, fun c hc => ?_⟩
    · exact List.all_eq_true.1 List.all_takeWhile
    · have hnot := List.head?_dropWhile_not isBlank cs
      rw [trimStart] at hc
      rw [Option.mem_def.1 hc] at hnot
      simpa using hnot
  · rintro ⟨front, rfl, hfront, hcore⟩
    rw [trimStart, List.dropWhile_append_of_pos hfront, dropWhile_eq_self_of_head? hcore]

theorem trimEnd_eq_iff : trimEnd cs = core ↔ IsTrimmedEnd cs core := by
  have hmirror : trimEnd cs = core ↔ trimStart cs.reverse = core.reverse := List.reverse_eq_iff
  rw [hmirror, trimStart_eq_iff]
  constructor
  · rintro ⟨front, hcs, hfront, hcore⟩
    refine ⟨front.reverse, ?_, by simpa using hfront, by simpa using hcore⟩
    simpa using congrArg List.reverse hcs
  · rintro ⟨back, rfl, hback, hcore⟩
    exact ⟨back.reverse, by simp, by simpa using hback, by simpa using hcore⟩

theorem trim_eq_iff : trim cs = core ↔ IsTrimmed cs core := by
  constructor
  · intro h
    obtain ⟨front, hcs, hfront, hstart⟩ := trimStart_eq_iff.1 (rfl : trimStart cs = trimStart cs)
    obtain ⟨back, hback, hblank, hend⟩ := trimEnd_eq_iff.1 h
    refine ⟨front, back, ?_, hfront, hblank, fun c hc => ?_, hend⟩
    · rw [List.append_assoc, ← hback, ← hcs]
    · exact hstart c (by rw [hback, List.head?_append, Option.mem_def.1 hc]; rfl)
  · rintro ⟨front, back, rfl, hfront, hback, hstart, hend⟩
    -- Where nothing is left, the blanks behind go with those in front.
    have hdropped : trimStart (front ++ core ++ back) = trimStart (core ++ back) := by
      rw [trimStart, List.append_assoc, List.dropWhile_append_of_pos hfront, trimStart]
    rw [trim, hdropped, trimEnd_eq_iff]
    cases core with
    | nil =>
      have hnone : trimStart ([] ++ back) = [] :=
        trimStart_eq_iff.2 ⟨back, by simp, hback, by simp⟩
      rw [hnone]
      exact ⟨[], rfl, by simp, by simp⟩
    | cons c rest =>
      have hsame : trimStart (c :: rest ++ back) = c :: rest ++ back :=
        dropWhile_eq_self_of_head? (by simpa using hstart c rfl)
      rw [hsame]
      exact ⟨back, rfl, hback, hend⟩

theorem trim_of_forall (h : ∀ c ∈ cs, ¬ isBlank c) : trim cs = cs :=
  trim_eq_iff.2 ⟨[], [], by simp, by simp, by simp, fun c hc => h c (List.mem_of_mem_head? hc),
    fun c hc => h c (List.mem_of_getLast? hc)⟩

theorem trim_singleton : trim [c] = if isBlank c then [] else [c] := by
  split
  case isTrue h => exact trim_eq_iff.2 ⟨[c], [], by simp, by simpa using h, by simp⟩
  case isFalse h => exact trim_eq_iff.2 ⟨[], [], by simp, by simp, by simp, by simpa using h⟩

end LayeredConfig.Text
