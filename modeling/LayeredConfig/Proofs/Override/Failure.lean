import LayeredConfig.Proofs.Override.Replay
import LayeredConfig.Proofs.Path.WriteFailure

set_option autoImplicit false

/-!
# Runs of overrides that fail

A run goes on in the tree that its first part leaves, unless the first part fails. So it fails at
the first override whose own write fails, and leaves the tree as that write leaves it.
-/
namespace LayeredConfig

namespace Path

variable {path : Path} {root value tree : Node} {error : WriteError} {steps : List Step}

/-- A write that fails takes no text away. -/
theorem scalar_of_write_error {text : String} (ho : root.Ordered)
    (h : path.write root value = ⟨tree, some error⟩)
    (hread : root.follow? steps = some (.scalar text)) :
    tree.follow? steps = some (.scalar text) := by
  by_cases hne : path.steps = []
  · rw [write_of_steps_nil hne] at h
    obtain rfl : root = tree := congrArg Written.tree h
    exact hread
  · rw [write_of_steps_ne_nil hne] at h
    by_cases hprepared : ∃ place index, error = .outOfBounds place index 0
    · obtain ⟨place, index, rfl⟩ := hprepared
      obtain ⟨_, _, _, -, -, -, -, hframe⟩ := prepared_of_writeBelow_outOfBounds h
      exact hframe.scalar hread
    · push Not at hprepared
      rw [eq_of_writeBelow_error ho h hprepared]
      exact hread

end Path

namespace Override

variable {entry : Override} {entries front back : List Override} {tree middle after : Node}
variable {cause own : ConfigError}

/-- What is wrong with an override is wrong with its path, or its write fails. -/
theorem write_error_iff : entry.write tree = ⟨after, some own⟩ ↔
    (∃ fault, Path.parse entry.path = .error fault ∧ after = tree ∧
      own = .invalidPath entry.path fault) ∨
    ∃ path error, Path.parse entry.path = .ok path ∧
      path.write tree (Node.ofText? entry.value) = ⟨after, some error⟩ ∧
        own = .invalidWrite error := by
  unfold write
  cases Path.parse entry.path with
  | error fault => simp [eq_comm]
  | ok path =>
    rcases hwritten : path.write tree (Node.ofText? entry.value) with ⟨written, error⟩
    cases error with
    | none => simp [hwritten]
    | some error => simp [hwritten, and_assoc, eq_comm]

theorem tree_of_write_steps_nil {path : Path} (hparse : Path.parse entry.path = .ok path)
    (h : path.steps = []) :
    entry.write tree = ⟨tree, some (.invalidWrite .emptyPath)⟩ := by
  simp only [write, hparse, Path.write_of_steps_nil h, Option.map_some]

/-- The second part is applied only behind a first part that succeeds. -/
theorem applyAll_append (tree : Node) (front back : List Override) :
    applyAll tree (front ++ back) =
      match (applyAll tree front).error with
      | none => applyAll (applyAll tree front).tree back
      | some _ => applyAll tree front := by
  induction front generalizing tree with
  | nil => rfl
  | cons entry rest ih =>
    rw [List.cons_append, applyAll, applyAll]
    cases (entry.write tree).error with
    | none => exact ih _
    | some cause => rfl

theorem applyAll_of_write_error (hfront : applyAll tree front = ⟨middle, none⟩)
    (hentry : entry.write middle = ⟨after, some own⟩) (back : List Override) :
    applyAll tree (front ++ entry :: back) = ⟨after, some (.invalidOverride entry.path own)⟩ := by
  rw [applyAll_append, hfront]
  simp only [applyAll, hentry]

/-- A run that fails does so at one of its overrides, behind others that succeed. -/
theorem exists_entry_of_applyAll_error (h : applyAll tree entries = ⟨after, some cause⟩) :
    ∃ front entry back middle own, entries = front ++ entry :: back ∧
      applyAll tree front = ⟨middle, none⟩ ∧ entry.write middle = ⟨after, some own⟩ ∧
        cause = .invalidOverride entry.path own := by
  induction entries generalizing tree with
  | nil => simp [applyAll] at h
  | cons entry rest ih =>
    rw [applyAll] at h
    rcases hentry : entry.write tree with ⟨written, error⟩
    rw [hentry] at h
    cases error with
    | none =>
      obtain ⟨front, failing, back, middle, own, rfl, hfront, hfailing, hcause⟩ := ih h
      refine ⟨entry :: front, failing, back, middle, own, rfl, ?_, hfailing, hcause⟩
      exact applyAll_cons_eq_iff.2 ⟨written, hentry, hfront⟩
    | some own =>
      obtain ⟨rfl, rfl⟩ : written = after ∧ .invalidOverride entry.path own = cause := by
        simpa using h
      exact ⟨[], entry, rest, tree, own, rfl, rfl, hentry, rfl⟩

end Override

end LayeredConfig
