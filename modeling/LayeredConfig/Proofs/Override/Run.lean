import LayeredConfig.Override
import LayeredConfig.Proofs.Merge.Lookup
import LayeredConfig.Proofs.Path.WriteRead

set_option autoImplicit false

/-!
# Reading after a run of overrides

A run that succeeds has written one override after the other. At a place that is given by names and
that no override passes on its way or goes beyond, the last override for the place counts.
-/
namespace LayeredConfig

namespace Node

theorem resolve_names (node : Node) (keys : List String) :
    node.resolve (keys.map .property) = keys.map .property := by
  induction keys generalizing node with
  | nil => rfl
  | cons key rest ih => simp [resolve, Step.resolve, ih]

end Node

theorem Step.resolve_eq_property {node : Node} {step : Step} {name : String}
    (h : step.resolve node = .property name) : step = .property name := by
  cases step with
  | property own => exact h
  | index place => simp [Step.resolve] at h

namespace Node

/-- Resolving steps makes no names of indices. -/
theorem prefix_names_of_resolve {node : Node} {steps : List Step} {keys : List String}
    (h : node.resolve steps <+: keys.map .property) : steps <+: keys.map .property := by
  induction steps generalizing node keys with
  | nil => exact List.nil_prefix
  | cons step rest ih =>
    cases keys with
    | nil => simp [resolve] at h
    | cons key keys =>
      obtain ⟨hstep, hrest⟩ := List.cons_prefix_cons.1 h
      exact List.cons_prefix_cons.2 ⟨Step.resolve_eq_property hstep, ih hrest⟩

theorem names_prefix_of_resolve {node : Node} {steps : List Step} {keys : List String}
    (h : keys.map .property <+: node.resolve steps) : keys.map .property <+: steps := by
  induction steps generalizing node keys with
  | nil => exact h
  | cons step rest ih =>
    cases keys with
    | nil => exact List.nil_prefix
    | cons key keys =>
      obtain ⟨hstep, hrest⟩ := List.cons_prefix_cons.1 h
      exact List.cons_prefix_cons.2 ⟨(Step.resolve_eq_property hstep.symm).symm, ih hrest⟩

end Node

instance : DecidableEq Overridden := fun left right =>
  decidable_of_iff (left.tree = right.tree ∧ left.error = right.error) (by
    cases left
    cases right
    simp)

namespace Override

/-- The steps of the path, if it can be read. -/
def steps? (entry : Override) : Option (List Step) :=
  (Path.parse entry.path).toOption.map Path.steps

/-- The value of the last override for the steps. -/
def valueAt? (steps : List Step) (entries : List Override) : Option (Option String) :=
  (entries.filter (·.steps? = some steps)).getLast?.map value

/-- The override is for the steps themselves or for a place neither above nor below. -/
def Apart (steps : List Step) (entry : Override) : Prop :=
  ∀ other ∈ entry.steps?, other ≠ steps → ¬ other <+: steps ∧ ¬ steps <+: other

instance (steps : List Step) (entry : Override) : Decidable (entry.Apart steps) :=
  inferInstanceAs (Decidable (∀ other ∈ entry.steps?,
    other ≠ steps → ¬ other <+: steps ∧ ¬ steps <+: other))

variable {entry : Override} {entries : List Override} {tree after : Node}

theorem write_eq_iff :
    entry.write tree = ⟨after, none⟩ ↔ ∃ steps, entry.steps? = some steps ∧ steps ≠ [] ∧
      tree.write? (Node.ofText? entry.value) steps = some after := by
  unfold write steps?
  cases Path.parse entry.path with
  | error fault => simp [Except.toOption]
  | ok path =>
    have hiff : path.write tree (Node.ofText? entry.value) = ⟨after, none⟩ ↔
        path.steps ≠ [] ∧ tree.write? (Node.ofText? entry.value) path.steps = some after :=
      Path.write_eq_iff
    rcases hwritten : path.write tree (Node.ofText? entry.value) with ⟨written, error⟩
    rw [hwritten] at hiff
    simpa [Except.toOption, hwritten] using hiff

theorem applyAll_cons_eq_iff :
    applyAll tree (entry :: entries) = ⟨after, none⟩ ↔
      ∃ middle, entry.write tree = ⟨middle, none⟩ ∧ applyAll middle entries = ⟨after, none⟩ := by
  rw [applyAll]
  generalize entry.write tree = written
  obtain ⟨middle, error⟩ := written
  cases error with
  | none => simp
  | some cause => simp

theorem applyAll_singleton_eq_iff :
    applyAll tree [entry] = ⟨after, none⟩ ↔ entry.write tree = ⟨after, none⟩ := by
  rw [applyAll_cons_eq_iff]
  constructor
  · rintro ⟨middle, hwrite, hrun⟩
    obtain rfl : middle = after := by simpa [applyAll] using hrun
    exact hwrite
  · intro hwrite
    exact ⟨after, hwrite, rfl⟩

/-- One override: its value where it is for the keys, and else what was there before. -/
theorem lookup?_of_write {keys : List String} (h : entry.write tree = ⟨after, none⟩)
    (hapart : entry.Apart (keys.map .property)) :
    after.lookup? keys =
      if entry.steps? = some (keys.map .property) then some (Node.ofText? entry.value)
      else tree.lookup? keys := by
  obtain ⟨steps, hsteps, -, hwrite⟩ := write_eq_iff.1 h
  by_cases hsame : steps = keys.map .property
  · subst hsame
    have hread := Node.follow?_resolve_of_write? hwrite
    rw [Node.resolve_names] at hread
    rw [if_pos hsteps]
    exact hread
  · obtain ⟨hbelow, habove⟩ := hapart steps hsteps hsame
    have hother : entry.steps? ≠ some (keys.map .property) := by simpa [hsteps] using hsame
    rw [if_neg hother]
    exact Node.follow?_of_write? hwrite (mt Node.names_prefix_of_resolve habove)
      (mt Node.prefix_names_of_resolve hbelow)

theorem valueAt?_cons (steps : List Step) (entry : Override) (entries : List Override) :
    valueAt? steps (entry :: entries) = (valueAt? steps entries).or
      (if entry.steps? = some steps then some entry.value else none) := by
  by_cases h : entry.steps? = some steps
  · simp [valueAt?, h, List.getLast?_cons]
  · simp [valueAt?, h]

theorem valueAt?_append (steps : List Step) (front back : List Override) :
    valueAt? steps (front ++ back) = (valueAt? steps back).or (valueAt? steps front) := by
  simp [valueAt?, List.getLast?_append, Option.map_or]

/-- A run: the value of the last override for the keys, and else what was there before. -/
theorem lookup?_of_applyAll {keys : List String} (h : applyAll tree entries = ⟨after, none⟩)
    (hapart : ∀ entry ∈ entries, entry.Apart (keys.map .property)) :
    after.lookup? keys =
      ((valueAt? (keys.map .property) entries).map Node.ofText?).or (tree.lookup? keys) := by
  induction entries generalizing tree with
  | nil =>
    obtain rfl : tree = after := by simpa [applyAll] using h
    rfl
  | cons entry rest ih =>
    obtain ⟨middle, hwrite, hrun⟩ := applyAll_cons_eq_iff.1 h
    obtain ⟨hentry, hrest⟩ := List.forall_mem_cons.1 hapart
    rw [ih hrun hrest, lookup?_of_write hwrite hentry, valueAt?_cons, Option.map_or,
      Option.or_assoc]
    split <;> rfl

end Override

end LayeredConfig
