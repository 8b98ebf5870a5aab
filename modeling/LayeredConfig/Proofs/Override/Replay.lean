import LayeredConfig.Proofs.Override.Run
import LayeredConfig.Proofs.Path.Agreement

set_option autoImplicit false

/-!
# Applying overrides again

A run of overrides that append nothing leaves every place beside its paths as it was, and what it
leaves at and around its paths depends on these places only. So a second run of the same overrides,
if it succeeds, finds the tree as it has to leave it.
-/
namespace LayeredConfig

namespace Node

theorem ordered_ofText? (value : Option String) : (ofText? value).Ordered := by
  cases value <;> simp [ofText?, Ordered]

end Node

namespace Override

/-- No path has a place past an end. -/
def AllFixed (entries : List Override) : Prop :=
  ∀ entry ∈ entries, ∀ steps ∈ entry.steps?, Step.Fixed steps

instance (entries : List Override) : Decidable (AllFixed entries) :=
  inferInstanceAs (Decidable (∀ entry ∈ entries, ∀ steps ∈ entry.steps?, Step.Fixed steps))

/-- The paths that can be read. -/
def paths (entries : List Override) : List (List Step) := entries.filterMap steps?

variable {entry : Override} {entries rest : List Override} {path : List Step}
variable {tree after left right a b : Node}

theorem AllFixed.head (h : AllFixed (entry :: rest)) (hpath : entry.steps? = some path) :
    Step.Fixed path :=
  h entry List.mem_cons_self path hpath

theorem AllFixed.tail (h : AllFixed (entry :: rest)) : AllFixed rest :=
  fun other hother => h other (List.mem_cons_of_mem _ hother)

theorem paths_cons (hpath : entry.steps? = some path) (rest : List Override) :
    paths (entry :: rest) = path :: paths rest :=
  List.filterMap_cons_some hpath

theorem ordered_of_write (ho : tree.Ordered) (h : entry.write tree = ⟨after, none⟩) :
    after.Ordered := by
  obtain ⟨path, -, -, hwrite⟩ := write_eq_iff.1 h
  exact ho.write? (Node.ordered_ofText? entry.value) hwrite

theorem ordered_of_applyAll (ho : tree.Ordered) (h : applyAll tree entries = ⟨after, none⟩) :
    after.Ordered := by
  induction entries generalizing tree with
  | nil =>
    have htree : tree = after := by simpa [applyAll] using h
    exact htree ▸ ho
  | cons entry rest ih =>
    obtain ⟨middle, hwrite, hrun⟩ := applyAll_cons_eq_iff.1 h
    exact ih (ordered_of_write ho hwrite) hrun

/-- A run changes nothing beside its paths. -/
theorem agreeBeside_of_applyAll (hfixed : AllFixed entries)
    (h : applyAll tree entries = ⟨after, none⟩) : tree.AgreeBeside (paths entries) after := by
  induction entries generalizing tree with
  | nil =>
    have htree : tree = after := by simpa [applyAll] using h
    exact htree ▸ Node.AgreeBeside.refl _ tree
  | cons entry rest ih =>
    obtain ⟨middle, hwrite, hrun⟩ := applyAll_cons_eq_iff.1 h
    obtain ⟨path, hpath, -, hwritten⟩ := write_eq_iff.1 hwrite
    rw [paths_cons hpath]
    intro steps hbeside
    have hstep : tree.AgreeBeside (path :: paths rest) middle :=
      Node.agreeBeside_of_write? (hfixed.head hpath) hwritten List.mem_cons_self
    rw [hstep steps hbeside]
    exact ih hfixed.tail hrun steps (List.forall_mem_cons.1 hbeside).2

/-- Each override takes its own path out of the paths beside which the two trees agree. -/
theorem eq_of_applyAll (hfixed : AllFixed entries) (hl : left.Ordered) (hr : right.Ordered)
    (hagree : left.AgreeBeside (paths entries) right)
    (hleft : applyAll left entries = ⟨a, none⟩) (hright : applyAll right entries = ⟨b, none⟩) :
    a = b := by
  induction entries generalizing left right with
  | nil =>
    obtain rfl : left = a := by simpa [applyAll] using hleft
    obtain rfl : right = b := by simpa [applyAll] using hright
    exact hagree.eq
  | cons entry rest ih =>
    obtain ⟨middle, hwrite, hrun⟩ := applyAll_cons_eq_iff.1 hleft
    obtain ⟨middle', hwrite', hrun'⟩ := applyAll_cons_eq_iff.1 hright
    obtain ⟨path, hpath, -, hwritten⟩ := write_eq_iff.1 hwrite
    obtain ⟨path', hpath', -, hwritten'⟩ := write_eq_iff.1 hwrite'
    obtain rfl : path = path' := Option.some.inj (hpath.symm.trans hpath')
    rw [paths_cons hpath] at hagree
    have hmiddle : middle.AgreeBeside (paths rest) middle' :=
      hagree.of_write? (hfixed.head hpath) hl hr (Node.ordered_ofText? _) hwritten hwritten'
    exact ih hfixed.tail (ordered_of_write hl hwrite) (ordered_of_write hr hwrite') hmiddle
      hrun hrun'

/-- A run that succeeds again on the tree it has left leaves this tree as it is. -/
theorem applyAll_again (ho : tree.Ordered) (hfixed : AllFixed entries)
    (h : applyAll tree entries = ⟨after, none⟩) (hagain : (applyAll after entries).error = none) :
    applyAll after entries = ⟨after, none⟩ := by
  rcases hrun : applyAll after entries with ⟨again, error⟩
  obtain rfl : error = none := by simpa [hrun] using hagain
  have hagree : tree.AgreeBeside (paths entries) after := agreeBeside_of_applyAll hfixed h
  rw [eq_of_applyAll hfixed ho (ordered_of_applyAll ho h) hagree h hrun]

/-- The first run overwrites an array with null and fills it anew; the second appends to the new one
before it does the same. -/
theorem applyAll_again_refilled :
    ∃ entries : List Override,
      entries = [⟨"a[1]", some "1"⟩, ⟨"a", none⟩, ⟨"a[0].b", some "2"⟩, ⟨"a[0].c", none⟩] ∧
      Node.Ordered (.object [("a", .array [.scalar "0"]), ("d", .null)]) ∧ AllFixed entries ∧
      applyAll (.object [("a", .array [.scalar "0"]), ("d", .null)]) entries =
        ⟨.object [("a", .array [.object [("b", .scalar "2"), ("c", .null)]]), ("d", .null)], none⟩ ∧
      applyAll (.object [("a", .array [.object [("b", .scalar "2"), ("c", .null)]]), ("d", .null)])
          entries =
        ⟨.object [("a", .array [.object [("b", .scalar "2"), ("c", .null)]]), ("d", .null)],
          none⟩ := by
  refine ⟨_, rfl, ?ordered, ?fixed, ?first, applyAll_again ?ordered ?fixed ?first ?again⟩
  case ordered => decide +kernel
  case fixed => decide +kernel
  case first => decide +kernel
  case again => decide +kernel

end Override

end LayeredConfig
