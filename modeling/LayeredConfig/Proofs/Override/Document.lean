import LayeredConfig.Proofs.Override.Run
import LayeredConfig.Proofs.Path.Outcome

set_option autoImplicit false

/-!
# Overrides as documents

An override at a place that is given by names is a document of its own: nested objects of one key
each, with the value inside. Where the write passes it leaves the tree that merging this document
gives, so a run of such overrides is a merge. A merge replaces a text or an array on the way; a
write refuses to.
-/
namespace LayeredConfig

def Step.name? : Step → Option String
  | .property name => some name
  | .index _ => none

namespace Node

/-- Nested objects of one key each, with `value` inside. -/
def nest (value : Node) : List String → Node
  | [] => value
  | key :: rest => .object [(key, value.nest rest)]

/-- Above the place of the keys stand only objects and nulls, as far as the tree reaches. -/
def Passable (node : Node) (keys : List String) : Prop :=
  ∀ before after reached, keys = before ++ after → after ≠ [] →
    node.lookup? before = some reached → reached.kind ≠ .scalar ∧ reached.kind ≠ .array

variable {node value tree : Node} {key : String} {keys rest : List String}

theorem admits_property_iff :
    node.Admits (.property key) ↔ node.kind ≠ .scalar ∧ node.kind ≠ .array := by
  cases node <;> simp [Admits, kind]

/-- A missing node is no obstacle, since a write counts it as null. -/
theorem passes_names_iff : node.Passes (keys.map .property) ↔ node.Passable keys := by
  constructor
  · rintro h before after reached rfl hafter hlookup
    obtain ⟨key, more, rfl⟩ := List.exists_cons_of_ne_nil hafter
    have hmet : node.met (before.map .property) = reached := by
      rw [met_eq]
      exact congrArg (·.getD .null) hlookup
    rw [← hmet]
    exact admits_property_iff.1 (h (before.map .property) (.property key) (more.map .property)
      (by simp))
  · intro h front step back hsplit
    obtain ⟨before, after, rfl, rfl, hafter⟩ := List.map_eq_append_iff.1 hsplit
    obtain ⟨key, more, rfl, rfl, rfl⟩ := List.map_eq_cons_iff.1 hafter
    rw [met_eq, admits_property_iff]
    cases hlookup : node.follow? (before.map .property) with
    | none => simp [kind]
    | some reached => exact h before (key :: more) reached rfl (List.cons_ne_nil _ _) hlookup

theorem isSome_write?_names :
    (node.write? value (keys.map .property)).isSome ↔ node.Passable keys :=
  isSome_write?_iff.trans passes_names_iff

/-- A document of one key over a node that is open for the key. -/
theorem combine_single (h : node.opens (.property key)) (value : Node) :
    combine node (.object [(key, value)]) =
      node.put (.property key) (combine (node.slot (.property key)) value) := by
  obtain ⟨fields, hfields⟩ := exists_fields_of_opens h
  have hnull : combine .null value = value := combine_of_left (by simp [kind]) value
  rw [slot_property hfields]
  cases node with
  | null =>
    obtain rfl : [] = fields := Option.some.inj hfields
    simp [combine, put, openFields?, Keyed.find?, Keyed.insert, hnull]
  | object own =>
    obtain rfl : own = fields := Option.some.inj hfields
    cases hfind : Keyed.find? key own <;>
      simp [combine, combineFields, put, openFields?, hfind, hnull]
  | scalar text => simp [openFields?] at hfields
  | array items => simp [openFields?] at hfields

theorem eq_combine_of_write? (hvalue : value.kind ≠ .object)
    (h : node.write? value (keys.map .property) = some tree) :
    tree = combine node (value.nest keys) := by
  induction keys generalizing node tree with
  | nil =>
    have htree : value = tree := Option.some.inj h
    rw [nest, combine_of_right node hvalue, htree]
  | cons key rest ih =>
    obtain ⟨hopens, child, hchild, rfl⟩ := write?_cons_eq_some.1 h
    rw [nest, combine_single hopens, ih hchild]

theorem kind_ofText?_ne_object (value : Option String) : (ofText? value).kind ≠ .object := by
  cases value <;> simp [ofText?, kind]

end Node

namespace Override

/-- The names on the path. -/
def keys (entry : Override) : List String := (entry.steps?.getD []).filterMap Step.name?

/-- The path can be read and consists of names only, at least one. -/
structure IsKeyed (entry : Override) : Prop where
  keys_ne_nil : entry.keys ≠ []
  steps?_eq : entry.steps? = some (entry.keys.map .property)

instance (entry : Override) : Decidable entry.IsKeyed :=
  decidable_of_iff (entry.keys ≠ [] ∧ entry.steps? = some (entry.keys.map .property))
    ⟨fun h => ⟨h.1, h.2⟩, fun h => ⟨h.1, h.2⟩⟩

/-- The override as a document. -/
def document (entry : Override) : Node := (Node.ofText? entry.value).nest entry.keys

variable {entry : Override} {entries : List Override} {tree after : Node}

theorem IsKeyed.write_eq_iff (h : entry.IsKeyed) : entry.write tree = ⟨after, none⟩ ↔
    tree.write? (Node.ofText? entry.value) (entry.keys.map .property) = some after := by
  rw [Override.write_eq_iff]
  constructor
  · rintro ⟨steps, hsteps, -, hwrite⟩
    obtain rfl := Option.some.inj (h.steps?_eq.symm.trans hsteps)
    exact hwrite
  · intro hwrite
    exact ⟨_, h.steps?_eq, by simpa using h.keys_ne_nil, hwrite⟩

theorem IsKeyed.exists_applyAll_iff (h : entry.IsKeyed) :
    (∃ after, applyAll tree [entry] = ⟨after, none⟩) ↔ tree.Passable entry.keys := by
  simp only [applyAll_singleton_eq_iff, h.write_eq_iff]
  rw [← Option.isSome_iff_exists]
  exact Node.isSome_write?_names

/-- A run: each override has put its document over the tree before it. -/
theorem eq_foldl_of_applyAll (h : applyAll tree entries = ⟨after, none⟩)
    (hkeyed : ∀ entry ∈ entries, entry.IsKeyed) :
    after = (entries.map document).foldl Node.combine tree := by
  induction entries generalizing tree with
  | nil =>
    have htree : tree = after := by simpa [applyAll] using h
    exact htree.symm
  | cons entry rest ih =>
    obtain ⟨middle, hwrite, hrun⟩ := applyAll_cons_eq_iff.1 h
    obtain ⟨hentry, hrest⟩ := List.forall_mem_cons.1 hkeyed
    have hmiddle : middle = Node.combine tree entry.document :=
      Node.eq_combine_of_write? (Node.kind_ofText?_ne_object _) (hentry.write_eq_iff.1 hwrite)
    rw [List.map_cons, List.foldl_cons, ← hmiddle]
    exact ih hrun hrest

/-- An override at a place that is given by names succeeds by itself exactly where no text and no
array stands above the place, and a run of such overrides that succeeds leaves the tree merged with
the documents of the overrides. -/
theorem applyAll_eq_merge_documents (hkeyed : ∀ entry ∈ entries, entry.IsKeyed) (tree : Node) :
    (∀ entry ∈ entries,
      (∃ after, applyAll tree [entry] = ⟨after, none⟩) ↔ tree.Passable entry.keys) ∧
    ∀ after, applyAll tree entries = ⟨after, none⟩ →
      after = Node.merge (tree :: entries.map document) := by
  constructor
  · intro entry hentry
    exact (hkeyed entry hentry).exists_applyAll_iff
  · intro after h
    exact eq_foldl_of_applyAll h hkeyed

/-- A null on the way becomes an object, an object gives way to a text, and the null written over
that is written through. -/
theorem applyAll_eq_merge_documents_rewritten :
    ∃ entries : List Override,
      entries = [⟨"a.x", some "1"⟩, ⟨"b", some "2"⟩, ⟨"b", none⟩, ⟨"b.c.", some "3"⟩] ∧
      (∀ entry ∈ entries, entry.IsKeyed) ∧
      applyAll (.object [("a", .null), ("b", .object [("d", .scalar "0")])]) entries =
        ⟨.object [("a", .object [("x", .scalar "1")]), ("b", .object [("c", .scalar "3")])], none⟩ ∧
      Node.object [("a", .object [("x", .scalar "1")]), ("b", .object [("c", .scalar "3")])] =
        Node.merge [.object [("a", .null), ("b", .object [("d", .scalar "0")])],
          .object [("a", .object [("x", .scalar "1")])], .object [("b", .scalar "2")],
          .object [("b", .null)], .object [("b", .object [("c", .scalar "3")])]] := by
  refine ⟨_, rfl, ?keyed, ?applied,
    ((applyAll_eq_merge_documents ?keyed _).2 _ ?applied).trans ?documents⟩
  case keyed => decide +kernel
  case applied => cbv
  case documents => cbv

end Override

end LayeredConfig
