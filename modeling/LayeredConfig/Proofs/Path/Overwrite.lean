import LayeredConfig.Proofs.Path.Agreement

set_option autoImplicit false

/-!
# Writing over what was written

Without a place past an end a path leads to the same place before and after a write to it, through
containers that are there from then on. So of two writes the second alone counts, and writing what
is there changes nothing.
-/
namespace LayeredConfig

theorem setItem_setItem {items : List Node} {index : Nat} (h : index ≤ items.length)
    (first second : Node) :
    setItem (setItem items index first) index second = setItem items index second := by
  unfold setItem
  by_cases hindex : index = items.length
  · subst hindex
    simp
  · simp [hindex]

namespace Node

variable {node child middle value below found : Node} {step : Step}
variable {steps front back : List Step}

theorem put_at {items : List Node} (h : node.openItems? = some items) (index : Nat)
    (child : Node) : node.put (.index (.at index)) child = .array (setItem items index child) := by
  simp [put, h]

theorem opens_put_self (h : node.opens step) (hstep : step ≠ .index .pastEnd) (child : Node) :
    (node.put step child).opens step := by
  cases step with
  | property name => rfl
  | index place =>
    cases place with
    | pastEnd => exact absurd rfl hstep
    | «at» index =>
      obtain ⟨items, hitems, hle⟩ := exists_items_of_opens h
      have hself : (setItem items index child)[index]? = some child :=
        getElem?_setItem_self hle child
      have hlt : index < (setItem items index child).length :=
        (List.getElem?_eq_some_iff.1 hself).1
      rw [put_at hitems]
      exact decide_eq_true hlt.le

theorem slot_put_self (h : node.opens step) (hstep : step ≠ .index .pastEnd) (child : Node) :
    (node.put step child).slot step = child := by
  have hread := step?_put_self h child
  rw [Step.resolve_of_ne hstep] at hread
  apply slot_of_step?
  rw [Step.resolve_of_ne hstep]
  exact hread

theorem put_put_self (h : node.opens step) (hstep : step ≠ .index .pastEnd) (first second : Node) :
    (node.put step first).put step second = node.put step second := by
  cases step with
  | property name =>
    exact congrArg object (Keyed.insert_insert_self name second first (node.openFields?.getD []))
  | index place =>
    cases place with
    | pastEnd => exact absurd rfl hstep
    | «at» index =>
      obtain ⟨items, hitems, hle⟩ := exists_items_of_opens h
      rw [Place.resolve_at] at hle
      rw [put_at hitems, put_at hitems, put_at rfl, setItem_setItem hle]

theorem write?_write? {first : Node} (hfixed : Step.Fixed steps)
    (h : node.write? first steps = some middle) (second : Node) :
    ∃ tree, middle.write? second steps = some tree ∧ node.write? second steps = some tree := by
  induction steps generalizing node middle with
  | nil => exact ⟨second, rfl, rfl⟩
  | cons step rest ih =>
    obtain ⟨hstep, hrest⟩ := Step.fixed_cons.1 hfixed
    obtain ⟨hopens, child, hchild, rfl⟩ := write?_cons_eq_some.1 h
    obtain ⟨below, hagain, hdirect⟩ := ih hrest hchild
    refine ⟨node.put step below, ?_, write?_cons_eq_some.2 ⟨hopens, below, hdirect, rfl⟩⟩
    rw [write?_cons_eq_some, slot_put_self hopens hstep]
    exact ⟨opens_put_self hopens hstep child, below, hagain, put_put_self hopens hstep child below⟩

/-! ## Steps to a node that is there -/

theorem ne_pastEnd_of_step? (h : node.step? step = some child) : step ≠ .index .pastEnd := by
  rintro rfl
  cases h

theorem opens_of_step? (h : node.step? step = some child) : node.opens step := by
  cases step with
  | property name =>
    cases node with
    | object fields => rfl
    | null | scalar text | array items => cases h
  | index place =>
    cases place with
    | pastEnd => cases h
    | «at» index =>
      cases node with
      | array items =>
        obtain ⟨hlt, -⟩ := List.getElem?_eq_some_iff.1 h
        exact decide_eq_true hlt.le
      | null | scalar text | object fields => cases h

/-- Down to a node that is there a write passes, and goes on as a write into this node. -/
theorem exists_write?_append (hfound : node.follow? front = some found)
    (h : found.write? value back = some below) :
    ∃ tree, node.write? value (front ++ back) = some tree := by
  induction front generalizing node with
  | nil =>
    obtain rfl : node = found := Option.some.inj hfound
    exact ⟨below, h⟩
  | cons step front ih =>
    obtain ⟨child, hchild, hbelow⟩ := Option.bind_eq_some_iff.1 (follow?_cons .. ▸ hfound)
    obtain ⟨tree, htree⟩ := ih hbelow
    refine ⟨node.put step tree, write?_cons_eq_some.2 ⟨opens_of_step? hchild, tree, ?_, rfl⟩⟩
    rw [slot_eq, hchild]
    exact htree

theorem write?_of_follow? (ho : node.Ordered) (h : node.follow? steps = some value) :
    node.write? value steps = some node := by
  induction steps generalizing node with
  | nil => exact h.symm
  | cons step rest ih =>
    obtain ⟨child, hchild, hbelow⟩ := Option.bind_eq_some_iff.1 (follow?_cons .. ▸ h)
    have hopens := opens_of_step? hchild
    have hput : node.put step child = node := by
      apply put_of_step? ho hopens
      rwa [Step.resolve_of_ne (ne_pastEnd_of_step? hchild)]
    refine write?_cons_eq_some.2 ⟨hopens, child, ?_, hput⟩
    rw [slot_eq, hchild]
    exact ih (ho.step? hchild) hbelow

end Node

namespace Path

/-- A write over a write succeeds and is the second write alone. A node that is read can be written
back, which leaves the tree as it was. -/
theorem write_over_write {path : Path} (hne : path.steps ≠ []) (hfixed : Step.Fixed path.steps)
    (root : Node) :
    (∀ first second middle, path.write root first = ⟨middle, none⟩ →
      (path.write middle second).error = none ∧
        path.write middle second = path.write root second) ∧
    (root.Ordered → ∀ value, path.read root = some value →
      path.write root value = ⟨root, none⟩) := by
  constructor
  · intro first second middle h
    obtain ⟨-, hfirst⟩ := write_eq_iff.1 h
    obtain ⟨tree, hagain, hdirect⟩ := Node.write?_write? hfixed hfirst second
    have hover : path.write middle second = ⟨tree, none⟩ := write_eq_iff.2 ⟨hne, hagain⟩
    have halone : path.write root second = ⟨tree, none⟩ := write_eq_iff.2 ⟨hne, hdirect⟩
    rw [hover, halone]
    exact ⟨rfl, rfl⟩
  · intro ho value hread
    exact write_eq_iff.2 ⟨hne, Node.write?_of_follow? ho hread⟩

/-- The first write makes all containers on the way, over which the second goes. What the second has
left is read and written back. -/
theorem write_over_write_made :
    ∃ path : Path, path.steps = [.property "a", .index (.at 0), .property "b"] ∧
      path.steps ≠ [] ∧ Step.Fixed path.steps ∧
      path.write .null (.scalar "1") =
        ⟨.object [("a", .array [.object [("b", .scalar "1")]])], none⟩ ∧
      path.write (.object [("a", .array [.object [("b", .scalar "1")]])]) (.array []) =
        ⟨.object [("a", .array [.object [("b", .array [])]])], none⟩ ∧
      Node.Ordered (.object [("a", .array [.object [("b", .array [])]])]) ∧
      path.read (.object [("a", .array [.object [("b", .array [])]])]) = some (.array []) ∧
      path.write (.object [("a", .array [.object [("b", .array [])]])]) (.array []) =
        ⟨.object [("a", .array [.object [("b", .array [])]])], none⟩ := by
  refine ⟨⟨"a[0].b", "a[0].b", [⟨.property "a", "a", "[0].b"⟩, ⟨.index (.at 0), "a[0]", "b"⟩,
    ⟨.property "b", "a[0].b", ""⟩]⟩, rfl, ?named, ?fixed, ?first,
    ((write_over_write ?named ?fixed .null).1 _ (.array []) _ ?first).2, ?ordered, ?read,
    (write_over_write ?named ?fixed _).2 ?ordered _ ?read⟩
  case named => simp [steps]
  case fixed => decide
  case first => rfl
  case ordered => decide
  case read => rfl

end Path

end LayeredConfig
