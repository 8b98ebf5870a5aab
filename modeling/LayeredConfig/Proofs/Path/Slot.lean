import LayeredConfig.Path.Write
import LayeredConfig.Proofs.Node

set_option autoImplicit false

/-!
# One step of a write

A write takes a step when the container is open for it. It goes on in the slot of the step, which
holds null where there was no child, and what it makes of the slot is put back. Reading the step
after putting gives what was put; every other step reads as before.
-/
namespace LayeredConfig

@[simp] theorem Place.resolve_at (length index : Nat) : Place.resolve length (.at index) = index :=
  rfl

/-- The step with the place past the end as the index it means in `node`. -/
def Step.resolve (node : Node) : Step → Step
  | .property name => .property name
  | .index place => .index (.at (place.resolve (node.openItems?.getD []).length))

/-- What a container has to be for the step. -/
def Step.container : Step → Node.Kind
  | .property _ => .object
  | .index _ => .array

namespace Node

/-- A write can take the step: the container is of the right kind or null, and the index is at most
its length. -/
def opens (node : Node) : Step → Bool
  | .property _ => node.openFields?.isSome
  | .index place => node.openItems?.any fun items => place.resolve items.length ≤ items.length

/-- The child that a write goes on with. -/
def slot (node : Node) (step : Step) : Node := (node.step? (step.resolve node)).getD .null

/-- The container with `child` at the step. -/
def put (node : Node) (step : Step) (child : Node) : Node :=
  match step with
  | .property name => .object (Keyed.insert name child (node.openFields?.getD []))
  | .index place =>
    let items := node.openItems?.getD []
    .array (setItem items (place.resolve items.length) child)

/-- What a write leaves of a container that is not open for the step. -/
def blocked (node : Node) : Step → Node
  | .property _ => node
  | .index _ => (node.openItems?.map .array).getD node

/-- Why the container is not open for the step of the segment. -/
def refusal (node : Node) (parent : String) (segment : Segment) : WriteError :=
  match segment.step with
  | .property _ => .unexpectedNode parent segment.incoming .object node.kind
  | .index place =>
    match node.openItems? with
    | none => .unexpectedNode parent segment.incoming .array node.kind
    | some items => .outOfBounds parent (place.resolve items.length) items.length

@[simp] theorem step?_object (fields : Keyed Node) (name : String) :
    (object fields).step? (.property name) = Keyed.find? name fields := rfl

@[simp] theorem step?_array (items : List Node) (index : Nat) :
    (array items).step? (.index (.at index)) = items[index]? := rfl

@[simp] theorem step?_null (step : Step) : Node.null.step? step = none := by
  cases step with
  | property name => rfl
  | index place => cases place <;> rfl

theorem step?_of_openFields? {node : Node} {fields : Keyed Node}
    (h : node.openFields? = some fields) (name : String) :
    node.step? (.property name) = Keyed.find? name fields := by
  cases node with
  | null => obtain rfl : [] = fields := Option.some.inj h; rfl
  | object own => obtain rfl : own = fields := Option.some.inj h; rfl
  | scalar text => simp [openFields?] at h
  | array items => simp [openFields?] at h

theorem step?_of_openItems? {node : Node} {items : List Node} (h : node.openItems? = some items)
    (index : Nat) : node.step? (.index (.at index)) = items[index]? := by
  cases node with
  | null => obtain rfl : [] = items := Option.some.inj h; rfl
  | array own => obtain rfl : own = items := Option.some.inj h; rfl
  | scalar text => simp [openItems?] at h
  | object fields => simp [openItems?] at h

theorem step?_of_openItems?_nil {node : Node} (h : node.openItems? = some []) (step : Step) :
    node.step? step = none := by
  cases node with
  | null => exact step?_null step
  | array own =>
    obtain rfl : own = [] := Option.some.inj h
    cases step with
    | property name => rfl
    | index place => cases place <;> rfl
  | scalar text | object fields => simp [openItems?] at h

theorem exists_fields_of_opens {node : Node} {name : String} (h : node.opens (.property name)) :
    ∃ fields, node.openFields? = some fields :=
  Option.isSome_iff_exists.1 h

theorem exists_items_of_opens {node : Node} {place : Place} (h : node.opens (.index place)) :
    ∃ items, node.openItems? = some items ∧ place.resolve items.length ≤ items.length := by
  cases hitems : node.openItems? with
  | none => simp [opens, hitems] at h
  | some items => exact ⟨items, rfl, by simpa [opens, hitems] using h⟩

@[simp] theorem slot_null (step : Step) : Node.null.slot step = .null := by
  simp [slot]

/-- Reading never takes the place past an end, and nothing stands there. -/
theorem slot_eq (node : Node) (step : Step) : node.slot step = (node.step? step).getD .null := by
  cases step with
  | property name => rfl
  | index place =>
    cases place with
    | «at» index => rfl
    | pastEnd =>
      cases node with
      | array items => simp [slot, Step.resolve, openItems?, Place.resolve, step?, item?, items?]
      | null | scalar text | object fields => rfl

theorem slot_of_step? {node child : Node} {step : Step}
    (h : node.step? (step.resolve node) = some child) : node.slot step = child := by
  simp [slot, h]

end Node

theorem getElem?_setItem_self {items : List Node} {index : Nat} (h : index ≤ items.length)
    (item : Node) : (setItem items index item)[index]? = some item := by
  unfold setItem
  split
  next hi => simp [hi]
  next hi => simp [show index < items.length by omega]

theorem getElem?_setItem_of_ne (items : List Node) {index other : Nat} (h : other ≠ index)
    (item : Node) : (setItem items index item)[other]? = items[other]? := by
  unfold setItem
  split
  next hi =>
    subst hi
    rcases Nat.lt_or_gt_of_ne h with hlt | hgt
    · rw [List.getElem?_append_left hlt]
    · rw [List.getElem?_eq_none (by simp; omega), List.getElem?_eq_none (by omega)]
  next hi => rw [List.getElem?_set_ne (Ne.symm h)]

theorem setItem_of_getElem? {items : List Node} {index : Nat} {item : Node}
    (h : items[index]? = some item) : setItem items index item = items := by
  obtain ⟨hlt, hitem⟩ := List.getElem?_eq_some_iff.1 h
  have hne : index ≠ items.length := by omega
  simp [setItem, hne, ← hitem]

namespace Node

theorem step?_put_self {node : Node} {step : Step} (h : node.opens step) (child : Node) :
    (node.put step child).step? (step.resolve node) = some child := by
  cases step with
  | property name => exact Keyed.find?_insert_self name child _
  | index place =>
    obtain ⟨items, hitems, hle⟩ := exists_items_of_opens h
    simp only [put, Step.resolve, hitems, Option.getD_some]
    exact getElem?_setItem_self hle child

/-- Also where the other step is for a container of the other kind: then neither leads anywhere. -/
theorem step?_put_of_ne {node : Node} {step other : Step} (h : node.opens step)
    (hne : other ≠ step.resolve node) (child : Node) :
    (node.put step child).step? other = node.step? other := by
  cases step with
  | property name =>
    obtain ⟨fields, hfields⟩ := exists_fields_of_opens h
    cases other with
    | property key =>
      have hkey : key ≠ name := fun hk => hne (by simp [Step.resolve, hk])
      rw [step?_of_openFields? hfields]
      simpa [put, hfields] using Keyed.find?_insert_of_ne hkey child fields
    | index place =>
      cases node with
      | null => cases place <;> rfl
      | object own => cases place <;> rfl
      | scalar text => simp [openFields?] at hfields
      | array items => simp [openFields?] at hfields
  | index place =>
    obtain ⟨items, hitems, hle⟩ := exists_items_of_opens h
    cases other with
    | property key =>
      cases node with
      | null => rfl
      | array own => rfl
      | scalar text => simp [openItems?] at hitems
      | object fields => simp [openItems?] at hitems
    | index target =>
      cases target with
      | pastEnd => rfl
      | «at» index =>
        have hindex : index ≠ place.resolve items.length := fun hi =>
          hne (by simp [Step.resolve, hitems, hi])
        rw [step?_of_openItems? hitems]
        simpa [put, hitems] using getElem?_setItem_of_ne items hindex child

theorem put_kind (node : Node) (step : Step) (child : Node) :
    (node.put step child).kind = step.container := by
  cases step <;> rfl

theorem kind_of_opens {node : Node} {step : Step} (h : node.opens step) :
    node = .null ∨ node.kind = step.container := by
  cases step with
  | property name =>
    obtain ⟨fields, hfields⟩ := exists_fields_of_opens h
    cases node <;> simp_all [openFields?, kind, Step.container]
  | index place =>
    obtain ⟨items, hitems, -⟩ := exists_items_of_opens h
    cases node <;> simp_all [openItems?, kind, Step.container]

end Node

theorem Step.container_resolve (node : Node) (step : Step) :
    (step.resolve node).container = step.container := by
  cases step <;> rfl

theorem Step.resolve_resolve (node : Node) (step : Step) :
    (step.resolve node).resolve node = step.resolve node := by
  cases step <;> rfl

namespace Node

@[simp] theorem opens_resolve (node : Node) (step : Step) :
    node.opens (step.resolve node) = node.opens step := by
  cases step with
  | property name => rfl
  | index place =>
    unfold opens Step.resolve
    cases node.openItems? <;> rfl

@[simp] theorem slot_resolve (node : Node) (step : Step) :
    node.slot (step.resolve node) = node.slot step := by
  simp [slot, Step.resolve_resolve]

@[simp] theorem put_resolve (node : Node) (step : Step) :
    node.put (step.resolve node) = node.put step := by
  cases step <;> rfl

theorem slot_property {node : Node} {fields : Keyed Node} (h : node.openFields? = some fields)
    (name : String) : node.slot (.property name) = (Keyed.find? name fields).getD .null :=
  congrArg (·.getD .null) (step?_of_openFields? h name)

theorem slot_index {node : Node} {items : List Node} (h : node.openItems? = some items)
    (place : Place) :
    node.slot (.index place) = (items[place.resolve items.length]?).getD .null := by
  simp [slot, Step.resolve, h, step?_of_openItems? h]

theorem Ordered.slot {node : Node} (h : node.Ordered) (step : Step) : (node.slot step).Ordered := by
  unfold Node.slot
  cases hchild : node.step? (step.resolve node) with
  | none => exact ordered_null
  | some child => exact h.step? hchild

/-- Putting back the child that is there changes nothing. -/
theorem put_of_step? {node child : Node} {step : Step} (h : node.Ordered) (hopens : node.opens step)
    (hchild : node.step? (step.resolve node) = some child) : node.put step child = node := by
  cases step with
  | property name =>
    obtain ⟨fields, hfields⟩ := exists_fields_of_opens hopens
    cases node with
    | null => simp at hchild
    | object own => exact congrArg object (Keyed.insert_of_find? (ordered_object.1 h).1 hchild)
    | scalar text | array items => simp [openFields?] at hfields
  | index place =>
    obtain ⟨items, hitems, -⟩ := exists_items_of_opens hopens
    cases node with
    | null => simp at hchild
    | array own => exact congrArg array (setItem_of_getElem? hchild)
    | scalar text | object fields => simp [openItems?] at hitems

end Node

namespace Path

theorem writeBelow_of_opens {node : Node} {segment : Segment} (h : node.opens segment.step)
    (value : Node) (parent : String) (rest : List Segment) :
    writeBelow value parent node (segment :: rest) =
      let below := writeBelow value segment.incoming (node.slot segment.step) rest
      ⟨node.put segment.step below.tree, below.error⟩ := by
  obtain ⟨step, incoming, remaining⟩ := segment
  cases step with
  | property name =>
    obtain ⟨fields, hfields⟩ := Node.exists_fields_of_opens h
    simp [writeBelow, hfields, Node.put, Node.slot_property hfields]
  | index place =>
    obtain ⟨items, hitems, hle⟩ := Node.exists_items_of_opens h
    simp [writeBelow, hitems, hle, Node.put, Node.slot_index hitems]

theorem writeBelow_of_not_opens {node : Node} {segment : Segment} (h : ¬ node.opens segment.step)
    (value : Node) (parent : String) (rest : List Segment) :
    writeBelow value parent node (segment :: rest) =
      ⟨node.blocked segment.step, some (node.refusal parent segment)⟩ := by
  obtain ⟨step, incoming, remaining⟩ := segment
  cases step with
  | property name =>
    have hfields : node.openFields? = none := by simpa [Node.opens] using h
    simp [writeBelow, hfields, Node.blocked, Node.refusal]
  | index place =>
    cases hitems : node.openItems? with
    | none => simp [writeBelow, hitems, Node.blocked, Node.refusal]
    | some items =>
      have hlt : ¬ place.resolve items.length ≤ items.length := by
        simpa [Node.opens, hitems] using h
      simp [writeBelow, hitems, hlt, Node.blocked, Node.refusal]

end Path

end LayeredConfig
