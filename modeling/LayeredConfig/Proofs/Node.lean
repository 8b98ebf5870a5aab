import LayeredConfig.Path.Read
import LayeredConfig.Proofs.Keyed

set_option autoImplicit false

/-!
# Steps into a tree

Steps are followed one after the other. In an ordered tree every object has ascending keys, and what
a step leads to is ordered again.
-/
namespace LayeredConfig.Node

theorem follow?_cons (node : Node) (step : Step) (rest : List Step) :
    node.follow? (step :: rest) = (node.step? step).bind (·.follow? rest) := by
  cases h : node.step? step <;> simp [follow?, h]

theorem follow?_append (node : Node) (front back : List Step) :
    node.follow? (front ++ back) = (node.follow? front).bind (·.follow? back) := by
  induction front generalizing node with
  | nil => rfl
  | cons step front ih =>
    rw [List.cons_append, follow?_cons, follow?_cons, Option.bind_assoc]
    exact congrArg _ (funext fun child => ih child)

@[simp] theorem follow?_singleton (node : Node) (step : Step) :
    node.follow? [step] = node.step? step := by
  cases h : node.step? step <;> simp [follow?, h]

@[simp] theorem ordered_null : Node.null.Ordered := by
  simp [Ordered]

theorem orderedFields_iff {fields : List (String × Node)} :
    OrderedFields fields ↔ ∀ entry ∈ fields, entry.2.Ordered := by
  induction fields with
  | nil => simp [OrderedFields]
  | cons entry rest ih => simp [OrderedFields, ih]

theorem orderedItems_iff {items : List Node} :
    OrderedItems items ↔ ∀ item ∈ items, item.Ordered := by
  induction items with
  | nil => simp [OrderedItems]
  | cons item rest ih => simp [OrderedItems, ih]

theorem ordered_object {fields : List (String × Node)} :
    (object fields).Ordered ↔
      Keyed.Ascending fields ∧ ∀ entry ∈ fields, entry.2.Ordered := by
  rw [Ordered, orderedFields_iff]

theorem ordered_array {items : List Node} :
    (array items).Ordered ↔ ∀ item ∈ items, item.Ordered := by
  rw [Ordered, orderedItems_iff]

mutual

def decideOrdered : (node : Node) → Decidable node.Ordered
  | .null | .scalar _ => isTrue (by simp [Ordered])
  | .object fields =>
    have := decideOrderedFields fields
    inferInstanceAs (Decidable (List.Pairwise _ _ ∧ OrderedFields fields))
  | .array items => decideOrderedItems items

def decideOrderedFields : (fields : List (String × Node)) → Decidable (OrderedFields fields)
  | [] => isTrue trivial
  | (_, node) :: rest =>
    have := decideOrdered node
    have := decideOrderedFields rest
    inferInstanceAs (Decidable (node.Ordered ∧ OrderedFields rest))

def decideOrderedItems : (items : List Node) → Decidable (OrderedItems items)
  | [] => isTrue trivial
  | node :: rest =>
    have := decideOrdered node
    have := decideOrderedItems rest
    inferInstanceAs (Decidable (node.Ordered ∧ OrderedItems rest))

end

instance (node : Node) : Decidable node.Ordered := decideOrdered node

theorem Ordered.step? {node child : Node} {step : Step} (h : node.Ordered)
    (hchild : node.step? step = some child) : child.Ordered := by
  cases step with
  | property name =>
    cases node with
    | object fields => exact (ordered_object.1 h).2 _ (Keyed.mem_of_find? hchild)
    | null | scalar text | array items => simp [Node.step?, child?, fields?] at hchild
  | index place =>
    cases place with
    | pastEnd => simp [Node.step?] at hchild
    | «at» index =>
      cases node with
      | array items => exact ordered_array.1 h child (List.mem_of_getElem? hchild)
      | null | scalar text | object fields => simp [Node.step?, item?, items?] at hchild

theorem Ordered.follow? {node found : Node} {steps : List Step} (h : node.Ordered)
    (hfound : node.follow? steps = some found) : found.Ordered := by
  induction steps generalizing node with
  | nil => exact Option.some.inj hfound ▸ h
  | cons step rest ih =>
    obtain ⟨child, hchild, hbelow⟩ := Option.bind_eq_some_iff.1 (follow?_cons .. ▸ hfound)
    exact ih (h.step? hchild) hbelow

end LayeredConfig.Node
