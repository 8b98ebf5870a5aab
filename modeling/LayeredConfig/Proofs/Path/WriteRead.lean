import LayeredConfig.Proofs.Path.Slot

set_option autoImplicit false

/-!
# Reading after a write

A write that succeeds depends on the steps of the path only, and on these only through the indices
that the places past an end mean in the arrays they meet. Its tree holds the value at these resolved
steps and agrees with the tree before wherever another path leaves them.
-/
namespace LayeredConfig

namespace Node

/-- The tree after a write that no container blocks. -/
def write? (node value : Node) : List Step → Option Node
  | [] => some value
  | step :: rest =>
    if node.opens step then ((node.slot step).write? value rest).map (node.put step) else none

/-- The steps that a write takes, each place past an end as the length of the array met there; an
array that is missing or null counts as one without items. -/
def resolve (node : Node) : List Step → List Step
  | [] => []
  | step :: rest => step.resolve node :: (node.slot step).resolve rest

theorem write?_cons_eq_some {node value tree : Node} {step : Step} {rest : List Step} :
    node.write? value (step :: rest) = some tree ↔
      node.opens step ∧ ∃ child, (node.slot step).write? value rest = some child ∧
        node.put step child = tree := by
  by_cases h : node.opens step <;> simp [write?, h]

/-- Below the slot a tree reads as through the step, a null slot for a missing child included. -/
theorem follow?_slot {node : Node} {step : Step} {steps : List Step} (h : steps ≠ []) :
    (node.slot step).follow? steps = node.follow? (step.resolve node :: steps) := by
  rw [follow?_cons]
  cases hc : node.step? (step.resolve node) with
  | some child => rw [slot_of_step? hc]; rfl
  | none =>
    -- The slot is null, which has no children; only the empty path tells it from nothing.
    obtain ⟨first, rest, rfl⟩ := List.exists_cons_of_ne_nil h
    simp [slot, hc, follow?_cons]

theorem follow?_slot_of_some {node child : Node} {step : Step} {steps : List Step}
    (h : node.follow? (step.resolve node :: steps) = some child) :
    (node.slot step).follow? steps = some child := by
  obtain ⟨below, hbelow, hfollow⟩ := Option.bind_eq_some_iff.1 (follow?_cons .. ▸ h)
  rw [slot_of_step? hbelow]
  exact hfollow

theorem follow?_put_self {node : Node} {step : Step} (h : node.opens step) (child : Node)
    (steps : List Step) :
    (node.put step child).follow? (step.resolve node :: steps) = child.follow? steps := by
  rw [follow?_cons, step?_put_self h, Option.bind_some]

/-- Off the path only what is put at its first step can make a difference. -/
theorem follow?_put_of_not_prefix {node child : Node} {step : Step} {path other : List Step}
    (hopens : node.opens step) (hother : ¬ other <+: step.resolve node :: path)
    (h : ∀ steps, other = step.resolve node :: steps → ¬ steps <+: path →
      child.follow? steps = (node.slot step).follow? steps) :
    (node.put step child).follow? other = node.follow? other := by
  cases other with
  | nil => exact absurd List.nil_prefix hother
  | cons first rest =>
    by_cases hfirst : first = step.resolve node
    · subst hfirst
      have hrest : ¬ rest <+: path := fun hp => hother (List.cons_prefix_cons.2 ⟨rfl, hp⟩)
      have hne : rest ≠ [] := fun hnil => hrest (hnil ▸ List.nil_prefix)
      rw [follow?_put_self hopens, ← follow?_slot hne]
      exact h rest rfl hrest
    · rw [follow?_cons, step?_put_of_ne hopens hfirst, ← follow?_cons]

end Node

namespace Path

theorem writeBelow_eq_iff {value node tree : Node} {parent : String} {segments : List Segment} :
    writeBelow value parent node segments = ⟨tree, none⟩ ↔
      node.write? value (segments.map Segment.step) = some tree := by
  induction segments generalizing node parent tree with
  | nil => simp [writeBelow, Node.write?]
  | cons segment rest ih =>
    rw [List.map_cons, Node.write?_cons_eq_some]
    by_cases h : node.opens segment.step
    · rw [writeBelow_of_opens h]
      generalize hbelow : writeBelow value segment.incoming (node.slot segment.step) rest = below
      obtain ⟨below, error⟩ := below
      constructor
      · intro hwritten
        obtain ⟨htree, rfl⟩ : node.put segment.step below = tree ∧ error = none := by
          simpa using hwritten
        exact ⟨h, below, ih.1 hbelow, htree⟩
      · rintro ⟨-, child, hchild, rfl⟩
        cases hbelow.symm.trans (ih.2 hchild)
        rfl
    · simp [writeBelow_of_not_opens h, h]

theorem write_eq_iff {path : Path} {root value tree : Node} :
    path.write root value = ⟨tree, none⟩ ↔
      path.steps ≠ [] ∧ root.write? value path.steps = some tree := by
  unfold write steps
  cases path.segments with
  | nil => simp
  | cons segment rest => simp [writeBelow_eq_iff]

end Path

namespace Node

variable {node value tree : Node} {steps : List Step}

theorem write?_resolve (node value : Node) (steps : List Step) :
    node.write? value (node.resolve steps) = node.write? value steps := by
  induction steps generalizing node with
  | nil => rfl
  | cons step rest ih => simp [resolve, write?, ih]

theorem follow?_resolve_of_write? (h : node.write? value steps = some tree) :
    tree.follow? (node.resolve steps) = some value := by
  induction steps generalizing node tree with
  | nil => exact Option.some.inj h ▸ rfl
  | cons step rest ih =>
    obtain ⟨hopens, child, hchild, rfl⟩ := write?_cons_eq_some.1 h
    rw [resolve, follow?_put_self hopens]
    exact ih hchild

/-- A path that leaves the written one at some step reads as before. -/
theorem follow?_of_write? (h : node.write? value steps = some tree) {other : List Step}
    (hother : ¬ other <+: node.resolve steps) (htarget : ¬ node.resolve steps <+: other) :
    tree.follow? other = node.follow? other := by
  induction steps generalizing node tree other with
  | nil => exact absurd List.nil_prefix htarget
  | cons step rest ih =>
    obtain ⟨hopens, child, hchild, rfl⟩ := write?_cons_eq_some.1 h
    refine follow?_put_of_not_prefix hopens hother ?_
    rintro others rfl hothers
    have hbeyond : ¬ (node.slot step).resolve rest <+: others := fun hp =>
      htarget (List.cons_prefix_cons.2 ⟨rfl, hp⟩)
    exact ih hchild hothers hbeyond

theorem resolve_ne_nil (h : steps ≠ []) : node.resolve steps ≠ [] := by
  obtain ⟨first, rest, rfl⟩ := List.exists_cons_of_ne_nil h
  exact List.cons_ne_nil _ _

/-- On the way every container is of the kind that the next step needs, and so was the one that
stood there unless it was null. -/
theorem exists_container_of_write? (h : node.write? value steps = some tree)
    {before after : List Step} {step : Step}
    (hsplit : node.resolve steps = before ++ step :: after) :
    ∃ container, tree.follow? before = some container ∧ container.kind = step.container ∧
      ∀ old, node.follow? before = some old → old = .null ∨ old.kind = step.container := by
  induction steps generalizing node tree before with
  | nil => simp [resolve] at hsplit
  | cons first rest ih =>
    obtain ⟨hopens, child, hchild, rfl⟩ := write?_cons_eq_some.1 h
    cases before with
    | nil =>
      obtain ⟨rfl, -⟩ := List.cons.inj hsplit
      refine ⟨_, rfl, (put_kind _ _ _).trans (Step.container_resolve node first).symm, ?_⟩
      rintro old ⟨⟩
      rw [Step.container_resolve]
      exact kind_of_opens hopens
    | cons b before =>
      obtain ⟨rfl, hrest⟩ := List.cons.inj hsplit
      obtain ⟨container, hcontainer, hkind, hold⟩ := ih hchild hrest
      refine ⟨container, ?_, hkind, fun old hread => hold old (follow?_slot_of_some hread)⟩
      rw [follow?_put_self hopens]
      exact hcontainer

end Node

namespace Path

end Path

end LayeredConfig
