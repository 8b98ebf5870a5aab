import LayeredConfig.Proofs.Path.WriteRead

set_option autoImplicit false

/-!
# Trees that agree beside some paths

Two trees agree beside a set of paths when they read alike at every place that lies neither on a
path nor above or below one. A write to one of the paths leaves trees that agree beside the others:
what it makes of the containers on its way depends only on what stands beside it. With no path left
the trees are equal.
-/
namespace LayeredConfig

namespace Node

theorem Ordered.put {node child : Node} {step : Step} (h : node.Ordered) (hopens : node.opens step)
    (hchild : child.Ordered) : (node.put step child).Ordered := by
  cases step with
  | property name =>
    obtain ⟨fields, hfields⟩ := exists_fields_of_opens hopens
    have hown : Keyed.Ascending fields ∧ ∀ entry ∈ fields, entry.2.Ordered := by
      cases node with
      | null =>
        obtain rfl : [] = fields := Option.some.inj hfields
        exact ⟨List.Pairwise.nil, by simp⟩
      | object own =>
        obtain rfl : own = fields := Option.some.inj hfields
        exact ordered_object.1 h
      | scalar text | array items => simp [openFields?] at hfields
    simp only [Node.put, hfields, Option.getD_some]
    refine ordered_object.2 ⟨Keyed.ascending_insert name child hown.1, ?_⟩
    intro entry hentry
    rcases Keyed.mem_insert hentry with rfl | hold
    · exact hchild
    · exact hown.2 entry hold
  | index place =>
    obtain ⟨items, hitems, -⟩ := exists_items_of_opens hopens
    have hown : ∀ item ∈ items, item.Ordered := by
      cases node with
      | null =>
        obtain rfl : [] = items := Option.some.inj hitems
        simp
      | array own =>
        obtain rfl : own = items := Option.some.inj hitems
        exact ordered_array.1 h
      | scalar text | object fields => simp [openItems?] at hitems
    simp only [Node.put, hitems, Option.getD_some]
    refine ordered_array.2 fun item hitem => ?_
    unfold setItem at hitem
    split at hitem
    · rcases List.mem_append.1 hitem with hold | hnew
      · exact hown item hold
      · exact List.mem_singleton.1 hnew ▸ hchild
    · rcases List.mem_or_eq_of_mem_set hitem with hold | rfl
      · exact hown item hold
      · exact hchild

theorem Ordered.write? {node value tree : Node} {steps : List Step} (ho : node.Ordered)
    (hvalue : value.Ordered) (h : node.write? value steps = some tree) : tree.Ordered := by
  induction steps generalizing node tree with
  | nil => exact Option.some.inj h ▸ hvalue
  | cons step rest ih =>
    obtain ⟨hopens, child, hchild, rfl⟩ := write?_cons_eq_some.1 h
    exact ho.put hopens (ih (ho.slot step) hchild)

end Node

/-- No place past an end occurs among the steps. -/
def Step.Fixed (steps : List Step) : Prop := .index .pastEnd ∉ steps

instance (steps : List Step) : Decidable (Step.Fixed steps) :=
  inferInstanceAs (Decidable (.index .pastEnd ∉ steps))

namespace Step

theorem fixed_cons {step : Step} {rest : List Step} :
    Fixed (step :: rest) ↔ step ≠ .index .pastEnd ∧ Fixed rest := by
  simp [Fixed, eq_comm]

theorem Fixed.of_append {front back : List Step} (h : Fixed (front ++ back)) :
    Fixed front ∧ Fixed back :=
  ⟨fun hfront => h (List.mem_append_left _ hfront), fun hback => h (List.mem_append_right _ hback)⟩

theorem resolve_of_ne {step : Step} (h : step ≠ .index .pastEnd) (node : Node) :
    step.resolve node = step := by
  cases step with
  | property name => rfl
  | index place =>
    cases place with
    | «at» index => rfl
    | pastEnd => exact absurd rfl h

theorem Fixed.resolve {steps : List Step} (h : Fixed steps) (node : Node) :
    node.resolve steps = steps := by
  induction steps generalizing node with
  | nil => rfl
  | cons step rest ih =>
    obtain ⟨hstep, hrest⟩ := fixed_cons.1 h
    rw [Node.resolve, resolve_of_ne hstep, ih hrest]

end Step

/-- The place lies neither on the path nor above or below it. -/
def Step.Beside (path steps : List Step) : Prop := ¬ path <+: steps ∧ ¬ steps <+: path

theorem Step.Beside.append {path steps : List Step} (h : Beside path steps) (more : List Step) :
    Beside path (steps ++ more) := by
  refine ⟨fun hp => ?_, fun hp => h.2 ((List.prefix_append steps more).trans hp)⟩
  rcases List.prefix_or_prefix_of_prefix hp (List.prefix_append steps more) with hpath | hsteps
  · exact h.1 hpath
  · exact h.2 hsteps

theorem Step.beside_append_iff (front : List Step) {path steps : List Step} :
    Beside (front ++ path) (front ++ steps) ↔ Beside path steps := by
  simp [Beside, List.prefix_append_right_inj]

namespace Node

/-- The trees read alike at every place beside all the paths. -/
def AgreeBeside (paths : List (List Step)) (left right : Node) : Prop :=
  ∀ steps, (∀ path ∈ paths, Step.Beside path steps) → left.follow? steps = right.follow? steps

variable {left right node value tree : Node} {path : List Step} {paths : List (List Step)}

theorem AgreeBeside.refl (paths : List (List Step)) (node : Node) : node.AgreeBeside paths node :=
  fun _ _ => rfl

theorem AgreeBeside.eq (h : left.AgreeBeside [] right) : left = right :=
  Option.some.inj (h [] (by simp))

theorem getD_follow?_slot (node : Node) (step : Step) (steps : List Step) :
    ((node.slot step).follow? steps).getD .null =
      (node.follow? (step.resolve node :: steps)).getD .null := by
  cases steps with
  | nil => rw [follow?_singleton]; rfl
  | cons first rest => rw [follow?_slot (List.cons_ne_nil _ _)]

/-- A missing node reads below as null does: there is nothing. -/
theorem follow?_getD_follow? (node : Node) (front : List Step) {back : List Step} (h : back ≠ []) :
    ((node.follow? front).getD .null).follow? back = node.follow? (front ++ back) := by
  rw [follow?_append]
  cases node.follow? front with
  | some found => rfl
  | none =>
    obtain ⟨first, rest, rfl⟩ := List.exists_cons_of_ne_nil h
    simp [follow?_cons]

/-- Above its end a write reads as the write of the remaining steps into what stood there. -/
theorem follow?_of_write?_append {front back : List Step} (hfixed : Step.Fixed front)
    (h : node.write? value (front ++ back) = some tree) :
    ∃ below, tree.follow? front = some below ∧
      ((node.follow? front).getD .null).write? value back = some below := by
  induction front generalizing node tree with
  | nil => exact ⟨tree, rfl, h⟩
  | cons step front ih =>
    obtain ⟨hstep, hrest⟩ := Step.fixed_cons.1 hfixed
    obtain ⟨hopens, child, hchild, rfl⟩ := write?_cons_eq_some.1 h
    obtain ⟨below, hbelow, hwrite⟩ := ih hrest hchild
    rw [getD_follow?_slot, Step.resolve_of_ne hstep] at hwrite
    refine ⟨below, ?_, hwrite⟩
    have hput := follow?_put_self hopens child front
    rw [Step.resolve_of_ne hstep] at hput
    rw [hput, hbelow]

theorem follow?_of_write?_beside {steps : List Step} (hfixed : Step.Fixed path)
    (h : node.write? value path = some tree) (hbeside : Step.Beside path steps) :
    tree.follow? steps = node.follow? steps := by
  have hresolve := hfixed.resolve node
  exact follow?_of_write? h (by rw [hresolve]; exact hbeside.2) (by rw [hresolve]; exact hbeside.1)

/-- Containers that hold the same at all other steps are the same once a child is put. -/
theorem put_eq_put {step : Step} (hl : left.Ordered) (hr : right.Ordered)
    (hleft : left.opens step) (hright : right.opens step) (hstep : step ≠ .index .pastEnd)
    (h : ∀ other, other ≠ step → left.step? other = right.step? other) {child : Node}
    (hchild : child.Ordered) : left.put step child = right.put step child := by
  have hself : ∀ {node : Node}, node.opens step →
      (node.put step child).step? step = some child := by
    intro node hopens
    have hput := step?_put_self hopens child
    rwa [Step.resolve_of_ne hstep] at hput
  have hother : ∀ {node : Node} {other : Step}, node.opens step → other ≠ step →
      (node.put step child).step? other = node.step? other := by
    intro node other hopens hne
    exact step?_put_of_ne hopens (by rwa [Step.resolve_of_ne hstep]) child
  have hsame : ∀ other, (left.put step child).step? other = (right.put step child).step? other := by
    intro other
    by_cases hne : other = step
    · rw [hne, hself hleft, hself hright]
    · rw [hother hleft hne, hother hright hne, h other hne]
  cases step with
  | property name =>
    have hordered := (ordered_object.1 (hl.put hleft hchild)).1
    have hordered' := (ordered_object.1 (hr.put hright hchild)).1
    exact congrArg object (Keyed.eq_of_find?_eq hordered hordered' fun key => hsame (.property key))
  | index place =>
    exact congrArg array (List.ext_getElem? fun index => hsame (.index (.at index)))

/-- Trees that agree beside a path are the same once the path is written. -/
theorem AgreeBeside.eq_of_write? {a b : Node} (h : left.AgreeBeside [path] right)
    (hfixed : Step.Fixed path) (hl : left.Ordered) (hr : right.Ordered) (hvalue : value.Ordered)
    (hleft : left.write? value path = some a) (hright : right.write? value path = some b) :
    a = b := by
  induction path generalizing left right a b with
  | nil => exact Option.some.inj (hleft.symm.trans hright)
  | cons step rest ih =>
    obtain ⟨hstep, hrest⟩ := Step.fixed_cons.1 hfixed
    obtain ⟨hopens, child, hchild, rfl⟩ := write?_cons_eq_some.1 hleft
    obtain ⟨hopens', child', hchild', rfl⟩ := write?_cons_eq_some.1 hright
    have hslots : (left.slot step).AgreeBeside [rest] (right.slot step) := by
      intro steps hbeside
      have hrest : Step.Beside rest steps := hbeside rest (by simp)
      have hne : steps ≠ [] := fun hnil => hrest.2 (hnil ▸ List.nil_prefix)
      rw [follow?_slot hne, follow?_slot hne, Step.resolve_of_ne hstep, Step.resolve_of_ne hstep]
      refine h (step :: steps) fun path hpath => ?_
      rw [List.mem_singleton.1 hpath]
      exact (Step.beside_append_iff [step]).2 hrest
    obtain rfl : child = child' := ih hslots hrest (hl.slot step) (hr.slot step) hchild hchild'
    refine put_eq_put hl hr hopens hopens' hstep ?_ ((hl.slot step).write? hvalue hchild)
    intro other hne
    have hread := h [other] fun path hpath => by
      rw [List.mem_singleton.1 hpath]
      simp [Step.Beside, hne, Ne.symm hne]
    simpa using hread

/-- One write: its path need no longer be left out. -/
theorem AgreeBeside.of_write? {a b : Node} (h : left.AgreeBeside (path :: paths) right)
    (hfixed : Step.Fixed path) (hl : left.Ordered) (hr : right.Ordered) (hvalue : value.Ordered)
    (hleft : left.write? value path = some a) (hright : right.write? value path = some b) :
    a.AgreeBeside paths b := by
  intro steps hbeside
  by_cases habove : steps <+: path
  · obtain ⟨back, rfl⟩ := habove
    obtain ⟨hfront, hback⟩ := hfixed.of_append
    obtain ⟨below, hbelow, hwrite⟩ := follow?_of_write?_append hfront hleft
    obtain ⟨below', hbelow', hwrite'⟩ := follow?_of_write?_append hfront hright
    have hordered : ∀ {node : Node}, node.Ordered → ((node.follow? steps).getD .null).Ordered := by
      intro node ho
      cases hfollow : node.follow? steps with
      | none => exact ordered_null
      | some found => exact ho.follow? hfollow
    have hagree : ((left.follow? steps).getD .null).AgreeBeside [back]
        ((right.follow? steps).getD .null) := by
      intro more hmore
      have hback : Step.Beside back more := hmore back (by simp)
      have hne : more ≠ [] := fun hnil => hback.2 (hnil ▸ List.nil_prefix)
      rw [follow?_getD_follow? _ _ hne, follow?_getD_follow? _ _ hne]
      refine h (steps ++ more) fun path hpath => ?_
      rcases List.mem_cons.1 hpath with rfl | hpath
      · exact (Step.beside_append_iff steps).2 hback
      · exact (hbeside path hpath).append more
    rw [hbelow, hbelow', hagree.eq_of_write? hback (hordered hl) (hordered hr) hvalue
      hwrite hwrite']
  · by_cases hbelow : path <+: steps
    · obtain ⟨more, rfl⟩ := hbelow
      have hread := follow?_resolve_of_write? hleft
      have hread' := follow?_resolve_of_write? hright
      rw [hfixed.resolve] at hread hread'
      rw [follow?_append, follow?_append, hread, hread']
    · have hpath : Step.Beside path steps := ⟨hbelow, habove⟩
      rw [follow?_of_write?_beside hfixed hleft hpath, follow?_of_write?_beside hfixed hright hpath]
      exact h steps (List.forall_mem_cons.2 ⟨hpath, hbeside⟩)

/-- A write changes nothing beside its path. -/
theorem agreeBeside_of_write? (hfixed : Step.Fixed path) (h : node.write? value path = some tree)
    (hpath : path ∈ paths) : node.AgreeBeside paths tree := by
  intro steps hbeside
  exact (follow?_of_write?_beside hfixed h (hbeside path hpath)).symm

end Node

end LayeredConfig
