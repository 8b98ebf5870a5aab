import LayeredConfig.Proofs.Override.Replay
import LayeredConfig.Proofs.Path.Overwrite

set_option autoImplicit false

/-!
# Overrides in any order

Two paths part when the first steps in which they differ are two names. Up to there both overrides
find or make the same containers, whichever comes first; from there on they write below different
keys of one object. So overrides whose paths part pairwise may be applied in any order.
-/
namespace LayeredConfig

/-- The first steps in which the paths differ are two names, and no place past an end comes before
them. -/
inductive Step.Part : List Step → List Step → Prop where
  | names {name other : String} (left right : List Step) :
      name ≠ other → Part (.property name :: left) (.property other :: right)
  | shared {step : Step} {left right : List Step} :
      step ≠ .index .pastEnd → Part left right → Part (step :: left) (step :: right)

theorem Step.Part.symm {left right : List Step} (h : Part left right) : Part right left := by
  induction h with
  | names left right hne => exact .names right left hne.symm
  | shared hstep _ ih => exact .shared hstep ih

namespace Node

variable {node child middle after value other : Node} {step : Step} {left right : List Step}

theorem slot_put_name {name key : String} (h : node.opens (.property name)) (hne : key ≠ name)
    (child : Node) : (node.put (.property name) child).slot (.property key) =
      node.slot (.property key) := by
  have hother : Step.property key ≠ (Step.property name).resolve node := by
    simpa [Step.resolve] using hne
  have hread := step?_put_of_ne h hother child
  unfold slot
  simp only [Step.resolve]
  rw [hread]

theorem put_comm_names {name key : String} (hne : name ≠ key) (first second : Node) :
    (node.put (.property name) first).put (.property key) second =
      (node.put (.property key) second).put (.property name) first :=
  congrArg object (Keyed.insert_comm hne.symm second first (node.openFields?.getD []))

/-- A write through a slot that was just put goes on from what was put. -/
theorem write?_put_cons (hstep : step ≠ .index .pastEnd) (hopens : node.opens step)
    (child : Node) : (node.put step child).write? other (step :: right) = some after ↔
      ∃ below, child.write? other right = some below ∧ node.put step below = after := by
  rw [write?_cons_eq_some, slot_put_self hopens hstep]
  constructor
  · rintro ⟨-, below, hbelow, rfl⟩
    exact ⟨below, hbelow, (put_put_self hopens hstep child below).symm⟩
  · rintro ⟨below, hbelow, rfl⟩
    exact ⟨opens_put_self hopens hstep child, below, hbelow, put_put_self hopens hstep child below⟩

theorem write?_comm (hpart : Step.Part left right) (hfirst : node.write? value left = some middle)
    (hsecond : middle.write? other right = some after) :
    ∃ swapped, node.write? other right = some swapped ∧ swapped.write? value left = some after := by
  induction hpart generalizing node middle after with
  | @names name key left right hne =>
    -- Each write finds the slot that it would find without the other.
    obtain ⟨hopens, x, hx, rfl⟩ := write?_cons_eq_some.1 hfirst
    obtain ⟨-, y, hy, rfl⟩ := write?_cons_eq_some.1 hsecond
    rw [slot_put_name hopens hne.symm] at hy
    have hother : node.opens (.property key) := hopens
    refine ⟨node.put (.property key) y, write?_cons_eq_some.2 ⟨hother, y, hy, rfl⟩, ?_⟩
    refine write?_cons_eq_some.2 ⟨rfl, x, ?_, put_comm_names hne.symm y x⟩
    rw [slot_put_name hother hne]
    exact hx
  | @shared step left right hstep _ ih =>
    -- The second write goes on from what the first put into the shared slot.
    obtain ⟨hopens, x, hx, rfl⟩ := write?_cons_eq_some.1 hfirst
    obtain ⟨below, hbelow, rfl⟩ := (write?_put_cons hstep hopens x).1 hsecond
    obtain ⟨swapped, hswapped, hback⟩ := ih hx hbelow
    refine ⟨node.put step swapped, write?_cons_eq_some.2 ⟨hopens, swapped, hswapped, rfl⟩, ?_⟩
    exact (write?_put_cons hstep hopens swapped).2 ⟨below, hback, rfl⟩

end Node

namespace Override

/-- Both paths can be read, and they part. -/
def Independent (first second : Override) : Prop :=
  ∃ left right, first.steps? = some left ∧ second.steps? = some right ∧ Step.Part left right

variable {first second : Override} {entries order : List Override} {tree middle after : Node}

theorem Independent.symm (h : first.Independent second) : second.Independent first := by
  obtain ⟨left, right, hleft, hright, hpart⟩ := h
  exact ⟨right, left, hright, hleft, hpart.symm⟩

theorem write_comm (h : first.Independent second) (hfirst : first.write tree = ⟨middle, none⟩)
    (hsecond : second.write middle = ⟨after, none⟩) :
    ∃ swapped, second.write tree = ⟨swapped, none⟩ ∧ first.write swapped = ⟨after, none⟩ := by
  obtain ⟨left, right, hleft, hright, hpart⟩ := h
  obtain ⟨steps, hsteps, hne, hwrite⟩ := write_eq_iff.1 hfirst
  obtain ⟨steps', hsteps', hne', hwrite'⟩ := write_eq_iff.1 hsecond
  obtain rfl : left = steps := Option.some.inj (hleft.symm.trans hsteps)
  obtain rfl : right = steps' := Option.some.inj (hright.symm.trans hsteps')
  obtain ⟨swapped, hswapped, hback⟩ := Node.write?_comm hpart hwrite hwrite'
  exact ⟨swapped, write_eq_iff.2 ⟨right, hright, hne', hswapped⟩,
    write_eq_iff.2 ⟨left, hleft, hne, hback⟩⟩

/-- Overrides whose paths part pairwise leave the same tree in every order, if they succeed in
one. -/
theorem applyAll_perm (hindependent : entries.Pairwise Independent)
    (h : applyAll tree entries = ⟨after, none⟩) (hperm : entries.Perm order) :
    applyAll tree order = ⟨after, none⟩ := by
  induction hperm generalizing tree with
  | nil => exact h
  | cons entry _ ih =>
    obtain ⟨middle, hwrite, hrun⟩ := applyAll_cons_eq_iff.1 h
    have hrest := (List.pairwise_cons.1 hindependent).2
    exact applyAll_cons_eq_iff.2 ⟨middle, hwrite, ih hrest hrun⟩
  | swap first second rest =>
    obtain ⟨middle, hsecond, hrun⟩ := applyAll_cons_eq_iff.1 h
    obtain ⟨between, hfirst, hrest⟩ := applyAll_cons_eq_iff.1 hrun
    have hpair : second.Independent first :=
      (List.pairwise_cons.1 hindependent).1 first List.mem_cons_self
    obtain ⟨swapped, hswapped, hback⟩ := write_comm hpair hsecond hfirst
    have htail : applyAll swapped (second :: rest) = ⟨after, none⟩ :=
      applyAll_cons_eq_iff.2 ⟨between, hback, hrest⟩
    exact applyAll_cons_eq_iff.2 ⟨swapped, hswapped, htail⟩
  | trans hperm _ ih ih' =>
    have hmiddle := (hperm.pairwise_iff fun hpair => Independent.symm hpair).1 hindependent
    exact ih' hmiddle (ih hindependent h)

/-- The item that two of the overrides share is made by whichever comes first, and an array below it
is appended to in any case. -/
theorem applyAll_perm_shared_item :
    List.Pairwise Independent
      [⟨"a[1].x", some "1"⟩, ⟨"a[1].y[.length]", some "2"⟩, ⟨"b", none⟩] ∧
    applyAll (.object [("a", .array [.scalar "0"])])
        [⟨"a[1].x", some "1"⟩, ⟨"a[1].y[.length]", some "2"⟩, ⟨"b", none⟩] =
      ⟨.object [("a", .array [.scalar "0",
        .object [("x", .scalar "1"), ("y", .array [.scalar "2"])]]), ("b", .null)], none⟩ ∧
    applyAll (.object [("a", .array [.scalar "0"])])
        [⟨"b", none⟩, ⟨"a[1].y[.length]", some "2"⟩, ⟨"a[1].x", some "1"⟩] =
      ⟨.object [("a", .array [.scalar "0",
        .object [("x", .scalar "1"), ("y", .array [.scalar "2"])]]), ("b", .null)], none⟩ := by
  have hx : steps? ⟨"a[1].x", some "1"⟩ =
      some [.property "a", .index (.at 1), .property "x"] := by decide +kernel
  have hy : steps? ⟨"a[1].y[.length]", some "2"⟩ =
      some [.property "a", .index (.at 1), .property "y", .index .pastEnd] := by decide +kernel
  have hb : steps? ⟨"b", none⟩ = some [.property "b"] := by decide +kernel
  have hnames : Step.Part [.property "a", .index (.at 1), .property "x"]
      [.property "a", .index (.at 1), .property "y", .index .pastEnd] :=
    .shared (by decide) (.shared (by decide) (.names [] _ (by decide)))
  refine ⟨?independent, ?applied, applyAll_perm ?independent ?applied (by decide)⟩
  case independent =>
    refine .cons ?_ (.cons ?_ (List.pairwise_singleton _ _))
    · intro other hother
      rcases (by simpa using hother) with rfl | rfl
      · exact ⟨_, _, hx, hy, hnames⟩
      · exact ⟨_, _, hx, hb, .names _ [] (by decide)⟩
    · intro other hother
      obtain rfl := List.mem_singleton.1 hother
      exact ⟨_, _, hy, hb, .names _ [] (by decide)⟩
  case applied => decide +kernel

end Override

end LayeredConfig
