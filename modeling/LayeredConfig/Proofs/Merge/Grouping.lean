import LayeredConfig.Proofs.Merge.Lookup

set_option autoImplicit false

/-!
# Grouping three documents

Merging from the left and merging from the right differ only where a document in the middle has
something other than an object between two objects. From the left it wipes what the first document
has there; from the right it is wiped itself, and the outer two are merged.
-/
namespace LayeredConfig.Node

variable {first middle last left right node child value : Node} {key : String}
  {keys rest : List String}

theorem sizeOf_lt_of_child? (h : node.child? key = some child) : sizeOf child < sizeOf node := by
  cases node with
  | object fields =>
    have hentry : (key, child) ∈ fields := Keyed.mem_of_find? h
    have hfields : sizeOf (key, child) < sizeOf fields := List.sizeOf_lt_of_mem hentry
    simp only [Prod.mk.sizeOf_spec] at hfields
    simp only [object.sizeOf_spec]
    omega
  | null | scalar text | array items => simp [child?, fields?] at h

@[elab_as_elim]
theorem child_induction {motive : Node → Prop}
    (step : ∀ node, (∀ key child, node.child? key = some child → motive child) → motive node)
    (node : Node) : motive node := by
  apply step
  intro key child hchild
  have hsmaller : sizeOf child < sizeOf node := sizeOf_lt_of_child? hchild
  exact child_induction step child
termination_by sizeOf node

theorem exists_fields_of_kind (h : node.kind = .object) : ∃ fields, node = .object fields := by
  cases node with
  | object fields => exact ⟨fields, rfl⟩
  | null | scalar text | array items => simp [kind] at h

theorem eq_of_child?_eq (hleft : left.Ordered) (hright : right.Ordered)
    (hlkind : left.kind = .object) (hrkind : right.kind = .object)
    (h : ∀ key, left.child? key = right.child? key) : left = right := by
  obtain ⟨fields, rfl⟩ := exists_fields_of_kind hlkind
  obtain ⟨others, rfl⟩ := exists_fields_of_kind hrkind
  have hfields : Keyed.Ascending fields := (ordered_object.1 hleft).1
  have hothers : Keyed.Ascending others := (ordered_object.1 hright).1
  rw [Keyed.eq_of_find?_eq hfields hothers h]

/-! ## Merging keeps the order of the keys -/

theorem ascending_combineFields {base : Keyed Node} (overlay : Keyed Node)
    (h : Keyed.Ascending base) : Keyed.Ascending (combineFields base overlay) := by
  induction overlay generalizing base with
  | nil => simpa [combineFields] using h
  | cons entry rest ih =>
    obtain ⟨k, v⟩ := entry
    rw [combineFields]
    exact ih (Keyed.ascending_insert k _ h)

theorem child?_combine_cases (ho : right.Ordered) (hkind : right.kind = .object)
    (h : (combine left right).child? key = some value) :
    left.child? key = some value ∨ right.child? key = some value ∨
      ∃ old fresh, left.child? key = some old ∧ right.child? key = some fresh ∧
        combine old fresh = value := by
  rw [child?_combine left ho hkind] at h
  cases hright : right.child? key with
  | none =>
    rw [hright] at h
    exact .inl h
  | some fresh =>
    rw [hright] at h
    cases hleft : left.child? key with
    | none =>
      rw [hleft] at h
      exact .inr (.inl h)
    | some old =>
      rw [hleft] at h
      exact .inr (.inr ⟨old, fresh, rfl, rfl, Option.some.inj h⟩)

theorem Ordered.combine (hleft : left.Ordered) (hright : right.Ordered) :
    (combine left right).Ordered := by
  induction right using child_induction generalizing left with
  | step right ih =>
    by_cases hrkind : right.kind = .object
    · by_cases hlkind : left.kind = .object
      · obtain ⟨base, rfl⟩ := exists_fields_of_kind hlkind
        obtain ⟨overlay, rfl⟩ := exists_fields_of_kind hrkind
        have hascending : Keyed.Ascending (combineFields base overlay) :=
          ascending_combineFields overlay (ordered_object.1 hleft).1
        rw [Node.combine, ordered_object]
        refine ⟨hascending, ?_⟩
        rintro ⟨key, value⟩ hentry
        have hvalue : (Node.combine (object base) (object overlay)).child? key = some value := by
          rw [Node.combine]
          exact Keyed.find?_of_mem hascending hentry
        rcases child?_combine_cases hright rfl hvalue with hold | hnew | hboth
        · exact hleft.child? hold
        · exact hright.child? hnew
        · obtain ⟨old, fresh, hold, hfresh, rfl⟩ := hboth
          exact ih key fresh hfresh (hleft.child? hold) (hright.child? hfresh)
      · rw [combine_of_left hlkind]
        exact hright
    · rw [combine_of_right left hrkind]
      exact hright

/-! ## The two groupings -/

/-- It makes no difference which two of the documents are merged first. -/
def Regroups (first middle last : Node) : Prop :=
  combine (combine first middle) last = combine first (combine middle last)

/-- All three documents reach the keys, the outer two with objects and the middle one with
something else. -/
structure Interrupted (first middle last : Node) (keys : List String) (before after : Node) :
    Prop where
  first_reaches : first.lookup? keys = some before
  middle_reaches : ∃ between, middle.lookup? keys = some between ∧ between.kind ≠ .object
  last_reaches : last.lookup? keys = some after
  before_kind : before.kind = .object
  after_kind : after.kind = .object

variable {before after : Node}

theorem regroups_of_last (first middle : Node) (h : last.kind ≠ .object) :
    Regroups first middle last := by
  unfold Regroups
  rw [combine_of_right _ h, combine_of_right _ h, combine_of_right _ h]

/-- Something other than an object in the middle goes away, and with it, from the left, the first
document. -/
theorem regroups_iff_of_middle (h : middle.kind ≠ .object) :
    Regroups first middle last ↔ combine first last = last := by
  unfold Regroups
  rw [combine_of_right first h, combine_of_left h]
  exact eq_comm

theorem child?_groupings_iff (hmiddle : middle.Ordered) (hlast : last.Ordered)
    (hmkind : middle.kind = .object) (hlkind : last.kind = .object) (key : String) :
    (combine (combine first middle) last).child? key =
        (combine first (combine middle last)).child? key ↔
      ∀ x y z, first.child? key = some x → middle.child? key = some y →
        last.child? key = some z → Regroups x y z := by
  have hkind : (combine middle last).kind = .object := by rw [kind_combine, hlkind]
  rw [child?_combine _ hlast hlkind, child?_combine _ hmiddle hmkind,
    child?_combine _ (hmiddle.combine hlast) hkind, child?_combine _ hlast hlkind]
  -- A child that is missing somewhere leaves only two to merge.
  cases first.child? key <;> cases middle.child? key <;> cases last.child? key <;> simp [Regroups]

theorem regroups_iff_children (hfirst : first.Ordered) (hmiddle : middle.Ordered)
    (hlast : last.Ordered) (hmkind : middle.kind = .object) (hlkind : last.kind = .object) :
    Regroups first middle last ↔
      ∀ key x y z, first.child? key = some x → middle.child? key = some y →
        last.child? key = some z → Regroups x y z := by
  constructor
  · intro h key
    exact (child?_groupings_iff hmiddle hlast hmkind hlkind key).1 (congrArg (·.child? key) h)
  · intro h
    apply eq_of_child?_eq
    · exact (hfirst.combine hmiddle).combine hlast
    · exact hfirst.combine (hmiddle.combine hlast)
    · rw [kind_combine, hlkind]
    · rw [kind_combine, kind_combine, hlkind]
    · intro key
      exact (child?_groupings_iff hmiddle hlast hmkind hlkind key).2 (h key)

theorem interrupted_nil : Interrupted first middle last [] before after ↔
    first = before ∧ last = after ∧ first.kind = .object ∧ middle.kind ≠ .object ∧
      last.kind = .object := by
  constructor
  · rintro ⟨hfirst, ⟨between, hbetween, hkind⟩, hlast, hbefore, hafter⟩
    obtain rfl : first = before := Option.some.inj hfirst
    obtain rfl : middle = between := Option.some.inj hbetween
    obtain rfl : last = after := Option.some.inj hlast
    exact ⟨rfl, rfl, hbefore, hkind, hafter⟩
  · rintro ⟨rfl, rfl, hbefore, hkind, hafter⟩
    exact ⟨rfl, ⟨middle, rfl, hkind⟩, rfl, hbefore, hafter⟩

theorem interrupted_cons : Interrupted first middle last (key :: rest) before after ↔
    ∃ x y z, first.child? key = some x ∧ middle.child? key = some y ∧ last.child? key = some z ∧
      Interrupted x y z rest before after := by
  constructor
  · rintro ⟨hfirst, ⟨between, hbetween, hkind⟩, hlast, hbefore, hafter⟩
    obtain ⟨x, hx, hfirst⟩ := Option.bind_eq_some_iff.1 (lookup?_cons .. ▸ hfirst)
    obtain ⟨y, hy, hmiddle⟩ := Option.bind_eq_some_iff.1 (lookup?_cons .. ▸ hbetween)
    obtain ⟨z, hz, hlast⟩ := Option.bind_eq_some_iff.1 (lookup?_cons .. ▸ hlast)
    exact ⟨x, y, z, hx, hy, hz, hfirst, ⟨between, hmiddle, hkind⟩, hlast, hbefore, hafter⟩
  · rintro ⟨x, y, z, hx, hy, hz, hfirst, ⟨between, hmiddle, hkind⟩, hlast, hbefore, hafter⟩
    refine ⟨?_, ⟨between, ?_, hkind⟩, ?_, hbefore, hafter⟩
    · rw [lookup?_cons, hx]
      exact hfirst
    · rw [lookup?_cons, hy]
      exact hmiddle
    · rw [lookup?_cons, hz]
      exact hlast

theorem Interrupted.last_kind (h : Interrupted first middle last keys before after) :
    last.kind = .object := by
  cases keys with
  | nil => exact (interrupted_nil.1 h).2.2.2.2
  | cons key rest =>
    obtain ⟨x, y, z, -, -, hz, -⟩ := interrupted_cons.1 h
    exact kind_of_child? hz

theorem Interrupted.keys_eq_nil (h : Interrupted first middle last keys before after)
    (hmiddle : middle.kind ≠ .object) : keys = [] := by
  cases keys with
  | nil => rfl
  | cons key rest =>
    obtain ⟨x, y, z, -, hy, -⟩ := interrupted_cons.1 h
    exact absurd (kind_of_child? hy) hmiddle

theorem regroups_iff_root (hmiddle : middle.kind ≠ .object) : Regroups first middle last ↔
    ∀ keys before after, Interrupted first middle last keys before after →
      combine before after = after := by
  rw [regroups_iff_of_middle hmiddle]
  constructor
  · intro h keys before after hinterrupted
    obtain rfl : keys = [] := hinterrupted.keys_eq_nil hmiddle
    obtain ⟨rfl, rfl, -⟩ := interrupted_nil.1 hinterrupted
    exact h
  · intro h
    by_cases hfkind : first.kind = .object
    · by_cases hlkind : last.kind = .object
      · exact h [] first last (interrupted_nil.2 ⟨rfl, rfl, hfkind, hmiddle, hlkind⟩)
      · exact combine_of_right first hlkind
    · exact combine_of_left hfkind last

theorem regroups_iff_interrupted (hfirst : first.Ordered) (hmiddle : middle.Ordered)
    (hlast : last.Ordered) : Regroups first middle last ↔
      ∀ keys before after, Interrupted first middle last keys before after →
        combine before after = after := by
  -- Where the later two are objects the question goes on at each key that all three share;
  -- everywhere else it is decided on the spot.
  induction first using child_induction generalizing middle last with
  | step first ih =>
    by_cases hmkind : middle.kind = .object
    · by_cases hlkind : last.kind = .object
      · have hchildren : ∀ key x y z, first.child? key = some x → middle.child? key = some y →
            last.child? key = some z → (Regroups x y z ↔ ∀ keys before after,
              Interrupted x y z keys before after → combine before after = after) := by
          intro key x y z hx hy hz
          exact ih key x hx (hfirst.child? hx) (hmiddle.child? hy) (hlast.child? hz)
        rw [regroups_iff_children hfirst hmiddle hlast hmkind hlkind]
        constructor
        · intro h keys before after hinterrupted
          cases keys with
          | nil => exact absurd hmkind (interrupted_nil.1 hinterrupted).2.2.2.1
          | cons key rest =>
            obtain ⟨x, y, z, hx, hy, hz, hbelow⟩ := interrupted_cons.1 hinterrupted
            exact (hchildren key x y z hx hy hz).1 (h key x y z hx hy hz) rest before after hbelow
        · intro h key x y z hx hy hz
          rw [hchildren key x y z hx hy hz]
          intro rest before after hbelow
          exact h (key :: rest) before after (interrupted_cons.2 ⟨x, y, z, hx, hy, hz, hbelow⟩)
      · constructor
        · intro _ keys before after hinterrupted
          exact absurd hinterrupted.last_kind hlkind
        · intro _
          exact regroups_of_last first middle hlkind
    · exact regroups_iff_root hmkind

/-- The two groupings agree exactly if, wherever a document in the middle interrupts two objects,
the object behind it already says all that the one before it does. -/
theorem combine_assoc_iff {a b c : Node} (ha : a.Ordered) (hb : b.Ordered) (hc : c.Ordered) :
    (combine (combine a b) c = combine a (combine b c) ↔
      ∀ keys before after, Interrupted a b c keys before after → combine before after = after) ∧
    ((∀ keys before after, ¬ Interrupted a b c keys before after) →
      combine (combine a b) c = combine a (combine b c)) := by
  have hiff := regroups_iff_interrupted ha hb hc
  refine ⟨hiff, ?_⟩
  intro hnone
  apply hiff.2
  intro keys before after hinterrupted
  exact absurd hinterrupted (hnone keys before after)

/-- A null in the middle takes away `q` only if it comes after the first document. -/
theorem combine_assoc_iff_null_between :
    Node.Ordered (.object [("x", .object [("q", .scalar "1")])]) ∧
    Node.Ordered (.object [("x", .null)]) ∧
    Node.Ordered (.object [("x", .object [("p", .scalar "2")])]) ∧
    combine (combine (.object [("x", .object [("q", .scalar "1")])]) (.object [("x", .null)]))
        (.object [("x", .object [("p", .scalar "2")])]) ≠
      combine (.object [("x", .object [("q", .scalar "1")])])
        (combine (.object [("x", .null)]) (.object [("x", .object [("p", .scalar "2")])])) := by
  refine ⟨?first, ?middle, ?last, ?differ⟩
  case differ =>
    intro hassoc
    have hinterrupted : Interrupted (.object [("x", .object [("q", .scalar "1")])])
        (.object [("x", .null)]) (.object [("x", .object [("p", .scalar "2")])]) ["x"]
        (.object [("q", .scalar "1")]) (.object [("p", .scalar "2")]) :=
      ⟨rfl, ⟨.null, rfl, by decide⟩, rfl, rfl, rfl⟩
    have hsame := (combine_assoc_iff ?first ?middle ?last).1.1 hassoc _ _ _ hinterrupted
    revert hsame
    decide +kernel
  case first => decide
  case middle => decide
  case last => decide

end LayeredConfig.Node
