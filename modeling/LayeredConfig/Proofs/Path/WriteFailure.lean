import LayeredConfig.Proofs.Path.WriteRead

set_option autoImplicit false

/-!
# What a failed write leaves

Once a write has created something, all it meets is null, and a null container blocks nothing but an
index greater than zero. So a write that fails for another reason has created nothing, and one that
fails so has only prepared the way to an empty array.
-/
namespace LayeredConfig

namespace Node

/-- `new` is `old` with containers along `path`, where `old` has null or nothing or a container of
the same kind, and with an empty array at its end. -/
structure Prepared (old : Node) (path : List Step) (new : Node) : Prop where
  stop : new.follow? path = some (.array [])
  off_path : ∀ steps, ¬ steps <+: path → new.follow? steps = old.follow? steps
  on_path : ∀ steps, steps <+: path → ∃ container, new.follow? steps = some container ∧
    (container.kind = .object ∨ container.kind = .array) ∧
    ∀ node, old.follow? steps = some node → node = .null ∨ node.kind = container.kind
  same : old.Ordered → old.follow? path = some (.array []) → new = old

theorem Prepared.stopped {node : Node} (h : node.openItems? = some []) :
    node.Prepared [] (.array []) where
  stop := rfl
  off_path steps hsteps := by
    obtain ⟨first, rest, rfl⟩ := List.exists_cons_of_ne_nil (mt List.prefix_nil.2 hsteps)
    rw [follow?_cons, follow?_cons, step?_of_openItems?_nil rfl, step?_of_openItems?_nil h]
  on_path steps hsteps := by
    obtain rfl := List.prefix_nil.1 hsteps
    refine ⟨_, rfl, .inr rfl, ?_⟩
    rintro old ⟨⟩
    cases node <;> simp_all [openItems?, kind]
  same _ hread := (Option.some.inj hread).symm

theorem Prepared.put {node child : Node} {step : Step} {path : List Step} (hopens : node.opens step)
    (h : (node.slot step).Prepared path child) :
    node.Prepared (step.resolve node :: path) (node.put step child) where
  stop := by
    rw [follow?_put_self hopens]
    exact h.stop
  off_path _ hsteps :=
    follow?_put_of_not_prefix hopens hsteps fun rest _ hrest => h.off_path rest hrest
  on_path steps hsteps := by
    cases steps with
    | nil =>
      refine ⟨_, rfl, ?_, ?_⟩
      · rw [put_kind]
        cases step <;> simp [Step.container]
      · rintro old ⟨⟩
        rw [put_kind]
        exact kind_of_opens hopens
    | cons first rest =>
      obtain ⟨rfl, hrest⟩ := List.cons_prefix_cons.1 hsteps
      obtain ⟨container, hcontainer, hkind, hold⟩ := h.on_path rest hrest
      refine ⟨container, ?_, hkind, fun old hread => hold old (follow?_slot_of_some hread)⟩
      rw [follow?_put_self hopens]
      exact hcontainer
  same ho hread := by
    obtain ⟨below, hbelow, -⟩ := Option.bind_eq_some_iff.1 (follow?_cons .. ▸ hread)
    have hslot := slot_of_step? hbelow
    rw [h.same (ho.slot step) (follow?_slot_of_some hread), hslot]
    exact put_of_step? ho hopens hbelow

variable {old new node : Node} {path steps : List Step}

theorem Prepared.isSome (h : old.Prepared path new) (hread : (old.follow? steps).isSome) :
    (new.follow? steps).isSome := by
  by_cases hsteps : steps <+: path
  · obtain ⟨container, hcontainer, -⟩ := h.on_path steps hsteps
    exact Option.isSome_of_eq_some hcontainer
  · rw [h.off_path steps hsteps]
    exact hread

theorem Prepared.kind_eq (h : old.Prepared path new) (hread : old.follow? steps = some node)
    (hnull : node ≠ .null) : ∃ after, new.follow? steps = some after ∧ after.kind = node.kind := by
  by_cases hsteps : steps <+: path
  · obtain ⟨container, hcontainer, -, hold⟩ := h.on_path steps hsteps
    exact ⟨container, hcontainer, ((hold node hread).resolve_left hnull).symm⟩
  · exact ⟨node, (h.off_path steps hsteps).trans hread, rfl⟩

theorem Prepared.scalar {text : String} (h : old.Prepared path new)
    (hread : old.follow? steps = some (.scalar text)) :
    new.follow? steps = some (.scalar text) := by
  by_cases hsteps : steps <+: path
  · obtain ⟨container, -, hkind, hold⟩ := h.on_path steps hsteps
    rcases hold _ hread with hnull | hsame
    · simp at hnull
    · rw [← hsame] at hkind
      simp [kind] at hkind
  · exact (h.off_path steps hsteps).trans hread

/-- Where the kind differs there was null or nothing on the path, and there is a container now. -/
theorem Prepared.made (h : old.Prepared path new) (hread : new.follow? steps = some node)
    (hkind : (old.follow? steps).map kind ≠ some node.kind) :
    steps <+: path ∧ (old.follow? steps = none ∨ old.follow? steps = some .null) ∧
      (node.kind = .object ∨ node.kind = .array) := by
  by_cases hsteps : steps <+: path
  · obtain ⟨container, hcontainer, hmade, hold⟩ := h.on_path steps hsteps
    obtain rfl : container = node := Option.some.inj (hcontainer.symm.trans hread)
    refine ⟨hsteps, ?_, hmade⟩
    cases hbefore : old.follow? steps with
    | none => exact .inl rfl
    | some before =>
      rcases hold before hbefore with rfl | hsame
      · exact .inr rfl
      · exact absurd (by rw [hbefore, Option.map_some, hsame]) hkind
  · rw [h.off_path steps hsteps] at hread
    exact absurd (by rw [hread, Option.map_some]) hkind

end Node

namespace Path

variable {value node tree : Node} {parent : String} {segments : List Segment} {error : WriteError}

/-- A write fails at its first step, or it fails below and keeps what is made there. -/
theorem writeBelow_cons_error {segment : Segment} {rest : List Segment}
    (h : writeBelow value parent node (segment :: rest) = ⟨tree, some error⟩) :
    (¬ node.opens segment.step ∧ tree = node.blocked segment.step ∧
      error = node.refusal parent segment) ∨
    (node.opens segment.step ∧ ∃ child,
      writeBelow value segment.incoming (node.slot segment.step) rest = ⟨child, some error⟩ ∧
        tree = node.put segment.step child) := by
  by_cases hopens : node.opens segment.step
  · rw [writeBelow_of_opens hopens] at h
    generalize writeBelow value segment.incoming (node.slot segment.step) rest = below at h
    obtain ⟨child, cause⟩ := below
    obtain ⟨htree, rfl⟩ : node.put segment.step child = tree ∧ cause = some error := by
      simpa using h
    exact .inr ⟨hopens, child, rfl, htree.symm⟩
  · rw [writeBelow_of_not_opens hopens] at h
    obtain ⟨htree, herror⟩ :
        node.blocked segment.step = tree ∧ node.refusal parent segment = error := by simpa using h
    exact .inl ⟨hopens, htree.symm, herror.symm⟩

theorem writeBelow_null_error (h : writeBelow value parent .null segments = ⟨tree, some error⟩) :
    ∃ path index, error = .outOfBounds path index 0 := by
  induction segments generalizing parent tree with
  | nil => simp [writeBelow] at h
  | cons segment rest ih =>
    rcases writeBelow_cons_error h with ⟨hopens, -, rfl⟩ | ⟨-, child, hchild, -⟩
    · unfold Node.opens at hopens
      unfold Node.refusal
      cases hstep : segment.step with
      | property name => simp [hstep, Node.openFields?] at hopens
      | index place => exact ⟨_, _, rfl⟩
    · rw [Node.slot_null] at hchild
      exact ih hchild

theorem blocked_eq {segment : Segment}
    (h : ∀ path index, node.refusal parent segment ≠ .outOfBounds path index 0) :
    node.blocked segment.step = node := by
  unfold Node.refusal at h
  unfold Node.blocked
  cases hstep : segment.step with
  | property name => rfl
  | index place =>
    cases node with
    | null => exact absurd (by simp [hstep, Node.openItems?]) (h parent (place.resolve 0))
    | scalar text | object fields | array items => rfl

theorem eq_of_writeBelow_error (ho : node.Ordered)
    (h : writeBelow value parent node segments = ⟨tree, some error⟩)
    (herror : ∀ path index, error ≠ .outOfBounds path index 0) : tree = node := by
  induction segments generalizing parent node tree with
  | nil => simp [writeBelow] at h
  | cons segment rest ih =>
    rcases writeBelow_cons_error h with ⟨-, rfl, rfl⟩ | ⟨hopens, child, hchild, rfl⟩
    · exact blocked_eq herror
    · cases hstep : node.step? (segment.step.resolve node) with
      | none =>
        -- Below a missing child all is null, where only an index out of no items fails.
        have hslot : node.slot segment.step = .null := by simp [Node.slot, hstep]
        rw [hslot] at hchild
        obtain ⟨path, index, hcause⟩ := writeBelow_null_error hchild
        exact absurd hcause (herror path index)
      | some below =>
        rw [ih (ho.slot _) hchild, Node.slot_of_step? hstep]
        exact Node.put_of_step? ho hopens hstep

/-- Only an index greater than zero is out of bounds of an array without items. -/
theorem refusal_eq_outOfBounds {segment : Segment} {place : String} {index : Nat}
    (hopens : ¬ node.opens segment.step)
    (h : node.refusal parent segment = .outOfBounds place index 0) :
    segment.step = .index (.at index) ∧ 0 < index ∧ parent = place ∧
      node.openItems? = some [] := by
  unfold Node.refusal at h
  unfold Node.opens at hopens
  cases hstep : segment.step with
  | property name => simp [hstep] at h
  | index target =>
    cases hitems : node.openItems? with
    | none => simp [hstep, hitems] at h
    | some items =>
      obtain ⟨rfl, hindex, hlength⟩ :
          parent = place ∧ target.resolve items.length = index ∧ items.length = 0 := by
        simpa [hstep, hitems] using h
      obtain rfl := List.eq_nil_of_length_eq_zero hlength
      cases target with
      | pastEnd => simp [hstep, hitems, Place.resolve] at hopens
      | «at» own =>
        obtain rfl : own = index := hindex
        have hpos : 0 < own := by simpa [hstep, hitems, Nat.pos_iff_ne_zero] using hopens
        exact ⟨rfl, hpos, rfl, rfl⟩

/-- A write that fails at an array without items has prepared the way to it. -/
theorem prepared_of_writeBelow_outOfBounds {place : String} {index : Nat}
    (h : writeBelow value parent node segments = ⟨tree, some (.outOfBounds place index 0)⟩) :
    ∃ before segment after, segments = before ++ segment :: after ∧
      segment.step = .index (.at index) ∧ 0 < index ∧
      (parent :: segments.map Segment.incoming)[before.length]? = some place ∧
      node.Prepared (node.resolve (before.map Segment.step)) tree := by
  induction segments generalizing parent node tree with
  | nil => simp [writeBelow] at h
  | cons segment rest ih =>
    rcases writeBelow_cons_error h with ⟨hopens, rfl, hcause⟩ | ⟨hopens, child, hchild, rfl⟩
    · obtain ⟨hstep, hpos, hplace, hitems⟩ := refusal_eq_outOfBounds hopens hcause.symm
      refine ⟨[], segment, rest, rfl, hstep, hpos, by simp [hplace], ?_⟩
      have hblocked : node.blocked segment.step = .array [] := by
        simp [Node.blocked, hstep, hitems]
      exact hblocked ▸ .stopped hitems
    · obtain ⟨before, failing, after, rfl, hstep, hpos, hplace, hprepared⟩ := ih hchild
      exact ⟨segment :: before, failing, after, rfl, hstep, hpos, by simpa using hplace,
        hprepared.put hopens⟩

theorem write_of_steps_nil {path : Path} (h : path.steps = []) (root value : Node) :
    path.write root value = ⟨root, some .emptyPath⟩ := by
  have hsegments : path.segments = [] := List.map_eq_nil_iff.1 h
  simp only [write, hsegments]

theorem write_of_steps_ne_nil {path : Path} (h : path.steps ≠ []) (root value : Node) :
    path.write root value = writeBelow value "" root path.segments := by
  unfold write
  cases hsegments : path.segments with
  | nil => exact absurd (by simp [steps, hsegments]) h
  | cons segment rest => rfl

/-- A write that fails changes nothing, unless the reason is an array without items. Then it has
only made containers of what was null or missing on the way to that array: all that was there can
still be read, texts as they were and containers as of the same kind. -/
theorem write_failure_frame {path : Path} {root : Node} (ho : root.Ordered)
    (h : path.write root value = ⟨tree, some error⟩) :
    ((∀ place index, error ≠ .outOfBounds place index 0) → tree = root) ∧
    ∀ place index, error = .outOfBounds place index 0 →
      ∃ before segment after, path.segments = before ++ segment :: after ∧
        segment.step = .index (.at index) ∧ 0 < index ∧
        path.incomings[before.length]? = some place ∧
        let stop := root.resolve (before.map Segment.step)
        tree.follow? stop = some (.array []) ∧
        (∀ steps, ¬ steps <+: stop → tree.follow? steps = root.follow? steps) ∧
        (∀ steps text, root.follow? steps = some (.scalar text) →
          tree.follow? steps = some (.scalar text)) ∧
        (∀ steps, (root.follow? steps).isSome → (tree.follow? steps).isSome) ∧
        (∀ steps old, root.follow? steps = some old → old ≠ .null →
          ∃ new, tree.follow? steps = some new ∧ new.kind = old.kind) ∧
        (∀ steps new, tree.follow? steps = some new →
          (root.follow? steps).map Node.kind ≠ some new.kind →
            steps <+: stop ∧ (root.follow? steps = none ∨ root.follow? steps = some .null) ∧
              (new.kind = .object ∨ new.kind = .array)) ∧
        (root.follow? stop = some (.array []) → tree = root) := by
  unfold write at h
  split at h
  next hnil =>
    obtain ⟨htree, herror⟩ : root = tree ∧ WriteError.emptyPath = error := by simpa using h
    refine ⟨fun _ => htree.symm, fun place index hcause => ?_⟩
    simp [← herror] at hcause
  next segments hsegments =>
    refine ⟨eq_of_writeBelow_error ho h, ?_⟩
    rintro place index rfl
    obtain ⟨before, segment, after, hsplit, hstep, hpos, hplace, hprepared⟩ :=
      prepared_of_writeBelow_outOfBounds h
    exact ⟨before, segment, after, hsplit, hstep, hpos, hplace, hprepared.stop,
      hprepared.off_path, fun _ _ => hprepared.scalar, fun _ => hprepared.isSome,
      fun _ _ => hprepared.kind_eq, fun _ _ => hprepared.made, hprepared.same ho⟩

/-- An index into an array that the write itself has made fails; the other key stays readable. -/
theorem write_failure_frame_missing_array :
    Node.Ordered (.object [("a", .scalar "kept"), ("x", .object [])]) ∧
    ∃ path : Path, path.steps = [.property "x", .property "y", .index (.at 3)] ∧
      path.write (.object [("a", .scalar "kept"), ("x", .object [])]) (.scalar "q") =
        ⟨.object [("a", .scalar "kept"), ("x", .object [("y", .array [])])],
          some (.outOfBounds "x.y" 3 0)⟩ ∧
      Node.follow? (.object [("a", .scalar "kept"), ("x", .object [("y", .array [])])])
        [.property "a"] = some (.scalar "kept") := by
  have ho : Node.Ordered (.object [("a", .scalar "kept"), ("x", .object [])]) := by decide
  refine ⟨ho, ⟨"x.y[3]", "x.y[3]", [⟨.property "x", "x", "y[3]"⟩, ⟨.property "y", "x.y", "[3]"⟩,
    ⟨.index (.at 3), "x.y[3]", ""⟩]⟩, rfl, ?written, ?_⟩
  · rfl
  · obtain ⟨before, segment, after, -, -, -, -, -, -, hscalar, -⟩ :=
      (write_failure_frame ho ?written).2 _ _ rfl
    exact hscalar _ _ rfl

end Path

end LayeredConfig
