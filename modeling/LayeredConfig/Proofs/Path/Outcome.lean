import LayeredConfig.Proofs.Path.WriteFailure

set_option autoImplicit false

/-!
# Where a write stops

Whether a write succeeds, and the reason if not, can be told from the tree before it. The containers
on its way are the nodes that stand there, and null where there is none, and the first of them that
does not admit the next step is the one to blame. What is written plays no part.
-/
namespace LayeredConfig

namespace Node

/-- The node at the end of a walk. A missing child counts as null, and a place past an end as the
index just behind the items of the array met there. -/
def met (node : Node) : List Step → Node
  | [] => node
  | step :: rest => (node.slot step).met rest

/-- Objects and null can be entered by a name. Arrays can be entered by an index that is at most their
length, and null by the index of a first item. -/
def Admits (node : Node) : Step → Prop
  | .property _ => node = .null ∨ node.kind = .object
  | .index place => (node = .null ∧ place.resolve 0 = 0) ∨
      ∃ items, node = .array items ∧ place.resolve items.length ≤ items.length

/-- Each container on the way admits the step that is taken from it. -/
def Passes (node : Node) (steps : List Step) : Prop :=
  ∀ front step back, steps = front ++ step :: back → (node.met front).Admits step

/-- Why the container does not admit the step of the segment; `parent` is the text consumed up to the
container. -/
inductive Refuses (node : Node) (parent : String) (segment : Segment) : WriteError → Prop where
  | noObject {name : String} : segment.step = .property name →
      node.kind = .scalar ∨ node.kind = .array →
      Refuses node parent segment (.unexpectedNode parent segment.incoming .object node.kind)
  | noArray {place : Place} : segment.step = .index place →
      node.kind = .scalar ∨ node.kind = .object →
      Refuses node parent segment (.unexpectedNode parent segment.incoming .array node.kind)
  | beyondEnd {index : Nat} {items : List Node} : segment.step = .index (.at index) →
      node = .array items → items.length < index →
      Refuses node parent segment (.outOfBounds parent index items.length)
  | beyondNull {index : Nat} : segment.step = .index (.at index) → node = .null → 0 < index →
      Refuses node parent segment (.outOfBounds parent index 0)

variable {node value : Node} {step : Step} {steps rest : List Step} {parent : String}
variable {segment : Segment} {error : WriteError}

theorem opens_iff_admits : node.opens step ↔ node.Admits step := by
  cases step with
  | property name => cases node <;> simp [opens, Admits, openFields?, kind]
  | index place => cases node <;> simp [opens, Admits, openItems?]

theorem refuses_iff : node.Refuses parent segment error ↔
    ¬ node.opens segment.step ∧ error = node.refusal parent segment := by
  rw [opens_iff_admits]
  constructor
  · rintro (⟨hstep, hkind⟩ | ⟨hstep, hkind⟩ | ⟨hstep, rfl, hlt⟩ | ⟨hstep, rfl, hlt⟩)
    · cases node <;> simp_all [Admits, refusal, kind]
    · cases node <;> simp_all [Admits, refusal, openItems?, kind]
    · simpa [Admits, refusal, hstep, openItems?] using hlt
    · simpa [Admits, refusal, hstep, openItems?] using Nat.ne_of_gt hlt
  · rintro ⟨hadmits, rfl⟩
    unfold refusal
    cases hstep : segment.step with
    | property name =>
      refine .noObject hstep ?_
      cases node <;> simp_all [Admits, kind]
    | index place =>
      cases node with
      | scalar text => exact .noArray hstep (.inl rfl)
      | object fields => exact .noArray hstep (.inr rfl)
      | null =>
        cases place with
        | pastEnd => simp [Admits, hstep, Place.resolve] at hadmits
        | «at» index =>
          have hne : index ≠ 0 := fun hzero => hadmits (by simp [Admits, hstep, hzero])
          exact .beyondNull hstep rfl (Nat.pos_of_ne_zero hne)
      | array items =>
        cases place with
        | pastEnd => simp [Admits, hstep, Place.resolve] at hadmits
        | «at» index =>
          have hnot : ¬ index ≤ items.length := fun hle => hadmits (by simpa [Admits, hstep] using hle)
          exact .beyondEnd hstep rfl (Nat.lt_of_not_le hnot)

theorem met_null (steps : List Step) : Node.null.met steps = .null := by
  induction steps with
  | nil => rfl
  | cons step rest ih => rw [met, slot_null, ih]

theorem met_eq (node : Node) (steps : List Step) :
    node.met steps = (node.follow? steps).getD .null := by
  induction steps generalizing node with
  | nil => rfl
  | cons step rest ih =>
    rw [met, slot_eq, follow?_cons]
    cases node.step? step with
    | some child => exact ih child
    | none => exact met_null rest

theorem passes_nil (node : Node) : node.Passes [] := by
  intro front step back h
  simp at h

theorem passes_cons :
    node.Passes (step :: rest) ↔ node.Admits step ∧ (node.slot step).Passes rest := by
  constructor
  · intro h
    refine ⟨h [] step rest rfl, fun front next back hrest => ?_⟩
    exact h (step :: front) next back (congrArg (step :: ·) hrest)
  · rintro ⟨hadmits, hrest⟩ front next back h
    cases front with
    | nil =>
      obtain ⟨rfl, -⟩ := List.cons.inj h
      exact hadmits
    | cons first front =>
      obtain ⟨rfl, hsplit⟩ := List.cons.inj h
      exact hrest front next back hsplit

theorem isSome_write?_iff : (node.write? value steps).isSome ↔ node.Passes steps := by
  induction steps generalizing node with
  | nil => simp [write?, passes_nil]
  | cons step rest ih =>
    rw [passes_cons, ← ih, ← opens_iff_admits]
    by_cases h : node.opens step <;> simp [write?, h]

end Node

namespace Path

variable {path : Path} {value node root : Node} {parent : String} {segments : List Segment}
variable {error : WriteError}

theorem error_writeBelow_eq_none_iff :
    (writeBelow value parent node segments).error = none ↔
      node.Passes (segments.map Segment.step) := by
  have hpasses : (node.write? value (segments.map Segment.step)).isSome ↔
      node.Passes (segments.map Segment.step) := Node.isSome_write?_iff
  have hwrite : ∀ tree, writeBelow value parent node segments = ⟨tree, none⟩ ↔
      node.write? value (segments.map Segment.step) = some tree := fun tree => writeBelow_eq_iff
  rw [← hpasses, Option.isSome_iff_exists]
  simp only [← hwrite]
  generalize writeBelow value parent node segments = written
  obtain ⟨tree, error⟩ := written
  simp

theorem exists_refusal_of_error (h : (writeBelow value parent node segments).error = some error) :
    ∃ before segment after place, segments = before ++ segment :: after ∧
      node.Passes (before.map Segment.step) ∧
      (parent :: segments.map Segment.incoming)[before.length]? = some place ∧
      (node.met (before.map Segment.step)).Refuses place segment error := by
  induction segments generalizing node parent with
  | nil => simp [writeBelow] at h
  | cons first rest ih =>
    by_cases hopens : node.opens first.step
    · rw [writeBelow_of_opens hopens] at h
      obtain ⟨before, segment, after, place, rfl, hpasses, hplace, hrefuses⟩ := ih h
      refine ⟨first :: before, segment, after, place, rfl, ?_, by simpa using hplace, hrefuses⟩
      exact Node.passes_cons.2 ⟨Node.opens_iff_admits.1 hopens, hpasses⟩
    · rw [writeBelow_of_not_opens hopens] at h
      obtain rfl : node.refusal parent first = error := by simpa using h
      exact ⟨[], first, rest, parent, rfl, Node.passes_nil node, rfl,
        Node.refuses_iff.2 ⟨hopens, rfl⟩⟩

theorem error_writeBelow_of_refuses {before after : List Segment} {segment : Segment} {place : String}
    (hpasses : node.Passes (before.map Segment.step))
    (hplace : (parent :: (before ++ segment :: after).map Segment.incoming)[before.length]? =
      some place)
    (hrefuses : (node.met (before.map Segment.step)).Refuses place segment error) :
    (writeBelow value parent node (before ++ segment :: after)).error = some error := by
  induction before generalizing node parent with
  | nil =>
    obtain rfl : parent = place := Option.some.inj hplace
    obtain ⟨hopens, rfl⟩ := Node.refuses_iff.1 hrefuses
    exact congrArg Written.error (writeBelow_of_not_opens hopens value parent after)
  | cons first before ih =>
    obtain ⟨hadmits, hrest⟩ := Node.passes_cons.1 hpasses
    rw [List.cons_append, writeBelow_of_opens (Node.opens_iff_admits.2 hadmits)]
    exact ih hrest (by simpa using hplace) hrefuses

/-- A write succeeds exactly if each container on its way admits the step that is taken from it, and
fails for the reason of the first container that does not. The walk goes through the tree as it was,
where its containers are what the parts of the path in front of its steps read, and does not depend
on the value. No place past an end is out of bounds. -/
theorem write_outcome (h : path.steps ≠ []) (root : Node) :
    (∀ value other, (path.write root value).error = (path.write root other).error) ∧
    (∀ value, (path.write root value).error = none ↔ root.Passes path.steps) ∧
    (∀ value error, (path.write root value).error = some error ↔
      ∃ before segment after parent, path.segments = before ++ segment :: after ∧
        root.Passes (before.map Segment.step) ∧
        path.incomings[before.length]? = some parent ∧
        (root.met (before.map Segment.step)).Refuses parent segment error) ∧
    (∀ value parent index length,
      (path.write root value).error = some (.outOfBounds parent index length) →
        length < index ∧ .index (.at index) ∈ path.steps) ∧
    ∀ own : Path, root.met own.steps = (own.read root).getD .null := by
  have herror : ∀ value error, (path.write root value).error = some error ↔
      ∃ before segment after parent, path.segments = before ++ segment :: after ∧
        root.Passes (before.map Segment.step) ∧
        path.incomings[before.length]? = some parent ∧
        (root.met (before.map Segment.step)).Refuses parent segment error := by
    intro value error
    rw [write_of_steps_ne_nil h]
    constructor
    · exact exists_refusal_of_error
    · rintro ⟨before, segment, after, parent, hsplit, hpasses, hparent, hrefuses⟩
      rw [incomings, hsplit] at hparent
      rw [hsplit]
      exact error_writeBelow_of_refuses hpasses hparent hrefuses
  refine ⟨?_, ?_, herror, ?_, fun own => Node.met_eq root own.steps⟩
  · intro value other
    exact Option.ext fun error => (herror value error).trans (herror other error).symm
  · intro value
    rw [write_of_steps_ne_nil h]
    exact error_writeBelow_eq_none_iff
  · intro value parent index length hwrite
    obtain ⟨before, segment, after, place, hsplit, -, -, hrefuses⟩ := (herror _ _).1 hwrite
    have hmem : segment.step ∈ path.steps := by simp [steps, hsplit]
    cases hrefuses with
    | beyondEnd hstep _ hlt => exact ⟨hlt, hstep ▸ hmem⟩
    | beyondNull hstep _ hlt => exact ⟨hlt, hstep ▸ hmem⟩

/-- Behind the item that a write would append all is null, with no index in bounds but zero. -/
theorem write_outcome_behind_appended :
    ∃ path : Path,
      path.steps = [.property "a", .index .pastEnd, .property "b", .index (.at 2)] ∧
      path.steps ≠ [] ∧
      (∀ value, (path.write (.object [("a", .array [.scalar "x"])]) value).error =
        some (.outOfBounds "a[.length].b" 2 0)) ∧
      ¬ Node.Passes (.object [("a", .array [.scalar "x"])]) path.steps ∧
      0 < 2 ∧ .index (.at 2) ∈ path.steps := by
  let path : Path := ⟨"a[.length].b[2]", "a[.length].b[2]",
    [⟨.property "a", "a", "[.length].b[2]"⟩, ⟨.index .pastEnd, "a[.length]", "b[2]"⟩,
      ⟨.property "b", "a[.length].b", "[2]"⟩, ⟨.index (.at 2), "a[.length].b[2]", ""⟩]⟩
  have hne : path.steps ≠ [] := by simp [path, steps]
  have herror : (path.write (.object [("a", .array [.scalar "x"])]) .null).error =
      some (.outOfBounds "a[.length].b" 2 0) := rfl
  obtain ⟨hvalues, hnone, -, hbounds, -⟩ := write_outcome hne (.object [("a", .array [.scalar "x"])])
  refine ⟨path, rfl, hne, fun value => (hvalues value .null).trans herror, fun hpasses => ?_,
    hbounds _ _ _ _ herror⟩
  rw [(hnone .null).2 hpasses] at herror
  cases herror

end Path

end LayeredConfig
