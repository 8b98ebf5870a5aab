import LayeredConfig.Proofs.Merge.Grouping

set_option autoImplicit false

/-!
# Documents that come again

A document that was merged is absorbed by the result: merging it once more on the side where it was
merged changes nothing.
-/
namespace LayeredConfig.Node

variable {left right node : Node}

/-- Where the child that is there absorbs every child that comes, the earlier object stays. -/
theorem combine_eq_left (hleft : left.Ordered) (hright : right.Ordered)
    (hlkind : left.kind = .object) (hrkind : right.kind = .object)
    (h : ∀ key value, right.child? key = some value →
      ∃ own, left.child? key = some own ∧ combine own value = own) : combine left right = left := by
  apply eq_of_child?_eq (hleft.combine hright) hleft
  · rw [kind_combine, hrkind]
  · exact hlkind
  · intro key
    rw [child?_combine left hright hrkind]
    cases hvalue : right.child? key with
    | none => rfl
    | some value =>
      obtain ⟨own, hown, hsame⟩ := h key value hvalue
      simp only [hown, Option.elim_some, hsame]

/-- Where the child that comes absorbs every child that is there, the later object stays. -/
theorem combine_eq_right (hleft : left.Ordered) (hright : right.Ordered)
    (hrkind : right.kind = .object)
    (h : ∀ key own, left.child? key = some own →
      ∃ value, right.child? key = some value ∧ combine own value = value) :
    combine left right = right := by
  apply eq_of_child?_eq (hleft.combine hright) hright
  · rw [kind_combine, hrkind]
  · exact hrkind
  · intro key
    rw [child?_combine left hright hrkind]
    cases hown : left.child? key with
    | none => cases right.child? key <;> rfl
    | some own =>
      obtain ⟨value, hvalue, hsame⟩ := h key own hown
      simp only [hvalue, Option.elim_some, hsame]

theorem combine_self (h : node.Ordered) : combine node node = node := by
  induction node using child_induction with
  | step node ih =>
    by_cases hkind : node.kind = .object
    · apply combine_eq_left h h hkind hkind
      intro key child hchild
      exact ⟨child, hchild, ih key child hchild (h.child? hchild)⟩
    · exact combine_of_right node hkind

theorem combine_combine_self (hleft : left.Ordered) (hright : right.Ordered) :
    combine (combine left right) right = combine left right := by
  induction right using child_induction generalizing left with
  | step right ih =>
    by_cases hkind : right.kind = .object
    · have hmerged : (combine left right).kind = .object := by rw [kind_combine, hkind]
      apply combine_eq_left (hleft.combine hright) hright hmerged hkind
      intro key value hvalue
      have hvalueOrdered : value.Ordered := hright.child? hvalue
      rw [child?_combine left hright hkind, hvalue]
      -- The child that is there already is the later document's own, or a merge with it.
      cases hown : left.child? key with
      | none => exact ⟨value, rfl, combine_self hvalueOrdered⟩
      | some own => exact ⟨_, rfl, ih key value hvalue (hleft.child? hown) hvalueOrdered⟩
    · rw [combine_of_right left hkind, combine_of_right right hkind]

theorem combine_self_combine (hleft : left.Ordered) (hright : right.Ordered) :
    combine left (combine left right) = combine left right := by
  induction right using child_induction generalizing left with
  | step right ih =>
    by_cases hkind : right.kind = .object
    · have hmerged : (combine left right).kind = .object := by rw [kind_combine, hkind]
      apply combine_eq_right hleft (hleft.combine hright) hmerged
      intro key own hown
      have hownOrdered : own.Ordered := hleft.child? hown
      rw [child?_combine left hright hkind, hown]
      cases hvalue : right.child? key with
      | none => exact ⟨own, rfl, combine_self hownOrdered⟩
      | some value => exact ⟨_, rfl, ih key value hvalue hownOrdered (hright.child? hvalue)⟩
    · rw [combine_of_right left hkind, combine_of_right left hkind]

theorem Ordered.foldl_combine {docs : List Node} (hdocs : ∀ doc ∈ docs, doc.Ordered)
    (h : node.Ordered) : (docs.foldl Node.combine node).Ordered := by
  induction docs generalizing node with
  | nil => exact h
  | cons doc rest ih =>
    obtain ⟨hdoc, hrest⟩ := List.forall_mem_cons.1 hdocs
    exact ih hrest (h.combine hdoc)

theorem ordered_merge {docs : List Node} (hdocs : ∀ doc ∈ docs, doc.Ordered) :
    (merge docs).Ordered := by
  cases docs with
  | nil => exact ordered_object.2 ⟨List.Pairwise.nil, by simp⟩
  | cons first rest =>
    obtain ⟨hfirst, hrest⟩ := List.forall_mem_cons.1 hdocs
    exact hfirst.foldl_combine hrest

theorem merge_append_last {front : List Node} {last : Node} (hfront : ∀ doc ∈ front, doc.Ordered)
    (ho : last.Ordered) : merge (front ++ [last] ++ [last]) = merge (front ++ [last]) := by
  by_cases hempty : front = []
  · subst hempty
    exact combine_self ho
  · have honce : merge (front ++ [last]) = combine (merge front) last := merge_append hempty [last]
    calc merge (front ++ [last] ++ [last])
        = combine (merge (front ++ [last])) last := merge_append (by simp) [last]
      _ = combine (combine (merge front) last) last := by rw [honce]
      _ = combine (merge front) last := combine_combine_self (ordered_merge hfront) ho
      _ = merge (front ++ [last]) := honce.symm

theorem merge_cons_cons_self {first : Node} (ho : first.Ordered) (rest : List Node) :
    merge (first :: first :: rest) = merge (first :: rest) := by
  change rest.foldl combine (combine first first) = rest.foldl combine first
  rw [combine_self ho]

/-- Merging is idempotent, and what was merged on either side of a document is absorbed there. So of
a list of documents the last may stand twice at the end and the first twice at the beginning. -/
theorem merge_absorbs_repetition :
    (∀ a b : Node, a.Ordered → b.Ordered → combine a a = a ∧
      combine (combine a b) b = combine a b ∧ combine a (combine a b) = combine a b) ∧
    ∀ docs : List Node, (∀ doc ∈ docs, doc.Ordered) → ∀ hne : docs ≠ [],
      merge (docs ++ [docs.getLast hne]) = merge docs ∧
      merge (docs.head hne :: docs) = merge docs := by
  refine ⟨fun a b ha hb => ⟨?same, ?last, ?first⟩, fun docs hdocs hne => ⟨?appended, ?prepended⟩⟩
  case same => exact combine_self ha
  case last => exact combine_combine_self ha hb
  case first => exact combine_self_combine ha hb
  case appended =>
    obtain ⟨front, last, rfl⟩ := (List.eq_nil_or_concat' docs).resolve_left hne
    obtain ⟨hfront, hlast⟩ := List.forall_mem_append.1 hdocs
    rw [List.getLast_append_singleton]
    exact merge_append_last hfront (hlast last List.mem_cons_self)
  case prepended =>
    obtain ⟨first, rest, rfl⟩ := List.exists_cons_of_ne_nil hne
    exact merge_cons_cons_self (hdocs first List.mem_cons_self) rest

/-- The last document, which adds to the `a` of the first, comes twice. -/
theorem merge_absorbs_repetition_shared :
    (∀ doc ∈ [Node.object [("a", .object [("x", .scalar "1"), ("y", .null)])],
      .object [("a", .object [("y", .array [.scalar "2"])]), ("b", .null)]], doc.Ordered) ∧
    merge [.object [("a", .object [("x", .scalar "1"), ("y", .null)])],
        .object [("a", .object [("y", .array [.scalar "2"])]), ("b", .null)],
        .object [("a", .object [("y", .array [.scalar "2"])]), ("b", .null)]] =
      .object [("a", .object [("x", .scalar "1"), ("y", .array [.scalar "2"])]), ("b", .null)] := by
  refine ⟨?ordered, ((merge_absorbs_repetition.2 _ ?ordered (List.cons_ne_nil _ _)).1).trans ?_⟩
  case ordered => decide
  decide +kernel

end LayeredConfig.Node
