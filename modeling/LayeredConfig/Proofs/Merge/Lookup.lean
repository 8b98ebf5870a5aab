import Mathlib.Data.List.Induction
import LayeredConfig.Merge
import LayeredConfig.Proofs.Node

set_option autoImplicit false

/-!
# Looking keys up in merged documents

A document cuts a sequence of keys when a node above its place is not an object: whatever earlier
documents hold there is gone. The documents behind the last cut that reach the place are merged at
the place by themselves.
-/
namespace LayeredConfig

namespace Node

/-- The node at a sequence of keys. -/
def lookup? (node : Node) (keys : List String) : Option Node := node.follow? (keys.map .property)

/-- At some proper prefix of the keys the node reaches something that is not an object. -/
def Cuts (node : Node) (keys : List String) : Prop :=
  ∃ before after reached, keys = before ++ after ∧ after ≠ [] ∧
    node.lookup? before = some reached ∧ reached.kind ≠ .object

/-- The documents as one, if there are any. -/
def mergeFound? : List Node → Option Node
  | [] => none
  | docs => some (merge docs)

@[simp] theorem lookup?_nil (node : Node) : node.lookup? [] = some node := rfl

theorem lookup?_cons (node : Node) (key : String) (rest : List String) :
    node.lookup? (key :: rest) = (node.child? key).bind (·.lookup? rest) :=
  follow?_cons node (.property key) (rest.map .property)

theorem child?_of_kind_ne {node : Node} (h : node.kind ≠ .object) (key : String) :
    node.child? key = none := by
  cases node with
  | object fields => exact absurd rfl h
  | null | scalar text | array items => rfl

theorem kind_of_child? {node child : Node} {key : String} (h : node.child? key = some child) :
    node.kind = .object := by
  by_contra hkind
  simp [child?_of_kind_ne hkind] at h

theorem Ordered.child? {node child : Node} {key : String} (h : node.Ordered)
    (hchild : node.child? key = some child) : child.Ordered :=
  h.step? (show node.step? (.property key) = some child from hchild)

theorem not_cuts_nil (node : Node) : ¬ node.Cuts [] := by
  rintro ⟨before, after, reached, happend, hafter, -⟩
  exact hafter (List.append_eq_nil_iff.1 happend.symm).2

theorem cuts_cons {node : Node} {key : String} {rest : List String} :
    node.Cuts (key :: rest) ↔
      node.kind ≠ .object ∨ ∃ child, node.child? key = some child ∧ child.Cuts rest := by
  constructor
  · rintro ⟨before, after, reached, happend, hafter, hlookup, hkind⟩
    cases before with
    | nil =>
      obtain rfl : node = reached := Option.some.inj hlookup
      exact .inl hkind
    | cons first before =>
      obtain ⟨rfl, hrest⟩ := List.cons.inj happend
      rw [lookup?_cons] at hlookup
      obtain ⟨child, hchild, hbelow⟩ := Option.bind_eq_some_iff.1 hlookup
      exact .inr ⟨child, hchild, before, after, reached, hrest, hafter, hbelow, hkind⟩
  · rintro (hkind | ⟨child, hchild, before, after, reached, rfl, hafter, hlookup, hkind⟩)
    · exact ⟨[], key :: rest, node, rfl, List.cons_ne_nil _ _, rfl, hkind⟩
    · refine ⟨key :: before, after, reached, rfl, hafter, ?_, hkind⟩
      rw [lookup?_cons, hchild]
      exact hlookup

theorem lookup?_of_cuts {node : Node} {keys : List String} (h : node.Cuts keys) :
    node.lookup? keys = none := by
  induction keys generalizing node with
  | nil => exact absurd h (not_cuts_nil node)
  | cons key rest ih =>
    rw [lookup?_cons]
    rcases cuts_cons.1 h with hkind | ⟨child, hchild, hcuts⟩
    · rw [child?_of_kind_ne hkind]
      rfl
    · rw [hchild]
      exact ih hcuts

theorem find?_combineFields {base overlay : Keyed Node} (h : Keyed.Ascending overlay)
    (key : String) :
    Keyed.find? key (combineFields base overlay) =
      match Keyed.find? key overlay with
      | none => Keyed.find? key base
      | some value => some ((Keyed.find? key base).elim value (combine · value)) := by
  induction overlay generalizing base with
  | nil => simp [combineFields, Keyed.find?]
  | cons entry rest ih =>
    obtain ⟨k, v⟩ := entry
    have hrest := (Keyed.ascending_cons.1 h).2
    rw [combineFields, ih hrest]
    by_cases hk : k = key
    · subst hk
      rw [Keyed.find?_tail h, Keyed.find?_insert_self]
      cases Keyed.find? k base <;> simp [Keyed.find?]
    · simp only [Keyed.find?, hk, if_false, Keyed.find?_insert_of_ne (Ne.symm hk)]

theorem combine_of_left {left : Node} (h : left.kind ≠ .object) (right : Node) :
    combine left right = right := by
  cases left with
  | object fields => exact absurd rfl h
  | null | scalar text | array items => simp [combine]

theorem combine_of_right (left : Node) {right : Node} (h : right.kind ≠ .object) :
    combine left right = right := by
  cases right with
  | object fields => exact absurd rfl h
  | null | scalar text | array items => cases left <;> rfl

theorem child?_combine (left : Node) {right : Node} (ho : right.Ordered)
    (hkind : right.kind = .object) (key : String) :
    (combine left right).child? key =
      match right.child? key with
      | none => left.child? key
      | some value => some ((left.child? key).elim value (combine · value)) := by
  by_cases hleft : left.kind = .object
  · cases left with
    | object base =>
      cases right with
      | object overlay =>
        rw [combine]
        exact find?_combineFields (ordered_object.1 ho).1 key
      | null | scalar text | array items => simp [kind] at hkind
    | null | scalar text | array items => simp [kind] at hleft
  · rw [combine_of_left hleft, child?_of_kind_ne hleft]
    cases right.child? key <;> rfl

/-! A document over others at a sequence of keys: it cuts, it reaches the place, or neither. -/

theorem lookup?_combine_of_cuts (left : Node) {right : Node} {keys : List String}
    (ho : right.Ordered) (h : right.Cuts keys) : (combine left right).lookup? keys = none := by
  induction keys generalizing left right with
  | nil => exact absurd h (not_cuts_nil right)
  | cons key rest ih =>
    by_cases hkind : right.kind = .object
    · obtain ⟨child, hchild, hcuts⟩ := (cuts_cons.1 h).resolve_left (not_not_intro hkind)
      rw [lookup?_cons, child?_combine left ho hkind, hchild, Option.bind_some]
      cases left.child? key with
      | none => exact lookup?_of_cuts hcuts
      | some existing => exact ih existing (ho.child? hchild) hcuts
    · rw [combine_of_right left hkind]
      exact lookup?_of_cuts h

theorem lookup?_combine_of_some (left : Node) {right value : Node} {keys : List String}
    (ho : right.Ordered) (h : right.lookup? keys = some value) :
    (combine left right).lookup? keys =
      some ((left.lookup? keys).elim value (combine · value)) := by
  induction keys generalizing left right with
  | nil =>
    obtain rfl : right = value := Option.some.inj h
    rfl
  | cons key rest ih =>
    obtain ⟨child, hchild, hbelow⟩ := Option.bind_eq_some_iff.1 (lookup?_cons .. ▸ h)
    rw [lookup?_cons, lookup?_cons, child?_combine left ho (kind_of_child? hchild), hchild,
      Option.bind_some]
    cases left.child? key with
    | none => exact hbelow
    | some existing => exact ih existing (ho.child? hchild) hbelow

theorem lookup?_combine_of_none (left : Node) {right : Node} {keys : List String}
    (ho : right.Ordered) (h : right.lookup? keys = none) (hcuts : ¬ right.Cuts keys) :
    (combine left right).lookup? keys = left.lookup? keys := by
  induction keys generalizing left right with
  | nil => simp at h
  | cons key rest ih =>
    rw [cuts_cons, not_or] at hcuts
    obtain ⟨hkind, hbelow⟩ := hcuts
    rw [lookup?_cons] at h
    rw [lookup?_cons, lookup?_cons, child?_combine left ho (not_not.1 hkind)]
    cases hchild : right.child? key with
    | none => rfl
    | some child =>
      rw [hchild, Option.bind_some] at h
      have hrest : ¬ child.Cuts rest := fun hc => hbelow ⟨child, hchild, hc⟩
      cases left.child? key with
      | none => exact h
      | some existing => exact ih existing (ho.child? hchild) h hrest

/-- Documents that do not cut the keys add up at the place. -/
theorem lookup?_foldl_combine {docs : List Node} {keys : List String}
    (hdocs : ∀ doc ∈ docs, doc.Ordered) (hcuts : ∀ doc ∈ docs, ¬ doc.Cuts keys) (first : Node) :
    (docs.foldl combine first).lookup? keys =
      mergeFound? ((first.lookup? keys).toList ++ docs.filterMap (·.lookup? keys)) := by
  induction docs generalizing first with
  | nil => cases h : first.lookup? keys <;> simp [h, mergeFound?, merge]
  | cons doc rest ih =>
    obtain ⟨ho, hordered⟩ := List.forall_mem_cons.1 hdocs
    obtain ⟨hcut, hrest⟩ := List.forall_mem_cons.1 hcuts
    rw [List.foldl_cons, ih hordered hrest]
    cases hdoc : doc.lookup? keys with
    | none =>
      simp only [lookup?_combine_of_none first ho hdoc hcut, List.filterMap_cons, hdoc]
    | some value =>
      simp only [lookup?_combine_of_some first ho hdoc, List.filterMap_cons, hdoc]
      cases first.lookup? keys <;> simp [mergeFound?, merge]

theorem lookup?_merge_of_not_cuts {docs : List Node} {keys : List String} (hkeys : keys ≠ [])
    (hdocs : ∀ doc ∈ docs, doc.Ordered) (hcuts : ∀ doc ∈ docs, ¬ doc.Cuts keys) :
    (merge docs).lookup? keys = mergeFound? (docs.filterMap (·.lookup? keys)) := by
  cases docs with
  | nil =>
    obtain ⟨key, rest, rfl⟩ := List.exists_cons_of_ne_nil hkeys
    rfl
  | cons first rest =>
    have hordered := (List.forall_mem_cons.1 hdocs).2
    have hrest := (List.forall_mem_cons.1 hcuts).2
    rw [merge, lookup?_foldl_combine hordered hrest]
    cases h : first.lookup? keys <;> simp [h]

/-- Behind a document that cuts the keys nothing of what came before is left at the place. -/
theorem lookup?_merge_of_cuts (before : List Node) {cut : Node} {keys : List String}
    (ho : cut.Ordered) (h : cut.Cuts keys) : (merge (before ++ [cut])).lookup? keys = none := by
  cases before with
  | nil => exact lookup?_of_cuts h
  | cons first rest =>
    rw [List.cons_append, merge, List.foldl_append]
    exact lookup?_combine_of_cuts _ ho h

theorem merge_append {docs : List Node} (h : docs ≠ []) (more : List Node) :
    merge (docs ++ more) = more.foldl combine (merge docs) := by
  obtain ⟨first, rest, rfl⟩ := List.exists_cons_of_ne_nil h
  simp [merge]

/-- The documents behind the last one that cuts the keys. -/
theorem exists_last_cut (docs : List Node) (keys : List String) :
    ∃ before after, docs = before ++ after ∧
      (∀ cut, before.getLast? = some cut → cut.Cuts keys) ∧ ∀ doc ∈ after, ¬ doc.Cuts keys := by
  -- From the end of the list: its last document is the last cut or stands behind it.
  induction docs using List.reverseRecOn with
  | nil => exact ⟨[], [], rfl, by simp, by simp⟩
  | append_singleton docs doc ih =>
    by_cases hdoc : doc.Cuts keys
    · exact ⟨docs ++ [doc], [], by simp, by simpa using hdoc, by simp⟩
    · obtain ⟨before, after, rfl, hcut, hafter⟩ := ih
      refine ⟨before, after ++ [doc], by simp, hcut, fun other hother => ?_⟩
      rcases List.mem_append.1 hother with hother | hother
      · exact hafter other hother
      · rw [List.mem_singleton.1 hother]
        exact hdoc

theorem lookup?_merge_append {before after : List Node} {keys : List String} (hkeys : keys ≠ [])
    (hdocs : ∀ doc ∈ before ++ after, doc.Ordered)
    (hcut : ∀ cut, before.getLast? = some cut → cut.Cuts keys)
    (hafter : ∀ doc ∈ after, ¬ doc.Cuts keys) :
    (merge (before ++ after)).lookup? keys = mergeFound? (after.filterMap (·.lookup? keys)) := by
  have hordered : ∀ doc ∈ after, doc.Ordered := fun d hd => hdocs d (List.mem_append_right _ hd)
  rcases List.eq_nil_or_concat before with rfl | ⟨earlier, cut, rfl⟩
  · exact lookup?_merge_of_not_cuts hkeys hordered hafter
  · have hnone : (merge (earlier ++ [cut])).lookup? keys = none :=
      lookup?_merge_of_cuts earlier (hdocs cut (by simp)) (hcut cut (by simp))
    rw [merge_append (by simp), lookup?_foldl_combine hordered hafter, List.concat_eq_append, hnone]
    rfl

theorem kind_combine (left right : Node) : (combine left right).kind = right.kind := by
  cases left <;> cases right <;> rfl

/-- What is not an object was taken whole from the last document. -/
theorem mergeFound?_eq_some_of_kind_ne {found : List Node} {node : Node}
    (h : mergeFound? found = some node) (hkind : node.kind ≠ .object) :
    ∃ earlier, found = earlier ++ [node] := by
  rcases List.eq_nil_or_concat found with rfl | ⟨earlier, last, rfl⟩
  · simp [mergeFound?] at h
  · refine ⟨earlier, ?_⟩
    rw [List.concat_eq_append] at h ⊢
    cases earlier with
    | nil =>
      obtain rfl : last = node := Option.some.inj h
      rfl
    | cons first rest =>
      obtain rfl : combine (rest.foldl combine first) last = node := by
        simpa [mergeFound?, merge] using h
      rw [kind_combine] at hkind
      rw [combine_of_right _ hkind]

/-- The documents behind the last cut that reach the place are merged there by themselves. A node
there that is not an object comes from the last document that reaches the place, and no later one
cuts the keys. -/
theorem merge_lookup_behind_last_cut {docs : List Node} (hdocs : ∀ doc ∈ docs, doc.Ordered)
    {keys : List String} (hkeys : keys ≠ []) :
    (∃ before after, docs = before ++ after ∧
      (∀ cut, before.getLast? = some cut → cut.Cuts keys) ∧ (∀ doc ∈ after, ¬ doc.Cuts keys) ∧
      (merge docs).lookup? keys = mergeFound? (after.filterMap (·.lookup? keys))) ∧
    ∀ node, (merge docs).lookup? keys = some node → node.kind ≠ .object →
      ∃ earlier doc later, docs = earlier ++ doc :: later ∧ doc.lookup? keys = some node ∧
        ∀ other ∈ later, other.lookup? keys = none ∧ ¬ other.Cuts keys := by
  obtain ⟨before, after, rfl, hcut, hafter⟩ := exists_last_cut docs keys
  have hmerge := lookup?_merge_append hkeys hdocs hcut hafter
  refine ⟨⟨before, after, rfl, hcut, hafter, hmerge⟩, fun node hnode hkind => ?_⟩
  obtain ⟨found, hfound⟩ := mergeFound?_eq_some_of_kind_ne (hmerge ▸ hnode) hkind
  obtain ⟨front, back, rfl, -, hback⟩ := List.filterMap_eq_append_iff.1 hfound
  obtain ⟨skipped, doc, later, rfl, -, hdoc, hlater⟩ := List.filterMap_eq_cons_iff.1 hback
  refine ⟨before ++ front ++ skipped, doc, later, by simp, hdoc, fun other hother => ⟨?_, ?_⟩⟩
  · exact List.filterMap_eq_nil_iff.1 hlater other hother
  · exact hafter other (by simp [hother])

/-- The second document cuts the keys, the third brings `a` back, and the fourth says nothing. -/
theorem merge_lookup_behind_last_cut_reopened :
    (∀ doc ∈ [Node.object [("a", .object [("b", .scalar "1")])], .object [("a", .null)],
      .object [("a", .object [("b", .scalar "2")])], .object []], doc.Ordered) ∧
    ∃ earlier doc later,
      [Node.object [("a", .object [("b", .scalar "1")])], .object [("a", .null)],
        .object [("a", .object [("b", .scalar "2")])], .object []] = earlier ++ doc :: later ∧
      doc.lookup? ["a", "b"] = some (.scalar "2") ∧
      ∀ other ∈ later, other.lookup? ["a", "b"] = none ∧ ¬ other.Cuts ["a", "b"] := by
  refine ⟨?ordered, (merge_lookup_behind_last_cut ?ordered (List.cons_ne_nil _ _)).2 _ rfl ?_⟩
  · decide
  · simp [kind]

end Node

end LayeredConfig
