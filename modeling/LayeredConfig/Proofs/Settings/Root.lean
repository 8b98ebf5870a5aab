import LayeredConfig.Proofs.Merge.Lookup
import LayeredConfig.Proofs.Override.Failure
import LayeredConfig.Proofs.Path.Grammar
import LayeredConfig.Proofs.Settings.Build

set_option autoImplicit false

/-!
# The root of a build

Of two documents the later gives the merged root its kind, so the last one that was found and is not
null decides. Every override goes to a property of the root first: where the root is a text or an
array the first override fails, and a run that succeeds leaves an object.
-/
namespace LayeredConfig

namespace Node

theorem kind_merge (docs : List Node) :
    (merge docs).kind = (docs.getLast?.map kind).getD .object := by
  rcases List.eq_nil_or_concat docs with rfl | ⟨earlier, last, rfl⟩
  · rfl
  · rw [List.concat_eq_append]
    by_cases hearlier : earlier = []
    · subst hearlier
      rfl
    · rw [merge_append hearlier]
      simp [kind_combine]

end Node

namespace Path

/-- A path that leads anywhere leads to a property of the root first. -/
theorem exists_name_of_parse {path : Path} {source : String} (h : parse source = .ok path)
    (hne : path.steps ≠ []) : ∃ name rest, path.steps = .property name :: rest := by
  obtain ⟨elements, -, hsteps⟩ := exists_parse_iff.1 ⟨path, h, rfl⟩
  cases elements with
  | nil => exact absurd hsteps.symm hne
  | cons element elements => exact ⟨element.name, _, hsteps.symm⟩

end Path

namespace Override

variable {entry : Override} {entries : List Override} {tree after : Node}

/-- No override can be written to a text or an array, and none changes it. -/
theorem write_of_kind (hnull : tree ≠ .null) (hkind : tree.kind ≠ .object) (entry : Override) :
    ∃ cause, entry.write tree = ⟨tree, some cause⟩ := by
  cases hparse : Path.parse entry.path with
  | error fault => exact ⟨_, write_error_iff.2 (.inl ⟨fault, hparse, rfl, rfl⟩)⟩
  | ok path =>
    by_cases hne : path.steps = []
    · exact ⟨_, tree_of_write_steps_nil hparse hne⟩
    · obtain ⟨name, rest, hsteps⟩ := Path.exists_name_of_parse hparse hne
      obtain ⟨segment, segments, hsegments, hstep, -⟩ := List.map_eq_cons_iff.1 hsteps
      have hblocked : ¬ tree.opens segment.step := fun hopens => by
        rcases Node.kind_of_opens hopens with h | h
        · exact hnull h
        · exact hkind (by rw [h, hstep, Step.container])
      have hwrite : path.write tree (Node.ofText? entry.value) =
          ⟨tree.blocked segment.step, some (tree.refusal "" segment)⟩ := by
        rw [← Path.writeBelow_of_not_opens hblocked _ "" segments, ← hsegments]
        exact Path.write_of_steps_ne_nil hne _ _
      rw [hstep] at hwrite
      exact ⟨_, write_error_iff.2 (.inr ⟨path, _, hparse, hwrite, rfl⟩)⟩

theorem exists_parse_of_steps? {steps : List Step} (h : entry.steps? = some steps) :
    ∃ path, Path.parse entry.path = .ok path ∧ path.steps = steps := by
  unfold steps? at h
  cases hparse : Path.parse entry.path with
  | error fault => simp [hparse, Except.toOption] at h
  | ok path => exact ⟨path, rfl, by simpa [hparse, Except.toOption] using h⟩

theorem kind_of_write (h : entry.write tree = ⟨after, none⟩) : after.kind = .object := by
  obtain ⟨steps, hsteps, hne, hwrite⟩ := write_eq_iff.1 h
  obtain ⟨path, hparse, rfl⟩ := exists_parse_of_steps? hsteps
  obtain ⟨name, rest, hname⟩ := Path.exists_name_of_parse hparse hne
  rw [hname] at hwrite
  obtain ⟨-, child, -, rfl⟩ := Node.write?_cons_eq_some.1 hwrite
  exact Node.put_kind tree (.property name) child

theorem kind_of_applyAll (h : applyAll tree entries = ⟨after, none⟩) (hne : entries ≠ []) :
    after.kind = .object := by
  induction entries generalizing tree with
  | nil => exact absurd rfl hne
  | cons entry rest ih =>
    obtain ⟨middle, hwrite, hrun⟩ := applyAll_cons_eq_iff.1 h
    by_cases hrest : rest = []
    · subst hrest
      obtain rfl : middle = after := congrArg Overridden.tree hrun
      exact kind_of_write hwrite
    · exact ih hrun hrest

end Override

namespace Layers

theorem merge_present_ne_null (loaded : List (Option Node)) :
    Node.merge (present loaded) ≠ .null := by
  intro hnull
  have hkind := Node.kind_merge (present loaded)
  rw [hnull] at hkind
  cases hlast : (present loaded).getLast? with
  | none => simp [hlast, Node.kind] at hkind
  | some last =>
    have hmem : last ∈ present loaded := List.mem_of_getLast? hlast
    have hne : last ≠ .null := by simpa using (List.mem_filter.1 hmem).2
    cases last <;> simp_all [Node.kind]

/-- If all sources load, the merged root is of the kind of the last document that is not null, an
object where there is none, and so it is never null. Without overrides it is the root of the build.
With some, a merged root that is a text or an array fails at the first of them and stays as it is.
So the root of a build that succeeds is never null, and with overrides it is an object. -/
theorem build_root_kind (files : Files) (layers : Layers) :
    (∀ loaded, loadAll files layers.sources = .ok loaded →
      let root := Node.merge (present loaded)
      root.kind = ((present loaded).getLast?.map Node.kind).getD .object ∧ root ≠ .null ∧
      (layers.allOverrides = [] → layers.build files = .ok ⟨root⟩) ∧
      ∀ first rest, layers.allOverrides = first :: rest →
        root.kind = .scalar ∨ root.kind = .array →
        ∃ cause, first.write root = ⟨root, some cause⟩ ∧
          layers.build files = .error (.invalidOverride first.path cause)) ∧
    ∀ settings, layers.build files = .ok settings → settings.root ≠ .null ∧
      (layers.allOverrides ≠ [] → settings.root.kind = .object) := by
  refine ⟨fun loaded hloaded => ⟨Node.kind_merge _, merge_present_ne_null loaded, ?none, ?some⟩,
    fun settings hbuild => ?built⟩
  case none =>
    intro hnone
    refine build_of_applyAll (documents_of_loadAll hloaded) ?_
    rw [hnone]
    rfl
  case some =>
    intro first rest hsome hkind
    have hobject : (Node.merge (present loaded)).kind ≠ .object := by
      rcases hkind with h | h <;> simp [h]
    obtain ⟨cause, hwrite⟩ :=
      Override.write_of_kind (merge_present_ne_null loaded) hobject first
    refine ⟨cause, hwrite, build_error_of_applyAll (documents_of_loadAll hloaded) ?_⟩
    rw [hsome, Override.applyAll, hwrite]
  case built =>
    obtain ⟨loaded, -, happlied⟩ := build_eq_ok_iff.1 hbuild
    by_cases hnone : layers.allOverrides = []
    · rw [hnone] at happlied
      have hroot : Node.merge (present loaded) = settings.root := congrArg Overridden.tree happlied
      exact ⟨hroot ▸ merge_present_ne_null loaded, fun hsome => absurd hnone hsome⟩
    · have hkind := Override.kind_of_applyAll happlied hnone
      refine ⟨fun hnull => ?_, fun _ => hkind⟩
      simp [hnull, Node.kind] at hkind

/-- An array that a parser finds in a file behind an object, with a null and no document behind it:
the first override fails in the array, though the object has what it is for. -/
theorem build_root_kind_array :
    (Node.merge (present [some (.object [("a", .scalar "1")]), some (.array [.null]), some .null,
      none])).kind = .array ∧
    ∃ cause, (⟨"a", some "2"⟩ : Override).write (.array [.null]) = ⟨.array [.null], some cause⟩ ∧
      build ⟨fun _ => .bytes "-".toUTF8⟩ ⟨[.document "base" (.object [("a", .scalar "1")]),
        .file "/etc/list" true (some ⟨fun _ _ => .ok (.array [.null])⟩),
        .document "nothing" .null, ⟨"remote", fun _ => .ok none⟩],
        none, [⟨"a", some "2"⟩, ⟨"b", none⟩]⟩ = .error (.invalidOverride "a" cause) := by
  have hroot := (build_root_kind ⟨fun _ => .bytes "-".toUTF8⟩
    ⟨[.document "base" (.object [("a", .scalar "1")]),
      .file "/etc/list" true (some ⟨fun _ _ => .ok (.array [.null])⟩),
      .document "nothing" .null, ⟨"remote", fun _ => .ok none⟩],
    none, [⟨"a", some "2"⟩, ⟨"b", none⟩]⟩).1 [some (.object [("a", .scalar "1")]),
      some (.array [.null]), some .null, none] rfl
  exact ⟨hroot.1, hroot.2.2.2 ⟨"a", some "2"⟩ [⟨"b", none⟩] rfl (.inr hroot.1)⟩

end Layers

end LayeredConfig
