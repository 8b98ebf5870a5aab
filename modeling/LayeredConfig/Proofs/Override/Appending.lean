import LayeredConfig.Proofs.Override.Replay
import LayeredConfig.Proofs.Path.Grammar
import LayeredConfig.Proofs.Path.Overwrite

set_option autoImplicit false

/-!
# Appending item by item

Behind a path that ends in a name the text of a place may stand, and the place past the end is where
a write appends. Each append goes to the end of the array that the one before it has left, so a run
of appends leaves the items that were there and then its own in order.
-/
namespace LayeredConfig

namespace Path

variable {text body : List Char} {name : String} {place : Place} {front : List Element}

/-- The name at the end of the text may have a place. -/
theorem ChainText.placed (h : ChainText text (front ++ [⟨name, none⟩])) (hbody : PlaceText body place) :
    ChainText (text ++ '[' :: body ++ [']']) (front ++ [⟨name, some place⟩]) := by
  induction front generalizing text with
  | nil =>
    obtain ⟨own, next, hown, hrest, hnext⟩ := chainText_cons_iff.1 h
    obtain rfl := chainText_nil_iff.1 hnext
    obtain rfl : text = own := by
      rcases hrest with ⟨-, htext⟩ | ⟨hne, -⟩
      · exact htext
      · exact absurd rfl hne
    cases hown with
    | name hname => exact .of_elementText (.indexed hname hbody)
  | cons element front ih =>
    obtain ⟨own, next, hown, hrest, hnext⟩ := chainText_cons_iff.1 h
    have hne : next ≠ [] := by
      cases front <;> exact hnext.ne_nil
    obtain rfl : text = own ++ '.' :: next := by
      rcases hrest with ⟨hnil, -⟩ | ⟨-, htext⟩
      · exact absurd hnil hne
      · exact htext
    refine chainText_cons_iff.2 ⟨own, next ++ '[' :: body ++ [']'], hown, .inr ⟨?_, ?_⟩, ih hnext⟩
    · simp
    · simp

theorem exists_name_of_getLast? {elements : List Element}
    (h : (elements.flatMap Element.steps).getLast? = some (.property name)) :
    ∃ front, elements = front ++ [⟨name, none⟩] := by
  rcases List.eq_nil_or_concat elements with rfl | ⟨front, ⟨own, place⟩, rfl⟩
  · simp at h
  · refine ⟨front, ?_⟩
    cases place <;> simp_all [Element.steps]

/-- A place in brackets behind a path that ends in a name is one more step. -/
theorem parse_placed {p : String} {path : Path} (hparse : parse p = .ok path)
    (hdot : p.toList.getLast? ≠ some '.') (hlast : path.steps.getLast? = some (.property name))
    (hbody : PlaceText body place) :
    ∃ own, parse (p ++ String.ofList ('[' :: body ++ [']'])) = .ok own ∧
      own.steps = path.steps ++ [.index place] := by
  obtain ⟨elements, hspells, hsteps⟩ := exists_parse_iff.1 ⟨path, hparse, rfl⟩
  obtain ⟨front, rfl⟩ := exists_name_of_getLast? (hsteps ▸ hlast)
  have hchain : ChainText p.toList (front ++ [⟨name, none⟩]) := by
    have htext : dropFinalDot p.toList = p.toList := if_neg hdot
    exact htext ▸ spells_iff.1 hspells
  have hplaced : Spells (p ++ String.ofList ('[' :: body ++ [']'])) (front ++ [⟨name, some place⟩]) :=
    ⟨_, hchain.placed hbody, .inl (by simp)⟩
  obtain ⟨own, hown, hownSteps⟩ := exists_parse_iff.2 ⟨_, hplaced, rfl⟩
  refine ⟨own, hown, ?_⟩
  rw [hownSteps, ← hsteps]
  simp [Element.steps]

end Path

namespace Node

variable {node value tree : Node} {items : List Node} {steps : List Step}

theorem write?_pastEnd (h : node.openItems? = some items) (value : Node) :
    node.write? value [.index .pastEnd] = some (.array (items ++ [value])) := by
  simp [write?, opens, put, setItem, Place.resolve, h]

theorem follow?_of_append (hfixed : Step.Fixed steps)
    (hitems : ((node.follow? steps).getD .null).openItems? = some items)
    (h : node.write? value (steps ++ [.index .pastEnd]) = some tree) :
    tree.follow? steps = some (.array (items ++ [value])) := by
  obtain ⟨below, hbelow, hwrite⟩ := follow?_of_write?_append hfixed h
  rw [hbelow, ← hwrite, write?_pastEnd hitems]

end Node

namespace Override

/-- The override that appends the value to the array at the path. -/
def append (path : String) (value : Option String) : Override := ⟨path ++ "[.length]", value⟩

variable {entry : Override} {entries : List Override} {tree after : Node} {items : List Node}
variable {steps : List Step} {p name : String} {path : Path}

theorem follow?_of_write_append (hsteps : entry.steps? = some (steps ++ [.index .pastEnd]))
    (hfixed : Step.Fixed steps) (hitems : ((tree.follow? steps).getD .null).openItems? = some items)
    (h : entry.write tree = ⟨after, none⟩) :
    after.follow? steps = some (.array (items ++ [Node.ofText? entry.value])) := by
  obtain ⟨own, hown, -, hwrite⟩ := write_eq_iff.1 h
  obtain rfl := Option.some.inj (hsteps.symm.trans hown)
  exact Node.follow?_of_append hfixed hitems hwrite

/-- Once the array is there nothing stands in the way of an append. -/
theorem exists_write_append (hsteps : entry.steps? = some (steps ++ [.index .pastEnd]))
    (hread : tree.follow? steps = some (.array items)) :
    ∃ after, entry.write tree = ⟨after, none⟩ := by
  obtain ⟨after, hwrite⟩ := Node.exists_write?_append hread (Node.write?_pastEnd rfl _)
  exact ⟨after, write_eq_iff.2 ⟨_, hsteps, by simp, hwrite⟩⟩

/-- A run of appends to an array that is there. -/
theorem exists_applyAll_append (hfixed : Step.Fixed steps)
    (hsteps : ∀ entry ∈ entries, entry.steps? = some (steps ++ [.index .pastEnd]))
    (hread : tree.follow? steps = some (.array items)) :
    ∃ after, applyAll tree entries = ⟨after, none⟩ ∧
      after.follow? steps = some (.array (items ++ entries.map fun entry => Node.ofText? entry.value)) := by
  induction entries generalizing tree items with
  | nil => exact ⟨tree, rfl, by simpa using hread⟩
  | cons entry rest ih =>
    obtain ⟨hentry, hrest⟩ := List.forall_mem_cons.1 hsteps
    obtain ⟨middle, hwrite⟩ := exists_write_append hentry hread
    have hitems : ((tree.follow? steps).getD .null).openItems? = some items := by rw [hread]; rfl
    have hmiddle := follow?_of_write_append hentry hfixed hitems hwrite
    obtain ⟨after, hrun, hafter⟩ := ih hrest hmiddle
    refine ⟨after, applyAll_cons_eq_iff.2 ⟨middle, hwrite, hrun⟩, ?_⟩
    simpa using hafter

theorem steps?_append (hparse : Path.parse p = .ok path) (hdot : p.toList.getLast? ≠ some '.')
    (hlast : path.steps.getLast? = some (.property name)) (value : Option String) :
    (append p value).steps? = some (path.steps ++ [.index .pastEnd]) := by
  obtain ⟨own, hown, hsteps⟩ := Path.parse_placed hparse hdot hlast .pastEnd
  have htext : p ++ String.ofList ('[' :: ".length".toList ++ [']']) = p ++ "[.length]" := by
    simp
  rw [htext] at hown
  simp [steps?, append, hown, Except.toOption, hsteps]

/-- Values that are appended to an array one after the other stand behind its items in their order. A
null or missing array counts as one without items; if the first value can be appended to it, so can
the others. -/
theorem applyAll_append_all (first : Option String) (rest : List (Option String))
    (hparse : Path.parse p = .ok path) (hdot : p.toList.getLast? ≠ some '.')
    (hlast : path.steps.getLast? = some (.property name)) (hfixed : Step.Fixed path.steps)
    (hread : path.read tree = some (.array items) ∨
      (path.read tree = some .null ∨ path.read tree = none) ∧ items = [])
    (hfirst : (applyAll tree [append p first]).error = none) :
    ∃ after, applyAll tree ((first :: rest).map (append p)) = ⟨after, none⟩ ∧
      path.read after = some (.array (items ++ (first :: rest).map Node.ofText?)) := by
  have hsteps := steps?_append hparse hdot hlast
  have hitems : ((tree.follow? path.steps).getD .null).openItems? = some items := by
    rcases hread with hread | ⟨hread | hread, rfl⟩
    all_goals
      rw [Path.read] at hread
      rw [hread]
      rfl
  rcases hrun : applyAll tree [append p first] with ⟨middle, error⟩
  obtain rfl : error = none := by simpa [hrun] using hfirst
  have hwrite := applyAll_singleton_eq_iff.1 hrun
  have hmiddle := follow?_of_write_append (hsteps first) hfixed hitems hwrite
  have hrest : ∀ entry ∈ rest.map (append p), entry.steps? = some (path.steps ++ [.index .pastEnd]) :=
    List.forall_mem_map.2 fun value _ => hsteps value
  obtain ⟨after, hafter, hfound⟩ := exists_applyAll_append hfixed hrest hmiddle
  refine ⟨after, applyAll_cons_eq_iff.2 ⟨middle, hwrite, hafter⟩, hfound.trans ?_⟩
  simp [append, Function.comp_def]

/-- The first append makes the array and the object around it in the place of a null. -/
theorem applyAll_append_all_missing :
    ∃ path after, Path.parse "a[1].b" = .ok path ∧ "a[1].b".toList.getLast? ≠ some '.' ∧
      path.steps.getLast? = some (.property "b") ∧ Step.Fixed path.steps ∧
      path.read (.object [("a", .array [.null])]) = none ∧
      (applyAll (.object [("a", .array [.null])]) [append "a[1].b" (some "x")]).error = none ∧
      applyAll (.object [("a", .array [.null])])
        [append "a[1].b" (some "x"), append "a[1].b" none, append "a[1].b" (some "y")] =
          ⟨after, none⟩ ∧
      path.read after = some (.array [.scalar "x", .null, .scalar "y"]) := by
  have hparse : Path.parse "a[1].b" = .ok ⟨"a[1].b", "a[1].b", [⟨.property "a", "a", "[1].b"⟩,
    ⟨.index (.at 1), "a[1]", "b"⟩, ⟨.property "b", "a[1].b", ""⟩]⟩ := by decide +kernel
  have hdot : "a[1].b".toList.getLast? ≠ some '.' := by decide
  have hfixed : Step.Fixed [.property "a", .index (.at 1), .property "b"] := by decide
  have hfirst : (applyAll (.object [("a", .array [.null])]) [append "a[1].b" (some "x")]).error =
    none := by decide +kernel
  obtain ⟨after, hrun, hread⟩ := applyAll_append_all (some "x") [none, some "y"] hparse hdot rfl
    hfixed (.inr ⟨.inr rfl, rfl⟩) hfirst
  exact ⟨_, after, hparse, hdot, rfl, hfixed, rfl, hfirst, hrun, hread⟩

end Override

end LayeredConfig
