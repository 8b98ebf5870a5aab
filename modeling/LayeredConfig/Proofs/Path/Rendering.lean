import LayeredConfig.Override
import LayeredConfig.Settings.Basic
import LayeredConfig.Proofs.Node
import LayeredConfig.Proofs.Path.Grammar

set_option autoImplicit false

/-!
# The written form of a path

Steps in which an index comes right behind a name only are those of a path, and have a written form
that reads back as these steps: each name behind a dot, except the first, and each place in
brackets. A path read in a tree looks up one child or one item for each of its steps.
-/
namespace LayeredConfig

namespace Node

/-- One look-up for each step; no look-up finds a place past the end. -/
inductive Leads : Node → List Step → Node → Prop where
  | here {node : Node} : Leads node [] node
  | child {node child found : Node} {name : String} {rest : List Step} :
      node.child? name = some child → Leads child rest found →
        Leads node (.property name :: rest) found
  | item {node item found : Node} {index : Nat} {rest : List Step} :
      node.item? index = some item → Leads item rest found →
        Leads node (.index (.at index) :: rest) found

theorem follow?_eq_some_iff {node found : Node} {steps : List Step} :
    node.follow? steps = some found ↔ node.Leads steps found := by
  constructor
  · intro h
    induction steps generalizing node with
    | nil => exact Option.some.inj h ▸ .here
    | cons step rest ih =>
      obtain ⟨next, hnext, hrest⟩ := Option.bind_eq_some_iff.1 (follow?_cons .. ▸ h)
      cases step with
      | property name => exact .child hnext (ih hrest)
      | index place =>
        cases place with
        | «at» index => exact .item hnext (ih hrest)
        | pastEnd => simp [step?] at hnext
  · intro h
    induction h with
    | here => rfl
    | child hchild hrest ih =>
      rw [follow?_cons, step?, hchild]
      exact ih
    | item hitem hrest ih =>
      rw [follow?_cons, step?, hitem]
      exact ih

end Node

def Place.text : Place → List Char
  | .at index => Decimal.ofNat index
  | .pastEnd => ".length".toList

/-- The text of a step behind other steps. -/
def Step.text : Step → List Char
  | .property name => '.' :: name.toList
  | .index place => '[' :: place.text ++ [']']

namespace Path

def render (steps : List Step) : String := String.ofList (steps.flatMap Step.text).tail

/-- Names without separators, indices of 63 bits, and each index right behind a name. -/
structure Shaped (steps : List Step) : Prop where
  isName : ∀ name, .property name ∈ steps → IsName name.toList
  index_lt : ∀ index, .index (.at index) ∈ steps → index < 2 ^ 63
  behind_name : ∀ before place after, steps = before ++ .index place :: after →
    ∃ name, before.getLast? = some (.property name)

variable {name : String} {place : Place} {rest : List Step} {element : Element}
variable {elements : List Element}

namespace Element

/-- The name and the index are such as texts have. -/
structure Fits (element : Element) : Prop where
  isName : IsName element.name.toList
  index_lt : ∀ index, element.place = some (.at index) → index < 2 ^ 63

def text (element : Element) : List Char :=
  element.name.toList ++ element.place.elim [] fun place => '[' :: place.text ++ [']']

theorem placeText_text (h : ∀ index, place = .at index → index < 2 ^ 63) :
    PlaceText place.text place := by
  cases place with
  | «at» index => exact .at (.plain (Decimal.isNatural_ofNat index)) (h index rfl)
  | pastEnd => exact .pastEnd

theorem Fits.elementText (h : element.Fits) : ElementText element.text element := by
  obtain ⟨name, place⟩ := element
  have hname := h.isName
  cases place with
  | none =>
    have htext : ElementText name.toList ⟨String.ofList name.toList, none⟩ := .name hname
    simpa [text] using htext
  | some place =>
    have hplace : PlaceText place.text place := placeText_text fun index hindex =>
      h.index_lt index (congrArg some hindex)
    have htext : ElementText (name.toList ++ '[' :: place.text ++ [']'])
        ⟨String.ofList name.toList, some place⟩ := .indexed hname hplace
    simpa [text] using htext

theorem flatMap_steps_text (element : Element) :
    element.steps.flatMap Step.text = '.' :: element.text := by
  obtain ⟨name, place⟩ := element
  cases place <;> simp [steps, text, Step.text]

end Element

theorem chainText_tail (h : ∀ element ∈ elements, element.Fits) :
    ChainText ((elements.flatMap Element.steps).flatMap Step.text).tail elements := by
  induction elements with
  | nil => exact chainText_nil_iff.2 rfl
  | cons element rest ih =>
    obtain ⟨helement, hrest⟩ := List.forall_mem_cons.1 h
    rw [List.flatMap_cons, List.flatMap_append, Element.flatMap_steps_text, List.cons_append,
      List.tail_cons]
    refine chainText_cons_iff.2 ⟨element.text, _, helement.elementText, ?_, ih hrest⟩
    cases rest with
    | nil => exact .inl ⟨rfl, by simp⟩
    | cons second more =>
      refine .inr ⟨(ih hrest).ne_nil, ?_⟩
      simp [List.flatMap_append, Element.flatMap_steps_text]

theorem spells_render (h : ∀ element ∈ elements, element.Fits) :
    Spells (render (elements.flatMap Element.steps)) elements :=
  ⟨_, chainText_tail h, .inl String.toList_ofList⟩

theorem not_shaped_index (place : Place) (rest : List Step) : ¬ Shaped (.index place :: rest) := by
  intro h
  obtain ⟨name, hlast⟩ := h.behind_name [] place rest rfl
  simp at hlast

theorem Shaped.tail_of_name {next : String}
    (h : Shaped (.property name :: .property next :: rest)) :
    Shaped (.property next :: rest) where
  isName other hother := h.isName other (List.mem_cons_of_mem _ hother)
  index_lt index hindex := h.index_lt index (List.mem_cons_of_mem _ hindex)
  behind_name before place after happend := by
    obtain ⟨other, hlast⟩ := h.behind_name (.property name :: before) place after
      (congrArg (.property name :: ·) happend)
    cases before with
    | nil => simp at happend
    | cons first before => exact ⟨other, by rwa [List.getLast?_cons_cons] at hlast⟩

theorem Shaped.tail_of_index (h : Shaped (.property name :: .index place :: rest)) :
    Shaped rest where
  isName other hother := h.isName other (by simp [hother])
  index_lt index hindex := h.index_lt index (by simp [hindex])
  behind_name before other after happend := by
    obtain ⟨found, hlast⟩ := h.behind_name (.property name :: .index place :: before) other after
      (by rw [happend]; rfl)
    cases before with
    | nil => simp at hlast
    | cons first before =>
      exact ⟨found, by rwa [List.getLast?_cons_cons, List.getLast?_cons_cons] at hlast⟩

/-- Each name with the index behind it, if there is one, is an element. -/
theorem Shaped.exists_elements : ∀ {steps : List Step}, Shaped steps →
    ∃ elements : List Element,
      elements.flatMap Element.steps = steps ∧ ∀ element ∈ elements, element.Fits
  | [], _ => ⟨[], rfl, by simp⟩
  | .index place :: rest, h => absurd h (not_shaped_index place rest)
  | [.property name], h => by
    have hfits : Element.Fits ⟨name, none⟩ := ⟨h.isName name (by simp), by simp⟩
    exact ⟨[⟨name, none⟩], rfl, by simpa using hfits⟩
  | .property name :: .property next :: rest, h => by
    obtain ⟨elements, hsteps, hfits⟩ := h.tail_of_name.exists_elements
    have hname : Element.Fits ⟨name, none⟩ := ⟨h.isName name (by simp), by simp⟩
    refine ⟨⟨name, none⟩ :: elements, ?_, List.forall_mem_cons.2 ⟨hname, hfits⟩⟩
    rw [List.flatMap_cons, hsteps]
    rfl
  | .property name :: .index place :: rest, h => by
    obtain ⟨elements, hsteps, hfits⟩ := h.tail_of_index.exists_elements
    have hname : Element.Fits ⟨name, some place⟩ := by
      refine ⟨h.isName name (by simp), fun index hindex => h.index_lt index ?_⟩
      obtain rfl : place = .at index := Option.some.inj hindex
      simp
    refine ⟨⟨name, some place⟩ :: elements, ?_, List.forall_mem_cons.2 ⟨hname, hfits⟩⟩
    rw [List.flatMap_cons, hsteps]
    rfl

theorem parse_render {steps : List Step} (h : Shaped steps) :
    ∃ path, parse (render steps) = .ok path ∧ path.steps = steps := by
  obtain ⟨elements, rfl, hfits⟩ := h.exists_elements
  exact exists_parse_iff.2 ⟨elements, spells_render hfits, rfl⟩

theorem exists_error_of_not_spells {source : String} (h : ∀ elements, ¬ Spells source elements) :
    ∃ fault, parse source = .error fault := by
  cases hparse : parse source with
  | error fault => exact ⟨fault, rfl⟩
  | ok path =>
    obtain ⟨elements, hspells, -⟩ := exists_parse_iff.1 ⟨path, hparse, rfl⟩
    exact absurd hspells (h elements)

/-- A text is a path exactly if the grammar spells it, and then the steps are those of its elements.
Any other text is refused, as a path to read and as a path to write, under the text as given. Shaped
steps are the steps of their written form, and to read a path is to look up its steps one by one. -/
theorem parse_accepts_grammar (source : String) :
    (∀ steps, (∃ path, parse source = .ok path ∧ path.steps = steps) ↔
      ∃ elements, Spells source elements ∧ elements.flatMap Element.steps = steps) ∧
    ((∀ elements, ¬ Spells source elements) → ∃ fault, parse source = .error fault ∧
      (∀ settings : Settings, settings.get source = .error (.invalidPath source fault)) ∧
      ∀ value tree, (Override.mk source value).write tree =
        ⟨tree, some (.invalidPath source fault)⟩) ∧
    ∀ steps, Shaped steps → ∃ path, parse (render steps) = .ok path ∧ path.steps = steps ∧
      ∀ root found, path.read root = some found ↔ root.Leads steps found := by
  refine ⟨fun steps => exists_parse_iff, fun hspells => ?_, fun steps hshaped => ?_⟩
  · obtain ⟨fault, hparse⟩ := exists_error_of_not_spells hspells
    refine ⟨fault, hparse, fun settings => ?_, fun value tree => ?_⟩
    · simp only [Settings.get, hparse]
    · simp only [Override.write, hparse]
  · obtain ⟨path, hparse, hsteps⟩ := parse_render hshaped
    refine ⟨path, hparse, hsteps, fun root found => ?_⟩
    rw [read, hsteps]
    exact Node.follow?_eq_some_iff

/-- A sign, leading zeros, a closing bracket in a name and a dot at the end are accepted, a negative
index is refused, and the place past an end is written as such. -/
theorem parse_accepts_grammar_spellings :
    (∃ elements, Spells "a[+07].b]." elements ∧
      elements.flatMap Element.steps = [.property "a", .index (.at 7), .property "b]"]) ∧
    (∀ elements, ¬ Spells "a[-1]" elements) ∧
    (∃ fault, parse "a[-1]" = .error fault ∧ ∀ settings : Settings,
      settings.get "a[-1]" = .error (.invalidPath "a[-1]" fault)) ∧
    Shaped [.property "a", .index .pastEnd, .property "b"] ∧
    ∃ path, parse "a[.length].b" = .ok path ∧
      path.steps = [.property "a", .index .pastEnd, .property "b"] := by
  have hnot : ∀ elements, ¬ Spells "a[-1]" elements := by
    intro elements hspells
    obtain ⟨path, hparse, -⟩ := ((parse_accepts_grammar "a[-1]").1 _).2 ⟨elements, hspells, rfl⟩
    have hrefused : parse "a[-1]" = .error .negativeIndex := by decide +kernel
    simp [hrefused] at hparse
  have hshaped : Shaped [.property "a", .index .pastEnd, .property "b"] := by
    refine ⟨?_, by simp, ?_⟩
    · intro name hname
      rcases (by simpa using hname : name = "a" ∨ name = "b") with rfl | rfl
      · exact ⟨by decide, by decide, by decide⟩
      · exact ⟨by decide, by decide, by decide⟩
    · intro before place after happend
      rcases before with _ | ⟨first, _ | ⟨second, _ | ⟨third, before⟩⟩⟩
      · simp at happend
      · exact ⟨"a", by simp_all⟩
      · simp at happend
      · simp at happend
  refine ⟨?spelled, hnot, ?refused, hshaped, ?rendered⟩
  case spelled =>
    refine ((parse_accepts_grammar "a[+07].b].").1 _).1
      ⟨⟨"a[+07].b].", "a[+07].b]", [⟨.property "a", "a", "[+07].b]"⟩,
        ⟨.index (.at 7), "a[+07]", "b]"⟩, ⟨.property "b]", "a[+07].b]", ""⟩]⟩, ?_, rfl⟩
    decide +kernel
  case refused =>
    obtain ⟨fault, hparse, hget, -⟩ := (parse_accepts_grammar "a[-1]").2.1 hnot
    exact ⟨fault, hparse, hget⟩
  case rendered =>
    obtain ⟨path, hparse, hsteps, -⟩ := (parse_accepts_grammar "").2.2 _ hshaped
    exact ⟨path, hparse, hsteps⟩

end Path

end LayeredConfig
