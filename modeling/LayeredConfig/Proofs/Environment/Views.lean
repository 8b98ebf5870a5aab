import LayeredConfig.Proofs.Environment.Assembly
import LayeredConfig.Proofs.Environment.Prefix

set_option autoImplicit false

/-!
# What the view under a prefix holds

With the prefix put back the view is the part of the entries whose names go on behind the separated
prefix, in their order. A view under a longer prefix is found in the view under a shorter one.
-/
namespace LayeredConfig.Environment

variable {separator : Char} {pre name : String}

/-- The name goes on behind the separated prefix. -/
def IsUnder (separator : Char) (pre name : String) : Prop :=
  ∃ rest, rest ≠ "" ∧ name = withSeparator separator pre ++ rest

theorem rest?_eq_some_iff_name {tail : List Char} :
    rest? (withSeparator separator pre).toList name.toList = some tail ↔
      String.ofList tail ≠ "" ∧ name = withSeparator separator pre ++ String.ofList tail := by
  rw [rest?_eq_some_iff, Ne, Ne, String.ofList_eq_empty_iff, ← String.toList_inj,
    String.toList_append, String.toList_ofList]

theorem isUnder_iff : IsUnder separator pre name ↔
    (rest? (withSeparator separator pre).toList name.toList).isSome := by
  rw [Option.isSome_iff_exists]
  constructor
  · rintro ⟨rest, hne, hname⟩
    refine ⟨rest.toList, rest?_eq_some_iff_name.2 ?_⟩
    rw [String.ofList_toList]
    exact ⟨hne, hname⟩
  · rintro ⟨tail, htail⟩
    exact ⟨String.ofList tail, rest?_eq_some_iff_name.1 htail⟩

instance : Decidable (IsUnder separator pre name) := decidable_of_iff _ isUnder_iff.symm

/-- No entry is lost or invented, and none changes its place or its value. -/
theorem map_under (separator : Char) (pre : String) (entries : Keyed String) :
    (under separator pre entries).map
        (fun entry => (withSeparator separator pre ++ entry.1, entry.2)) =
      entries.filter fun entry => IsUnder separator pre entry.1 := by
  induction entries with
  | nil => rfl
  | cons entry more ih =>
    obtain ⟨name, value⟩ := entry
    unfold under at ih ⊢
    cases hrest : rest? (withSeparator separator pre).toList name.toList with
    | none =>
      have hnot : ¬ IsUnder separator pre name := by simp [isUnder_iff, hrest]
      simpa [hrest, hnot] using ih
    | some tail =>
      have hunder : IsUnder separator pre name := by simp [isUnder_iff, hrest]
      have hname := (rest?_eq_some_iff_name.1 hrest).2
      simpa [hrest, hunder, ← hname] using ih

theorem withSeparator_eq (separator : Char) (pre : String) : withSeparator separator pre =
    if pre.toList.getLast? = some separator then pre else pre ++ String.singleton separator := by
  unfold withSeparator
  split
  · rfl
  · rw [String.append_singleton]

theorem withSeparator_append (separator : Char) (front : String) (hpre : pre ≠ "") :
    withSeparator separator (front ++ pre) = front ++ withSeparator separator pre := by
  have hne : pre.toList ≠ [] := fun hnil => hpre (String.toList_eq_nil_iff.1 hnil)
  have hlast : (front ++ pre).toList.getLast? = pre.toList.getLast? := by
    rw [String.toList_append, List.getLast?_append_of_ne_nil _ hne]
  rw [withSeparator_eq, withSeparator_eq, hlast]
  split
  · rfl
  · exact String.append_assoc

/-- What the longer prefix shows, the shorter one shows under a longer name. -/
theorem find?_under_nested {outer inner rest : String}
    (houter : outer.toList.getLast? ≠ some separator) (hinner : inner ≠ "") (hrest : rest ≠ "")
    (entries : Keyed String) :
    Keyed.find? rest (under separator (outer ++ String.singleton separator ++ inner) entries) =
      Keyed.find? (withSeparator separator inner ++ rest) (under separator outer entries) := by
  have hne : withSeparator separator inner ++ rest ≠ "" := by simp [hrest]
  have houter : withSeparator separator outer = outer ++ String.singleton separator := by
    rw [withSeparator_eq, if_neg houter]
  rw [find?_under _ _ hrest, find?_under _ _ hne, withSeparator_append _ _ hinner, houter,
    String.append_assoc, String.append_assoc]

theorem exists_property_overrides (env : Environment) :
    ∃ own, env.overrides = own ++ (declaredOverrides env.declared env.bound ++
        declaredOverrides env.declared env.process) ∧
      own.map (fun entry => (withSeparator '.' env.propertyPrefix ++ entry.path, entry.value)) =
        (env.properties.filter fun entry => IsUnder '.' env.propertyPrefix entry.1).map
          fun entry => (entry.1, some entry.2) := by
  refine ⟨(env.subproperties env.propertyPrefix).map fun entry => ⟨entry.1, some entry.2⟩, ?_, ?_⟩
  · exact List.append_assoc _ _ _
  · rw [← map_under, List.map_map, List.map_map]
    rfl

/-- A view of the properties has exactly those whose names go on behind the separated prefix, in the
order of these names. The overrides start with one entry for each of them under the property prefix,
and only declared variables follow. A view under a longer prefix is found in that under a shorter
one. -/
theorem subproperties_exact {env : Environment} (henv : Keyed.Ascending env.properties) :
    (∀ pre, withSeparator '.' pre =
      if pre.toList.getLast? = some '.' then pre else pre ++ ".") ∧
    (∀ pre, (∀ rest value, rest ≠ "" → ((rest, value) ∈ env.subproperties pre ↔
        env.property? (withSeparator '.' pre ++ rest) = some value)) ∧
      (env.subproperties pre).map (fun entry => (withSeparator '.' pre ++ entry.1, entry.2)) =
        env.properties.filter (fun entry => IsUnder '.' pre entry.1) ∧
      Keyed.Ascending (env.subproperties pre)) ∧
    (∃ own, env.overrides = own ++ (declaredOverrides env.declared env.bound ++
        declaredOverrides env.declared env.process) ∧
      own.map (fun entry => (withSeparator '.' env.propertyPrefix ++ entry.path, entry.value)) =
        (env.properties.filter fun entry => IsUnder '.' env.propertyPrefix entry.1).map
          fun entry => (entry.1, some entry.2)) ∧
    ∀ outer inner rest, outer.toList.getLast? ≠ some '.' → inner ≠ "" → rest ≠ "" →
      Keyed.find? rest (env.subproperties (outer ++ "." ++ inner)) =
        Keyed.find? (withSeparator '.' inner ++ rest) (env.subproperties outer) := by
  refine ⟨withSeparator_eq '.', fun pre => ⟨?found, ?exactly, ?ordered⟩, ?overrides, ?nested⟩
  case found =>
    intro rest value hrest
    have hview : Keyed.Ascending (env.subproperties pre) := ascending_under '.' pre henv
    rw [Keyed.mem_iff_find? hview, subproperties, find?_under _ _ hrest, property?]
  case exactly => exact map_under '.' pre env.properties
  case ordered => exact ascending_under '.' pre henv
  case overrides => exact exists_property_overrides env
  case nested =>
    intro outer inner rest houter hinner hrest
    exact find?_under_nested houter hinner hrest env.properties

/-- Names that are the prefix itself, or only start like it, are in no view. -/
theorem subproperties_exact_beside : ∃ env : Environment,
    env = (EnvironmentPlan.ofSettings [.property "bq" "0", .property "bq." "1",
      .property "bq..x" "2", .property "bq.a.x" "3", .property "bqa.x" "4"]).build [] ∧
    Keyed.Ascending env.properties ∧ ("a.x", "3") ∈ env.subproperties "bq" ∧
    Keyed.find? "x" (env.subproperties "bq.a") = Keyed.find? "a.x" (env.subproperties "bq") ∧
    Keyed.find? "x" (env.subproperties "bq..") = Keyed.find? ".x" (env.subproperties "bq") ∧
    (env.subproperties "bq").map (fun entry => ("bq." ++ entry.1, entry.2)) =
      [("bq..x", "2"), ("bq.a.x", "3")] := by
  have hordered := EnvironmentPlan.ascending_build_properties [.property "bq" "0",
    .property "bq." "1", .property "bq..x" "2", .property "bq.a.x" "3", .property "bqa.x" "4"] []
  obtain ⟨-, hviews, -, hnested⟩ := subproperties_exact hordered
  obtain ⟨hfound, hexactly, -⟩ := hviews "bq"
  refine ⟨_, rfl, hordered, ?_, ?_, ?_, ?_⟩
  · exact (hfound "a.x" "3" (by decide)).2 (by decide +kernel)
  · exact hnested "bq" "a" "x" (by decide) (by decide) (by decide)
  · exact hnested "bq" "." "x" (by decide) (by decide) (by decide)
  · exact hexactly.trans (by decide +kernel)

end LayeredConfig.Environment
