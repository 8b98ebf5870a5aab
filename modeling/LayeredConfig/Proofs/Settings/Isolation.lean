import LayeredConfig.Proofs.Environment.Resolution
import LayeredConfig.Proofs.Settings.Build

set_option autoImplicit false

/-!
# What of an environment a build can see

A build sees an environment through its overrides alone, and these depend on the declared variables
and on the properties under the property prefix. Environments that differ elsewhere cannot be told
apart.
-/
namespace LayeredConfig

namespace Environment

variable {left right : Environment}

/-- The environments have the same prefix and the same declarations. In either scope they agree on
every variable that is declared, and they agree on every property under the prefix. -/
structure AgreesWith (left right : Environment) : Prop where
  propertyPrefix : left.propertyPrefix = right.propertyPrefix
  declared : left.declared = right.declared
  bound : ∀ declaration ∈ left.declared,
    Keyed.find? declaration.name left.bound = Keyed.find? declaration.name right.bound
  process : ∀ declaration ∈ left.declared,
    Keyed.find? declaration.name left.process = Keyed.find? declaration.name right.process
  property : ∀ rest, rest ≠ "" →
    left.property? (withSeparator '.' left.propertyPrefix ++ rest) =
      right.property? (withSeparator '.' left.propertyPrefix ++ rest)

theorem declaredOverrides_congr {declared : List Declaration} {scope other : Keyed String}
    (h : ∀ declaration ∈ declared,
      Keyed.find? declaration.name scope = Keyed.find? declaration.name other) :
    declaredOverrides declared scope = declaredOverrides declared other := by
  apply List.filterMap_congr
  intro declaration hdeclaration
  rw [h declaration hdeclaration]

theorem AgreesWith.subproperties_eq (h : left.AgreesWith right) (hleft : left.Ordered)
    (hright : right.Ordered) : left.subproperties left.propertyPrefix =
      right.subproperties left.propertyPrefix := by
  refine Keyed.eq_of_find?_eq (hleft.ascending_subproperties _) (hright.ascending_subproperties _) ?_
  intro rest
  unfold subproperties
  by_cases hrest : rest = ""
  · rw [hrest, find?_empty_under, find?_empty_under]
  · rw [find?_under _ _ hrest, find?_under _ _ hrest]
    exact h.property rest hrest

theorem AgreesWith.overrides_eq (h : left.AgreesWith right) (hleft : left.Ordered)
    (hright : right.Ordered) : left.overrides = right.overrides := by
  unfold overrides
  rw [h.subproperties_eq hleft hright, declaredOverrides_congr h.bound,
    declaredOverrides_congr h.process, h.declared, h.propertyPrefix]

end Environment

namespace Layers

/-- Neither a variable that is not declared nor a property outside the prefix reaches a build: in
environments that agree on the rest, the overrides are the same, and every build gives the same
settings or the same error. -/
theorem build_eq_of_agreesWith {left right : Environment} (hleft : left.Ordered)
    (hright : right.Ordered) (h : left.AgreesWith right) :
    left.overrides = right.overrides ∧ ∀ files sources overrides,
      build files ⟨sources, some left, overrides⟩ =
        build files ⟨sources, some right, overrides⟩ := by
  have hoverrides := h.overrides_eq hleft hright
  refine ⟨hoverrides, fun files sources overrides => ?_⟩
  have hall : allOverrides ⟨sources, some left, overrides⟩ =
      allOverrides ⟨sources, some right, overrides⟩ := by
    simp [allOverrides, hoverrides]
  unfold build
  rw [hall]

/-- On one side there are a property that starts like the prefix and one that is the prefix itself, a
bound variable and the variables of the process, of which none is declared. -/
theorem build_eq_of_agreesWith_undeclared : ∃ left right : Environment,
    left = (EnvironmentPlan.ofSettings [.property "bq.a" "1", .var "V" "2",
      .declare "b" "V"]).build [("V", "3")] ∧
    right = (EnvironmentPlan.ofSettings [.property "bq.a" "1", .property "bq." "4",
      .property "bqa" "5", .var "V" "2", .var "BQ_A" "6", .declare "b" "V"]).build [("V", "7")] ∧
    left.Ordered ∧ right.Ordered ∧ left.AgreesWith right ∧ left.overrides = right.overrides ∧
    build .empty ⟨[.document "base" (.object [("c", .null)])], some right, [⟨"d", none⟩]⟩ =
      .ok ⟨.object [("a", .scalar "1"), ("b", .scalar "2"), ("c", .null), ("d", .null)]⟩ := by
  have hprocess : ∀ value : String, Keyed.Ascending [("V", value)] := fun value => by
    simp [Keyed.Ascending]
  refine ⟨_, _, rfl, rfl, ?left, ?right, ?agrees,
    (build_eq_of_agreesWith ?left ?right ?agrees).1, ?build⟩
  case build =>
    rw [← (build_eq_of_agreesWith ?left ?right ?agrees).2]
    exact build_of_applyAll rfl (by decide +kernel)
  case left => exact EnvironmentPlan.ordered_build _ _ (hprocess "3")
  case right => exact EnvironmentPlan.ordered_build _ _ (hprocess "7")
  case agrees =>
    refine ⟨rfl, rfl, by decide +kernel, by decide +kernel, ?_⟩
    intro rest hrest
    unfold Environment.property?
    rw [← Environment.find?_under _ _ hrest, ← Environment.find?_under _ _ hrest]
    refine congrArg (Keyed.find? rest) ?_
    decide +kernel

end Layers

end LayeredConfig
