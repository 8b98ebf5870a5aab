import LayeredConfig.Environment.Builder
import LayeredConfig.Proofs.Keyed

set_option autoImplicit false

/-!
# What an environment is assembled to

The declarations of a finished environment are the explicit ones in the order they were made, then
the derived ones. Its properties and its variables stand in key order.
-/
namespace LayeredConfig

/-- The properties and the variables of both kinds are in key order. Every environment that was
assembled over a process in key order is so, by `EnvironmentPlan.ordered_build`. -/
structure Environment.Ordered (env : Environment) : Prop where
  properties : Keyed.Ascending env.properties
  bound : Keyed.Ascending env.bound
  process : Keyed.Ascending env.process

namespace EnvironmentSetting

def declaration? : EnvironmentSetting → Option Declaration
  | .declare path name => some ⟨path, name⟩
  | _ => none

def derivation? : EnvironmentSetting → Option String
  | .derive path => some path
  | _ => none

def varPrefix? : EnvironmentSetting → Option String
  | .varPrefix pre => some pre
  | _ => none

/-- The declarations that the settings amount to. -/
def declarations (settings : List EnvironmentSetting) : List Declaration :=
  let pre := (settings.filterMap varPrefix?).getLastD "BQ"
  settings.filterMap declaration? ++
    (settings.filterMap derivation?).map fun path => ⟨path, Environment.variableName pre path⟩

end EnvironmentSetting

namespace EnvironmentPlan

open EnvironmentSetting

variable (plan : EnvironmentPlan) (setting : EnvironmentSetting)
  (settings : List EnvironmentSetting)

theorem add_declared : (plan.add setting).declared =
    plan.declared ++ setting.declaration?.toList := by
  cases setting <;> simp [add, declaration?]

theorem add_derived : (plan.add setting).derived = plan.derived ++ setting.derivation?.toList := by
  cases setting <;> simp [add, derivation?]

theorem add_varPrefix : (plan.add setting).varPrefix =
    setting.varPrefix?.getD plan.varPrefix := by
  cases setting <;> rfl

theorem foldl_add_declared : (settings.foldl add plan).declared =
    plan.declared ++ settings.filterMap declaration? := by
  induction settings generalizing plan with
  | nil => simp
  | cons setting rest ih =>
    rw [List.foldl_cons, ih, add_declared, List.append_assoc]
    cases h : setting.declaration? with
    | none => simp [h]
    | some declaration => simp [h]

theorem foldl_add_derived : (settings.foldl add plan).derived =
    plan.derived ++ settings.filterMap derivation? := by
  induction settings generalizing plan with
  | nil => simp
  | cons setting rest ih =>
    rw [List.foldl_cons, ih, add_derived, List.append_assoc]
    cases h : setting.derivation? with
    | none => simp [h]
    | some path => simp [h]

theorem foldl_add_varPrefix : (settings.foldl add plan).varPrefix =
    (settings.filterMap varPrefix?).getLastD plan.varPrefix := by
  induction settings generalizing plan with
  | nil => rfl
  | cons setting rest ih =>
    rw [List.foldl_cons, ih, add_varPrefix]
    cases h : setting.varPrefix? with
    | none => rw [List.filterMap_cons_none h, Option.getD_none]
    | some pre => rw [List.filterMap_cons_some h, Option.getD_some, List.getLastD_cons]

/-- The properties and the bound variables are in key order. -/
structure Ordered (plan : EnvironmentPlan) : Prop where
  properties : Keyed.Ascending plan.properties
  bound : Keyed.Ascending plan.bound

variable {plan}

theorem Ordered.add (h : plan.Ordered) : (plan.add setting).Ordered := by
  cases setting with
  | property name value => exact ⟨Keyed.ascending_insert name value h.properties, h.bound⟩
  | properties pairs => exact ⟨Keyed.ascending_insertAll pairs h.properties, h.bound⟩
  | var name value => exact ⟨h.properties, Keyed.ascending_insert name value h.bound⟩
  | vars pairs => exact ⟨h.properties, Keyed.ascending_insertAll pairs h.bound⟩
  | _ => exact ⟨h.properties, h.bound⟩

theorem Ordered.foldl_add (h : plan.Ordered) : (settings.foldl EnvironmentPlan.add plan).Ordered := by
  induction settings generalizing plan with
  | nil => exact h
  | cons setting rest ih => exact ih (h.add setting)

theorem ordered_ofSettings : (ofSettings settings).Ordered :=
  Ordered.foldl_add settings ⟨List.Pairwise.nil, List.Pairwise.nil⟩

variable (process : Keyed String)

theorem build_declared : ((ofSettings settings).build process).declared =
    declarations settings := by
  simp only [build, ofSettings, foldl_add_declared, foldl_add_derived, foldl_add_varPrefix,
    declarations]
  rfl

theorem ascending_build_properties :
    Keyed.Ascending ((ofSettings settings).build process).properties :=
  (ordered_ofSettings settings).properties

theorem ordered_build (h : Keyed.Ascending process) :
    ((ofSettings settings).build process).Ordered := by
  obtain ⟨hproperties, hbound⟩ := ordered_ofSettings settings
  refine ⟨hproperties, hbound, ?_⟩
  unfold build
  dsimp only
  split
  · exact h
  · exact List.Pairwise.nil

end EnvironmentPlan

end LayeredConfig
