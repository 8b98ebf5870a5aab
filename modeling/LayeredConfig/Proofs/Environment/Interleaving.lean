import LayeredConfig.Proofs.Environment.Assembly

set_option autoImplicit false

/-!
# Settings of different kinds

Every part of a plan is the work of settings of one kind. So settings of different kinds may be
mixed in any way: as long as those of one kind keep their order, the same environment comes out.
-/
namespace LayeredConfig

namespace EnvironmentSetting

inductive Kind where
  | property
  | variable
  | declaration
  | derivation
  | propertyPrefix
  | varPrefix
  | system
deriving DecidableEq, Repr

def kind : EnvironmentSetting → Kind
  | .property _ _ | .properties _ => .property
  | .var _ _ | .vars _ => .variable
  | .declare _ _ => .declaration
  | .derive _ => .derivation
  | .propertyPrefix _ => .propertyPrefix
  | .varPrefix _ => .varPrefix
  | .system => .system

/-- The settings of one kind, in their order. -/
def ofKind (kind : Kind) (settings : List EnvironmentSetting) : List EnvironmentSetting :=
  settings.filter (·.kind = kind)

/-- Both mix the same settings of each kind. How often the process is asked for does not count. -/
structure SameByKind (settings others : List EnvironmentSetting) : Prop where
  ofKind : ∀ kind, kind ≠ .system → ofKind kind settings = ofKind kind others
  system : .system ∈ settings ↔ .system ∈ others

end EnvironmentSetting

namespace EnvironmentPlan

open EnvironmentSetting

attribute [ext] EnvironmentPlan

variable {α : Type} {part : EnvironmentPlan → α} {kind : Kind} {plan other : EnvironmentPlan}
variable {settings others : List EnvironmentSetting}

/-- Settings of other kinds leave the part alone, and what a setting makes of it depends on nothing
but the part as it was. -/
structure MadeBy (kind : Kind) (part : EnvironmentPlan → α) : Prop where
  skip : ∀ plan setting, setting.kind ≠ kind → part (plan.add setting) = part plan
  congr : ∀ plan other setting, part plan = part other →
    part (plan.add setting) = part (other.add setting)

theorem MadeBy.foldl_congr (h : MadeBy kind part) (settings : List EnvironmentSetting)
    (hpart : part plan = part other) :
    part (settings.foldl add plan) = part (settings.foldl add other) := by
  induction settings generalizing plan other with
  | nil => exact hpart
  | cons setting rest ih => exact ih (h.congr plan other setting hpart)

/-- Only the settings of the kind count. -/
theorem MadeBy.foldl_ofKind (h : MadeBy kind part) (settings : List EnvironmentSetting)
    (plan : EnvironmentPlan) :
    part (settings.foldl add plan) = part ((ofKind kind settings).foldl add plan) := by
  unfold ofKind
  induction settings generalizing plan with
  | nil => rfl
  | cons setting rest ih =>
    by_cases hkind : setting.kind = kind
    · rw [List.filter_cons_of_pos (by simpa using hkind)]
      exact ih (plan.add setting)
    · -- The plan is another one now, but with the same part, and equal parts stay equal.
      rw [List.filter_cons_of_neg (by simpa using hkind), List.foldl_cons,
        h.foldl_congr rest (h.skip plan setting hkind)]
      exact ih plan

theorem MadeBy.eq_of_sameByKind (h : MadeBy kind part) (hkind : kind ≠ .system)
    (hsame : SameByKind settings others) :
    part (ofSettings settings) = part (ofSettings others) := by
  unfold ofSettings
  rw [h.foldl_ofKind, hsame.ofKind kind hkind, ← h.foldl_ofKind]

theorem madeBy_properties : MadeBy .property properties := by
  refine ⟨fun plan setting h => ?_, fun plan other setting h => ?_⟩
  · cases setting with
    | property | properties => exact absurd rfl h
    | _ => rfl
  · cases setting with
    | property name value => exact congrArg (Keyed.insert name value) h
    | properties pairs => exact congrArg (Keyed.insertAll · pairs) h
    | _ => exact h

theorem madeBy_bound : MadeBy .variable bound := by
  refine ⟨fun plan setting h => ?_, fun plan other setting h => ?_⟩
  · cases setting with
    | var | vars => exact absurd rfl h
    | _ => rfl
  · cases setting with
    | var name value => exact congrArg (Keyed.insert name value) h
    | vars pairs => exact congrArg (Keyed.insertAll · pairs) h
    | _ => exact h

theorem madeBy_declared : MadeBy .declaration declared := by
  refine ⟨fun plan setting h => ?_, fun plan other setting h => ?_⟩
  · cases setting with
    | declare => exact absurd rfl h
    | _ => rfl
  · rw [add_declared, add_declared, h]

theorem madeBy_derived : MadeBy .derivation derived := by
  refine ⟨fun plan setting h => ?_, fun plan other setting h => ?_⟩
  · cases setting with
    | derive => exact absurd rfl h
    | _ => rfl
  · rw [add_derived, add_derived, h]

theorem madeBy_propertyPrefix : MadeBy .propertyPrefix propertyPrefix := by
  refine ⟨fun plan setting h => ?_, fun plan other setting h => ?_⟩
  · cases setting with
    | propertyPrefix => exact absurd rfl h
    | _ => rfl
  · cases setting with
    | propertyPrefix pre => rfl
    | _ => exact h

theorem madeBy_varPrefix : MadeBy .varPrefix varPrefix := by
  refine ⟨fun plan setting h => ?_, fun plan other setting h => ?_⟩
  · cases setting with
    | varPrefix => exact absurd rfl h
    | _ => rfl
  · rw [add_varPrefix, add_varPrefix, h]

theorem foldl_add_readsProcess (settings : List EnvironmentSetting) (plan : EnvironmentPlan) :
    (settings.foldl add plan).readsProcess =
      (plan.readsProcess || decide (.system ∈ settings)) := by
  induction settings generalizing plan with
  | nil => simp
  | cons setting rest ih =>
    rw [List.foldl_cons, ih]
    cases setting <;> simp [add]

theorem ofSettings_eq_of_sameByKind (h : SameByKind settings others) :
    ofSettings settings = ofSettings others := by
  have hsystem : (ofSettings settings).readsProcess = (ofSettings others).readsProcess := by
    simp only [ofSettings, foldl_add_readsProcess, h.system]
  exact EnvironmentPlan.ext (madeBy_properties.eq_of_sameByKind (by decide) h)
    (madeBy_bound.eq_of_sameByKind (by decide) h) (madeBy_declared.eq_of_sameByKind (by decide) h)
    (madeBy_derived.eq_of_sameByKind (by decide) h) hsystem
    (madeBy_propertyPrefix.eq_of_sameByKind (by decide) h)
    (madeBy_varPrefix.eq_of_sameByKind (by decide) h)

/-- Settings that mix the same settings of each kind build the same environment over every process,
so no look-up and no override tells them apart. Its declarations are the explicit ones and then the
derived ones, all of them named with the last variable prefix. -/
theorem build_eq_of_sameByKind (process : Keyed String) (h : SameByKind settings others) :
    (ofSettings settings).build process = (ofSettings others).build process ∧
    ((ofSettings settings).build process).declared = settings.filterMap declaration? ++
      (settings.filterMap derivation?).map fun path =>
        ⟨path, Environment.variableName ((settings.filterMap varPrefix?).getLastD "BQ") path⟩ :=
  ⟨congrArg (build process) (ofSettings_eq_of_sameByKind h), build_declared settings process⟩

/-- The last variable prefix is given behind all declarations on the one side and before them on the
other, and a property is set twice. -/
theorem build_eq_of_sameByKind_late : ∃ settings others : List EnvironmentSetting,
    settings = [.derive "a.b", .property "bq.k" "1", .varPrefix "X", .declare "c" "V", .system,
      .vars [("APP_A_B", "2")], .property "app.k" "3", .derive "d", .varPrefix "APP",
      .propertyPrefix "app", .properties [("app.k", "4")]] ∧
    others = [.system, .propertyPrefix "app", .varPrefix "X", .varPrefix "APP",
      .property "bq.k" "1", .declare "c" "V", .property "app.k" "3", .derive "a.b",
      .properties [("app.k", "4")], .system, .derive "d", .vars [("APP_A_B", "2")]] ∧
    SameByKind settings others ∧
    ((ofSettings settings).build [("V", "5")]).declared =
      [⟨"c", "V"⟩, ⟨"a.b", "APP_A_B"⟩, ⟨"d", "APP_D"⟩] ∧
    ((ofSettings others).build [("V", "5")]).overrides =
      [⟨"k", some "4"⟩, ⟨"a.b", some "2"⟩, ⟨"c", some "5"⟩] := by
  refine ⟨_, _, rfl, rfl, ?same, (build_eq_of_sameByKind _ ?same).2.trans ?declared,
    (congrArg Environment.overrides (build_eq_of_sameByKind _ ?same).1).symm.trans ?overrides⟩
  case same =>
    refine ⟨fun kind hkind => ?_, by decide⟩
    cases kind with
    | system => exact absurd rfl hkind
    | _ => rfl
  case declared => decide +kernel
  case overrides => decide +kernel

end EnvironmentPlan

end LayeredConfig
