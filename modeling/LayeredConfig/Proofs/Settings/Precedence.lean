import LayeredConfig.Proofs.Environment.Assembly
import LayeredConfig.Proofs.Environment.Prefix
import LayeredConfig.Proofs.Override.Run
import LayeredConfig.Proofs.Settings.Build

set_option autoImplicit false

/-!
# Which layer a built value comes from

A build that succeeds has loaded every source and applied every override. At a place given by names
the strongest layer that has an override for it decides, and the merged documents where none has.
-/
namespace LayeredConfig

namespace Environment

/-- The overrides of the environment, the strongest layer first: the declared variables of the
process, those bound in the program, the properties. -/
def ranked (env : Environment) : List (List Override) :=
  [declaredOverrides env.declared env.process, declaredOverrides env.declared env.bound,
    (env.subproperties env.propertyPrefix).map fun entry => ⟨entry.1, some entry.2⟩]

theorem overrides_eq (env : Environment) : env.overrides = env.ranked.reverse.flatten := by
  simp [overrides, ranked]

end Environment

theorem Override.valueAt?_flatten (steps : List Step) (ranks : List (List Override)) :
    valueAt? steps ranks.reverse.flatten = ranks.findSome? (valueAt? steps) := by
  induction ranks with
  | nil => rfl
  | cons rank rest ih =>
    rw [List.reverse_cons, List.flatten_append, valueAt?_append, ih, List.findSome?_cons]
    rw [List.flatten_cons, List.flatten_nil, List.append_nil]
    cases valueAt? steps rank <;> rfl

namespace Layers

variable {files : Files} {layers : Layers} {settings : Settings}

/-- All overrides, the strongest layer first. -/
def ranked (layers : Layers) : List (List Override) :=
  layers.overrides :: (layers.environment.map Environment.ranked).getD []

theorem allOverrides_eq (layers : Layers) :
    layers.allOverrides = layers.ranked.reverse.flatten := by
  unfold allOverrides ranked
  cases layers.environment with
  | none => simp
  | some env => simp [Environment.overrides_eq]

end Layers

end LayeredConfig
