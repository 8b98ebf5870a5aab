import LayeredConfig.Environment.Basic
import LayeredConfig.Environment.VariableName

set_option autoImplicit false

/-!
# Assembling an environment

An environment is described by a sequence of settings. Those of one kind take effect in order, a
later one over an earlier one. Names of derived variables are made at the end, from the last
variable prefix, and the process is looked at only on request.
-/
namespace LayeredConfig

inductive EnvironmentSetting where
  | property (name value : String)
  | properties (pairs : List (String × String))
  | var (name value : String)
  | vars (pairs : List (String × String))
  | declare (path name : String)
  | derive (path : String)
  | propertyPrefix (pre : String)
  | varPrefix (pre : String)
  | system
deriving DecidableEq, Repr

/-- What the settings so far amount to. -/
structure EnvironmentPlan where
  properties : Keyed String
  bound : Keyed String
  declared : List Declaration
  derived : List String
  readsProcess : Bool
  propertyPrefix : String
  varPrefix : String

namespace EnvironmentPlan

def start : EnvironmentPlan := ⟨[], [], [], [], false, "bq", "BQ"⟩

def add (plan : EnvironmentPlan) : EnvironmentSetting → EnvironmentPlan
  | .property name value => { plan with properties := Keyed.insert name value plan.properties }
  | .properties pairs => { plan with properties := Keyed.insertAll plan.properties pairs }
  | .var name value => { plan with bound := Keyed.insert name value plan.bound }
  | .vars pairs => { plan with bound := Keyed.insertAll plan.bound pairs }
  | .declare path name => { plan with declared := plan.declared ++ [⟨path, name⟩] }
  | .derive path => { plan with derived := plan.derived ++ [path] }
  | .propertyPrefix pre => { plan with propertyPrefix := pre }
  | .varPrefix pre => { plan with varPrefix := pre }
  | .system => { plan with readsProcess := true }

def ofSettings (settings : List EnvironmentSetting) : EnvironmentPlan :=
  settings.foldl add start

/-- Explicit declarations come first, derived ones after them. -/
def build (process : Keyed String) (plan : EnvironmentPlan) : Environment where
  properties := plan.properties
  bound := plan.bound
  process := if plan.readsProcess then process else []
  declared := plan.declared ++
    plan.derived.map fun path => ⟨path, Environment.variableName plan.varPrefix path⟩
  propertyPrefix := plan.propertyPrefix

end EnvironmentPlan

end LayeredConfig
