import LayeredConfig.Keyed
import LayeredConfig.Override

set_option autoImplicit false

/-!
# Environments

An environment holds properties, variables bound in the program, the variables of the process, and
declarations that tie a path to a variable. Its overrides come in increasing order of precedence:
the properties under the property prefix in key order, the declared variables bound in the program,
the declared variables of the process.
-/
namespace LayeredConfig

/-- A path tied to a variable. -/
structure Declaration where
  path : String
  name : String
deriving DecidableEq, Repr

structure Environment where
  properties : Keyed String
  bound : Keyed String
  process : Keyed String
  declared : List Declaration
  propertyPrefix : String

namespace Environment

/-- The text ends in the separator, which is added unless it is there. -/
def withSeparator (separator : Char) (pre : String) : String :=
  if pre.toList.getLast? = some separator then pre else pre.push separator

/-- The rest of `name` behind `start`, if there is one that is not empty. -/
def rest? (start name : List Char) : Option (List Char) :=
  if start.isPrefixOf name ∧ start.length < name.length then some (name.drop start.length)
  else none

/-- The entries whose names start with the separated prefix, under the rest of their names. -/
def under (separator : Char) (pre : String) (entries : Keyed String) : Keyed String :=
  let start := (withSeparator separator pre).toList
  entries.filterMap fun entry =>
    (rest? start entry.1.toList).map fun rest => (String.ofList rest, entry.2)

def property? (env : Environment) (name : String) : Option String :=
  Keyed.find? name env.properties

/-- The properties under a prefix, by the rest of their names. -/
def subproperties (env : Environment) (pre : String) : Keyed String :=
  under '.' pre env.properties

/-- The variables of the process hide those bound in the program. -/
def lookup? (env : Environment) (name : String) : Option String :=
  match Keyed.find? name env.process with
  | some value => some value
  | none => Keyed.find? name env.bound

/-- The variables under a prefix, by the rest of their names. -/
def subvariables (env : Environment) (pre : String) : Keyed String :=
  under '_' pre (Keyed.insertAll env.bound env.process)

/-- One override for each declaration whose variable is in the scope. -/
def declaredOverrides (declared : List Declaration) (scope : Keyed String) : List Override :=
  declared.filterMap fun declaration =>
    (Keyed.find? declaration.name scope).map fun value => ⟨declaration.path, some value⟩

def overrides (env : Environment) : List Override :=
  (env.subproperties env.propertyPrefix).map (fun entry => ⟨entry.1, some entry.2⟩) ++
    declaredOverrides env.declared env.bound ++ declaredOverrides env.declared env.process

end Environment

end LayeredConfig
