import LayeredConfig.Environment.Basic
import LayeredConfig.Merge
import LayeredConfig.Settings.Basic
import LayeredConfig.Source

set_option autoImplicit false

/-!
# Building settings from layers

The documents of all sources are merged in order, empty ones left out; then the overrides of the
environment are applied, and after them the explicit ones. The first failure ends the build.
-/
namespace LayeredConfig

structure Layers where
  sources : List Source
  environment : Option Environment
  overrides : List Override

namespace Layers

/-- The documents of the sources that have one which is not null. -/
def documents (files : Files) : List Source → Except ConfigError (List Node)
  | [] => .ok []
  | source :: rest =>
    (source.load files).bind fun loaded =>
      (documents files rest).map fun more =>
        match loaded with
        | none => more
        | some .null => more
        | some root => root :: more

/-- All overrides in order, those of the environment first. -/
def allOverrides (layers : Layers) : List Override :=
  (layers.environment.map Environment.overrides).getD [] ++ layers.overrides

def build (files : Files) (layers : Layers) : Except ConfigError Settings :=
  (documents files layers.sources).bind fun docs =>
    let overridden := Override.applyAll (Node.merge docs) layers.allOverrides
    match overridden.error with
    | none => .ok ⟨overridden.tree⟩
    | some cause => .error cause

/-- Builds the settings and decodes their root. -/
def buildValue (files : Files) (layers : Layers) (schema : Schema) : Except ConfigError Value :=
  (layers.build files).bind fun settings => settings.decode "" schema

end Layers

end LayeredConfig
