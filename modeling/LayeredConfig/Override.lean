import LayeredConfig.Error
import LayeredConfig.Path.Parser

set_option autoImplicit false

/-!
# Overrides

An override sets one place of a tree to a text or to an explicit null. Overrides are applied in
order. The first that fails ends the application; the tree keeps what was written until then, the
parents that the failing override created included.
-/
namespace LayeredConfig

structure Override where
  path : String
  value : Option String
deriving DecidableEq, Repr

/-- A tree after some overrides and, if one of them failed, why. -/
structure Overridden where
  tree : Node
  error : Option ConfigError

namespace Override

/-- Writes the value at the path, whose text is parsed first. -/
def write (entry : Override) (tree : Node) : Overridden :=
  match Path.parse entry.path with
  | .error fault => ⟨tree, some (.invalidPath entry.path fault)⟩
  | .ok path =>
    let written := path.write tree (Node.ofText? entry.value)
    ⟨written.tree, written.error.map .invalidWrite⟩

def applyAll (tree : Node) : List Override → Overridden
  | [] => ⟨tree, none⟩
  | entry :: rest =>
    let written := entry.write tree
    match written.error with
    | none => applyAll written.tree rest
    | some cause => ⟨written.tree, some (.invalidOverride entry.path cause)⟩

end Override

end LayeredConfig
