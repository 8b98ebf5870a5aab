import LayeredConfig.Node

set_option autoImplicit false

/-!
# Merging documents

Two objects are merged key by key; in every other pair the later document wins whole, nulls and
arrays included.
-/
namespace LayeredConfig.Node

mutual

/-- The documents `left` and `right` as one, where `right` has the last word. -/
def combine : Node → Node → Node
  | .object base, .object overlay => .object (combineFields base overlay)
  | _, right => right

def combineFields (base : List (String × Node)) : List (String × Node) → List (String × Node)
  | [] => base
  | (key, value) :: rest =>
    let merged :=
      match Keyed.find? key base with
      | some existing => combine existing value
      | none => value
    combineFields (Keyed.insert key merged base) rest

end

/-- All documents as one, later ones over earlier ones. No documents make an empty object. -/
def merge : List Node → Node
  | [] => emptyObject
  | first :: rest => rest.foldl combine first

end LayeredConfig.Node
