import LayeredConfig.Path.Basic

set_option autoImplicit false

/-!
# Writing through a path

A write walks the path and creates what is missing: a null becomes the object or the array that the
next step needs, a missing property or the place just past the end of an array becomes a null. At
the end the node takes the place it reached. A write that fails keeps what it has created.
-/
namespace LayeredConfig

/-- Why a write stops at a segment. `path` is the text consumed up to the container and `field` the
text consumed with the failing step. -/
inductive WriteError where
  | emptyPath
  | unexpectedNode (path field : String) (expected found : Node.Kind)
  | outOfBounds (path : String) (index length : Nat)
deriving DecidableEq, Repr

/-- The tree after a write and, if the write failed, the reason. -/
structure Written where
  tree : Node
  error : Option WriteError

namespace Node

/-- The children of an object, where null counts as an object without any. -/
def openFields? : Node → Option (Keyed Node)
  | .null => some []
  | .object fields => some fields
  | _ => none

/-- The items of an array, where null counts as an array without any. -/
def openItems? : Node → Option (List Node)
  | .null => some []
  | .array items => some items
  | _ => none

end Node

/-- Replaces the item at an index, or adds it when the index is the length. -/
def setItem (items : List Node) (index : Nat) (item : Node) : List Node :=
  if index = items.length then items ++ [item] else items.set index item

namespace Path

/-- Writes `value` below `node`, which `parent` is the consumed text of. -/
def writeBelow (value : Node) (parent : String) (node : Node) : List Segment → Written
  | [] => ⟨value, none⟩
  | segment :: rest =>
    match segment.step with
    | .property name =>
      match node.openFields? with
      | none =>
        ⟨node, some (.unexpectedNode parent segment.incoming .object node.kind)⟩
      | some fields =>
        let child := (Keyed.find? name fields).getD .null
        let below := writeBelow value segment.incoming child rest
        ⟨.object (Keyed.insert name below.tree fields), below.error⟩
    | .index place =>
      match node.openItems? with
      | none =>
        ⟨node, some (.unexpectedNode parent segment.incoming .array node.kind)⟩
      | some items =>
        let index := place.resolve items.length
        if index ≤ items.length then
          let child := items[index]?.getD .null
          let below := writeBelow value segment.incoming child rest
          ⟨.array (setItem items index below.tree), below.error⟩
        else ⟨.array items, some (.outOfBounds parent index items.length)⟩

def write (path : Path) (root value : Node) : Written :=
  match path.segments with
  | [] => ⟨root, some .emptyPath⟩
  | segments => writeBelow value "" root segments

end Path

end LayeredConfig
