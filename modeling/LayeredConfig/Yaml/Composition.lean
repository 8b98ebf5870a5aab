import LayeredConfig.Yaml.Raw
import LayeredConfig.Yaml.Scalar

set_option autoImplicit false

/-!
# From nodes to values

Aliases are replaced by what they mean, scalars resolved, and the names of local tags put around
their values. No mapping has two equal keys. Containers nest to a limit, which also ends an alias inside
its own anchor, and the number of aliases followed is bounded by the size of the document.
-/
namespace LayeredConfig.Yaml

/-- At most this many containers lie inside one another. -/
def maxDepth : Nat := 128

/-- Counts the aliases followed so far. -/
abbrev Compose (α : Type) : Type := StateT Nat Option α

namespace Compose

def lift {α : Type} (found : Option α) : Compose α := fun followed => found.map (·, followed)

/-- Puts the name of a local tag around a value. -/
def wrap (tag : Option Tag) (value : Value) : Value :=
  match tag.bind Tag.name? with
  | some name => .tagged name value
  | none => value

/-- A tag that gives no name is left to the scalar. -/
def scalarTag (tag : Option Tag) : Option Tag := if (tag.bind Tag.name?).isSome then none else tag

/-- The entries of a mapping, refused if two keys are equal. -/
def distinct : List (Value × Value) → Option (List (Value × Value))
  | [] => some []
  | entry :: rest =>
    if rest.any fun other => entry.1.same other.1 then none
    else (distinct rest).map (entry :: ·)

def entries (compose : Raw → Compose Value) (raw : List (Raw × Raw)) :
    Compose (List (Value × Value)) :=
  raw.mapM fun entry => do
    let key ← compose entry.1
    return (key, ← compose entry.2)

/-- The value of a node that is no alias, where `compose` reads what is inside it. -/
def body (compose : Raw → Compose Value) : Raw → Compose Value
  | .alias _ => lift none
  | .scalar tag text plain => do
    return wrap tag (← lift (Scalar.value? (scalarTag tag) text plain))
  | .sequence tag items => do return wrap tag (.sequence (← items.mapM compose))
  | .mapping tag raw => do
    return wrap tag (.mapping (← lift (distinct (← entries compose raw))))

/-- The node that an alias means, or the node itself. -/
def follow (doc : RawDocument) : Raw → Compose Raw
  | .alias number => do
    modify (· + 1)
    if doc.events * 100 < (← get) then lift none else lift (doc.anchored? number)
  | raw => return raw

/-- A scalar stands at any depth, a container only above the limit. -/
def value (doc : RawDocument) : Nat → Raw → Compose Value
  | 0, raw => do
    match ← follow doc raw with
    | .scalar tag text plain => body (fun _ => lift none) (.scalar tag text plain)
    | _ => lift none
  | depth + 1, raw => do body (value doc depth) (← follow doc raw)

end Compose

def RawDocument.value? (doc : RawDocument) : Option Value :=
  (Compose.value doc maxDepth doc.root 0).map Prod.fst

end LayeredConfig.Yaml
