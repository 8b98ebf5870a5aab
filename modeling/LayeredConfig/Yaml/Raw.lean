import LayeredConfig.Yaml.Tag

set_option autoImplicit false

/-!
# Nodes before aliases are resolved

The structure of a document with tags in full. An alias refers to an anchor by number; of several
nodes with one number it means the one that starts last.
-/
namespace LayeredConfig.Yaml

inductive Raw where
  | alias (number : Nat)
  | scalar (tag : Option Tag) (text : String) (plain : Bool)
  | sequence (tag : Option Tag) (items : List Raw)
  | mapping (tag : Option Tag) (entries : List (Raw × Raw))
deriving Inhabited

/-- A node with an anchor: its number and when it starts. -/
structure Anchored where
  number : Nat
  start : Nat
  node : Raw

/-- A document with its anchored nodes and the number of its events: scalars, aliases, and the two
ends of each collection. -/
structure RawDocument where
  root : Raw
  anchored : List Anchored
  events : Nat

/-- The node that an alias means. -/
def RawDocument.anchored? (doc : RawDocument) (number : Nat) : Option Raw :=
  let named := doc.anchored.filter (·.number == number)
  (named.find? fun a => named.all (·.start ≤ a.start)).map (·.node)

end LayeredConfig.Yaml
