import LayeredConfig.Path.Basic

set_option autoImplicit false

/-!
# Following a path

A step leads from a node to at most one child. The place past the end of an array holds nothing,
so no reading step goes there.
-/
namespace LayeredConfig

def Node.step? (node : Node) : Step → Option Node
  | .property name => node.child? name
  | .index (.at i) => node.item? i
  | .index .pastEnd => none

/-- The node that a list of steps leads to. -/
def Node.follow? (node : Node) : List Step → Option Node
  | [] => some node
  | step :: rest =>
    match node.step? step with
    | some child => child.follow? rest
    | none => none

namespace Path

/-- The nodes after zero, one, two steps and so on; nothing from the first missing one on. -/
def trail (node : Option Node) : List Step → List (Option Node)
  | [] => [node]
  | step :: rest => node :: trail (node.bind (·.step? step)) rest

def read (path : Path) (root : Node) : Option Node := root.follow? path.steps

/-- Each position of the chain, by its consumed text, with the node found there. -/
def positions (path : Path) (root : Node) : List (String × Option Node) :=
  path.incomings.zip (trail (some root) path.steps)

end Path

end LayeredConfig
