import LayeredConfig.Node

set_option autoImplicit false

/-!
# Paths into a tree

A path is a chain of segments from the root. Each takes one step, to a property of an object or to
a place in an array, and knows the text consumed so far and the text still to come. The first
segment is the root, which takes no step; the parent of any other is the one before it.
-/
namespace LayeredConfig

/-- A place in an array: an index, or the place just past the last item. -/
inductive Place where
  | at (index : Nat)
  | pastEnd
deriving DecidableEq, Repr

/-- The index that a place means in an array of the given length. -/
def Place.resolve (length : Nat) : Place → Nat
  | .at index => index
  | .pastEnd => length

inductive Step where
  | property (name : String)
  | index (place : Place)
deriving DecidableEq, Repr

structure Segment where
  step : Step
  incoming : String
  remaining : String
deriving DecidableEq, Repr

/-- A position of the chain with the step that leads to it, the position of its parent, and the
texts consumed and left there. Only the root has neither step nor parent. -/
structure Link where
  step : Option Step
  parent : Option Nat
  incoming : String
  remaining : String
deriving DecidableEq, Repr

/-- `source` is the text as given, `text` the same without one final dot, and `segments` the chain
below the root. -/
structure Path where
  source : String
  text : String
  segments : List Segment
deriving DecidableEq, Repr

namespace Path

def steps (path : Path) : List Step := path.segments.map Segment.step

/-- The text consumed at each position of the chain, the root first. -/
def incomings (path : Path) : List String := "" :: path.segments.map Segment.incoming

/-- The text consumed by the last segment. -/
def terminal (path : Path) : String := path.incomings.getLastD ""

/-- The parent of a new position is the one that was last before. -/
def push (links : List Link) (segment : Segment) : List Link :=
  links ++ [⟨some segment.step, some (links.length - 1), segment.incoming, segment.remaining⟩]

/-- The positions, the root first. -/
def chain (path : Path) : List Link := path.segments.foldl push [⟨none, none, "", path.text⟩]

def parentOf? (path : Path) (link : Link) : Option Link := link.parent.bind (path.chain[·]?)

end Path

end LayeredConfig
