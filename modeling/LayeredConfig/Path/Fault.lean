set_option autoImplicit false

/-!
# What can be wrong with the text of a path

A source may refuse a path for a reason of its own.
-/
namespace LayeredConfig.Path

inductive Fault where
  | emptyName
  | finalSeparator
  | shortIndex
  | unclosedIndex
  | noInteger
  | negativeIndex
  | nestedIndex
  | textAfterIndex
  | other (reason : String)
deriving DecidableEq, Repr

def Fault.message : Fault → String
  | .emptyName => "empty property name"
  | .finalSeparator => "path must not end with a separator"
  | .shortIndex => "array index must be in the form [N]"
  | .unclosedIndex => "no closing array index bracket"
  | .noInteger => "non-integer array index"
  | .negativeIndex => "negative array index"
  | .nestedIndex => "nested array indices are not supported"
  | .textAfterIndex => "invalid path after array index"
  | .other reason => reason

end LayeredConfig.Path
