set_option autoImplicit false

/-!
# Names of derived variables

The variable of a path is named after it: a prefix, then the runs of ASCII letters and digits of
the path in upper case, all joined by underscores.
-/
namespace LayeredConfig.Environment

def isAlphanumeric (c : Char) : Bool := c.isAlpha || c.isDigit

/-- Walks over the path; `pending` says that an underscore is due before the next letter or digit,
and `started` that something has been written. -/
def nameChars (started pending : Bool) : List Char → List Char
  | [] => []
  | c :: rest =>
    if isAlphanumeric c then
      (if pending then ['_', c.toUpper] else [c.toUpper]) ++ nameChars true false rest
    else nameChars started started rest

def variableName (pre path : String) : String :=
  let started := !pre.isEmpty
  pre ++ String.ofList (nameChars started started path.toList)

end LayeredConfig.Environment
