import LayeredConfig.Files
import LayeredConfig.Text.Fold

set_option autoImplicit false

/-!
# Document formats

The format of a file follows from its extension, and YAML stands in where there is no known one.
-/
namespace LayeredConfig

inductive Format where
  | yaml
  | json
  | toml
deriving DecidableEq, Repr

namespace Format

/-- The last component of a path, unless it leads back. Trailing slashes and single dots do not
count, except a dot in front. -/
def fileName? (path : String) : Option String :=
  let names := Files.components path
  let names := (names.take 1).filter (!·.isEmpty) ++ (names.drop 1).filter (!Files.staysHere ·)
  match names.getLast? with
  | some "." => none
  | some ".." => none
  | name => name

/-- The part of a file name behind its last dot, unless nothing stands in front of that dot. -/
def extension? (name : String) : Option String :=
  let cs := name.toList.reverse
  match cs.dropWhile (· != '.') with
  | _ :: _ :: _ => some (String.ofList (cs.takeWhile (· != '.')).reverse)
  | _ => none

def ofPath (path : String) : Format :=
  match (fileName? path).bind extension? with
  | none => .yaml
  | some ext =>
    if Text.agree ext "json" then .json
    else if Text.agree ext "toml" then .toml
    else .yaml

end Format

end LayeredConfig
