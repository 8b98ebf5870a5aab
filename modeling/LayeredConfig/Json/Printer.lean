import LayeredConfig.Json.Value

set_option autoImplicit false

/-!
# Writing trees as JSON

The compact form: no white space, members in key order, and in texts only quotes, backslashes and
the characters below space are escaped.
-/
namespace LayeredConfig.Json

/-- Two lower-case hexadecimal digits. -/
def hex2 (n : Nat) : List Char := [Nat.digitChar (n / 16), Nat.digitChar (n % 16)]

def escapeChar (c : Char) : List Char :=
  if c = '"' then ['\\', '"']
  else if c = '\\' then ['\\', '\\']
  else if c = '\x08' then ['\\', 'b']
  else if c = '\x0c' then ['\\', 'f']
  else if c = '\n' then ['\\', 'n']
  else if c = '\r' then ['\\', 'r']
  else if c = '\t' then ['\\', 't']
  else if c < ' ' then ['\\', 'u', '0', '0'] ++ hex2 c.toNat
  else [c]

def renderText (s : String) : List Char := '"' :: s.toList.flatMap escapeChar ++ ['"']

mutual

def render : Node → List Char
  | .null => "null".toList
  | .scalar text => renderText text
  | .object fields => '{' :: renderFields false fields ++ ['}']
  | .array items => '[' :: renderItems false items ++ [']']

/-- The items of an array, each behind a comma unless it is the first. -/
def renderItems (comma : Bool) : List Node → List Char
  | [] => []
  | node :: rest => (if comma then [','] else []) ++ render node ++ renderItems true rest

/-- The members of an object, each behind a comma unless it is the first. -/
def renderFields (comma : Bool) : List (String × Node) → List Char
  | [] => []
  | (key, node) :: rest =>
    (if comma then [','] else []) ++ renderText key ++ [':'] ++ render node ++
      renderFields true rest

end

def print (node : Node) : String := String.ofList (render node)

end LayeredConfig.Json
