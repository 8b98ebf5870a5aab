import LayeredConfig.Decimal.Digits
import LayeredConfig.Decimal.Numeral
import LayeredConfig.Schema.Basic
import LayeredConfig.Text.Blank

set_option autoImplicit false

/-!
# Primitives in texts

Numbers and characters are read from a text without the blanks around it, booleans from the text as
it stands in any ASCII case. A text that does not read is quoted in full.
-/
namespace LayeredConfig.Schema

def integerOf? (type : IntegerType) (text : String) : Option Int :=
  match Decimal.integer? 10 type.signed (Text.trim text.toList) with
  | some n => if type.least ≤ n ∧ n ≤ type.greatest then some n else none
  | none => none

def floatOf? (format : Decimal.Format) (text : String) : Option Decimal.Binary :=
  Decimal.binary? format (Text.trim text.toList)

def charOf? (text : String) : Option Char :=
  match Text.trim text.toList with
  | [c] => some c
  | _ => none

def boolOf? (text : String) : Option Bool :=
  if Text.agree text "true" then some true
  else if Text.agree text "false" then some false
  else none

/-- The value that the text of a scalar stands for. -/
def primitive? (schema : Schema) (text : String) : Option Value :=
  match schema with
  | .bool => (boolOf? text).map .bool
  | .integer type => (integerOf? type text).map .integer
  | .float format _ => (floatOf? format text).map .float
  | .char => (charOf? text).map .char
  | _ => none

def decodePrimitive (schema : Schema) : Node → Except DecodeError Value
  | .scalar s =>
    match schema.primitive? s with
    | some value => .ok value
    | none => .error (.invalidValue s schema.expected)
  | node => .error (.invalidType node.found schema.expected)

/-- A text that is not to be parsed: it is a text, or a character if it holds exactly one, and it is
kept, or passed over, where nothing is asked of a node. -/
def decodeVerbatim (schema : Schema) (text : String) : Except DecodeError Value :=
  match schema with
  | .text => .ok (.text text)
  | .any => .ok (.node (.scalar text))
  | .ignored => .ok .unit
  | .char =>
    match text.toList with
    | [c] => .ok (.char c)
    | _ => .error (.invalidValue text .character)
  | _ => .error (.invalidType (.text text) schema.expected)

/-- Integers of 128 bits can only be parsed. -/
def unsupported? : Schema → Option DecodeError
  | .integer type =>
    if type.bits = 128 then some (.custom (type.name ++ " is not supported")) else none
  | _ => none

/-- A node whose texts are not to be parsed. -/
def decodeHeld (schema : Schema) (node : Node) : Except DecodeError Value :=
  match schema.unsupported?, node with
  | some error, _ => .error error
  | none, .scalar s => schema.decodeVerbatim s
  | none, node => .error (.invalidType node.found schema.expected)

end LayeredConfig.Schema
