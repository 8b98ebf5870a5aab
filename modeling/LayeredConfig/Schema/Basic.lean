import LayeredConfig.Decimal.Binary
import LayeredConfig.Node
import LayeredConfig.Schema.Error

set_option autoImplicit false

/-!
# Schemas and typed values

A `Schema` says what a program wants to read from a node, and a `Value` is what it gets. Records
have fields with a name in the document, other names that stand for it, and perhaps a default.
Enumerations come in three forms: the variant named outside its payload, not named at all, or named
by a field of the payload.
-/
namespace LayeredConfig

structure IntegerType where
  signed : Bool
  bits : Nat
deriving DecidableEq, Repr

namespace IntegerType

def least (t : IntegerType) : Int := if t.signed then -(Nat.pow 2 (t.bits - 1) : Int) else 0

def greatest (t : IntegerType) : Int :=
  if t.signed then Nat.pow 2 (t.bits - 1) - 1 else Nat.pow 2 t.bits - 1

def name (t : IntegerType) : String := (if t.signed then "i" else "u") ++ toString t.bits

end IntegerType

inductive Value where
  | unit
  | bool (b : Bool)
  | integer (n : Int)
  | float (x : Decimal.Binary)
  | char (c : Char)
  | text (s : String)
  | node (n : Node)
  | none
  | some (v : Value)
  | list (vs : List Value)
  | map (entries : List (Value × Value))
  | record (fields : List (String × Value))
  | variant (name : String) (payload : Value)
deriving Inhabited

/-- A field: its label in the value, its name in documents, further names, and what an absent field
stands for. -/
structure Field where
  label : String
  name : String
  aliases : List String
  default : Option Value

def Field.answersTo (field : Field) (key : String) : Bool :=
  key == field.name || field.aliases.contains key

def Field.names (field : Field) : List String := field.name :: field.aliases

/-- The shape of a variant's payload. -/
inductive Payload where
  | unit
  | newtype
  | tuple
  | struct
deriving DecidableEq, Repr

/-- A variant: its label in the value, its name in documents, and the shape of its payload. -/
structure Variant where
  label : String
  name : String
  payload : Payload

inductive Schema where
  | unit (expected : Expected)
  | bool
  | integer (type : IntegerType)
  | float (format : Decimal.Format) (name : String)
  | char
  | text
  | any
  | ignored
  | option (inner : Schema)
  | list (item : Schema)
  | map (key value : Schema)
  | tuple (expected : Expected) (items : List Schema)
  | newtype (name : String) (inner : Schema)
  | record (expected : Expected) (fields : List (Field × Schema)) (strict : Bool)
  | collecting (expected : Expected) (fields : List (Field × Schema)) (label : String)
      (rest : Schema)
  | external (type : String) (variants : List (Variant × Schema))
  | untagged (type : String) (variants : List (Variant × Schema))
  | internal (type tag : String) (variants : List (Variant × Schema))
deriving Inhabited

namespace Schema

def array (item : Schema) (size : Nat) : Schema :=
  .tuple (.array size) (List.replicate size item)

def pair (first second : Schema) : Schema := .tuple (.tuple 2) [first, second]

/-- What a message says was expected at a node of the schema. -/
def expected : Schema → Expected
  | .unit e => e
  | .bool => .boolean
  | .integer type => .number type.name
  | .float _ name => .number name
  | .char => .character
  | .text => .text
  | .any => .text
  | .ignored => .text
  | .option _ => .option
  | .list _ => .sequence
  | .map _ _ => .mapping
  | .tuple e _ => e
  | .newtype name _ => .tupleStruct name
  | .record e _ _ => e
  | .collecting e _ _ _ => e
  | .external _ _ => .enumVariant
  | .untagged _ _ => .enumVariant
  | .internal type _ _ => .internallyTagged type

def isOption : Schema → Bool
  | .option _ => true
  | _ => false

end Schema

/-- What a message says was found at a node. -/
def Node.found : Node → Found
  | .null => .unit
  | .scalar text => .text text
  | .object _ => .mapping
  | .array _ => .sequence

end LayeredConfig
