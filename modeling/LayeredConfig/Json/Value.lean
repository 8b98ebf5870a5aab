import LayeredConfig.Decimal.Digits
import LayeredConfig.Decimal.Layout
import LayeredConfig.Node

set_option autoImplicit false

/-!
# JSON values

The values of a JSON document and the trees they become. Numbers and booleans turn into their text;
of two members with one key the later counts.
-/
namespace LayeredConfig.Json

inductive Number where
  | integer (n : Int)
  | float (x : Decimal.Binary)
deriving DecidableEq, Repr

inductive Value where
  | null
  | bool (b : Bool)
  | number (n : Number)
  | text (s : String)
  | array (items : List Value)
  | object (members : List (String × Value))
deriving Inhabited

/-- Positional from `0.00001` to sixteen digits, whole numbers with `.0`, `e+16` otherwise. -/
def layout : Decimal.Layout where
  positional e := decide (-5 ≤ e ∧ e ≤ 15)
  pointZero := true
  plusExponent := true
  tie := .even
  infinity := "inf"
  nan := "NaN"

def Number.text : Number → String
  | .integer n => String.ofList (Decimal.ofInt n)
  | .float x => layout.text Decimal.double x

def boolText (b : Bool) : String := if b then "true" else "false"

mutual

def Value.toNode : Value → Node
  | .null => .null
  | .bool b => .scalar (boolText b)
  | .number n => .scalar n.text
  | .text s => .scalar s
  | .array items => .array (toNodes items)
  | .object members => .object (Keyed.ofList (toFields members))

def toNodes : List Value → List Node
  | [] => []
  | value :: rest => value.toNode :: toNodes rest

def toFields : List (String × Value) → List (String × Node)
  | [] => []
  | (key, value) :: rest => (key, value.toNode) :: toFields rest

end

theorem toNodes_eq_map (values : List Value) : toNodes values = values.map Value.toNode := by
  induction values with
  | nil => rfl
  | cons value rest ih => rw [toNodes, ih, List.map_cons]

theorem toFields_eq_map (members : List (String × Value)) :
    toFields members = members.map fun member => (member.1, member.2.toNode) := by
  induction members with
  | nil => rfl
  | cons member rest ih => rw [toFields, ih, List.map_cons]

end LayeredConfig.Json
