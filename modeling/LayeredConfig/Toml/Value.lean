import LayeredConfig.Decimal.Layout
import LayeredConfig.Node
import LayeredConfig.Toml.Moment

set_option autoImplicit false

/-!
# TOML values

The values of a TOML document and the trees they become. All scalars turn into their text.
-/
namespace LayeredConfig.Toml

inductive Value where
  | text (s : String)
  | integer (n : Int)
  | float (x : Decimal.Binary)
  | bool (b : Bool)
  | moment (m : Moment)
  | array (items : List Value)
  | table (entries : List (String × Value))
deriving Inhabited

/-- Always positional, and whole numbers without a point. -/
def layout : Decimal.Layout where
  positional _ := true
  pointZero := false
  plusExponent := false
  tie := .up
  infinity := "inf"
  nan := "NaN"

mutual

def Value.toNode : Value → Node
  | .text s => .scalar s
  | .integer n => .scalar (String.ofList (Decimal.ofInt n))
  | .float x => .scalar (layout.text Decimal.double x)
  | .bool b => .scalar (if b then "true" else "false")
  | .moment m => .scalar (String.ofList m.text)
  | .array items => .array (toNodes items)
  | .table entries => .object (Keyed.ofList (toFields entries))

def toNodes : List Value → List Node
  | [] => []
  | value :: rest => value.toNode :: toNodes rest

def toFields : List (String × Value) → List (String × Node)
  | [] => []
  | (key, value) :: rest => (key, value.toNode) :: toFields rest

end

theorem toNodes_eq_map (values : List Value) : toNodes values = values.map Value.toNode := by
  induction values with
  | nil => rfl
  | cons value rest ih => rw [toNodes, ih, List.map_cons]

theorem toFields_eq_map (entries : List (String × Value)) :
    toFields entries = entries.map fun entry => (entry.1, entry.2.toNode) := by
  induction entries with
  | nil => rfl
  | cons entry rest ih => rw [toFields, ih, List.map_cons]

/-- A table inside a document whose first key is this one stands for a moment. -/
def momentKey : String := "$__toml_private_datetime"

def Value.moment? : Value → Option Moment
  | .text s => Moment.ofText? s
  | _ => none

mutual

/-- Puts moments in the place of the tables that stand for them. Only the first entry of such a table
counts, and it must be the text of a moment. -/
def Value.resolve? : Value → Option Value
  | .array items => (resolveItems? items).map .array
  | .table [] => some (.table [])
  | .table ((key, first) :: rest) =>
    if key = momentKey then first.moment?.map .moment
    else
      match first.resolve?, resolveEntries? rest with
      | some first, some rest => some (.table ((key, first) :: rest))
      | _, _ => none
  | value => some value

def resolveItems? : List Value → Option (List Value)
  | [] => some []
  | item :: rest =>
    match item.resolve?, resolveItems? rest with
    | some item, some rest => some (item :: rest)
    | _, _ => none

def resolveEntries? : List (String × Value) → Option (List (String × Value))
  | [] => some []
  | (key, value) :: rest =>
    match value.resolve?, resolveEntries? rest with
    | some value, some rest => some ((key, value) :: rest)
    | _, _ => none

end

end LayeredConfig.Toml
