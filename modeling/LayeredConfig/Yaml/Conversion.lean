import LayeredConfig.Node
import LayeredConfig.Text.Blank
import LayeredConfig.Yaml.Description
import LayeredConfig.Yaml.Printer

set_option autoImplicit false

/-!
# From YAML values to trees

Tags are dropped and scalars turn into their text. Keys turn into texts too, collections into the
YAML that writes them, or into a description; where two keys have one text the later entry counts.
-/
namespace LayeredConfig.Yaml

/-- The text of a collection as a key. -/
def Value.collectionText (value : Value) : String :=
  match value.print? with
  | some written => String.ofList (Text.trimEnd written)
  | none => value.describe

def Value.keyText : Value → String
  | .null => "null"
  | .bool b => boolText b
  | .number n => n.text
  | .text s => s
  | .tagged _ value => value.keyText
  | .sequence items => (Value.sequence items).collectionText
  | .mapping entries => (Value.mapping entries).collectionText

mutual

def Value.toNode : Value → Node
  | .null => .null
  | .bool b => .scalar (boolText b)
  | .number n => .scalar n.text
  | .text s => .scalar s
  | .sequence items => .array (toNodes items)
  | .mapping entries => .object (Keyed.ofList (toFields entries))
  | .tagged _ value => value.toNode

def toNodes : List Value → List Node
  | [] => []
  | value :: rest => value.toNode :: toNodes rest

def toFields : List (Value × Value) → List (String × Node)
  | [] => []
  | (key, value) :: rest => (key.keyText, value.toNode) :: toFields rest

end

theorem toNodes_eq_map (values : List Value) : toNodes values = values.map Value.toNode := by
  induction values with
  | nil => rfl
  | cons value rest ih => rw [toNodes, ih, List.map_cons]

theorem toFields_eq_map (entries : List (Value × Value)) :
    toFields entries = entries.map fun entry => (entry.1.keyText, entry.2.toNode) := by
  induction entries with
  | nil => rfl
  | cons entry rest ih => rw [toFields, ih, List.map_cons]

end LayeredConfig.Yaml
