import LayeredConfig.Text.Quoted
import LayeredConfig.Yaml.Value

set_option autoImplicit false

/-!
# Describing values

A description names the kind of every value, with texts quoted; keys that are booleans, numbers or
texts go without their kind. It stands for a value that cannot be written as YAML.
-/
namespace LayeredConfig.Yaml

def listed (parts : List String) : String := ", ".intercalate parts

mutual

def Value.describe : Value → String
  | .null => "Null"
  | .bool b => "Bool(" ++ boolText b ++ ")"
  | .number n => "Number(" ++ n.text ++ ")"
  | .text s => "String(" ++ Text.quote s ++ ")"
  | .sequence items => "Sequence [" ++ listed (describeItems items) ++ "]"
  | .mapping entries => "Mapping \x7b" ++ listed (describeEntries entries) ++ "\x7d"
  | .tagged name value =>
    "TaggedValue \x7b tag: !" ++ name ++ ", value: " ++ value.describe ++ " \x7d"

def describeItems : List Value → List String
  | [] => []
  | item :: rest => item.describe :: describeItems rest

def describeEntries : List (Value × Value) → List String
  | [] => []
  | (key, value) :: rest =>
    let key :=
      match key with
      | .bool b => boolText b
      | .number n => n.text
      | .text s => Text.quote s
      | key => key.describe
    (key ++ ": " ++ value.describe) :: describeEntries rest

end

end LayeredConfig.Yaml
