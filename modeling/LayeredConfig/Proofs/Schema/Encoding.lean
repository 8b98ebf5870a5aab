import LayeredConfig.Json.Value
import LayeredConfig.Schema.Decode

set_option autoImplicit false

/-!
# Values and their JSON form

`Plain` are the schemas that are built from units, booleans, integers and texts by lists, maps with
texts as keys, tuples, options, records and enumerations whose variant is named outside. `Admits`
says which values a plain schema has, and `encode` writes such a value as JSON. Neither of the two
says anything of other schemas.
-/
namespace LayeredConfig

/-- A unit variant is its name; another one is an object with its payload behind the name. -/
def Variant.encode (variant : Variant) (payload : Json.Value) : Json.Value :=
  match variant.payload with
  | .unit => .text variant.name
  | _ => .object [(variant.name, payload)]

theorem Variant.encode_of_unit {variant : Variant} (h : variant.payload = .unit)
    (payload : Json.Value) : variant.encode payload = .text variant.name := by
  simp [Variant.encode, h]

theorem Variant.encode_of_ne_unit {variant : Variant} (h : variant.payload ≠ .unit)
    (payload : Json.Value) : variant.encode payload = .object [(variant.name, payload)] := by
  cases hkind : variant.payload with
  | unit => exact absurd hkind h
  | newtype | tuple | struct => simp [Variant.encode, hkind]

namespace Schema

/-- The entries of a map whose keys are texts. -/
def textEntries (entries : Keyed Value) : List (Value × Value) :=
  entries.map fun entry => (.text entry.1, entry.2)

mutual

/-- The value is one of the schema. -/
def Admits : Schema → Value → Prop
  | .unit _, value => value = .unit
  | .bool, value => ∃ b, value = .bool b
  | .integer type, value => ∃ n, value = .integer n ∧ type.least ≤ n ∧ n ≤ type.greatest
  | .text, value => ∃ s, value = .text s
  | .option inner, value => value = .none ∨ ∃ v, value = .some v ∧ Admits inner v
  | .list item, value => ∃ vs, value = .list vs ∧ ∀ v ∈ vs, Admits item v
  | .map _ item, value => ∃ entries : Keyed Value, value = .map (textEntries entries) ∧
      Keyed.Ascending entries ∧ ∀ entry ∈ entries, Admits item entry.2
  | .tuple _ schemas, value => ∃ vs, value = .list vs ∧ AdmitsItems schemas vs
  | .newtype _ inner, value => Admits inner value
  | .record _ fields _, value => ∃ members, value = .record members ∧ AdmitsFields fields members
  | .external _ variants, value => ∃ label payload, value = .variant label payload ∧
      AdmitsVariant variants label payload
  | _, _ => False

/-- One value for each schema. -/
def AdmitsItems : List Schema → List Value → Prop
  | [], [] => True
  | schema :: schemas, value :: values => Admits schema value ∧ AdmitsItems schemas values
  | _, _ => False

/-- One value for each field, with the label of the field. -/
def AdmitsFields : List (Field × Schema) → List (String × Value) → Prop
  | [], [] => True
  | (field, schema) :: fields, (label, value) :: members =>
    (label = field.label ∧ Admits schema value) ∧ AdmitsFields fields members
  | _, _ => False

/-- The payload is one of the variant with the label. -/
def AdmitsVariant : List (Variant × Schema) → String → Value → Prop
  | [], _, _ => False
  | (variant, schema) :: rest, label, payload =>
    if variant.label = label then
      match variant.payload with
      | .unit => payload = .unit
      | _ => Admits schema payload
    else AdmitsVariant rest label payload

end

/-- The text of a key. -/
def keyText : Value → String
  | .text s => s
  | _ => ""

mutual

/-- The value as JSON: units and absent options are null, newtypes are their content, and fields and
variants have their names in documents. -/
def encode : Schema → Value → Json.Value
  | .unit _, _ => .null
  | .bool, .bool b => .bool b
  | .integer _, .integer n => .number (.integer n)
  | .text, .text s => .text s
  | .option _, .none => .null
  | .option inner, .some value => encode inner value
  | .list item, .list values => .array (values.map (encode item))
  | .map _ item, .map entries =>
    .object (entries.map fun entry => (keyText entry.1, encode item entry.2))
  | .tuple _ schemas, .list values => .array (encodeItems schemas values)
  | .newtype _ inner, value => encode inner value
  | .record _ fields _, .record members => .object (encodeFields fields members)
  | .external _ variants, .variant label payload => encodeVariant variants label payload
  | _, _ => .null

def encodeItems : List Schema → List Value → List Json.Value
  | schema :: schemas, value :: values => encode schema value :: encodeItems schemas values
  | _, _ => []

def encodeFields : List (Field × Schema) → List (String × Value) → List (String × Json.Value)
  | (field, schema) :: fields, (_, value) :: members =>
    (field.name, encode schema value) :: encodeFields fields members
  | _, _ => []

def encodeVariant : List (Variant × Schema) → String → Value → Json.Value
  | [], _, _ => .null
  | (variant, schema) :: rest, label, payload =>
    if variant.label = label then variant.encode (encode schema payload)
    else encodeVariant rest label payload

end

/-- Integers have at most the 64 bits of a JSON number, no two fields of a record and no two variants
share a name, and no value below an option is written as null. -/
inductive Plain : Schema → Prop where
  | unit {expected : Expected} : Plain (.unit expected)
  | bool : Plain .bool
  | integer {type : IntegerType} : type.bits ≤ 64 → Plain (.integer type)
  | text : Plain .text
  | option {inner : Schema} : Plain inner →
      (∀ value, inner.Admits value → inner.encode value ≠ .null) → Plain (.option inner)
  | list {item : Schema} : Plain item → Plain (.list item)
  | map {item : Schema} : Plain item → Plain (.map .text item)
  | tuple {expected : Expected} {schemas : List Schema} : (∀ schema ∈ schemas, Plain schema) →
      Plain (.tuple expected schemas)
  | newtype {name : String} {inner : Schema} : Plain inner → Plain (.newtype name inner)
  | record {expected : Expected} {fields : List (Field × Schema)} {strict : Bool} :
      (knownFields fields).Nodup → (∀ entry ∈ fields, Plain entry.2) →
      Plain (.record expected fields strict)
  | external {type : String} {variants : List (Variant × Schema)} :
      (variants.map (·.1.name)).Nodup →
      (∀ entry ∈ variants, entry.1.payload ≠ .unit → Plain entry.2) →
      Plain (.external type variants)

end Schema

end LayeredConfig
