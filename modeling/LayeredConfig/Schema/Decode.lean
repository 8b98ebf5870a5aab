import LayeredConfig.Schema.Primitive

set_option autoImplicit false

/-!
# Decoding nodes

`decode` reads a node at a schema; the first failure is the answer. Objects are visited in key
order, arrays from the front. A record also takes an array, by position. Inside the enumerations
that do not name their variant outside, and in the collected fields of a record, texts are taken
verbatim: the schema is tried on a document whose texts are texts. Such a document is held back, and
either looked at, so that it may be tried again, or taken.
-/
namespace LayeredConfig

/-- Whether texts are parsed on demand or are what they are. In the second case a node is looked at,
or it is taken, and then a unit may be what is left of a node without its tag. -/
inductive Reading where
  | parsed
  | verbatim
  | taken
deriving DecidableEq, Repr

namespace Schema

def knownFields (fields : List (Field × Schema)) : List String :=
  fields.flatMap fun entry => entry.1.names

def fieldFor? (fields : List (Field × Schema)) (key : String) : Option Field :=
  (fields.map Prod.fst).find? (·.answersTo key)

def variantFor? (variants : List (Variant × Schema)) (name : String) : Option Variant :=
  (variants.map Prod.fst).find? (·.name == name)

def unknownVariant (variants : List (Variant × Schema)) (name : String) : DecodeError :=
  .unknownVariant name (variants.map (·.1.name))

/-- The variant that a name alone stands for, which has no payload. -/
def unitVariant (variants : List (Variant × Schema)) (name : String) :
    Except DecodeError Value :=
  match variantFor? variants name with
  | none => .error (unknownVariant variants name)
  | some variant =>
    match variant.payload with
    | .unit => .ok (.variant variant.label .unit)
    | .newtype => .error (.invalidType .unitVariant .newtypeVariant)
    | .tuple => .error (.invalidType .unitVariant .tupleVariant)
    | .struct => .error (.invalidType .unitVariant .structVariant)

/-- What an enumeration says of a node that names no variant outside. -/
def notVariant (reading : Reading) (node : Node) : DecodeError :=
  match reading, node with
  | .parsed, node => .invalidType node.found .enumVariant
  | _, .object _ => .noSingleKey
  | _, node => .invalidType node.found .textOrMapping

/-- What is left of a node that stands for a unit: no entries, and for a unit struct no items. -/
def isSpent (expected : Expected) : Node → Bool
  | .object [] => true
  | .array [] =>
    match expected with
    | .unitStruct _ => true
    | _ => false
  | _ => false

def decodeUnit (reading : Reading) (expected : Expected) : Node → Except DecodeError Value
  | .null => .ok .unit
  | node =>
    if reading = .taken ∧ isSpent expected node then .ok .unit
    else .error (.invalidType node.found expected)

/-- The payload of a variant without one. -/
def decodeNoPayload (reading : Reading) (node : Node) : Except DecodeError Value :=
  match reading with
  | .parsed => decodeUnit .parsed .unitVariant node
  | reading => decodeUnit reading .unit node

/-- Of a payload of the wrong kind it is said what the shape of the variant wants, unless the
payload is parsed. -/
def misplaced (reading : Reading) (schema : Schema) (node : Node) (error : DecodeError) :
    DecodeError :=
  match reading, schema, node with
  | .parsed, _, _ => error
  | _, .tuple _ _, .array _ => error
  | _, .tuple _ _, node => .invalidType node.found .tupleVariant
  | _, .record _ _ _, .object _ => error
  | _, .record _ _ _, .array _ => error
  | _, .record _ _ _, node => .invalidType node.found .structVariant
  | _, _, _ => error

/-- A sequence of the wrong length, once its items have decoded. -/
def tooLong (length size : Nat) : DecodeError :=
  .invalidLength length (.elementsInSequence size)

def tooShort (expected : Expected) (length size : Nat) : DecodeError :=
  match expected with
  | .tuple _ => .invalidLength length expected
  | .array _ => .invalidLength length expected
  | _ => .invalidLength length (.withElements expected size)

/-- Visits the entries of an object: the fields in `known` are decoded and kept with their names,
others are skipped, or refused where the record is strict. -/
def visitEntries (fields : List (Field × Schema)) (strict : Bool)
    (decodeField : String → Node → Except DecodeError Value) :
    List (String × Value) → List (String × Node) → Except DecodeError (List (String × Value))
  | seen, [] => .ok seen
  | seen, (key, node) :: rest =>
    match fieldFor? fields key with
    | none =>
      if strict then .error (.unknownField key (knownFields fields))
      else visitEntries fields strict decodeField seen rest
    | some field =>
      if (seen.lookup field.name).isSome then .error (.duplicateField field.name)
      else
        (decodeField key node).bind fun value =>
          visitEntries fields strict decodeField ((field.name, value) :: seen) rest

/-- The record, field by field; an absent field has its default, or nothing if it is optional. -/
def assemble (seen : List (String × Value)) :
    List (Field × Schema) → Except DecodeError (List (String × Value))
  | [] => .ok []
  | (field, schema) :: rest =>
    let value :=
      match seen.lookup field.name, field.default with
      | some v, _ => some v
      | none, some v => some v
      | none, none => if schema.isOption then some .none else none
    match value with
    | none => .error (.missingField field.name)
    | some v => (assemble seen rest).map ((field.label, v) :: ·)

/-- A record that collects the entries which no field has. -/
def collect (fields : List (Field × Schema))
    (decodeField : String → Node → Except DecodeError Value)
    (decodeRest : List (String × Node) → Except DecodeError Value) (label : String)
    (entries : List (String × Node)) : Except DecodeError Value :=
  (visitEntries fields false decodeField [] entries).bind fun seen =>
    (assemble seen fields).bind fun values =>
      (decodeRest (entries.filter fun entry => (fieldFor? fields entry.1).isNone)).map fun value =>
        .record (values ++ [(label, value)])

def decodeItems (decodeItem : Node → Except DecodeError Value) :
    List Node → Except DecodeError (List Value)
  | [] => .ok []
  | node :: rest =>
    (decodeItem node).bind fun value => (decodeItems decodeItem rest).map (value :: ·)

def decodeEntries (readKey : String → Except DecodeError Value)
    (decodeValue : Node → Except DecodeError Value) :
    List (String × Node) → Except DecodeError (List (Value × Value))
  | [] => .ok []
  | (name, node) :: rest =>
    (readKey name).bind fun k =>
      (decodeValue node).bind fun v =>
        (decodeEntries readKey decodeValue rest).map ((k, v) :: ·)

/-- The name of the variant in a tag. -/
def decodeTag (variants : List (Variant × Schema)) : Node → Except DecodeError Variant
  | .scalar name =>
    match variantFor? variants name with
    | some variant => .ok variant
    | none => .error (unknownVariant variants name)
  | node => .error (.invalidType node.found .variantIdentifier)

/-- The tag and the rest of an internally tagged node: the tag is a field of an object or the first
item of an array. -/
def splitTag (type tag : String) (variants : List (Variant × Schema)) :
    Node → Except DecodeError (Variant × Node)
  | .object entries =>
    match Keyed.find? tag entries with
    | none => .error (.missingField tag)
    | some node =>
      (decodeTag variants node).map fun variant =>
        (variant, .object (entries.filter (·.1 != tag)))
  | .array [] => .error (.missingField tag)
  | .array (first :: rest) =>
    (decodeTag variants first).map fun variant => (variant, .array rest)
  | node => .error (.invalidType node.found (.internallyTagged type))

mutual

def decode (reading : Reading) : Schema → Node → Except DecodeError Value
  | .unit expected, node => decodeUnit reading expected node
  | .any, node => .ok (.node node)
  | .ignored, _ => .ok .unit
  | .text, node =>
    match node with
    | .scalar s => .ok (.text s)
    | _ => .error (.invalidType node.found .text)
  | .option inner, node =>
    match node with
    | .null => .ok .none
    | _ => (decode reading inner node).map .some
  | .list item, node =>
    match node with
    | .array items => (decodeItems (decode reading item) items).map .list
    | _ => .error (.invalidType node.found .sequence)
  | .map key value, node =>
    match node with
    | .object entries =>
      (decodeEntries (decodeKey reading key) (decode reading value) entries).map .map
    | _ => .error (.invalidType node.found .mapping)
  | .tuple expected schemas, node =>
    match node with
    | .array items =>
      (decodeTuple reading expected schemas.length items.length schemas items).map .list
    | _ => .error (.invalidType node.found expected)
  | .newtype _ inner, node => decode reading inner node
  | .record expected fields strict, node =>
    match node with
    | .object entries =>
      (visitEntries fields strict (decodeField reading fields) [] entries).bind fun seen =>
        (assemble seen fields).map .record
    | .array items =>
      (decodePositions reading expected fields.length items.length 0 fields items).map .record
    | _ => .error (.invalidType node.found expected)
  | .collecting expected fields label rest, node =>
    match node with
    | .object entries =>
      collect fields (decodeField reading fields) (decodeCollected rest) label entries
    | _ => .error (.invalidType node.found expected)
  | .external _ variants, node =>
    match node with
    | .scalar name => unitVariant variants name
    | .object [(name, payload)] =>
      match variantFor? variants name with
      | none => .error (unknownVariant variants name)
      | some variant => decodePayload reading variants variant.name payload
    | _ => .error (notVariant reading node)
  | .untagged type variants, node => decodeUntagged type variants node
  | .internal type tag variants, node =>
    (splitTag type tag variants node).bind fun tagged =>
      decodeTagged variants tagged.1.name tagged.2
  | .bool, node => decodeText reading .bool node
  | .integer type, node => decodeText reading (.integer type) node
  | .float format name, node => decodeText reading (.float format name) node
  | .char, node => decodeText reading .char node

/-- A key of a map is a plain text. Besides texts and characters the names of unit variants can be
one, and where nothing is parsed also what a newtype or an option holds. -/
def decodeKey (reading : Reading) : Schema → String → Except DecodeError Value
  | .external _ variants, name => unitVariant variants name
  | .untagged type variants, name => decodeUntagged type variants (.scalar name)
  | .newtype label inner, name =>
    match reading with
    | .parsed => (newtype label inner).decodeVerbatim name
    | _ => decodeKey reading inner name
  | .option inner, name =>
    match reading with
    | .parsed => (option inner).decodeVerbatim name
    | _ => (decodeKey reading inner name).map .some
  | schema, name =>
    match reading with
    | .parsed => schema.decodeVerbatim name
    | _ => schema.decodeHeld (.scalar name)

/-- The collected part of a record, from the entries that no field has. A record takes those of its
own fields and leaves the rest, an enumeration the first that names a variant. What does not decode
is no failure of an option. -/
def decodeCollected : Schema → List (String × Node) → Except DecodeError Value
  | .unit _, _ => .ok .unit
  | .ignored, _ => .ok .unit
  | .any, entries => .ok (.node (.object entries))
  | .option inner, entries =>
    match decodeCollected inner entries with
    | .ok value => .ok (.some value)
    | .error _ => .ok .none
  | .newtype _ inner, entries => decodeCollected inner entries
  | .map key value, entries =>
    (decodeEntries (decodeKey .verbatim key) (decode .verbatim value) entries).map .map
  | .record _ fields _, entries =>
    (visitEntries fields false (decodeField .taken fields) [] entries).bind fun seen =>
      (assemble seen fields).map .record
  | .collecting _ fields label rest, entries =>
    collect fields (decodeField .verbatim fields) (decodeCollected rest) label entries
  | .external type variants, entries =>
    match entries.find? fun entry => (variantFor? variants entry.1).isSome with
    | none => .error (.custom ("no variant of enum " ++ type ++ " found in flattened data"))
    | some (name, payload) => decodePayload .taken variants name payload
  | .untagged type variants, entries => decodeUntagged type variants (.object entries)
  | .internal type tag variants, entries =>
    (splitTag type tag variants (.object entries)).bind fun tagged =>
      decodeTagged variants tagged.1.name tagged.2
  | schema, _ => .error (schema.unsupported?.getD (.custom "can only flatten structs and maps"))

/-- The payload of the named variant, named outside. -/
def decodePayload (reading : Reading) :
    List (Variant × Schema) → String → Node → Except DecodeError Value
  | [], name, _ => .error (.unknownVariant name [])
  | (variant, schema) :: rest, name, node =>
    if variant.name == name then
      match variant.payload with
      | .unit => (decodeNoPayload reading node).map (.variant variant.label)
      | .newtype => (decode reading schema node).map (.variant variant.label)
      | _ =>
        ((decode reading schema node).mapError (misplaced reading schema node)).map
          (.variant variant.label)
    else decodePayload reading rest name node

/-- The first variant whose payload the node is. Fields of a variant have their names: an array is
not taken by position. -/
def decodeUntagged (type : String) :
    List (Variant × Schema) → Node → Except DecodeError Value
  | [], _ => .error (.noVariant type)
  | (variant, schema) :: rest, node =>
    let own :=
      if variant.payload = .struct ∧ node.kind = .array then
        .error (.invalidType node.found schema.expected)
      else (decode .verbatim schema node).map (.variant variant.label)
    own.tryCatch fun _ => decodeUntagged type rest node

/-- The payload of the named variant, once its tag is taken out. A unit variant skips the fields of
an object and accepts no items. -/
def decodeTagged :
    List (Variant × Schema) → String → Node → Except DecodeError Value
  | [], name, _ => .error (.unknownVariant name [])
  | (variant, schema) :: rest, name, node =>
    if variant.name == name then
      match variant.payload, node with
      | .unit, .array (first :: more) => .error (tooLong (first :: more).length 0)
      | .unit, _ => .ok (.variant variant.label .unit)
      | _, _ => (decode .taken schema node).map (.variant variant.label)
    else decodeTagged rest name node

/-- The items of a tuple of `size` items in an array of `length` items. -/
def decodeTuple (reading : Reading) (expected : Expected) (size length : Nat) :
    List Schema → List Node → Except DecodeError (List Value)
  | [], [] => .ok []
  | [], _ :: _ => .error (tooLong length size)
  | _ :: _, [] => .error (tooShort expected length size)
  | schema :: schemas, node :: nodes =>
    (decode reading schema node).bind fun value =>
      (decodeTuple reading expected size length schemas nodes).map (value :: ·)

/-- The fields of a record by position. A field past the end of the array has its default. -/
def decodePositions (reading : Reading) (expected : Expected) (size length : Nat) (index : Nat) :
    List (Field × Schema) → List Node → Except DecodeError (List (String × Value))
  | [], [] => .ok []
  | [], _ :: _ => .error (tooLong length size)
  | (field, _) :: fields, [] =>
    match field.default with
    | none => .error (tooShort expected index size)
    | some value =>
      (decodePositions reading expected size length (index + 1) fields []).map
        ((field.label, value) :: ·)
  | (field, schema) :: fields, node :: nodes =>
    (decode reading schema node).bind fun value =>
      (decodePositions reading expected size length (index + 1) fields nodes).map
        ((field.label, value) :: ·)

/-- The value of the field that answers to `key`. -/
def decodeField (reading : Reading) :
    List (Field × Schema) → String → Node → Except DecodeError Value
  | [], key, _ => .error (.unknownField key [])
  | (field, schema) :: fields, key, node =>
    if field.answersTo key then decode reading schema node
    else decodeField reading fields key node

/-- A boolean, a number or a character. -/
def decodeText (reading : Reading) (schema : Schema) (node : Node) : Except DecodeError Value :=
  match reading with
  | .parsed => schema.decodePrimitive node
  | _ => schema.decodeHeld node

end

end Schema

end LayeredConfig
