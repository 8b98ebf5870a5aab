import LayeredConfig.Text.Quoted

set_option autoImplicit false

/-!
# Why a node does not decode

`Found` is what stands in the document, `Expected` what the schema asks for, and `DecodeError` the
cause of a failure. The wording of all three is here.
-/
namespace LayeredConfig

inductive Found where
  | unit
  | text (s : String)
  | mapping
  | sequence
  | unitVariant
deriving DecidableEq, Repr

inductive Expected where
  | boolean
  | number (name : String)
  | character
  | text
  | unit
  | option
  | sequence
  | mapping
  | tuple (size : Nat)
  | array (size : Nat)
  | struct (name : String)
  | tupleStruct (name : String)
  | unitStruct (name : String)
  | enumVariant
  | textOrMapping
  | unitVariant
  | newtypeVariant
  | tupleVariant
  | structVariant
  | tupleVariantOf (type variant : String)
  | structVariantOf (type variant : String)
  | internallyTagged (type : String)
  | variantIdentifier
  | withElements (whole : Expected) (size : Nat)
  | elementsInSequence (size : Nat)
deriving DecidableEq, Repr

inductive DecodeError where
  | invalidType (found : Found) (expected : Expected)
  | invalidValue (text : String) (expected : Expected)
  | invalidLength (length : Nat) (expected : Expected)
  | missingField (name : String)
  | duplicateField (name : String)
  | unknownField (name : String) (known : List String)
  | unknownVariant (name : String) (known : List String)
  | noVariant (type : String)
  | noSingleKey
  | custom (words : String)
deriving DecidableEq, Repr

def Found.describe : Found → String
  | .unit => "unit value"
  | .text s => "string " ++ Text.quote s
  | .mapping => "map"
  | .sequence => "sequence"
  | .unitVariant => "unit variant"

def elementCount (size : Nat) : String :=
  toString size ++ (if size = 1 then " element" else " elements")

def Expected.describe : Expected → String
  | .boolean => "a boolean"
  | .number name => name
  | .character => "a character"
  | .text => "a string"
  | .unit => "unit"
  | .option => "option"
  | .sequence => "a sequence"
  | .mapping => "a map"
  | .tuple size => "a tuple of size " ++ toString size
  | .array size => "an array of length " ++ toString size
  | .struct name => "struct " ++ name
  | .tupleStruct name => "tuple struct " ++ name
  | .unitStruct name => "unit struct " ++ name
  | .enumVariant => "an enum variant"
  | .textOrMapping => "string or map"
  | .unitVariant => "a unit variant"
  | .newtypeVariant => "newtype variant"
  | .tupleVariant => "tuple variant"
  | .structVariant => "struct variant"
  | .tupleVariantOf type variant => "tuple variant " ++ type ++ "::" ++ variant
  | .structVariantOf type variant => "struct variant " ++ type ++ "::" ++ variant
  | .internallyTagged type => "internally tagged enum " ++ type
  | .variantIdentifier => "variant identifier"
  | .withElements whole size => whole.describe ++ " with " ++ elementCount size
  | .elementsInSequence size => elementCount size ++ " in sequence"

def inBackticks (name : String) : String :=
  let tick := String.singleton '\x60'
  tick ++ name ++ tick

/-- The names that would have been known: none, one, two with `or`, or a list. -/
def knownNames (none : String) : List String → String
  | [] => none
  | [a] => "expected " ++ inBackticks a
  | [a, b] => "expected " ++ inBackticks a ++ " or " ++ inBackticks b
  | names => "expected one of " ++ String.intercalate ", " (names.map inBackticks)

def DecodeError.message : DecodeError → String
  | .invalidType found expected =>
    "invalid type: " ++ found.describe ++ ", expected " ++ expected.describe
  | .invalidValue text expected =>
    "invalid value: string " ++ Text.quote text ++ ", expected " ++ expected.describe
  | .invalidLength length expected =>
    "invalid length " ++ toString length ++ ", expected " ++ expected.describe
  | .missingField name => "missing field " ++ inBackticks name
  | .duplicateField name => "duplicate field " ++ inBackticks name
  | .unknownField name known =>
    "unknown field " ++ inBackticks name ++ ", " ++ knownNames "there are no fields" known
  | .unknownVariant name known =>
    "unknown variant " ++ inBackticks name ++ ", " ++ knownNames "there are no variants" known
  | .noVariant type => "data did not match any variant of untagged enum " ++ type
  | .noSingleKey => "invalid value: map, expected map with a single key"
  | .custom words => words

end LayeredConfig
