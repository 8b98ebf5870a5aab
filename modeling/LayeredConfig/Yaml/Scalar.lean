import LayeredConfig.Decimal.Numeral
import LayeredConfig.Yaml.Tag
import LayeredConfig.Yaml.Value

set_option autoImplicit false

/-!
# What scalars stand for

A plain scalar may be null, a boolean, an integer in one of four radices or a float; everything else
is a text. The standard tags ask for one kind. An integer that does not fit 64 bits is refused up to
128 bits and a float beyond.
-/
namespace LayeredConfig.Yaml.Scalar

def isNull (s : String) : Bool := ["null", "Null", "NULL", "~"].contains s

def bool? (s : String) : Option Bool :=
  if ["true", "True", "TRUE"].contains s then some true
  else if ["false", "False", "FALSE"].contains s then some false
  else none

def dropSign : List Char → List Char
  | '+' :: rest => rest
  | '-' :: rest => rest
  | cs => cs

/-- Digits with a leading zero, which are no number. -/
def isZeroPadded (cs : List Char) : Bool :=
  match dropSign cs with
  | '0' :: c :: rest => (c :: rest).all Decimal.isDigit
  | _ => false

def hasSign (cs : List Char) : Bool := cs.head? == some '+' || cs.head? == some '-'

/-- The radix that a numeral announces, and its digits. -/
def radix? : List Char → Option (Nat × List Char)
  | '0' :: 'x' :: rest => some (16, rest)
  | '0' :: 'o' :: rest => some (8, rest)
  | '0' :: 'b' :: rest => some (2, rest)
  | _ => none

/-- A numeral with a radix, or a decimal one without leading zeros. -/
def magnitude? (whole cs : List Char) : Option Nat :=
  match radix? cs with
  | some (radix, digits) => Decimal.natural? radix digits
  | none => if isZeroPadded whole then none else Decimal.natural? 10 cs

/-- An integer of any size. -/
def integer? (cs : List Char) : Option Int :=
  match cs with
  | '-' :: rest => (magnitude? cs rest).map fun n => -(n : Int)
  | '+' :: rest => (magnitude? cs rest).map Int.ofNat
  | _ => (magnitude? cs cs).map Int.ofNat

def fits64 (n : Int) : Bool := decide (-(Nat.pow 2 63 : Int) ≤ n ∧ n < Nat.pow 2 64)

def fits128 (n : Int) : Bool := decide (-(Nat.pow 2 127 : Int) ≤ n ∧ n < Nat.pow 2 128)

/-- A finite float, or one of the words for infinity and NaN. -/
def float? (s : String) : Option Decimal.Binary :=
  let cs := s.toList
  let unsigned := if cs.head? = some '+' then cs.drop 1 else cs
  if cs.head? = some '+' ∧ hasSign unsigned then none
  else if [".inf", ".Inf", ".INF"].contains (String.ofList unsigned) then some (.infinite false)
  else if ["-.inf", "-.Inf", "-.INF"].contains s then some (.infinite true)
  else if [".nan", ".NaN", ".NAN"].contains s then some .nan
  else (Decimal.binary? Decimal.double unsigned).filter (·.isFinite)

/-- The integer that a scalar is, if it is one; an integer of more than 64 bits is refused. -/
def integerValue? (s : String) : Option (Option Value) :=
  match integer? s.toList with
  | some n =>
    if fits64 n then some (some (.number (.integer n)))
    else if fits128 n then none
    else some none
  | none => some none

/-- What a plain scalar without a standard tag stands for. -/
def plain? (s : String) : Option Value :=
  if s.isEmpty || isNull s then some .null
  else
    match bool? s with
    | some b => some (.bool b)
    | none =>
      match integerValue? s with
      | none => none
      | some (some n) => some n
      | some none =>
        if isZeroPadded s.toList then some (.text s)
        else
          match float? s with
          | some x => some (.number (.float x))
          | none => some (.text s)

def untagged? (s : String) (plain : Bool) : Option Value :=
  if plain then plain? s else some (.text s)

/-- What a scalar stands for under a tag without a name. A local tag of this kind asks for nothing. -/
def tagged? (tag : Tag) (s : String) (plain : Bool) : Option Value :=
  if tag = .standard "bool" then (bool? s).map .bool
  else if tag = .standard "int" then (integerValue? s).bind id
  else if tag = .standard "float" then (float? s).map fun x => .number (.float x)
  else if tag = .standard "null" then (if isNull s then some .null else none)
  else if tag.isLocal then untagged? s plain
  else some (.text s)

def value? (tag : Option Tag) (s : String) (plain : Bool) : Option Value :=
  match tag with
  | some t => tagged? t s plain
  | none => untagged? s plain

end LayeredConfig.Yaml.Scalar
