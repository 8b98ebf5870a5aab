import LayeredConfig.Decimal.Digits
import LayeredConfig.Decimal.Layout

set_option autoImplicit false

/-!
# YAML values

Mappings keep their entries in order and may have any value as a key. The name of a local tag stands
around the value that it marks.
-/
namespace LayeredConfig.Yaml

inductive Number where
  | integer (n : Int)
  | float (x : Decimal.Binary)
deriving DecidableEq, Repr

inductive Value where
  | null
  | bool (b : Bool)
  | number (n : Number)
  | text (s : String)
  | sequence (items : List Value)
  | mapping (entries : List (Value × Value))
  | tagged (name : String) (value : Value)
deriving Inhabited

/-- Positional from `0.00001` to sixteen digits, whole numbers with `.0`, `e16` otherwise. -/
def layout : Decimal.Layout where
  positional e := decide (-5 ≤ e ∧ e ≤ 15)
  pointZero := true
  plusExponent := false
  tie := .even
  infinity := ".inf"
  nan := ".nan"

def Number.text : Number → String
  | .integer n => String.ofList (Decimal.ofInt n)
  | .float x => layout.text Decimal.double x

/-- An integer is no float; all NaNs are one, and so are both zeros. -/
def Number.same : Number → Number → Bool
  | .integer n, .integer m => n == m
  | .float x, .float y => x.same y
  | _, _ => false

def boolText (b : Bool) : String := if b then "true" else "false"

mutual

/-- Equality of values, which does not look at the order of a mapping's entries. -/
def Value.same : Value → Value → Bool
  | .null, .null => true
  | .bool a, .bool b => a == b
  | .number a, .number b => a.same b
  | .text a, .text b => a == b
  | .sequence a, .sequence b => sameItems a b
  | .mapping a, .mapping b => a.length == b.length && sameEntries a b
  | .tagged s a, .tagged t b => s == t && a.same b
  | _, _ => false

def sameItems : List Value → List Value → Bool
  | [], [] => true
  | a :: as, b :: bs => a.same b && sameItems as bs
  | _, _ => false

/-- Each entry on the left has an equal one on the right. -/
def sameEntries : List (Value × Value) → List (Value × Value) → Bool
  | [], _ => true
  | (key, value) :: rest, others =>
    (others.any fun other => key.same other.1 && value.same other.2) && sameEntries rest others

end

end LayeredConfig.Yaml
