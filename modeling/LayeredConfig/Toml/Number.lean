import LayeredConfig.Decimal.Numeral
import LayeredConfig.Toml.Text
import LayeredConfig.Toml.Value

set_option autoImplicit false

/-!
# Numbers in TOML

Single underscores may stand between digits. Integers fit 64 bits; those with a radix have no sign.
A fraction or an exponent makes a float, which may be too small for a number but not too great.
-/
namespace LayeredConfig.Toml.Scan

open LayeredConfig.Text
open LayeredConfig.Text.Scan

/-- Digits of a class with single underscores between them, which are dropped. -/
def digitsWith (p : Char → Bool) : Nat → Scan (List Char)
  | 0 => fail
  | fuel + 1 => do
    let digits ← span1 p
    if ← accept ['_'] then return digits ++ (← digitsWith p fuel) else return digits

def digits (p : Char → Bool) : Scan (List Char) := do
  digitsWith p ((← rest).length + 1)

def sign : Scan (List Char) := do
  if ← accept ['-'] then return ['-']
  else
    let _ ← accept ['+']
    return []

/-- A decimal numeral without a leading zero, unless it is zero. -/
def decimal : Scan (List Char) := do
  let s ← sign
  if ← accept ['0'] then return s ++ ['0'] else return s ++ (← digits Decimal.isDigit)

def fraction : Scan (List Char) := do
  if ← accept ['.'] then return '.' :: (← digits Decimal.isDigit) else return []

def exponent : Scan (List Char) := do
  if (← accept ['e']) || (← accept ['E']) then
    let s ← sign
    return ['e'] ++ s ++ (← digits Decimal.isDigit)
  else return []

def inRange (n : Int) : Bool := decide (-(Nat.pow 2 63 : Int) ≤ n ∧ n < Nat.pow 2 63)

def integerValue (n : Int) : Scan Value :=
  if inRange n then return .integer n else fail

/-- A float that rounds to infinity is refused, unless it is negative. -/
def floatValue (cs : List Char) : Scan Value :=
  match Decimal.binary? Decimal.double cs with
  | none => fail
  | some (.infinite false) => fail
  | some x => return .float x

def radixInteger (radix : Nat) : Scan Value := do
  drop 2
  let found ← digits fun c => (Decimal.digit? radix c).isSome
  match Decimal.natural? radix found with
  | some n => integerValue n
  | none => fail

def decimalNumber : Scan Value := do
  let whole ← decimal
  let frac ← fraction
  let exp ← exponent
  if frac.isEmpty && exp.isEmpty then
    match Decimal.integer? 10 true whole with
    | some n => integerValue n
    | none => fail
  else floatValue (whole ++ frac ++ exp)

/-- Infinity or NaN behind an optional sign. -/
def special : Scan Value := do
  let s ← sign
  if ← accept "inf".toList then return .float (.infinite !s.isEmpty)
  else
    require "nan".toList
    return .float .nan

def number : Scan Value := do
  if ← sees ['0', 'x'] then radixInteger 16
  else if ← sees ['0', 'o'] then radixInteger 8
  else if ← sees ['0', 'b'] then radixInteger 2
  else either special decimalNumber

end LayeredConfig.Toml.Scan
