set_option autoImplicit false

/-!
# Whole numbers as digits

Digits of a radix, numerals made of them, and signed decimal numerals. A numeral needs at least one
digit, and leading zeros change nothing.
-/
namespace LayeredConfig.Decimal

/-- The value of a digit below `radix`, for radices up to 16; letters count in either case. -/
def digit? (radix : Nat) (c : Char) : Option Nat :=
  let value :=
    if '0' ≤ c ∧ c ≤ '9' then c.toNat - '0'.toNat
    else if 'a' ≤ c ∧ c ≤ 'f' then c.toNat - 'a'.toNat + 10
    else if 'A' ≤ c ∧ c ≤ 'F' then c.toNat - 'A'.toNat + 10
    else radix
  if value < radix then some value else none

def isDigit (c : Char) : Bool := (digit? 10 c).isSome

def foldDigits (radix : Nat) (acc : Nat) : List Char → Option Nat
  | [] => some acc
  | c :: rest =>
    match digit? radix c with
    | some d => foldDigits radix (acc * radix + d) rest
    | none => none

/-- One or more digits of the radix, and nothing else. -/
def natural? (radix : Nat) (cs : List Char) : Option Nat :=
  if cs.isEmpty then none else foldDigits radix 0 cs

/-- A natural numeral after an optional `+`, or after a `-` where negative numbers are allowed. -/
def integer? (radix : Nat) (negative : Bool) : List Char → Option Int
  | '+' :: rest => (natural? radix rest).map Int.ofNat
  | '-' :: rest =>
    if negative then (natural? radix rest).map fun n => -Int.ofNat n else none
  | cs => (natural? radix cs).map Int.ofNat

def ofNat (n : Nat) : List Char := Nat.toDigits 10 n

def ofInt (n : Int) : List Char :=
  if n < 0 then '-' :: ofNat n.natAbs else ofNat n.natAbs

end LayeredConfig.Decimal
