import LayeredConfig.Decimal.Shortest

set_option autoImplicit false

/-!
# How a number is written

A `Layout` holds the decisions of one format: which exponents are written positionally, whether a
whole number keeps `.0`, how a positive exponent is marked, which way a tie between two shortest
forms goes, and the words for infinity and NaN.
-/
namespace LayeredConfig.Decimal

structure Layout where
  positional : Int → Bool
  pointZero : Bool
  plusExponent : Bool
  tie : Tie
  infinity : String
  nan : String

/-- Digits with a decimal point before the position `exponent + 1`. -/
def positionalText (pointZero : Bool) (digits : List Char) (exponent : Int) : List Char :=
  if exponent < 0 then
    ['0', '.'] ++ List.replicate (exponent.natAbs - 1) '0' ++ digits
  else
    let whole := exponent.natAbs + 1
    if digits.length ≤ whole then
      digits ++ List.replicate (whole - digits.length) '0' ++
        (if pointZero then ['.', '0'] else [])
    else digits.take whole ++ ['.'] ++ digits.drop whole

def exponentText (plus : Bool) (digits : List Char) (exponent : Int) : List Char :=
  let tail := if digits.length ≤ 1 then digits else digits.take 1 ++ ['.'] ++ digits.drop 1
  let sign := if exponent < 0 then ['-'] else if plus then ['+'] else []
  tail ++ ['e'] ++ sign ++ Nat.toDigits 10 exponent.natAbs

namespace Layout

def magnitude (layout : Layout) (f : Format) (m : Nat) (q : Int) : List Char :=
  let short := shortest f layout.tie m q
  let digits := Nat.toDigits 10 short.digits
  if m = 0 ∨ layout.positional short.exponent then
    positionalText layout.pointZero digits short.exponent
  else exponentText layout.plusExponent digits short.exponent

def text (layout : Layout) (f : Format) : Binary → String
  | .nan => layout.nan
  | .infinite s => String.ofList ((if s then ['-'] else []) ++ layout.infinity.toList)
  | .finite s m q => String.ofList ((if s then ['-'] else []) ++ layout.magnitude f m q)

end Layout

end LayeredConfig.Decimal
