import LayeredConfig.Decimal.Digits
import LayeredConfig.Decimal.Binary
import LayeredConfig.Text.Fold

set_option autoImplicit false

/-!
# Reading decimal fractions

A numeral is a sign, digits with at most one point and at least one digit, and an exponent; or a
sign and one of the words `inf`, `infinity`, `nan` in any case.
-/
namespace LayeredConfig.Decimal

/-- The pieces of an unsigned numeral: whole digits, fraction digits, exponent. -/
structure Numeral where
  whole : List Char
  fraction : List Char
  exponent : Int
deriving DecidableEq, Repr

def exponent? : List Char → Option Int
  | [] => some 0
  | c :: rest => if c = 'e' ∨ c = 'E' then integer? 10 true rest else none

def Numeral.ofChars? (cs : List Char) : Option Numeral :=
  let whole := cs.takeWhile isDigit
  match cs.dropWhile isDigit with
  | '.' :: rest =>
    let fraction := rest.takeWhile isDigit
    if whole.isEmpty && fraction.isEmpty then none
    else (exponent? (rest.dropWhile isDigit)).map (⟨whole, fraction, ·⟩)
  | rest =>
    if whole.isEmpty then none else (exponent? rest).map (⟨whole, [], ·⟩)

def Numeral.round (f : Format) (negative : Bool) (n : Numeral) : Binary :=
  let digits := (foldDigits 10 0 (n.whole ++ n.fraction)).getD 0
  f.ofDecimal negative digits (n.exponent - n.fraction.length)

def magnitude? (f : Format) (negative : Bool) (cs : List Char) : Option Binary :=
  let word := cs.map Char.toLower
  if word = "inf".toList ∨ word = "infinity".toList then some (.infinite negative)
  else if word = "nan".toList then some .nan
  else (Numeral.ofChars? cs).map (Numeral.round f negative)

/-- The number of the format nearest to the numeral. -/
def binary? (f : Format) : List Char → Option Binary
  | '+' :: rest => magnitude? f false rest
  | '-' :: rest => magnitude? f true rest
  | cs => magnitude? f false cs

end LayeredConfig.Decimal
