import LayeredConfig.Decimal.Binary

set_option autoImplicit false

/-!
# The fewest digits that read back

The reals that round to a number form an interval, closed when the number's `m` is even. `shortest`
finds the least count of decimal digits for which one of the number's two neighbours on that grid
lies in the interval, and of two such neighbours the nearer.
-/
namespace LayeredConfig.Decimal

/-- What to do when both neighbours are equally near. -/
inductive Tie where
  | even
  | up
deriving DecidableEq, Repr

/-- The digits and the exponent of the first of them: `d.ddd · 10 ^ exponent`. -/
structure Scientific where
  digits : Nat
  exponent : Int
deriving DecidableEq, Repr

/-- The ends of the interval that rounds to `m · 2 ^ q`, in quarters of `2 ^ q`. -/
def Format.interval (f : Format) (m : Nat) (q : Int) : Nat × Nat :=
  let below := if m = Nat.pow 2 (f.precision - 1) ∧ f.least < q then 4 * m - 1 else 4 * m - 2
  (below, 4 * m + 2)

/-- `num / den · 10 ^ (-k)` as a numerator and a denominator. -/
def decimalScaled (num den : Nat) (k : Int) : Nat × Nat :=
  if k < 0 then (num * Nat.pow 10 k.natAbs, den) else (num, den * Nat.pow 10 k.natAbs)

/-- The exponent of the leading decimal digit of `num / den`, searched from an estimate. -/
def leadingExponent (num den : Nat) : Int :=
  let estimate : Int := ((Nat.toDigits 10 num).length : Int) - (Nat.toDigits 10 den).length
  let (n, d) := decimalScaled num den estimate
  if n < d then estimate - 1 else estimate

/-- The neighbour of the number on the grid `10 ^ k` that is in the interval and nearest. -/
def onGrid? (f : Format) (tie : Tie) (m : Nat) (q k : Int) : Option Nat :=
  let (low, high) := f.interval m q
  let (num, den) := Binary.ratio 1 (q - 2)
  let (n, d) := decimalScaled (num * (4 * m)) den k
  let (lowN, lowD) := decimalScaled (num * low) den k
  let (highN, highD) := decimalScaled (num * high) den k
  let inside (x : Nat) : Bool :=
    if m % 2 = 0 then lowN ≤ x * lowD && x * highD ≤ highN
    else lowN < x * lowD && x * highD < highN
  let floor := n / d
  let rest := n % d
  match inside floor, inside (floor + 1) with
  | true, true =>
    if 2 * rest < d then some floor
    else if d < 2 * rest then some (floor + 1)
    else if tie = .even ∧ floor % 2 = 0 then some floor
    else some (floor + 1)
  | true, false => some floor
  | false, true => some (floor + 1)
  | false, false => none

/-- Tries one digit, two digits, and so on. -/
def searchDigits (f : Format) (tie : Tie) (m : Nat) (q lead : Int) : Nat → Nat → Option (Nat × Int)
  | 0, _ => none
  | tries + 1, count =>
    let k := lead - count + 1
    match onGrid? f tie m q k with
    | some digits => some (digits, k)
    | none => searchDigits f tie m q lead tries (count + 1)

def dropZeros : Nat → Nat → Int → Nat × Int
  | 0, digits, k => (digits, k)
  | fuel + 1, digits, k =>
    if digits % 10 = 0 ∧ digits ≠ 0 then dropZeros fuel (digits / 10) (k + 1) else (digits, k)

/-- The shortest decimal form of `m · 2 ^ q`; seventeen digits always suffice. -/
def shortest (f : Format) (tie : Tie) (m : Nat) (q : Int) : Scientific :=
  if m = 0 then ⟨0, 0⟩
  else
    let (num, den) := Binary.ratio m q
    let lead := leadingExponent num den
    match searchDigits f tie m q lead 17 1 with
    | some (digits, k) =>
      let (digits, k) := dropZeros 20 digits k
      ⟨digits, k + (Nat.toDigits 10 digits).length - 1⟩
    | none => ⟨0, 0⟩

end LayeredConfig.Decimal
