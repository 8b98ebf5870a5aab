set_option autoImplicit false

/-!
# Binary floating point

A finite number is `± m · 2 ^ q`. A format fixes how many bits `m` has and the least exponent; in
normal form `m` uses all its bits unless `q` is the least one. `round` takes a quotient of naturals
to the nearest number of the format, a half to the even neighbour, and past the greatest number to
infinity.
-/
namespace LayeredConfig.Decimal

/-- `precision` counts the bits of `m`, `least` is the least exponent, `width` the bits of the
exponent field. -/
structure Format where
  precision : Nat
  least : Int
  width : Nat
deriving DecidableEq, Repr

def double : Format := ⟨53, -1074, 11⟩

def single : Format := ⟨24, -149, 8⟩

inductive Binary where
  | nan
  | infinite (negative : Bool)
  | finite (negative : Bool) (m : Nat) (q : Int)
deriving DecidableEq, Repr

namespace Format

/-- The exponent of the greatest finite numbers. -/
def greatest (f : Format) : Int := f.least + (Nat.pow 2 f.width - 3 : Nat)

/-- `num / den` in units of `2 ^ q`, as a numerator and a denominator. -/
def scaled (num den : Nat) (q : Int) : Nat × Nat :=
  if q < 0 then (num * Nat.pow 2 q.natAbs, den) else (num, den * Nat.pow 2 q.natAbs)

/-- The exponent at which `num / den` has as many whole bits as the format holds. -/
def exponentFor (f : Format) (num den : Nat) : Int :=
  let q := max ((num.log2 : Int) - den.log2 - f.precision) f.least
  let (n, d) := scaled num den q
  if n / d < Nat.pow 2 f.precision then q else q + 1

def roundHalfEven (n d : Nat) : Nat :=
  let floor := n / d
  let rest := n % d
  if d < 2 * rest ∨ (2 * rest = d ∧ floor % 2 = 1) then floor + 1 else floor

/-- The number of the format nearest to `± num / den`, where `den` is not zero. -/
def round (f : Format) (negative : Bool) (num den : Nat) : Binary :=
  if num = 0 then .finite negative 0 f.least
  else
    let q := f.exponentFor num den
    let (n, d) := scaled num den q
    let m := roundHalfEven n d
    let (m, q) := if m = Nat.pow 2 f.precision then (m / 2, q + 1) else (m, q)
    if f.greatest < q then .infinite negative else .finite negative m q

/-- The number nearest to `± digits · 10 ^ exponent`. The bounds keep the powers of ten small where
the answer is zero or infinity anyway. -/
def ofDecimal (f : Format) (negative : Bool) (digits : Nat) (exponent : Int) : Binary :=
  let size : Int := (Nat.toDigits 10 digits).length
  if digits = 0 ∨ size + exponent < -400 then .finite negative 0 f.least
  else if 400 < size + exponent then .infinite negative
  else if exponent < 0 then f.round negative digits (Nat.pow 10 exponent.natAbs)
  else f.round negative (digits * Nat.pow 10 exponent.natAbs) 1

end Format

namespace Binary

def isFinite : Binary → Bool
  | .finite .. => true
  | _ => false

def isZero : Binary → Bool
  | .finite _ 0 _ => true
  | _ => false

def negate : Binary → Binary
  | .nan => .nan
  | .infinite s => .infinite !s
  | .finite s m q => .finite (!s) m q

/-- A finite number as a numerator and a denominator. -/
def ratio (m : Nat) (q : Int) : Nat × Nat :=
  if q < 0 then (m, Nat.pow 2 q.natAbs) else (m * Nat.pow 2 q.natAbs, 1)

/-- Multiplies by the number nearest to `10 ^ k`, rounded once. -/
def timesPowerOfTen (f : Format) (x : Binary) (k : Nat) : Binary :=
  match x, f.ofDecimal false 1 k with
  | .finite s m q, .finite _ m' q' =>
    let (n, d) := ratio m q
    let (n', d') := ratio m' q'
    f.round s (n * n') (d * d')
  | _, _ => x

/-- Divides by the number nearest to `10 ^ k`, rounded once. -/
def overPowerOfTen (f : Format) (x : Binary) (k : Nat) : Binary :=
  match x, f.ofDecimal false 1 k with
  | .finite s m q, .finite _ m' q' =>
    let (n, d) := ratio m q
    let (n', d') := ratio m' q'
    f.round s (n * d') (d * n')
  | _, _ => x

/-- The bits of the interchange encoding: sign, exponent field, fraction. -/
def bits (f : Format) : Binary → Nat
  | .nan => (Nat.pow 2 (f.width + 1) - 1) * Nat.pow 2 (f.precision - 2)
  | .infinite s => sign s + (Nat.pow 2 f.width - 1) * Nat.pow 2 (f.precision - 1)
  | .finite s m q => sign s + (q - f.least).toNat * Nat.pow 2 (f.precision - 1) + m
where
  sign (s : Bool) : Nat := if s then Nat.pow 2 (f.width + f.precision - 1) else 0

/-- Equality of numbers: both zeros are one, and so are all NaNs. -/
def same : Binary → Binary → Bool
  | .finite s m q, .finite s' m' q' => (m == 0 && m' == 0) || (s == s' && m == m' && q == q')
  | x, y => x == y

end Binary

end LayeredConfig.Decimal
