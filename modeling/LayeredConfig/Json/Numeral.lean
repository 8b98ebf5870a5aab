import LayeredConfig.Json.Value

set_option autoImplicit false

/-!
# Numbers in JSON

A numeral without fraction and exponent that fits 64 bits is an integer; any other is a double. The
significand of a double takes digits as long as it fits 64 bits; the digits left over before the
point raise the exponent and those after it are dropped. The significand becomes a double, which is
then scaled by a power of ten in one rounding, or in several below `1e-308`.
-/
namespace LayeredConfig.Json

structure Exponent where
  negative : Bool
  digits : List Char
deriving DecidableEq, Repr

structure Numeral where
  negative : Bool
  whole : List Char
  fraction : List Char
  exponent : Option Exponent
deriving DecidableEq, Repr

/-- Takes digits into the significand while it stays below `2 ^ 64`; the rest is left over. -/
def gather (significand : Nat) : List Char → Nat × List Char
  | [] => (significand, [])
  | c :: rest =>
    let next := significand * 10 + (Decimal.digit? 10 c).getD 0
    if next < Nat.pow 2 64 then gather next rest else (significand, c :: rest)

/-- Divides by ten `e` times, at most 308 times at once, and stops at zero. -/
def scaleDown (x : Decimal.Binary) (e : Nat) : Decimal.Binary :=
  if e ≤ 308 then x.overPowerOfTen Decimal.double e
  else if x.isZero then x
  else scaleDown (x.overPowerOfTen Decimal.double 308) (e - 308)
termination_by e

/-- `significand · 10 ^ e`, unless it is out of range. -/
def scaled? (significand : Nat) (e : Int) : Option Decimal.Binary :=
  let x := Decimal.double.round false significand 1
  if e < 0 then some (scaleDown x e.natAbs)
  else if e ≤ 308 then
    let y := x.timesPowerOfTen Decimal.double e.natAbs
    if y.isFinite then some y else none
  else if significand = 0 then some x
  else none

/-- Exponents are limited to 31 bits; a greater one makes zero or is out of range. -/
def withExponent? (significand : Nat) (start : Int) (exponent : Exponent) :
    Option Decimal.Binary :=
  let e := (Decimal.foldDigits 10 0 exponent.digits).getD 0
  if Nat.pow 2 31 ≤ e then
    if significand ≠ 0 ∧ !exponent.negative then none
    else some (Decimal.double.round false 0 1)
  else scaled? significand (if exponent.negative then start - e else start + e)

namespace Numeral

def double? (n : Numeral) : Option Decimal.Binary :=
  let (whole, extra) := gather 0 n.whole
  let (significand, dropped) := gather whole n.fraction
  let start : Int := extra.length - (n.fraction.length - dropped.length : Nat)
  let x :=
    match n.exponent with
    | none => scaled? significand start
    | some exponent => withExponent? significand start exponent
  x.map fun x => if n.negative then x.negate else x

/-- Negative zero is a double. -/
def integer? (n : Numeral) : Option Int :=
  let (m, extra) := gather 0 n.whole
  if !extra.isEmpty || !n.fraction.isEmpty || n.exponent.isSome then none
  else if n.negative then (if m = 0 ∨ Nat.pow 2 63 < m then none else some (-m))
  else some m

def number? (n : Numeral) : Option Number :=
  match n.integer? with
  | some i => some (.integer i)
  | none => n.double?.map .float

end Numeral

/-- Whether a minus sign stands in front, and the text behind a sign of either kind. -/
def splitSign : List Char → Bool × List Char
  | '-' :: rest => (true, rest)
  | '+' :: rest => (false, rest)
  | cs => (false, cs)

/-- The exponent at the front of a text, if there is one, and what follows. -/
def exponentAt? : List Char → Option (Option Exponent × List Char)
  | [] => some (none, [])
  | c :: rest =>
    if c = 'e' ∨ c = 'E' then
      let signed := splitSign rest
      let digits := signed.2.takeWhile Decimal.isDigit
      if digits.isEmpty then none
      else some (some ⟨signed.1, digits⟩, signed.2.dropWhile Decimal.isDigit)
    else some (none, c :: rest)

/-- The fraction at the front of a text, if there is one, and what follows. -/
def fractionAt? (cs : List Char) : Option (List Char × List Char) :=
  match cs with
  | '.' :: rest =>
    let digits := rest.takeWhile Decimal.isDigit
    if digits.isEmpty then none else some (digits, rest.dropWhile Decimal.isDigit)
  | cs => some ([], cs)

/-- The numeral at the front of a text that has lost its sign, and what follows. -/
def numeralAt? (negative : Bool) (cs : List Char) : Option (Numeral × List Char) :=
  let whole := cs.takeWhile Decimal.isDigit
  if whole.isEmpty || (whole.head? == some '0' && 1 < whole.length) then none
  else
    match fractionAt? (cs.dropWhile Decimal.isDigit) with
    | none => none
    | some (fraction, rest) =>
      match exponentAt? rest with
      | none => none
      | some (exponent, rest) => some (⟨negative, whole, fraction, exponent⟩, rest)

theorem splitSign_length (cs : List Char) : (splitSign cs).2.length ≤ cs.length := by
  unfold splitSign
  split <;> simp

theorem exponentAt?_length {cs rest : List Char} {e : Option Exponent}
    (h : exponentAt? cs = some (e, rest)) : rest.length ≤ cs.length := by
  unfold exponentAt? at h
  split at h
  · simp only [Option.some.injEq, Prod.mk.injEq] at h
    exact Nat.le_of_eq (congrArg List.length h.2.symm)
  · rename_i c tail
    split at h
    · dsimp only at h
      split at h
      · simp at h
      · simp only [Option.some.injEq, Prod.mk.injEq] at h
        have h₁ := (List.dropWhile_sublist Decimal.isDigit (l := (splitSign tail).2)).length_le
        have h₂ := splitSign_length tail
        rw [← h.2]
        simp only [List.length_cons]
        omega
    · simp only [Option.some.injEq, Prod.mk.injEq] at h
      exact Nat.le_of_eq (congrArg List.length h.2.symm)

theorem fractionAt?_length {cs digits rest : List Char}
    (h : fractionAt? cs = some (digits, rest)) : rest.length ≤ cs.length := by
  unfold fractionAt? at h
  split at h
  · rename_i tail
    dsimp only at h
    split at h
    · simp at h
    · simp only [Option.some.injEq, Prod.mk.injEq] at h
      have := (List.dropWhile_sublist Decimal.isDigit (l := tail)).length_le
      rw [← h.2]
      simp only [List.length_cons]
      omega
  · simp only [Option.some.injEq, Prod.mk.injEq] at h
    exact Nat.le_of_eq (congrArg List.length h.2.symm)

theorem numeralAt?_length {negative : Bool} {cs rest : List Char} {n : Numeral}
    (h : numeralAt? negative cs = some (n, rest)) : rest.length < cs.length := by
  have hsplit := List.takeWhile_append_dropWhile (p := Decimal.isDigit) (l := cs)
  have hlen := congrArg List.length hsplit
  simp only [List.length_append] at hlen
  unfold numeralAt? at h
  dsimp only at h
  split at h
  · simp at h
  · rename_i hwhole
    have hpos : 0 < (cs.takeWhile Decimal.isDigit).length := by
      cases hw : cs.takeWhile Decimal.isDigit with
      | nil => simp [hw] at hwhole
      | cons c rest => simp
    split at h
    · simp at h
    · rename_i hfraction
      split at h
      · simp at h
      · rename_i hexponent
        simp only [Option.some.injEq, Prod.mk.injEq] at h
        have h₁ := fractionAt?_length hfraction
        have h₂ := exponentAt?_length hexponent
        rw [← h.2]
        omega

end LayeredConfig.Json
