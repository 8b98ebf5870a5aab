import LayeredConfig.Decimal.Digits
import LayeredConfig.Text.Scan

set_option autoImplicit false

/-!
# Dates and times

A date, a time of day, or both with an optional offset from UTC. Days are checked against the
calendar; a minute has up to 61 seconds. Fractions count to the ninth digit. A text that stands for
a moment is read more freely than a moment in a document.
-/
namespace LayeredConfig.Toml

open LayeredConfig.Text

structure Date where
  year : Nat
  month : Nat
  day : Nat
deriving DecidableEq, Repr

structure Time where
  hour : Nat
  minute : Nat
  second : Nat
  nanosecond : Nat
deriving DecidableEq, Repr

inductive Offset where
  | utc
  | minutes (n : Int)
deriving DecidableEq, Repr

inductive Moment where
  | date (d : Date) (offset : Option Offset)
  | time (t : Time)
  | dateTime (d : Date) (t : Time) (offset : Option Offset)
deriving DecidableEq, Repr

def isLeapYear (year : Nat) : Bool := year % 4 == 0 && (year % 100 != 0 || year % 400 == 0)

def daysIn (year month : Nat) : Nat :=
  if month = 2 then (if isLeapYear year then 29 else 28)
  else if month = 4 ∨ month = 6 ∨ month = 9 ∨ month = 11 then 30
  else 31

def padded (width n : Nat) : List Char :=
  let digits := Decimal.ofNat n
  List.replicate (width - digits.length) '0' ++ digits

def Date.text (d : Date) : List Char :=
  padded 4 d.year ++ ['-'] ++ padded 2 d.month ++ ['-'] ++ padded 2 d.day

def Time.text (t : Time) : List Char :=
  let fraction := ((padded 9 t.nanosecond).reverse.dropWhile (· == '0')).reverse
  padded 2 t.hour ++ [':'] ++ padded 2 t.minute ++ [':'] ++ padded 2 t.second ++
    (if fraction.isEmpty then [] else '.' :: fraction)

def Offset.text : Offset → List Char
  | .utc => ['Z']
  | .minutes n =>
    (if n < 0 then ['-'] else ['+']) ++ padded 2 (n.natAbs / 60) ++ [':'] ++
      padded 2 (n.natAbs % 60)

def offsetText (offset : Option Offset) : List Char := (offset.map Offset.text).getD []

def Moment.text : Moment → List Char
  | .date d offset => d.text ++ offsetText offset
  | .time t => t.text
  | .dateTime d t offset => d.text ++ ['T'] ++ t.text ++ offsetText offset

namespace Scan

open LayeredConfig.Text.Scan

/-- A number of exactly `width` digits within bounds. -/
def field (width least greatest : Nat) : Scan Nat := do
  let digits ← exactly width Decimal.isDigit
  match Decimal.natural? 10 digits with
  | some n => if least ≤ n ∧ n ≤ greatest then return n else fail
  | none => fail

def date : Scan Date := do
  let year ← field 4 0 9999
  require ['-']
  let month ← field 2 1 12
  require ['-']
  let day ← field 2 1 31
  if day ≤ daysIn year month then return ⟨year, month, day⟩ else fail

def time (lastHour : Nat) : Scan Time := do
  let hour ← field 2 0 lastHour
  require [':']
  let minute ← field 2 0 59
  require [':']
  let second ← field 2 0 60
  if ← accept ['.'] then
    let digits := (← span1 Decimal.isDigit).take 9
    let scaled := digits ++ List.replicate (9 - digits.length) '0'
    return ⟨hour, minute, second, (Decimal.natural? 10 scaled).getD 0⟩
  else return ⟨hour, minute, second, 0⟩

def offset (lastHour lastMinute : Nat) : Scan Offset := do
  let c ← one fun c => c == 'Z' || c == 'z' || c == '+' || c == '-'
  if c = 'Z' ∨ c = 'z' then return .utc
  else
    let hours ← field 2 0 lastHour
    require [':']
    let minutes ← field 2 0 lastMinute
    let total : Int := hours * 60 + minutes
    return .minutes (if c = '-' then -total else total)

def isSeparator (c : Char) : Bool := c == 'T' || c == 't' || c == ' '

/-- The time behind a date: one separator, the time and perhaps an offset. -/
def timeOfDate : Scan (Time × Option Offset) := do
  let _ ← one isSeparator
  let t ← time 23
  let sign ← peek
  if sign = some 'Z' ∨ sign = some 'z' ∨ sign = some '+' ∨ sign = some '-' then
    return (t, some (← offset 23 59))
  else return (t, none)

def dated : Scan Moment := do
  let d ← date
  match ← attempt timeOfDate with
  | some (t, offset) => return .dateTime d t offset
  | none => return .date d none

/-- A moment in a document. -/
def moment : Scan Moment := either dated (Moment.time <$> time 23)

/-- An offset of at most a day before the end of a text, if anything is left. -/
def lastOffset : Scan (Option Offset) := do
  if ← atEnd then return none
  else
    let found ← offset 99 99
    match found with
    | .utc => return some found
    | .minutes n => if n.natAbs ≤ 24 * 60 then return some found else fail

/-- A moment as a text of its own. A day may have a 25th hour, an offset counts up to a day, and a
date without a time may have one. -/
def momentText : Scan Moment := do
  if (← rest)[2]? = some ':' then return .time (← time 24)
  else
    let d ← date
    if ((← peek).map isSeparator).getD false then
      drop 1
      let t ← time 24
      return .dateTime d t (← lastOffset)
    else return .date d (← lastOffset)

end Scan

/-- The moment that a whole text stands for. -/
def Moment.ofText? (s : String) : Option Moment :=
  match Scan.momentText s.toList with
  | some (m, []) => some m
  | _ => none

end LayeredConfig.Toml
