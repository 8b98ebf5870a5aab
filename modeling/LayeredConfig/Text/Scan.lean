set_option autoImplicit false

/-!
# Reading from the front of a text

A `Scan` takes characters from the front of a text and gives a result, or fails.
-/
namespace LayeredConfig.Text

abbrev Scan (α : Type) : Type := StateT (List Char) Option α

namespace Scan

def fail {α : Type} : Scan α := fun _ => none

def rest : Scan (List Char) := get

def peek : Scan (Option Char) := do return (← get).head?

/-- Whether the text that follows starts with `start`. -/
def sees (start : List Char) : Scan Bool := do return start.isPrefixOf (← get)

def drop (count : Nat) : Scan Unit := modify (·.drop count)

/-- Takes `start` if it stands in front, and says whether it did. -/
def accept (start : List Char) : Scan Bool := do
  if ← sees start then
    drop start.length
    return true
  else return false

def require (start : List Char) : Scan Unit := do
  if ← accept start then return else fail

/-- One character of a class. -/
def one (p : Char → Bool) : Scan Char := fun cs =>
  match cs with
  | c :: rest => if p c then some (c, rest) else none
  | [] => none

/-- All characters of a class in front. -/
def span (p : Char → Bool) : Scan (List Char) := fun cs =>
  some (cs.takeWhile p, cs.dropWhile p)

/-- One or more characters of a class. -/
def span1 (p : Char → Bool) : Scan (List Char) := do
  let found ← span p
  if found.isEmpty then fail else return found

/-- Exactly `count` characters of a class. -/
def exactly (count : Nat) (p : Char → Bool) : Scan (List Char) := fun cs =>
  let found := cs.take count
  if found.length = count ∧ found.all p then some (found, cs.drop count) else none

/-- The result of `scan`, or nothing and no character taken. -/
def attempt {α : Type} (scan : Scan α) : Scan (Option α) := fun cs =>
  match scan cs with
  | some (a, rest) => some (some a, rest)
  | none => some (none, cs)

def either {α : Type} (first second : Scan α) : Scan α := fun cs =>
  match first cs with
  | some found => some found
  | none => second cs

def atEnd : Scan Bool := do return (← get).isEmpty

end Scan

end LayeredConfig.Text
