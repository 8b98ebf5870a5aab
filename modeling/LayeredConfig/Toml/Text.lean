import LayeredConfig.Decimal.Digits
import LayeredConfig.Text.Scan

set_option autoImplicit false

/-!
# Texts in TOML

Four kinds of texts: in double quotes with escapes, in single quotes without, and both of them over
several lines between three quotes. In the latter a line break right after the opening quotes does
not count, and up to two quotes may stand before the closing ones.
-/
namespace LayeredConfig.Toml.Scan

open LayeredConfig.Text
open LayeredConfig.Text.Scan

/-- Control characters other than the tab appear in no text and no comment. -/
def isPlain (c : Char) : Bool := c == '\t' || (0x20 ≤ c.toNat && c.toNat != 0x7F)

/-- What a letter after a backslash stands for. -/
def escape? (c : Char) : Option Char :=
  if c = '"' ∨ c = '\\' then some c
  else if c = 'b' then some '\x08'
  else if c = 'f' then some '\x0c'
  else if c = 'n' then some '\n'
  else if c = 'r' then some '\r'
  else if c = 't' then some '\t'
  else none

/-- The character with the code point that the digits give. -/
def codePoint? (digits : List Char) : Option Char :=
  match Decimal.natural? 16 digits with
  | some n => if h : n.isValidChar then some (Char.ofNatAux n h) else none
  | none => none

/-- The rest of an escape, behind its backslash. -/
def escaped : Scan Char := do
  let c ← one fun _ => true
  if c = 'u' ∨ c = 'U' then
    let digits ← exactly (if c = 'u' then 4 else 8) fun d => (Decimal.digit? 16 d).isSome
    match codePoint? digits with
    | some x => return x
    | none => fail
  else
    match escape? c with
    | some x => return x
    | none => fail

def isBlank (c : Char) : Bool := c == ' ' || c == '\t'

/-- A line feed, perhaps behind a carriage return. -/
def newline : Scan Bool := do
  if ← accept ['\n'] then return true else accept ['\r', '\n']

/-- The text up to the quote that closes it, on one line. `fuel` bounds the characters. -/
def line (quote : Char) (escapes : Bool) : Nat → Scan (List Char)
  | 0 => fail
  | fuel + 1 => do
    let c ← one fun c => isPlain c
    if c = quote then return []
    else
      let x ← if escapes ∧ c = '\\' then escaped else pure c
      return x :: (← line quote escapes fuel)

/-- Blanks and line breaks after a backslash at the end of a line. -/
def foldedBreak : Nat → Scan Unit
  | 0 => return
  | fuel + 1 => do
    let _ ← span isBlank
    if ← newline then foldedBreak fuel else return

/-- One piece of a text over several lines: a line break, an escape, or a character. -/
def piece (escapes : Bool) : Scan (List Char) := do
  if ← newline then return ['\n']
  else
    let c ← one isPlain
    if escapes ∧ c = '\\' then
      let after ← attempt (do
        let _ ← span isBlank
        if ← newline then return else fail)
      match after with
      | some () =>
        foldedBreak (← rest).length
        return []
      | none => return [← escaped]
    else return [c]

/-- The text up to the three quotes that close it. -/
def block (quote : Char) (escapes : Bool) : Nat → Scan (List Char)
  | 0 => fail
  | fuel + 1 => do
    let quotes := ((← rest).takeWhile (· == quote)).length
    if 3 ≤ quotes then
      let extra := min (quotes - 3) 2
      drop (extra + 3)
      return List.replicate extra quote
    else if 0 < quotes then
      drop quotes
      return List.replicate quotes quote ++ (← block quote escapes fuel)
    else
      let cs ← piece escapes
      return cs ++ (← block quote escapes fuel)

def quotedLine (quote : Char) : Scan String := do
  require [quote]
  return String.ofList (← line quote (quote == '"') (← rest).length)

/-- A text of any kind that starts with the quote. -/
def quoted (quote : Char) : Scan String := do
  if ← accept [quote, quote, quote] then
    let _ ← newline
    return String.ofList (← block quote (quote == '"') ((← rest).length + 1))
  else quotedLine quote

end LayeredConfig.Toml.Scan
