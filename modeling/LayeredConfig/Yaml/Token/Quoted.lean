import LayeredConfig.Decimal.Digits
import LayeredConfig.Yaml.Token.Folding

set_option autoImplicit false

/-!
# Quoted scalars

Between single quotes only the quote itself is doubled; between double quotes a backslash starts an
escape. Line breaks are folded, and a backslash before a break joins the lines.
-/
namespace LayeredConfig.Yaml.Lex

/-- The characters that one letter after a backslash stands for. -/
def escape? (c : Char) : Option Char :=
  match c with
  | '0' => some '\x00'
  | 'a' => some '\x07'
  | 'b' => some '\x08'
  | 't' => some '\t'
  | '\t' => some '\t'
  | 'n' => some '\n'
  | 'v' => some '\x0b'
  | 'f' => some '\x0c'
  | 'r' => some '\r'
  | 'e' => some '\x1b'
  | ' ' => some ' '
  | '"' => some '"'
  | '/' => some '/'
  | '\\' => some '\\'
  | 'N' => some '\x85'
  | '_' => some '\xa0'
  | 'L' => some '\u2028'
  | 'P' => some '\u2029'
  | _ => none

/-- How many hexadecimal digits follow the letter of an escape. -/
def escapeWidth (c : Char) : Nat :=
  if c == 'x' then 2 else if c == 'u' then 4 else if c == 'U' then 8 else 0

/-- An escape with its backslash. -/
def escaped : Lex Char := do
  let c ← look 1
  match escape? c with
  | some x =>
    skip 2
    return x
  | none =>
    let width := escapeWidth c
    skip 2
    let digits := (← get).rest.take width
    if width = 0 ∨ digits.length ≠ width then fail
    else
      match Decimal.natural? 16 digits with
      | none => fail
      | some n =>
        skip width
        if h : n.isValidChar then return Char.ofNatAux n h else fail

/-- Characters up to a blank, a break, the end or the closing quote; and whether a break was
escaped at the end. -/
def quotedRun (single : Bool) : Nat → List Char → Lex (List Char × Bool)
  | 0, acc => return (acc, false)
  | fuel + 1, acc => do
    let c ← look 0
    if isSpace c then return (acc, false)
    else if single && c == '\'' then
      if (← look 1) == '\'' then
        skip 2
        quotedRun single fuel ('\'' :: acc)
      else return (acc, false)
    else if !single && c == '"' then return (acc, false)
    else if !single && c == '\\' then
      if isBreak (← look 1) then
        skip 1
        let _ ← breakLine
        return (acc, true)
      else
        let x ← escaped
        quotedRun single fuel (x :: acc)
    else
      skip 1
      quotedRun single fuel (c :: acc)

/-- The rest of a quoted scalar, where `acc` holds its characters so far, last first. -/
def quotedBody (single : Bool) : Nat → List Char → Lex (List Char)
  | 0, _ => fail
  | fuel + 1, acc => do
    if ← atBoundary then fail
    else if isEnd (← look 0) then fail
    else
      let (acc, joined) ← quotedRun single (← Lex.fuel) acc
      if (← look 0) == (if single then '\'' else '"') then
        skip 1
        return acc.reverse
      else
        let gap ← Gap.read none (← Lex.fuel) { Gap.empty with broken := joined }
        quotedBody single fuel (gap.text.reverse ++ acc)

def quotedScalar (single : Bool) : Lex Token := do
  skip 1
  return .scalar (String.ofList (← quotedBody single (← Lex.fuel) [])) false

end LayeredConfig.Yaml.Lex
