import LayeredConfig.Decimal.Digits
import LayeredConfig.Yaml.Token.Lexer

set_option autoImplicit false

/-!
# Tags, anchors and directives
-/
namespace LayeredConfig.Yaml.Lex

/-- Characters of a tag besides letters and digits; commas and brackets only where `wide`. -/
def isTagChar (wide : Bool) (c : Char) : Bool :=
  isWord c || ";/?:@&=+$.%!~*'()".toList.contains c || (wide && ",[]".toList.contains c)

/-- How many bytes a first byte announces. -/
def utf8Width (byte : UInt8) : Nat :=
  if byte < 0x80 then 1
  else if 0xC0 ≤ byte && byte < 0xE0 then 2
  else if 0xE0 ≤ byte && byte < 0xF0 then 3
  else if 0xF0 ≤ byte && byte < 0xF8 then 4
  else 0

def escapedByte : Lex UInt8 := do
  let digits := (← get).rest.take 3
  match digits with
  | ['%', a, b] =>
    match Decimal.natural? 16 [a, b] with
    | some n =>
      skip 3
      return n.toUInt8
    | none => fail
  | _ => fail

def escapedBytes : Nat → Lex (List UInt8)
  | 0 => return []
  | count + 1 => do
    let byte ← escapedByte
    if 0x80 ≤ byte ∧ byte < 0xC0 then return byte :: (← escapedBytes count) else fail

/-- The bytes of one character by their escapes; only their number is checked, and which of them
start or go on with a character. -/
def escapedChar : Lex (List UInt8) := do
  let first ← escapedByte
  let width := utf8Width first
  if width = 0 then fail
  else
    return first :: (← escapedBytes (width - 1))

def tagChars (wide : Bool) : Nat → Lex (List UInt8)
  | 0 => return []
  | fuel + 1 => do
    let c ← look 0
    if c == '%' then return (← escapedChar) ++ (← tagChars wide fuel)
    else if isTagChar wide c then
      skip 1
      return c.toUInt8 :: (← tagChars wide fuel)
    else return []

/-- An exclamation mark, word characters, and perhaps another mark. -/
def tagHandle : Lex (List Char) := do
  if (← look 0) != '!' then fail
  else
    skip 1
    let name ← takeWhile isWord
    if (← look 0) == '!' then
      skip 1
      return '!' :: name ++ ['!']
    else return '!' :: name

/-- A tag: a full name between angles, or a handle with a suffix, or a suffix alone. -/
def tagParts : Lex (String × Tag) := do
  if (← look 1) == '<' then
    skip 2
    let name ← tagChars true (← Lex.fuel)
    if name.isEmpty || (← look 0) != '>' then fail
    else
      skip 1
      return ("", .part name)
  else
    let handle ← tagHandle
    let suffix ← tagChars false (← Lex.fuel)
    if 2 ≤ handle.length ∧ handle.getLast? = some '!' then
      if suffix.isEmpty then fail
      else return (String.ofList handle, .part suffix)
    else
      let suffix := Tag.part ((handle.drop 1).map Char.toUInt8 ++ suffix)
      if suffix.isEmpty then return ("", .ofString "!") else return ("!", suffix)

def tag : Lex Token := do
  let (handle, suffix) ← tagParts
  let c ← look 0
  if isSpace c || ((← get).inFlow && c == ',') then return .tag handle suffix else fail

/-- What may follow the name of an anchor directly. -/
def endsAnchor (c : Char) : Bool := isSpace c || "?:,]\x7d%@".toList.contains c || c == '\x60'

def anchorName : Lex String := do
  skip 1
  let name ← takeWhile isWord
  if name.isEmpty || !endsAnchor (← look 0) then fail else return String.ofList name

/-- A number of at most nine digits. -/
def versionNumber : Lex Nat := do
  let digits ← takeWhile Decimal.isDigit
  if 9 < digits.length then fail
  else
    match Decimal.natural? 10 digits with
    | some n => return n
    | none => fail

def versionDirective : Lex Token := do
  skipBlanks
  let major ← versionNumber
  if (← look 0) != '.' then fail
  else
    skip 1
    return .versionDirective major (← versionNumber)

def tagDirective : Lex Token := do
  skipBlanks
  let handle ← tagHandle
  if handle ≠ ['!'] ∧ (handle.length < 2 ∨ handle.getLast? ≠ some '!') then fail
  else if !isBlank (← look 0) then fail
  else
    skipBlanks
    let start ← tagChars true (← Lex.fuel)
    if start.isEmpty || !isSpace (← look 0) then fail
    else return .tagDirective (String.ofList handle) (.part start)

/-- A directive with the rest of its line. -/
def directive : Lex Token := do
  skip 1
  let name ← takeWhile isWord
  if name.isEmpty || !isSpace (← look 0) then fail
  else
    let token ←
      if name = "YAML".toList then versionDirective
      else if name = "TAG".toList then tagDirective
      else fail
    skipBlanks
    skipComment
    if !isBreakOrEnd (← look 0) then fail
    else
      if isBreak (← look 0) then
        let _ ← breakLine
      return token

end LayeredConfig.Yaml.Lex
