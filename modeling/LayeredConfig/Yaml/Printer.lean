import LayeredConfig.Yaml.Character
import LayeredConfig.Yaml.Scalar

set_option autoImplicit false

/-!
# Writing values as YAML

Block style with an indentation of two; only empty collections are written in brackets. A text is
plain where that reads back as the same text, else in single quotes, or in double quotes if it needs
escapes; a text with line breaks is a literal block. A key that is long or no scalar stands behind a
question mark. A value with two tags cannot be written, and neither can a mapping of one entry
whose key is tagged, or again such a mapping, unless it has a tag itself.
-/
namespace LayeredConfig.Yaml

namespace Printer

/-- How a text is written. -/
inductive Style where
  | plain
  | single
  | double
  | literal
deriving DecidableEq, Repr

/-- The text so far, last character first, with the place on its line: whether a blank was written
last and whether nothing but indentation and indicators stands on the line. -/
structure Output where
  written : List Char
  column : Nat
  blank : Bool
  fresh : Bool

namespace Output

def start : Output := ⟨[], 0, true, true⟩

def put (out : Output) (c : Char) : Output :=
  if isBreak c then { out with written := c :: out.written, column := 0 }
  else { out with written := c :: out.written, column := out.column + 1 }

def putAll (out : Output) (cs : List Char) : Output := cs.foldl put out

def marks (out : Output) (blank fresh : Bool) : Output := { out with blank := blank, fresh := fresh }

/-- Goes to the indentation, on a new line unless this one is still free. -/
def indent (out : Output) (width : Nat) : Output :=
  let out :=
    if !out.fresh || width < out.column || (out.column == width && !out.blank) then out.put '\n'
    else out
  (out.putAll (List.replicate (width - out.column) ' ')).marks true true

/-- An indicator, perhaps with a blank before it. -/
def indicator (out : Output) (cs : List Char) (spaced blank fresh : Bool) : Output :=
  let out := if spaced && !out.blank then out.put ' ' else out
  (out.putAll cs).marks blank (out.fresh && fresh)

def spaced (out : Output) : Output := if out.blank then out else out.put ' '

end Output

/-! ## What a text allows -/

def isPrintable (c : Char) : Bool :=
  let n := c.toNat
  n == 0xA || (0x20 ≤ n && n ≤ 0x7E) || (0xA0 ≤ n && n ≤ 0xFFFD && n != 0xFEFF) || 0x10000 ≤ n

/-- The properties of a text that decide between the styles. -/
structure Traits where
  multiline : Bool
  plain : Bool
  single : Bool
  block : Bool

/-- Indicators at the start of a plain text. -/
def startsBadly (c : Char) (next : Option Char) : Bool :=
  "#,[]\x7b\x7d&*!|>'\"%@".toList.contains c || c == '\x60' ||
    ((c == '?' || c == ':' || c == '-') && (next.map isSpace).getD true)

/-- Indicators inside a plain text, by the characters before and after. -/
def holdsBadly : List Char → Bool
  | [] => false
  | c :: rest =>
    (c == ':' && (rest.head?.map isSpace).getD true) ||
      (isSpace c && rest.head? == some '#') || holdsBadly rest

/-- Whether a character of one class stands directly before one of another. -/
def adjacent (first second : Char → Bool) : List Char → Bool
  | a :: b :: rest => (first a && second b) || adjacent first second (b :: rest)
  | _ => false

def traits (cs : List Char) : Traits :=
  match cs with
  | [] => ⟨false, true, true, false⟩
  | c :: rest =>
    let ends (p : Char → Bool) : Bool := (cs.getLast?.map p).getD false
    let isGap (c : Char) : Bool := c == ' ' || isBreak c
    let boundary := "---".toList.isPrefixOf cs || "...".toList.isPrefixOf cs
    let indicators := boundary || startsBadly c rest.head? || holdsBadly rest ||
      (isSpace c && rest.head? == some '#')
    let special := !cs.all isPrintable || adjacent (· == ' ') isBreak cs
    let breakSpace := adjacent isBreak (· == ' ') cs
    let multiline := cs.any isBreak
    { multiline := multiline
      plain := !(isGap c || ends isGap || breakSpace || special || multiline || indicators)
      single := !(breakSpace || special)
      block := !(special || ends (· == ' ')) }

/-- The style that a text asks for by what it would mean as a plain scalar. -/
def preferred (s : String) : Style :=
  let oldBooleans := ["y", "Y", "yes", "Yes", "YES", "n", "N", "no", "No", "NO", "on", "On", "ON",
    "off", "Off", "OFF"]
  if oldBooleans.contains s then .single
  else if s.toList.contains '\n' then .literal
  else if Scalar.isZeroPadded s.toList then .single
  else
    match Scalar.plain? s with
    | some (.text _) => .plain
    | _ => .single

/-- The style that a text gets in its place. -/
def chosen (preferred : Style) (key : Bool) (cs : List Char) : Style :=
  let t := traits cs
  let style := if key && t.multiline then .double else preferred
  let style := if style = .plain ∧ (!t.plain ∨ (cs.isEmpty ∧ key)) then .single else style
  let style := if style = .single ∧ !t.single then .double else style
  if style = .literal ∧ (!t.block ∨ key) then .double else style

/-! ## Writing scalars -/

def upperHex (width n : Nat) : List Char :=
  let digits := (Nat.toDigits 16 n).map Char.toUpper
  List.replicate (width - digits.length) '0' ++ digits

/-- A character between double quotes. -/
def escape (c : Char) : List Char :=
  let n := c.toNat
  if isPrintable c && !isBreak c && c != '"' && c != '\\' then [c]
  else
    match c with
    | '\x00' => ['\\', '0']
    | '\x07' => ['\\', 'a']
    | '\x08' => ['\\', 'b']
    | '\t' => ['\\', 't']
    | '\n' => ['\\', 'n']
    | '\x0b' => ['\\', 'v']
    | '\x0c' => ['\\', 'f']
    | '\r' => ['\\', 'r']
    | '\x1b' => ['\\', 'e']
    | '"' => ['\\', '"']
    | '\\' => ['\\', '\\']
    | '\x85' => ['\\', 'N']
    | '\u2028' => ['\\', 'L']
    | '\u2029' => ['\\', 'P']
    | _ =>
      if n ≤ 0xFF then ['\\', 'x'] ++ upperHex 2 n
      else if n ≤ 0xFFFF then ['\\', 'u'] ++ upperHex 4 n
      else ['\\', 'U'] ++ upperHex 8 n

/-- The characters between single quotes, with breaks where they are. Behind a break the closing
quote is indented too. -/
def singleBody (width : Nat) : Bool → List Char → Output → Output
  | broken, [], out => if broken then out.indent width else out
  | broken, c :: rest, out =>
    if isBreak c then
      let out := if !broken && c == '\n' then out.put '\n' else out
      singleBody width true rest { out.put c with fresh := true }
    else
      let out := if broken then out.indent width else out
      let out := if c == '\'' then out.put '\'' else out
      singleBody width false rest { out.put c with fresh := out.fresh && c == ' ' }

/-- The lines of a literal block. -/
def literalBody (width : Nat) : Bool → List Char → Output → Output
  | _, [], out => out
  | broken, c :: rest, out =>
    if isBreak c then literalBody width true rest { out.put c with fresh := true }
    else
      let out := if broken then out.indent width else out
      literalBody width false rest { out.put c with fresh := false }

/-- What stands behind the bar of a literal block: the indentation if the text starts with a blank
or a break, and what becomes of its last breaks. -/
def literalHints (cs : List Char) : List Char :=
  let first := cs.headD ' '
  let width := if first == ' ' || isBreak first then ['2'] else []
  let chomp :=
    match cs.reverse with
    | [] => ['-']
    | [c] => if isBreak c then ['+'] else ['-']
    | c :: d :: _ => if !isBreak c then ['-'] else if isBreak d then ['+'] else []
  width ++ chomp

def putScalar (style : Style) (width : Nat) (cs : List Char) (out : Output) : Output :=
  match style with
  | .plain => ((if cs.isEmpty then out else out.spaced).putAll cs).marks false false
  | .single =>
    let out := singleBody width false cs (out.indicator ['\''] true false false)
    (out.indicator ['\''] false false false).marks false false
  | .double =>
    let out := (out.indicator ['"'] true false false).putAll (cs.flatMap escape)
    (out.indicator ['"'] false false false).marks false false
  | .literal =>
    let out := out.indicator ('|' :: literalHints cs) true false false
    literalBody width true cs ((out.put '\n').marks true true)

def isTagChar (c : Char) : Bool := isWord c || ";/?:@&=+$,.~*'()[]".toList.contains c

def encodeTag (cs : List Char) : List Char :=
  cs.flatMap fun c =>
    if isTagChar c then [c]
    else (String.utf8EncodeChar c).flatMap fun byte => '%' :: upperHex 2 byte.toNat

/-- The tag that has a name: an exclamation mark goes before it unless it starts with one. -/
def fullTag (name : String) : List Char :=
  if name.toList.head? = some '!' then name.toList else '!' :: name.toList

/-- A tag as it is written, in angles if it is an exclamation mark alone. -/
def tagText (name : String) : List Char :=
  match fullTag name with
  | '!' :: c :: rest => '!' :: encodeTag (c :: rest)
  | cs => "!<".toList ++ encodeTag cs ++ ['>']

/-- How much of a key's length a tag takes: its bytes before they are escaped. -/
def tagSize (name : String) : Nat :=
  (fullTag name).foldr (fun c size => c.utf8Size + size) 0

def putTag (tag : Option String) (out : Output) : Output :=
  match tag with
  | none => out
  | some name => (out.spaced.putAll (tagText name)).marks false false

/-! ## Writing values -/

def scalarText? : Value → Option String
  | .null => some "null"
  | .bool b => some (boolText b)
  | .number n => some n.text
  | .text s => some s
  | _ => none

/-- Whether a key may stand in front of its colon. -/
def isSimpleKey : Value → Bool
  | .sequence items => items.isEmpty
  | .mapping entries => entries.isEmpty
  | .tagged tag value =>
    match value with
    | .sequence items => items.isEmpty && tagSize tag ≤ 128
    | .mapping entries => entries.isEmpty && tagSize tag ≤ 128
    | _ =>
      match scalarText? value with
      | some s => !s.toList.any isBreak && tagSize tag + s.utf8ByteSize ≤ 128
      | none => false
  | value =>
    match scalarText? value with
    | some s => !s.toList.any isBreak && s.utf8ByteSize ≤ 128
    | none => false

/-- Where a value stands: the indentation around it, whether it belongs to a mapping, and whether
it is a key in front of a colon. -/
structure Place where
  indent : Option Nat
  inMapping : Bool
  key : Bool

def Place.deeper (place : Place) : Nat := (place.indent.map (· + 2)).getD 0

/-- The indentation of a scalar's further lines. -/
def Place.scalarIndent (place : Place) : Nat := (place.indent.map (· + 2)).getD 2

def putText (place : Place) (tag : Option String) (style : Style) (s : String) (out : Output) :
    Output :=
  let cs := s.toList
  let style := chosen style place.key cs
  putScalar style place.scalarIndent cs (putTag tag out)

mutual

/-- Writes a value that has a tag, or none. Of two tags only the inner one would be left. -/
def put (place : Place) (tag : Option String) : Value → Output → Output
  | .tagged name value, out => put place (some name) value out
  | .sequence items, out =>
    let out := putTag tag out
    if items.isEmpty then (out.indicator ['['] true true false).indicator [']'] false false false
    else
      let width :=
        if place.inMapping && !out.fresh then place.indent.getD 0 else place.deeper
      putItems width items out
  | .mapping entries, out =>
    let out := putTag tag out
    if entries.isEmpty then
      (out.indicator ['{'] true true false).indicator ['}'] false false false
    else putEntries place.deeper entries out
  | .null, out => putText place tag .plain "null" out
  | .bool b, out => putText place tag .plain (boolText b) out
  | .number n, out => putText place tag .plain n.text out
  | .text s, out => putText place tag (preferred s) s out

def putItems (width : Nat) : List Value → Output → Output
  | [], out => out
  | item :: rest, out =>
    let out := (out.indent width).indicator ['-'] true false true
    putItems width rest (put ⟨some width, false, false⟩ none item out)

def putEntries (width : Nat) : List (Value × Value) → Output → Output
  | [], out => out
  | (key, value) :: rest, out =>
    let out := out.indent width
    let out :=
      if isSimpleKey key then
        (put ⟨some width, true, true⟩ none key out).indicator [':'] false false false
      else
        let out := put ⟨some width, true, false⟩ none key (out.indicator ['?'] true false true)
        (out.indent width).indicator [':'] true false true
    putEntries width rest (put ⟨some width, true, false⟩ none value out)

end

end Printer

namespace Printer

/-- Whether a value would be taken for a tagged one until its key has been written. -/
def mayBeTagged : Value → Bool
  | .tagged _ _ => true
  | .mapping [_] => true
  | _ => false

/-- Whether the start of a mapping is lost, because its only key may be tagged as well. -/
def losesStart : List (Value × Value) → Bool
  | [(key, _)] => mayBeTagged key
  | _ => false

mutual

/-- Whether a value can be written. Behind a tag the start of a mapping is safe, and a further tag
has no place. -/
def isWritable (behindTag : Bool) : Value → Bool
  | .tagged _ value => !behindTag && isWritable true value
  | .sequence items => areWritable items
  | .mapping entries => (behindTag || !losesStart entries) && haveWritable entries
  | _ => true

def areWritable : List Value → Bool
  | [] => true
  | item :: rest => isWritable false item && areWritable rest

def haveWritable : List (Value × Value) → Bool
  | [] => true
  | (key, value) :: rest => isWritable false key && isWritable false value && haveWritable rest

end

end Printer

/-- The YAML text of a value, unless it cannot be written. -/
def Value.print? (value : Value) : Option (List Char) :=
  if Printer.isWritable false value then
    some (Printer.put ⟨none, false, false⟩ none value Printer.Output.start).written.reverse
  else none

end LayeredConfig.Yaml
