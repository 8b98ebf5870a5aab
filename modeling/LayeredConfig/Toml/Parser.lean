import LayeredConfig.Toml.Number
import LayeredConfig.Toml.Table

set_option autoImplicit false

/-!
# Reading TOML

A document is a sequence of lines: headers, key-value pairs, comments. Values nest through arrays
and inline tables, which is limited.
-/
namespace LayeredConfig.Toml

open LayeredConfig.Text
open LayeredConfig.Text.Scan

/-- Containers nest less deep than this, and dotted keys are shorter. -/
def depthLimit : Nat := 80

namespace Scan

def blanks : Scan Unit := do
  let _ ← span isBlank

/-- A comment in front, if there is one. -/
def comment : Scan Unit := do
  if ← accept ['#'] then
    let _ ← span isPlain

/-- The rest of a line: blanks, a comment, and the end of the line or of the document. -/
def lineEnd : Scan Unit := do
  blanks
  comment
  if ← atEnd then return
  else if ← newline then return
  else fail

/-- Blanks, comments and line breaks between the items of an array. -/
def spaces : Nat → Scan Unit
  | 0 => return
  | fuel + 1 => do
    blanks
    if ← sees ['#'] then
      comment
      if ← newline then spaces fuel else fail
    else if ← newline then spaces fuel
    else return

def spaced : Scan Unit := do spaces ((← rest).length + 1)

def isBareKey (c : Char) : Bool := c.isAlpha || c.isDigit || c == '_' || c == '-'

def simpleKey : Scan String := do
  match ← peek with
  | some '"' => quotedLine '"'
  | some '\'' => quotedLine '\''
  | _ => return String.ofList (← span1 isBareKey)

def keysFrom : Nat → Scan (List String)
  | 0 => fail
  | fuel + 1 => do
    blanks
    let key ← simpleKey
    blanks
    if ← accept ['.'] then return key :: (← keysFrom fuel) else return [key]

/-- Keys between dots. -/
def keys : Scan (List String) := keysFrom (depthLimit - 1)

mutual

/-- A value with `depth` containers around it. -/
def value (depth : Nat) : Nat → Scan Value
  | 0 => fail
  | fuel + 1 => do
    match ← peek with
    | some '"' => return .text (← quoted '"')
    | some '\'' => return .text (← quoted '\'')
    | some '[' =>
      drop 1
      if depthLimit ≤ depth + 1 then fail else return .array (← arrayItems (depth + 1) fuel)
    | some '{' =>
      drop 1
      if depthLimit ≤ depth + 1 then fail else inlineTable (depth + 1) fuel
    | some 't' =>
      require "true".toList
      return .bool true
    | some 'f' =>
      require "false".toList
      return .bool false
    | _ => either (Value.moment <$> moment) number

/-- The items of an array up to its closing bracket. -/
def arrayItems (depth : Nat) : Nat → Scan (List Value)
  | 0 => fail
  | fuel + 1 => do
    spaced
    if ← accept [']'] then return []
    else
      let item ← value depth fuel
      spaced
      if ← accept [','] then return item :: (← arrayItems depth fuel)
      else
        require [']']
        return [item]

/-- An inline table behind its opening brace. -/
def inlineTable (depth : Nat) : Nat → Scan Value
  | 0 => fail
  | fuel + 1 => do
    blanks
    if ← accept ['}'] then return .table []
    else
      let table ← inlineEntries depth Table.empty fuel
      return .table (toValues table.entries)

/-- The entries of an inline table up to its closing brace. -/
def inlineEntries (depth : Nat) (table : Table) : Nat → Scan Table
  | 0 => fail
  | fuel + 1 => do
    let path ← keys
    require ['=']
    blanks
    let v ← value depth fuel
    blanks
    match table.assign [] path v with
    | none => fail
    | some table =>
      if ← accept [','] then inlineEntries depth table fuel
      else
        require ['}']
        return table

end

/-- A document under construction: its table and the header that is in force. -/
structure Draft where
  root : Table
  header : List String

def header (draft : Draft) (add : String → Table → Option Table) (path : List String) :
    Scan Draft :=
  match path.getLast? with
  | none => fail
  | some key =>
    match draft.root.change false (add key) path.dropLast with
    | none => fail
    | some root => return ⟨root, path⟩

/-- One line of the document. -/
def statement (draft : Draft) : Scan Draft := do
  match ← peek with
  | some '#' => return draft
  | some '\n' => return draft
  | some '\r' => return draft
  | some '[' =>
    if ← accept ['[', '['] then
      let path ← keys
      require [']', ']']
      header draft Table.append path
    else
      drop 1
      let path ← keys
      require [']']
      header draft Table.define path
  | _ =>
    let path ← keys
    require ['=']
    blanks
    let v ← value 0 (2 * (← rest).length + 2)
    match draft.root.assign draft.header path v with
    | none => fail
    | some root => return ⟨root, draft.header⟩

def lines : Nat → Draft → Scan Draft
  | 0, _ => fail
  | fuel + 1, draft => do
    blanks
    if ← atEnd then return draft
    else
      let draft ← statement draft
      lineEnd
      lines fuel draft

end Scan

/-- The table that a document describes. A byte order mark in front does not count. The document's
own table stands for no moment, whatever its first key. -/
def parse? (cs : List Char) : Option Value :=
  let cs := if cs.head? = some '\ufeff' then cs.drop 1 else cs
  match Scan.lines (cs.length + 1) ⟨Table.empty, []⟩ cs with
  | some (draft, _) => (resolveEntries? (toValues draft.root.entries)).map .table
  | none => none

end LayeredConfig.Toml
