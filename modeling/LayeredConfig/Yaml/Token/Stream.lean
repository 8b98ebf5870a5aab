import LayeredConfig.Yaml.Token.Block
import LayeredConfig.Yaml.Token.Plain
import LayeredConfig.Yaml.Token.Quoted
import LayeredConfig.Yaml.Token.Tag

set_option autoImplicit false

/-!
# The tokens of a text

One token after another, with the tokens that indentation and late keys call for. A key must end on
the line where it starts and within 1024 bytes.
-/
namespace LayeredConfig.Yaml

namespace Lex

def allowKey (allowed : Bool) : Lex Unit := modify fun s => { s with keyAllowed := allowed }

/-- Gives up the place where a key may have started. -/
def dropKeyStart : Lex Unit := do
  match (← get).keyStarts with
  | some start :: outer =>
    if start.required then fail else modify fun s => { s with keyStarts := none :: outer }
  | _ => return

/-- Notes that a key may start here. It must be one where a block mapping goes on. -/
def noteKeyStart : Lex Unit := do
  let s ← get
  if s.keyAllowed then
    dropKeyStart
    let required := !s.inFlow && decide (s.indent = s.column)
    modify fun t =>
      { t with keyStarts := some ⟨required, s.count, s.index, s.line, s.column⟩ ::
        t.keyStarts.drop 1 }

/-- The place where a key has started, if it is still near enough. -/
def keyStart? : Lex (Option KeyStart) := do
  let s ← get
  match s.keyStarts with
  | some start :: _ =>
    if start.line < s.line ∨ start.index + 1024 < s.index then
      if start.required then fail else return none
    else return some start
  | _ => return none

/-- Opens a block collection at a column right of the current indentation. The token goes behind
the first `place` ones, or to the end. -/
def openBlock (column : Nat) (place : Option Nat) (token : Token) : Lex Unit := do
  let s ← get
  if !s.inFlow && decide (s.indent < column) then
    modify fun t => { t with indent := column, indents := s.indent :: t.indents }
    match place with
    | some n => insertAt n token
    | none => emit token

/-- Closes the block collections that are indented more than the column. -/
def closeBlocks (column : Int) : Lex Unit := do
  let s ← get
  if !s.inFlow then
    let all := s.indent :: s.indents
    let closed := (all.takeWhile (decide <| column < ·)).length
    let ends := List.replicate closed Token.blockEnd
    modify fun t =>
      { t with
        tokens := ends ++ t.tokens
        count := t.count + closed
        indent := (all.drop closed).headD (-1)
        indents := (all.drop closed).drop 1 }

/-- Passes blanks, comments and line breaks, and one byte order mark at the start of a line. A tab is
no indentation where a key may start. -/
def skipToToken : Nat → Lex Unit
  | 0 => return
  | fuel + 1 => do
    if (← get).column = 0 ∧ (← look 0) = '\ufeff' then skip 1
    let s ← get
    skipWhile fun c => c == ' ' || (c == '\t' && (s.inFlow || !s.keyAllowed))
    skipComment
    if isBreak (← look 0) then
      let _ ← breakLine
      if !(← get).inFlow then allowKey true
      skipToToken fuel

def streamEnd : Lex Unit := do
  closeBlocks (-1)
  dropKeyStart
  emit .streamEnd

def directiveLine : Lex Unit := do
  closeBlocks (-1)
  dropKeyStart
  allowKey false
  emit (← directive)

def boundary (token : Token) : Lex Unit := do
  closeBlocks (-1)
  dropKeyStart
  allowKey false
  skip 3
  emit token

def flowStart (token : Token) : Lex Unit := do
  noteKeyStart
  modify fun s => { s with keyStarts := none :: s.keyStarts }
  allowKey true
  skip 1
  emit token

def flowEnd (token : Token) : Lex Unit := do
  dropKeyStart
  if (← get).inFlow then modify fun s => { s with keyStarts := s.keyStarts.drop 1 }
  allowKey false
  skip 1
  emit token

def flowEntry : Lex Unit := do
  dropKeyStart
  allowKey true
  skip 1
  emit .flowEntry

/-- The indicator of a block entry or of a key; it opens a collection where it stands. -/
def blockIndicator (opening token : Token) (allowed : Bool) : Lex Unit := do
  let s ← get
  if !s.inFlow then
    if !s.keyAllowed then fail else openBlock s.column none opening
  dropKeyStart
  allowKey allowed
  skip 1
  emit token

/-- A colon: behind a key that started earlier, or of a mapping entry of its own. -/
def valueIndicator : Lex Unit := do
  match ← keyStart? with
  | some start =>
    insertAt start.tokens .key
    openBlock start.column (some start.tokens) .blockMappingStart
    modify fun s => { s with keyStarts := none :: s.keyStarts.drop 1 }
    allowKey false
  | none =>
    let s ← get
    if !s.inFlow then
      if !s.keyAllowed then fail else openBlock s.column none .blockMappingStart
    allowKey (!s.inFlow)
  skip 1
  emit .value

/-- A token that a key may start with. -/
def keyLike (read : Lex Token) : Lex Unit := do
  noteKeyStart
  allowKey false
  emit (← read)

def blockText (folded : Bool) : Lex Unit := do
  dropKeyStart
  allowKey true
  emit (← blockScalar folded)

/-- Characters that have a meaning of their own at the start of a token. -/
def isIndicator (c : Char) : Bool :=
  isFlowIndicator c || "-?:#&*!|>'\"%@".toList.contains c || c == '\x60'

def startsPlain (flow : Bool) (c next : Char) : Bool :=
  !(isSpace c || isIndicator c) || (c == '-' && !isBlank next) ||
    (!flow && (c == '?' || c == ':') && !isSpace next)

/-- Adds the next token; says whether it was the end of the text. -/
def next : Lex Bool := do
  skipToToken (← Lex.fuel)
  closeBlocks (← get).column
  let c ← look 0
  let after ← look 1
  let flow := (← get).inFlow
  if isEnd c then
    streamEnd
    return true
  else
    if (← get).column = 0 ∧ c = '%' then directiveLine
    else if ← atMarker '-' then boundary .documentStart
    else if ← atMarker '.' then boundary .documentEnd
    else if c = '[' then flowStart .flowSequenceStart
    else if c = '{' then flowStart .flowMappingStart
    else if c = ']' then flowEnd .flowSequenceEnd
    else if c = '}' then flowEnd .flowMappingEnd
    else if c = ',' then flowEntry
    else if c = '-' ∧ isSpace after then blockIndicator .blockSequenceStart .blockEntry true
    else if c = '?' ∧ (flow ∨ isSpace after) then
      blockIndicator .blockMappingStart .key (!flow)
    else if c = ':' ∧ (flow ∨ isSpace after) then valueIndicator
    else if c = '*' then keyLike (Token.alias <$> anchorName)
    else if c = '&' then keyLike (Token.anchor <$> anchorName)
    else if c = '!' then keyLike tag
    else if c = '|' ∧ !flow then blockText false
    else if c = '>' ∧ !flow then blockText true
    else if c = '\'' then keyLike (quotedScalar true)
    else if c = '"' then keyLike (quotedScalar false)
    else if startsPlain flow c after then keyLike plainScalar
    else fail
    return false

def run : Nat → Lex Unit
  | 0 => fail
  | fuel + 1 => do if ← next then return else run fuel

end Lex

/-- All tokens of a text, unless a character or a token is wrong. -/
def tokens? (cs : List Char) : Option (List Token) :=
  if cs.all isAllowed then
    (Lex.run (cs.length + 2) (Lexer.start cs)).map fun found => found.2.tokens.reverse
  else none

end LayeredConfig.Yaml
