import LayeredConfig.Yaml.Character
import LayeredConfig.Yaml.Token

set_option autoImplicit false

/-!
# The state of the lexer

The text that follows with its place, the open indentations and flow collections, the tokens so far
with the last in front, and for each flow level the place where a key may have started. The index of
a place counts bytes, its line and column count lines and characters.
-/
namespace LayeredConfig.Yaml

/-- A place where a key may have started: the number of tokens before it and its position. A
required one must turn out to be a key. -/
structure KeyStart where
  required : Bool
  tokens : Nat
  index : Nat
  line : Nat
  column : Nat
deriving DecidableEq, Repr

structure Lexer where
  rest : List Char
  index : Nat
  line : Nat
  column : Nat
  indent : Int
  indents : List Int
  keyAllowed : Bool
  /-- One place for each open flow collection, the innermost first, and one for the block. -/
  keyStarts : List (Option KeyStart)
  tokens : List Token
  count : Nat

abbrev Lex (α : Type) : Type := StateT Lexer Option α

namespace Lexer

def start (cs : List Char) : Lexer := ⟨cs, 0, 0, 0, -1, [], true, [none], [], 0⟩

def inFlow (lexer : Lexer) : Bool := 1 < lexer.keyStarts.length

end Lexer

namespace Lex

def fail {α : Type} : Lex α := fun _ => none

/-- The character `ahead` places further on, or NUL behind the end. -/
def look (ahead : Nat) : Lex Char := do return (← get).rest.getD ahead '\x00'

/-- The bytes of characters. -/
def width (cs : List Char) : Nat := cs.foldr (fun c size => c.utf8Size + size) 0

/-- Passes characters of one line. -/
def skip (count : Nat) : Lex Unit :=
  modify fun s =>
    { s with
      rest := s.rest.drop count
      index := s.index + width (s.rest.take count)
      column := s.column + count }

/-- Passes a line break and gives the break that it stands for. -/
def breakLine : Lex Char := do
  let c ← look 0
  let size := if c == '\r' && (← look 1) == '\n' then 2 else 1
  modify fun s =>
    { s with
      rest := s.rest.drop size
      index := s.index + width (s.rest.take size)
      line := s.line + 1
      column := 0 }
  return normalBreak c

/-- Takes all characters of a class, which holds no line breaks. -/
def takeWhile (p : Char → Bool) : Lex (List Char) := do
  let found := (← get).rest.takeWhile p
  skip found.length
  return found

def skipWhile (p : Char → Bool) : Lex Unit := do
  let _ ← takeWhile p

def skipBlanks : Lex Unit := skipWhile isBlank

/-- Passes a comment up to the end of its line. -/
def skipComment : Lex Unit := do
  if (← look 0) == '#' then skipWhile (!isBreakOrEnd ·)

/-- A bound on the steps that can still be made. -/
def fuel : Lex Nat := do return (← get).rest.length + 1

def emit (token : Token) : Lex Unit :=
  modify fun s => { s with tokens := token :: s.tokens, count := s.count + 1 }

/-- Puts a token behind the first `place` tokens. -/
def insertAt (place : Nat) (token : Token) : Lex Unit :=
  modify fun s =>
    let later := s.count - place
    { s with
      tokens := s.tokens.take later ++ token :: s.tokens.drop later
      count := s.count + 1 }

/-- Whether a line starts with the marker of a document boundary. -/
def atMarker (marker : Char) : Lex Bool := do
  let s ← get
  return s.column == 0 && List.replicate 3 marker == s.rest.take 3 && isSpace (← look 3)

def atBoundary : Lex Bool := do return (← atMarker '-') || (← atMarker '.')

end Lex

end LayeredConfig.Yaml
